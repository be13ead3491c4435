import Mathlib.Data.List.Perm.Basic
import Mathlib.Data.List.Count

/-!
# Events on disjoint parts of a state

A state has a part for every key, and every event has a key. Its deliveries are local
(`Partitioned.Local`) if an event's answer, and what it makes of the part under its key, depend on
that part only, and the other parts stay as they are.

`Local.part_run` and `Local.answers_run` project a run on one key. So two runs that deliver each
key's events in the same order leave the same parts and give the same answers (`Local.commute`),
however the events of different keys are interleaved.
-/

set_option autoImplicit false

namespace SmartLogistics.Library

/-- Lists whose elements of each key are the same, in the same order, are permutations of each
other. -/
theorem perm_of_filter_eq {α κ : Type} [DecidableEq κ] (key : α → κ) {l l' : List α}
    (h : ∀ k, l.filter (fun a => decide (key a = k)) = l'.filter (fun a => decide (key a = k))) :
    l.Perm l' := by
  classical
  rw [List.perm_iff_count]
  intro a
  have hcount : ∀ l : List α,
      (l.filter fun b => decide (key b = key a)).count a = l.count a := fun l =>
    List.count_filter (decide_eq_true rfl)
  rw [← hcount l, ← hcount l', h]

/-- Deliveries `δ` of events `ε` to a state `σ` with a part `π` for every key `κ`: what a delivery
does, and what its event would do to a part on its own. -/
structure Partitioned (σ δ ε κ π ρ : Type) where
  step : δ → σ → ρ × σ
  event : δ → ε
  key : ε → κ
  part : κ → σ → π
  answer : ε → π → ρ
  next : ε → π → π

namespace Partitioned

variable {σ δ ε κ π ρ : Type} (P : Partitioned σ δ ε κ π ρ)

/-- Deliveries one after the other: the events with their answers, and the state. -/
def run : List δ → σ → List (ε × ρ) × σ
  | [], s => ([], s)
  | d :: ds, s =>
    let (answers, final) := run ds (P.step d s).2
    ((P.event d, (P.step d s).1) :: answers, final)

/-- The same on one part. -/
def runPart : List ε → π → List (ε × ρ) × π
  | [], p => ([], p)
  | e :: es, p =>
    let (answers, final) := runPart es (P.next e p)
    ((e, P.answer e p) :: answers, final)

/-- The deliveries that satisfy `Q` are local in the states that satisfy `I`. -/
structure Local (Q : δ → Prop) (I : σ → Prop) : Prop where
  keeps : ∀ d s, Q d → I s → I (P.step d s).2
  answer : ∀ d s, Q d → I s →
    (P.step d s).1 = P.answer (P.event d) (P.part (P.key (P.event d)) s)
  next : ∀ d s, Q d → I s → P.part (P.key (P.event d)) (P.step d s).2 =
    P.next (P.event d) (P.part (P.key (P.event d)) s)
  other : ∀ d s k, Q d → I s → P.key (P.event d) ≠ k → P.part k (P.step d s).2 = P.part k s

variable {P} {Q : δ → Prop} {I : σ → Prop}

theorem Local.keeps_run (h : P.Local Q I) {ds : List δ} (hds : ∀ d ∈ ds, Q d) {s : σ} (hs : I s) :
    I (P.run ds s).2 := by
  induction ds generalizing s with
  | nil => exact hs
  | cons d ds ih =>
    exact ih (fun x hx => hds x (List.mem_cons_of_mem _ hx))
      (h.keeps d s (hds d List.mem_cons_self) hs)

section Projection

variable [DecidableEq κ]

/-- On one key a run leaves the part, and gives the answers, that the key's own events do. -/
theorem Local.project (h : P.Local Q I) {ds : List δ} (hds : ∀ d ∈ ds, Q d) {s : σ} (hs : I s)
    (k : κ) :
    ((P.run ds s).1.filter fun x => decide (P.key x.1 = k), P.part k (P.run ds s).2) =
      P.runPart ((ds.map P.event).filter fun e => decide (P.key e = k)) (P.part k s) := by
  induction ds generalizing s with
  | nil => rfl
  | cons d ds ih =>
    have hd := hds d List.mem_cons_self
    have hrest := ih (fun x hx => hds x (List.mem_cons_of_mem _ hx)) (h.keeps d s hd hs)
    by_cases hk : P.key (P.event d) = k
    · -- the event is one of the key's own
      subst hk
      rw [h.next d s hd hs] at hrest
      simp only [run, List.map_cons, List.filter_cons, decide_true, if_true, runPart, ← hrest,
        h.answer d s hd hs]
    · rw [h.other d s k hd hs hk] at hrest
      simp only [run, List.map_cons, List.filter_cons, hk, decide_false, Bool.false_eq_true,
        if_false, ← hrest]

theorem Local.part_run (h : P.Local Q I) {ds : List δ} (hds : ∀ d ∈ ds, Q d) {s : σ} (hs : I s)
    (k : κ) : P.part k (P.run ds s).2 =
      (P.runPart ((ds.map P.event).filter fun e => decide (P.key e = k)) (P.part k s)).2 :=
  congrArg Prod.snd (h.project hds hs k)

theorem Local.answers_run (h : P.Local Q I) {ds : List δ} (hds : ∀ d ∈ ds, Q d) {s : σ} (hs : I s)
    (k : κ) : ((P.run ds s).1.filter fun x => decide (P.key x.1 = k)) =
      (P.runPart ((ds.map P.event).filter fun e => decide (P.key e = k)) (P.part k s)).1 :=
  congrArg Prod.fst (h.project hds hs k)

/-- Runs that deliver each key's events in the same order give the same answers and leave the same
parts. -/
theorem Local.commute (h : P.Local Q I) {ds ds' : List δ} (hds : ∀ d ∈ ds, Q d)
    (hds' : ∀ d ∈ ds', Q d) {s : σ} (hs : I s)
    (horder : ∀ k, ((ds.map P.event).filter fun e => decide (P.key e = k)) =
      (ds'.map P.event).filter fun e => decide (P.key e = k)) :
    (P.run ds s).1.Perm (P.run ds' s).1 ∧
      ∀ k, P.part k (P.run ds s).2 = P.part k (P.run ds' s).2 := by
  constructor
  · refine perm_of_filter_eq (fun x => P.key x.1) fun k => ?_
    rw [h.answers_run hds hs, h.answers_run hds' hs, horder]
  · intro k
    rw [h.part_run hds hs, h.part_run hds' hs, horder]

end Projection

end Partitioned

end SmartLogistics.Library
