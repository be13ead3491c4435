import Mathlib.Data.List.Basic
import SmartLogistics.Library.Machine

/-!
# Histories

A history is the list of what has happened so far, oldest first. `Throughout P` says of a history
that each of its entries met the condition `P` on the entries before it, and `Since P q` that `q`
has held of all entries since one that met `P`. Both are computed entry by entry
(`throughout_concat`, `since_concat`).

`Machine.Run.iff_runOf` is the rule for a machine whose state carries its history: a property that
each step keeps exactly under a condition on the step is the property of the runs whose steps all
meet the condition. `Machine.exec_preserves` is the rule for a property of a state and of the
labels on the way to it.
-/

set_option autoImplicit false

namespace SmartLogistics.Library

universe u v

variable {α : Type u} {P : List α → α → Prop} {q : α → Prop} {log : List α} {x : α}

/-- Each entry met the condition on the entries before it. -/
def Throughout (P : List α → α → Prop) (log : List α) : Prop :=
  ∀ before x after, log = before ++ x :: after → P before x

/-- All entries since one that met the condition on the entries before it have had `q`. -/
def Since (P : List α → α → Prop) (q : α → Prop) (log : List α) : Prop :=
  ∃ before x after, log = before ++ x :: after ∧ P before x ∧ ∀ y ∈ after, q y

/-- An entry of a history is its last one, or one of those before. -/
theorem concat_eq_append_cons {before after : List α} {y : α} :
    log ++ [x] = before ++ y :: after ↔
      (before = log ∧ y = x ∧ after = []) ∨
        ∃ rest, after = rest ++ [x] ∧ log = before ++ y :: rest := by
  constructor
  · intro h
    rcases List.eq_nil_or_concat after with rfl | ⟨rest, last, rfl⟩
    · obtain ⟨rfl, hlast⟩ := List.append_singleton_inj.1 h
      exact Or.inl ⟨rfl, hlast.symm, rfl⟩
    · rw [List.concat_eq_append] at h ⊢
      have hlast : log ++ [x] = (before ++ y :: rest) ++ [last] := by
        rw [h, List.append_assoc, List.cons_append]
      obtain ⟨rfl, rfl⟩ := List.append_singleton_inj.1 hlast
      exact Or.inr ⟨rest, rfl, rfl⟩
  · rintro (⟨rfl, rfl, rfl⟩ | ⟨rest, rfl, rfl⟩)
    · rfl
    · rw [List.append_assoc, List.cons_append]

theorem throughout_nil : Throughout P [] := by
  intro before x after h
  exact absurd h.symm (List.append_ne_nil_of_right_ne_nil _ (List.cons_ne_nil _ _))

theorem throughout_concat : Throughout P (log ++ [x]) ↔ Throughout P log ∧ P log x := by
  constructor
  · intro h
    refine ⟨fun before y after hlog => ?_, h log x [] rfl⟩
    exact h before y (after ++ [x]) (concat_eq_append_cons.2 (Or.inr ⟨after, rfl, hlog⟩))
  · rintro ⟨hbefore, hlast⟩ before y after hlog
    rcases concat_eq_append_cons.1 hlog with ⟨rfl, rfl, -⟩ | ⟨rest, -, hrest⟩
    · exact hlast
    · exact hbefore before y rest hrest

theorem not_since_nil : ¬ Since P q ([] : List α) := by
  rintro ⟨before, x, after, h, -⟩
  exact absurd h.symm (List.append_ne_nil_of_right_ne_nil _ (List.cons_ne_nil _ _))

theorem since_concat : Since P q (log ++ [x]) ↔ P log x ∨ Since P q log ∧ q x := by
  constructor
  · rintro ⟨before, y, after, hlog, hy, hafter⟩
    rcases concat_eq_append_cons.1 hlog with ⟨rfl, rfl, -⟩ | ⟨rest, rfl, hrest⟩
    · exact Or.inl hy
    · refine Or.inr ⟨⟨before, y, rest, hrest, hy, fun z hz => ?_⟩, ?_⟩
      · exact hafter z (List.mem_append_left _ hz)
      · exact hafter x (List.mem_append_right _ (List.mem_singleton_self x))
  · rintro (hx | ⟨⟨before, y, rest, rfl, hy, hrest⟩, hx⟩)
    · exact ⟨log, x, [], rfl, hx, fun z hz => absurd hz List.not_mem_nil⟩
    · refine ⟨before, y, rest ++ [x], ?_, hy, fun z hz => ?_⟩
      · rw [List.append_assoc, List.cons_append]
      · rcases List.mem_append.1 hz with hz | hz
        · exact hrest z hz
        · rwa [List.mem_singleton.1 hz]

/-- A property that each step keeps exactly under a condition holds exactly after the runs whose
steps all meet the condition. -/
theorem Machine.Run.iff_runOf {State : Type u} {Label : Type v} {M : Machine State Label}
    {ok : State → Label → Prop} {I Q : State → Prop} {s s' : State}
    (hstep : ∀ s l s', I s → M.next s l = some s' → I s' ∧ (Q s' ↔ Q s ∧ ok s l))
    (h : M.Run s s') (hI : I s) (hQ : Q s) : Q s' ↔ M.RunOf ok s s' := by
  have hall : I s' ∧ (Q s' → M.RunOf ok s s') := by
    induction h with
    | refl => exact ⟨hI, fun _ => Relation.ReflTransGen.refl⟩
    | tail _ hlast ih =>
      obtain ⟨l, -, hnext⟩ := hlast
      obtain ⟨hI', hiff⟩ := hstep _ l _ ih.1 hnext
      refine ⟨hI', fun hQ' => ?_⟩
      obtain ⟨hbefore, hok⟩ := hiff.1 hQ'
      exact (ih.2 hbefore).tail ⟨l, hok, hnext⟩
  refine ⟨hall.2, fun hrun => ?_⟩
  have hboth : I s' ∧ Q s' := by
    refine Machine.RunOf.preserves (I := fun s => I s ∧ Q s) (fun s l s' hs hok hnext => ?_) hrun
      ⟨hI, hQ⟩
    obtain ⟨hI', hiff⟩ := hstep s l s' hs.1 hnext
    exact ⟨hI', hiff.2 ⟨hs.2, hok⟩⟩
  exact hboth.2

/-- A property of a state and of the labels on the way to it, if every step keeps it, holds after
every executed list of labels. -/
theorem Machine.exec_preserves {State : Type u} {Label : Type v} {M : Machine State Label}
    {I : State → List Label → Prop}
    (hI : ∀ s l s' past, I s past → M.next s l = some s' → I s' (past ++ [l])) (ls : List Label)
    {s s' : State} {past : List Label} (h : I s past) (hrun : M.exec s ls = some s') :
    I s' (past ++ ls) := by
  induction ls generalizing s past with
  | nil =>
    cases hrun
    rw [List.append_nil]
    exact h
  | cons l ls ih =>
    simp only [exec, execOf, if_true] at hrun
    obtain ⟨m, hm, hrest⟩ := Option.bind_eq_some_iff.1 hrun
    have hstep := ih (hI s l m past h hm) hrest
    rwa [List.append_assoc] at hstep

end SmartLogistics.Library
