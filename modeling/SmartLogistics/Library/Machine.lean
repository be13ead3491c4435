import Mathlib.Logic.Relation

/-!
# Runs of a machine with a partial step function

A machine is a partial step function on states with one label a step. Its runs are the reflexive
transitive closure of its steps (`Machine.Run`); `Machine.RunOf ok` keeps only the steps whose
label `ok` admits in the state the step leaves, which is how a condition on every step of a run is
stated. An executed label list is a run (`runOf_of_execOf`), so a run on fixed labels is evaluated
and not derived by hand. A condition on what has happened before is stated on a machine with an
observer (`Machine.observed`), whose runs are those of the machine.
-/

set_option autoImplicit false

namespace SmartLogistics.Library

universe u v

/-- A partial step function on states, one label a step. -/
structure Machine (State : Type u) (Label : Type v) where
  next : State → Label → Option State

namespace Machine

variable {State : Type u} {Label : Type v} (M : Machine State Label)

/-- One step whose label is admitted by `ok` in the state it leaves. -/
def StepOf (ok : State → Label → Prop) (s s' : State) : Prop :=
  ∃ l, ok s l ∧ M.next s l = some s'

/-- A run all of whose steps are admitted by `ok`. -/
abbrev RunOf (ok : State → Label → Prop) : State → State → Prop :=
  Relation.ReflTransGen (M.StepOf ok)

/-- A run. -/
abbrev Run : State → State → Prop := M.RunOf fun _ _ => True

/-- The state after a list of labels, if every step is admitted and enabled. -/
def execOf (ok : State → Label → Prop) [∀ s l, Decidable (ok s l)] :
    State → List Label → Option State
  | s, [] => some s
  | s, l :: ls => if ok s l then (M.next s l).bind fun s' => execOf ok s' ls else none

/-- The state after a list of labels, if every step is enabled. -/
abbrev exec : State → List Label → Option State := M.execOf fun _ _ => True

variable {M}

/-- A property kept by every admitted step is kept by every admitted run. -/
theorem RunOf.preserves {ok : State → Label → Prop} {I : State → Prop}
    (hI : ∀ s l s', I s → ok s l → M.next s l = some s' → I s') {s s' : State}
    (h : M.RunOf ok s s') (hs : I s) : I s' := by
  induction h with
  | refl => exact hs
  | tail _ hstep ih =>
    obtain ⟨l, hok, hnext⟩ := hstep
    exact hI _ l _ ih hok hnext

/-- Admitting fewer steps gives fewer runs. -/
theorem RunOf.mono {ok ok' : State → Label → Prop} (hok : ∀ s l, ok s l → ok' s l) {s s' : State}
    (h : M.RunOf ok s s') : M.RunOf ok' s s' :=
  Relation.ReflTransGen.mono (fun _ _ ⟨l, hl, hnext⟩ => ⟨l, hok _ l hl, hnext⟩) _ _ h

theorem RunOf.toRun {ok : State → Label → Prop} {s s' : State} (h : M.RunOf ok s s') :
    M.Run s s' :=
  RunOf.mono (fun _ _ _ => trivial) h

/-- A map of states that turns every step into a run of another machine turns runs into runs. -/
theorem RunOf.project {State' Label' : Type} {N : Machine State' Label'} {f : State → State'}
    (hf : ∀ s l s', M.next s l = some s' → N.Run (f s) (f s')) {s s' : State} (h : M.Run s s') :
    N.Run (f s) (f s') :=
  Relation.ReflTransGen.lift' f (fun _ _ ⟨l, _, hnext⟩ => hf _ l _ hnext) s s' h

/-- A step is a run. -/
theorem run_of_next {s s' : State} {l : Label} (h : M.next s l = some s') : M.Run s s' :=
  Relation.ReflTransGen.single ⟨l, trivial, h⟩

/-- An executed label list is a run. -/
theorem runOf_of_execOf {ok : State → Label → Prop} [∀ s l, Decidable (ok s l)] :
    ∀ (ls : List Label) {s s' : State}, M.execOf ok s ls = some s' → M.RunOf ok s s'
  | [], s, s', h => by
    simp only [execOf, Option.some.injEq] at h
    subst h
    exact Relation.ReflTransGen.refl
  | l :: ls, s, s', h => by
    simp only [execOf] at h
    split at h
    · rename_i hok
      rw [Option.bind_eq_some_iff] at h
      obtain ⟨m, hm, hrest⟩ := h
      exact Relation.ReflTransGen.head ⟨l, hok, hm⟩ (runOf_of_execOf ls hrest)
    · cases h

/-- An admitted run is a run. -/
theorem exec_of_execOf {ok : State → Label → Prop} [∀ s l, Decidable (ok s l)] (ls : List Label)
    {s s' : State} (h : M.execOf ok s ls = some s') : M.exec s ls = some s' := by
  induction ls generalizing s with
  | nil => exact h
  | cons l ls ih =>
    simp only [execOf] at h
    split at h
    · obtain ⟨m, hm, hrest⟩ := Option.bind_eq_some_iff.1 h
      simp only [exec, execOf, if_true, hm, Option.bind_some]
      exact ih hrest
    · cases h

/-- One label list after another. -/
theorem exec_append (ls ls' : List Label) (s : State) :
    M.exec s (ls ++ ls') = (M.exec s ls).bind fun m => M.exec m ls' := by
  induction ls generalizing s with
  | nil => rfl
  | cons l ls ih =>
    simp only [exec, execOf, List.cons_append, if_true, Option.bind_assoc] at ih ⊢
    exact congrArg _ (funext ih)

theorem exec_singleton (l : Label) (s : State) : M.exec s [l] = M.next s l := by
  simp only [exec, execOf, if_true, Option.bind_fun_some]

theorem run_of_exec (ls : List Label) {s s' : State} (h : M.exec s ls = some s') : M.Run s s' :=
  runOf_of_execOf ls h

/-! ## Observers -/

variable {Note : Type v}

/-- The machine with an observer, which notes something of each step and holds none back. -/
def observed (M : Machine State Label) (note : State → Label → State → Note → Note) :
    Machine (State × Note) Label where
  next := fun x l => (M.next x.1 l).map fun s' => (s', note x.1 l s' x.2)

theorem observed_next {note : State → Label → State → Note → Note} {x y : State × Note} {l : Label}
    (h : (M.observed note).next x l = some y) :
    M.next x.1 l = some y.1 ∧ y.2 = note x.1 l y.1 x.2 := by
  obtain ⟨s', hs', rfl⟩ := Option.map_eq_some_iff.1 h
  exact ⟨hs', rfl⟩

/-- Every run of the machine can be observed. -/
theorem Run.observed {note : State → Label → State → Note → Note} {s s' : State} (h : M.Run s s')
    (n : Note) : ∃ n', (M.observed note).Run (s, n) (s', n') := by
  induction h with
  | refl => exact ⟨n, Relation.ReflTransGen.refl⟩
  | tail _ hstep ih =>
    obtain ⟨m, hm⟩ := ih
    obtain ⟨l, -, hnext⟩ := hstep
    exact ⟨_, hm.tail ⟨l, trivial, Option.map_eq_some_iff.2 ⟨_, hnext, rfl⟩⟩⟩

end Machine

end SmartLogistics.Library
