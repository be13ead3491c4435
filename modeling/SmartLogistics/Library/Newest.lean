import Mathlib.Order.Lattice
import Mathlib.Data.List.Induction

/-!
# A register that keeps its newest value

Values carry a stamp from a linear order. `Newest.put` replaces the value of a register unless the
new one is older, so a tie takes the new one. `Newest.putAll_spec` says what a register holds after
any list of values: a value of the list with the greatest stamp, or the old value if that is newer
than all of them. Where equal stamps mean equal values this leaves one possibility
(`Newest.IsLast.unique`), so neither the order of the values nor their repetition matters
(`Newest.putAll_congr`).
-/

set_option autoImplicit false

namespace SmartLogistics.Library.Newest

variable {ρ τ : Type} [LinearOrder τ] (stamp : ρ → τ)

/-- Put a value into a register that may hold one. -/
def put (old : Option ρ) (x : ρ) : ρ :=
  match old with
  | none => x
  | some r => if stamp r ≤ stamp x then x else r

/-- Put values one after another. -/
def putAll (old : Option ρ) (xs : List ρ) : Option ρ :=
  xs.foldl (fun o x => some (put stamp o x)) old

/-- `r` is the newest of the values `xs`, or the old value if that is newer than all of them. -/
structure IsLast (old : Option ρ) (xs : List ρ) (r : ρ) : Prop where
  source : r ∈ xs ∨ old = some r ∧ ∀ x ∈ xs, stamp x < stamp r
  bound : ∀ x ∈ xs, stamp x ≤ stamp r
  bound_old : ∀ o, old = some o → stamp o ≤ stamp r

variable {stamp} {old : Option ρ} {xs ys : List ρ} {r r' x : ρ}

theorem putAll_snoc (old : Option ρ) (xs : List ρ) (x : ρ) :
    putAll stamp old (xs ++ [x]) = some (put stamp (putAll stamp old xs) x) := by
  rw [putAll, List.foldl_append]
  rfl

/-- A register's stamp never goes back. -/
theorem le_put (h : old = some r) : stamp r ≤ stamp (put stamp old x) := by
  subst h
  simp only [put]
  split
  · rename_i hle
    exact hle
  · exact le_rfl

theorem le_put_new (old : Option ρ) (x : ρ) : stamp x ≤ stamp (put stamp old x) := by
  cases old with
  | none => exact le_rfl
  | some r =>
    simp only [put]
    split
    · exact le_rfl
    · rename_i hlt
      exact (not_le.1 hlt).le

variable (stamp) in
/-- What a register holds after a list of values. -/
theorem putAll_spec (old : Option ρ) (xs : List ρ) :
    match putAll stamp old xs with
    | none => old = none ∧ xs = []
    | some r => IsLast stamp old xs r := by
  induction xs using List.reverseRecOn with
  | nil =>
    cases old with
    | none => exact ⟨rfl, rfl⟩
    | some r =>
      refine ⟨Or.inr ⟨rfl, fun x hx => absurd hx List.not_mem_nil⟩,
        fun x hx => absurd hx List.not_mem_nil, fun o ho => ?_⟩
      cases ho
      exact le_rfl
  | append_singleton xs x ih =>
    rw [putAll_snoc]
    cases hbefore : putAll stamp old xs with
    | none =>
      rw [hbefore] at ih
      obtain ⟨rfl, rfl⟩ := ih
      refine ⟨Or.inl List.mem_cons_self, fun y hy => ?_, fun o ho => by cases ho⟩
      rw [List.nil_append, List.mem_singleton] at hy
      rw [hy]
      exact le_rfl
    | some r =>
      rw [hbefore] at ih
      have hstep : stamp r ≤ stamp (put stamp (some r) x) := le_put rfl
      refine ⟨?_, fun y hy => ?_, fun o ho => (ih.bound_old o ho).trans hstep⟩
      · -- the new value is taken, or it is older than the one held
        by_cases hle : stamp r ≤ stamp x
        · refine Or.inl ?_
          simp only [put, if_pos hle]
          exact List.mem_append_right _ List.mem_cons_self
        · simp only [put, if_neg hle]
          refine ih.source.imp (List.mem_append_left _) fun ⟨hold, hnewer⟩ => ⟨hold, fun y hy => ?_⟩
          rcases List.mem_append.1 hy with hy | hy
          · exact hnewer y hy
          · rw [List.mem_singleton.1 hy]
            exact not_le.1 hle
      · rcases List.mem_append.1 hy with hy | hy
        · exact (ih.bound y hy).trans hstep
        · rw [List.mem_singleton.1 hy]
          exact le_put_new _ _

/-- Where equal stamps mean equal values, only one value is the last. -/
theorem IsLast.unique (hties : ∀ x ∈ xs, ∀ y ∈ xs, stamp x = stamp y → x = y)
    (h : IsLast stamp old xs r) (h' : IsLast stamp old xs r') : r = r' := by
  rcases h.source with hr | ⟨hold, hnewer⟩
  · rcases h'.source with hr' | ⟨hold', hnewer'⟩
    · exact hties r hr r' hr' (le_antisymm (h'.bound r hr) (h.bound r' hr'))
    · exact absurd (h.bound_old r' hold') (not_le.2 (hnewer' r hr))
  · rcases h'.source with hr' | ⟨hold', -⟩
    · exact absurd (h'.bound_old r hold) (not_le.2 (hnewer r' hr'))
    · exact Option.some.inj (hold.symm.trans hold')

/-- Being the last does not depend on the order of the values or on their repetition. -/
theorem IsLast.congr (hmem : ∀ x, x ∈ xs ↔ x ∈ ys) (h : IsLast stamp old xs r) :
    IsLast stamp old ys r where
  source := h.source.imp (hmem r).1 fun ⟨hold, hnewer⟩ =>
    ⟨hold, fun x hx => hnewer x ((hmem x).2 hx)⟩
  bound := fun x hx => h.bound x ((hmem x).2 hx)
  bound_old := h.bound_old

/-- Two lists of the same values leave a register the same, whatever their order and repetitions. -/
theorem putAll_congr (hties : ∀ x ∈ xs, ∀ y ∈ xs, stamp x = stamp y → x = y)
    (hmem : ∀ x, x ∈ xs ↔ x ∈ ys) : putAll stamp old xs = putAll stamp old ys := by
  have hxs := putAll_spec stamp old xs
  have hys := putAll_spec stamp old ys
  cases hx : putAll stamp old xs with
  | none =>
    rw [hx] at hxs
    obtain ⟨rfl, rfl⟩ := hxs
    have hnil : ys = [] := List.eq_nil_iff_forall_not_mem.2 fun y hy =>
      List.not_mem_nil ((hmem y).2 hy)
    rw [hnil]
    rfl
  | some r =>
    rw [hx] at hxs
    cases hy : putAll stamp old ys with
    | none =>
      rw [hy] at hys
      obtain ⟨rfl, rfl⟩ := hys
      have hnil : xs = [] := List.eq_nil_iff_forall_not_mem.2 fun x hx' =>
        List.not_mem_nil ((hmem x).1 hx')
      rw [hnil] at hx
      cases hx
    | some r' =>
      rw [hy] at hys
      rw [hxs.unique hties (hys.congr fun x => (hmem x).symm)]

end SmartLogistics.Library.Newest
