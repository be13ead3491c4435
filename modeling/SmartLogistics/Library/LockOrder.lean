import SmartLogistics.Library.Transaction
import Mathlib.Order.Basic

/-!
# Lock order and deadlock

If every session that waits for a row asks for one ranked above every row it holds, the waits-for
relation has no cycle (`not_waits_cycle`): along a chain of waiting sessions the ranks of the rows
they ask for increase.
-/

set_option autoImplicit false

namespace SmartLogistics.Library

variable {Db Row ε α Op ρ : Type} [Preorder ρ]

/-- `Config.Waits` as a test. -/
def Config.waitsOn [DecidableEq Row] (c : Config Db Row ε α Op) (t u : Nat) : Bool :=
  u != t && match c.sessions t with
    | some s =>
      match s.prog with
      | .lock r _ => c.locks r == some u
      | _ => false
    | none => false

omit [Preorder ρ] in
theorem waits_of_waitsOn [DecidableEq Row] {c : Config Db Row ε α Op} {t u : Nat}
    (h : c.waitsOn t u = true) : c.Waits t u := by
  simp only [Config.waitsOn, Bool.and_eq_true, bne_iff_ne, ne_eq] at h
  obtain ⟨hne, h⟩ := h
  split at h
  · rename_i s hs
    split at h
    · rename_i r k hk
      exact ⟨hne, s, r, k, hs, hk, by simpa [Config.Held] using h⟩
    · cases h
  · cases h

/-- Every session that is about to lock a row it does not hold ranks that row above all rows it
holds. -/
def Config.Ordered (rank : Row → ρ) (c : Config Db Row ε α Op) : Prop :=
  ∀ t s r k, c.sessions t = some s → s.prog = .lock r k → ¬ c.Held t r →
    ∀ x, c.Held t x → rank x < rank r

/-- At the end of a chain of waiting sessions a row is held that ranks at least as high as the row
the first of them asks for. -/
theorem rank_le_of_waits {rank : Row → ρ} {c : Config Db Row ε α Op} (h : c.Ordered rank)
    {t u : Nat} (hw : Relation.TransGen c.Waits t u) :
    ∃ s r k x, c.sessions t = some s ∧ s.prog = .lock r k ∧ ¬ c.Held t r ∧ c.Held u x ∧
      rank r ≤ rank x := by
  have hnot : ∀ {a b : Nat} {r : Row}, b ≠ a → c.Held b r → ¬ c.Held a r := by
    intro a b r hba hb ha
    rw [Config.Held, ha, Option.some.injEq] at hb
    exact hba hb.symm
  induction hw with
  | single hstep =>
    obtain ⟨hne, s, r, k, hs, hk, hheld⟩ := hstep
    exact ⟨s, r, k, r, hs, hk, hnot hne hheld, hheld, le_refl _⟩
  | tail _ hstep ih =>
    obtain ⟨s, r, k, x, hs, hk, hfree, hx, hle⟩ := ih
    obtain ⟨hne, s', r', k', hs', hk', hheld⟩ := hstep
    have hlt : rank x < rank r' := h _ s' r' k' hs' hk' (hnot hne hheld) x hx
    exact ⟨s, r, k, r', hs, hk, hfree, hheld, hle.trans hlt.le⟩

/-- Ordered lock requests exclude a cycle of waiting sessions. -/
theorem not_waits_cycle {rank : Row → ρ} {c : Config Db Row ε α Op} (h : c.Ordered rank)
    (t : Nat) : ¬ Relation.TransGen c.Waits t t := by
  intro hw
  obtain ⟨s, r, k, x, hs, hk, hfree, hx, hle⟩ := rank_le_of_waits h hw
  exact (h t s r k hs hk hfree x hx).not_ge hle

end SmartLogistics.Library
