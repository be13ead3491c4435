import SmartLogistics.Library.Table
import Mathlib.Algebra.BigOperators.Group.Finset.Piecewise

/-!
# Totals split up

A total over the rows of a table is the sum of its totals over the values of a column
(`totalBy_eq_sum`), and of those over two kinds of rows (`totalBy_or`). Rows that match one by one
have the total of the rows they match (`totalBy_of_forall₂`).
-/

set_option autoImplicit false

namespace SmartLogistics.Library.Table

variable {ρ : Type} {p q : ρ → Bool} {w : ρ → Int} {rows : List ρ}

/-- Rows of two kinds that exclude each other. -/
theorem totalBy_or (h : ∀ r ∈ rows, p r = true → q r = false) :
    totalBy (fun r => p r || q r) w rows = totalBy p w rows + totalBy q w rows := by
  induction rows with
  | nil => rfl
  | cons r rows ih =>
    have hr := h r List.mem_cons_self
    rw [totalBy_cons, totalBy_cons, totalBy_cons, ih fun x hx => h x (List.mem_cons_of_mem _ hx)]
    cases hp : p r with
    | true =>
      rw [hr hp]
      simp only [Bool.or_false, if_true, Bool.false_eq_true, if_false]
      omega
    | false =>
      simp only [Bool.false_or, Bool.false_eq_true, if_false]
      omega

/-- The rows that `p` counts are those that `q` counts with it and those that `q` does not. -/
theorem totalBy_split (q : ρ → Bool) :
    totalBy p w rows = totalBy (fun r => p r && q r) w rows +
      totalBy (fun r => p r && !q r) w rows := by
  rw [← totalBy_or fun r _ h => by simp only [Bool.and_eq_true] at h; simp [h.2]]
  exact totalBy_congr (fun r _ => by cases p r <;> cases q r <;> rfl) fun _ _ _ => rfl

theorem totalBy_neg : totalBy p (fun r => -w r) rows = -totalBy p w rows := by
  induction rows with
  | nil => rfl
  | cons r rows ih =>
    rw [totalBy_cons, totalBy_cons, ih]
    split <;> omega

/-- The sum of a value over a finite set in which it counts at one place. -/
theorem sum_ite_key {S : Finset Nat} {k : Nat} (hk : k ∈ S) (b : Bool) (x : Int) :
    (∑ j ∈ S, if (k == j && b) = true then x else 0) = if b = true then x else 0 := by
  cases b with
  | true =>
    simp only [Bool.and_true, beq_iff_eq, if_true]
    rw [Finset.sum_ite_eq S k fun _ => x, if_pos hk]
  | false => simp

/-- A total is the sum of the totals over each value of a column. -/
theorem totalBy_eq_sum {key : ρ → Nat} {S : Finset Nat} (h : ∀ r ∈ rows, key r ∈ S) :
    totalBy p w rows = ∑ k ∈ S, totalBy (fun r => key r == k && p r) w rows := by
  induction rows with
  | nil => simp
  | cons r rows ih =>
    have hsplit : ∀ k ∈ S, totalBy (fun r => key r == k && p r) w (r :: rows) =
        (if (key r == k && p r) = true then w r else 0) +
          totalBy (fun r => key r == k && p r) w rows := fun k _ => totalBy_cons ..
    rw [totalBy_cons, ih fun x hx => h x (List.mem_cons_of_mem _ hx), Finset.sum_congr rfl hsplit,
      Finset.sum_add_distrib, sum_ite_key (h r List.mem_cons_self)]

/-- Rows that match one by one, of the same kind and with the same value. -/
theorem totalBy_of_forall₂ {τ : Type} {R : ρ → τ → Prop} {u : List τ} {q : τ → Bool} {v : τ → Int}
    (h : List.Forall₂ R rows u) (hR : ∀ a b, R a b → q b = p a ∧ v b = w a) :
    totalBy q v u = totalBy p w rows := by
  induction h with
  | nil => rfl
  | cons hab _ ih =>
    obtain ⟨hq, hv⟩ := hR _ _ hab
    rw [totalBy_cons, totalBy_cons, ih, hq, hv]

end SmartLogistics.Library.Table
