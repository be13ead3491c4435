import Mathlib.Data.List.Nodup
import Mathlib.Data.List.Sort
import Mathlib.Order.Lattice

/-!
# Paging through a sorted query

A query that sorts its rows by a key may answer with any order in which the keys ascend, and with
another one each time (`Answers`). A walk asks for one page after the other.

`visitsOnce_iff`: a walk is sure to visit each row once exactly if no page ends between two rows
with the same key. That holds of every page size if no two rows have the same key
(`edgesApart_of_nodup`).
-/

set_option autoImplicit false

namespace SmartLogistics.Library

variable {ρ κ : Type} [LinearOrder κ] (key : ρ → κ)

/-- An order of the rows in which the keys ascend. -/
structure Ordered (rows order : List ρ) : Prop where
  perm : order.Perm rows
  sorted : order.Pairwise fun a b => key a ≤ key b

/-- What a query may answer: a page of such an order, and the number of all rows. -/
def Answers (rows : List ρ) (limit offset : Nat) (answer : List ρ × Nat) : Prop :=
  ∃ order, Ordered key rows order ∧ answer = ((order.drop offset).take limit, rows.length)

/-- The pages of a walk that goes on up to the total it is told. -/
def walk (limit : Nat) (answers : Nat → List ρ × Nat) : List ρ :=
  (List.range (((answers 0).2 + limit - 1) / limit)).flatMap fun n => (answers n).1

/-- Every walk visits each row once, and is told their number. -/
def VisitsOnce (rows : List ρ) (limit : Nat) : Prop :=
  ∀ answers, (∀ n, Answers key rows limit (n * limit) (answers n)) →
    (walk limit answers).Perm rows ∧ ∀ n, (answers n).2 = rows.length

/-- The keys of the rows in ascending order. -/
def sortedKeys (rows : List ρ) : List κ := (rows.map key).insertionSort (· ≤ ·)

/-- No page ends between two rows with the same key. -/
def EdgesApart (rows : List ρ) (limit : Nat) : Prop :=
  ∀ n, 0 < n → n * limit < rows.length →
    (sortedKeys key rows)[n * limit - 1]? ≠ (sortedKeys key rows)[n * limit]?

variable {key} {rows order order' : List ρ} {limit : Nat}

/-! ## Orders -/

/-- A single page has all rows. -/
theorem Answers.mem_iff {answer : List ρ × Nat} (h : Answers key rows limit 0 answer)
    (hlimit : rows.length ≤ limit) (row : ρ) : row ∈ answer.1 ↔ row ∈ rows := by
  obtain ⟨order, hordered, rfl⟩ := h
  rw [List.drop_zero, List.take_of_length_le (hordered.perm.length_eq ▸ hlimit)]
  exact hordered.perm.mem_iff

/-- Sorting by any relation that compares the keys gives one of the orders. -/
theorem ordered_of_le {r : ρ → ρ → Prop} [DecidableRel r] (hr : ∀ a b, r a b ↔ key a ≤ key b)
    (rows : List ρ) : Ordered key rows (rows.insertionSort r) where
  perm := List.perm_insertionSort r rows
  sorted := by
    have htotal : Std.Total r := ⟨fun a b => by
      rw [hr, hr]
      exact le_total (key a) (key b)⟩
    have htrans : IsTrans ρ r := ⟨fun a b c => by
      rw [hr, hr, hr]
      exact le_trans⟩
    exact (List.pairwise_insertionSort r rows).imp fun h => (hr _ _).1 h

theorem ordered_insertionSort (rows : List ρ) :
    Ordered key rows (rows.insertionSort fun a b => key a ≤ key b) :=
  ordered_of_le (fun _ _ => Iff.rfl) rows

/-- All orders have their keys in common. -/
theorem Ordered.keys_eq (h : Ordered key rows order) : order.map key = sortedKeys key rows := by
  refine List.Perm.eq_of_pairwise' (r := (· ≤ ·)) ?_ ?_ ?_
  · exact List.pairwise_map.2 h.sorted
  · exact List.pairwise_insertionSort _ _
  · exact (h.perm.map key).trans (List.perm_insertionSort _ _).symm

/-- Rows with keys of their own have one order. -/
theorem Ordered.eq_of_nodup {rows' : List ρ} (h : Ordered key rows order)
    (h' : Ordered key rows' order') (hperm : rows.Perm rows') (hrows : (rows.map key).Nodup) :
    order = order' := by
  have horder : (order.map key).Nodup := (h.perm.map key).nodup_iff.2 hrows
  have hboth : order.Perm order' := (h.perm.trans hperm).trans h'.perm.symm
  refine List.Perm.eq_of_pairwise (fun a b ha hb hle hge => ?_) h.sorted h'.sorted hboth
  exact List.inj_on_of_nodup_map horder ha (hboth.mem_iff.2 hb) (le_antisymm hle hge)

theorem Ordered.key_getElem? (h : Ordered key rows order) (i : Nat) :
    (sortedKeys key rows)[i]? = order[i]?.map key := by
  rw [← h.keys_eq, List.getElem?_map]

/-- Up to an edge between different keys are the rows with the keys up to there. -/
theorem Ordered.take_eq_filter (h : Ordered key rows order) {n : Nat} (hn : n + 1 < order.length)
    (hedge : key order[n] ≠ key order[n + 1]) :
    order.take (n + 1) = order.filter fun a => decide (key a ≤ key order[n]) := by
  have hsorted := List.pairwise_iff_getElem.1 h.sorted
  have hlt : key order[n] < key order[n + 1] :=
    lt_of_le_of_ne (hsorted n (n + 1) (by omega) hn (Nat.lt_succ_self n)) hedge
  have hbefore : (order.take (n + 1)).filter (fun a => decide (key a ≤ key order[n])) =
      order.take (n + 1) := by
    refine List.filter_eq_self.2 fun a ha => decide_eq_true ?_
    obtain ⟨i, hi, rfl⟩ := List.mem_take_iff_getElem.1 ha
    rcases Nat.lt_or_eq_of_le (Nat.le_of_lt_succ (lt_of_lt_of_le hi (Nat.min_le_left _ _))) with
      hi' | rfl
    · exact hsorted i n (by omega) (by omega) hi'
    · exact le_refl _
  have hafter : (order.drop (n + 1)).filter (fun a => decide (key a ≤ key order[n])) = [] := by
    refine List.filter_eq_nil_iff.2 fun a ha => ?_
    obtain ⟨i, hi, rfl⟩ := List.mem_drop_iff_getElem.1 ha
    rw [decide_eq_true_eq, not_le]
    rcases Nat.eq_zero_or_pos i with rfl | hpos
    · exact hlt
    · exact lt_of_lt_of_le hlt (hsorted (n + 1) (n + 1 + i) hn (by omega) (by omega))
  calc order.take (n + 1)
      = (order.take (n + 1)).filter (fun a => decide (key a ≤ key order[n])) ++
          (order.drop (n + 1)).filter (fun a => decide (key a ≤ key order[n])) := by
        rw [hbefore, hafter, List.append_nil]
    _ = order.filter fun a => decide (key a ≤ key order[n]) := by
        rw [← List.filter_append, List.take_append_drop]

/-- Up to the end of a page all orders have the same rows. -/
theorem EdgesApart.take_perm (h : EdgesApart key rows limit) (ho : Ordered key rows order)
    (ho' : Ordered key rows order') (n : Nat) :
    (order.take (n * limit)).Perm (order'.take (n * limit)) := by
  have hlength := ho.perm.length_eq
  have hlength' := ho'.perm.length_eq
  rcases Nat.lt_or_ge (n * limit) rows.length with hlt | hge
  · cases hp : n * limit with
    | zero => exact List.Perm.refl _
    | succ p =>
      have hn : 0 < n := by
        refine Nat.pos_of_ne_zero ?_
        rintro rfl
        omega
      rw [hp] at hlt
      have hedge := h n hn (by omega)
      rw [hp, Nat.add_sub_cancel] at hedge
      have hkeys : key order[p] = key order'[p] := by
        have := (ho.key_getElem? p).symm.trans (ho'.key_getElem? p)
        rw [List.getElem?_eq_getElem (by omega), List.getElem?_eq_getElem (by omega)] at this
        exact Option.some.inj this
      have hapart : ∀ l : List ρ, (hl : Ordered key rows l) → (hlt : p + 1 < l.length) →
          key l[p] ≠ key l[p + 1] := by
        intro l hl hlt heq
        rw [hl.key_getElem?, hl.key_getElem?, List.getElem?_eq_getElem (by omega),
          List.getElem?_eq_getElem hlt, Option.map_some, Option.map_some, heq] at hedge
        exact hedge rfl
      rw [ho.take_eq_filter (by omega) (hapart order ho (by omega)),
        ho'.take_eq_filter (by omega) (hapart order' ho' (by omega)), hkeys]
      exact (ho.perm.trans ho'.perm.symm).filter _
  · rw [List.take_of_length_le (by omega), List.take_of_length_le (by omega)]
    exact ho.perm.trans ho'.perm.symm

/-! ## Walks -/

/-- Enough pages for all rows. -/
theorem le_pages_mul (hlimit : 0 < limit) (total : Nat) :
    total ≤ (total + limit - 1) / limit * limit := by
  have hmod := Nat.mod_lt (total + limit - 1) hlimit
  have hdiv := Nat.div_add_mod' (total + limit - 1) limit
  omega

/-- The pages of one order, from one page on. -/
theorem flatMap_pages (l : List ρ) (limit start r : Nat) :
    ((List.range r).flatMap fun i => (l.drop ((start + i) * limit)).take limit) =
      (l.drop (start * limit)).take (r * limit) := by
  induction r with
  | zero => rw [Nat.zero_mul, List.take_zero, List.range_zero, List.flatMap_nil]
  | succ r ih =>
    rw [List.range_succ, List.flatMap_append, ih, List.flatMap_singleton, Nat.add_mul r 1,
      Nat.one_mul, List.take_add, List.drop_drop, Nat.add_mul]

/-- A walk visits what the first pages of any one order have. -/
theorem EdgesApart.walk_perm (h : EdgesApart key rows limit) {answers : Nat → List ρ × Nat}
    (hanswers : ∀ n, Answers key rows limit (n * limit) (answers n)) (r : Nat) :
    ∀ order, Ordered key rows order →
      ((List.range r).flatMap fun n => (answers n).1).Perm (order.take (r * limit)) := by
  induction r with
  | zero =>
    intro order _
    rw [Nat.zero_mul, List.take_zero, List.range_zero, List.flatMap_nil]
  | succ r ih =>
    intro order hordered
    obtain ⟨order', hordered', hanswer⟩ := hanswers r
    have hnext : ((List.range (r + 1)).flatMap fun n => (answers n).1).Perm
        (order'.take ((r + 1) * limit)) := by
      rw [List.range_succ, List.flatMap_append, List.flatMap_singleton, hanswer, Nat.add_mul,
        Nat.one_mul, List.take_add]
      exact (ih order' hordered').append_right _
    exact hnext.trans (h.take_perm hordered' hordered (r + 1))

theorem EdgesApart.visitsOnce (h : EdgesApart key rows limit) (hlimit : 0 < limit) :
    VisitsOnce key rows limit := by
  intro answers hanswers
  have htotal : ∀ n, (answers n).2 = rows.length := by
    intro n
    obtain ⟨order, -, hanswer⟩ := hanswers n
    rw [hanswer]
  refine ⟨?_, htotal⟩
  obtain ⟨order, hordered, -⟩ := hanswers 0
  have hall : order.length ≤ (rows.length + limit - 1) / limit * limit := by
    rw [hordered.perm.length_eq]
    exact le_pages_mul hlimit _
  have hwalk := h.walk_perm hanswers ((rows.length + limit - 1) / limit) order hordered
  rw [List.take_of_length_le hall] at hwalk
  unfold walk
  rw [htotal 0]
  exact hwalk.trans hordered.perm

/-- An order with two neighbours of the same key exchanged. -/
theorem Ordered.exchange {before after : List ρ} {a b : ρ}
    (h : Ordered key rows (before ++ a :: b :: after)) (hkey : key a = key b) :
    Ordered key rows (before ++ b :: a :: after) where
  perm := ((List.Perm.swap a b after).append_left before).trans h.perm
  sorted := by
    have hsorted := h.sorted
    simp only [List.pairwise_append, List.pairwise_cons, List.mem_cons] at hsorted ⊢
    obtain ⟨hbefore, ⟨ha, hb, hafter⟩, hacross⟩ := hsorted
    refine ⟨hbefore, ⟨?_, ?_, hafter⟩, ?_⟩
    · rintro x (rfl | hx)
      · exact le_of_eq hkey.symm
      · exact hb x hx
    · intro x hx
      exact ha x (Or.inr hx)
    · rintro x hx y (rfl | rfl | hy)
      · exact hacross x hx y (Or.inr (Or.inl rfl))
      · exact hacross x hx y (Or.inl rfl)
      · exact hacross x hx y (Or.inr (Or.inr hy))

/-- If a page may end between two rows with the same key, a walk may visit the first of them on both
pages. -/
theorem VisitsOnce.edgesApart (h : VisitsOnce key rows limit) (hrows : rows.Nodup)
    (hlimit : 0 < limit) : EdgesApart key rows limit := by
  intro n hn hlt htie
  have hordered : Ordered key rows (rows.insertionSort fun a b => key a ≤ key b) :=
    ordered_insertionSort rows
  generalize rows.insertionSort (fun a b => key a ≤ key b) = order at hordered
  have hlength := hordered.perm.length_eq
  obtain ⟨p, hp⟩ : ∃ p, n * limit = p + 1 :=
    ⟨n * limit - 1, (Nat.sub_add_cancel (Nat.mul_pos hn hlimit)).symm⟩
  rw [hp] at hlt htie
  -- the rows on both sides of the edge
  obtain ⟨before, a, b, after, hbefore, rfl⟩ : ∃ before a b after,
      before.length = p ∧ order = before ++ a :: b :: after := by
    refine ⟨order.take p, order[p], order[p + 1], order.drop (p + 2), ?_, ?_⟩
    · exact List.length_take_of_le (by omega)
    · rw [← List.drop_eq_getElem_cons, ← List.drop_eq_getElem_cons, List.take_append_drop]
  have ha : (before ++ a :: b :: after)[p]? = some a := by
    rw [← hbefore, List.getElem?_append_right (Nat.le_refl _), Nat.sub_self]
    rfl
  have hb : (before ++ a :: b :: after)[p + 1]? = some b := by
    rw [← hbefore, List.getElem?_append_right (Nat.le_add_right _ 1), Nat.add_sub_cancel_left]
    rfl
  rw [Nat.add_sub_cancel, hordered.key_getElem?, hordered.key_getElem?, ha, hb] at htie
  have hother := hordered.exchange (Option.some.inj htie)
  -- the pages before the edge come from one order, those after it from the other
  let answers : Nat → List ρ × Nat := fun m =>
    (((if m < n then before ++ a :: b :: after else before ++ b :: a :: after).drop
      (m * limit)).take limit, rows.length)
  have hanswers : ∀ m, Answers key rows limit (m * limit) (answers m) := by
    intro m
    refine ⟨_, ?_, rfl⟩
    split
    · exact hordered
    · exact hother
  obtain ⟨hperm, -⟩ := h answers hanswers
  have hpages := le_pages_mul hlimit rows.length
  obtain ⟨r, hr⟩ : ∃ r, (rows.length + limit - 1) / limit = n + r := by
    refine Nat.exists_eq_add_of_le (Nat.le_of_lt (Nat.lt_of_mul_lt_mul_right (a := limit) ?_))
    omega
  rw [hr, Nat.add_mul, hp] at hpages
  have hfirst : ((List.range n).flatMap fun m => (answers m).1) = before ++ [a] := by
    have hsame : ∀ m ∈ List.range n, (answers m).1 =
        ((before ++ a :: b :: after).drop ((0 + m) * limit)).take limit := by
      intro m hm
      rw [Nat.zero_add]
      exact congrArg (fun l : List ρ => (l.drop (m * limit)).take limit)
        (if_pos (List.mem_range.1 hm))
    rw [List.flatMap_congr hsame, flatMap_pages, Nat.zero_mul, List.drop_zero, hp, ← hbefore,
      List.take_length_add_append]
    rfl
  have hrest : ((List.range r).flatMap fun m => (answers (n + m)).1) = a :: after := by
    have hsame : ∀ m ∈ List.range r, (answers (n + m)).1 =
        ((before ++ b :: a :: after).drop ((n + m) * limit)).take limit := by
      intro m _
      exact congrArg (fun l : List ρ => (l.drop ((n + m) * limit)).take limit)
        (if_neg (Nat.not_lt.2 (Nat.le_add_right n m)))
    rw [List.flatMap_congr hsame, flatMap_pages, hp, ← hbefore, List.drop_length_add_append]
    refine List.take_of_length_le ?_
    simp only [List.length_append, List.length_cons, List.drop_succ_cons, List.drop_zero]
      at hlength ⊢
    omega
  have htwice : walk limit answers = (before ++ [a]) ++ a :: after := by
    change (List.range ((rows.length + limit - 1) / limit)).flatMap (fun m => (answers m).1) = _
    rw [hr, List.range_add, List.flatMap_append, List.flatMap_map, hfirst, hrest]
  -- the first of the two rows is on both pages
  rw [htwice, List.append_assoc, List.singleton_append] at hperm
  have hnodup := (List.nodup_append.1 (hperm.nodup_iff.2 hrows)).2.1
  exact (List.nodup_cons.1 hnodup).1 List.mem_cons_self

/-- A walk is sure to visit each row once exactly if no page ends between two rows with the same
key. -/
theorem visitsOnce_iff (hrows : rows.Nodup) (hlimit : 0 < limit) :
    VisitsOnce key rows limit ↔ EdgesApart key rows limit :=
  ⟨fun h => h.edgesApart hrows hlimit, fun h => h.visitsOnce hlimit⟩

/-- Rows with keys of their own. -/
theorem edgesApart_of_nodup (h : (rows.map key).Nodup) (hlimit : 0 < limit) :
    EdgesApart key rows limit := by
  intro n hn hlt heq
  have hnodup : (sortedKeys key rows).Nodup :=
    (List.perm_insertionSort _ (rows.map key)).nodup_iff.2 h
  have hlength : (sortedKeys key rows).length = rows.length := by
    rw [sortedKeys, List.length_insertionSort, List.length_map]
  rw [List.getElem?_eq_getElem (by omega), List.getElem?_eq_getElem (by omega),
    Option.some.injEq, hnodup.getElem_inj_iff] at heq
  have hpos := Nat.mul_pos hn hlimit
  omega

end SmartLogistics.Library
