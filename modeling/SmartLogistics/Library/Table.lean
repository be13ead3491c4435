import SmartLogistics.Library.Discipline
import Mathlib.Data.List.Sort
import Mathlib.Algebra.BigOperators.Group.List.Basic
import Mathlib.Algebra.Ring.Int.Defs
import Mathlib.Data.List.Forall2

/-!
# Tables keyed by an id

A table is a list of rows with a key that is unique in it (`Table.Keyed`). `Table.keysWhere` is the
result of a statement with `ORDER BY` on the key, `Table.totalBy` a `SUM … WHERE`, and
`Table.selectForUpdate` the locking read of a transaction, with its rule `wp_selectForUpdate`.

The sum lemmas say what an update of selected rows does to a total (`totalBy_map_of_moved`), and
that two listings of the same rows have one total (`totalBy_eq_of_mem`).
-/

set_option autoImplicit false

namespace SmartLogistics.Library.Table

variable {ρ : Type} (key : ρ → Nat)

/-- No two rows share a key. -/
def Keyed (rows : List ρ) : Prop := (rows.map key).Nodup

instance (rows : List ρ) : Decidable (Keyed key rows) :=
  inferInstanceAs (Decidable (rows.map key).Nodup)

/-- The row with a given key. -/
def lookup (rows : List ρ) (k : Nat) : Option ρ := rows.find? fun r => key r == k

/-- The keys of the rows that satisfy `p`, ascending. -/
def keysWhere (p : ρ → Bool) (rows : List ρ) : List Nat :=
  ((rows.filter p).map key).insertionSort (· ≤ ·)

/-- The sum of `w` over the rows that satisfy `p`. -/
def totalBy (p : ρ → Bool) (w : ρ → Int) (rows : List ρ) : Int := ((rows.filter p).map w).sum

variable {key}

/-! ## Lookups -/

theorem mem_of_lookup {rows : List ρ} {k : Nat} {r : ρ} (h : lookup key rows k = some r) :
    r ∈ rows ∧ key r = k :=
  ⟨List.mem_of_find?_eq_some h, by simpa using List.find?_some h⟩

theorem Keyed.eq_of_key {rows : List ρ} (h : Keyed key rows) {r r' : ρ} (hr : r ∈ rows)
    (hr' : r' ∈ rows) (hk : key r = key r') : r = r' :=
  List.inj_on_of_nodup_map h hr hr' hk

theorem Keyed.lookup_of_mem {rows : List ρ} (h : Keyed key rows) {r : ρ} (hr : r ∈ rows) :
    lookup key rows (key r) = some r := by
  cases hl : lookup key rows (key r) with
  | none =>
    have hnone := List.find?_eq_none.1 hl r hr
    simp at hnone
  | some r' =>
    obtain ⟨hr', hk⟩ := mem_of_lookup hl
    rw [h.eq_of_key hr' hr hk]

theorem Keyed.nodup {rows : List ρ} (h : Keyed key rows) : rows.Nodup := List.Nodup.of_map key h

theorem Keyed.lookup_eq_some {rows : List ρ} (h : Keyed key rows) {k : Nat} {r : ρ} :
    lookup key rows k = some r ↔ r ∈ rows ∧ key r = k := by
  constructor
  · exact mem_of_lookup
  · rintro ⟨hr, rfl⟩
    exact h.lookup_of_mem hr

/-- Tables in which every key finds the same row have the same rows. -/
theorem Keyed.perm_of_lookup {rows rows' : List ρ} (h : Keyed key rows) (h' : Keyed key rows')
    (hsame : ∀ k, lookup key rows k = lookup key rows' k) : rows.Perm rows' := by
  refine (List.perm_ext_iff_of_nodup h.nodup h'.nodup).2 fun r => ?_
  have hrow := h.lookup_eq_some (k := key r) (r := r)
  rw [hsame, h'.lookup_eq_some] at hrow
  simpa using hrow.symm

/-- A rewrite of rows that keeps the keys keeps them unique. -/
theorem keyed_map {rows : List ρ} {f : ρ → ρ} (hf : ∀ r, key (f r) = key r) :
    Keyed key (rows.map f) ↔ Keyed key rows := by
  rw [Keyed, List.map_map, show key ∘ f = key from funext hf, Keyed]

/-- Looking up a key among rewritten rows that keep their keys. -/
theorem lookup_map {f : ρ → ρ} (hf : ∀ r, key (f r) = key r) (rows : List ρ) (k : Nat) :
    lookup key (rows.map f) k = (lookup key rows k).map f := by
  rw [lookup, List.find?_map]
  simp only [Function.comp_def, hf]
  rfl

theorem mem_keysWhere {p : ρ → Bool} {rows : List ρ} {k : Nat} :
    k ∈ keysWhere key p rows ↔ ∃ r ∈ rows, p r = true ∧ key r = k := by
  simp [keysWhere, List.mem_insertionSort, and_assoc]

/-- The keys a statement returns in key order are strictly ascending. -/
theorem Keyed.pairwise_keysWhere {rows : List ρ} (h : Keyed key rows) (p : ρ → Bool) :
    (keysWhere key p rows).Pairwise (· < ·) := by
  have hnd : (keysWhere key p rows).Nodup :=
    (List.perm_insertionSort _ _).nodup_iff.2 (h.sublist (List.filter_sublist.map key))
  have hle : (keysWhere key p rows).Pairwise (· ≤ ·) := List.pairwise_insertionSort _ _
  exact (hle.and hnd).imp fun hab => Nat.lt_of_le_of_ne hab.1 hab.2

/-- Looking up keys one after another gives rows with these keys, in their order. -/
theorem map_filterMap_lookup_sublist (p : ρ → Bool) (rows : List ρ) : ∀ ks : List Nat,
    ((ks.filterMap fun k => (lookup key rows k).filter p).map key).Sublist ks
  | [] => .slnil
  | k :: ks => by
    have ih := map_filterMap_lookup_sublist p rows ks
    rw [List.filterMap_cons]
    cases hl : (lookup key rows k).filter p with
    | none => exact ih.cons k
    | some r =>
      have hk : key r = k := (mem_of_lookup (Option.eq_some_of_filter_eq_some hl)).2
      simp only [List.map_cons, hk]
      exact ih.cons_cons k

/-- The rows that satisfy `p`, in key order. -/
def rowsWhere (key : ρ → Nat) (p : ρ → Bool) (rows : List ρ) : List ρ :=
  (keysWhere key p rows).filterMap fun k => (lookup key rows k).filter p

theorem Keyed.mem_rowsWhere {rows : List ρ} (h : Keyed key rows) {p : ρ → Bool} {r : ρ} :
    r ∈ rowsWhere key p rows ↔ r ∈ rows ∧ p r = true := by
  simp only [rowsWhere, List.mem_filterMap, Option.filter_eq_some_iff, h.lookup_eq_some]
  constructor
  · rintro ⟨k, -, ⟨hr, -⟩, hp⟩
    exact ⟨hr, hp⟩
  · rintro ⟨hr, hp⟩
    exact ⟨key r, mem_keysWhere.2 ⟨r, hr, hp, rfl⟩, ⟨hr, rfl⟩, hp⟩

theorem Keyed.nodup_rowsWhere {rows : List ρ} (h : Keyed key rows) (p : ρ → Bool) :
    (rowsWhere key p rows).Nodup := by
  refine List.Nodup.of_map key ((map_filterMap_lookup_sublist p rows _).nodup ?_)
  exact (h.pairwise_keysWhere p).imp fun hlt => Nat.ne_of_lt hlt

/-- A statement lists the same rows for conditions that agree on the table. -/
theorem rowsWhere_congr {rows : List ρ} {p p' : ρ → Bool} (h : ∀ r ∈ rows, p r = p' r) :
    rowsWhere key p rows = rowsWhere key p' rows := by
  have hkeys : keysWhere key p rows = keysWhere key p' rows := by
    rw [keysWhere, keysWhere, List.filter_congr h]
  rw [rowsWhere, rowsWhere, hkeys]
  refine List.filterMap_congr fun k _ => ?_
  cases hl : lookup key rows k with
  | none => rfl
  | some r => rw [Option.filter_some, Option.filter_some, h r (mem_of_lookup hl).1]

/-- Rows rewritten in place are listed in the same order. -/
theorem rowsWhere_map {f : ρ → ρ} (hf : ∀ r, key (f r) = key r) {p : ρ → Bool}
    (hp : ∀ r, p (f r) = p r) (rows : List ρ) :
    rowsWhere key p (rows.map f) = (rowsWhere key p rows).map f := by
  have hkeys : keysWhere key p (rows.map f) = keysWhere key p rows := by
    rw [keysWhere, keysWhere, List.filter_map, List.map_map, show p ∘ f = p from funext hp,
      show key ∘ f = key from funext hf]
  rw [rowsWhere, rowsWhere, hkeys, List.map_filterMap]
  refine List.filterMap_congr fun k _ => ?_
  rw [lookup_map hf]
  cases lookup key rows k with
  | none => rfl
  | some r =>
    rw [Option.map_some, Option.filter_some, Option.filter_some, hp]
    split
    · rfl
    · rfl

/-! ## Totals -/

variable {p : ρ → Bool} {w : ρ → Int}

@[simp] theorem totalBy_nil : totalBy p w [] = 0 := rfl

theorem totalBy_cons (r : ρ) (rows : List ρ) :
    totalBy p w (r :: rows) = (if p r then w r else 0) + totalBy p w rows := by
  by_cases h : p r <;> simp [totalBy, h]

@[simp] theorem totalBy_append (rows rows' : List ρ) :
    totalBy p w (rows ++ rows') = totalBy p w rows + totalBy p w rows' := by
  simp [totalBy]

theorem totalBy_nonneg {rows : List ρ} (h : ∀ r ∈ rows, p r = true → 0 ≤ w r) :
    0 ≤ totalBy p w rows := by
  induction rows with
  | nil => exact Int.le_refl 0
  | cons r rows ih =>
    have hrest := ih fun r' hr' => h r' (List.mem_cons_of_mem _ hr')
    rw [totalBy_cons]
    split
    · rename_i hp
      have := h r List.mem_cons_self hp
      omega
    · omega

theorem totalBy_eq_zero {rows : List ρ} (h : ∀ r ∈ rows, p r = false) : totalBy p w rows = 0 := by
  have hnil : rows.filter p = [] := List.filter_eq_nil_iff.2 fun r hr => by simp [h r hr]
  rw [totalBy, hnil]
  rfl

/-- A total over one value of a key that is unique among the rows is that of a single row. -/
theorem Keyed.totalBy_le {rows : List ρ} (hk : Keyed key rows) {k : Nat} {b : Int} (hb : 0 ≤ b)
    (h : ∀ r ∈ rows, key r = k → w r ≤ b) : totalBy (fun r => key r == k) w rows ≤ b := by
  induction rows with
  | nil => exact hb
  | cons r rows ih =>
    rw [Keyed, List.map_cons, List.nodup_cons] at hk
    rw [totalBy_cons]
    by_cases hr : key r = k
    · have hrest : totalBy (fun r => key r == k) w rows = 0 := by
        refine totalBy_eq_zero fun r' hr' => ?_
        have hne : key r' ≠ k := fun he => hk.1 (hr ▸ he ▸ List.mem_map_of_mem hr')
        simpa using hne
      have hle := h r List.mem_cons_self hr
      rw [hrest]
      simp only [hr, beq_self_eq_true, if_true]
      omega
    · have hle := ih hk.2 fun r' hr' => h r' (List.mem_cons_of_mem _ hr')
      have hf : (key r == k) = false := by simpa using hr
      simp only [hf]
      simpa using hle

/-- The total over the key of a row is that of the row. -/
theorem Keyed.totalBy_of_mem {rows : List ρ} (hk : Keyed key rows) {r : ρ} (hr : r ∈ rows) :
    totalBy (fun r' => key r' == key r) w rows = w r := by
  induction rows with
  | nil => exact absurd hr List.not_mem_nil
  | cons head rows ih =>
    rw [Keyed, List.map_cons, List.nodup_cons] at hk
    rw [totalBy_cons]
    rcases List.mem_cons.1 hr with rfl | hr
    · have hrest : totalBy (fun r' => key r' == key r) w rows = 0 :=
        totalBy_eq_zero fun r' hr' => by
          simpa using fun he : key r' = key r => hk.1 (he ▸ List.mem_map_of_mem hr')
      rw [hrest, if_pos (beq_self_eq_true _), Int.add_zero]
    · have hne : ¬ (key head == key r) = true := by
        simpa using fun he : key head = key r => hk.1 (he ▸ List.mem_map_of_mem hr)
      rw [if_neg hne, ih hk.2 hr, Int.zero_add]

/-- The total depends only on what `p` and `w` are on the rows. -/
theorem totalBy_congr {p' : ρ → Bool} {w' : ρ → Int} {rows : List ρ}
    (hp : ∀ r ∈ rows, p r = p' r) (hw : ∀ r ∈ rows, p' r = true → w r = w' r) :
    totalBy p w rows = totalBy p' w' rows := by
  induction rows with
  | nil => rfl
  | cons r rows ih =>
    rw [totalBy_cons, totalBy_cons, ih (fun r' hr' => hp r' (List.mem_cons_of_mem _ hr'))
      (fun r' hr' => hw r' (List.mem_cons_of_mem _ hr')), hp r List.mem_cons_self]
    by_cases h : p' r = true
    · rw [if_pos h, if_pos h, hw r List.mem_cons_self h]
    · rw [if_neg h, if_neg h]

/-- The total after a rewrite of the rows. -/
theorem totalBy_map {τ : Type} (f : τ → ρ) (rows : List τ) :
    totalBy p w (rows.map f) = totalBy (fun r => p (f r)) (fun r => w (f r)) rows := by
  simp [totalBy, List.filter_map, Function.comp_def]

theorem totalBy_perm {rows rows' : List ρ} (h : rows.Perm rows') :
    totalBy p w rows = totalBy p w rows' :=
  ((h.filter p).map w).sum_eq

/-- Rows that `p` counted and no longer counts after a rewrite leave the total. -/
theorem totalBy_map_of_moved {f : ρ → ρ} {sel : ρ → Bool} {rows : List ρ}
    (hsel : ∀ r ∈ rows, sel r = true → p (f r) = false)
    (hkeep : ∀ r ∈ rows, sel r = false → p (f r) = p r ∧ w (f r) = w r) :
    totalBy p w (rows.map f) = totalBy p w rows - totalBy (fun r => sel r && p r) w rows := by
  induction rows with
  | nil => rfl
  | cons r rows ih =>
    rw [List.map_cons, totalBy_cons, totalBy_cons, totalBy_cons,
      ih (fun r' hr' => hsel r' (List.mem_cons_of_mem _ hr'))
        (fun r' hr' => hkeep r' (List.mem_cons_of_mem _ hr'))]
    cases hs : sel r with
    | true =>
      rw [hsel r List.mem_cons_self hs]
      cases p r <;> simp
    | false =>
      obtain ⟨hp, hw⟩ := hkeep r List.mem_cons_self hs
      rw [hp, hw]
      simp
      omega

/-- Two listings of the same distinct rows have the same total. -/
theorem totalBy_eq_of_mem {rows rows' : List ρ} (hnd : rows.Nodup) (hnd' : rows'.Nodup)
    (h : ∀ r, (r ∈ rows ∧ p r = true) ↔ (r ∈ rows' ∧ p r = true)) :
    totalBy p w rows = totalBy p w rows' := by
  have hperm : (rows.filter p).Perm (rows'.filter p) := by
    refine (List.perm_ext_iff_of_nodup (hnd.filter p) (hnd'.filter p)).2 fun r => ?_
    rw [List.mem_filter, List.mem_filter]
    exact h r
  exact (hperm.map w).sum_eq

/-! ## Rows that match one by one -/

section Matching

variable {α β : Type} {R : α → β → Prop} {l : List α} {u : List β}

/-- Each row of the right list matches one of the left. -/
theorem exists_left_of_forall₂ (h : List.Forall₂ R l u) {b : β} (hb : b ∈ u) :
    ∃ a ∈ l, R a b := by
  induction h with
  | nil => exact absurd hb List.not_mem_nil
  | cons hab _ ih =>
    rcases List.mem_cons.1 hb with rfl | hb
    · exact ⟨_, List.mem_cons_self, hab⟩
    · obtain ⟨a, ha, hR⟩ := ih hb
      exact ⟨a, List.mem_cons_of_mem _ ha, hR⟩

/-- Lists that match one by one have as many rows of a kind. -/
theorem countP_of_forall₂ (h : List.Forall₂ R l u) {p : α → Bool} {q : β → Bool}
    (hpq : ∀ a ∈ l, ∀ b, R a b → q b = p a) : u.countP q = l.countP p := by
  induction h with
  | nil => rfl
  | cons hab _ ih =>
    rw [List.countP_cons, List.countP_cons, hpq _ List.mem_cons_self _ hab,
      ih fun a ha => hpq a (List.mem_cons_of_mem _ ha)]

end Matching

/-! ## Locking reads -/

section Locking

variable {Db Row ε : Type} (row : Nat → Row) (key)

/-- `SELECT … WHERE p ORDER BY key FOR UPDATE` on `table`: the keys are those of the statement's
snapshot, and each row is returned in the version that was locked, if it still satisfies `p`. -/
def selectForUpdate (table : Db → List ρ) (p : ρ → Bool) : Txn Db Row ε (List ρ) :=
  (Txn.select fun db => keysWhere key p (table db)).bind
    (Txn.lockEach row fun db k => (lookup key (table db) k).filter p)

variable {key row} {α Op : Type} {D : Discipline Db Row ε α Op} {op : Op}

/-- The rule of the locking read. The rows are those of the state at its end: the discipline must
keep a row whose lock is held, and every row must stay in its table. -/
theorem wp_selectForUpdate {table : Db → List ρ} {p : ρ → Bool}
    {Q : List ρ → View Db Row ε → Prop} {v : View Db Row ε} (hp : v.pending = .ok)
    (hstable : ∀ k db db', D.inv db → D.inv db' → D.grow db db' → D.same (row k) db db' →
      ∀ r, lookup key (table db) k = some r → lookup key (table db') k = some r)
    (hgrow : ∀ k db db', D.inv db → D.inv db' → D.grow db db' →
      (lookup key (table db) k).isSome → (lookup key (table db') k).isSome)
    (hkeyed : ∀ db, D.inv db → Keyed key (table db))
    (hfact : ∀ n db, D.Rely v n db → ∀ pre k post, keysWhere key p (table db) = pre ++ k :: post →
      ∀ m db', D.Rely (v.later n db) m db' →
        D.lockFact op (v.grantAll (pre.map row)).held (row k) db')
    (h : ∀ n db, D.Rely v n db → ∀ m db', D.Rely (v.later n db) m db' →
      Q ((keysWhere key p (table db)).filterMap fun k => (lookup key (table db') k).filter p)
        ((v.later m db').grantAll ((keysWhere key p (table db)).map row))) :
    D.wp op (selectForUpdate key row table p) Q v := by
  refine Discipline.wp_bind _ _ (Discipline.wp_select hp fun n db hr => ?_)
  refine Discipline.wp_lockEach _ _ hp ?_ (hfact n db hr) hr.inv (h n db hr)
  intro k hk m db' hr' db₂ hinv hg hs
  -- the row was in the snapshot, so it is in every later state
  obtain ⟨r, hmem, -, rfl⟩ := mem_keysWhere.1 hk
  have hsome : (lookup key (table db) (key r)).isSome := by
    rw [(hkeyed db hr.inv).lookup_of_mem hmem]
    rfl
  have hsome' := hgrow _ _ _ hr.inv hr'.inv hr'.grow hsome
  obtain ⟨r', hr'eq⟩ := Option.isSome_iff_exists.1 hsome'
  rw [hr'eq, hstable _ _ _ hr'.inv hinv hg hs r' hr'eq]

/-- The rule of the locking read for a table that rows may leave: the discipline must keep a key
whose lock is held, with its row or without one. -/
theorem wp_selectForUpdate_of_same {table : Db → List ρ} {p : ρ → Bool}
    {Q : List ρ → View Db Row ε → Prop} {v : View Db Row ε} (hp : v.pending = .ok)
    (hsame : ∀ k db db', D.inv db → D.inv db' → D.same (row k) db db' →
      lookup key (table db) k = lookup key (table db') k)
    (hfact : ∀ held k n db, D.Rely v n db → D.lockFact op held (row k) db)
    (h : ∀ n db, D.Rely v n db → ∀ m db', D.Rely (v.later n db) m db' →
      Q ((keysWhere key p (table db)).filterMap fun k => (lookup key (table db') k).filter p)
        ((v.later m db').grantAll ((keysWhere key p (table db)).map row))) :
    D.wp op (selectForUpdate key row table p) Q v := by
  refine Discipline.wp_bind _ _ (Discipline.wp_select hp fun n db hr => ?_)
  refine Discipline.wp_lockEach _ _ hp ?_ ?_ hr.inv (h n db hr)
  · intro k _ m db' hr' db₂ hinv _ hs
    rw [hsame k db' db₂ hr'.inv hinv hs]
  · exact fun _ _ _ _ m db' hr' => hfact _ _ m db' (hr.trans hr')

end Locking

end SmartLogistics.Library.Table
