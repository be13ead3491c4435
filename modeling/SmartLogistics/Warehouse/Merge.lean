import SmartLogistics.Library.Newest
import SmartLogistics.Library.Table
import SmartLogistics.Warehouse.Replica

/-!
# Merging snapshots into the replica

Snapshots reach a replica late, twice and out of order. Each row of `warehouse_refs` is a register
that keeps its newest value (`find_upsertAll`), so `upsertWarehouse` leaves the same table for every
order in which a set of snapshots is applied, and for every number of repetitions
(`upsertAll_order_insensitive`).
-/

set_option autoImplicit false

namespace SmartLogistics.Warehouse

open SmartLogistics.Library

/-- Apply snapshots one after another. -/
def upsertAll (payloads : List Snapshot) (refs : List WarehouseRef) : List WarehouseRef :=
  payloads.foldl (fun refs payload => upsertWarehouse payload refs) refs

/-- Snapshots of one warehouse with the same `updated_at` have the same content. -/
def Agreeing (payloads : List Snapshot) : Prop :=
  ∀ p ∈ payloads, ∀ q ∈ payloads, p.id = q.id → p.updatedAt = q.updatedAt → p = q

/-- What the merge of `payloads` into `refs` is meant to leave for a warehouse: the snapshot with
the greatest `updated_at`, or the row that was there if that is newer; no row if there is
neither. -/
def Merged (refs : List WarehouseRef) (payloads : List Snapshot) (id : Nat) :
    Option WarehouseRef → Prop
  | none => (∀ ref ∈ refs, ref.id ≠ id) ∧ ∀ p ∈ payloads, p.id ≠ id
  | some row =>
    (∃ p ∈ payloads, p.id = id ∧ row = p.toRef ∧
      (∀ q ∈ payloads, q.id = id → q.updatedAt ≤ p.updatedAt) ∧
      ∀ ref ∈ refs, ref.id = id → ref.sourceUpdatedAt ≤ p.updatedAt) ∨
    (row ∈ refs ∧ row.id = id ∧ ∀ p ∈ payloads, p.id = id → p.updatedAt < row.sourceUpdatedAt)

/-- The rows the snapshots of one warehouse are stored as. -/
def rowsFor (payloads : List Snapshot) (id : Nat) : List WarehouseRef :=
  (payloads.filter (·.id == id)).map Snapshot.toRef

theorem mem_rowsFor {payloads : List Snapshot} {id : Nat} {row : WarehouseRef} :
    row ∈ rowsFor payloads id ↔ ∃ p ∈ payloads, p.id = id ∧ p.toRef = row := by
  simp [rowsFor, and_assoc]

/-- A snapshot is put into the row of its warehouse. -/
theorem applySnapshot_eq_put (ref : Option WarehouseRef) (payload : Snapshot) :
    applySnapshot ref payload = Newest.put WarehouseRef.sourceUpdatedAt ref payload.toRef := by
  cases ref with
  | none => rfl
  | some ref => rfl

/-- Each row of the replica is a register that keeps its newest value. -/
theorem find_upsertAll (payloads : List Snapshot) (refs : List WarehouseRef) (id : Nat) :
    Table.lookup WarehouseRef.id (upsertAll payloads refs) id =
      Newest.putAll WarehouseRef.sourceUpdatedAt (Table.lookup WarehouseRef.id refs id)
        (rowsFor payloads id) := by
  induction payloads generalizing refs with
  | nil => rfl
  | cons p payloads ih =>
    have hstep : Table.lookup WarehouseRef.id (upsertWarehouse p refs) id =
        if p.id = id then some (applySnapshot (Table.lookup WarehouseRef.id refs id) p)
        else Table.lookup WarehouseRef.id refs id := find_upsertWarehouse p refs id
    have hrest := ih (upsertWarehouse p refs)
    rw [hstep] at hrest
    rw [show upsertAll (p :: payloads) refs = upsertAll payloads (upsertWarehouse p refs) from rfl,
      hrest]
    by_cases hp : p.id = id
    · rw [if_pos hp, applySnapshot_eq_put]
      have hrows : rowsFor (p :: payloads) id = p.toRef :: rowsFor payloads id := by
        simp [rowsFor, hp]
      rw [hrows]
      rfl
    · rw [if_neg hp]
      have hrows : rowsFor (p :: payloads) id = rowsFor payloads id := by simp [rowsFor, hp]
      rw [hrows]

/-- A snapshot keeps the primary key. -/
theorem keyed_upsertWarehouse {refs : List WarehouseRef} (h : Table.Keyed WarehouseRef.id refs)
    (payload : Snapshot) : Table.Keyed WarehouseRef.id (upsertWarehouse payload refs) := by
  unfold upsertWarehouse
  split
  · exact (Table.keyed_map (id_replace payload)).2 h
  · rename_i hnew
    rw [Table.Keyed, List.map_append, List.map_singleton, List.nodup_append]
    refine ⟨h, List.nodup_singleton _, fun a ha b hb => ?_⟩
    rintro rfl
    obtain ⟨ref, href, hid⟩ := List.mem_map.1 ha
    rw [List.mem_singleton] at hb
    exact hnew (List.any_eq_true.2 ⟨ref, href, beq_iff_eq.2 (hid.trans hb)⟩)

theorem keyed_upsertAll {refs : List WarehouseRef} (h : Table.Keyed WarehouseRef.id refs)
    (payloads : List Snapshot) : Table.Keyed WarehouseRef.id (upsertAll payloads refs) := by
  induction payloads generalizing refs with
  | nil => exact h
  | cons p payloads ih => exact ih (keyed_upsertWarehouse h p)

/-- The rows of agreeing snapshots agree. -/
theorem Agreeing.rowsFor {payloads : List Snapshot} (h : Agreeing payloads) (id : Nat) :
    ∀ x ∈ rowsFor payloads id, ∀ y ∈ rowsFor payloads id,
      x.sourceUpdatedAt = y.sourceUpdatedAt → x = y := by
  intro x hx y hy hstamp
  obtain ⟨p, hp, hpid, rfl⟩ := mem_rowsFor.1 hx
  obtain ⟨q, hq, hqid, rfl⟩ := mem_rowsFor.1 hy
  rw [h p hp q hq (hpid.trans hqid.symm) hstamp]

/-- What the replica holds for a warehouse after any list of snapshots. -/
theorem merged_upsertAll {refs : List WarehouseRef} (h : Table.Keyed WarehouseRef.id refs)
    (payloads : List Snapshot) (id : Nat) :
    Merged refs payloads id (Table.lookup WarehouseRef.id (upsertAll payloads refs) id) := by
  have hspec := Newest.putAll_spec WarehouseRef.sourceUpdatedAt
    (Table.lookup WarehouseRef.id refs id) (rowsFor payloads id)
  rw [← find_upsertAll] at hspec
  cases hrow : Table.lookup WarehouseRef.id (upsertAll payloads refs) id with
  | none =>
    rw [hrow] at hspec
    obtain ⟨hnone, hnil⟩ := hspec
    refine ⟨fun ref href hid => ?_, fun p hp hid => ?_⟩
    · rw [← hid, h.lookup_of_mem href] at hnone
      cases hnone
    · have hmem : p.toRef ∈ rowsFor payloads id := mem_rowsFor.2 ⟨p, hp, hid, rfl⟩
      rw [hnil] at hmem
      exact absurd hmem List.not_mem_nil
  | some row =>
    rw [hrow] at hspec
    obtain ⟨hsource, hbound, hold⟩ := hspec
    rcases hsource with hmem | ⟨hfound, hnewer⟩
    · obtain ⟨p, hp, hid, rfl⟩ := mem_rowsFor.1 hmem
      refine Or.inl ⟨p, hp, hid, rfl, fun q hq hqid => ?_, fun ref href hrid => ?_⟩
      · exact hbound q.toRef (mem_rowsFor.2 ⟨q, hq, hqid, rfl⟩)
      · exact hold ref (h.lookup_eq_some.2 ⟨href, hrid⟩)
    · obtain ⟨hmem, hid⟩ := h.lookup_eq_some.1 hfound
      exact Or.inr ⟨hmem, hid, fun p hp hpid =>
        hnewer p.toRef (mem_rowsFor.2 ⟨p, hp, hpid, rfl⟩)⟩

/-- One more snapshot does not take a row back in time. -/
theorem upsertWarehouse_newer {refs : List WarehouseRef} (h : Table.Keyed WarehouseRef.id refs)
    (payload : Snapshot) {ref : WarehouseRef} (href : ref ∈ refs) :
    ∃ ref' ∈ upsertWarehouse payload refs, ref'.id = ref.id ∧
      ref.sourceUpdatedAt ≤ ref'.sourceUpdatedAt := by
  have hfound : Table.lookup WarehouseRef.id (upsertWarehouse payload refs) ref.id = _ :=
    find_upsertWarehouse payload refs ref.id
  have hbefore : refs.find? (·.id == ref.id) = some ref := h.lookup_of_mem href
  by_cases hp : payload.id = ref.id
  · rw [if_pos hp, hbefore, applySnapshot_eq_put] at hfound
    obtain ⟨hmem, hid⟩ := Table.mem_of_lookup hfound
    exact ⟨_, hmem, hid, Newest.le_put rfl⟩
  · rw [if_neg hp, hbefore] at hfound
    exact ⟨ref, List.mem_of_find?_eq_some hfound, rfl, le_rfl⟩

/-- The merge does not see order or repetition: two lists of the same agreeing snapshots leave the
same table; it holds for each warehouse the newest of its snapshots, or the row that was there if
that is newer; and no snapshot takes a row back in time. -/
theorem upsertAll_order_insensitive {refs : List WarehouseRef}
    (hkey : Table.Keyed WarehouseRef.id refs) {payloads : List Snapshot}
    (hagree : Agreeing payloads) :
    (∀ payloads' : List Snapshot, (∀ p, p ∈ payloads' ↔ p ∈ payloads) →
      (upsertAll payloads' refs).Perm (upsertAll payloads refs)) ∧
    (∀ id, Merged refs payloads id ((upsertAll payloads refs).find? (·.id == id))) ∧
    ∀ before payload after, payloads = before ++ payload :: after →
      ∀ ref ∈ upsertAll before refs, ∃ ref' ∈ upsertAll (before ++ [payload]) refs,
        ref'.id = ref.id ∧ ref.sourceUpdatedAt ≤ ref'.sourceUpdatedAt := by
  refine ⟨fun payloads' hsame => ?_, merged_upsertAll hkey payloads, ?_⟩
  · refine (keyed_upsertAll hkey payloads').perm_of_lookup (keyed_upsertAll hkey payloads)
      fun id => ?_
    rw [find_upsertAll, find_upsertAll]
    refine (Newest.putAll_congr (hagree.rowsFor id) fun row => ?_).symm
    simp only [mem_rowsFor, hsame]
  · intro before payload after _ ref href
    have hlast : upsertAll (before ++ [payload]) refs =
        upsertWarehouse payload (upsertAll before refs) := List.foldl_concat ..
    rw [hlast]
    exact upsertWarehouse_newer (keyed_upsertAll hkey before) payload href

/-! ## A placeholder and three snapshots -/

/-- A snapshot of warehouse 9. -/
def karachi (status : String) (updatedAt : Nat) : Snapshot where
  id := 9
  code := "KHI-09"
  name := "K"
  status := status
  city := "Karachi"
  deleted := false
  updatedAt := updatedAt

/-- A snapshot that arrives late and one that arrives twice change nothing. -/
theorem upsertAll_order_insensitive_late :
    (upsertAll [karachi "active" 10, karachi "maintenance" 12, karachi "active" 11,
        karachi "maintenance" 12] [(karachi "active" 0).toRef]).Perm
      (upsertAll [karachi "active" 10, karachi "active" 11, karachi "maintenance" 12]
        [(karachi "active" 0).toRef]) := by
  have hagree : Agreeing [karachi "active" 10, karachi "active" 11, karachi "maintenance" 12] := by
    unfold Agreeing
    decide
  refine (upsertAll_order_insensitive (by decide) hagree).1 _ fun p => ?_
  simp only [List.mem_cons, List.not_mem_nil, or_false]
  grind

end SmartLogistics.Warehouse
