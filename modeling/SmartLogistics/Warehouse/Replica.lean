import SmartLogistics.Platform.Errors

/-!
# The warehouse replica

Inventory and Shipment each keep a `warehouse_refs` table built from the snapshots of
`warehouse.events`. `upsertWarehouse` applies one snapshot, `requireOperational` is the check both
services make on the table; they differ in one clause of its message.
-/

set_option autoImplicit false

namespace SmartLogistics.Warehouse

open SmartLogistics.Platform

/-- The columns of a warehouse snapshot that consumers store. -/
structure Snapshot where
  id : Nat
  code : String
  name : String
  status : String
  city : String
  deleted : Bool
  updatedAt : Nat
  deriving DecidableEq, Repr

/-- The local, read-only copy of the warehouse facts a service needs. -/
structure WarehouseRef where
  id : Nat
  code : String
  name : String
  status : String
  city : String
  isDeleted : Bool
  sourceUpdatedAt : Nat
  deriving DecidableEq, Repr

/-- `is_operational`: ACTIVE and not deleted. -/
def WarehouseRef.isOperational (ref : WarehouseRef) : Bool :=
  ref.status == "active" && !ref.isDeleted

/-- The row a snapshot is stored as. -/
def Snapshot.toRef (payload : Snapshot) : WarehouseRef where
  id := payload.id
  code := payload.code
  name := payload.name
  status := payload.status
  city := payload.city
  isDeleted := payload.deleted
  sourceUpdatedAt := payload.updatedAt

/-- Apply a snapshot: insert the row, or replace it unless the snapshot is older. -/
def upsertWarehouse (payload : Snapshot) (refs : List WarehouseRef) : List WarehouseRef :=
  if refs.any (·.id == payload.id) then
    refs.map fun ref =>
      if ref.id == payload.id && decide (ref.sourceUpdatedAt ≤ payload.updatedAt) then
        payload.toRef
      else ref
  else refs ++ [payload.toRef]

/-- What a snapshot makes of the row of its warehouse. -/
def applySnapshot (ref : Option WarehouseRef) (payload : Snapshot) : WarehouseRef :=
  match ref with
  | none => payload.toRef
  | some ref => if ref.sourceUpdatedAt ≤ payload.updatedAt then payload.toRef else ref

/-- The statement rewrites rows and keeps their ids. -/
theorem id_replace (payload : Snapshot) (ref : WarehouseRef) :
    (if ref.id == payload.id && decide (ref.sourceUpdatedAt ≤ payload.updatedAt) then
      payload.toRef else ref).id = ref.id := by
  split
  · rename_i h
    rw [Bool.and_eq_true, beq_iff_eq] at h
    exact h.1.symm
  · rfl

/-- A snapshot is applied to the row of its warehouse and to no other. -/
theorem find_upsertWarehouse (payload : Snapshot) (refs : List WarehouseRef) (id : Nat) :
    (upsertWarehouse payload refs).find? (·.id == id) =
      if payload.id = id then some (applySnapshot (refs.find? (·.id == id)) payload)
      else refs.find? (·.id == id) := by
  unfold upsertWarehouse
  split
  · rename_i hknown
    simp only [List.find?_map, Function.comp_def, id_replace]
    cases hfind : refs.find? (·.id == id) with
    | none =>
      rw [Option.map_none, if_neg]
      rintro rfl
      obtain ⟨ref, href, hids⟩ := List.any_eq_true.1 hknown
      exact List.find?_eq_none.1 hfind ref href hids
    | some ref =>
      have hrefid : ref.id = id := by simpa using List.find?_some hfind
      rw [Option.map_some]
      by_cases hpayload : payload.id = id
      · simp [hpayload, hrefid, applySnapshot]
      · rw [if_neg hpayload, if_neg]
        simp [hrefid, Ne.symm hpayload]
  · rename_i hnew
    rw [List.find?_append]
    by_cases hpayload : payload.id = id
    · subst hpayload
      have hnone : refs.find? (·.id == payload.id) = none :=
        List.find?_eq_none.2 fun ref href hids => hnew (List.any_eq_true.2 ⟨ref, href, hids⟩)
      rw [hnone, if_pos rfl]
      simp [Snapshot.toRef, applySnapshot]
    · rw [if_neg hpayload]
      simp [Snapshot.toRef, hpayload]

/-- The warehouse, if it is known and operational; `consequence` ends the message otherwise. -/
def requireOperational (consequence : String) (refs : List WarehouseRef) (warehouseId : Nat) :
    Except Failure WarehouseRef :=
  match refs.find? (·.id == warehouseId) with
  | none => .error (.domain (notFoundError "Unknown warehouse."))
  | some ref =>
    if ref.isOperational then .ok ref
    else .error (.domain ⟨409, "warehouse_not_operational",
      "Warehouse " ++ ref.code ++ " is " ++ (if ref.isDeleted then "deleted" else ref.status) ++
        "; " ++ consequence⟩)

end SmartLogistics.Warehouse
