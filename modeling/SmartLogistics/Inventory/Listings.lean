import SmartLogistics.Inventory.Stock

/-!
# Stock listings and the sweep endpoint

The queries of `StockService` (`listItems`, `listReservations`, `movements`), and the scope the
release-expired endpoint passes to the sweep (`sweepScope`). `created_at` of a reservation is a
column that stock does not read otherwise; a listing gets it as a function of the row's id. Rows
that compare equal keep the order of the table.
-/

set_option autoImplicit false

namespace SmartLogistics.Inventory

open SmartLogistics.Library SmartLogistics.Platform

/-- Whoever may change stock. -/
def stockManager : List UserRole := [.admin, .warehouseOperator]

/-- The query parameters of the stock listing. -/
structure ItemFilter where
  warehouseId : Option Nat
  skuId : Option Nat
  belowReorderLevel : Option Bool
  inStockOnly : Option Bool
  limit : Nat
  offset : Nat

/-- The row is in the scope of the caller. -/
def inScope (principal : Principal) (warehouseId : Nat) : Bool :=
  principal.scopedWarehouseIds.all fun scope => scope.contains warehouseId

/-- The filters of `list_items` besides the scope. -/
def ItemFilter.selects (filter : ItemFilter) (item : InventoryItem) : Bool :=
  filter.warehouseId.all (item.warehouseId == ·) &&
    filter.skuId.all (item.skuId == ·) &&
    (filter.belowReorderLevel != some true || available item ≤ item.reorderLevel) &&
    (filter.inStockOnly != some true || 0 < available item)

/-- `ORDER BY warehouse_id, sku_id` -/
def positionLe (a b : InventoryItem) : Prop :=
  a.warehouseId < b.warehouseId ∨ a.warehouseId = b.warehouseId ∧ a.skuId ≤ b.skuId

instance (a b : InventoryItem) : Decidable (positionLe a b) :=
  inferInstanceAs (Decidable (_ ∨ _))

/-- A page of stock positions, and how many there are in all. -/
def listItems (principal : Principal) (filter : ItemFilter) (db : Db) :
    List InventoryItem × Nat :=
  let rows := db.items.filter fun item => filter.selects item && inScope principal item.warehouseId
  (((rows.insertionSort positionLe).drop filter.offset).take filter.limit, rows.length)

/-- `list_reservations`: the reservations in the caller's scope that meet the filters, the latest
first. -/
def listReservations (createdAt : Nat → Nat) (principal : Principal) (shipmentId : Option Nat)
    (status : Option ReservationStatus) (limit : Nat) (db : Db) : List InventoryReservation :=
  let rows := db.reservations.filter fun r => shipmentId.all (r.shipmentId == ·) &&
    status.all (r.status == ·) && inScope principal r.warehouseId
  (rows.insertionSort fun a b => createdAt b.id ≤ createdAt a.id).take limit

/-- The ledger of one position, latest first. -/
def movements (itemId : Nat) (principal : Principal) (limit : Nat) (db : Db) :
    Except DomainError (List StockMovement) :=
  match (Table.lookup InventoryItem.id db.items itemId).filter fun item =>
      principal.mayTouchWarehouse item.warehouseId with
  | none => .error (notFoundError "Stock position not found.")
  | some _ => .ok (((db.movements.filter (·.inventoryItemId == itemId)).insertionSort
      fun a b => b.occurredAt ≤ a.occurredAt).take limit)

/-- The warehouses `POST /release-expired` sweeps. -/
def sweepScope (principal : Principal) (warehouseId : Option Nat) :
    Except DomainError (Option (List Nat)) := do
  principal.require stockManager
  if principal.isAdmin then return warehouseId.map fun id => [id]
  else
    let allowed := principal.warehouseIds
    if warehouseId.any fun id => !allowed.contains id then
      throw (permissionDeniedError "You may only release holds in your own warehouses.")
    else return some (warehouseId.elim allowed fun id => [id])

end SmartLogistics.Inventory
