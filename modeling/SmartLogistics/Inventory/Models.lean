import SmartLogistics.Library.Table
import SmartLogistics.Warehouse.Replica

/-!
# Inventory's tables

The rows of Inventory's database, its table constraints (`Db.constraints`, enforced by `Db.check` at
every flush), and the writes a flush sends: changed columns by id (`Db.writeItems`,
`Db.writeReservations`), inserts, and staged outbox events.

`heldQty` and `ledger` are the two sums the counters of an item stand for.
-/

set_option autoImplicit false

namespace SmartLogistics.Inventory

open SmartLogistics.Library SmartLogistics.Platform SmartLogistics.Warehouse

/-- Where a reservation stands. -/
inductive ReservationStatus
  | held
  | committed
  | released
  deriving DecidableEq, Repr

/-- Why stock on hand has changed. -/
inductive StockMovementType
  | inboundReceipt
  | outboundDispatch
  | returnReceipt
  | adjustment
  | damageWriteOff
  | transferIn
  | transferOut
  deriving DecidableEq, Repr

/-- Product master: the columns stock and snapshots read. `unitValue` is in hundredths. -/
structure Sku where
  id : Nat
  code : String
  name : String
  weightG : Nat
  unitValue : Option Nat
  currency : String
  isActive : Bool
  deletedAt : Option Nat
  deriving DecidableEq, Repr

/-- The stock position for one SKU at one warehouse. -/
structure InventoryItem where
  id : Nat
  warehouseId : Nat
  skuId : Nat
  zoneId : Option Nat
  onHandQty : Int
  reservedQty : Int
  reorderLevel : Int
  version : Int
  deriving DecidableEq, Repr

/-- A hold on stock for one shipment line. -/
structure InventoryReservation where
  id : Nat
  inventoryItemId : Nat
  shipmentId : Nat
  warehouseId : Nat
  skuId : Nat
  quantity : Int
  status : ReservationStatus
  expiresAt : Option Nat
  confirmedAt : Option Nat
  committedAt : Option Nat
  releasedAt : Option Nat
  releaseReason : Option String
  deriving DecidableEq, Repr

/-- One row of the append-only stock ledger. -/
structure StockMovement where
  inventoryItemId : Nat
  warehouseId : Nat
  skuId : Nat
  type : StockMovementType
  quantityDelta : Int
  resultingOnHand : Int
  referenceType : Option String
  referenceId : Option Nat
  actorId : Option Nat
  notes : Option String
  occurredAt : Nat
  deriving DecidableEq, Repr

/-- The payloads of `inventory.events`. -/
inductive StockPayload
  | hold (shipmentId warehouseId : Nat) (lines : List (Nat × Int)) (reason : Option String)
  | adjusted (inventoryItemId warehouseId skuId : Nat) (type : StockMovementType)
      (quantityDelta onHandQty : Int)
  deriving DecidableEq, Repr

/-- An event staged in the outbox. -/
structure StockEvent where
  topic : String
  eventType : String
  key : Nat
  payload : StockPayload
  producer : String
  deriving DecidableEq, Repr

/-- Inventory's database. -/
structure Db where
  skus : List Sku
  warehouseRefs : List WarehouseRef
  items : List InventoryItem
  reservations : List InventoryReservation
  movements : List StockMovement
  outbox : List StockEvent
  deriving DecidableEq, Repr

/-- The database after its migrations. -/
def Db.empty : Db := ⟨[], [], [], [], [], []⟩

/-- The rows transactions lock. -/
inductive Row
  | item (id : Nat)
  | reservation (id : Nat)
  deriving DecidableEq, Repr

/-! ## The sums behind the counters -/

/-- The row is an active hold on item `itemId`. -/
def InventoryReservation.holds (itemId : Nat) (r : InventoryReservation) : Bool :=
  r.inventoryItemId == itemId && r.status == .held

/-- The quantity held on an item. -/
def heldQty (reservations : List InventoryReservation) (itemId : Nat) : Int :=
  Table.totalBy (InventoryReservation.holds itemId) (·.quantity) reservations

/-- The sum of an item's ledger. -/
def ledger (movements : List StockMovement) (itemId : Nat) : Int :=
  Table.totalBy (fun m => m.inventoryItemId == itemId) (·.quantityDelta) movements

/-! ## Constraints -/

namespace Db

/-- A CHECK constraint on the rows of one table. -/
def checkRows {ρ : Type} (constraintName : String) (table : Db → List ρ) (p : ρ → Bool) :
    IntegrityError × (Db → Bool) :=
  (⟨.checkViolation, constraintName⟩, fun db => (table db).all p)

/-- A unique constraint on the rows of one table. -/
def uniqueRows {ρ κ : Type} [DecidableEq κ] (constraintName : String) (table : Db → List ρ)
    (key : ρ → κ) : IntegrityError × (Db → Bool) :=
  (⟨.uniqueViolation, constraintName⟩, fun db => decide ((table db).map key).Nodup)

/-- A foreign key to `inventory_items`. -/
def referencesItem {ρ : Type} (constraintName : String) (table : Db → List ρ) (key : ρ → Nat) :
    IntegrityError × (Db → Bool) :=
  (⟨.foreignKeyViolation, constraintName⟩, fun db =>
    (table db).all fun r => (db.items.map (·.id)).contains (key r))

/-- The table constraints, with the violation each one reports. -/
def constraints : List (IntegrityError × (Db → Bool)) :=
  [checkRows "ck_inventory_items_on_hand_non_negative" items fun i => 0 ≤ i.onHandQty,
   checkRows "ck_inventory_items_reserved_non_negative" items fun i => 0 ≤ i.reservedQty,
   checkRows "ck_inventory_items_reserved_within_on_hand" items fun i =>
     i.reservedQty ≤ i.onHandQty,
   checkRows "ck_inventory_reservations_quantity_positive" reservations fun r => 0 < r.quantity,
   checkRows "ck_inventory_reservations_unconfirmed_holds_expire" reservations fun r =>
    r.status != .held || r.confirmedAt.isSome || r.expiresAt.isSome,
   checkRows "ck_stock_movements_delta_non_zero" movements fun m => m.quantityDelta != 0,
   uniqueRows "pk_inventory_items" items (·.id),
   uniqueRows "uq_inventory_warehouse_sku" items fun i => (i.warehouseId, i.skuId),
   uniqueRows "pk_inventory_reservations" reservations (·.id),
   uniqueRows "uq_reservation_shipment_sku" reservations fun r => (r.shipmentId, r.skuId),
   referencesItem "fk_inventory_reservations_inventory_item_id_inventory_items" reservations
    (·.inventoryItemId),
   referencesItem "fk_stock_movements_inventory_item_id_inventory_items" movements
    (·.inventoryItemId)]

/-- The first constraint a state violates. -/
def violated (db : Db) : Option IntegrityError := (constraints.find? fun c => !c.2 db).map (·.1)

/-- What the database answers to a write that leaves the state `db`. -/
def check (db : Db) : Except Failure Db :=
  match db.violated with
  | none => .ok db
  | some error => .error (.integrity error)

/-! ## Writes -/

/-- `UPDATE inventory_items` with the counters of the in-memory copies. -/
def writeItems (copies : List InventoryItem) (db : Db) : Db :=
  { db with items := db.items.map fun row =>
      match Table.lookup InventoryItem.id copies row.id with
      | some copy =>
        { row with
          onHandQty := copy.onHandQty
          reservedQty := copy.reservedQty
          version := copy.version }
      | none => row }

/-- `UPDATE inventory_reservations` of the rows `ids` with the changed columns `set`. -/
def writeReservations (ids : List Nat) (set : InventoryReservation → InventoryReservation)
    (db : Db) : Db :=
  { db with reservations := db.reservations.map fun row =>
      if ids.contains row.id then set row else row }

/-- A position is added. -/
def insertItem (item : InventoryItem) (db : Db) : Db := { db with items := db.items ++ [item] }

/-- Reservations are added. -/
def insertReservations (rows : List InventoryReservation) (db : Db) : Db :=
  { db with reservations := db.reservations ++ rows }

/-- Rows are added to the ledger. -/
def insertMovements (rows : List StockMovement) (db : Db) : Db :=
  { db with movements := db.movements ++ rows }

/-- The staged events, written with the rest of the transaction. -/
def stage (events : List StockEvent) (db : Db) : Db := { db with outbox := db.outbox ++ events }

end Db

end SmartLogistics.Inventory
