import SmartLogistics.Inventory.Reservations
import SmartLogistics.Platform.Auth

/-!
# Stock positions, and Inventory as a system

The transactions of `StockService` that write stock (`openPosition`, `adjust`), and `inventory`, the
system of all of Inventory's stock transactions over its database. The catalog and the warehouse
replica are written by other parts of the service, one committed write at a time.
-/

set_option autoImplicit false

namespace SmartLogistics.Inventory

open SmartLogistics.Library SmartLogistics.Platform SmartLogistics.Warehouse

/-- Opens a stock position for a SKU at a warehouse. -/
structure InventoryItemCreate where
  warehouseId : Nat
  skuId : Nat
  zoneId : Option Nat
  onHandQty : Int
  reorderLevel : Int
  onHandQty_nonneg : 0 ≤ onHandQty
  reorderLevel_nonneg : 0 ≤ reorderLevel

/-- A deliberate correction to on-hand stock. -/
structure StockAdjustment where
  type : StockMovementType
  quantityDelta : Int
  notes : Option String
  quantityDelta_ne_zero : quantityDelta ≠ 0

/-- `_assert_manages`: an admin, or an operator of the warehouse. -/
def assertManages (warehouseId : Nat) (principal : Principal) : Except Failure Unit :=
  if principal.isAdmin then .ok ()
  else if principal.role == .warehouseOperator && principal.warehouseIds.contains warehouseId then
    .ok ()
  else
    .error (.domain (permissionDeniedError "You may only manage stock in your own warehouses."))

/-- The ledger row of an opening position. -/
def openingMovement (item : InventoryItem) (userId occurredAt : Nat) : StockMovement where
  inventoryItemId := item.id
  warehouseId := item.warehouseId
  skuId := item.skuId
  type := .inboundReceipt
  quantityDelta := item.onHandQty
  resultingOnHand := item.onHandQty
  referenceType := some "opening"
  referenceId := none
  actorId := some userId
  notes := some "Opening stock"
  occurredAt := occurredAt

/-- `open_position`: a warehouse that works, a SKU that exists, and the first receipt in the
ledger. -/
def openPosition (payload : InventoryItemCreate) (principal : Principal) :
    InventoryTxn InventoryItem := do
  Txn.ofExcept (assertManages payload.warehouseId principal)
  let refs ← Txn.select Db.warehouseRefs
  let _ ← Txn.ofExcept (requireOperational "stock there cannot be held." refs payload.warehouseId)
  let sku ← Txn.select fun db => db.skus.find? (·.id == payload.skuId)
  if sku.isNone then Txn.raise (.domain (notFoundError "SKU not found."))
  else
    let id ← Txn.freshId
    let item : InventoryItem :=
      { id := id
        warehouseId := payload.warehouseId
        skuId := payload.skuId
        zoneId := payload.zoneId
        onHandQty := payload.onHandQty
        reservedQty := 0
        reorderLevel := payload.reorderLevel
        version := 1 }
    Txn.write fun db => (db.insertItem item).check
    if payload.onHandQty ≠ 0 then
      let occurredAt ← Txn.now
      Txn.write fun db =>
        (db.insertMovements [openingMovement item principal.userId occurredAt]).check
      return item
    else return item

/-- The copy after an adjustment. -/
def adjustOne (payload : StockAdjustment) (item : InventoryItem) : InventoryItem :=
  { item with
    onHandQty := item.onHandQty + payload.quantityDelta
    version := item.version + 1 }

/-- The ledger row of an adjustment, from the adjusted copy. -/
def adjustmentMovement (payload : StockAdjustment) (item : InventoryItem)
    (userId occurredAt : Nat) : StockMovement where
  inventoryItemId := item.id
  warehouseId := item.warehouseId
  skuId := item.skuId
  type := payload.type
  quantityDelta := payload.quantityDelta
  resultingOnHand := item.onHandQty
  referenceType := some "adjustment"
  referenceId := none
  actorId := some userId
  notes := payload.notes
  occurredAt := occurredAt

/-- The event of an adjustment, keyed by the position. -/
def adjustedEvent (payload : StockAdjustment) (item : InventoryItem) : StockEvent where
  topic := "inventory.events"
  eventType := "stock.adjusted"
  key := item.id
  payload := .adjusted item.id item.warehouseId item.skuId payload.type payload.quantityDelta
    item.onHandQty
  producer := "inventory"

/-- A deliberate correction: the constraints refuse a result below what is already held. -/
def adjust (itemId : Nat) (payload : StockAdjustment) (principal : Principal) :
    InventoryTxn InventoryItem := do
  let rows ← Table.selectForUpdate InventoryItem.id Row.item Db.items fun i => i.id == itemId
  match rows.head? with
  | none => Txn.raise (.domain (notFoundError "Stock position not found."))
  | some row =>
    if !principal.mayTouchWarehouse row.warehouseId then
      Txn.raise (.domain (notFoundError "Stock position not found."))
    else
      Txn.ofExcept (assertManages row.warehouseId principal)
      let item := adjustOne payload row
      let occurredAt ← Txn.now
      Txn.write fun db => ((db.writeItems [item]).insertMovements
        [adjustmentMovement payload item principal.userId occurredAt]).check
      Txn.write fun db => .ok (db.stage [adjustedEvent payload item])
      return item

/-! ## The system -/

/-- Inventory's stock operations. -/
inductive Operation
  | openPosition (payload : InventoryItemCreate) (principal : Principal)
  | adjust (itemId : Nat) (payload : StockAdjustment) (principal : Principal)
  | reserve (request : ReservationRequest)
  | confirm (shipmentId : Nat)
  | commit (shipmentId : Nat) (actorId : Option Nat)
  | release (shipmentId : Nat) (reason : String)
  | releaseExpired (warehouseIds : Option (List Nat))

/-- What an operation returns. -/
inductive Outcome
  | item (item : InventoryItem)
  | reserved (answer : ReservationResult) (created : Bool)
  | count (n : Nat)
  deriving DecidableEq, Repr

/-- The transaction of an operation. -/
def program (unconfirmedHold : Nat) : Operation → InventoryTxn Outcome
  | .openPosition payload principal => do
    let item ← openPosition payload principal
    return .item item
  | .adjust itemId payload principal => do
    let item ← adjust itemId payload principal
    return .item item
  | .reserve request => do
    let (answer, created) ← reserve unconfirmedHold request
    return .reserved answer created
  | .confirm shipmentId => do
    let n ← confirm shipmentId
    return .count n
  | .commit shipmentId actorId => do
    let n ← commit shipmentId actorId
    return .count n
  | .release shipmentId reason => do
    let n ← release shipmentId reason
    return .count n
  | .releaseExpired warehouseIds => do
    let n ← releaseExpired warehouseIds
    return .count n

/-- A committed write of another part of the service. -/
inductive Environment
  | catalog (skus : List Sku)
  | replica (refs : List WarehouseRef)

/-- The state after such a write. -/
def applyEnvironment : Environment → Db → Db
  | .catalog skus, db => { db with skus := skus }
  | .replica refs, db => { db with warehouseRefs := refs }

/-- Inventory, with the time a hold may stay unconfirmed. -/
def inventory (unconfirmedHold : Nat) : System Db Row Failure Outcome Operation Environment where
  program := program unconfirmedHold
  env := applyEnvironment

/-- A configuration some run reaches from the empty database. -/
def Reachable (unconfirmedHold : Nat)
    (c : Config Db Row Failure Outcome Operation) : Prop :=
  (inventory unconfirmedHold).machine.Run (.idle .empty) c

end SmartLogistics.Inventory
