import SmartLogistics.Inventory.Models

/-!
# Stock holds: reserve, confirm, commit, release, expire

The transactions of `ReservationService`, statement by statement. Rows read `FOR UPDATE` are
in-memory copies from then on: a loop over holds rewrites the copies (`releaseEach`, `commitEach`,
`holdEach`) and a flush writes the changed columns back.
-/

set_option autoImplicit false

namespace SmartLogistics.Inventory

open SmartLogistics.Library SmartLogistics.Platform SmartLogistics.Warehouse

/-- A transaction body of Inventory. -/
abbrev InventoryTxn := Txn Db Row Failure

/-- `InsufficientStockError`: less is available than was asked for. -/
def insufficientStockError (message : String) : DomainError := ⟨409, "insufficient_stock", message⟩

/-- `ReservationMismatchError`: the shipment holds other stock. -/
def reservationMismatchError (message : String) : DomainError :=
  ⟨409, "reservation_mismatch", message⟩

/-- One requested line; the bounds are those the schema validates. -/
structure ReservationLineRequest where
  skuId : Nat
  quantity : Int
  quantity_pos : 0 < quantity
  quantity_le : quantity ≤ 100000

/-- Hold stock for one shipment. -/
structure ReservationRequest where
  shipmentId : Nat
  warehouseId : Nat
  lines : List ReservationLineRequest
  lines_ne_nil : lines ≠ []
  lines_length_le : lines.length ≤ 200
  unique_skus : (lines.map (·.skuId)).Nodup

/-- A held line with the SKU facts Shipment copies onto its items. -/
structure ReservedLine where
  skuId : Nat
  quantity : Int
  skuCode : String
  skuName : String
  unitWeightG : Nat
  unitValue : Option Nat
  currency : String
  deriving DecidableEq, Repr

/-- What a reserve answers with. -/
structure ReservationResult where
  shipmentId : Nat
  warehouseId : Nat
  status : ReservationStatus
  confirmed : Bool
  expiresAt : Option Nat
  lines : List ReservedLine
  deriving DecidableEq, Repr

/-! ## Events -/

/-- An event about the holds of a shipment, keyed by it. -/
def emitStockEvent (eventType : String) (shipmentId warehouseId : Nat)
    (holds : List InventoryReservation) (reason : Option String) : StockEvent where
  topic := "inventory.events"
  eventType := eventType
  key := shipmentId
  payload := .hold shipmentId warehouseId (holds.map fun h => (h.skuId, h.quantity)) reason
  producer := "inventory"

/-- The warehouse of the first hold of a list. -/
def firstWarehouse (holds : List InventoryReservation) : Nat :=
  (holds.head?.map (·.warehouseId)).getD 0

/-- The released events of a sweep, one a shipment, in the order the shipments first appear. -/
def releasedEvents (expired : List InventoryReservation) : List StockEvent :=
  (expired.map (·.shipmentId)).eraseDups.map fun shipmentId =>
    let holds := expired.filter (·.shipmentId == shipmentId)
    emitStockEvent "stock.released" shipmentId (firstWarehouse holds) holds
      (some "Unconfirmed hold expired")

/-! ## In-memory loops -/

/-- What is on hand and not reserved. -/
def available (item : InventoryItem) : Int := item.onHandQty - item.reservedQty

/-- Rewrite the copy with a given id; a Python dict has no default. -/
def updateCopy (id : Nat) (f : InventoryItem → InventoryItem) (copies : List InventoryItem) :
    Except Failure (List InventoryItem) :=
  if copies.any (·.id == id) then .ok (copies.map fun i => if i.id == id then f i else i)
  else .error .keyError

/-- The item side of `_release_one`. -/
def releaseOne (hold : InventoryReservation) (item : InventoryItem) : InventoryItem :=
  { item with
    reservedQty := item.reservedQty - hold.quantity
    version := item.version + 1 }

/-- The hold side of `_release_one`. -/
def InventoryReservation.release (reason : String) (now : Nat) (hold : InventoryReservation) :
    InventoryReservation :=
  { hold with
    status := .released
    releasedAt := some now
    releaseReason := some reason }

/-- `_release_one` for each hold in turn. -/
def releaseEach : List InventoryReservation → List InventoryItem →
    Except Failure (List InventoryItem)
  | [], copies => .ok copies
  | hold :: holds, copies => do
    let copies ← updateCopy hold.inventoryItemId (releaseOne hold) copies
    releaseEach holds copies

/-- The item side of one turn of commit's loop. -/
def commitOne (hold : InventoryReservation) (item : InventoryItem) : InventoryItem :=
  { item with
    onHandQty := item.onHandQty - hold.quantity
    reservedQty := item.reservedQty - hold.quantity
    version := item.version + 1 }

/-- The hold side of one turn of commit's loop. -/
def InventoryReservation.commit (now : Nat) (hold : InventoryReservation) : InventoryReservation :=
  { hold with
    status := .committed
    committedAt := some now }

/-- The ledger row of one turn of commit's loop. -/
def dispatchMovement (shipmentId : Nat) (actorId : Option Nat) (occurredAt : Nat)
    (hold : InventoryReservation) (item : InventoryItem) : StockMovement where
  inventoryItemId := item.id
  warehouseId := item.warehouseId
  skuId := item.skuId
  type := .outboundDispatch
  quantityDelta := -hold.quantity
  resultingOnHand := item.onHandQty
  referenceType := some "shipment"
  referenceId := some shipmentId
  actorId := actorId
  notes := none
  occurredAt := occurredAt

/-- Commit's loop: the copies and the ledger rows it leaves. -/
def commitEach (shipmentId : Nat) (actorId : Option Nat) (occurredAt : Nat) :
    List InventoryReservation → List InventoryItem →
      Except Failure (List InventoryItem × List StockMovement)
  | [], copies => .ok (copies, [])
  | hold :: holds, copies => do
    let copies ← updateCopy hold.inventoryItemId (commitOne hold) copies
    match Table.lookup InventoryItem.id copies hold.inventoryItemId with
    | none => .error .keyError
    | some item =>
      let (final, rows) ← commitEach shipmentId actorId occurredAt holds copies
      .ok (final, dispatchMovement shipmentId actorId occurredAt hold item :: rows)

/-- The item side of one turn of reserve's loop. -/
def holdOne (line : ReservationLineRequest) (item : InventoryItem) : InventoryItem :=
  { item with
    reservedQty := item.reservedQty + line.quantity
    version := item.version + 1 }

/-- Reserve's loop over the lines, each with the id its hold gets. -/
def holdEach (request : ReservationRequest) (expiresAt : Nat) :
    List (ReservationLineRequest × Nat) → List InventoryItem →
      Except Failure (List InventoryItem × List InventoryReservation)
  | [], copies => .ok (copies, [])
  | (line, id) :: lines, copies => do
    match copies.find? (·.skuId == line.skuId) with
    | none => .error .keyError
    | some item =>
      let copies ← updateCopy item.id (holdOne line) copies
      let (final, holds) ← holdEach request expiresAt lines copies
      .ok (final,
        { id := id
          inventoryItemId := item.id
          shipmentId := request.shipmentId
          warehouseId := request.warehouseId
          skuId := line.skuId
          quantity := line.quantity
          status := .held
          expiresAt := some expiresAt
          confirmedAt := none
          committedAt := none
          releasedAt := none
          releaseReason := none } :: holds)

/-! ## Queries -/

/-- The reservations of a shipment. -/
def forShipment (shipmentId : Nat) (db : Db) : List InventoryReservation :=
  db.reservations.filter (·.shipmentId == shipmentId)

/-- The row is a HELD reservation of the shipment. -/
def isHeldFor (shipmentId : Nat) (r : InventoryReservation) : Bool :=
  r.shipmentId == shipmentId && r.status == .held

/-- The shipment has a reservation in this status. -/
def hasStatus (shipmentId : Nat) (status : ReservationStatus) (db : Db) : Bool :=
  db.reservations.any fun r => r.shipmentId == shipmentId && r.status == status

/-- The row is an unconfirmed hold past its expiry. -/
def isLapsed (cutoff : Nat) (r : InventoryReservation) : Bool :=
  r.status == .held && r.confirmedAt.isNone && r.expiresAt.any fun e => decide (e ≤ cutoff)

/-- `_lock_items`: the positions of the SKUs at a warehouse, locked in the order of their ids. -/
def lockItems (warehouseId : Nat) (skuIds : List Nat) : InventoryTxn (List InventoryItem) :=
  Table.selectForUpdate InventoryItem.id Row.item Db.items fun i =>
    i.warehouseId == warehouseId && skuIds.contains i.skuId

/-- `_lock_item_ids`: the positions with these ids, locked in the order of their ids. -/
def lockItemIds (itemIds : List Nat) : InventoryTxn (List InventoryItem) :=
  Table.selectForUpdate InventoryItem.id Row.item Db.items fun i => itemIds.contains i.id

/-- Lock a shipment's HELD reservations: items first, then holds. -/
def lockHolds (shipmentId : Nat) : InventoryTxn (List InventoryReservation) := do
  let itemIds ← Txn.select fun db =>
    (db.reservations.filter (isHeldFor shipmentId)).map (·.inventoryItemId)
  if itemIds.isEmpty then return []
  else
    let _ ← lockItemIds itemIds
    Table.selectForUpdate InventoryReservation.id Row.reservation Db.reservations
      (isHeldFor shipmentId)

/-- Release lapsed unconfirmed holds on items this transaction already locked: how many, and the
copies of the items afterwards. -/
def expireUnconfirmed (items : List InventoryItem) : InventoryTxn (Nat × List InventoryItem) := do
  if items.isEmpty then return (0, items)
  else
    let cutoff ← Txn.now
    let expired ← Table.selectForUpdate InventoryReservation.id Row.reservation Db.reservations
      fun r => (items.map (·.id)).contains r.inventoryItemId && isLapsed cutoff r
    let now ← Txn.now
    let items ← Txn.ofExcept (releaseEach expired items)
    if expired.isEmpty then return (0, items)
    else
      Txn.write fun db => ((db.writeItems items).writeReservations (expired.map (·.id))
        (InventoryReservation.release "Unconfirmed hold expired" now)).check
      Txn.write fun db => .ok (db.stage (releasedEvents expired))
      return (expired.length, items)

/-- `skus[id]`, which raises if the SKU is not there. -/
def skuRow (skus : List Sku) (id : Nat) : Except Failure Sku :=
  match skus.find? (·.id == id) with
  | some sku => .ok sku
  | none => .error .keyError

/-- Texts as `', '.join(sorted(…))` prints them. -/
def joinSorted (texts : List String) : String :=
  ", ".intercalate (texts.insertionSort (· ≤ ·))

/-- The requested SKUs; unknown and inactive ones are refused. -/
def loadSkus (skuIds : List Nat) (db : Db) : Except Failure (List Sku) :=
  let skus := db.skus.filter fun s => skuIds.contains s.id && s.deletedAt.isNone
  let missing := skuIds.filter fun id => !(skus.map (·.id)).contains id
  if missing ≠ [] then
    .error (.domain (notFoundError ("Unknown SKU(s): " ++ joinSorted (missing.map toString))))
  else
    let inactive := (skus.filter fun s => !s.isActive).map (·.code)
    if inactive ≠ [] then
      .error (.domain (conflictError ("Inactive SKU(s): " ++ joinSorted inactive)))
    else .ok skus

/-- `_load_skus_any`: the SKUs with these ids, deleted ones too. -/
def loadSkusAny (skuIds : List Nat) (db : Db) : List Sku :=
  db.skus.filter fun s => skuIds.contains s.id

/-- The SKU snapshot of one held line. -/
def reservedLine (skus : List Sku) (h : InventoryReservation) : Except Failure ReservedLine := do
  let sku ← skuRow skus h.skuId
  return { skuId := h.skuId
           quantity := h.quantity
           skuCode := sku.code
           skuName := sku.name
           unitWeightG := sku.weightG
           unitValue := sku.unitValue
           currency := sku.currency }

/-- The answer to a reserve: the common status (HELD where the lines differ), whether every line is
confirmed, the first expiry, and the lines by SKU. -/
def result (shipmentId warehouseId : Nat) (holds : List InventoryReservation) (skus : List Sku) :
    Except Failure ReservationResult := do
  let lines ← (holds.insertionSort fun a b => a.skuId ≤ b.skuId).mapM (reservedLine skus)
  return { shipmentId := shipmentId
           warehouseId := warehouseId
           status :=
            match (holds.map (·.status)).eraseDups with
            | [status] => status
            | _ => .held
           confirmed := holds.all (·.confirmedAt.isSome)
           expiresAt := (holds.filterMap (·.expiresAt)).min?
           lines := lines }

/-- The answer to a reserve of a shipment that already has reservations. -/
def replay (request : ReservationRequest) (existing : List InventoryReservation) :
    InventoryTxn ReservationResult := do
  let wanted := request.lines.map fun line => (line.skuId, line.quantity)
  let held := existing.map fun r => (r.skuId, r.quantity)
  if !(wanted.all held.contains && held.all wanted.contains) ||
      firstWarehouse existing != request.warehouseId then
    Txn.raise (.domain (reservationMismatchError "This shipment already holds different stock."))
  else
    let skus ← Txn.select (loadSkusAny (existing.map (·.skuId)))
    Txn.ofExcept (result request.shipmentId request.warehouseId existing skus)

/-- Ids for the rows of one flush. -/
def freshIds : Nat → InventoryTxn (List Nat)
  | 0 => return []
  | n + 1 => do
    let id ← Txn.freshId
    let ids ← freshIds n
    return id :: ids

/-! ## Operations -/

/-- The text for a line the item's available stock does not cover. -/
def shortfall (skus : List Sku) (items : List InventoryItem) (line : ReservationLineRequest) :
    Except Failure (Option String) :=
  match items.find? (·.skuId == line.skuId) with
  | none => .error .keyError
  | some item =>
    if available item < line.quantity then do
      let sku ← skuRow skus line.skuId
      return some (sku.code ++ " (requested " ++ toString line.quantity ++ ", available " ++
        toString (available item) ++ ")")
    else return none

/-- The refusals of reserve once the items are locked and lapsed holds are released. -/
def requireStock (request : ReservationRequest) (skus : List Sku) (items : List InventoryItem) :
    Except Failure Unit := do
  let missing := (skus.filter fun s => !items.any (·.skuId == s.id)).map (·.code)
  if missing ≠ [] then
    .error (.domain (insufficientStockError
      ("No stock position at this warehouse for: " ++ joinSorted missing)))
  else
    let shortfalls := (← request.lines.mapM (shortfall skus items)).filterMap id
    if shortfalls ≠ [] then
      .error (.domain (insufficientStockError
        ("Insufficient stock for: " ++ "; ".intercalate shortfalls)))
    else .ok ()

/-- Hold stock for every line or none; the flag says whether the hold is new. -/
def reserve (unconfirmedHold : Nat) (request : ReservationRequest) :
    InventoryTxn (ReservationResult × Bool) := do
  let existing ← Txn.select (forShipment request.shipmentId)
  if !existing.isEmpty then
    let answer ← replay request existing
    return (answer, false)
  else
    let refs ← Txn.select Db.warehouseRefs
    let _ ← Txn.ofExcept
      (requireOperational "stock there cannot be held." refs request.warehouseId)
    let loaded ← Txn.select (loadSkus (request.lines.map (·.skuId)))
    let skus ← Txn.ofExcept loaded
    let items ← lockItems request.warehouseId (skus.map (·.id))
    let (_, items) ← expireUnconfirmed items
    Txn.ofExcept (requireStock request skus items)
    let now ← Txn.now
    let ids ← freshIds request.lines.length
    let (items, holds) ← Txn.ofExcept
      (holdEach request (now + unconfirmedHold) (request.lines.zip ids) items)
    Txn.write fun db => ((db.writeItems items).insertReservations holds).check
    Txn.write fun db => .ok (db.stage
      [emitStockEvent "stock.reserved" request.shipmentId request.warehouseId holds none])
    let answer ← Txn.ofExcept (result request.shipmentId request.warehouseId holds skus)
    return (answer, true)

/-- The hold after `confirm`: the moment of confirmation, and no expiry. -/
def InventoryReservation.confirm (now : Nat) (hold : InventoryReservation) :
    InventoryReservation :=
  { hold with
    confirmedAt := some now
    expiresAt := none }

/-- The shipment exists: its holds stop expiring. -/
def confirm (shipmentId : Nat) : InventoryTxn Nat := do
  let holds ← lockHolds shipmentId
  let now ← Txn.now
  let unconfirmed := (holds.filter (·.confirmedAt.isNone)).map (·.id)
  Txn.write fun db =>
    (db.writeReservations unconfirmed (InventoryReservation.confirm now)).check
  return holds.length

/-- Goods physically left: held quantity leaves both reserved and on hand. -/
def commit (shipmentId : Nat) (actorId : Option Nat) : InventoryTxn Nat := do
  let holds ← lockHolds shipmentId
  if holds.isEmpty then
    let committed ← Txn.select (hasStatus shipmentId .committed)
    if committed then return 0
    else Txn.raise (.domain (conflictError "This shipment holds no stock to commit."))
  else
    let items ← lockItemIds (holds.map (·.inventoryItemId))
    let now ← Txn.now
    let occurredAt ← Txn.now
    let (items, rows) ← Txn.ofExcept (commitEach shipmentId actorId occurredAt holds items)
    Txn.write fun db => (((db.writeItems items).writeReservations (holds.map (·.id))
      (InventoryReservation.commit now)).insertMovements rows).check
    Txn.write fun db => .ok (db.stage
      [emitStockEvent "stock.committed" shipmentId (firstWarehouse holds) holds none])
    return holds.length

/-- Give held stock back; releasing twice releases once. -/
def release (shipmentId : Nat) (reason : String) : InventoryTxn Nat := do
  let holds ← lockHolds shipmentId
  if holds.isEmpty then return 0
  else
    let items ← lockItemIds (holds.map (·.inventoryItemId))
    let now ← Txn.now
    let items ← Txn.ofExcept (releaseEach holds items)
    Txn.write fun db => ((db.writeItems items).writeReservations (holds.map (·.id))
      (InventoryReservation.release reason now)).check
    Txn.write fun db => .ok (db.stage
      [emitStockEvent "stock.released" shipmentId (firstWarehouse holds) holds (some reason)])
    return holds.length

/-- Sweep unconfirmed holds past expiry, at the given warehouses or everywhere. -/
def releaseExpired (warehouseIds : Option (List Nat)) : InventoryTxn Nat := do
  let cutoff ← Txn.now
  let itemIds ← Txn.select fun db => (db.reservations.filter fun r =>
    isLapsed cutoff r && warehouseIds.all fun ids => ids.contains r.warehouseId).map
      (·.inventoryItemId)
  if itemIds.isEmpty then return 0
  else
    let items ← lockItemIds itemIds
    let (count, _) ← expireUnconfirmed items
    return count

end SmartLogistics.Inventory
