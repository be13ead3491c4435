import SmartLogistics.Library.Table
import SmartLogistics.Platform.Outbox
import SmartLogistics.Shipment.Shipments

/-!
# The records of a shipment, and the requests on them

The tables of Shipment's database (`Tables`): shipments with their destination, parcels, the audit
trail and the outbox. The requests of `ShipmentService` are given as what they compute from the rows
they read: `get`, `listShipments`, `history`, `update`, `addPackage` and `updatePackage`; a status
change is `changeStatus`.
-/

set_option autoImplicit false

namespace SmartLogistics.Shipment

open SmartLogistics.Library SmartLogistics.Platform SmartLogistics.Warehouse
  SmartLogistics.Inventory

/-! ## Rows -/

/-- A snapshot of where a parcel was sent. -/
structure Address where
  contactName : String
  contactPhone : String
  contactEmail : Option String
  line1 : String
  line2 : Option String
  city : String
  region : Option String
  postalCode : Option String
  countryCode : String
  mapPlaceId : Option String
  deliveryInstructions : Option String
  deriving DecidableEq, Repr

/-- An address with only the columns that are not nullable. -/
def sampleAddress : Address where
  contactName := "Recipient"
  contactPhone := "+923001234567"
  contactEmail := none
  line1 := "House 12"
  line2 := none
  city := "Karachi"
  region := none
  postalCode := none
  countryCode := "PK"
  mapPlaceId := none
  deliveryInstructions := none

/-- A row of `shipments`, with its address. -/
structure ShipmentRow extends Shipment where
  createdAt : Nat
  deletedAt : Option Nat
  destination : Address
  deriving DecidableEq, Repr

/-- Where a parcel stands. -/
inductive PackageStatus
  | pending
  | packed
  | labelled
  | dispatched
  deriving DecidableEq, Repr

/-- A row of `packages`. -/
structure Package where
  id : Nat
  shipmentId : Nat
  sequenceNo : Nat
  barcode : Nat
  status : PackageStatus
  weightG : Int
  lengthMm : Option Int
  widthMm : Option Int
  heightMm : Option Int
  labelUrl : Option String
  labelGeneratedAt : Option Nat
  packedAt : Option Nat
  deriving DecidableEq, Repr

/-- The audit trail: one immutable row per transition. -/
structure ShipmentStatusHistory where
  id : Nat
  shipmentId : Nat
  fromStatus : Option ShipmentStatus
  toStatus : ShipmentStatus
  actorId : Nat
  actorRole : UserRole
  reason : Option String
  occurredAt : Nat
  deriving DecidableEq, Repr

/-- What every event of a shipment says about it. -/
structure ShipmentSummary where
  id : Nat
  referenceNo : Nat
  customerReference : Option String
  status : ShipmentStatus
  serviceLevel : ServiceLevel
  priority : ShipmentPriority
  originWarehouseId : Nat
  originWarehouseCode : String
  courierId : Option Nat
  totalWeightG : Int
  promisedDeliveryAt : Option Nat
  version : Nat
  deriving DecidableEq, Repr

/-- The payloads of `shipment.events`. -/
inductive ShipmentPayload
  | created (summary : ShipmentSummary) (createdBy : Nat) (destinationCity : String)
      (items : List (Nat × Int))
  | updated (summary : ShipmentSummary) (changed : List String)
  | statusChanged (summary : ShipmentSummary) (previousStatus : ShipmentStatus)
      (reason : Option String) (actorId : Nat)
  deriving DecidableEq, Repr

/-- Shipment's database. -/
structure Tables where
  shipments : List ShipmentRow
  packages : List Package
  history : List ShipmentStatusHistory
  outbox : List (OutboxEvent ShipmentPayload)

/-- The database after its migrations. -/
def Tables.empty : Tables := ⟨[], [], [], []⟩

namespace Tables

/-- `SELECT … WHERE id = … AND deleted_at IS NULL`. -/
def find (db : Tables) (shipmentId : Nat) : Option ShipmentRow :=
  db.shipments.find? fun row => row.id == shipmentId && row.deletedAt.isNone

/-- The parcel with this id. -/
def package (db : Tables) (packageId : Nat) : Option Package :=
  Table.lookup Package.id db.packages packageId

/-- The parcels of a shipment. -/
def packagesOf (db : Tables) (shipmentId : Nat) : List Package :=
  db.packages.filter (·.shipmentId == shipmentId)

/-- The audit rows of a shipment, as they were written. -/
def historyOf (db : Tables) (shipmentId : Nat) : List ShipmentStatusHistory :=
  db.history.filter (·.shipmentId == shipmentId)

end Tables

/-! ## Reads -/

/-- A shipment the caller may see; out of scope reads as "not found". -/
def get (db : Tables) (shipmentId : Nat) (principal : Principal) :
    Except DomainError ShipmentRow :=
  match db.find shipmentId with
  | some row =>
    if visible row.toShipment principal then .ok row
    else .error (notFoundError "Shipment not found.")
  | none => .error (notFoundError "Shipment not found.")

/-- A shipment the caller gets is a row of its id that is not deleted, and visible. -/
theorem get_eq_ok {db : Tables} {shipmentId : Nat} {principal : Principal} {row : ShipmentRow}
    (h : get db shipmentId principal = .ok row) : row ∈ db.shipments ∧ row.id = shipmentId ∧
      row.deletedAt = none ∧ visible row.toShipment principal = true := by
  unfold get at h
  split at h
  · rename_i found hfound
    split at h
    · rename_i hvisible
      cases h
      have hkey := List.find?_some hfound
      simp only [Bool.and_eq_true, beq_iff_eq, Option.isNone_iff_eq_none] at hkey
      exact ⟨List.mem_of_find?_eq_some hfound, hkey.1, hkey.2, hvisible⟩
    · cases h
  · cases h

/-- The body of an answer with a shipment. -/
structure ShipmentRead where
  shipment : ShipmentRow
  packages : List Package
  deriving DecidableEq, Repr

/-- The row with its parcels by sequence number. -/
def shipmentRead (db : Tables) (row : ShipmentRow) : ShipmentRead where
  shipment := row
  packages := (db.packagesOf row.id).insertionSort fun a b => a.sequenceNo ≤ b.sequenceNo

/-- The filters and the page of a listing. -/
structure ListRequest where
  status : Option ShipmentStatus
  serviceLevel : Option ServiceLevel
  priority : Option ShipmentPriority
  originWarehouseId : Option Nat
  courierId : Option Nat
  createdBy : Option Nat
  city : Option String
  search : Option String
  createdFrom : Option Nat
  createdTo : Option Nat
  overdueOnly : Bool
  limit : Nat
  offset : Nat

/-- Statuses still owed to the customer. -/
def openStates (status : ShipmentStatus) : Bool :=
  !(allowedTransitions status).isEmpty && status != .returnInitiated

/-- What a listing needs of the database's texts: whether a value contains a search text, whatever
the case (`ILIKE`), and the text of a reference number. -/
structure Texts where
  ilike : String → String → Bool
  referenceNo : ShipmentRow → String

/-- A given filter is met. -/
def ListRequest.admits (request : ListRequest) (texts : Texts) (now : Nat) (row : ShipmentRow) :
    Bool :=
  request.status.all (· == row.status) &&
  request.serviceLevel.all (· == row.serviceLevel) &&
  request.priority.all (· == row.priority) &&
  request.originWarehouseId.all (· == row.originWarehouseId) &&
  request.courierId.all (some · == row.courierId) &&
  request.createdBy.all (· == row.createdBy) &&
  request.search.all (fun text => text == "" || texts.ilike text (texts.referenceNo row) ||
    row.customerReference.any (texts.ilike text)) &&
  request.createdFrom.all (decide <| · ≤ row.createdAt) &&
  request.createdTo.all (decide <| row.createdAt ≤ ·) &&
  (!request.overdueOnly ||
    (row.promisedDeliveryAt.any (decide <| · < now) && openStates row.status)) &&
  request.city.all (fun text => text == "" || texts.ilike text row.destination.city)

/-- The rows a listing is restricted to. -/
structure Restriction where
  allowedWarehouseIds : Option (List Nat)
  restrictToCourierId : Option Nat

/-- The row is among those the listing is restricted to. -/
def Restriction.admits (restriction : Restriction) (row : ShipmentRow) : Bool :=
  restriction.allowedWarehouseIds.all (·.contains row.originWarehouseId) &&
  restriction.restrictToCourierId.all (some · == row.courierId)

/-- A page, newest first, and the number of rows on all pages. -/
def listShipments (texts : Texts) (now : Nat) (request : ListRequest) (restriction : Restriction)
    (db : Tables) : List ShipmentRow × Nat :=
  let rows := db.shipments.filter fun row =>
    row.deletedAt.isNone && request.admits texts now row && restriction.admits row
  (((rows.insertionSort fun a b => b.createdAt ≤ a.createdAt).drop request.offset).take
    request.limit, rows.length)

/-- The warehouses a caller may see; `none` if all. -/
def scopedWarehouseIds (principal : Principal) : Option (List Nat) :=
  if principal.seesAllWarehouses then none
  else if principal.role = .warehouseOperator then some principal.warehouseIds
  else some []

/-- `list`: the row scoping of a listing. -/
def list (texts : Texts) (now : Nat) (request : ListRequest) (principal : Principal) (db : Tables) :
    List ShipmentRow × Nat :=
  if principal.role = .courier then
    match principal.courierId with
    | none => ([], 0)
    | some courierId => listShipments texts now request ⟨none, some courierId⟩ db
  else listShipments texts now request ⟨scopedWarehouseIds principal, none⟩ db

/-- The audit trail of a shipment, by time and id. -/
def history (db : Tables) (shipmentId : Nat) (principal : Principal) :
    Except DomainError (List ShipmentStatusHistory) :=
  match get db shipmentId principal with
  | .error error => .error error
  | .ok _ => .ok ((db.historyOf shipmentId).insertionSort fun a b =>
      a.occurredAt < b.occurredAt ∨ a.occurredAt = b.occurredAt ∧ a.id ≤ b.id)

/-! ## Writes -/

/-- Contents may change only before anything has left the warehouse. -/
def editableStates : List ShipmentStatus := [.created, .readyForDispatch, .dispatchFailed]

/-- The fields of an update; `none` is a field that is not sent, `some none` an explicit null. -/
structure ShipmentUpdate where
  customerReference : Option (Option String)
  serviceLevel : Option (Option ServiceLevel)
  priority : Option (Option ShipmentPriority)
  promisedDeliveryAt : Option (Option Nat)
  declaredValue : Option (Option Nat)
  specialInstructions : Option (Option String)

/-- The names of the fields that are sent, in order. -/
def ShipmentUpdate.changed (payload : ShipmentUpdate) : List String :=
  ([("customer_reference", payload.customerReference.isSome),
    ("declared_value", payload.declaredValue.isSome),
    ("priority", payload.priority.isSome),
    ("promised_delivery_at", payload.promisedDeliveryAt.isSome),
    ("service_level", payload.serviceLevel.isSome),
    ("special_instructions", payload.specialInstructions.isSome)].filter (·.2)).map (·.1)

/-- `update` of the row as it was read. -/
def update (row : ShipmentRow) (payload : ShipmentUpdate) : Except DomainError ShipmentRow :=
  if !editableStates.contains row.status then
    .error (conflictError ("A shipment in " ++ row.status.value ++ " can no longer be edited."))
  else if payload.serviceLevel = some none then
    .error (conflictError "service_level cannot be cleared.")
  else if payload.priority = some none then .error (conflictError "priority cannot be cleared.")
  else
    let serviceLevel := (payload.serviceLevel.getD none).getD row.serviceLevel
    .ok { row with
      customerReference := payload.customerReference.getD row.customerReference
      serviceLevel := serviceLevel
      priority := (payload.priority.getD none).getD row.priority
      -- a new service level moves the promise, unless the caller set one
      promisedDeliveryAt := payload.promisedDeliveryAt.getD
        (if payload.serviceLevel.isSome then some (row.createdAt + serviceLevel.window)
         else row.promisedDeliveryAt)
      declaredValue := payload.declaredValue.getD row.declaredValue
      specialInstructions := payload.specialInstructions.getD row.specialInstructions }

/-- A parcel to be packed, with the bounds the schema validates. -/
structure PackageCreate where
  weightG : Int
  lengthMm : Option Int
  widthMm : Option Int
  heightMm : Option Int
  weight_pos : 0 < weightG
  weight_le : weightG ≤ 1000000
  sides : ∀ side ∈ [lengthMm, widthMm, heightMm], ∀ n, side = some n → 0 < n ∧ n ≤ 100000

/-- The fields of a parcel's update, as in `ShipmentUpdate`, with the bounds the schema
validates. -/
structure PackageUpdate where
  weightG : Option (Option Int)
  lengthMm : Option (Option Int)
  widthMm : Option (Option Int)
  heightMm : Option (Option Int)
  status : Option (Option PackageStatus)
  weight : ∀ n, weightG = some (some n) → 0 < n ∧ n ≤ 1000000
  sides : ∀ side ∈ [lengthMm, widthMm, heightMm], ∀ n, side = some (some n) → 0 < n ∧ n ≤ 100000

/-- A parcel marked as packed. -/
def markPacked : PackageUpdate where
  weightG := none
  lengthMm := none
  widthMm := none
  heightMm := none
  status := some (some .packed)
  weight := by simp
  sides := by simp

/-- Only the originating warehouse may pack. -/
def assertCanPack (row : ShipmentRow) (principal : Principal) : Except DomainError Unit :=
  if principal.isAdmin then .ok ()
  else if principal.role == .warehouseOperator &&
      principal.mayTouchWarehouse row.originWarehouseId then .ok ()
  else .error (permissionDeniedError "Only the originating warehouse may pack this shipment.")

/-- The next sequence number of a shipment's parcels. -/
def nextPackageSequence (db : Tables) (shipmentId : Nat) : Nat :=
  (((db.packagesOf shipmentId).map (·.sequenceNo)).max?).getD 0 + 1

/-- `add_package`: the parcel to insert; its id and barcode are fresh. -/
def addPackage (db : Tables) (shipmentId : Nat) (payload : PackageCreate) (principal : Principal)
    (id barcode : Nat) : Except DomainError (ShipmentRow × Package) := do
  let row ← get db shipmentId principal
  assertCanPack row principal
  if !editableStates.contains row.status then
    .error (conflictError "Packages can only be added before dispatch.")
  else
    .ok (row,
      { id := id
        shipmentId := row.id
        sequenceNo := nextPackageSequence db row.id
        barcode := barcode
        status := .pending
        weightG := payload.weightG
        lengthMm := payload.lengthMm
        widthMm := payload.widthMm
        heightMm := payload.heightMm
        labelUrl := none
        labelGeneratedAt := none
        packedAt := none })

/-- The parcel with the fields that are sent. -/
def Package.apply (package : Package) (payload : PackageUpdate) (now : Nat) : Package :=
  { package with
    weightG := (payload.weightG.getD none).getD package.weightG
    lengthMm := payload.lengthMm.getD package.lengthMm
    widthMm := payload.widthMm.getD package.widthMm
    heightMm := payload.heightMm.getD package.heightMm
    status := (payload.status.getD none).getD package.status
    packedAt :=
      if payload.status = some (some .packed) ∧ package.packedAt = none then some now
      else package.packedAt }

/-- `update_package`: the shipment it read, and the parcel as it will be written. -/
def updatePackage (db : Tables) (packageId : Nat) (payload : PackageUpdate) (principal : Principal)
    (now : Nat) : Except DomainError (ShipmentRow × Package) :=
  match db.package packageId with
  | none => .error (notFoundError "Package not found.")
  | some package => do
    let row ← get db package.shipmentId principal
    assertCanPack row principal
    if payload.weightG = some none ∨ payload.status = some none then
      -- the columns are not nullable
      .error (constraintViolationError "The request violates a data rule.")
    else .ok (row, package.apply payload now)

/-! ## Events and audit rows -/

/-- The public facts of a shipment. -/
def summary (row : ShipmentRow) : ShipmentSummary where
  id := row.id
  referenceNo := row.referenceNo
  customerReference := row.customerReference
  status := row.status
  serviceLevel := row.serviceLevel
  priority := row.priority
  originWarehouseId := row.originWarehouseId
  originWarehouseCode := row.originWarehouseCode
  courierId := row.courierId
  totalWeightG := row.totalWeightG
  promisedDeliveryAt := row.promisedDeliveryAt
  version := row.version

/-- The shipment as the event shows it. -/
def ShipmentPayload.summary : ShipmentPayload → ShipmentSummary
  | .created summary _ _ _ => summary
  | .updated summary _ => summary
  | .statusChanged summary _ _ _ => summary

/-- The type of the event. -/
def ShipmentPayload.eventType : ShipmentPayload → String
  | .created _ _ _ _ => "shipment.created"
  | .updated _ _ => "shipment.updated"
  | .statusChanged _ _ _ _ => "shipment.status_changed"

/-- The event row of a payload. -/
def emit (payload : ShipmentPayload) (seq eventId now : Nat) : OutboxEvent ShipmentPayload :=
  addEvent "shipment.events" payload.eventType (toString payload.summary.id) "shipment" payload none
    seq eventId now

/-- `emit_created`. -/
def createdPayload (row : ShipmentRow) : ShipmentPayload :=
  .created (summary row) row.createdBy row.destination.city
    (row.items.map fun item => (item.skuId, item.quantity))

/-- The audit row of a transition. Its `occurred_at` is a default, which the source draws when the
row is flushed. -/
def record (row : ShipmentRow) (previous : Option ShipmentStatus) (target : ShipmentStatus)
    (principal : Principal) (reason : Option String) (id now : Nat) : ShipmentStatusHistory where
  id := id
  shipmentId := row.id
  fromStatus := previous
  toStatus := target
  actorId := principal.userId
  actorRole := principal.role
  reason := reason
  occurredAt := now

end SmartLogistics.Shipment
