import SmartLogistics.Inventory.Stock

/-!
# Shipments

The shipment row, its life cycle (`allowedTransitions`, `changeStatus`), what a create records from
the answer to its reservation (`newShipment`, `insertShipment`), the events of `shipment.events`,
and what Inventory does with them (`onShipmentEvent`).
-/

set_option autoImplicit false
set_option linter.dupNamespace false

namespace SmartLogistics.Shipment

open SmartLogistics.Platform SmartLogistics.Warehouse SmartLogistics.Inventory

/-- The states of a shipment. -/
inductive ShipmentStatus
  | created
  | readyForDispatch
  | dispatching
  | dispatchFailed
  | dispatched
  | pickedUp
  | inTransit
  | outForDelivery
  | delivered
  | deliveryFailed
  | returnInitiated
  | returned
  | cancelled
  deriving DecidableEq, Repr

/-- The text of a status. -/
def ShipmentStatus.value : ShipmentStatus → String
  | .created => "created"
  | .readyForDispatch => "ready_for_dispatch"
  | .dispatching => "dispatching"
  | .dispatchFailed => "dispatch_failed"
  | .dispatched => "dispatched"
  | .pickedUp => "picked_up"
  | .inTransit => "in_transit"
  | .outForDelivery => "out_for_delivery"
  | .delivered => "delivered"
  | .deliveryFailed => "delivery_failed"
  | .returnInitiated => "return_initiated"
  | .returned => "returned"
  | .cancelled => "cancelled"

/-- How fast a shipment is to be. -/
inductive ServiceLevel
  | economy
  | standard
  | express
  | sameDay
  deriving DecidableEq, Repr

/-- How urgent a shipment is. -/
inductive ShipmentPriority
  | low
  | normal
  | high
  | critical
  deriving DecidableEq, Repr

/-- The promise of a service level, in hours. -/
def ServiceLevel.window : ServiceLevel → Nat
  | .sameDay => 8
  | .express => 24
  | .standard => 3 * 24
  | .economy => 5 * 24

/-- A line. SKU facts are snapshots returned by Inventory when stock was held. -/
structure ShipmentItem where
  skuId : Nat
  quantity : Int
  skuCode : String
  skuName : String
  unitWeightG : Nat
  unitValue : Option Nat
  deriving DecidableEq, Repr

/-- A shipment with its lines; `referenceNo` is the number in its reference. -/
structure Shipment where
  id : Nat
  referenceNo : Nat
  customerReference : Option String
  status : ShipmentStatus
  serviceLevel : ServiceLevel
  priority : ShipmentPriority
  originWarehouseId : Nat
  originWarehouseCode : String
  courierId : Option Nat
  createdBy : Nat
  totalWeightG : Int
  declaredValue : Option Nat
  currency : String
  promisedDeliveryAt : Option Nat
  dispatchedAt : Option Nat
  pickedUpAt : Option Nat
  deliveredAt : Option Nat
  cancelledAt : Option Nat
  deliveryAttemptCount : Nat
  failureReason : Option String
  specialInstructions : Option String
  version : Nat
  items : List ShipmentItem
  deriving DecidableEq, Repr

/-! ## Life cycle -/

/-- The statuses reachable from a status in one step. -/
def allowedTransitions : ShipmentStatus → List ShipmentStatus
  | .created => [.readyForDispatch, .cancelled]
  | .readyForDispatch => [.dispatching, .cancelled]
  | .dispatching => [.dispatched, .dispatchFailed]
  | .dispatchFailed => [.readyForDispatch, .cancelled]
  | .dispatched => [.pickedUp]
  | .pickedUp => [.inTransit]
  | .inTransit => [.outForDelivery]
  | .outForDelivery => [.delivered, .deliveryFailed]
  | .deliveryFailed => [.outForDelivery, .returnInitiated]
  | .returnInitiated => [.returned]
  | .delivered => []
  | .returned => []
  | .cancelled => []

/-- Who may move a shipment into a status. -/
def transitionRoles : ShipmentStatus → List UserRole
  | .created => []
  | .readyForDispatch => [.admin, .warehouseOperator]
  | .dispatching => [.admin]
  | .dispatched => [.admin]
  | .dispatchFailed => [.admin]
  | .pickedUp => [.admin, .courier]
  | .inTransit => [.admin, .courier]
  | .outForDelivery => [.admin, .courier]
  | .delivered => [.admin, .courier]
  | .deliveryFailed => [.admin, .courier]
  | .returnInitiated => [.admin, .customerSupport]
  | .returned => [.admin, .warehouseOperator]
  | .cancelled => [.admin, .customerSupport]

/-- The table allows the move. -/
def canTransition (current target : ShipmentStatus) : Bool :=
  (allowedTransitions current).contains target

/-- `assert_transition`: the errors tell a repeated status, a terminal one and a wrong move
apart. -/
def assertTransition (current target : ShipmentStatus) : Except DomainError Unit :=
  if current = target then
    .error (conflictError ("Shipment is already " ++ target.value ++ "."))
  else if canTransition current target then .ok ()
  else
    .error (conflictError ("Cannot move a shipment from " ++ current.value ++ " to " ++
      target.value ++ ". " ++
      match allowedTransitions current with
      | [] => current.value ++ " is terminal."
      | allowed => "Allowed: " ++ joinSorted (allowed.map ShipmentStatus.value) ++ "."))

/-- Row scoping: out of scope reads as "not found". -/
def visible (shipment : Shipment) (principal : Principal) : Bool :=
  principal.seesAllWarehouses ||
    match principal.role with
    | .warehouseOperator => principal.mayTouchWarehouse shipment.originWarehouseId
    | .courier => principal.courierId.isSome && shipment.courierId == principal.courierId
    | _ => false

/-- The assignments of a status change; the versioned `UPDATE` increments `version`. -/
def Shipment.moveTo (shipment : Shipment) (target : ShipmentStatus) (reason : Option String)
    (now : Nat) : Shipment :=
  let moved := { shipment with status := target, version := shipment.version + 1 }
  match target with
  | .dispatched => { moved with dispatchedAt := some now }
  | .pickedUp => { moved with pickedUpAt := some now }
  | .delivered => { moved with deliveredAt := some now }
  | .cancelled => { moved with cancelledAt := some now, failureReason := reason }
  | .deliveryFailed =>
    { moved with
      deliveryAttemptCount := shipment.deliveryAttemptCount + 1
      failureReason := reason }
  | _ => moved

/-- `change_status` of the row as it was read. -/
def changeStatus (shipment : Shipment) (target : ShipmentStatus) (principal : Principal)
    (reason : Option String) (expectedVersion : Option Nat) (now : Nat) :
    Except DomainError Shipment :=
  if !visible shipment principal then .error (notFoundError "Shipment not found.")
  else if !(transitionRoles target).contains principal.role then
    .error (permissionDeniedError ("Your role cannot move a shipment to " ++ target.value ++ "."))
  else if principal.role == .warehouseOperator &&
      !principal.mayTouchWarehouse shipment.originWarehouseId then
    .error (permissionDeniedError "This shipment is not from one of your warehouses.")
  else if expectedVersion.any (· != shipment.version) then .error concurrentUpdateError
  else
    match assertTransition shipment.status target with
    | .error error => .error error
    | .ok () => .ok (shipment.moveTo target reason now)

/-- An accepted change moves the shipment along the table of transitions to its next version, and
keeps its id and its lines. -/
theorem changeStatus_eq_ok {shipment moved : Shipment} {target : ShipmentStatus}
    {principal : Principal} {reason : Option String} {expectedVersion : Option Nat} {now : Nat}
    (h : changeStatus shipment target principal reason expectedVersion now = .ok moved) :
    canTransition shipment.status target = true ∧ moved.status = target ∧
      moved.version = shipment.version + 1 ∧ moved.id = shipment.id ∧
      moved.items = shipment.items := by
  unfold changeStatus at h
  repeat' split at h
  all_goals try cases h
  rename_i hassert
  unfold assertTransition at hassert
  split at hassert
  · cases hassert
  split at hassert
  · rename_i hallowed
    refine ⟨hallowed, ?_⟩
    unfold Shipment.moveTo
    cases target <;> exact ⟨rfl, rfl, rfl, rfl⟩
  · cases hassert

/-! ## Creates -/

/-- A line of a create request, with the bounds the schema validates. -/
structure ShipmentItemCreate where
  skuId : Nat
  quantity : Int
  quantity_pos : 0 < quantity
  quantity_le : quantity ≤ 100000

/-- The body of a create request. -/
structure ShipmentCreate where
  customerReference : Option String
  originWarehouseId : Nat
  serviceLevel : ServiceLevel
  priority : ShipmentPriority
  items : List ShipmentItemCreate
  promisedDeliveryAt : Option Nat
  declaredValue : Option Nat
  currency : String
  specialInstructions : Option String
  items_ne_nil : items ≠ []
  items_length_le : items.length ≤ 200
  unique_skus : (items.map (·.skuId)).Nodup

/-- An admin. -/
def sampleAdmin : Principal where
  userId := 1
  role := .admin
  warehouseIds := []

/-- One unit of a SKU. -/
def samplePayload (skuId : Nat) : ShipmentCreate where
  customerReference := none
  originWarehouseId := 7
  serviceLevel := .standard
  priority := .normal
  items := [{ skuId, quantity := (1 : Nat), quantity_pos := by decide, quantity_le := by decide }]
  promisedDeliveryAt := none
  declaredValue := none
  currency := "PKR"
  specialInstructions := none
  items_ne_nil := List.cons_ne_nil _ _
  items_length_le := by simp
  unique_skus := List.nodup_singleton _

/-- The reservation a create asks Inventory for. -/
def ShipmentCreate.reservation (payload : ShipmentCreate) (shipmentId : Nat) :
    ReservationRequest where
  shipmentId := shipmentId
  warehouseId := payload.originWarehouseId
  lines := payload.items.map fun item =>
    { skuId := item.skuId
      quantity := item.quantity
      quantity_pos := item.quantity_pos
      quantity_le := item.quantity_le }
  lines_ne_nil := by simpa using payload.items_ne_nil
  lines_length_le := by simpa using payload.items_length_le
  unique_skus := by simpa [List.map_map, Function.comp_def] using payload.unique_skus

/-- The shipment id of a create: with an `Idempotency-Key` a function of the caller and the key,
else a fresh id. `uuid5` is the name-based id of a text. -/
def shipmentIdFor (uuid5 : String → Nat) (owner : Nat) (idempotencyKey : Option String)
    (uuid4 : Nat) : Nat :=
  match idempotencyKey with
  | some key => if key = "" then uuid4 else uuid5 (toString owner ++ ":" ++ key)
  | none => uuid4

/-- The line recorded for a reserved one. -/
def shipmentItem (line : ReservedLine) : ShipmentItem where
  skuId := line.skuId
  quantity := line.quantity
  skuCode := line.skuCode
  skuName := line.skuName
  unitWeightG := line.unitWeightG
  unitValue := line.unitValue

/-- The shipment a create records. -/
def newShipment (payload : ShipmentCreate) (warehouse : WarehouseRef) (principal : Principal)
    (shipmentId referenceNo now : Nat) (reservation : ReservationResult) : Shipment where
  id := shipmentId
  referenceNo := referenceNo
  customerReference := payload.customerReference
  status := .created
  serviceLevel := payload.serviceLevel
  priority := payload.priority
  originWarehouseId := warehouse.id
  originWarehouseCode := warehouse.code
  courierId := none
  createdBy := principal.userId
  totalWeightG := (reservation.lines.map fun line => (line.unitWeightG : Int) * line.quantity).sum
  declaredValue := payload.declaredValue
  currency := payload.currency
  promisedDeliveryAt :=
    some (payload.promisedDeliveryAt.getD (now + payload.serviceLevel.window))
  dispatchedAt := none
  pickedUpAt := none
  deliveredAt := none
  cancelledAt := none
  deliveryAttemptCount := 0
  failureReason := none
  specialInstructions := payload.specialInstructions
  version := 1
  items := reservation.lines.map shipmentItem

/-- What the database answers to the inserts of a create, over the shipments it has. -/
def insertShipment (shipments : Nat → Option Shipment) (shipment : Shipment) :
    Except IntegrityError Unit :=
  if (shipments shipment.id).isSome then .error ⟨.uniqueViolation, "pk_shipments"⟩
  else if ¬ (shipment.items.map (·.skuId)).Nodup then
    .error ⟨.uniqueViolation, "uq_shipment_item_sku"⟩
  else if shipment.items.any fun item => decide (item.quantity ≤ 0) then
    .error ⟨.checkViolation, "ck_shipment_items_quantity_positive"⟩
  else .ok ()

/-! ## Events -/

/-- An event of `shipment.events` that Inventory handles, with what its handlers read. -/
inductive ShipmentEvent
  | created (id : Nat)
  | statusChanged (id : Nat) (status previousStatus : ShipmentStatus) (reason : Option String)
  deriving DecidableEq, Repr

/-- Inventory's transaction for an event: a create confirms the hold, a dispatch commits it, a
cancellation releases it. -/
def onShipmentEvent : ShipmentEvent → Option Operation
  | .created id => some (.confirm id)
  | .statusChanged id status _ reason =>
    match status with
    | .dispatched => some (.commit id none)
    | .cancelled =>
      some (.release id (match reason with
        | some text => if text = "" then "Shipment cancelled" else text
        | none => "Shipment cancelled"))
    | _ => none

end SmartLogistics.Shipment
