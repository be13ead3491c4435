import SmartLogistics.Inventory.Runs
import SmartLogistics.Platform.Idempotency
import SmartLogistics.Shipment.Shipments

/-!
# Reserve, then record

The machine of any number of `POST /shipments` requests (`CreateRequest`) over Shipment's database,
the idempotency store, and Inventory's transactions statement by statement. Between the two services
are HTTP calls, which may be lost, delayed, and sent up to `1 + retries` times, and the events of
each shipment, which Inventory handles in order, each in one transaction.

What a request does by itself is `Settings.act`; a status change is an `UPDATE` of the version it
read. `PATCH /shipments/{id}` is left out: it changes neither the status nor the reservation of a
shipment and calls no other service; it is among the requests of `lifecycle`.
-/

set_option autoImplicit false

namespace SmartLogistics.Shipment

open SmartLogistics.Library SmartLogistics.Platform SmartLogistics.Warehouse
  SmartLogistics.Inventory

/-! ## Requests -/

/-- Where a create request stands. -/
inductive Phase
  /-- `run_idempotent` asks the store for the key. -/
  | claiming
  /-- `create` will check the origin warehouse. -/
  | creating
  /-- `reserve` is called; `attempts` of it are sent. -/
  | reserving (warehouse : WarehouseRef) (attempts : Nat)
  /-- Inventory has answered. -/
  | reserved (warehouse : WarehouseRef) (answer : ReservationResult)
  /-- The shipment is flushed; the response will be recorded under the key. -/
  | flushed (shipment : Shipment)
  /-- Everything is flushed; the commit is next. -/
  | recorded (shipment : Shipment)
  /-- Something raised and the session is rolled back; the claim will be released. -/
  | failed
  /-- `compensate` is next. -/
  | raised
  /-- `compensate` releases the hold; `attempts` of the call are sent. -/
  | compensating (shipmentId attempts : Nat)
  | ended
  deriving DecidableEq, Repr

/-- The answer a request goes on with. -/
def Phase.answer? : Phase → Option ReservationResult
  | .reserved _ answer => some answer
  | _ => none

/-- The shipment a request has flushed. -/
def Phase.shipment? : Phase → Option Shipment
  | .flushed shipment => some shipment
  | .recorded shipment => some shipment
  | _ => none

/-- The shipment whose hold a request is releasing. -/
def Phase.releases? : Phase → Option Nat
  | .compensating shipmentId _ => some shipmentId
  | _ => none

/-- The request will not record its shipment any more, or has recorded it. -/
def Phase.isOver : Phase → Bool
  | .compensating _ _ => true
  | .ended => true
  | _ => false

/-- A create request: what it was posted with, the shipment id it uses, `_held_for`, and where it
stands. -/
structure CreateRequest where
  principal : Principal
  idempotencyKey : Option String
  payload : ShipmentCreate
  shipmentId : Nat
  heldFor : Option Nat
  phase : Phase

namespace CreateRequest

/-- The request carries an `Idempotency-Key`. -/
def keyed (r : CreateRequest) : Bool := r.idempotencyKey.any (· != "")

/-- The reservation it asks Inventory for. -/
def reservation (r : CreateRequest) : ReservationRequest := r.payload.reservation r.shipmentId

/-- The claim it asks the store for. -/
def claim (hashPayload : ShipmentCreate → String) (r : CreateRequest) : IdempotentRequest where
  key := r.idempotencyKey.getD ""
  owner := toString r.principal.userId
  endpoint := "POST /api/v1/shipments"
  requestHash := hashPayload r.payload
  statusCode := 201

/-- The request in another phase. -/
def moved (r : CreateRequest) (phase : Phase) : CreateRequest := { r with phase := phase }

end CreateRequest

/-- What a request does by itself, between its calls and its commit. -/
inductive Action
  | claim
  | check
  | flush
  | record
  /-- Something raises. -/
  | raise
  /-- `release` of the claim; it is not `dropped` if the store fails. -/
  | release (dropped : Bool)
  | compensate
  /-- `compensate` returns, whether Inventory answered or not. -/
  | finish
  /-- The pod of the request dies. -/
  | die

/-! ## The state -/

/-- An HTTP call under way to Inventory. -/
structure InventoryCall where
  caller : Nat
  op : Operation

/-- What a transaction of Inventory works for. -/
inductive Origin
  /-- A call of a create request. -/
  | call (caller : Nat)
  /-- The next event of a shipment. -/
  | event (shipmentId : Nat)
  deriving DecidableEq, Repr

/-- The two services. `inserting` has the uncommitted rows of `shipments`, which make another insert
of the id wait; `shipmentIds` are the ids creates have used, and `copies` the rows status changes
have read. -/
structure Saga where
  inventory : Config Db Row Failure Outcome Operation
  keys : IdempotentState Shipment Shipment
  refs : List WarehouseRef
  referenceNo : Nat
  shipments : Nat → Option Shipment
  inserting : Nat → Option Nat
  copies : Nat → Option (Nat × Shipment)
  creates : Nat → Option CreateRequest
  shipmentIds : List Nat
  calls : List InventoryCall
  answers : List (Nat × ReservationResult)
  origins : Nat → Option Origin
  events : Nat → List ShipmentEvent
  handled : Nat → Nat
  handling : Nat → Option Nat

/-- The configuration of the services: how long a hold may stay unconfirmed, the retries of
`ServiceClient`, the store's periods, and the two hash functions. -/
structure Settings where
  unconfirmedHold : Nat
  retries : Nat
  idempotency : IdempotencyStore
  uuid5 : String → Nat
  hashPayload : ShipmentCreate → String

/-- A scheduler choice. -/
inductive SagaLabel
  | post (t : Nat) (principal : Principal) (idempotencyKey : Option String)
      (payload : ShipmentCreate) (uuid4 : Nat)
  | act (t : Nat) (action : Action)
  /-- `ServiceClient` sends the next attempt of the request's call. -/
  | send (t : Nat)
  /-- Request `t` receives the answer at index `n`. -/
  | answer (t n : Nat)
  /-- The commit; `lost` if the request sees an error although the database committed. -/
  | commit (t : Nat) (lost : Bool)
  /-- The call at index `n` never arrives. -/
  | lose (n : Nat)
  /-- The call at index `n` arrives: transaction `u` of Inventory starts. -/
  | deliver (n u : Nat)
  /-- The next statement of Inventory's transaction `u`. -/
  | run (u draw : Nat)
  | abort (u : Nat)
  /-- Inventory starts a transaction of its own: a sweep, or an operator's request. -/
  | operate (u : Nat) (op : Operation)
  | environment (e : Environment)
  | replica (refs : List WarehouseRef)
  /-- A status change reads the shipment. -/
  | read (v shipmentId : Nat)
  /-- It writes the change. -/
  | change (v : Nat) (target : ShipmentStatus) (principal : Principal) (reason : Option String)
      (expectedVersion : Option Nat)
  /-- Inventory's consumer gets the next event of a shipment. -/
  | handle (u shipmentId : Nat)
  | purge
  | tick (n : Nat)

namespace Saga

/-- No request, no shipment, no stock. -/
def initial : Saga where
  inventory := .idle .empty
  keys := .empty
  refs := []
  referenceNo := 1
  shipments := fun _ => none
  inserting := fun _ => none
  copies := fun _ => none
  creates := fun _ => none
  shipmentIds := []
  calls := []
  answers := []
  origins := fun _ => none
  events := fun _ => []
  handled := fun _ => 0
  handling := fun _ => none

/-- Request `t` set to `r`. -/
def setCreate (s : Saga) (t : Nat) (r : CreateRequest) : Saga :=
  { s with creates := Function.update s.creates t (some r) }

/-- The uncommitted rows of request `t` rolled back, or committed. -/
def unlock (s : Saga) (t : Nat) : Saga :=
  { s with inserting := fun id => if s.inserting id = some t then none else s.inserting id }

/-- What the commit of a transaction with result `outcome` tells the rest. -/
def settle (s : Saga) (u : Nat) (outcome : Outcome) : Saga :=
  match s.origins u, outcome with
  | some (.call t), .reserved answer _ => { s with answers := s.answers ++ [(t, answer)] }
  | some (.event shipmentId), _ =>
    { s with handled := Function.update s.handled shipmentId (s.handled shipmentId + 1) }
  | _, _ => s

/-- The consumer may take the next event of the shipment, if transaction `u` was for one. -/
def close (s : Saga) (u : Nat) : Saga :=
  match s.origins u with
  | some (.event shipmentId) => { s with handling := Function.update s.handling shipmentId none }
  | _ => s

/-- A settled transaction adds an answer or a handled event. -/
theorem settle_eq (s : Saga) (u : Nat) (outcome : Outcome) : ∃ answers handled,
    s.settle u outcome = { s with
      answers := answers
      handled := handled } := by
  unfold settle
  split
  · exact ⟨_, s.handled, rfl⟩
  · exact ⟨s.answers, _, rfl⟩
  · exact ⟨s.answers, s.handled, rfl⟩

theorem close_eq (s : Saga) (u : Nat) :
    ∃ handling, s.close u = { s with handling := handling } := by
  unfold close
  split
  · exact ⟨_, rfl⟩
  · exact ⟨s.handling, rfl⟩

/-- A transaction that ends changes Inventory, and what is under way. -/
theorem closed_eq (s : Saga) (c : Config Db Row Failure Outcome Operation) (u : Nat) : ∃ handling,
    { s with inventory := c }.close u = { s with
      inventory := c
      handling := handling } :=
  { s with inventory := c }.close_eq u

theorem settled_eq (s : Saga) (c : Config Db Row Failure Outcome Operation) (u : Nat)
    (outcome : Outcome) : ∃ answers handled handling,
    ({ s with inventory := c }.close u).settle u outcome = { s with
      inventory := c
      answers := answers
      handled := handled
      handling := handling } := by
  obtain ⟨answers, handled, hsettle⟩ := ({ s with inventory := c }.close u).settle_eq u outcome
  obtain ⟨handling, hclose⟩ := s.closed_eq c u
  rw [hsettle, hclose]
  exact ⟨answers, handled, handling, rfl⟩

@[simp] theorem settle_inventory (s : Saga) (u : Nat) (outcome : Outcome) :
    (s.settle u outcome).inventory = s.inventory := by
  obtain ⟨answers, handled, heq⟩ := s.settle_eq u outcome
  rw [heq]

@[simp] theorem close_inventory (s : Saga) (u : Nat) : (s.close u).inventory = s.inventory := by
  obtain ⟨handling, heq⟩ := s.close_eq u
  rw [heq]

end Saga

namespace Settings

variable (g : Settings)

/-- Request `t` raises. With a key the session is rolled back and the claim will be released;
without one the session stays open while the hold is compensated. -/
def raised (s : Saga) (t : Nat) (r : CreateRequest) : Option Saga :=
  if r.keyed then
    (g.idempotency.next s.keys (.fail t)).map fun keys =>
      ({ s with keys := keys }.unlock t).setCreate t (r.moved .failed)
  else some (s.setCreate t (r.moved .raised))

/-- What request `t` does by itself. -/
def act (s : Saga) (t : Nat) (r : CreateRequest) : Action → Option Saga
  | .claim =>
    match r.phase with
    | .claiming =>
      (g.idempotency.next s.keys (match s.keys.calls t with
        | some (.claiming _ _) => .insert t
        | _ => .select t)).map fun keys =>
          { s with keys := keys }.setCreate t (r.moved (match keys.calls t with
            | some (.granted _ _) => .creating
            | some _ => .claiming
            | none => .ended))
    | _ => none
  | .check =>
    match r.phase with
    | .creating =>
      match requireOperational "it cannot originate shipments." s.refs
          r.payload.originWarehouseId with
      | .ok warehouse => some (s.setCreate t (r.moved (.reserving warehouse 0)))
      | .error _ => g.raised s t r
    | _ => none
  | .flush =>
    match r.phase with
    | .reserved warehouse answer =>
      let shipment := newShipment r.payload warehouse r.principal r.shipmentId s.referenceNo
        s.keys.clock answer
      -- another request's uncommitted row makes the insert wait
      if (s.inserting r.shipmentId).any (· != t) then none
      else
        match insertShipment s.shipments shipment with
        | .error _ => g.raised { s with referenceNo := s.referenceNo + 1 } t r
        | .ok () =>
          let s' := { s with
            referenceNo := s.referenceNo + 1
            inserting := Function.update s.inserting r.shipmentId (some t) }
          if r.keyed then
            (g.idempotency.next s.keys (.act t (some (shipment, shipment)))).map fun keys =>
              { s' with keys := keys }.setCreate t (r.moved (.flushed shipment))
          else some (s'.setCreate t (r.moved (.recorded shipment)))
    | _ => none
  | .record =>
    match r.phase with
    | .flushed shipment =>
      (g.idempotency.next s.keys (.record t)).map fun keys =>
        { s with keys := keys }.setCreate t (r.moved (.recorded shipment))
    | _ => none
  | .raise =>
    match r.phase with
    | .claiming =>
      (g.idempotency.next s.keys (.die t)).map fun keys =>
        { s with keys := keys }.setCreate t (r.moved .raised)
    | .creating | .reserving _ _ | .reserved _ _ | .flushed _ | .recorded _ => g.raised s t r
    | _ => none
  | .release dropped =>
    match r.phase with
    | .failed =>
      (g.idempotency.next s.keys (if dropped then .release t else .die t)).map fun keys =>
        { s with keys := keys }.setCreate t (r.moved .raised)
    | _ => none
  | .compensate =>
    match r.phase with
    | .raised =>
      match r.heldFor with
      | some shipmentId =>
        some (s.setCreate t { r with
          heldFor := none
          phase := .compensating shipmentId 0 })
      | none => some ((s.unlock t).setCreate t (r.moved .ended))
    | _ => none
  | .finish =>
    match r.phase with
    | .compensating _ _ => some ((s.unlock t).setCreate t (r.moved .ended))
    | _ => none
  | .die =>
    match r.phase with
    | .ended => none
    | _ =>
      let keys := (g.idempotency.next s.keys (.die t)).getD s.keys
      some (({ s with keys := keys }.unlock t).setCreate t (r.moved .ended))

/-- A commit of request `t`, and what the request takes it for. -/
def commitCreate (s : Saga) (t : Nat) (r : CreateRequest) (lost : Bool) : Option Saga :=
  match r.phase with
  | .recorded shipment =>
    let s' := { s with
      shipments := Function.update s.shipments r.shipmentId (some shipment)
      events := Function.update s.events r.shipmentId
        (s.events r.shipmentId ++ [ShipmentEvent.created r.shipmentId]) }.unlock t
    let r' := if lost then r.moved (if r.keyed then .failed else .raised)
      else { r with
        heldFor := none
        phase := .ended }
    if r.keyed then
      (g.idempotency.next s.keys (.commit t lost)).map fun keys =>
        { s' with keys := keys }.setCreate t r'
    else some (s'.setCreate t r')
  | _ => none

/-- One scheduler choice. -/
def next (s : Saga) : SagaLabel → Option Saga
  | .post t principal idempotencyKey payload uuid4 =>
    match s.creates t with
    | some _ => none
    | none =>
      let shipmentId := shipmentIdFor g.uuid5 principal.userId idempotencyKey uuid4
      let r : CreateRequest :=
        { principal := principal
          idempotencyKey := idempotencyKey
          payload := payload
          shipmentId := shipmentId
          heldFor := none
          phase := .claiming }
      let s' := { s with shipmentIds := shipmentId :: s.shipmentIds }
      if r.keyed then
        (g.idempotency.next s.keys (.start t (r.claim g.hashPayload))).map fun keys =>
          { s' with keys := keys }.setCreate t r
      else some (s'.setCreate t (r.moved .creating))
  | .act t action => (s.creates t).bind fun r => g.act s t r action
  | .send t =>
    match s.creates t with
    | none => none
    | some r =>
      match r.phase with
      | .reserving warehouse n =>
        if n < 1 + g.retries then
          some ({ s with
            calls := s.calls ++ [InventoryCall.mk t (.reserve r.reservation)] }.setCreate t
            (r.moved (.reserving warehouse (n + 1))))
        else none
      | .compensating shipmentId n =>
        if n < 1 + g.retries then
          some ({ s with calls := s.calls ++
            [InventoryCall.mk t (.release shipmentId "Shipment could not be recorded")] }.setCreate
            t (r.moved (.compensating shipmentId (n + 1))))
        else none
      | _ => none
  | .answer t n =>
    match s.creates t, s.answers[n]? with
    | some r, some (caller, answer) =>
      match r.phase with
      | .reserving warehouse _ =>
        if caller = t then
          some ({ s with answers := s.answers.eraseIdx n }.setCreate t { r with
            heldFor := some r.shipmentId
            phase := .reserved warehouse answer })
        else none
      | _ => none
    | _, _ => none
  | .commit t lost => (s.creates t).bind fun r => g.commitCreate s t r lost
  | .lose n => if n < s.calls.length then some { s with calls := s.calls.eraseIdx n } else none
  | .deliver n u =>
    match s.calls[n]? with
    | none => none
    | some call =>
      ((inventory g.unconfirmedHold).next s.inventory (.start u call.op)).map fun c =>
        { s with
          inventory := c
          calls := s.calls.eraseIdx n
          origins := Function.update s.origins u (some (.call call.caller)) }
  | .run u draw =>
    match s.inventory.sessions u with
    | none => none
    | some session =>
      ((inventory g.unconfirmedHold).next s.inventory (.step u draw)).map fun c =>
        let s' := if (c.sessions u).isNone then { s with inventory := c }.close u
          else { s with inventory := c }
        match session.result s.inventory.db with
        | some outcome => s'.settle u outcome
        | none => s'
  | .abort u =>
    ((inventory g.unconfirmedHold).next s.inventory (.abort u)).map fun c =>
      { s with inventory := c }.close u
  | .operate u op =>
    ((inventory g.unconfirmedHold).next s.inventory (.start u op)).map fun c =>
      { s with
        inventory := c
        origins := Function.update s.origins u none }
  | .environment e =>
    ((inventory g.unconfirmedHold).next s.inventory (.env e)).map fun c => { s with inventory := c }
  | .replica refs => some { s with refs := refs }
  | .read v shipmentId =>
    some { s with
      copies := Function.update s.copies v
        ((s.shipments shipmentId).map fun shipment => (shipmentId, shipment)) }
  | .change v target principal reason expectedVersion =>
    match s.copies v with
    | none => none
    | some (id, copy) =>
      match changeStatus copy target principal reason expectedVersion s.keys.clock with
      | .error _ => none
      | .ok moved =>
        -- `UPDATE … WHERE version = <read>`
        if (s.shipments id).any (·.version == copy.version) then
          some { s with
            shipments := Function.update s.shipments id (some moved)
            events := Function.update s.events id
              (s.events id ++ [.statusChanged id target copy.status reason])
            copies := Function.update s.copies v none }
        else none
  | .handle u shipmentId =>
    -- the row in `processed_events` makes a second transaction for the event wait
    match s.handling shipmentId, (s.events shipmentId)[s.handled shipmentId]? with
    | none, some event =>
      match onShipmentEvent event with
      | none =>
        some { s with handled := Function.update s.handled shipmentId (s.handled shipmentId + 1) }
      | some op =>
        ((inventory g.unconfirmedHold).next s.inventory (.start u op)).map fun c =>
          { s with
            inventory := c
            origins := Function.update s.origins u (some (.event shipmentId))
            handling := Function.update s.handling shipmentId (some u) }
    | _, _ => none
  | .purge => (g.idempotency.next s.keys .purge).map fun keys => { s with keys := keys }
  | .tick n =>
    (g.idempotency.next s.keys (.tick n)).bind fun keys =>
      ((inventory g.unconfirmedHold).next s.inventory (.tick n)).map fun c =>
        { s with
          keys := keys
          inventory := c }

/-- All interleavings of the two services. -/
def machine : Machine Saga SagaLabel := ⟨g.next⟩

end Settings

/-! ## Runs on given labels -/

/-- Default periods, in seconds, and constant hashes. -/
def sampleSettings : Settings where
  unconfirmedHold := 30 * 60
  retries := 2
  idempotency := .default
  uuid5 := fun _ => 50
  hashPayload := fun _ => "a94a8fe5"

/-- `n` statements of Inventory's transaction `u`. -/
def statements (u n draw : Nat) : List SagaLabel := List.replicate n (.run u draw)

/-- One SKU, one warehouse, and ten units. -/
def stockedSaga : List SagaLabel :=
  [.environment (.catalog [sampleSku 1 "KBD"]), .environment (.replica [sampleWarehouse]),
    .replica [sampleWarehouse], .operate 0 (samplePosition 1)] ++ statements 0 7 20

/-- Request `t` with a key, up to Inventory's answer, by transaction `t + 1` of `n` statements. -/
def reservedUnderKey (t n : Nat) : List SagaLabel :=
  [.act t .check, .send t, .deliver 0 (t + 1)] ++ statements (t + 1) n 31 ++ [.answer t 0]

end SmartLogistics.Shipment
