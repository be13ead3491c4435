import SmartLogistics.Library.Machine
import SmartLogistics.Platform.Auth
import SmartLogistics.Warehouse.Replica
import Mathlib.Logic.Function.Basic

/-!
# Warehouse transactions and their events

A writer of `WarehouseService` reads a warehouse without a lock, changes its in-memory copy, and
flushes: the `UPDATE` writes the columns that differ from what was read, stamps `updated_at`, and
waits for another writer of the row. The event it commits with the write is a snapshot of the copy.
`warehouses` runs any number of writers, and delivers the committed events of each warehouse to the
replicas of Inventory and Shipment in commit order.
-/

set_option autoImplicit false
set_option linter.dupNamespace false

namespace SmartLogistics.Warehouse

open SmartLogistics.Library SmartLogistics.Platform

/-- Only `active` facilities may originate shipments or have stock reserved. -/
inductive WarehouseStatus
  | active
  | maintenance
  | inactive
  deriving DecidableEq, Repr

/-- The text of a status. -/
def WarehouseStatus.value : WarehouseStatus → String
  | .active => "active"
  | .maintenance => "maintenance"
  | .inactive => "inactive"

/-- The updatable columns that the replicas do not keep. -/
inductive DetailColumn
  | type
  | addressLine1
  | addressLine2
  | region
  | postalCode
  | countryCode
  | latitude
  | longitude
  | entranceLatitude
  | entranceLongitude
  | mapPlaceId
  | geofenceRadiusM
  | capacityUnits
  | maxDailyOutbound
  | timezone
  | contactName
  | contactEmail
  | contactPhone
  | notes
  deriving DecidableEq, Repr

/-- Every detail column. -/
def DetailColumn.all : List DetailColumn :=
  [.type, .addressLine1, .addressLine2, .region, .postalCode, .countryCode, .latitude, .longitude,
    .entranceLatitude, .entranceLongitude, .mapPlaceId, .geofenceRadiusM, .capacityUnits,
    .maxDailyOutbound, .timezone, .contactName, .contactEmail, .contactPhone, .notes]

/-- A row of `warehouses`; a detail that is `none` is `NULL`. -/
structure Warehouse (Detail : Type) where
  id : Nat
  code : String
  name : String
  status : WarehouseStatus
  city : String
  details : DetailColumn → Option Detail
  geocodedAt : Option Nat
  deletedAt : Option Nat
  deletedBy : Option Nat
  updatedAt : Nat

/-- The body of a create request, its defaults filled in. -/
structure WarehouseCreate (Detail : Type) where
  code : String
  name : String
  city : String
  details : DetailColumn → Option Detail

/-- The body of an update request; `none` where a field is not set. -/
structure WarehouseUpdate (Detail : Type) where
  name : Option String
  city : Option String
  details : DetailColumn → Option (Option Detail)

/-- A write to an existing warehouse. -/
inductive WarehouseOp (Detail : Type)
  | update (payload : WarehouseUpdate Detail)
  | changeStatus (status : WarehouseStatus)
  | delete
  | restore

section

variable {Detail : Type}

/-- The row a create request inserts; `updatedAt` is set by the flush. -/
def create (payload : WarehouseCreate Detail) (id now : Nat) : Warehouse Detail where
  id := id
  code := payload.code
  name := payload.name
  status := .active
  city := payload.city
  details := payload.details
  geocodedAt :=
    if (payload.details .latitude).isSome && (payload.details .longitude).isSome then some now
    else none
  deletedAt := none
  deletedBy := none
  updatedAt := now

namespace WarehouseOp

/-- The operation finds the row: a deleted one is only restored, and a row outside the caller's
scope is "not found". -/
def finds (op : WarehouseOp Detail) (principal : Principal) (warehouse : Warehouse Detail) : Bool :=
  match op with
  | .restore => true
  | _ => warehouse.deletedAt.isNone && principal.mayTouchWarehouse warehouse.id

/-- The assignments to the in-memory copy. -/
def apply (op : WarehouseOp Detail) (principal : Principal) (now : Nat)
    (warehouse : Warehouse Detail) : Warehouse Detail :=
  match op with
  | .update payload =>
    { warehouse with
      name := payload.name.getD warehouse.name
      city := payload.city.getD warehouse.city
      details := fun column => (payload.details column).getD (warehouse.details column)
      geocodedAt :=
        if (payload.details .latitude).isSome || (payload.details .longitude).isSome then some now
        else warehouse.geocodedAt }
  | .changeStatus status => { warehouse with status := status }
  | .delete =>
    { warehouse with
      status := .inactive
      deletedAt := some now
      deletedBy := some principal.userId }
  | .restore => { warehouse with deletedAt := none, deletedBy := none, status := .active }

/-- The type of the event that a change emits. -/
def eventType : WarehouseOp Detail → String
  | .update _ => "warehouse.updated"
  | .changeStatus _ => "warehouse.status_changed"
  | .delete => "warehouse.deleted"
  | .restore => "warehouse.restored"

end WarehouseOp

/-- The columns of the event that consumers keep. -/
def snapshot (warehouse : Warehouse Detail) : Snapshot where
  id := warehouse.id
  code := warehouse.code
  name := warehouse.name
  status := warehouse.status.value
  city := warehouse.city
  deleted := warehouse.deletedAt.isSome
  updatedAt := warehouse.updatedAt

/-- An event of `warehouse.events`. -/
structure WarehouseEvent where
  eventType : String
  payload : Snapshot
  deriving DecidableEq, Repr

/-- An event with the snapshot of the warehouse. -/
def emit (eventType : String) (warehouse : Warehouse Detail) : WarehouseEvent where
  eventType := eventType
  payload := snapshot warehouse

end

section

variable {Detail : Type} [DecidableEq Detail]

/-- The session has something to flush: a column of the object differs from what was loaded. -/
def isModified (loaded warehouse : Warehouse Detail) : Bool :=
  loaded.name != warehouse.name || loaded.status != warehouse.status ||
    loaded.city != warehouse.city || loaded.geocodedAt != warehouse.geocodedAt ||
    loaded.deletedAt != warehouse.deletedAt || loaded.deletedBy != warehouse.deletedBy ||
    DetailColumn.all.any fun column => loaded.details column != warehouse.details column

/-- The `UPDATE` of a flush: it writes to the row the columns that differ from what was loaded, and
`updated_at`. -/
def writeChanged (loaded warehouse row : Warehouse Detail) : Warehouse Detail :=
  { row with
    name := if loaded.name = warehouse.name then row.name else warehouse.name
    status := if loaded.status = warehouse.status then row.status else warehouse.status
    city := if loaded.city = warehouse.city then row.city else warehouse.city
    details := fun column =>
      if loaded.details column = warehouse.details column then row.details column
      else warehouse.details column
    geocodedAt :=
      if loaded.geocodedAt = warehouse.geocodedAt then row.geocodedAt else warehouse.geocodedAt
    deletedAt :=
      if loaded.deletedAt = warehouse.deletedAt then row.deletedAt else warehouse.deletedAt
    deletedBy :=
      if loaded.deletedBy = warehouse.deletedBy then row.deletedBy else warehouse.deletedBy
    updatedAt := warehouse.updatedAt }

end

/-! ## Writers and replicas -/

/-- Where a transaction of `WarehouseService` stands. -/
inductive Writer (Detail : Type)
  /-- A new row, not flushed. -/
  | new (warehouse : Warehouse Detail)
  /-- The row is inserted, the event staged. -/
  | inserted (warehouse : Warehouse Detail)
  /-- The row is read. -/
  | loaded (op : WarehouseOp Detail) (principal : Principal) (copy : Warehouse Detail)
  /-- The object is changed from `copy` to `warehouse`. -/
  | set (op : WarehouseOp Detail) (copy warehouse : Warehouse Detail)
  /-- The `UPDATE` is sent and waits for the row. -/
  | updating (op : WarehouseOp Detail) (copy warehouse : Warehouse Detail)
  /-- The row is written, the event staged. -/
  | updated (op : WarehouseOp Detail) (copy warehouse : Warehouse Detail)
  /-- There was nothing to write; the event is staged. -/
  | unchanged (op : WarehouseOp Detail) (warehouse : Warehouse Detail)

/-- The services that keep a replica. -/
inductive Consumer
  | inventory
  | shipment
  deriving DecidableEq, Repr

/-- A replica: how many events of each warehouse are in `processed_events`, and `warehouse_refs`. -/
structure Replica where
  handled : Nat → Nat
  refs : List WarehouseRef

/-- The committed rows with their locks, the open transactions, the committed events of each
warehouse in commit order, and the replicas. -/
structure WarehouseState (Detail : Type) where
  clock : Nat
  rows : Nat → Option (Warehouse Detail)
  locks : Nat → Option Nat
  writers : Nat → Option (Writer Detail)
  events : Nat → List WarehouseEvent
  replicas : Consumer → Replica

/-- A scheduler choice. -/
inductive WarehouseLabel (Detail : Type)
  | create (t id : Nat) (payload : WarehouseCreate Detail)
  | load (t id : Nat) (principal : Principal) (op : WarehouseOp Detail)
  | set (t : Nat)
  | flush (t : Nat)
  /-- The `UPDATE` gets the row. -/
  | update (t : Nat)
  | commit (t : Nat)
  /-- The transaction is rolled back: its request fails, its pod dies, or the database refuses
  it. -/
  | abort (t : Nat)
  | tick (n : Nat)
  /-- Event `n` of a warehouse reaches a consumer. -/
  | deliver (consumer : Consumer) (id n : Nat)

namespace WarehouseState

variable {Detail : Type}

/-- No warehouse, no transaction, and replicas that have seen nothing. -/
def empty : WarehouseState Detail where
  clock := 0
  rows := fun _ => none
  locks := fun _ => none
  writers := fun _ => none
  events := fun _ => []
  replicas := fun _ => ⟨fun _ => 0, []⟩

/-- A transaction set to `writer`. -/
def setWriter (s : WarehouseState Detail) (t : Nat) (writer : Writer Detail) :
    WarehouseState Detail :=
  { s with writers := Function.update s.writers t (some writer) }

/-- Transaction `t` ended, and its row locks released. -/
def endWriter (s : WarehouseState Detail) (t : Nat) : WarehouseState Detail :=
  { s with
    locks := fun id => if s.locks id = some t then none else s.locks id
    writers := Function.update s.writers t none }

/-- A row and an event committed. -/
def publish (s : WarehouseState Detail) (row : Warehouse Detail) (event : WarehouseEvent) :
    WarehouseState Detail :=
  { s with
    rows := Function.update s.rows row.id (some row)
    events := Function.update s.events row.id (s.events row.id ++ [event]) }

end WarehouseState

section

variable {Detail : Type} [DecidableEq Detail]

/-- One scheduler choice. -/
def warehouseNext (s : WarehouseState Detail) :
    WarehouseLabel Detail → Option (WarehouseState Detail)
  | .create t id payload =>
    match s.writers t with
    | none => some (s.setWriter t (.new (create payload id s.clock)))
    | some _ => none
  | .load t id principal op =>
    match s.writers t, s.rows id with
    | none, some row =>
      if op.finds principal row then some (s.setWriter t (.loaded op principal row)) else none
    | _, _ => none
  | .set t =>
    match s.writers t with
    | some (.loaded op principal copy) =>
      some (s.setWriter t (.set op copy (op.apply principal s.clock copy)))
    | _ => none
  | .flush t =>
    match s.writers t with
    | some (.new warehouse) =>
      some (s.setWriter t (.inserted { warehouse with updatedAt := s.clock }))
    | some (.set op copy warehouse) =>
      -- `updated_at` is read before the statement is sent, so before it may have to wait
      if isModified copy warehouse then
        some (s.setWriter t (.updating op copy { warehouse with updatedAt := s.clock }))
      else some (s.setWriter t (.unchanged op warehouse))
    | _ => none
  | .update t =>
    match s.writers t with
    | some (.updating op copy warehouse) =>
      if s.locks warehouse.id = none then
        some ({ s with locks := Function.update s.locks warehouse.id (some t) }.setWriter t
          (.updated op copy warehouse))
      else none
    | _ => none
  | .commit t =>
    match s.writers t with
    | some (.inserted warehouse) =>
      match s.rows warehouse.id with
      | none => some ((s.publish warehouse (emit "warehouse.created" warehouse)).endWriter t)
      | some _ => none
    | some (.updated op copy warehouse) =>
      (s.rows warehouse.id).map fun row =>
        (s.publish (writeChanged copy warehouse row) (emit op.eventType warehouse)).endWriter t
    | some (.unchanged op warehouse) =>
      (s.rows warehouse.id).map fun row =>
        (s.publish row (emit op.eventType warehouse)).endWriter t
    | _ => none
  | .abort t => (s.writers t).map fun _ => s.endWriter t
  | .tick n => some { s with clock := s.clock + n }
  | .deliver consumer id n =>
    let replica := s.replicas consumer
    -- a duplicate is in `processed_events`; otherwise the events of a warehouse come in order
    if n < replica.handled id then some s
    else if n = replica.handled id then
      (s.events id)[n]?.map fun event =>
        { s with
          replicas := Function.update s.replicas consumer
            { handled := Function.update replica.handled id (n + 1)
              refs := upsertWarehouse event.payload replica.refs } }
    else none

/-- All interleavings of writers and deliveries. -/
def warehouses : Machine (WarehouseState Detail) (WarehouseLabel Detail) := ⟨warehouseNext⟩

end

end SmartLogistics.Warehouse
