import SmartLogistics.Library.Machine
import SmartLogistics.Shipment.Records

/-!
# Concurrent requests on shipments

The machine of any number of transactions on Shipment's tables (`lifecycle`): each reads and checks,
flushes its rows, stages its event and commits, with those of the others in between. An `UPDATE` of
a shipment carries the version that was read; one that matches no row rolls its transaction back. A
flushed row is locked until its transaction ends. `seq` is drawn when the event is inserted.

`Step` lists what each step does, with its guards (`step_of_next`).

The times of a request are those of the step in which it reads. The source takes the stamps there
too, but `occurred_at` and `created_at` are column defaults, which are evaluated when the rows are
flushed: that is later, but before another transaction can see or change the rows.
-/

set_option autoImplicit false

namespace SmartLogistics.Shipment

open SmartLogistics.Library SmartLogistics.Platform SmartLogistics.Warehouse
  SmartLogistics.Inventory

namespace Lifecycle

/-! ## Transactions -/

/-- A request that writes. A create has its warehouse and its reservation already. -/
inductive Op
  | create (payload : ShipmentCreate) (destination : Address) (packages : List PackageCreate)
      (warehouse : WarehouseRef) (reservation : ReservationResult) (principal : Principal)
      (shipmentId referenceNo : Nat)
  | update (shipmentId : Nat) (payload : ShipmentUpdate) (principal : Principal)
  | changeStatus (shipmentId : Nat) (target : ShipmentStatus) (principal : Principal)
      (reason : Option String) (expectedVersion : Option Nat)
  | addPackage (shipmentId : Nat) (payload : PackageCreate) (principal : Principal)
  | updatePackage (packageId : Nat) (payload : PackageUpdate) (principal : Principal)

/-- `cancel_shipment`: a status change. -/
def Op.cancel (shipmentId : Nat) (principal : Principal) (reason : String) : Op :=
  .changeStatus shipmentId .cancelled principal (some reason) none

/-- What a transaction writes, with the rows as it read them. -/
inductive Work
  | insert (row : ShipmentRow) (packages : List Package) (entry : ShipmentStatusHistory)
  | write (read row : ShipmentRow) (entry : Option ShipmentStatusHistory)
      (payload : ShipmentPayload)
  | pack (read : ShipmentRow) (package : Package)
  | repack (read : ShipmentRow) (old new : Package)
  deriving DecidableEq, Repr

/-- The parcels of a create, numbered from 1. -/
def newPackages (shipmentId id barcode : Nat) (packages : List PackageCreate) : List Package :=
  packages.zipIdx.map fun (parcel, index) =>
    { id := id + index
      shipmentId := shipmentId
      sequenceNo := index + 1
      barcode := barcode + index
      status := .pending
      weightG := parcel.weightG
      lengthMm := parcel.lengthMm
      widthMm := parcel.widthMm
      heightMm := parcel.heightMm
      labelUrl := none
      labelGeneratedAt := none
      packedAt := none }

/-- The row an `UPDATE` leaves: nothing is written if nothing changed. -/
def versioned (read row : ShipmentRow) : ShipmentRow :=
  if row = read then row else { row with version := read.version + 1 }

/-- What a request reads, checks and computes; ids from `id` and barcodes from `barcode` on are
fresh. `now` also stands for the times that the source draws at the flush, `occurred_at` of an audit
row and `created_at` of a new shipment. -/
def prepare (db : Tables) (now id barcode : Nat) : Op → Except DomainError Work
  | .create payload destination packages warehouse reservation principal shipmentId referenceNo =>
    let row : ShipmentRow :=
      { newShipment payload warehouse principal shipmentId referenceNo now reservation with
        createdAt := now
        deletedAt := none
        destination := destination }
    .ok (.insert row (newPackages shipmentId id barcode packages)
      (record row none .created principal none id now))
  | .update shipmentId payload principal => do
    let read ← get db shipmentId principal
    let row ← update read payload
    .ok (.write read (versioned read row) none
      (.updated (summary (versioned read row)) payload.changed))
  | .changeStatus shipmentId target principal reason expectedVersion => do
    let read ← get db shipmentId principal
    let moved ← changeStatus read.toShipment target principal reason expectedVersion now
    let row := { read with toShipment := moved }
    .ok (.write read row (some (record read (some read.status) target principal reason id now))
      (.statusChanged (summary row) read.status reason principal.userId))
  | .addPackage shipmentId payload principal => do
    let (read, package) ← addPackage db shipmentId payload principal id barcode
    .ok (.pack read package)
  | .updatePackage packageId payload principal => do
    let (read, new) ← updatePackage db packageId payload principal now
    .ok (.repack read ((db.package packageId).getD new) new)

/-- A row that a transaction locks. -/
inductive RowLock
  | shipment (id : Nat)
  | package (id : Nat)
  deriving DecidableEq, Repr

/-- The existing or new row whose write makes other writes of it wait. -/
def Work.locked : Work → Option RowLock
  | .insert row _ _ => some (.shipment row.id)
  | .write read row _ _ => if row = read then none else some (.shipment read.id)
  | .pack _ _ => none
  | .repack _ old new => if new = old then none else some (.package old.id)

/-- The flush goes through: the new id is free, or the `UPDATE` matches the version read. -/
def Work.accepted (db : Tables) : Work → Bool
  | .insert row _ _ => !db.shipments.any (·.id == row.id)
  | .write read _ _ _ => db.shipments.any fun r => r.id == read.id && r.version == read.version
  | _ => true

/-- The event a transaction emits. -/
def Work.payload : Work → Option ShipmentPayload
  | .insert row _ _ => some (createdPayload row)
  | .write _ _ _ payload => some payload
  | .pack _ _ => none
  | .repack _ _ _ => none

/-- The parcel as `UPDATE` leaves it: the columns that changed since `old` are written. -/
def rewrite (old new package : Package) : Package :=
  { package with
    weightG := if new.weightG = old.weightG then package.weightG else new.weightG
    lengthMm := if new.lengthMm = old.lengthMm then package.lengthMm else new.lengthMm
    widthMm := if new.widthMm = old.widthMm then package.widthMm else new.widthMm
    heightMm := if new.heightMm = old.heightMm then package.heightMm else new.heightMm
    status := if new.status = old.status then package.status else new.status
    packedAt := if new.packedAt = old.packedAt then package.packedAt else new.packedAt }

/-- The tables with the writes and the events of a transaction. -/
def Work.apply (events : List (OutboxEvent ShipmentPayload)) (db : Tables) : Work → Tables
  | .insert row packages entry =>
    { shipments := db.shipments ++ [row]
      packages := db.packages ++ packages
      history := db.history ++ [entry]
      outbox := db.outbox ++ events }
  | .write read row entry _ =>
    { db with
      shipments := if row = read then db.shipments
        else db.shipments.map fun r => if r.id = read.id then row else r
      history := db.history ++ entry.toList
      outbox := db.outbox ++ events }
  | .pack _ package =>
    { db with
      packages := db.packages ++ [package]
      outbox := db.outbox ++ events }
  | .repack _ old new =>
    { db with
      packages := db.packages.map fun p => if p.id = old.id then rewrite old new p else p
      outbox := db.outbox ++ events }

/-- The unique constraints on parcels. -/
def uniquePackages (db : Tables) : Bool :=
  decide ((db.packages.map (·.id)).Nodup ∧ (db.packages.map (·.barcode)).Nodup ∧
    (db.packages.map fun p => (p.shipmentId, p.sequenceNo)).Nodup)

/-- An open transaction. -/
inductive Open
  | opened (op : Op)
  /-- It has read and checked; nothing is sent yet. -/
  | computed (work : Work)
  /-- Its rows are flushed. -/
  | flushed (work : Work)
  /-- Its event is inserted; the commit is next. -/
  | staged (work : Work) (events : List (OutboxEvent ShipmentPayload))

/-- What the transaction is about to write, once it has computed it. -/
def Open.work? : Open → Option Work
  | .opened _ => none
  | .computed work => some work
  | .flushed work => some work
  | .staged work _ => some work

/-! ## The machine -/

/-- The committed tables, the sequence behind `seq`, the row locks and the open transactions. -/
structure State where
  clock : Nat
  nextSeq : Nat
  db : Tables
  locks : RowLock → Option Nat
  txns : Nat → Option Open

/-- A scheduler choice. -/
inductive Label
  | start (t : Nat) (op : Op)
  /-- The reads of the request, and its checks; it ends if one refuses. -/
  | read (t id barcode : Nat)
  | flush (t : Nat)
  | stage (t eventId : Nat)
  | commit (t : Nat)
  | abort (t : Nat)
  | tick (n : Nat)

namespace State

/-- No shipment, and no transaction. -/
def empty : State where
  clock := 0
  nextSeq := 1
  db := .empty
  locks := fun _ => none
  txns := fun _ => none

/-- A transaction set to `txn`. -/
def setTxn (s : State) (t : Nat) (txn : Open) : State :=
  { s with txns := Function.update s.txns t (some txn) }

/-- Transaction `t` ended with the tables `db`, and its locks released. -/
def endTxn (s : State) (t : Nat) (db : Tables) : State :=
  { s with
    db := db
    locks := fun row => if s.locks row = some t then none else s.locks row
    txns := Function.update s.txns t none }

/-- Another transaction has written the row and not committed. -/
def blocked (s : State) (t : Nat) (row : RowLock) : Bool := (s.locks row).any (· != t)

end State

/-- One scheduler choice. -/
def next (s : State) : Label → Option State
  | .start t op =>
    match s.txns t with
    | none => some (s.setTxn t (.opened op))
    | some _ => none
  | .read t id barcode =>
    match s.txns t with
    | some (.opened op) =>
      match prepare s.db s.clock id barcode op with
      | .ok work => some (s.setTxn t (.computed work))
      | .error _ => some (s.endTxn t s.db)
    | _ => none
  | .flush t =>
    match s.txns t with
    | some (.computed work) =>
      match work.locked with
      | none => some (s.setTxn t (.flushed work))
      | some row =>
        if s.blocked t row then none
        else if work.accepted s.db then
          some ({ s with locks := Function.update s.locks row (some t) }.setTxn t (.flushed work))
        else some (s.endTxn t s.db)
    | _ => none
  | .stage t eventId =>
    match s.txns t with
    | some (.flushed work) =>
      match work.payload with
      | none => some (s.setTxn t (.staged work []))
      | some payload =>
        some ({ s with nextSeq := s.nextSeq + 1 }.setTxn t
          (.staged work [emit payload s.nextSeq eventId s.clock]))
    | _ => none
  | .commit t =>
    match s.txns t with
    | some (.staged work events) =>
      -- a duplicate parcel that is committed meanwhile is refused
      if uniquePackages (work.apply events s.db) then some (s.endTxn t (work.apply events s.db))
      else some (s.endTxn t s.db)
    | _ => none
  | .abort t => (s.txns t).map fun _ => s.endTxn t s.db
  | .tick n => some { s with clock := s.clock + n }

/-- All interleavings of the transactions on shipments. -/
def machine : Machine State Label := ⟨next⟩

/-! ## Steps -/

/-- What each step does, with its guards. -/
inductive Step (s : State) : Label → State → Prop
  | start {t : Nat} {op : Op} (hfree : s.txns t = none) :
      Step s (.start t op) (s.setTxn t (.opened op))
  | read {t id barcode : Nat} {op : Op} {work : Work} (ht : s.txns t = some (.opened op))
      (hwork : prepare s.db s.clock id barcode op = .ok work) :
      Step s (.read t id barcode) (s.setTxn t (.computed work))
  | flush {t : Nat} {work : Work} (ht : s.txns t = some (.computed work))
      (hnone : work.locked = none) : Step s (.flush t) (s.setTxn t (.flushed work))
  | lock {t : Nat} {work : Work} {row : RowLock} (ht : s.txns t = some (.computed work))
      (hrow : work.locked = some row) (hfree : s.blocked t row = false)
      (hok : work.accepted s.db = true) : Step s (.flush t)
        ({ s with locks := Function.update s.locks row (some t) }.setTxn t (.flushed work))
  | stage {t eventId : Nat} {work : Work} (ht : s.txns t = some (.flushed work))
      (hnone : work.payload = none) : Step s (.stage t eventId) (s.setTxn t (.staged work []))
  | emit {t eventId : Nat} {work : Work} {payload : ShipmentPayload}
      (ht : s.txns t = some (.flushed work)) (hsome : work.payload = some payload) :
      Step s (.stage t eventId) ({ s with nextSeq := s.nextSeq + 1 }.setTxn t
        (.staged work [emit payload s.nextSeq eventId s.clock]))
  | commit {t : Nat} {work : Work} {events : List (OutboxEvent ShipmentPayload)}
      (ht : s.txns t = some (.staged work events))
      (hunique : uniquePackages (work.apply events s.db) = true) :
      Step s (.commit t) (s.endTxn t (work.apply events s.db))
  | stop {t : Nat} {l : Label} : Step s l (s.endTxn t s.db)
  | tick {n : Nat} : Step s (.tick n) { s with clock := s.clock + n }

theorem step_of_next {s s' : State} {l : Label} (h : next s l = some s') : Step s l s' := by
  cases l with
  | start t op =>
    simp only [next] at h
    split at h
    · rename_i hfree
      cases h
      exact .start hfree
    · cases h
  | read t id barcode =>
    simp only [next] at h
    split at h
    · rename_i op ht
      split at h
      · rename_i work hwork
        cases h
        exact .read ht hwork
      · cases h
        exact .stop
    · cases h
  | flush t =>
    simp only [next] at h
    split at h
    · rename_i work ht
      split at h
      · rename_i hnone
        cases h
        exact .flush ht hnone
      · rename_i row hrow
        split at h
        · cases h
        rename_i hfree
        split at h
        · rename_i hok
          cases h
          exact .lock ht hrow (Bool.eq_false_iff.2 hfree) hok
        · cases h
          exact .stop
    · cases h
  | stage t eventId =>
    simp only [next] at h
    split at h
    · rename_i work ht
      split at h
      · rename_i hnone
        cases h
        exact .stage ht hnone
      · rename_i payload hsome
        cases h
        exact .emit ht hsome
    · cases h
  | commit t =>
    simp only [next] at h
    split at h
    · rename_i work events ht
      split at h
      · rename_i hunique
        cases h
        exact .commit ht hunique
      · cases h
        exact .stop
    · cases h
  | abort t =>
    simp only [next] at h
    obtain ⟨_, -, rfl⟩ := Option.map_eq_some_iff.1 h
    exact .stop
  | tick n =>
    cases h
    exact .tick

/-! ## Runs on given labels -/

/-- A request of transaction `t` up to its commit; `id` is the first id it draws. -/
def transaction (t id : Nat) (op : Op) : List Label :=
  [.start t op, .read t id id, .flush t, .stage t (id + 1), .commit t]

/-- A parcel of 1.2 kg. -/
def sampleParcel : PackageCreate where
  weightG := 1200
  lengthMm := none
  widthMm := none
  heightMm := none
  weight_pos := by decide
  weight_le := by decide
  sides := by simp

/-- The create of shipment 50 with one parcel, after its reservation. -/
def sampleCreate : Op :=
  .create (samplePayload 1) sampleAddress [sampleParcel]
    { id := 7
      code := "KHI-01"
      name := "Karachi"
      status := "active"
      city := "Karachi"
      isDeleted := false
      sourceUpdatedAt := 0 }
    { shipmentId := 50
      warehouseId := 7
      status := .held
      confirmed := false
      expiresAt := some (30 * 60)
      lines :=
        [{ skuId := 1
           quantity := 1
           skuCode := "KBD"
           skuName := "KBD"
           unitWeightG := 650
           unitValue := none
           currency := "PKR" }] }
    sampleAdmin 50 1

/-- An admin moves shipment 50. -/
def sampleMove (target : ShipmentStatus) : Op := .changeStatus 50 target sampleAdmin none none

end Lifecycle

end SmartLogistics.Shipment
