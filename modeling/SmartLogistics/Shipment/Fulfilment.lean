import SmartLogistics.Shipment.Answers
import SmartLogistics.Shipment.Cargo

/-!
# A recorded shipment is what was ordered

`Fulfilment` is the two services with Shipment's tables in full. A create request calls Inventory as
in `Settings.machine`, and inserts its rows in a transaction of `Lifecycle.machine`: the transaction
starts with the answer that the request has, and the two commit together. So do status changes,
whose events go to Inventory. Everything else goes on in either machine by itself.

`recorded_faithful`: the lines of a recorded shipment are those of its request, its weight is
theirs, its parcels are numbered in the order of the request, and lines and weight stay so.
-/

set_option autoImplicit false
set_option linter.dupNamespace false

namespace SmartLogistics.Shipment

open SmartLogistics.Library SmartLogistics.Platform SmartLogistics.Warehouse
  SmartLogistics.Inventory

/-! ## The machine -/

/-- What a create request is posted with besides its `ShipmentCreate`. -/
structure Body where
  destination : Address
  packages : List PackageCreate

/-- The two services, Shipment's tables in full, and the bodies of the requests. -/
structure Fulfilment where
  saga : Saga
  tables : Lifecycle.State
  bodies : Nat → Option Body

/-- A scheduler choice. -/
inductive FulfilmentLabel
  | post (t : Nat) (principal : Principal) (idempotencyKey : Option String)
      (payload : ShipmentCreate) (uuid4 : Nat) (body : Body)
  /-- A step of the services that is not a commit of Shipment's. -/
  | saga (l : SagaLabel)
  /-- A step of the tables that is not a create's start, nor a commit that sends Inventory an
  event. -/
  | tables (l : Lifecycle.Label)
  /-- Request `t` has its answer, and starts to write. -/
  | insert (t : Nat)
  /-- Request `t` commits; `lost` if it sees an error although the database committed. -/
  | record (t : Nat) (lost : Bool)
  /-- Transaction `u` commits the status change `v`. -/
  | change (u v : Nat) (target : ShipmentStatus) (principal : Principal) (reason : Option String)
      (expectedVersion : Option Nat)

/-- The step is not joined to one of the tables. -/
def SagaLabel.ofServices : SagaLabel → Bool
  | .post _ _ _ _ _ => false
  | .commit _ _ => false
  | .change _ _ _ _ _ => false
  | _ => true

namespace Lifecycle

/-- What the commit of transaction `t` writes, if the database accepts it. -/
def State.committing (s : State) (t : Nat) : Option Work :=
  match s.txns t with
  | some (.staged work events) =>
    if uniquePackages (work.apply events s.db) then some work else none
  | _ => none

/-- The step is not joined to one of the services. -/
def Label.ofTables (s : State) : Label → Bool
  | .start _ (.create _ _ _ _ _ _ _ _) => false
  | .commit t =>
    match s.committing t with
    | some (.write _ _ none _) => true
    | some (.pack _ _) => true
    | some (.repack _ _ _) => true
    | _ => false
  | _ => true

end Lifecycle

namespace Fulfilment

/-- No request, and nothing stored. -/
def initial : Fulfilment where
  saga := .initial
  tables := .empty
  bodies := fun _ => none

/-- One scheduler choice. -/
def next (g : Settings) (s : Fulfilment) : FulfilmentLabel → Option Fulfilment
  | .post t principal idempotencyKey payload uuid4 body =>
    (g.next s.saga (.post t principal idempotencyKey payload uuid4)).map fun saga =>
      { s with
        saga := saga
        bodies := Function.update s.bodies t (some body) }
  | .saga l =>
    if l.ofServices then (g.next s.saga l).map fun saga => { s with saga := saga } else none
  | .tables l =>
    if l.ofTables s.tables then
      (Lifecycle.next s.tables l).map fun tables => { s with tables := tables }
    else none
  | .insert t =>
    match s.saga.creates t, s.bodies t with
    | some r, some body =>
      match r.phase with
      | .reserved warehouse answer =>
        (Lifecycle.next s.tables (.start t (.create r.payload body.destination body.packages
          warehouse answer r.principal r.shipmentId s.saga.referenceNo))).map fun tables =>
            { s with tables := tables }
      | _ => none
    | _, _ => none
  | .record t lost =>
    match s.tables.committing t with
    | some (.insert _ _ _) =>
      (g.next s.saga (.commit t lost)).bind fun saga =>
        (Lifecycle.next s.tables (.commit t)).map fun tables =>
          { s with
            saga := saga
            tables := tables }
    | _ => none
  | .change u v target principal reason expectedVersion =>
    match s.tables.committing u, s.saga.copies v with
    | some (.write read row (some _) _), some (id, _) =>
      if id = read.id ∧ row.status = target then
        (g.next s.saga (.change v target principal reason expectedVersion)).bind fun saga =>
          (Lifecycle.next s.tables (.commit u)).map fun tables =>
            { s with
              saga := saga
              tables := tables }
      else none
    | _, _ => none

/-- All interleavings. -/
def machine (g : Settings) : Machine Fulfilment FulfilmentLabel := ⟨next g⟩

/-! ## Steps -/

/-- What each step does: it moves one of the two machines, or both. -/
inductive Step (g : Settings) (s : Fulfilment) : FulfilmentLabel → Fulfilment → Prop
  | post {t : Nat} {principal : Principal} {idempotencyKey : Option String}
      {payload : ShipmentCreate} {uuid4 : Nat} {body : Body} {saga : Saga}
      (hsaga : g.next s.saga (.post t principal idempotencyKey payload uuid4) = some saga) :
      Step g s (.post t principal idempotencyKey payload uuid4 body)
        { s with
          saga := saga
          bodies := Function.update s.bodies t (some body) }
  | saga {l : SagaLabel} {saga : Saga} (hsaga : g.next s.saga l = some saga) :
      Step g s (.saga l) { s with saga := saga }
  | tables {l : Lifecycle.Label} {tables : Lifecycle.State} (hown : l.ofTables s.tables = true)
      (htables : Lifecycle.next s.tables l = some tables) :
      Step g s (.tables l) { s with tables := tables }
  | insert {t : Nat} {r : CreateRequest} {body : Body} {warehouse : WarehouseRef}
      {answer : ReservationResult} {tables : Lifecycle.State} (hr : s.saga.creates t = some r)
      (hbody : s.bodies t = some body) (hphase : r.phase = .reserved warehouse answer)
      (htables : Lifecycle.next s.tables (.start t (.create r.payload body.destination body.packages
        warehouse answer r.principal r.shipmentId s.saga.referenceNo)) = some tables) :
      Step g s (.insert t) { s with tables := tables }
  | record {t : Nat} {lost : Bool} {row : ShipmentRow} {packages : List Package}
      {entry : ShipmentStatusHistory} {saga : Saga} {tables : Lifecycle.State}
      (hwork : s.tables.committing t = some (.insert row packages entry))
      (hsaga : g.next s.saga (.commit t lost) = some saga)
      (htables : Lifecycle.next s.tables (.commit t) = some tables) :
      Step g s (.record t lost)
        { s with
          saga := saga
          tables := tables }
  | change {u v : Nat} {target : ShipmentStatus} {principal : Principal} {reason : Option String}
      {expectedVersion : Option Nat} {saga : Saga} {tables : Lifecycle.State}
      (hsaga : g.next s.saga (.change v target principal reason expectedVersion) = some saga)
      (htables : Lifecycle.next s.tables (.commit u) = some tables) :
      Step g s (.change u v target principal reason expectedVersion)
        { s with
          saga := saga
          tables := tables }

variable {g : Settings} {s s' : Fulfilment}

theorem step_of_next {l : FulfilmentLabel} (h : next g s l = some s') : Step g s l s' := by
  cases l with
  | post t principal idempotencyKey payload uuid4 body =>
    obtain ⟨saga, hsaga, rfl⟩ := Option.map_eq_some_iff.1 h
    exact .post hsaga
  | saga l =>
    simp only [next] at h
    split at h
    · obtain ⟨saga, hsaga, rfl⟩ := Option.map_eq_some_iff.1 h
      exact .saga hsaga
    · cases h
  | tables l =>
    simp only [next] at h
    split at h
    · rename_i hown
      obtain ⟨tables, htables, rfl⟩ := Option.map_eq_some_iff.1 h
      exact .tables hown htables
    · cases h
  | insert t =>
    simp only [next] at h
    split at h
    · rename_i r body hr hbody
      split at h
      · rename_i warehouse answer hphase
        obtain ⟨tables, htables, rfl⟩ := Option.map_eq_some_iff.1 h
        exact .insert hr hbody hphase htables
      · cases h
    · cases h
  | record t lost =>
    simp only [next] at h
    split at h
    · rename_i row packages entry hwork
      obtain ⟨saga, hsaga, h⟩ := Option.bind_eq_some_iff.1 h
      obtain ⟨tables, htables, rfl⟩ := Option.map_eq_some_iff.1 h
      exact .record hwork hsaga htables
    · cases h
  | change u v target principal reason expectedVersion =>
    simp only [next] at h
    split at h
    · split at h
      · obtain ⟨saga, hsaga, h⟩ := Option.bind_eq_some_iff.1 h
        obtain ⟨tables, htables, rfl⟩ := Option.map_eq_some_iff.1 h
        exact .change hsaga htables
      · cases h
    · cases h

/-- The services in a run of the whole. -/
theorem saga_of_run (h : (machine g).Run s s') : g.machine.Run s.saga s'.saga := by
  have hone : ∀ {a b : Saga} {l : SagaLabel}, g.next a l = some b → g.machine.Run a b :=
    fun {a b l} hnext => Machine.run_of_next (M := g.machine) (l := l) hnext
  refine h.project fun a l b hnext => ?_
  cases step_of_next hnext with
  | post hsaga => exact hone hsaga
  | saga hsaga => exact hone hsaga
  | tables hown htables => exact Relation.ReflTransGen.refl
  | insert hr hbody hphase htables => exact Relation.ReflTransGen.refl
  | record hwork hsaga htables => exact hone hsaga
  | change hsaga htables => exact hone hsaga

/-- The tables in a run of the whole. -/
theorem tables_of_run (h : (machine g).Run s s') : Lifecycle.machine.Run s.tables s'.tables := by
  have hone : ∀ {a b : Lifecycle.State} {l : Lifecycle.Label}, Lifecycle.next a l = some b →
      Lifecycle.machine.Run a b :=
    fun {a b l} hnext => Machine.run_of_next (M := Lifecycle.machine) (l := l) hnext
  refine h.project fun a l b hnext => ?_
  cases step_of_next hnext with
  | post hsaga => exact Relation.ReflTransGen.refl
  | saga hsaga => exact Relation.ReflTransGen.refl
  | tables hown htables => exact hone htables
  | insert hr hbody hphase htables => exact hone htables
  | record hwork hsaga htables => exact hone htables
  | change hsaga htables => exact hone htables

end Fulfilment

/-! ## What a request orders -/

/-- The lines of the shipment are those of the request, and its weight is theirs. -/
structure Shipment.Fulfils (shipment : Shipment) (payload : ShipmentCreate) : Prop where
  items : (shipment.items.map fun item => (item.skuId, item.quantity)).Perm
    (payload.items.map fun item => (item.skuId, item.quantity))
  weight : shipment.totalWeightG =
    (shipment.items.map fun item => item.quantity * (item.unitWeightG : Int)).sum

/-- A shipment made from an answer to the request fulfils it. -/
theorem fulfils_newShipment {payload : ShipmentCreate} {shipmentId : Nat}
    {answer : ReservationResult} (h : answer.Answers (payload.reservation shipmentId))
    (warehouse : WarehouseRef) (principal : Principal) (referenceNo now : Nat) :
    (newShipment payload warehouse principal shipmentId referenceNo now answer).Fulfils
      payload where
  items := by
    have hlists : (newShipment payload warehouse principal shipmentId referenceNo now answer).Lists
        (payload.reservation shipmentId) := lists_of_answers rfl h
    rw [Shipment.Lists, ShipmentCreate.reservation, List.map_map] at hlists
    exact hlists
  weight := by
    simp only [newShipment, List.map_map]
    refine congrArg List.sum (List.map_congr_left fun line _ => ?_)
    exact Int.mul_comm _ _

theorem Shipment.Fulfils.sameCargo {row row' : ShipmentRow} {payload : ShipmentCreate}
    (h : row.toShipment.Fulfils payload) (hsame : SameCargo row row') :
    row'.toShipment.Fulfils payload where
  items := hsame.items ▸ h.items
  weight := by
    rw [hsame.weight, hsame.items]
    exact h.weight

/-- The measures a parcel is ordered with. -/
def PackageCreate.measures (parcel : PackageCreate) :
    Int × Option Int × Option Int × Option Int :=
  (parcel.weightG, parcel.lengthMm, parcel.widthMm, parcel.heightMm)

/-- The parcels, numbered in the order of the request. -/
def numbered (packages : List PackageCreate) :
    List (Nat × Int × Option Int × Option Int × Option Int) :=
  packages.zipIdx.map fun (parcel, index) => (index + 1, parcel.measures)

theorem numbered_newPackages (shipmentId id barcode : Nat) (packages : List PackageCreate) :
    (Lifecycle.newPackages shipmentId id barcode packages).map
      (fun package => (package.sequenceNo, package.measures)) = numbered packages := by
  rw [Lifecycle.newPackages, List.map_map]
  rfl

namespace Fulfilment

variable {g : Settings} {s s' : Fulfilment}

/-! ## Transactions insert what was ordered -/

/-- Work `work` of transaction `t` inserts what request `t` ordered. -/
def OrderedWork (s : Fulfilment) (t : Nat) : Lifecycle.Work → Prop
  | .insert row packages _ => ∃ r body id barcode, s.saga.creates t = some r ∧
      s.bodies t = some body ∧ row.id = r.shipmentId ∧ row.toShipment.Fulfils r.payload ∧
      packages = Lifecycle.newPackages row.id id barcode body.packages
  | _ => True

/-- A create that transaction `t` has started is request `t`, with an answer to it. -/
def OrderedOp (s : Fulfilment) (t : Nat) : Lifecycle.Op → Prop
  | .create payload _ packages _ answer _ shipmentId _ => ∃ r body, s.saga.creates t = some r ∧
      s.bodies t = some body ∧ r.payload = payload ∧ r.shipmentId = shipmentId ∧
      body.packages = packages ∧ answer.Answers r.reservation
  | _ => True

/-- The invariant of a transaction. -/
def Ordered (s : Fulfilment) (t : Nat) : Lifecycle.Open → Prop
  | .opened op => s.OrderedOp t op
  | .computed work => s.OrderedWork t work
  | .flushed work => s.OrderedWork t work
  | .staged work _ => s.OrderedWork t work

theorem ordered_iff_of_work {s : Fulfilment} {t : Nat} {txn : Lifecycle.Open}
    {work : Lifecycle.Work} (h : txn.work? = some work) :
    s.Ordered t txn ↔ s.OrderedWork t work := by
  cases txn with
  | opened op => cases h
  | computed x =>
    cases h
    exact Iff.rfl
  | flushed x =>
    cases h
    exact Iff.rfl
  | staged x events =>
    cases h
    exact Iff.rfl

/-- Every request is what it was posted as. -/
structure Posted (s s' : Fulfilment) : Prop where
  creates : ∀ t r, s.saga.creates t = some r → ∃ r', s'.saga.creates t = some r' ∧
    r'.payload = r.payload ∧ r'.shipmentId = r.shipmentId
  bodies : ∀ t r, s.saga.creates t = some r → s'.bodies t = s.bodies t

/-- A request goes on as what it is. -/
theorem creates_setCreate {a : Saga} {t u : Nat} {r r' : CreateRequest} (hr : a.creates u = some r)
    (hsame : ∀ x, a.creates t = some x → r'.payload = x.payload ∧ r'.shipmentId = x.shipmentId) :
    ∃ r₁, (a.setCreate t r').creates u = some r₁ ∧ r₁.payload = r.payload ∧
      r₁.shipmentId = r.shipmentId := by
  by_cases hut : u = t
  · subst hut
    exact ⟨r', Function.update_self .., hsame r hr⟩
  · exact ⟨r, (Function.update_of_ne hut ..).trans hr, rfl, rfl⟩

/-- A step of the services leaves every request what it was posted as. -/
theorem creates_of_next {a b : Saga} {l : SagaLabel} (h : g.next a l = some b) {u : Nat}
    {r : CreateRequest} (hr : a.creates u = some r) : ∃ r', b.creates u = some r' ∧
      r'.payload = r.payload ∧ r'.shipmentId = r.shipmentId := by
  have hmoved : ∀ {t : Nat} {x x' : CreateRequest}, a.creates t = some x →
      x'.payload = x.payload ∧ x'.shipmentId = x.shipmentId → ∀ y, a.creates t = some y →
      x'.payload = y.payload ∧ x'.shipmentId = y.shipmentId := by
    intro t x x' hx hsame y hy
    obtain rfl := Option.some.inj (hx.symm.trans hy)
    exact hsame
  cases Settings.step_of_next h with
  | post keys x hnone hid hheld hphase =>
    exact creates_setCreate hr fun y hy => nomatch hnone.symm.trans hy
  | act keys inserting referenceNo hx hmoves hlocks hinserts =>
    exact creates_setCreate hr (hmoved hx ⟨hmoves.payload, hmoves.shipmentId⟩)
  | reserve hx hphase => exact creates_setCreate hr (hmoved hx ⟨rfl, rfl⟩)
  | release hx hphase => exact creates_setCreate hr (hmoved hx ⟨rfl, rfl⟩)
  | answer hx hphase hanswer => exact creates_setCreate hr (hmoved hx ⟨rfl, rfl⟩)
  | commit keys hx hphase hpayload hid hend =>
    exact creates_setCreate hr (hmoved hx ⟨hpayload, hid⟩)
  | @settle v draw session c outcome hsession hstep hprog hpending hclosed =>
    obtain ⟨answers, handled, handling, heq⟩ := a.settled_eq c v outcome
    rw [heq]
    exact ⟨r, hr, rfl, rfl⟩
  | @stop v l l' c hrun hstep hstart hdb hclock hclosed =>
    obtain ⟨handling, heq⟩ := a.closed_eq c v
    rw [heq]
    exact ⟨r, hr, rfl, rfl⟩
  | _ => exact ⟨r, hr, rfl, rfl⟩

theorem posted_of_step {l : FulfilmentLabel} (h : Step g s l s') : Posted s s' := by
  cases h with
  | @post t principal key payload uuid4 body saga hsaga =>
    refine ⟨fun u r hr => creates_of_next hsaga hr, fun u r hr => Function.update_of_ne ?_ ..⟩
    -- the number of a new request is free
    rintro rfl
    simp only [Settings.next, hr] at hsaga
    cases hsaga
  | saga hsaga => exact ⟨fun u r hr => creates_of_next hsaga hr, fun _ _ _ => rfl⟩
  | tables hown htables => exact ⟨fun u r hr => ⟨r, hr, rfl, rfl⟩, fun _ _ _ => rfl⟩
  | insert hr hbody hphase htables => exact ⟨fun u r hr => ⟨r, hr, rfl, rfl⟩, fun _ _ _ => rfl⟩
  | record hwork hsaga htables =>
    exact ⟨fun u r hr => creates_of_next hsaga hr, fun _ _ _ => rfl⟩
  | change hsaga htables => exact ⟨fun u r hr => creates_of_next hsaga hr, fun _ _ _ => rfl⟩

theorem OrderedWork.mono {t : Nat} {work : Lifecycle.Work} (h : s.OrderedWork t work)
    (hposted : Posted s s') : s'.OrderedWork t work := by
  cases work with
  | insert row packages entry =>
    obtain ⟨r, body, id, barcode, hr, hbody, hid, hfulfils, hpackages⟩ := h
    obtain ⟨r', hr', hpayload, hid'⟩ := hposted.creates t r hr
    exact ⟨r', body, id, barcode, hr', (hposted.bodies t r hr).trans hbody, hid.trans hid'.symm,
      hpayload ▸ hfulfils, hpackages⟩
  | write | pack | repack => trivial

theorem OrderedOp.mono {t : Nat} {op : Lifecycle.Op} (h : s.OrderedOp t op)
    (hposted : Posted s s') : s'.OrderedOp t op := by
  cases op with
  | create payload destination packages warehouse answer principal shipmentId referenceNo =>
    obtain ⟨r, body, hr, hbody, hsame, hid, hpackages, hanswers⟩ := h
    obtain ⟨r', hr', hpayload', hid'⟩ := hposted.creates t r hr
    refine ⟨r', body, hr', (hposted.bodies t r hr).trans hbody, hpayload'.trans hsame,
      hid'.trans hid, hpackages, ?_⟩
    rw [CreateRequest.reservation, hpayload', hid']
    exact hanswers
  | update | changeStatus | addPackage | updatePackage => trivial

theorem Ordered.mono {t : Nat} {txn : Lifecycle.Open} (h : s.Ordered t txn)
    (hposted : Posted s s') : s'.Ordered t txn := by
  cases txn with
  | opened op => exact OrderedOp.mono h hposted
  | computed work => exact OrderedWork.mono h hposted
  | flushed work => exact OrderedWork.mono h hposted
  | staged work events => exact OrderedWork.mono h hposted

/-- What a create reads and computes is what was ordered. -/
theorem OrderedOp.prepare {t : Nat} {op : Lifecycle.Op} (h : s.OrderedOp t op) {db : Tables}
    {now id barcode : Nat} {work : Lifecycle.Work}
    (hwork : Lifecycle.prepare db now id barcode op = .ok work) : s.OrderedWork t work := by
  cases op with
  | create payload destination packages warehouse answer principal shipmentId referenceNo =>
    cases hwork
    obtain ⟨r, body, hr, hbody, rfl, rfl, rfl, hanswers⟩ := h
    exact ⟨r, body, id, barcode, hr, hbody, rfl, fulfils_newShipment hanswers _ _ _ _, rfl⟩
  | update shipmentId payload principal =>
    simp only [Lifecycle.prepare, Bind.bind, Except.bind] at hwork
    split at hwork
    · cases hwork
    split at hwork
    · cases hwork
    cases hwork
    trivial
  | changeStatus shipmentId target principal reason expectedVersion =>
    simp only [Lifecycle.prepare, Bind.bind, Except.bind] at hwork
    split at hwork
    · cases hwork
    split at hwork
    · cases hwork
    cases hwork
    trivial
  | addPackage shipmentId payload principal =>
    simp only [Lifecycle.prepare, Bind.bind, Except.bind] at hwork
    split at hwork
    · cases hwork
    cases hwork
    trivial
  | updatePackage packageId payload principal =>
    simp only [Lifecycle.prepare, Bind.bind, Except.bind] at hwork
    split at hwork
    · cases hwork
    cases hwork
    trivial

/-- A transaction after a step of the tables: it has just started, it has read, or it is what it
was, or has the work it had. -/
theorem txn_of_step {a b : Lifecycle.State} {l : Lifecycle.Label} (h : Lifecycle.Step a l b)
    {u : Nat} {txn' : Lifecycle.Open} (hu : b.txns u = some txn') :
    (∃ op, l = .start u op ∧ txn' = .opened op) ∨
    (∃ op work now id barcode, a.txns u = some (.opened op) ∧
      Lifecycle.prepare a.db now id barcode op = .ok work ∧ txn' = .computed work) ∨
    (a.txns u = some txn') ∨
    ∃ txn work, a.txns u = some txn ∧ txn.work? = some work ∧ txn'.work? = some work := by
  cases h with
  | start hfree =>
    rcases update_eq_some hu with ⟨rfl, rfl⟩ | ⟨-, hold⟩
    · exact Or.inl ⟨_, rfl, rfl⟩
    · exact Or.inr (Or.inr (Or.inl hold))
  | read ht hprepare =>
    rcases update_eq_some hu with ⟨rfl, rfl⟩ | ⟨-, hold⟩
    · exact Or.inr (Or.inl ⟨_, _, _, _, _, ht, hprepare, rfl⟩)
    · exact Or.inr (Or.inr (Or.inl hold))
  | flush ht hnone =>
    rcases update_eq_some hu with ⟨rfl, rfl⟩ | ⟨-, hold⟩
    · exact Or.inr (Or.inr (Or.inr ⟨_, _, ht, rfl, rfl⟩))
    · exact Or.inr (Or.inr (Or.inl hold))
  | lock ht hrow hfree hok =>
    rcases update_eq_some hu with ⟨rfl, rfl⟩ | ⟨-, hold⟩
    · exact Or.inr (Or.inr (Or.inr ⟨_, _, ht, rfl, rfl⟩))
    · exact Or.inr (Or.inr (Or.inl hold))
  | stage ht hnone =>
    rcases update_eq_some hu with ⟨rfl, rfl⟩ | ⟨-, hold⟩
    · exact Or.inr (Or.inr (Or.inr ⟨_, _, ht, rfl, rfl⟩))
    · exact Or.inr (Or.inr (Or.inl hold))
  | emit ht hsome =>
    rcases update_eq_some hu with ⟨rfl, rfl⟩ | ⟨-, hold⟩
    · exact Or.inr (Or.inr (Or.inr ⟨_, _, ht, rfl, rfl⟩))
    · exact Or.inr (Or.inr (Or.inl hold))
  | commit ht hunique =>
    rcases update_option_eq_some hu with ⟨-, hnone⟩ | ⟨-, hold⟩
    · cases hnone
    · exact Or.inr (Or.inr (Or.inl hold))
  | stop =>
    rcases update_option_eq_some hu with ⟨-, hnone⟩ | ⟨-, hold⟩
    · cases hnone
    · exact Or.inr (Or.inr (Or.inl hold))
  | tick => exact Or.inr (Or.inr (Or.inl hu))

/-- Every transaction on the tables is ordered. -/
def Linked (s : Fulfilment) : Prop := ∀ t txn, s.tables.txns t = some txn → s.Ordered t txn

/-- A step of the tables keeps the transactions ordered, if the one it starts is. -/
theorem Linked.tables (h : s.Linked) {l : Lifecycle.Label}
    (hstep : Lifecycle.next s.tables l = some s'.tables) (hposted : Posted s s')
    (hstart : ∀ u op, l = .start u op → s.OrderedOp u op) : s'.Linked := by
  intro u txn' hu
  refine Ordered.mono ?_ hposted
  rcases txn_of_step (Lifecycle.step_of_next hstep) hu with ⟨op, hl, rfl⟩ |
    ⟨op, work, now, id, barcode, ht, hprepare, rfl⟩ | hold | ⟨txn, work, ht, hwork, hwork'⟩
  · exact hstart u op hl
  · exact OrderedOp.prepare (h u _ ht) hprepare
  · exact h u txn' hold
  · exact (ordered_iff_of_work hwork').2 ((ordered_iff_of_work hwork).1 (h u txn ht))

theorem Linked.next (h : s.Linked) (hanswered : s.saga.Answered) {l : FulfilmentLabel}
    (hnext : Fulfilment.next g s l = some s') : s'.Linked := by
  have hstep := step_of_next hnext
  have hposted := posted_of_step hstep
  cases hstep with
  | post hsaga => exact fun u txn hu => (h u txn hu).mono hposted
  | saga hsaga => exact fun u txn hu => (h u txn hu).mono hposted
  | tables hown htables =>
    refine h.tables htables hposted fun u op hl => ?_
    subst hl
    cases op with
    | create => cases hown
    | update | changeStatus | addPackage | updatePackage => trivial
  | @insert t r body warehouse answer tables hr hbody hphase htables =>
    refine h.tables htables hposted fun u op hl => ?_
    cases hl
    have hanswer := (hanswered.answered t r answer hr (by rw [hphase]; rfl)).answers
    exact ⟨r, body, hr, hbody, rfl, rfl, rfl, hanswer⟩
  | record hwork hsaga htables => exact h.tables htables hposted fun _ _ hl => nomatch hl
  | change hsaga htables => exact h.tables htables hposted fun _ _ hl => nomatch hl

theorem linked_of_run (h : (machine g).Run .initial s) : s.Linked := by
  induction h with
  | refl => exact fun _ _ hu => nomatch hu
  | tail hrun hstep ih =>
    obtain ⟨l, -, hnext⟩ := hstep
    exact ih.next (answered_of_saga (saga_of_run hrun)) hnext

/-! ## The result -/

/-- The shipment has a row, and its rows fulfil the request. -/
structure Faithful (s : Fulfilment) (shipmentId : Nat) (payload : ShipmentCreate) : Prop where
  recorded : s.tables.db.HasRow shipmentId
  fulfils : ∀ row ∈ s.tables.db.shipments, row.id = shipmentId → row.toShipment.Fulfils payload

/-- A faithful record stays so. -/
theorem Faithful.run {shipmentId : Nat} {payload : ShipmentCreate}
    (h : s.Faithful shipmentId payload) (hreach : (machine g).Run .initial s)
    (hrun : (machine g).Run s s') : s'.Faithful shipmentId payload := by
  obtain ⟨row, hrow, hid⟩ := h.recorded
  obtain ⟨row', hrow', hsame⟩ := Lifecycle.cargo_of_run (tables_of_run hreach) (tables_of_run hrun)
    hrow
  refine ⟨⟨row', hrow', hsame.id.trans hid⟩, fun other hother hkey => ?_⟩
  have hstory := Lifecycle.story_of_run (tables_of_run (hreach.trans hrun))
  obtain rfl := hstory.eq_of_id hother hrow' (hkey.trans (hsame.id.trans hid).symm)
  exact (h.fulfils row hrow hid).sameCargo hsame

theorem db_of_committing {a b : Lifecycle.State} {t : Nat} {work : Lifecycle.Work}
    (h : a.committing t = some work) (hnext : Lifecycle.next a (.commit t) = some b) :
    ∃ events, a.txns t = some (.staged work events) ∧ b.db = work.apply events a.db := by
  unfold Lifecycle.State.committing at h
  split at h
  · rename_i work' events ht
    split at h
    · rename_i hunique
      cases h
      simp only [Lifecycle.next, ht, hunique, if_true] at hnext
      cases hnext
      exact ⟨events, ht, rfl⟩
    · cases h
  · cases h

/-- The commit of a create leaves the shipment with the lines of the request, their weight, and its
parcels numbered in the order of the request; lines and weight are so in every later state. -/
theorem recorded_faithful (g : Settings) {s s' : Fulfilment} (h : (machine g).Run .initial s)
    {t : Nat} {lost : Bool} {r : CreateRequest} {body : Body} (hr : s.saga.creates t = some r)
    (hbody : s.bodies t = some body) (hnext : next g s (.record t lost) = some s') :
    (s'.tables.db.packagesOf r.shipmentId).map
        (fun package => (package.sequenceNo, package.measures)) = numbered body.packages ∧
      ∀ s'', (machine g).Run s' s'' → s''.Faithful r.shipmentId r.payload := by
  have hone : (machine g).Run s s' :=
    Machine.run_of_next (M := machine g) (l := .record t lost) hnext
  have hreach : (machine g).Run .initial s' := h.trans hone
  have htables := tables_of_run h
  cases step_of_next hnext with
  | @record _ _ row packages entry saga tables hwork hsaga hcommit =>
    obtain ⟨events, ht, hdb⟩ := db_of_committing hwork hcommit
    obtain ⟨r', body', id, barcode, hr', hbody', hid, hfulfils, rfl⟩ := linked_of_run h t _ ht
    obtain rfl := Option.some.inj (hr.symm.trans hr')
    obtain rfl := Option.some.inj (hbody.symm.trans hbody')
    constructor
    · show (tables.db.packagesOf r.shipmentId).map _ = _
      rw [hdb, ← hid, (Lifecycle.cargo_of_reachable htables).packagesOf_insert ht]
      exact numbered_newPackages _ _ _ _
    · intro s'' hrun
      refine Faithful.run ⟨⟨row, ?_, hid⟩, fun other hother hkey => ?_⟩ hreach hrun
      · show row ∈ tables.db.shipments
        rw [hdb]
        exact List.mem_append_right _ List.mem_cons_self
      · have hstory := Lifecycle.story_of_run (tables_of_run hreach)
        have hrow : row ∈ tables.db.shipments := by
          rw [hdb]
          exact List.mem_append_right _ List.mem_cons_self
        obtain rfl := hstory.eq_of_id hother hrow (hkey.trans hid.symm)
        exact hfulfils

/-! ## A create and what follows -/

/-- Shipment 50 of one line and two parcels is reserved and recorded, and readied for its
dispatch. -/
def ordered : List FulfilmentLabel :=
  stockedSaga.map .saga ++
    [.post 0 sampleAdmin none (samplePayload 1) 50
      ⟨sampleAddress, [Lifecycle.sampleParcel, Lifecycle.sampleParcel]⟩] ++
    (reservedUnderKey 0 14).map .saga ++
    [.insert 0, .tables (.read 0 9 9), .tables (.flush 0), .tables (.stage 0 20),
      .saga (.act 0 .flush)]

/-- The shipment's status changes. -/
def readied : List FulfilmentLabel :=
  [.saga (.read 1 50), .tables (.start 1 (Lifecycle.sampleMove .readyForDispatch)),
    .tables (.read 1 30 30), .tables (.flush 1), .tables (.stage 1 31),
    .change 1 1 .readyForDispatch sampleAdmin none none]

theorem recorded_faithful_when_readied : ∃ s s' s'' r body,
    (machine sampleSettings).Run .initial s ∧ s.saga.creates 0 = some r ∧
    s.bodies 0 = some body ∧ next sampleSettings s (.record 0 false) = some s' ∧
    (machine sampleSettings).Run s' s'' ∧
    r.payload.items.map (fun item => (item.skuId, item.quantity)) = [(1, 1)] ∧
    s''.tables.db.shipments.map (fun row => (row.status, row.totalWeightG)) =
      [(.readyForDispatch, 650)] ∧
    (s'.tables.db.packagesOf r.shipmentId).map
      (fun package => (package.sequenceNo, package.measures)) = numbered body.packages ∧
    s''.Faithful r.shipmentId r.payload := by
  have hrun : ((machine sampleSettings).exec .initial ordered).bind (fun s =>
      (next sampleSettings s (.record 0 false)).bind fun s' =>
        ((machine sampleSettings).exec s' readied).map fun s'' =>
          ((s.saga.creates 0).map fun r =>
            r.payload.items.map fun item => (item.skuId, item.quantity),
          (s.bodies 0).isSome,
          s''.tables.db.shipments.map fun row => (row.status, row.totalWeightG))) =
      some (some [(1, 1)], true, [(.readyForDispatch, 650)]) := by
    decide +kernel
  obtain ⟨s, hs, hrest⟩ := Option.bind_eq_some_iff.1 hrun
  obtain ⟨s', hs', hrest⟩ := Option.bind_eq_some_iff.1 hrest
  obtain ⟨s'', hs'', hfacts⟩ := Option.map_eq_some_iff.1 hrest
  simp only [Prod.mk.injEq] at hfacts
  obtain ⟨hitems, hbody, hrows⟩ := hfacts
  obtain ⟨r, hr, hitems⟩ := Option.map_eq_some_iff.1 hitems
  obtain ⟨body, hbody⟩ := Option.isSome_iff_exists.1 hbody
  have hreach := Machine.run_of_exec _ hs
  have hlater := Machine.run_of_exec _ hs''
  obtain ⟨hparcels, hfaithful⟩ := recorded_faithful sampleSettings hreach hr hbody hs'
  exact ⟨s, s', s'', r, body, hreach, hr, hbody, hs', hlater, hitems, hrows, hparcels,
    hfaithful s'' hlater⟩

end Fulfilment

end SmartLogistics.Shipment
