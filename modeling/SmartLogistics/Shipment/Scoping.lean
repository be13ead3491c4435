import SmartLogistics.Shipment.Records

/-!
# Row scoping as noninterference

`respond` is what Shipment answers to a request. `Agree` relates two databases with the same rows of
the shipments a caller may see. `respond_eq_iff`: a caller without sight of all warehouses gets the
same answer from two such databases, unless it is an `update_package` of a parcel that one of them
has and the other has not. `updatePackage` looks the parcel up before it checks the scope, and says
which of the two lookups failed: `not_scoped_for_packages`.
-/

set_option autoImplicit false

namespace SmartLogistics.Shipment

open SmartLogistics.Library SmartLogistics.Platform SmartLogistics.Warehouse
  SmartLogistics.Inventory

/-! ## Requests and answers -/

/-- A request on shipments. -/
inductive ShipmentRequest
  | get (shipmentId : Nat)
  | history (shipmentId : Nat)
  | list (request : ListRequest)
  | changeStatus (shipmentId : Nat) (target : ShipmentStatus) (reason : Option String)
      (expectedVersion : Option Nat)
  | addPackage (shipmentId : Nat) (payload : PackageCreate)
  | updatePackage (packageId : Nat) (payload : PackageUpdate)

/-- What the body of an answer is made of. -/
inductive Answer
  | shipment (body : ShipmentRead)
  | history (rows : List ShipmentStatusHistory)
  | page (rows : List ShipmentRow) (total limit offset : Nat)
  | package (package : Package)
  deriving DecidableEq, Repr

/-- The roles that may pack. -/
def packingRoles : List UserRole := [.admin, .warehouseOperator]

/-- The answer to a request; `now` is the clock, and `id` and `barcode` are the ids it generates. -/
def respond (texts : Texts) (now id barcode : Nat) (principal : Principal) (db : Tables) :
    ShipmentRequest → Except DomainError Answer
  | .get shipmentId => do
    let row ← get db shipmentId principal
    return .shipment (shipmentRead db row)
  | .history shipmentId => do
    let rows ← history db shipmentId principal
    return .history rows
  | .list request =>
    let (rows, total) := list texts now request principal db
    .ok (.page rows total request.limit request.offset)
  | .changeStatus shipmentId target reason expectedVersion => do
    let row ← get db shipmentId principal
    let moved ← changeStatus row.toShipment target principal reason expectedVersion now
    return .shipment (shipmentRead db { row with toShipment := moved })
  | .addPackage shipmentId payload => do
    principal.require packingRoles
    let (_, package) ← addPackage db shipmentId payload principal id barcode
    return .package package
  | .updatePackage packageId payload => do
    principal.require packingRoles
    let (_, package) ← updatePackage db packageId payload principal now
    return .package package

/-! ## Databases that agree on what a caller may see -/

/-- The primary keys of the tables. -/
structure Tables.Keyed (db : Tables) : Prop where
  shipments : (db.shipments.map fun row => row.id).Nodup
  packages : Table.Keyed Package.id db.packages

/-- The rows of the shipments a caller may see. -/
def visibleRows (principal : Principal) (db : Tables) : List ShipmentRow :=
  db.shipments.filter fun row => visible row.toShipment principal

/-- The two databases have the same rows of the shipments the caller may see. -/
structure Agree (principal : Principal) (db db' : Tables) : Prop where
  keyed : db.Keyed
  keyed' : db'.Keyed
  shipments : visibleRows principal db = visibleRows principal db'
  packages : ∀ row ∈ visibleRows principal db, db.packagesOf row.id = db'.packagesOf row.id
  history : ∀ row ∈ visibleRows principal db, db.historyOf row.id = db'.historyOf row.id

theorem Agree.symm {principal : Principal} {db db' : Tables} (h : Agree principal db db') :
    Agree principal db' db where
  keyed := h.keyed'
  keyed' := h.keyed
  shipments := h.shipments.symm
  packages := fun row hrow => (h.packages row (h.shipments ▸ hrow)).symm
  history := fun row hrow => (h.history row (h.shipments ▸ hrow)).symm

/-! ## Lookups of visible rows -/

variable {principal : Principal} {db db' : Tables}

/-- A shipment the caller gets is a visible row of its id. -/
theorem mem_visibleRows_of_get {shipmentId : Nat} {row : ShipmentRow}
    (h : get db shipmentId principal = .ok row) : row ∈ visibleRows principal db := by
  obtain ⟨hmem, -, -, hvisible⟩ := get_eq_ok h
  exact List.mem_filter.2 ⟨hmem, hvisible⟩

/-- A visible row that is not deleted is the one its id gets. -/
theorem get_of_mem (hkeys : (db.shipments.map fun row => row.id).Nodup) {row : ShipmentRow}
    (hrow : row ∈ visibleRows principal db) (hdeleted : row.deletedAt = none) :
      get db row.id principal = .ok row := by
  obtain ⟨hmem, hvisible⟩ := List.mem_filter.1 hrow
  have hfind : db.find row.id = some row := by
    unfold Tables.find
    obtain ⟨found, hfound⟩ := Option.isSome_iff_exists.1 (List.find?_isSome.2
      ⟨row, hmem, by simp [hdeleted]⟩ : (db.shipments.find? fun r =>
        r.id == row.id && r.deletedAt.isNone).isSome = true)
    have hkey := List.find?_some hfound
    simp only [Bool.and_eq_true, beq_iff_eq] at hkey
    rw [hfound, List.inj_on_of_nodup_map hkeys (List.mem_of_find?_eq_some hfound) hmem
      hkey.1]
  rw [get, hfind]
  exact if_pos hvisible

/-- A refused lookup says nothing more than that. -/
theorem get_eq_error {shipmentId : Nat} {error : DomainError}
    (h : get db shipmentId principal = .error error) :
    error = notFoundError "Shipment not found." := by
  unfold get at h
  split at h
  · split at h
    · cases h
    · cases h
      rfl
  · cases h
    rfl

/-- The caller gets the same shipment from databases that agree. -/
theorem Agree.get_eq (h : Agree principal db db') (shipmentId : Nat) :
    get db shipmentId principal = get db' shipmentId principal := by
  have hfrom : ∀ {a b : Tables}, Agree principal a b → ∀ row, get a shipmentId principal = .ok row →
      get b shipmentId principal = .ok row := by
    intro a b hab row hrow
    obtain ⟨-, rfl, hdeleted, -⟩ := get_eq_ok hrow
    exact get_of_mem hab.keyed'.shipments (hab.shipments ▸ mem_visibleRows_of_get hrow) hdeleted
  cases hdb : get db shipmentId principal with
  | ok row => exact (hfrom h row hdb).symm
  | error error =>
    cases hdb' : get db' shipmentId principal with
    | ok row =>
      rw [hfrom h.symm row hdb'] at hdb
      cases hdb
    | error error' => rw [get_eq_error hdb, get_eq_error hdb']

/-- A parcel of a shipment the caller may see is in both databases. -/
theorem Agree.package_eq (h : Agree principal db db') {packageId : Nat} {package : Package}
    {row : ShipmentRow} (hpackage : db.package packageId = some package)
    (hrow : get db package.shipmentId principal = .ok row) :
    db'.package packageId = some package := by
  obtain ⟨hmem, hid⟩ := Table.mem_of_lookup hpackage
  obtain ⟨-, hrowid, -, -⟩ := get_eq_ok hrow
  have hof : package ∈ db.packagesOf row.id :=
    List.mem_filter.2 ⟨hmem, by simp [hrowid]⟩
  rw [h.packages row (mem_visibleRows_of_get hrow)] at hof
  rw [← hid]
  exact h.keyed'.packages.lookup_of_mem (List.mem_filter.1 hof).1

/-! ## Listings -/

/-- Rows that pass the restriction of a listing are visible. -/
theorem visible_of_restriction {row : ShipmentRow} (hall : principal.seesAllWarehouses = false)
    (hrole : principal.role ≠ .courier)
    (h : (Restriction.mk (scopedWarehouseIds principal) none).admits row = true) :
    visible row.toShipment principal = true := by
  simp only [Restriction.admits, scopedWarehouseIds, hall, Bool.false_eq_true, if_false,
    Bool.and_eq_true] at h
  cases hr : principal.role with
  | admin => simp [Principal.seesAllWarehouses, hr] at hall
  | customerSupport => simp [Principal.seesAllWarehouses, hr] at hall
  | courier => exact absurd hr hrole
  | warehouseOperator =>
    simp only [hr, if_true, Option.all_some] at h
    simp only [visible, hr, Principal.mayTouchWarehouse, h.1, Bool.or_true]

/-- Two tables with the same visible rows have the same rows that pass a test only visible rows
pass. -/
theorem filter_eq_of_visible (h : visibleRows principal db = visibleRows principal db')
    {p : ShipmentRow → Bool} (hp : ∀ row, p row = true → visible row.toShipment principal = true) :
    db.shipments.filter p = db'.shipments.filter p := by
  have hfilter : ∀ a : Tables, a.shipments.filter p = (visibleRows principal a).filter p := by
    intro a
    rw [visibleRows, List.filter_filter]
    refine List.filter_congr fun row _ => ?_
    cases hrow : p row with
    | false => rfl
    | true => simp [hp row hrow]
  rw [hfilter db, hfilter db', h]

/-- A listing of a caller without sight of all warehouses is the same. -/
theorem Agree.list_eq (h : Agree principal db db') (hall : principal.seesAllWarehouses = false)
    (texts : Texts) (now : Nat) (request : ListRequest) :
    list texts now request principal db = list texts now request principal db' := by
  have hrows : ∀ restriction : Restriction,
      (∀ row, restriction.admits row = true → visible row.toShipment principal = true) →
        listShipments texts now request restriction db =
          listShipments texts now request restriction db' := by
    intro restriction hvisible
    unfold listShipments
    rw [filter_eq_of_visible h.shipments fun row hrow => hvisible row ?_]
    simp only [Bool.and_eq_true] at hrow
    exact hrow.2
  unfold list
  split
  · rename_i hrole
    cases hcourier : principal.courierId with
    | none => rfl
    | some courierId =>
      refine hrows _ fun row hrow => ?_
      simp only [Restriction.admits, Option.all_none, Option.all_some, Bool.true_and,
        beq_iff_eq] at hrow
      simp [visible, hrole, hcourier, ← hrow]
  · rename_i hrole
    exact hrows _ fun row hrow => visible_of_restriction hall hrole hrow

/-! ## Noninterference -/

/-- The request is for a parcel that only one of the databases has, by a caller who may pack. -/
def OnlyOneHas (principal : Principal) (db db' : Tables) : ShipmentRequest → Prop
  | .updatePackage packageId _ =>
    principal.role = .warehouseOperator ∧
      (db.package packageId).isSome ≠ (db'.package packageId).isSome
  | _ => False

/-- A parcel that only the first database has is refused by its shipment there and by itself in the
other one. -/
theorem Agree.updatePackage_of_none (h : Agree principal db db') {packageId : Nat}
    {package : Package} (hsome : db.package packageId = some package)
    (hnone : db'.package packageId = none) (payload : PackageUpdate) (now : Nat) :
    updatePackage db packageId payload principal now =
        .error (notFoundError "Shipment not found.") ∧
      updatePackage db' packageId payload principal now =
        .error (notFoundError "Package not found.") := by
  refine ⟨?_, by rw [updatePackage, hnone]⟩
  rw [updatePackage, hsome]
  cases hget : get db package.shipmentId principal with
  | ok row =>
    rw [h.package_eq hsome hget] at hnone
    cases hnone
  | error error => simp [hget, Bind.bind, Except.bind, get_eq_error hget]

/-- A parcel that both databases have is updated, or refused, alike. -/
theorem Agree.updatePackage_eq (h : Agree principal db db') {packageId : Nat}
    {package package' : Package} (hsome : db.package packageId = some package)
    (hsome' : db'.package packageId = some package') (payload : PackageUpdate) (now : Nat) :
    updatePackage db packageId payload principal now =
      updatePackage db' packageId payload principal now := by
  simp only [updatePackage, hsome, hsome']
  cases hget : get db package.shipmentId principal with
  | ok row =>
    have hsame := h.package_eq hsome hget
    rw [hsome', Option.some.injEq] at hsame
    rw [hsame, ← h.get_eq, hget]
  | error error =>
    cases hget' : get db' package'.shipmentId principal with
    | ok row =>
      have hsame := h.symm.package_eq hsome' hget'
      rw [hsome, Option.some.injEq] at hsame
      rw [hsame, h.get_eq, hget'] at hget
      cases hget
    | error error' =>
      rw [get_eq_error hget, get_eq_error hget']
      rfl

/-- A caller without sight of all warehouses cannot tell two databases apart that agree on what it
may see, unless it asks for an update of a parcel that one of them has only. -/
theorem respond_eq_iff (h : Agree principal db db') (hall : principal.seesAllWarehouses = false)
    (texts : Texts) (now id barcode : Nat) (request : ShipmentRequest) :
    respond texts now id barcode principal db request =
        respond texts now id barcode principal db' request ↔
      ¬ OnlyOneHas principal db db' request := by
  cases request with
  | get shipmentId =>
    refine iff_of_true ?_ not_false
    simp only [respond, ← h.get_eq]
    cases hget : get db shipmentId principal with
    | error error => rfl
    | ok row =>
      simp only [Bind.bind, Except.bind, shipmentRead, h.packages row (mem_visibleRows_of_get hget)]
  | history shipmentId =>
    refine iff_of_true ?_ not_false
    simp only [respond, history, ← h.get_eq]
    cases hget : get db shipmentId principal with
    | error error => rfl
    | ok row =>
      obtain ⟨-, rfl, -, -⟩ := get_eq_ok hget
      simp only [h.history row (mem_visibleRows_of_get hget)]
  | list request =>
    refine iff_of_true ?_ not_false
    simp only [respond, h.list_eq hall]
  | changeStatus shipmentId target reason expectedVersion =>
    refine iff_of_true ?_ not_false
    simp only [respond, ← h.get_eq]
    cases hget : get db shipmentId principal with
    | error error => rfl
    | ok row =>
      simp only [Bind.bind, Except.bind]
      cases hmoved : changeStatus row.toShipment target principal reason expectedVersion now with
      | error error => rfl
      | ok moved =>
        have hid : moved.id = row.id := (changeStatus_eq_ok hmoved).2.2.2.1
        simp only [shipmentRead, hid, h.packages row (mem_visibleRows_of_get hget)]
  | addPackage shipmentId payload =>
    refine iff_of_true ?_ not_false
    simp only [respond, addPackage, ← h.get_eq]
    cases hget : get db shipmentId principal with
    | error error => rfl
    | ok row =>
      simp only [Bind.bind, Except.bind, nextPackageSequence,
        h.packages row (mem_visibleRows_of_get hget)]
  | updatePackage packageId payload =>
    simp only [respond, OnlyOneHas]
    cases hrole : principal.role with
    | admin => simp [Principal.seesAllWarehouses, hrole] at hall
    | customerSupport => simp [Principal.seesAllWarehouses, hrole] at hall
    | courier =>
      -- the role gate refuses a courier before any lookup
      refine iff_of_true ?_ (by simp)
      simp [Principal.require, packingRoles, hrole, Bind.bind, Except.bind]
    | warehouseOperator =>
      have hgate : principal.require packingRoles = .ok () := by
        simp [Principal.require, packingRoles, hrole]
      have hne : notFoundError "Shipment not found." ≠ notFoundError "Package not found." := by
        decide
      simp only [hgate, true_and, not_not]
      cases hdb : db.package packageId with
      | none =>
        cases hdb' : db'.package packageId with
        | none => simp [updatePackage, hdb, hdb']
        | some package' =>
          obtain ⟨hshipment, hpackage⟩ := h.symm.updatePackage_of_none hdb' hdb payload now
          simp [hshipment, hpackage, Bind.bind, Except.bind, hne.symm]
      | some package =>
        cases hdb' : db'.package packageId with
        | none =>
          obtain ⟨hshipment, hpackage⟩ := h.updatePackage_of_none hdb hdb' payload now
          simp [hshipment, hpackage, Bind.bind, Except.bind, hne]
        | some package' =>
          simp [h.updatePackage_eq hdb hdb' payload now]

/-! ## A parcel of another warehouse -/

/-- Shipment 50 of warehouse 7. -/
def sampleRow : ShipmentRow where
  id := 50
  referenceNo := 1
  customerReference := none
  status := .created
  serviceLevel := .standard
  priority := .normal
  originWarehouseId := 7
  originWarehouseCode := "KHI-01"
  courierId := none
  createdBy := 1
  totalWeightG := 1200
  declaredValue := none
  currency := "PKR"
  promisedDeliveryAt := some 72
  dispatchedAt := none
  pickedUpAt := none
  deliveredAt := none
  cancelledAt := none
  deliveryAttemptCount := 0
  failureReason := none
  specialInstructions := none
  version := 1
  items := []
  createdAt := 0
  deletedAt := none
  destination := sampleAddress

/-- A parcel of shipment 50. -/
def samplePackage : Package where
  id := 9
  shipmentId := 50
  sequenceNo := 1
  barcode := 1
  status := .pending
  weightG := 1200
  lengthMm := none
  widthMm := none
  heightMm := none
  labelUrl := none
  labelGeneratedAt := none
  packedAt := none

/-- An operator of another warehouse. -/
def otherOperator : Principal where
  userId := 2
  role := .warehouseOperator
  warehouseIds := [8]

/-- A search that finds nothing. -/
def sampleTexts : Texts where
  ilike := fun _ _ => false
  referenceNo := fun _ => ""

/-- The database with shipment 50 and its parcel, and the one without. -/
def sampleTables : Tables := ⟨[sampleRow], [samplePackage], [], []⟩

/-- An operator of warehouse 8 sees nothing of shipment 50 of warehouse 7. -/
theorem agree_empty : Agree otherOperator sampleTables .empty where
  keyed := ⟨by decide, List.nodup_singleton _⟩
  keyed' := ⟨List.nodup_nil, List.nodup_nil⟩
  shipments := by decide
  packages := by decide
  history := by decide

/-- It gets the same answer to a request for shipment 50 whether there is one or not. -/
theorem respond_eq_for_shipment :
    respond sampleTexts 5 10 11 otherOperator sampleTables (.get 50) =
      respond sampleTexts 5 10 11 otherOperator .empty (.get 50) :=
  (respond_eq_iff agree_empty (by decide) sampleTexts 5 10 11 (.get 50)).2 not_false

/-- An operator of warehouse 8 sees from the text of the refusal that there is a parcel 9. -/
theorem not_scoped_for_packages :
    ∃ principal db db' request, Agree principal db db' ∧ principal.seesAllWarehouses = false ∧
      respond sampleTexts 5 10 11 principal db request ≠
        respond sampleTexts 5 10 11 principal db' request :=
  ⟨otherOperator, sampleTables, .empty, .updatePackage 9 markPacked, agree_empty, by decide,
    by decide +kernel⟩

end SmartLogistics.Shipment
