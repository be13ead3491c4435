import SmartLogistics.Identity.Rotation
import SmartLogistics.Library.Frame
import SmartLogistics.Platform.Pages

/-!
# What a token's holder is listed and what it can read

Row scoping is written twice: as the filters of a listing, and as a check of the row a request
names. `reads_agree`: the two agree for the principal of every token that Identity issues, on
shipments, stock positions and warehouses. It rests on one fact about such tokens: only that of a
warehouse operator lists warehouses (`Scoped`).
-/

set_option autoImplicit false

namespace SmartLogistics.Platform

open SmartLogistics.Library SmartLogistics.Shipment SmartLogistics.Identity SmartLogistics.Inventory
  SmartLogistics.Warehouse

/-! ## Principals -/

/-- The principal `Auth` makes of the access token that `_issue` signs for a user. -/
def Issued (security : Security) (settings : Identity.Settings) (db : Identity.Db) (user : User)
    (principal : Principal) : Prop :=
  ∃ loaded client now ids tokens stored flushed after ids',
    (issue security settings loaded user client).runAlone now ids db =
      .ok ((tokens, stored, flushed), after, ids') ∧
    principal = tokens.accessToken.principal

/-- Only a warehouse operator has warehouses of its own. -/
def Principal.Scoped (principal : Principal) : Prop :=
  principal.role ≠ .warehouseOperator → principal.warehouseIds = []

/-- A flush leaves the role of the user. -/
theorem role_of_flushUser {loaded user flushed : User} {now ids ids' : Nat} {db db' : Identity.Db}
    (h : (flushUser loaded user).runAlone now ids db = .ok (flushed, db', ids')) :
    flushed.role = user.role := by
  unfold flushUser at h
  split at h
  · cases h
    rfl
  · obtain ⟨_, db₁, ids₁, -, h⟩ := Txn.runAlone_bind_eq_ok h
    obtain ⟨_, db₂, ids₂, -, h⟩ := Txn.runAlone_bind_eq_ok h
    obtain ⟨_, db₃, ids₃, -, h⟩ := Txn.runAlone_bind_eq_ok h
    cases h
    rfl

/-- An issued token has the role of its user and, for an operator, the warehouses assigned. -/
theorem Issued.claims {security : Security} {settings : Identity.Settings} {db : Identity.Db}
    {user : User} {principal : Principal} (h : Issued security settings db user principal) :
    principal.role = user.role ∧ principal.warehouseIds =
      if user.role = .warehouseOperator then warehouseIdsFor user.id db else [] := by
  obtain ⟨loaded, client, now, ids, tokens, stored, flushed, after, ids', hrun, rfl⟩ := h
  simp only [issue, Txn.bind_eq, Txn.select, Txn.now, Txn.freshId, Txn.bind, Txn.runAlone] at hrun
  obtain ⟨after₁, db₁, ids₁, hflush, hrun⟩ := Txn.runAlone_bind_eq_ok hrun
  obtain ⟨_, db₂, ids₂, -, hrun⟩ := Txn.runAlone_bind_eq_ok hrun
  cases hrun
  exact ⟨role_of_flushUser hflush, rfl⟩

theorem Issued.scoped {security : Security} {settings : Identity.Settings} {db : Identity.Db}
    {user : User} {principal : Principal} (h : Issued security settings db user principal) :
    principal.Scoped := by
  intro hrole
  obtain ⟨hsame, hwarehouses⟩ := h.claims
  rw [hwarehouses, if_neg (hsame ▸ hrole)]

/-- The check of a row and the scope of a listing admit the same warehouses. -/
theorem Principal.Scoped.mayTouchWarehouse_eq {principal : Principal} (h : principal.Scoped)
    (warehouseId : Nat) :
    principal.mayTouchWarehouse warehouseId = inScope principal warehouseId := by
  unfold mayTouchWarehouse inScope Principal.scopedWarehouseIds
  cases hall : principal.seesAllWarehouses with
  | true => rfl
  | false =>
    by_cases hrole : principal.role = .warehouseOperator
    · simp [hrole]
    · simp [hrole, h hrole]

/-! ## Shipments -/

/-- The restriction of a shipment listing; none lists nothing. -/
def restriction (principal : Principal) : Option Restriction :=
  if principal.role = .courier then
    principal.courierId.map fun courierId => ⟨none, some courierId⟩
  else some ⟨Shipment.scopedWarehouseIds principal, none⟩

/-- The rows a listing is restricted to are those its caller may see. -/
theorem restriction_admits (principal : Principal) (row : ShipmentRow) :
    (restriction principal).any (·.admits row) = visible row.toShipment principal := by
  unfold restriction visible Restriction.admits Shipment.scopedWarehouseIds
    Principal.mayTouchWarehouse Principal.seesAllWarehouses
  cases hrole : principal.role with
  | admin => rfl
  | customerSupport => rfl
  | warehouseOperator => simp
  | courier =>
    cases hcourier : principal.courierId with
    | none => rfl
    | some courierId =>
      have hnot : (UserRole.courier == .admin || UserRole.courier == .customerSupport) = false :=
        rfl
      have hcomm : (some courierId == row.courierId) = (row.courierId == some courierId) := BEq.comm
      simp [hnot, hcomm]

/-- A listing without filters, on one page. -/
def unfilteredShipments (limit : Nat) : ListRequest := { Listing.anyShipment with limit := limit }

section

variable {texts : Texts} {now limit : Nat} {principal : Principal} {db : Tables}

/-- Without filters a listing selects the visible rows that are not deleted. -/
theorem mem_shipmentRows (row : ShipmentRow) :
    row ∈ shipmentRows texts now (unfilteredShipments limit) principal db ↔
      row ∈ db.shipments ∧ row.deletedAt = none ∧ visible row.toShipment principal = true := by
  rw [← restriction_admits]
  unfold shipmentRows restriction
  have hadmits : (unfilteredShipments limit).admits texts now row = true := rfl
  split
  · cases principal.courierId with
    | none => simp
    | some courierId => simp [hadmits]
  · simp [hadmits]

/-- A row is listed exactly if its id gets it. -/
theorem mem_list_iff (hkeys : (db.shipments.map fun row => row.id).Nodup)
    (hlimit : db.shipments.length ≤ limit) (shipmentId : Nat) (row : ShipmentRow) :
    row ∈ (Shipment.list texts now (unfilteredShipments limit) principal db).1 ∧
        row.id = shipmentId ↔
      Shipment.get db shipmentId principal = .ok row := by
  have hrows : (shipmentRows texts now (unfilteredShipments limit) principal db).length ≤ limit :=
    (Listing.shipmentRows_sublist ..).length_le.trans hlimit
  have hlisted : row ∈ (Shipment.list texts now (unfilteredShipments limit) principal db).1 ↔
      row ∈ shipmentRows texts now (unfilteredShipments limit) principal db :=
    (list_answers texts now (unfilteredShipments limit) principal db).mem_iff hrows row
  rw [hlisted, mem_shipmentRows]
  constructor
  · rintro ⟨⟨hmem, hdeleted, hvisible⟩, rfl⟩
    exact get_of_mem hkeys (List.mem_filter.2 ⟨hmem, hvisible⟩) hdeleted
  · intro h
    obtain ⟨hmem, hid, hdeleted, hvisible⟩ := get_eq_ok h
    exact ⟨⟨hmem, hdeleted, hvisible⟩, hid⟩

end

/-! ## Stock positions -/

/-- A stock listing without filters, on one page. -/
def unfilteredItems (limit : Nat) : ItemFilter where
  warehouseId := none
  skuId := none
  belowReorderLevel := none
  inStockOnly := none
  limit := limit
  offset := 0

/-- A request answers "not found". -/
def AnswersNotFound {α : Type} (answer : Except DomainError α) : Prop :=
  ∃ error, answer = .error error ∧ error.code = "not_found"

/-- The ledger of a position answers "not found" unless the position is there and the caller may
touch its warehouse. -/
theorem movements_notFound_iff (itemId : Nat) (principal : Principal) (limit : Nat)
    (db : Inventory.Db) : AnswersNotFound (movements itemId principal limit db) ↔
      ¬∃ item, Table.lookup InventoryItem.id db.items itemId = some item ∧
        principal.mayTouchWarehouse item.warehouseId = true := by
  unfold movements AnswersNotFound
  split
  · rename_i hnone
    refine iff_of_true ⟨_, rfl, rfl⟩ ?_
    rintro ⟨item, hitem, htouch⟩
    simp [hitem, Option.filter, htouch] at hnone
  · rename_i item hsome
    refine iff_of_false (fun ⟨_, h, _⟩ => nomatch h) (not_not.2 ?_)
    rw [Option.filter_eq_some_iff] at hsome
    exact ⟨item, hsome.1, hsome.2⟩

/-- A position is listed exactly if its ledger is not "not found". -/
theorem mem_listItems_iff {principal : Principal} (h : principal.Scoped) {db : Inventory.Db}
    (hkeys : Table.Keyed InventoryItem.id db.items) {limit : Nat} (hlimit : db.items.length ≤ limit)
    (itemId pageSize : Nat) :
    (∃ item ∈ (listItems principal (unfilteredItems limit) db).1, item.id = itemId) ↔
      ¬AnswersNotFound (movements itemId principal pageSize db) := by
  have hrows : (itemRows principal (unfilteredItems limit) db).length ≤ limit :=
    (List.length_filter_le _ _).trans hlimit
  have hlisted := (listItems_answers principal (unfilteredItems limit) db).mem_iff hrows
  rw [movements_notFound_iff, not_not]
  constructor
  · rintro ⟨item, hitem, rfl⟩
    obtain ⟨hmem, hselected⟩ := List.mem_filter.1 ((hlisted item).1 hitem)
    rw [Bool.and_eq_true] at hselected
    exact ⟨item, hkeys.lookup_eq_some.2 ⟨hmem, rfl⟩,
      (h.mayTouchWarehouse_eq item.warehouseId).trans hselected.2⟩
  · rintro ⟨item, hitem, htouch⟩
    obtain ⟨hmem, hid⟩ := hkeys.lookup_eq_some.1 hitem
    refine ⟨item, (hlisted item).2 (List.mem_filter.2 ⟨hmem, ?_⟩), hid⟩
    rw [Bool.and_eq_true]
    exact ⟨rfl, (h.mayTouchWarehouse_eq item.warehouseId).symm.trans htouch⟩

/-! ## Issued tokens -/

/-- Listings and single-row reads agree for every principal of an issued token. -/
theorem reads_agree (security : Security) (settings : Identity.Settings) (db : Identity.Db)
    (user : User) (principal : Principal) (h : Issued security settings db user principal)
    (texts : Texts) (now : Nat) (shipments : Tables)
    (hshipments : (shipments.shipments.map fun row => row.id).Nodup) (stock : Inventory.Db)
    (hstock : Table.Keyed InventoryItem.id stock.items) :
    (∀ limit, shipments.shipments.length ≤ limit → ∀ shipmentId row,
      row ∈ (Shipment.list texts now (unfilteredShipments limit) principal shipments).1 ∧
          row.id = shipmentId ↔
        Shipment.get shipments shipmentId principal = .ok row) ∧
    (∀ limit, stock.items.length ≤ limit → ∀ itemId pageSize,
      (∃ item ∈ (listItems principal (unfilteredItems limit) stock).1, item.id = itemId) ↔
        ¬AnswersNotFound (movements itemId principal pageSize stock)) ∧
    ∀ warehouseId, principal.mayTouchWarehouse warehouseId = true ↔
      principal.scopedWarehouseIds = none ∨
        ∃ scope, principal.scopedWarehouseIds = some scope ∧ warehouseId ∈ scope := by
  refine ⟨fun limit hlimit => mem_list_iff hshipments hlimit,
    fun limit hlimit => mem_listItems_iff h.scoped hstock hlimit, fun warehouseId => ?_⟩
  rw [h.scoped.mayTouchWarehouse_eq, inScope]
  cases principal.scopedWarehouseIds with
  | none => simp
  | some scope => simp

/-- An operator of warehouse 7, as Identity knows it. -/
def assignedOperator : Identity.Db :=
  { Identity.Db.empty with
    users := [sampleUser 5 "operator@transfleet.com" .warehouseOperator]
    assignments := [⟨30, 5, 7, 0⟩] }

/-- An operator of warehouse 7. -/
def operatorPrincipal : Principal := ⟨5, .warehouseOperator, [7], none⟩

theorem issued_operator : Issued sampleSecurity sampleSettings assignedOperator
    (sampleUser 5 "operator@transfleet.com" .warehouseOperator) operatorPrincipal := by
  refine ⟨sampleUser 5 "operator@transfleet.com" .warehouseOperator, sampleClient, 10, 40, _, _, _,
    _, _, rfl, ?_⟩
  rfl

/-- A position of warehouse 7 and one of warehouse 8. -/
def twoPositions : Inventory.Db :=
  { Inventory.Db.empty with
    items := [⟨20, 7, 1, none, 10, 0, 0, 1⟩, ⟨21, 8, 1, none, 10, 0, 0, 1⟩] }

/-- The operator lists and reads shipment 50 of warehouse 7, and one of the two positions. -/
theorem reads_agree_operator :
    (∀ limit, sampleTables.shipments.length ≤ limit → ∀ shipmentId row,
      row ∈ (Shipment.list sampleTexts 0 (unfilteredShipments limit) operatorPrincipal
          sampleTables).1 ∧ row.id = shipmentId ↔
        Shipment.get sampleTables shipmentId operatorPrincipal = .ok row) ∧
    (∀ limit, twoPositions.items.length ≤ limit → ∀ itemId pageSize,
      (∃ item ∈ (listItems operatorPrincipal (unfilteredItems limit) twoPositions).1,
          item.id = itemId) ↔
        ¬AnswersNotFound (movements itemId operatorPrincipal pageSize twoPositions)) ∧
    ∀ warehouseId, operatorPrincipal.mayTouchWarehouse warehouseId = true ↔
      operatorPrincipal.scopedWarehouseIds = none ∨
        ∃ scope, operatorPrincipal.scopedWarehouseIds = some scope ∧ warehouseId ∈ scope :=
  reads_agree sampleSecurity sampleSettings assignedOperator _ operatorPrincipal issued_operator
    sampleTexts 0 sampleTables (List.nodup_singleton _) twoPositions (by decide)

example : Shipment.get sampleTables 50 operatorPrincipal = .ok sampleRow := by
  decide

end SmartLogistics.Platform
