import Mathlib.Data.Prod.Lex
import Mathlib.Data.String.Basic
import SmartLogistics.Identity.Users
import SmartLogistics.Inventory.Listings
import SmartLogistics.Library.Paging
import SmartLogistics.Shipment.Scoping
import SmartLogistics.Warehouse.Warehouses

/-!
# The paged listings

Five listings come in pages: shipments and users by `created_at`, latest first, stock positions by
warehouse and SKU, warehouses and SKUs by their codes. `Listing.query` has, for each, the rows its
filters select and the key it sorts them by.

`visits_every_row_once_iff`: stock positions, warehouses and SKUs are visited once by every walk
through the pages, since their keys are unique; shipments and users are exactly if no page ends
between two rows that were created at the same time.
-/

set_option autoImplicit false

namespace SmartLogistics.Platform

open SmartLogistics.Library SmartLogistics.Shipment SmartLogistics.Identity SmartLogistics.Inventory
  SmartLogistics.Warehouse OrderDual

/-! ## The rows of a listing -/

/-- How the database compares texts: deterministically, so that only equal texts compare equal. -/
structure Collation where
  Key : Type
  [order : LinearOrder Key]
  key : String → Key
  injective : Function.Injective key

attribute [instance] Collation.order

/-- The shipments a listing selects. -/
def shipmentRows (texts : Texts) (now : Nat) (request : ListRequest) (principal : Principal)
    (db : Tables) : List ShipmentRow :=
  let select (restriction : Restriction) := db.shipments.filter fun row =>
    row.deletedAt.isNone && request.admits texts now row && restriction.admits row
  if principal.role = .courier then
    principal.courierId.elim [] fun courierId => select ⟨none, some courierId⟩
  else select ⟨Shipment.scopedWarehouseIds principal, none⟩

/-- The users a listing selects. -/
def userRows (filter : UserFilter) (db : Identity.Db) : List User :=
  db.users.filter fun user =>
    user.deletedAt.isNone && filter.role.all (· == user.role) &&
      filter.status.all (· == user.status) &&
      filter.search.all fun ilike => ilike user.fullName || ilike user.email

/-- The stock positions a listing selects. -/
def itemRows (principal : Principal) (filter : ItemFilter) (db : Inventory.Db) :
    List InventoryItem :=
  db.items.filter fun item => filter.selects item && inScope principal item.warehouseId

/-- The query parameters of the warehouse listing; a text is the `ILIKE` condition it makes. -/
structure WarehouseFilter (Detail : Type) where
  city : Option (String → Bool)
  type : Option Detail
  status : Option WarehouseStatus
  search : Option (String → Bool)

/-- The rows `list_warehouses` selects. -/
def warehouseRows {Detail : Type} [DecidableEq Detail] (principal : Principal)
    (filter : WarehouseFilter Detail) (warehouses : List (Warehouse.Warehouse Detail)) :
    List (Warehouse.Warehouse Detail) :=
  warehouses.filter fun warehouse =>
    warehouse.deletedAt.isNone && filter.city.all (· warehouse.city) &&
      filter.type.all (warehouse.details .type == some ·) &&
      filter.status.all (· == warehouse.status) &&
      filter.search.all (fun ilike => ilike warehouse.code || ilike warehouse.name) &&
      principal.scopedWarehouseIds.all (·.contains warehouse.id)

/-- The query parameters of the SKU listing. -/
structure SkuFilter where
  search : Option (String → Bool)
  activeOnly : Bool

/-- The rows `list_skus` selects. -/
def skuRows (filter : SkuFilter) (db : Inventory.Db) : List Sku :=
  db.skus.filter fun sku =>
    sku.deletedAt.isNone && (!filter.activeOnly || sku.isActive) &&
      filter.search.all fun ilike => ilike sku.code || ilike sku.name

/-! ## The queries -/

/-- The key of `ORDER BY created_at DESC`. -/
def latestFirst (createdAt : Nat) : Natᵒᵈ := toDual createdAt

/-- `Shipment.list` answers a page in one of the orders. -/
theorem list_answers (texts : Texts) (now : Nat) (request : ListRequest) (principal : Principal)
    (db : Tables) : Answers (fun row : ShipmentRow => latestFirst row.createdAt)
      (shipmentRows texts now request principal db) request.limit request.offset
      (Shipment.list texts now request principal db) := by
  unfold Shipment.list shipmentRows
  split
  · cases principal.courierId with
    | none => exact ⟨[], ⟨List.Perm.refl _, List.Pairwise.nil⟩, by simp⟩
    | some courierId => exact ⟨_, ordered_insertionSort _, rfl⟩
  · exact ⟨_, ordered_insertionSort _, rfl⟩

/-- So does the listing of users. -/
theorem listUsers_answers (filter : UserFilter) (db : Identity.Db) :
    Answers (fun user : User => latestFirst user.createdAt) (userRows filter db) filter.limit
      filter.offset
      (((listUsers filter db).drop filter.offset).take filter.limit,
        (listUsers filter db).length) :=
  ⟨_, ordered_insertionSort _, by rw [listUsers, List.length_insertionSort]; rfl⟩

/-- The key of `ORDER BY warehouse_id, sku_id`. -/
def position (item : InventoryItem) : Nat ×ₗ Nat := toLex (item.warehouseId, item.skuId)

/-- And `list_items`. -/
theorem listItems_answers (principal : Principal) (filter : ItemFilter) (db : Inventory.Db) :
    Answers position (itemRows principal filter db) filter.limit filter.offset
      (listItems principal filter db) := by
  refine ⟨_, ordered_of_le (fun a b => ?_) _, rfl⟩
  rw [position, position, Prod.Lex.toLex_le_toLex]
  rfl

/-- A query: the rows its filters select, and the key it sorts them by. -/
structure SortedQuery where
  Row : Type
  Key : Type
  [order : LinearOrder Key]
  key : Row → Key
  rows : List Row

attribute [instance] SortedQuery.order

/-- The paged listings, each with its filters, its caller and the database. All pages of a walk are
taken from one state of the database, and at one time: `now`, which the source reads anew for every
page, decides for all of them which shipments are overdue. -/
inductive Listing (Detail : Type)
  | shipments (texts : Texts) (now : Nat) (request : ListRequest) (principal : Principal)
      (db : Tables)
  | users (filter : UserFilter) (db : Identity.Db)
  | positions (principal : Principal) (filter : ItemFilter) (db : Inventory.Db)
  | warehouses (principal : Principal) (filter : WarehouseFilter Detail)
      (table : List (Warehouse.Warehouse Detail))
  | skus (filter : SkuFilter) (db : Inventory.Db)

namespace Listing

variable {Detail : Type} [DecidableEq Detail]

/-- The query of a listing. -/
def query (collation : Collation) : Listing Detail → SortedQuery
  | .shipments texts now request principal db =>
    { Row := ShipmentRow
      Key := Natᵒᵈ
      key := fun row => latestFirst row.createdAt
      rows := shipmentRows texts now request principal db }
  | .users filter db =>
    { Row := User
      Key := Natᵒᵈ
      key := fun user => latestFirst user.createdAt
      rows := userRows filter db }
  | .positions principal filter db =>
    { Row := InventoryItem
      Key := Nat ×ₗ Nat
      key := position
      rows := itemRows principal filter db }
  | .warehouses principal filter table =>
    { Row := Warehouse.Warehouse Detail
      Key := collation.Key
      key := fun warehouse => collation.key warehouse.code
      rows := warehouseRows principal filter table }
  | .skus filter db =>
    { Row := Sku
      Key := collation.Key
      key := fun sku => collation.key sku.code
      rows := skuRows filter db }

/-- The database meets the unique constraints of the table. -/
def Stored : Listing Detail → Prop
  | .shipments _ _ _ _ db => (db.shipments.map fun row => row.id).Nodup
  | .users _ db => (db.users.map (·.id)).Nodup
  | .positions _ _ db => (db.items.map fun item => (item.warehouseId, item.skuId)).Nodup
  | .warehouses _ _ table => (table.map (·.code)).Nodup
  | .skus _ db => (db.skus.map (·.code)).Nodup

/-- No page of a listing by `created_at` ends between two rows that were created at the same
time. -/
def NoTieAtEdge (limit : Nat) : Listing Detail → Prop
  | .shipments texts now request principal db =>
    EdgesApart (fun row : ShipmentRow => latestFirst row.createdAt)
      (shipmentRows texts now request principal db) limit
  | .users filter db =>
    EdgesApart (fun user : User => latestFirst user.createdAt) (userRows filter db) limit
  | _ => True

/-- Selecting rows keeps keys of their own. -/
theorem nodup_of_sublist {ρ κ : Type} {rows table : List ρ} {key : ρ → κ}
    (h : (table.map key).Nodup) (hrows : rows.Sublist table) : (rows.map key).Nodup :=
  h.sublist (hrows.map key)

/-- The rows of shipments are selected from the table. -/
theorem shipmentRows_sublist (texts : Texts) (now : Nat) (request : ListRequest)
    (principal : Principal) (db : Tables) :
    (shipmentRows texts now request principal db).Sublist db.shipments := by
  unfold shipmentRows
  split
  · cases principal.courierId with
    | none => exact List.nil_sublist _
    | some courierId => exact List.filter_sublist
  · exact List.filter_sublist

/-- The shipments and the users of a listing are rows of their own. -/
theorem nodup_shipmentRows (texts : Texts) (now : Nat) (request : ListRequest)
    (principal : Principal) {db : Tables} (h : (db.shipments.map fun row => row.id).Nodup) :
    (shipmentRows texts now request principal db).Nodup :=
  (nodup_of_sublist h (shipmentRows_sublist texts now request principal db)).of_map

theorem nodup_userRows (filter : UserFilter) {db : Identity.Db} (h : (db.users.map (·.id)).Nodup) :
    (userRows filter db).Nodup :=
  (nodup_of_sublist h List.filter_sublist).of_map

/-- Every walk through the pages of a listing visits each of its rows once and is told their number,
exactly if no page of a listing by `created_at` ends between rows that were created at the same
time. -/
theorem visits_every_row_once_iff (collation : Collation) (listing : Listing Detail) (limit : Nat)
    (hstored : listing.Stored) (hlimit : 0 < limit) :
    VisitsOnce (listing.query collation).key (listing.query collation).rows limit ↔
      listing.NoTieAtEdge limit := by
  cases listing with
  | shipments texts now request principal db =>
    have htable : (db.shipments.map fun row => row.id).Nodup := hstored
    exact Library.visitsOnce_iff (nodup_shipmentRows texts now request principal htable) hlimit
  | users filter db =>
    have htable : (db.users.map (·.id)).Nodup := hstored
    exact Library.visitsOnce_iff (nodup_userRows filter htable) hlimit
  | positions principal filter db =>
    have htable : (db.items.map fun item => (item.warehouseId, item.skuId)).Nodup := hstored
    have hkeys : ((itemRows principal filter db).map position).Nodup :=
      nodup_of_sublist htable List.filter_sublist
    exact iff_of_true ((edgesApart_of_nodup hkeys hlimit).visitsOnce hlimit) trivial
  | warehouses principal filter table =>
    have htable : (table.map (·.code)).Nodup := hstored
    have hcodes : ((warehouseRows principal filter table).map (·.code)).Nodup :=
      nodup_of_sublist htable List.filter_sublist
    have hkeys := hcodes.map collation.injective
    rw [List.map_map] at hkeys
    exact iff_of_true ((edgesApart_of_nodup hkeys hlimit).visitsOnce hlimit) trivial
  | skus filter db =>
    have htable : (db.skus.map (·.code)).Nodup := hstored
    have hcodes : ((skuRows filter db).map (·.code)).Nodup :=
      nodup_of_sublist htable List.filter_sublist
    have hkeys := hcodes.map collation.injective
    rw [List.map_map] at hkeys
    exact iff_of_true ((edgesApart_of_nodup hkeys hlimit).visitsOnce hlimit) trivial

/-- Texts compared by their code points. -/
def codePoints : Collation where
  Key := String
  key := id
  injective := Function.injective_id

/-- A listing without filters. -/
def anyShipment : ListRequest where
  status := none
  serviceLevel := none
  priority := none
  originWarehouseId := none
  courierId := none
  createdBy := none
  city := none
  search := none
  createdFrom := none
  createdTo := none
  overdueOnly := false
  limit := 1
  offset := 0

/-- An admin. -/
def listingAdmin : Principal where
  userId := 1
  role := .admin
  warehouseIds := []

/-- An admin lists all shipments. -/
def allShipments (db : Tables) : Listing Nat := .shipments sampleTexts 0 anyShipment listingAdmin db

/-- Two shipments, created at these times. -/
def twoShipments (first second : Nat) : Tables :=
  ⟨[{ sampleRow with createdAt := first }, { sampleRow with id := 51, createdAt := second }],
    [], [], []⟩

theorem stored_twoShipments (first second : Nat) :
    (allShipments (twoShipments first second)).Stored := by
  have hids : [50, 51].Nodup := by
    decide
  exact hids

/-- Pages of one row each visit two shipments that were created one after the other. -/
theorem visits_two_shipments : VisitsOnce ((allShipments (twoShipments 0 1)).query codePoints).key
    ((allShipments (twoShipments 0 1)).query codePoints).rows 1 :=
  (visits_every_row_once_iff codePoints (allShipments (twoShipments 0 1)) 1
    (stored_twoShipments 0 1) Nat.zero_lt_one).2
      (edgesApart_of_nodup (by decide +kernel) Nat.zero_lt_one)

/-- Two shipments that were created at the same time may be answered in one order for the first page
and in the other for the second, and then one of them is on both. -/
theorem not_visits_shipments_of_one_time : (allShipments (twoShipments 0 0)).Stored ∧
    ¬ VisitsOnce ((allShipments (twoShipments 0 0)).query codePoints).key
      ((allShipments (twoShipments 0 0)).query codePoints).rows 1 := by
  refine ⟨stored_twoShipments 0 0, fun h => ?_⟩
  have hrows := nodup_shipmentRows sampleTexts 0 anyShipment listingAdmin (stored_twoShipments 0 0)
  have hapart := VisitsOnce.edgesApart h hrows Nat.zero_lt_one
  exact hapart 1 Nat.zero_lt_one (by decide +kernel) (by decide +kernel)

end Listing

end SmartLogistics.Platform
