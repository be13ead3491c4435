import SmartLogistics.Library.Following
import SmartLogistics.Library.Registry
import SmartLogistics.Warehouse.Hours

/-!
# Zones of a warehouse

A zone is added to a warehouse under a code that stays on its signage: an update may write every
other column, and a deletion only marks the row. The three requests read without locks, change a
copy and flush it; `zones` runs any number of them, with the rest of the service deleting and
restoring warehouses in between.

`zone_of_code`: a code of a warehouse names one zone for ever, deleted or not, so a code that has
been given out is refused from then on (`not_added_again`). `zone_changes`: what a zone says was
said by a request that was answered, of someone who may manage its warehouse. `deleted_for_good`: a
request that begins after a zone has been deleted is not answered.
-/

set_option autoImplicit false

namespace SmartLogistics.Warehouse

open SmartLogistics.Library SmartLogistics.Platform

/-! ## Rows and requests -/

/-- What a zone is for. -/
inductive ZoneType
  | receiving
  | storage
  | picking
  | packing
  | staging
  | dispatch
  | returns
  | quarantine
  deriving DecidableEq, Repr

/-- The columns of a zone that its requests write. -/
inductive ZoneColumn
  | name
  | type
  | capacityUnits
  | isActive
  | deletedAt
  | deletedBy
  deriving DecidableEq, Repr

/-- What a column holds. -/
inductive ZoneCell
  | text (s : String)
  | zoneType (type : ZoneType)
  | units (n : Int)
  | flag (b : Bool)
  | time (n : Nat)
  | uuid (id : Nat)
  deriving DecidableEq, Repr

/-- A row of `warehouse_zones`. -/
structure WarehouseZone where
  id : Nat
  warehouseId : Nat
  code : String
  cells : ZoneColumn → Option ZoneCell
  createdAt : Nat
  updatedAt : Nat

/-- The row is not deleted. -/
def WarehouseZone.isLive (zone : WarehouseZone) : Bool := (zone.cells .deletedAt).isNone

/-- `uq_warehouse_zone_code` is on the warehouse and the code. -/
def WarehouseZone.sign (zone : WarehouseZone) : Nat × String := (zone.warehouseId, zone.code)

/-- A code after `upper_code`, as the pattern and the lengths admit it. -/
def isZoneCode (code : String) : Bool :=
  decide (1 ≤ code.length ∧ code.length ≤ 16) &&
    code.toList.all fun c => c.isUpper || c.isDigit || c == '-'

/-- The body of `POST /warehouses/{id}/zones`, validated. -/
structure WarehouseZoneCreate where
  code : String
  name : String
  type : ZoneType
  capacityUnits : Int
  code_valid : isZoneCode code = true
  name_length : 2 ≤ name.length ∧ name.length ≤ 150
  capacity_pos : 0 < capacityUnits

/-- The body of an update: the fields that are set, some of them to null. There is no code. -/
structure WarehouseZoneUpdate where
  name : Option (Option String)
  type : Option (Option ZoneType)
  capacityUnits : Option (Option Int)
  isActive : Option (Option Bool)
  name_length : ∀ s, name = some (some s) → 2 ≤ s.length ∧ s.length ≤ 150
  capacity_pos : ∀ n, capacityUnits = some (some n) → 0 < n

/-- `payload.model_dump(exclude_unset=True)`. -/
def WarehouseZoneUpdate.patch (payload : WarehouseZoneUpdate) :
    ZoneColumn → Option (Option ZoneCell)
  | .name => payload.name.map (Option.map .text)
  | .type => payload.type.map (Option.map .zoneType)
  | .capacityUnits => payload.capacityUnits.map (Option.map .units)
  | .isActive => payload.isActive.map (Option.map .flag)
  | .deletedAt => none
  | .deletedBy => none

/-- The tables. -/
structure ZoneDb where
  facilities : List Facility
  zones : List WarehouseZone

/-! ## What the database answers -/

/-- The columns that may not be NULL. -/
def ZoneColumn.required : List ZoneColumn := [.name, .type, .capacityUnits, .isActive]

/-- `ck_warehouse_zones_capacity_positive`; NULL passes. -/
def capacityPositive : Option ZoneCell → Bool
  | some (.units n) => decide (0 < n)
  | _ => true

/-- The constraint that the columns of a row violate. -/
def zoneViolation (cells : ZoneColumn → Option ZoneCell) : Option IntegrityError :=
  if ZoneColumn.required.any fun column => (cells column).isNone then
    some ⟨.notNullViolation, ""⟩
  else if !capacityPositive (cells .capacityUnits) then
    some ⟨.checkViolation, "ck_warehouse_zones_capacity_positive"⟩
  else none

/-- The answer to the `INSERT` of a zone. -/
def insertZone (zone : WarehouseZone) (db : ZoneDb) : Except Failure ZoneDb :=
  let zones := db.zones ++ [zone]
  match zoneViolation zone.cells with
  | some error => .error (.integrity error)
  | none =>
    if ¬ Table.Keyed WarehouseZone.id zones then
      .error (.integrity ⟨.uniqueViolation, "pk_warehouse_zones"⟩)
    else if ¬ (zones.map WarehouseZone.sign).Nodup then
      .error (.integrity ⟨.uniqueViolation, "uq_warehouse_zone_code"⟩)
    else if !db.facilities.any (·.id == zone.warehouseId) then
      .error (.integrity ⟨.foreignKeyViolation, "fk_warehouse_zones_warehouse_id_warehouses"⟩)
    else .ok { db with zones := zones }

/-- An `UPDATE` of a zone stamps `updated_at`. -/
def zoneLayout : Layout WarehouseZone (Nat × String) ZoneColumn ZoneCell where
  key := WarehouseZone.id
  name := WarehouseZone.sign
  cells := WarehouseZone.cells
  store := fun cells now zone => { zone with cells := cells, updatedAt := now }
  key_store := fun _ _ _ => rfl
  name_store := fun _ _ _ => rfl
  cells_store := fun _ _ _ => rfl

/-- The answer to the `UPDATE` of a zone. -/
def updateZoneRow (id : Nat) (loaded copy : ZoneColumn → Option ZoneCell) (now : Nat)
    (db : ZoneDb) : Except Failure ZoneDb :=
  match Table.lookup WarehouseZone.id db.zones id with
  | none => .error .staleData
  | some row =>
    match zoneViolation (zoneLayout.written id loaded copy now row).cells with
    | some error => .error (.integrity error)
    | none => .ok { db with zones := db.zones.map (zoneLayout.written id loaded copy now) }

/-! ## The transactions -/

/-- A transaction body on zones. -/
abbrev ZoneTxn := Txn ZoneDb Nat Failure

/-- `get_zone`, and the refusal of a zone that is not there. -/
def getZone (zoneId : Nat) (db : ZoneDb) : Except Failure WarehouseZone :=
  match (Table.lookup WarehouseZone.id db.zones zoneId).filter (·.isLive) with
  | none => .error (.domain (notFoundError "Zone not found."))
  | some zone => .ok zone

/-- The role gate of the endpoints. -/
def requireOperatorOrAdmin (principal : Principal) : Except Failure Unit :=
  match principal.require [.admin, .warehouseOperator] with
  | .ok () => .ok ()
  | .error error => .error (.domain error)

/-- `WarehouseService.add_zone`: the code is left to its unique constraint. -/
def addZone (warehouseId : Nat) (payload : WarehouseZoneCreate) (principal : Principal) :
    ZoneTxn WarehouseZone := do
  Txn.ofExcept (requireOperatorOrAdmin principal)
  let facility ← Txn.select fun db => db.facilities.find? (·.id == warehouseId)
  Txn.ofExcept (assertCanManage facility warehouseId principal)
  let id ← Txn.freshId
  let createdAt ← Txn.now
  let updatedAt ← Txn.now
  let zone : WarehouseZone :=
    { id := id
      warehouseId := warehouseId
      code := payload.code
      cells := fun
        | .name => some (.text payload.name)
        | .type => some (.zoneType payload.type)
        | .capacityUnits => some (.units payload.capacityUnits)
        | .isActive => some (.flag true)
        | .deletedAt => none
        | .deletedBy => none
      createdAt := createdAt
      updatedAt := updatedAt }
  -- a row that is inserted is locked
  Txn.lock id (.pure ())
  Txn.write (insertZone zone)
  return zone

/-- A zone that may be managed. Loading its warehouse loads the zones of it that are not deleted
again, and refreshes the copy of this one if it is among them. -/
def loadZone (zoneId : Nat) (principal : Principal) : ZoneTxn WarehouseZone := do
  Txn.ofExcept (requireOperatorOrAdmin principal)
  let found ← Txn.select (getZone zoneId)
  let zone ← Txn.ofExcept found
  let facility ← Txn.select fun db => db.facilities.find? (·.id == zone.warehouseId)
  let zone ← Txn.select fun db =>
    (((Table.lookup WarehouseZone.id db.zones zoneId).filter fun row =>
      row.isLive && row.warehouseId == zone.warehouseId).getD zone)
  Txn.ofExcept (assertCanManage facility zone.warehouseId principal)
  return zone

/-- The flush of a copy: columns that were not changed are not written, and without a change there
is no `UPDATE`. -/
def flushZone (zone : WarehouseZone) (copy : ZoneColumn → Option ZoneCell) :
    ZoneTxn WarehouseZone :=
  if [ZoneColumn.name, .type, .capacityUnits, .isActive, .deletedAt, .deletedBy].all
      fun column => copy column == zone.cells column then
    return zone
  else do
    let now ← Txn.now
    Txn.lock zone.id (.pure ())
    Txn.write (updateZoneRow zone.id zone.cells copy now)
    return { zone with cells := copy, updatedAt := now }

/-- `WarehouseService.update_zone`: the fields that the body sets are set on the copy. -/
def updateZone (zoneId : Nat) (payload : WarehouseZoneUpdate) (principal : Principal) :
    ZoneTxn WarehouseZone := do
  let zone ← loadZone zoneId principal
  flushZone zone (Patch.apply payload.patch zone.cells)

/-- What `delete_zone` sets. -/
def deletionPatch (principal : Principal) (now : Nat) : ZoneColumn → Option (Option ZoneCell)
  | .isActive => some (some (.flag false))
  | .deletedAt => some (some (.time now))
  | .deletedBy => some (some (.uuid principal.userId))
  | _ => none

/-- `WarehouseService.delete_zone`: a soft delete. -/
def deleteZone (zoneId : Nat) (principal : Principal) : ZoneTxn WarehouseZone := do
  let zone ← loadZone zoneId principal
  let now ← Txn.now
  flushZone zone (Patch.apply (deletionPatch principal now) zone.cells)

/-- The zones that the detail of a warehouse shows. -/
def liveZones (warehouseId : Nat) (db : ZoneDb) : List WarehouseZone :=
  (db.zones.filter fun zone => zone.warehouseId == warehouseId && zone.isLive).insertionSort
    fun a b => a.code ≤ b.code

/-- A request on zones. -/
inductive ZoneOp
  | add (warehouseId : Nat) (payload : WarehouseZoneCreate) (principal : Principal)
  | update (zoneId : Nat) (payload : WarehouseZoneUpdate) (principal : Principal)
  | delete (zoneId : Nat) (principal : Principal)

/-- Who asks for it. -/
def ZoneOp.principal : ZoneOp → Principal
  | .add _ _ principal => principal
  | .update _ _ principal => principal
  | .delete _ principal => principal

/-- The transaction of a request. -/
def zoneProgram : ZoneOp → ZoneTxn WarehouseZone
  | .add warehouseId payload principal => addZone warehouseId payload principal
  | .update zoneId payload principal => updateZone zoneId payload principal
  | .delete zoneId principal => deleteZone zoneId principal

/-- Any number of requests on zones; the rest of the service writes `warehouses`. -/
def zones : System ZoneDb Nat Failure WarehouseZone ZoneOp (List Facility) where
  program := zoneProgram
  env := fun facilities db => { db with facilities := facilities }

/-! ## What the requests promise each other -/

/-- The principal may manage the warehouse: an admin, or an operator it is assigned to. -/
def Manages (principal : Principal) (warehouseId : Nat) : Prop :=
  principal.isAdmin = true ∨
    principal.role = .warehouseOperator ∧ warehouseId ∈ principal.warehouseIds

theorem manages_of_assertCanManage {facility : Option Facility} {warehouseId : Nat}
    {principal : Principal} (h : assertCanManage facility warehouseId principal = .ok ()) :
    Manages principal warehouseId := by
  unfold assertCanManage at h
  split at h
  · cases h
  split at h
  · rename_i hadmin
    exact Or.inl hadmin
  split at h
  · rename_i hmay
    obtain ⟨hrole, hscope⟩ := Bool.and_eq_true_iff.1 hmay
    have hrole' : principal.role = .warehouseOperator := by simpa using hrole
    refine Or.inr ⟨hrole', ?_⟩
    simpa [Principal.mayTouchWarehouse, Principal.seesAllWarehouses, hrole'] using hscope
  · cases h

/-- What may become of a zone: it is not created anew, and a deleted zone stays deleted. -/
structure WarehouseZone.Kept (zone zone' : WarehouseZone) : Prop where
  createdAt : zone'.createdAt = zone.createdAt
  deleted : zone.isLive = false → zone'.isLive = false

theorem WarehouseZone.Kept.refl (zone : WarehouseZone) : zone.Kept zone :=
  ⟨rfl, fun hdel => hdel⟩

theorem WarehouseZone.Kept.trans {a b c : WarehouseZone} (h : a.Kept b) (h' : b.Kept c) :
    a.Kept c := ⟨h'.createdAt.trans h.createdAt, fun hdel => h'.deleted (h.deleted hdel)⟩

/-- The constraints of the table, and the codes of the validated payloads. -/
structure ZoneDb.Constraints (db : ZoneDb) : Prop where
  registry : Registry WarehouseZone.id WarehouseZone.sign db.zones
  columns : ∀ zone ∈ db.zones, zoneViolation zone.cells = none
  codes : ∀ zone ∈ db.zones, isZoneCode zone.code = true

/-- The zone that a request rewrites, and the patch it writes. -/
inductive ZoneOp.Patches : ZoneOp → Nat → (ZoneColumn → Option (Option ZoneCell)) → Prop
  | update (zoneId : Nat) (payload : WarehouseZoneUpdate) (principal : Principal) :
    Patches (.update zoneId payload principal) zoneId payload.patch
  | delete (zoneId : Nat) (principal : Principal) (now : Nat) :
    Patches (.delete zoneId principal) zoneId (deletionPatch principal now)

/-- What a request that was opened in `opened` and answers with `answered` does to the zones. -/
inductive ZoneEffect (opened : ZoneDb) (answered : WarehouseZone) (db db' : ZoneDb) :
    ZoneOp → Prop
  | add {warehouseId : Nat} {payload : WarehouseZoneCreate} {principal : Principal}
    (hmanages : Manages principal warehouseId) (zone : WarehouseZone)
    (hsign : zone.sign = (warehouseId, payload.code)) (hzones : db'.zones = db.zones ++ [zone]) :
    ZoneEffect opened answered db db' (.add warehouseId payload principal)
  | rewrite {op : ZoneOp} {zoneId : Nat} {patch : ZoneColumn → Option (Option ZoneCell)}
    (hpatch : op.Patches zoneId patch) (row : WarehouseZone) (hrow : row ∈ db.zones)
    (hid : row.id = zoneId) (hmanages : Manages op.principal row.warehouseId)
    (hlive : ∀ zone ∈ opened.zones, zone.id = zoneId → zone.isLive = true)
    (loaded : ZoneColumn → Option ZoneCell) (hloaded : loaded .deletedAt = none)
    (hanswered : answered.cells = Patch.apply patch loaded)
    (hzones : (∀ column, Patch.apply patch loaded column = loaded column) ∧ db'.zones = db.zones ∨
      ∃ now, db'.zones =
        db.zones.map (zoneLayout.written zoneId loaded (Patch.apply patch loaded) now)) :
    ZoneEffect opened answered db db' op

/-- A request locks the row it adds or writes; rows stay, under their codes. -/
def zoneDiscipline : Discipline ZoneDb Nat Failure WarehouseZone ZoneOp where
  inv := ZoneDb.Constraints
  same := fun id db db' => ∀ zone : WarehouseZone, zone.id = id →
    (zone ∈ db.zones ↔ zone ∈ db'.zones)
  grow := fun db db' =>
    Continues WarehouseZone.id WarehouseZone.sign WarehouseZone.Kept db.zones db'.zones
  lockFact := fun _ _ _ _ => True
  flushFact := fun _ _ => True
  post := fun op opened _ answered _ db db' => ZoneEffect opened answered db db' op
  same_refl := fun _ _ _ _ => Iff.rfl
  same_trans := fun h h' zone hid => (h zone hid).trans (h' zone hid)
  grow_refl := fun _ => .refl .refl _
  grow_trans := fun h h' => h.trans (fun h h' => h.trans h') h'

/-! ## The writes -/

theorem insertZone_eq_ok {zone : WarehouseZone} {db db' : ZoneDb}
    (h : insertZone zone db = .ok db') :
    db'.zones = db.zones ++ [zone] ∧ zoneViolation zone.cells = none ∧
      Registry WarehouseZone.id WarehouseZone.sign db'.zones := by
  simp only [insertZone] at h
  split at h
  · cases h
  rename_i hcells
  split at h
  · cases h
  rename_i hkeyed
  split at h
  · cases h
  rename_i hunique
  split at h
  · cases h
  cases h
  exact ⟨rfl, hcells, not_not.1 hkeyed, not_not.1 hunique⟩

/-- A zone is added. -/
theorem guar_insertZone {held : Nat → Prop} {zone : WarehouseZone} {db db' : ZoneDb}
    (hinv : db.Constraints) (hheld : held zone.id) (hcode : isZoneCode zone.code = true)
    (h : insertZone zone db = .ok db') : zoneDiscipline.Guar held db db' := by
  obtain ⟨hzones, hcells, hreg⟩ := insertZone_eq_ok h
  refine ⟨⟨hreg, ?_, ?_⟩, ?_, fun id hid other hother => ?_⟩
  · rw [hzones]
    simpa [or_imp, forall_and] using ⟨hinv.columns, hcells⟩
  · rw [hzones]
    simpa [or_imp, forall_and] using ⟨hinv.codes, hcode⟩
  · change Continues _ _ _ _ _
    rw [hzones]
    exact continues_append .refl _ _
  · rw [hzones]
    have hne : other ≠ zone := fun heq => hid (hother ▸ heq ▸ hheld)
    simp [hne]

section Written

variable {id now : Nat} {loaded copy : ZoneColumn → Option ZoneCell}

theorem updateZoneRow_eq_ok {db db' : ZoneDb} (h : updateZoneRow id loaded copy now db = .ok db') :
    ∃ row ∈ db.zones, row.id = id ∧
      zoneViolation (zoneLayout.written id loaded copy now row).cells = none ∧
      db'.zones = db.zones.map (zoneLayout.written id loaded copy now) := by
  simp only [updateZoneRow] at h
  split at h
  · cases h
  rename_i row hrow
  split at h
  · cases h
  rename_i hcells
  cases h
  obtain ⟨hmem, hid⟩ := Table.mem_of_lookup hrow
  exact ⟨row, hmem, hid, hcells, rfl⟩

variable {patch : ZoneColumn → Option (Option ZoneCell)}

/-- A deleted zone stays deleted under a patch that does not clear the mark. -/
theorem WarehouseZone.kept_written (zone : WarehouseZone) (hpatch : patch .deletedAt ≠ some none) :
    zone.Kept (zoneLayout.written id loaded (Patch.apply patch loaded) now zone) := by
  by_cases hid : zoneLayout.key zone = id
  · refine ⟨by rw [Layout.written, if_pos hid]; rfl, fun hdel => ?_⟩
    rw [WarehouseZone.isLive] at hdel ⊢
    have hcells : (zoneLayout.written id loaded (Patch.apply patch loaded) now zone).cells =
        Patch.update loaded (Patch.apply patch loaded) zone.cells := Layout.cells_written hid
    rw [hcells]
    rcases Patch.update_apply patch loaded zone.cells .deletedAt with heq | heq
    · rw [heq]
      exact hdel
    · cases hcell : Patch.update loaded (Patch.apply patch loaded) zone.cells .deletedAt with
      | none => exact absurd (heq.trans (congrArg some hcell)) hpatch
      | some cell => rfl
  · rw [Layout.written_of_ne hid]
    exact .refl zone

/-- A zone is rewritten. -/
theorem guar_updateZoneRow {held : Nat → Prop} {db db' : ZoneDb} (hinv : db.Constraints)
    (hheld : held id) (hpatch : patch .deletedAt ≠ some none)
    (h : updateZoneRow id loaded (Patch.apply patch loaded) now db = .ok db') :
    zoneDiscipline.Guar held db db' := by
  obtain ⟨row, hrow, hid, hcells, hzones⟩ := updateZoneRow_eq_ok h
  have hcode : ∀ zone : WarehouseZone,
      (zoneLayout.written id loaded (Patch.apply patch loaded) now zone).code = zone.code :=
    fun zone => congrArg Prod.snd (Layout.name_written (T := zoneLayout) zone)
  refine ⟨⟨?_, ?_, ?_⟩, ?_, fun other hother zone hzone => ?_⟩
  · rw [hzones]
    exact Layout.registry_written (T := zoneLayout) hinv.registry
  · rw [hzones]
    exact Layout.forall_map_written (T := zoneLayout) hinv.registry.keyed hinv.columns hrow hid
      hcells
  · rw [hzones]
    exact Layout.forall_map_written (T := zoneLayout) hinv.registry.keyed hinv.codes hrow hid
      ((hcode row).symm ▸ hinv.codes row hrow)
  · change Continues _ _ _ _ _
    rw [hzones]
    exact continues_map fun zone _ => ⟨Layout.key_written (T := zoneLayout) zone,
      Layout.name_written (T := zoneLayout) zone, zone.kept_written hpatch⟩
  · rw [hzones]
    have hne : zone.id ≠ id := fun heq => hother (hzone ▸ heq ▸ hheld)
    exact (Layout.mem_map_written_iff (T := zoneLayout) hne).symm

end Written

/-! ## The obligations -/

theorem ZoneOp.Patches.deletedAt_ne {op : ZoneOp} {zoneId : Nat}
    {patch : ZoneColumn → Option (Option ZoneCell)} (h : op.Patches zoneId patch) :
    patch .deletedAt ≠ some none := by
  cases h with
  | update zoneId payload principal => simp [WarehouseZoneUpdate.patch]
  | delete zoneId principal now => simp [deletionPatch]

variable {op : ZoneOp} {v : View ZoneDb Nat Failure}

/-- The rule of `loadZone`: a copy that is live, of a zone that the principal may manage. A zone
that was deleted before is not loaded. -/
theorem wp_loadZone {zoneId : Nat} {principal : Principal}
    {Q : WarehouseZone → View ZoneDb Nat Failure → Prop} (hp : v.pending = .ok)
    (h : ∀ zone n db, zoneDiscipline.Rely v n db → zone.id = zoneId → zone.isLive = true →
      Manages principal zone.warehouseId →
      (∃ row ∈ db.zones, row.id = zoneId ∧ row.warehouseId = zone.warehouseId) →
      (∀ old ∈ v.db.zones, old.id = zoneId → old.isLive = true) → Q zone (v.later n db)) :
    zoneDiscipline.wp op (loadZone zoneId principal) Q v := by
  refine Discipline.wp_bind _ _ (Discipline.wp_ofExcept fun _ _ => ?_)
  refine Discipline.wp_bind _ _ (Discipline.wp_select hp fun n₁ db₁ h₁ => ?_)
  refine Discipline.wp_bind _ _ (Discipline.wp_ofExcept fun found hfound => ?_)
  refine Discipline.wp_bind _ _ (Discipline.wp_select hp fun n₂ db₂ h₂ => ?_)
  refine Discipline.wp_bind _ _ (Discipline.wp_select hp fun n₃ db₃ h₃ => ?_)
  refine Discipline.wp_bind _ _ (Discipline.wp_ofExcept fun _ hmanage => ?_)
  -- the zone as it was found
  have hget : found ∈ db₁.zones ∧ found.id = zoneId ∧ found.isLive = true := by
    unfold getZone at hfound
    split at hfound
    · cases hfound
    · rename_i zone hzone
      cases hfound
      obtain ⟨hlookup, hlive⟩ := Option.filter_eq_some_iff.1 hzone
      obtain ⟨hmem, hid⟩ := Table.mem_of_lookup hlookup
      exact ⟨hmem, hid, hlive⟩
  obtain ⟨hmem, hid, hlive⟩ := hget
  obtain ⟨row, hrow, hrowid, hrowsign, -⟩ := (h₂.trans h₃).grow found hmem
  -- the copy once it is refreshed
  have hcopy : ∀ zone, ((Table.lookup WarehouseZone.id db₃.zones zoneId).filter fun row =>
      row.isLive && row.warehouseId == found.warehouseId).getD found = zone →
      zone.id = zoneId ∧ zone.isLive = true ∧ zone.warehouseId = found.warehouseId := by
    rintro zone rfl
    cases hfresh : (Table.lookup WarehouseZone.id db₃.zones zoneId).filter fun row =>
        row.isLive && row.warehouseId == found.warehouseId with
    | none => exact ⟨hid, hlive, rfl⟩
    | some fresh =>
      obtain ⟨hlookup, hcond⟩ := Option.filter_eq_some_iff.1 hfresh
      rw [Bool.and_eq_true, beq_iff_eq] at hcond
      exact ⟨(Table.mem_of_lookup hlookup).2, hcond⟩
  obtain ⟨hcopyid, hcopylive, hcopywarehouse⟩ := hcopy _ rfl
  refine h _ n₃ db₃ (h₁.trans (h₂.trans h₃)) hcopyid hcopylive (manages_of_assertCanManage hmanage)
    ⟨row, hrow, hrowid.trans hid, ?_⟩ fun old hold hidold => ?_
  · rw [hcopywarehouse]
    exact congrArg Prod.fst hrowsign
  · by_contra hdeleted
    have hkept := (h₁.grow.row h₁.inv.registry.keyed hold hmem (hid.trans hidold.symm)).2
    rw [hkept.deleted (by simpa using hdeleted)] at hlive
    cases hlive

/-- The rule of the flush, at the end of a request. -/
theorem wp_flushZone {opened : ZoneDb} {zone : WarehouseZone}
    {patch : ZoneColumn → Option (Option ZoneCell)} (hp : v.pending = .ok)
    (hpatch : op.Patches zone.id patch) (hlive : zone.isLive = true)
    (hmanages : Manages op.principal zone.warehouseId)
    (hrow : ∃ row ∈ v.db.zones, row.id = zone.id ∧ row.warehouseId = zone.warehouseId)
    (hopened : ∀ old ∈ opened.zones, old.id = zone.id → old.isLive = true) :
    zoneDiscipline.wp op (flushZone zone (Patch.apply patch zone.cells))
      (zoneDiscipline.Commits op opened) v := by
  -- whenever the request commits, the row is there, in the warehouse it was in
  have heffect : ∀ answered n db db', answered.cells = Patch.apply patch zone.cells →
      zoneDiscipline.Rely v n db →
      ((∀ column, Patch.apply patch zone.cells column = zone.cells column) ∧
          db'.zones = db.zones ∨
        ∃ now, db'.zones = db.zones.map
          (zoneLayout.written zone.id zone.cells (Patch.apply patch zone.cells) now)) →
      ZoneEffect opened answered db db' op := by
    intro answered n db db' hanswered hr hzones
    obtain ⟨row, hmem, hid, hwarehouse⟩ := hrow
    obtain ⟨row', hmem', hid', hsign, -⟩ := hr.grow row hmem
    refine .rewrite hpatch row' hmem' (hid'.trans hid) ?_ hopened zone.cells
      (Option.isNone_iff_eq_none.1 hlive) hanswered hzones
    rw [show row'.warehouseId = zone.warehouseId from
      (congrArg Prod.fst hsign).trans hwarehouse]
    exact hmanages
  unfold flushZone
  split
  · rename_i hsame
    intro n db hr db' hpending
    rw [hp] at hpending
    cases hpending
    have hcopy : ∀ column, Patch.apply patch zone.cells column = zone.cells column := by
      intro column
      have hcolumn := List.all_eq_true.1 hsame column (by cases column <;> simp)
      simpa using hcolumn
    exact ⟨⟨hr.inv, zoneDiscipline.grow_refl _, fun r _ => zoneDiscipline.same_refl r _⟩,
      heffect zone n db db (funext hcopy).symm hr (Or.inl ⟨hcopy, rfl⟩)⟩
  · refine Discipline.wp_bind _ _ (Discipline.wp_now fun now db₁ h₁ => ?_)
    refine Discipline.wp_bind _ _ fun n₂ db₂ h₂ => ⟨trivial, ?_⟩
    refine Discipline.wp_bind _ _ (Discipline.wp_write fun n₃ db₃ h₃ _ _ =>
      ⟨fun _ _ => trivial, fun _ _ => ?_⟩)
    intro n db hr db' hpending
    obtain ⟨view, hview, hupdate⟩ := View.flushed_pending_eq_ok.1 hpending
    have hview' : (.ok db : Except Failure ZoneDb) = .ok view := by rw [← hview]; simp [hp]
    cases hview'
    have hrely : zoneDiscipline.Rely v n db :=
      h₁.trans (h₂.trans (h₃.ungranted.trans hr.unflushed.ungranted))
    obtain ⟨row, -, -, -, hzones⟩ := updateZoneRow_eq_ok hupdate
    refine ⟨guar_updateZoneRow hr.inv ?_ hpatch.deletedAt_ne hupdate,
      heffect _ n db db' rfl hrely (Or.inr ⟨now, hzones⟩)⟩
    exact Or.inl (List.mem_singleton.2 rfl)

theorem meets_addZone (warehouseId : Nat) (payload : WarehouseZoneCreate) (principal : Principal)
    (now : Nat) (db : ZoneDb) :
    zoneDiscipline.Meets (.add warehouseId payload principal) db
      (addZone warehouseId payload principal) ⟨fun _ => False, .ok, now, db⟩ := by
  refine Discipline.wp_bind _ _ (Discipline.wp_ofExcept fun _ _ => ?_)
  refine Discipline.wp_bind _ _ (Discipline.wp_select rfl fun n₁ db₁ h₁ => ?_)
  refine Discipline.wp_bind _ _ (Discipline.wp_ofExcept fun _ hmanage => ?_)
  refine Discipline.wp_bind _ _ (Discipline.wp_freshId fun id => ?_)
  refine Discipline.wp_bind _ _ (Discipline.wp_now fun createdAt db₂ h₂ => ?_)
  refine Discipline.wp_bind _ _ (Discipline.wp_now fun updatedAt db₃ h₃ => ?_)
  refine Discipline.wp_bind _ _ fun n₄ db₄ h₄ => ⟨trivial, ?_⟩
  refine Discipline.wp_bind _ _ (Discipline.wp_write fun n₅ db₅ h₅ _ _ =>
    ⟨fun _ _ => trivial, fun _ _ => ?_⟩)
  intro n db₆ hr db' hpending
  obtain ⟨view, hview, hinsert⟩ := View.flushed_pending_eq_ok.1 hpending
  cases hview
  constructor
  · refine guar_insertZone hr.inv ?_ ?_ hinsert
    · exact Or.inl (List.mem_singleton.2 rfl)
    · exact payload.code_valid
  · refine ZoneEffect.add (manages_of_assertCanManage hmanage) _ ?_ (insertZone_eq_ok hinsert).1
    rfl

theorem meets_updateZone (zoneId : Nat) (payload : WarehouseZoneUpdate) (principal : Principal)
    (now : Nat) (db : ZoneDb) :
    zoneDiscipline.Meets (.update zoneId payload principal) db
      (updateZone zoneId payload principal) ⟨fun _ => False, .ok, now, db⟩ := by
  refine Discipline.wp_bind _ _
    (wp_loadZone rfl fun zone n db₁ h₁ hid hlive hmanages hrow hold => ?_)
  subst hid
  exact wp_flushZone rfl (.update _ payload principal) hlive hmanages hrow hold

theorem meets_deleteZone (zoneId : Nat) (principal : Principal) (now : Nat) (db : ZoneDb) :
    zoneDiscipline.Meets (.delete zoneId principal) db (deleteZone zoneId principal)
      ⟨fun _ => False, .ok, now, db⟩ := by
  refine Discipline.wp_bind _ _
    (wp_loadZone rfl fun zone n db₁ h₁ hid hlive hmanages hrow hold => ?_)
  refine Discipline.wp_bind _ _ (Discipline.wp_now fun time db₂ h₂ => ?_)
  subst hid
  obtain ⟨row, hmem, hrowid, hwarehouse⟩ := hrow
  obtain ⟨row', hmem', hid', hsign, -⟩ := h₂.grow row hmem
  exact wp_flushZone rfl (.delete _ principal time) hlive hmanages
    ⟨row', hmem', hid'.trans hrowid, (congrArg Prod.fst hsign).trans hwarehouse⟩ hold

theorem zoneDiscipline_governs : zoneDiscipline.Governs zones where
  program := by
    intro op now db _
    cases op with
    | add warehouseId payload principal => exact meets_addZone warehouseId payload principal now db
    | update zoneId payload principal => exact meets_updateZone zoneId payload principal now db
    | delete zoneId principal => exact meets_deleteZone zoneId principal now db
  env := fun _ db hdb => ⟨⟨hdb.registry, hdb.columns, hdb.codes⟩, zoneDiscipline.grow_refl db,
    fun _ _ _ _ => Iff.rfl⟩

/-! ## Runs -/

/-- A configuration of the requests on zones. -/
abbrev ZoneConfig := Config ZoneDb Nat Failure WarehouseZone ZoneOp

/-- A scheduler choice. -/
abbrev ZoneLabel := Label ZoneOp (List Facility)

/-- A configuration some run reaches from a database without zones. -/
def ReachableZones (c : ZoneConfig) : Prop :=
  ∃ facilities, zones.machine.Run (.idle ⟨facilities, []⟩) c

theorem constraints_empty (facilities : List Facility) :
    ZoneDb.Constraints ⟨facilities, []⟩ where
  registry := ⟨List.nodup_nil, List.nodup_nil⟩
  columns := fun _ h => absurd h List.not_mem_nil
  codes := fun _ h => absurd h List.not_mem_nil

theorem ReachableZones.sound {c : ZoneConfig} (h : ReachableZones c) : c.Sound zoneDiscipline := by
  obtain ⟨facilities, hrun⟩ := h
  exact sound_of_run zoneDiscipline_governs (Config.sound_idle (constraints_empty facilities)) hrun

/-- A request from its start, with the id it draws if it draws one. -/
def zoneRequest (t : Nat) (op : ZoneOp) (statements draw : Nat) : List ZoneLabel :=
  .start t op :: .replicate statements (.step t draw)

/-- An admin. -/
def zoneAdmin : Principal := ⟨1, .admin, [], none⟩

/-- An operator of warehouse 7. -/
def zoneOperator : Principal := ⟨2, .warehouseOperator, [7], none⟩

/-- Zone A1 of warehouse 7. -/
def addA1 : List ZoneLabel := zoneRequest 0
  (.add 7
    { code := "A1"
      name := "Ambient"
      type := .storage
      capacityUnits := 100
      code_valid := by decide
      name_length := by decide
      capacity_pos := by decide } zoneAdmin) 7 40

/-- The operator renames the zone. -/
def renameA1 : List ZoneLabel := zoneRequest 0
  (.update 40
    { name := some (some "Cold")
      type := none
      capacityUnits := none
      isActive := none
      name_length := by simp +decide
      capacity_pos := by simp } zoneOperator) 7 0

/-- The operator deletes the zone; the commit is left out. -/
def deleteA1 : List ZoneLabel := zoneRequest 0 (.delete 40 zoneOperator) 7 0

/-- Warehouse 7 without zones. -/
def noZones : ZoneConfig := .idle ⟨[⟨7, none⟩], []⟩

/-- What an answered request has done. -/
theorem effect_of_answer {c c' : ZoneConfig} {l : ZoneLabel} (hc : c.Sound zoneDiscipline)
    (hnext : zones.machine.next c l = some c') {op : ZoneOp} {a : WarehouseZone}
    (hanswer : c.delivered l = some (op, a)) :
    ∃ opened, ZoneEffect opened a c.db c'.db op ∧ c'.db.Constraints := by
  have hstep : zones.next c l = some c' := hnext
  rcases zones.delivered_cases hstep with ⟨hnone, -⟩ |
    ⟨t, draw, s, b, -, hs, hprog, hpending, hdelivered⟩
  · rw [hanswer] at hnone
    cases hnone
  · rw [hanswer] at hdelivered
    cases hdelivered
    exact ⟨s.opened, (hc.commit hs hprog hpending).2, (hc.next zoneDiscipline_governs hstep).inv⟩

/-- No request adds a zone under a code that its warehouse has given out. -/
theorem not_added_again {c c' : ZoneConfig} {l : ZoneLabel} (hc : c.Sound zoneDiscipline)
    (hnext : zones.machine.next c l = some c') {zone : WarehouseZone} (hzone : zone ∈ c.db.zones)
    {payload : WarehouseZoneCreate} (hcode : payload.code = zone.code) (principal : Principal)
    (a : WarehouseZone) :
    c.delivered l ≠ some (.add zone.warehouseId payload principal, a) := by
  intro hanswer
  obtain ⟨opened, heffect, hinv⟩ := effect_of_answer hc hnext hanswer
  cases heffect with
  | add _ new hsign hzones =>
    refine not_registry_append hzone (hsign.trans ?_) (hzones ▸ hinv.registry)
    exact congrArg (Prod.mk zone.warehouseId) hcode
  | rewrite hpatch => cases hpatch

/-- A code of a warehouse names one zone for ever: the zone that was added under it stays, deleted
or not, no other zone has the code, and no request adds one. -/
theorem zone_of_code {c c' : ZoneConfig} (h : ReachableZones c) (hrun : zones.machine.Run c c')
    {zone : WarehouseZone} (hzone : zone ∈ c.db.zones) :
    (∃ zone' ∈ c'.db.zones, zone'.id = zone.id ∧ zone.Kept zone' ∧
      ∀ other ∈ c'.db.zones, other.sign = zone.sign ↔ other = zone') ∧
    ∀ (l : ZoneLabel) c'', zones.machine.next c' l = some c'' →
      ∀ payload : WarehouseZoneCreate, payload.code = zone.code → ∀ principal a,
        c'.delivered l ≠ some (.add zone.warehouseId payload principal, a) := by
  have hregistry : ∀ db, zoneDiscipline.inv db →
      Registry WarehouseZone.id WarehouseZone.sign db.zones := fun _ hinv => hinv.registry
  obtain ⟨zone', hzone', hid, hkept, hholder⟩ := holder_of_run zoneDiscipline_governs h.sound
    hregistry (fun _ _ hgrow => hgrow) hrun hzone
  refine ⟨⟨zone', hzone', hid, hkept, hholder⟩, fun l c'' hnext payload hcode principal a => ?_⟩
  have hsign : zone'.sign = zone.sign := (hholder zone' hzone').2 rfl
  have hnot := not_added_again (sound_of_run zoneDiscipline_governs h.sound hrun) hnext hzone'
    (hcode.trans (congrArg Prod.snd hsign).symm) principal a
  rwa [show zone'.warehouseId = zone.warehouseId from congrArg Prod.fst hsign] at hnot

theorem zone_of_code_after_deletion :
    ∃ c c' : ZoneConfig,
      c.db.zones.map (fun zone => (zone.sign, zone.isLive)) = [((7, "A1"), true)] ∧
      c'.db.zones.map (fun zone => (zone.sign, zone.isLive)) = [((7, "A1"), false)] ∧
      ∀ zone ∈ c.db.zones,
        (∃ zone' ∈ c'.db.zones, zone'.id = zone.id ∧ zone.Kept zone' ∧
          ∀ other ∈ c'.db.zones, other.sign = zone.sign ↔ other = zone') ∧
        ∀ (l : ZoneLabel) c'', zones.machine.next c' l = some c'' →
          ∀ payload : WarehouseZoneCreate, payload.code = zone.code → ∀ principal a,
            c'.delivered l ≠ some (.add zone.warehouseId payload principal, a) := by
  have hrun : (zones.machine.exec noZones addA1).bind (fun c =>
      (zones.machine.exec c (deleteA1 ++ [.step 0 0])).map fun c' =>
        (c.db.zones.map fun zone => (zone.sign, zone.isLive),
          c'.db.zones.map fun zone => (zone.sign, zone.isLive))) =
      some ([((7, "A1"), true)], [((7, "A1"), false)]) := by
    decide +kernel
  obtain ⟨c, hc, hrest⟩ := Option.bind_eq_some_iff.1 hrun
  obtain ⟨c', hc', hshown⟩ := Option.map_eq_some_iff.1 hrest
  rw [Prod.mk.injEq] at hshown
  exact ⟨c, c', hshown.1, hshown.2, fun zone hzone =>
    zone_of_code ⟨_, Machine.run_of_exec _ hc⟩ (Machine.run_of_exec _ hc') hzone⟩

/-- What a request that answers with `answered` gives a column of the zone with this id and place:
what its patch says, which the answer shows. -/
def ZoneOp.Gives (op : ZoneOp) (answered : WarehouseZone) (zoneId : Nat) (sign : Nat × String)
    (column : ZoneColumn) (value : Option ZoneCell) : Prop :=
  Manages op.principal sign.1 ∧
    ∃ patch, op.Patches zoneId patch ∧ patch column = some value ∧ answered.cells column = value

theorem ZoneEffect.attributed {opened db db' : ZoneDb} {op : ZoneOp} {answered : WarehouseZone}
    (h : ZoneEffect opened answered db db' op) (hinv : db.Constraints)
    (hinv' : db'.Constraints) :
    Attributed WarehouseZone.id WarehouseZone.sign WarehouseZone.cells (op.Gives answered)
      db.zones db'.zones := by
  cases h with
  | add _ new _ hzones =>
    intro zone hzone zone' hzone' hid column
    have hstay : zone ∈ db'.zones := hzones ▸ List.mem_append_left _ hzone
    exact Or.inl (by rw [hinv'.registry.keyed.eq_of_key hzone' hstay hid])
  | rewrite hpatch row hrow hrowid hmanages _ loaded _ hanswered hzones =>
    rcases hzones with ⟨-, heq⟩ | ⟨now, heq⟩
    · rw [heq]
      exact .refl hinv.registry.keyed
    · rw [heq]
      exact Layout.attributed_written (T := zoneLayout) hinv.registry.keyed hrow hrowid
        fun column value hgives => ⟨hmanages, _, hpatch, hgives, by
          simp [hanswered, Patch.apply, hgives]⟩

/-- What a zone says was said by the requests that were answered: over any run, a column that has
changed holds what the body of an answered request gave it, or a deletion, which is what the answer
shows, and the request came from someone who may manage the zone's warehouse. So the time of a
deletion is the one its request read. -/
theorem zone_changes {c c' : ZoneConfig} (h : ReachableZones c) (ls : List ZoneLabel)
    (hrun : zones.machine.exec c ls = some c') {zone zone' : WarehouseZone}
    (hzone : zone ∈ c.db.zones) (hzone' : zone' ∈ c'.db.zones) (hid : zone'.id = zone.id)
    (column : ZoneColumn) :
    zone'.cells column = zone.cells column ∨ ∃ answer ∈ zones.answers c ls,
      Manages answer.1.principal zone.warehouseId ∧
        ∃ patch, answer.1.Patches zone.id patch ∧ patch column = some (zone'.cells column) ∧
          answer.2.cells column = zone'.cells column :=
  attributed_of_answers zoneDiscipline_governs h.sound (fun _ hinv => hinv.registry.keyed)
    (fun _ _ hgrow => hgrow) (fun _ _ _ _ _ _ _ hinv hinv' heffect => heffect.attributed hinv hinv')
    (fun _ _ => rfl) ls hrun zone hzone zone' hzone' hid column

/-- A zone is renamed by the operator of its warehouse. -/
theorem zone_changes_by_operator :
    ∃ c c' : ZoneConfig, zones.machine.exec c renameA1 = some c' ∧
      ∃ zone ∈ c.db.zones, ∃ zone' ∈ c'.db.zones,
        zone.cells .name = some (.text "Ambient") ∧ zone'.cells .name = some (.text "Cold") ∧
        (zone'.cells .name = zone.cells .name ∨ ∃ answer ∈ zones.answers c renameA1,
          Manages answer.1.principal zone.warehouseId ∧ ∃ patch,
            answer.1.Patches zone.id patch ∧ patch .name = some (zone'.cells .name) ∧
              answer.2.cells .name = zone'.cells .name) := by
  have hrun : (zones.machine.exec noZones addA1).bind (fun c =>
      (zones.machine.exec c renameA1).map fun c' =>
        (c.db.zones.map fun zone => (zone.id, zone.cells .name),
          c'.db.zones.map fun zone => (zone.id, zone.cells .name))) =
      some ([(40, some (.text "Ambient"))], [(40, some (.text "Cold"))]) := by
    decide +kernel
  obtain ⟨c, hc, hrest⟩ := Option.bind_eq_some_iff.1 hrun
  obtain ⟨c', hc', hshown⟩ := Option.map_eq_some_iff.1 hrest
  rw [Prod.mk.injEq] at hshown
  have hbefore : (40, some (ZoneCell.text "Ambient")) ∈
      c.db.zones.map fun zone => (zone.id, zone.cells .name) := by rw [hshown.1]; simp
  have hafter : (40, some (ZoneCell.text "Cold")) ∈
      c'.db.zones.map fun zone => (zone.id, zone.cells .name) := by rw [hshown.2]; simp
  obtain ⟨zone, hzone, heq⟩ := List.mem_map.1 hbefore
  obtain ⟨zone', hzone', heq'⟩ := List.mem_map.1 hafter
  rw [Prod.mk.injEq] at heq heq'
  exact ⟨c, c', hc', zone, hzone, zone', hzone', heq.2, heq'.2,
    zone_changes ⟨_, Machine.run_of_exec _ hc⟩ renameA1 hc' hzone hzone' (heq'.1.trans heq.1.symm)
      .name⟩

/-- A deletion that is answered leaves its zone deleted. -/
theorem ZoneEffect.deleted {opened db db' : ZoneDb} {answered : WarehouseZone} {zoneId : Nat}
    {principal : Principal} (h : ZoneEffect opened answered db db' (.delete zoneId principal)) :
    ∃ zone ∈ db'.zones, zone.id = zoneId ∧ zone.isLive = false := by
  cases h with
  | rewrite hpatch row hrow hrowid _ _ loaded hloaded _ hzones =>
    cases hpatch with
    | delete _ _ now =>
      -- the copy was live, so the mark is a change
      have hmark : Patch.apply (deletionPatch principal now) loaded .deletedAt ≠
          loaded .deletedAt := by
        simp [Patch.apply, deletionPatch, hloaded]
      rcases hzones with ⟨hsame, -⟩ | ⟨time, heq⟩
      · exact absurd (hsame _) hmark
      · refine ⟨_, heq ▸ List.mem_map_of_mem hrow,
          (Layout.key_written (T := zoneLayout) row).trans hrowid, ?_⟩
        have hcells : (zoneLayout.written zoneId loaded
            (Patch.apply (deletionPatch principal now) loaded) time row).cells =
              Patch.update loaded (Patch.apply (deletionPatch principal now) loaded) row.cells :=
          Layout.cells_written (T := zoneLayout) hrowid
        rw [WarehouseZone.isLive, hcells, Patch.update_of_ne hmark]
        rfl

theorem ZoneOp.Patches.target_eq {op : ZoneOp} {zoneId zoneId' : Nat}
    {patch patch' : ZoneColumn → Option (Option ZoneCell)} (h : op.Patches zoneId patch)
    (h' : op.Patches zoneId' patch') : zoneId = zoneId' := by
  cases h with
  | update =>
    cases h'
    rfl
  | delete =>
    cases h'
    rfl

/-- A request on a zone that was deleted when it began is not answered. -/
theorem not_answered_of_deleted {opened db db' : ZoneDb} {op : ZoneOp} {zoneId : Nat}
    {patch : ZoneColumn → Option (Option ZoneCell)} (hpatch : op.Patches zoneId patch)
    {zone : WarehouseZone} (hzone : zone ∈ opened.zones) (hid : zone.id = zoneId)
    (hdeleted : zone.isLive = false) {answered : WarehouseZone} :
    ¬ ZoneEffect opened answered db db' op := by
  intro h
  cases h with
  | add => cases hpatch
  | rewrite hpatch' row _ _ _ hlive =>
    rw [hlive zone hzone (hid.trans (hpatch.target_eq hpatch'))] at hdeleted
    cases hdeleted

/-- Once a deletion has been answered the zone stays deleted: no warehouse shows it, and no request
on it that begins from then on is answered. -/
theorem deleted_for_good {c c₁ c₂ : ZoneConfig} {l : ZoneLabel} {zoneId : Nat}
    {principal : Principal} {a : WarehouseZone} (h : ReachableZones c)
    (hnext : zones.machine.next c l = some c₁)
    (hanswer : c.delivered l = some (.delete zoneId principal, a))
    (hrun : zones.machine.Run c₁ c₂) :
    (∃ zone ∈ c₂.db.zones, zone.id = zoneId ∧ zone.isLive = false) ∧
    (∀ warehouseId, ∀ zone ∈ liveZones warehouseId c₂.db, zone.id ≠ zoneId) ∧
    ∀ t op patch c₃ c₄ c₅ draw, ZoneOp.Patches op zoneId patch →
      zones.machine.next c₂ (.start t op) = some c₃ →
      zones.machine.RunOf (fun _ l => l.Spares t) c₃ c₄ →
      zones.machine.next c₄ (.step t draw) = some c₅ →
      c₄.delivered (.step t draw : ZoneLabel) = none := by
  obtain ⟨opened, heffect, -⟩ := effect_of_answer h.sound hnext hanswer
  obtain ⟨zone₁, hzone₁, hid₁, hdeleted₁⟩ := heffect.deleted
  have hsound₁ : c₁.Sound zoneDiscipline := h.sound.next zoneDiscipline_governs hnext
  have hsound₂ := sound_of_run zoneDiscipline_governs hsound₁ hrun
  have hlater : zoneDiscipline.grow c₁.db c₂.db := grow_of_run zoneDiscipline_governs hsound₁ hrun
  obtain ⟨zone, hzone, hid, -, hkept⟩ := hlater zone₁ hzone₁
  have hdeleted := hkept.deleted hdeleted₁
  refine ⟨⟨zone, hzone, hid.trans hid₁, hdeleted⟩, fun warehouseId shown hshown heq => ?_, ?_⟩
  · simp only [liveZones, List.mem_insertionSort, List.mem_filter, Bool.and_eq_true] at hshown
    obtain ⟨hmem, -, hlive⟩ := hshown
    rw [hsound₂.inv.registry.keyed.eq_of_key hmem hzone (heq.trans (hid.trans hid₁).symm),
      hdeleted] at hlive
    cases hlive
  · intro t op patch c₃ c₄ c₅ draw hpatch hstart hspared hlast
    cases hdelivered : c₄.delivered (.step t draw : ZoneLabel) with
    | none => rfl
    | some answer =>
      have hpost := zoneDiscipline_governs.post_of_started hsound₂ hstart hspared hlast hdelivered
      exact absurd hpost (not_answered_of_deleted hpatch hzone (hid.trans hid₁) hdeleted)

/-- The zone a request deletes, and who asks for it. -/
def ZoneOp.deletes : ZoneOp → Option (Nat × Principal)
  | .delete zoneId principal => some (zoneId, principal)
  | _ => none

theorem ZoneOp.eq_of_deletes {op : ZoneOp} {zoneId : Nat} {principal : Principal}
    (h : op.deletes = some (zoneId, principal)) : op = .delete zoneId principal := by
  cases op with
  | add => cases h
  | update => cases h
  | delete =>
    cases h
    rfl

theorem deleted_for_good_of_a1 :
    ∃ c₂ : ZoneConfig, c₂.db.zones.map (fun zone => (zone.id, zone.isLive)) = [(40, false)] ∧
      (∃ zone ∈ c₂.db.zones, zone.id = 40 ∧ zone.isLive = false) ∧
      (∀ warehouseId, ∀ zone ∈ liveZones warehouseId c₂.db, zone.id ≠ 40) ∧
      ∀ t op patch c₃ c₄ c₅ draw, ZoneOp.Patches op 40 patch →
        zones.machine.next c₂ (.start t op) = some c₃ →
        zones.machine.RunOf (fun _ l => l.Spares t) c₃ c₄ →
        zones.machine.next c₄ (.step t draw) = some c₅ →
        c₄.delivered (.step t draw : ZoneLabel) = none := by
  have hrun : (zones.machine.exec noZones (addA1 ++ deleteA1)).bind (fun c =>
      (zones.machine.next c (.step 0 0)).map fun c₁ =>
        (c₁.db.zones.map fun zone => (zone.id, zone.isLive),
          (c.delivered (.step 0 0 : ZoneLabel)).map fun answer => answer.1.deletes)) =
      some ([(40, false)], some (some (40, zoneOperator))) := by
    decide +kernel
  obtain ⟨c, hc, hrest⟩ := Option.bind_eq_some_iff.1 hrun
  obtain ⟨c₁, hnext, hshown⟩ := Option.map_eq_some_iff.1 hrest
  rw [Prod.mk.injEq] at hshown
  obtain ⟨⟨op, a⟩, hdelivered, hop⟩ := Option.map_eq_some_iff.1 hshown.2
  obtain rfl := ZoneOp.eq_of_deletes hop
  exact ⟨c₁, hshown.1, deleted_for_good ⟨_, Machine.run_of_exec _ hc⟩ hnext hdelivered
    Relation.ReflTransGen.refl⟩

end SmartLogistics.Warehouse
