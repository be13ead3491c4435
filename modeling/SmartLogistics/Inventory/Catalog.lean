import SmartLogistics.Inventory.Obligations
import SmartLogistics.Library.Registry
import SmartLogistics.Platform.Auth

/-!
# The catalog

`CatalogService` adds a SKU under its code and updates any other column of it. `catalog` runs any
number of such requests, which read without locks, change a copy and flush it.

`sku_changes`: a SKU keeps its code and no other SKU ever has it, and what else it says was said by
the updates that were answered, each of an admin. `result_of_run`: a reserve that is repeated reads
the catalog again, and whatever became of it is answered with the codes and currencies of the first
answer, within the bounds of the schemas.
-/

set_option autoImplicit false

namespace SmartLogistics.Inventory

open SmartLogistics.Library SmartLogistics.Platform

/-! ## Rows and requests -/

/-- The columns of a SKU that an update may write. -/
inductive SkuColumn
  | name
  | description
  | category
  | weightG
  | lengthMm
  | widthMm
  | heightMm
  | isFragile
  | isHazmat
  | requiresColdChain
  | unitValue
  | isActive
  deriving DecidableEq, Repr

/-- Every column. -/
def SkuColumn.all : List SkuColumn :=
  [.name, .description, .category, .weightG, .lengthMm, .widthMm, .heightMm, .isFragile, .isHazmat,
    .requiresColdChain, .unitValue, .isActive]

/-- What a column holds; a `Numeric(12, 2)` is its number of hundredths. -/
inductive SkuCell
  | text (s : String)
  | int (n : Int)
  | flag (b : Bool)
  | hundredths (n : Nat)
  deriving DecidableEq, Repr

/-- The type and the bounds that the schemas give a field. -/
def SkuColumn.admits : SkuColumn → SkuCell → Bool
  | .name, .text s => decide (2 ≤ s.length ∧ s.length ≤ 200)
  | .description, .text s => decide (s.length ≤ 1000)
  | .category, .text s => decide (s.length ≤ 100)
  | .weightG, .int n => decide (0 < n ∧ n ≤ 1000000)
  | .lengthMm, .int n | .widthMm, .int n | .heightMm, .int n => decide (0 < n ∧ n ≤ 100000)
  | .isFragile, .flag _ | .isHazmat, .flag _ | .requiresColdChain, .flag _ | .isActive, .flag _ =>
    true
  | .unitValue, .hundredths n => decide (n < 10 ^ 12)
  | _, _ => false

/-- The columns that may not be NULL. -/
def SkuColumn.required : List SkuColumn :=
  [.name, .weightG, .lengthMm, .widthMm, .heightMm, .isFragile, .isHazmat, .requiresColdChain,
    .isActive]

/-- A row of `skus`. -/
structure SkuRecord where
  id : Nat
  code : String
  currency : String
  cells : SkuColumn → Option SkuCell
  deletedAt : Option Nat
  createdAt : Nat
  updatedAt : Nat

/-- A code after `upper_code`, as the pattern and the lengths admit it. -/
def isSkuCode (code : String) : Bool :=
  decide (2 ≤ code.length ∧ code.length ≤ 64) &&
    code.toList.all fun c => c.isUpper || c.isDigit || c == '-' || c == '_'

/-- The body of a create; there is no `is_active`. -/
structure SkuCreate where
  code : String
  currency : String
  fields : SkuColumn → Option SkuCell
  code_valid : isSkuCode code = true
  currency_length : currency.length = 3
  fields_valid : ∀ column cell, fields column = some cell → column.admits cell = true
  required : ∀ column ∈ SkuColumn.required, column ≠ .isActive → (fields column).isSome = true

/-- The body of an update: the fields that are set, some of them to null. There is no code, and no
currency. -/
structure SkuUpdate where
  fields : SkuColumn → Option (Option SkuCell)
  fields_valid : ∀ column cell, fields column = some (some cell) → column.admits cell = true

/-- The table. -/
structure CatalogDb where
  skus : List SkuRecord

/-- An `UPDATE` of a SKU stamps `updated_at`. -/
def skuLayout : Layout SkuRecord String SkuColumn SkuCell where
  key := SkuRecord.id
  name := SkuRecord.code
  cells := SkuRecord.cells
  store := fun cells now sku => { sku with cells := cells, updatedAt := now }
  key_store := fun _ _ _ => rfl
  name_store := fun _ _ _ => rfl
  cells_store := fun _ _ _ => rfl

/-! ## What the database answers -/

/-- A CHECK on a number; NULL passes. -/
def isPositive : Option SkuCell → Bool
  | some (.int n) => decide (0 < n)
  | _ => true

/-- The constraint that the columns of a row violate. -/
def skuViolation (cells : SkuColumn → Option SkuCell) : Option IntegrityError :=
  if SkuColumn.required.any fun column => (cells column).isNone then
    some ⟨.notNullViolation, ""⟩
  else if !([SkuColumn.lengthMm, .widthMm, .heightMm].all fun column => isPositive (cells column))
  then
    some ⟨.checkViolation, "ck_skus_dimensions_positive"⟩
  else if !isPositive (cells .weightG) then
    some ⟨.checkViolation, "ck_skus_weight_positive"⟩
  else none

/-- The answer to the `INSERT` of a SKU. -/
def insertSku (sku : SkuRecord) (db : CatalogDb) : Except Failure CatalogDb :=
  let skus := db.skus ++ [sku]
  match skuViolation sku.cells with
  | some error => .error (.integrity error)
  | none =>
    if ¬ Table.Keyed SkuRecord.id skus then
      .error (.integrity ⟨.uniqueViolation, "pk_skus"⟩)
    else if ¬ (skus.map SkuRecord.code).Nodup then
      .error (.integrity ⟨.uniqueViolation, "ix_skus_code"⟩)
    else .ok { db with skus := skus }

/-- The answer to the `UPDATE` of a SKU. -/
def updateSkuRow (id : Nat) (loaded copy : SkuColumn → Option SkuCell) (now : Nat)
    (db : CatalogDb) : Except Failure CatalogDb :=
  match Table.lookup SkuRecord.id db.skus id with
  | none => .error .staleData
  | some row =>
    match skuViolation (skuLayout.written id loaded copy now row).cells with
    | some error => .error (.integrity error)
    | none => .ok { db with skus := db.skus.map (skuLayout.written id loaded copy now) }

/-! ## The transactions -/

/-- A transaction body of the catalog. -/
abbrev CatalogTxn := Txn CatalogDb Nat Failure

/-- `AdminPrincipal`. -/
def requireAdmin (principal : Principal) : Except Failure Unit :=
  match principal.require [.admin] with
  | .ok () => .ok ()
  | .error error => .error (.domain error)

/-- `get_sku`: a SKU that is not deleted. -/
def getSku (skuId : Nat) (db : CatalogDb) : Except Failure SkuRecord :=
  match (Table.lookup SkuRecord.id db.skus skuId).filter (·.deletedAt.isNone) with
  | none => .error (.domain (notFoundError "SKU not found."))
  | some sku => .ok sku

/-- `create_sku`: the code is left to its unique constraint. -/
def createSku (payload : SkuCreate) (principal : Principal) : CatalogTxn SkuRecord := do
  Txn.ofExcept (requireAdmin principal)
  let id ← Txn.freshId
  let createdAt ← Txn.now
  let updatedAt ← Txn.now
  let sku : SkuRecord :=
    { id := id
      code := payload.code
      currency := payload.currency
      cells := fun column => if column = .isActive then some (.flag true) else payload.fields column
      deletedAt := none
      createdAt := createdAt
      updatedAt := updatedAt }
  -- a row that is inserted is locked
  Txn.lock id (.pure ())
  Txn.write (insertSku sku)
  return sku

/-- Columns that were not changed are not written, and without a change there is no `UPDATE`. -/
def updateSku (skuId : Nat) (payload : SkuUpdate) (principal : Principal) :
    CatalogTxn SkuRecord := do
  Txn.ofExcept (requireAdmin principal)
  let found ← Txn.select (getSku skuId)
  let sku ← Txn.ofExcept found
  let copy := Patch.apply payload.fields sku.cells
  if SkuColumn.all.all fun column => copy column == sku.cells column then
    return sku
  else
    let now ← Txn.now
    Txn.lock skuId (.pure ())
    Txn.write (updateSkuRow skuId sku.cells copy now)
    return { sku with cells := copy, updatedAt := now }

/-- A request on the catalog. -/
inductive CatalogOp
  | create (payload : SkuCreate) (principal : Principal)
  | update (skuId : Nat) (payload : SkuUpdate) (principal : Principal)

/-- The transaction of a request. -/
def catalogProgram : CatalogOp → CatalogTxn SkuRecord
  | .create payload principal => createSku payload principal
  | .update skuId payload principal => updateSku skuId payload principal

/-- Any number of requests on the catalog; nothing else writes it. -/
def catalog : System CatalogDb Nat Failure SkuRecord CatalogOp Empty where
  program := catalogProgram
  env := fun e _ => e.elim

/-! ## What the requests promise each other -/

/-- What an update leaves of a SKU beside its id and code. -/
structure SkuRecord.Kept (sku sku' : SkuRecord) : Prop where
  currency : sku'.currency = sku.currency
  deletedAt : sku'.deletedAt = sku.deletedAt
  createdAt : sku'.createdAt = sku.createdAt

theorem SkuRecord.Kept.refl (sku : SkuRecord) : sku.Kept sku := ⟨rfl, rfl, rfl⟩

theorem SkuRecord.Kept.trans {a b c : SkuRecord} (h : a.Kept b) (h' : b.Kept c) : a.Kept c :=
  ⟨h'.currency.trans h.currency, h'.deletedAt.trans h.deletedAt, h'.createdAt.trans h.createdAt⟩

/-- What the columns hold is what the schemas admit. -/
def SkuRecord.Admitted (sku : SkuRecord) : Prop :=
  ∀ column cell, sku.cells column = some cell → column.admits cell = true

/-- The constraints of the table, and the fields of the validated payloads. -/
structure CatalogDb.Constraints (db : CatalogDb) : Prop where
  registry : Registry SkuRecord.id SkuRecord.code db.skus
  columns : ∀ sku ∈ db.skus, skuViolation sku.cells = none
  admitted : ∀ sku ∈ db.skus, sku.Admitted
  codes : ∀ sku ∈ db.skus, isSkuCode sku.code = true
  currencies : ∀ sku ∈ db.skus, sku.currency.length = 3

/-- What an answered request has done to the table. -/
inductive CatalogEffect (db db' : CatalogDb) : CatalogOp → Prop
  | create {payload : SkuCreate} {principal : Principal} (hadmin : principal.isAdmin = true)
    (sku : SkuRecord) (hcode : sku.code = payload.code) (hskus : db'.skus = db.skus ++ [sku]) :
    CatalogEffect db db' (.create payload principal)
  | update {skuId : Nat} {payload : SkuUpdate} {principal : Principal}
    (hadmin : principal.isAdmin = true) (row : SkuRecord) (hrow : row ∈ db.skus)
    (hid : row.id = skuId) (loaded : SkuColumn → Option SkuCell)
    (hskus : db'.skus = db.skus ∨ ∃ now, db'.skus =
      db.skus.map (skuLayout.written skuId loaded (Patch.apply payload.fields loaded) now)) :
    CatalogEffect db db' (.update skuId payload principal)

/-- A request locks the row it adds or writes; rows stay, under their codes. -/
def catalogDiscipline : Discipline CatalogDb Nat Failure SkuRecord CatalogOp where
  inv := CatalogDb.Constraints
  same := fun id db db' => ∀ sku : SkuRecord, sku.id = id → (sku ∈ db.skus ↔ sku ∈ db'.skus)
  grow := fun db db' => Continues SkuRecord.id SkuRecord.code SkuRecord.Kept db.skus db'.skus
  lockFact := fun _ _ _ _ => True
  flushFact := fun _ _ => True
  post := fun op _ _ _ _ db db' => CatalogEffect db db' op
  same_refl := fun _ _ _ _ => Iff.rfl
  same_trans := fun h h' sku hid => (h sku hid).trans (h' sku hid)
  grow_refl := fun _ => .refl .refl _
  grow_trans := fun h h' => h.trans (fun h h' => h.trans h') h'

/-! ## The writes -/

theorem isAdmin_of_requireAdmin {principal : Principal} (h : requireAdmin principal = .ok ()) :
    principal.isAdmin = true := by
  unfold requireAdmin at h
  split at h
  · rename_i hrequire
    simp only [Principal.require] at hrequire
    split at hrequire
    · rename_i hrole
      simpa [Principal.isAdmin] using hrole
    · cases hrequire
  · cases h

theorem getSku_eq_ok {skuId : Nat} {db : CatalogDb} {sku : SkuRecord}
    (h : getSku skuId db = .ok sku) : sku ∈ db.skus ∧ sku.id = skuId := by
  unfold getSku at h
  split at h
  · cases h
  · rename_i found hfound
    cases h
    exact Table.mem_of_lookup (Option.filter_eq_some_iff.1 hfound).1

theorem insertSku_eq_ok {sku : SkuRecord} {db db' : CatalogDb} (h : insertSku sku db = .ok db') :
    db'.skus = db.skus ++ [sku] ∧ skuViolation sku.cells = none ∧
      Registry SkuRecord.id SkuRecord.code db'.skus := by
  simp only [insertSku] at h
  split at h
  · cases h
  rename_i hcells
  split at h
  · cases h
  rename_i hkeyed
  split at h
  · cases h
  rename_i hunique
  cases h
  exact ⟨rfl, hcells, not_not.1 hkeyed, not_not.1 hunique⟩

/-- A SKU is added. -/
theorem guar_insertSku {held : Nat → Prop} {sku : SkuRecord} {db db' : CatalogDb}
    (hinv : db.Constraints) (hheld : held sku.id) (hcode : isSkuCode sku.code = true)
    (hcurrency : sku.currency.length = 3) (hadmitted : sku.Admitted)
    (h : insertSku sku db = .ok db') : catalogDiscipline.Guar held db db' := by
  obtain ⟨hskus, hcells, hreg⟩ := insertSku_eq_ok h
  refine ⟨⟨hreg, ?_, ?_, ?_, ?_⟩, ?_, fun id hid other hother => ?_⟩
  · rw [hskus]
    simpa [or_imp, forall_and] using ⟨hinv.columns, hcells⟩
  · rw [hskus]
    simpa [or_imp, forall_and] using ⟨hinv.admitted, hadmitted⟩
  · rw [hskus]
    simpa [or_imp, forall_and] using ⟨hinv.codes, hcode⟩
  · rw [hskus]
    simpa [or_imp, forall_and] using ⟨hinv.currencies, hcurrency⟩
  · change Continues _ _ _ _ _
    rw [hskus]
    exact continues_append .refl _ _
  · rw [hskus]
    have hne : other ≠ sku := fun heq => hid (hother ▸ heq ▸ hheld)
    simp [hne]

section Written

variable {id now : Nat} {loaded copy : SkuColumn → Option SkuCell}

theorem updateSkuRow_eq_ok {db db' : CatalogDb} (h : updateSkuRow id loaded copy now db = .ok db') :
    ∃ row ∈ db.skus, row.id = id ∧
      skuViolation (skuLayout.written id loaded copy now row).cells = none ∧
      db'.skus = db.skus.map (skuLayout.written id loaded copy now) := by
  simp only [updateSkuRow] at h
  split at h
  · cases h
  rename_i row hrow
  split at h
  · cases h
  rename_i hcells
  cases h
  obtain ⟨hmem, hid⟩ := Table.mem_of_lookup hrow
  exact ⟨row, hmem, hid, hcells, rfl⟩

theorem SkuRecord.kept_written (sku : SkuRecord) :
    sku.Kept (skuLayout.written id loaded copy now sku) := by
  by_cases hid : skuLayout.key sku = id
  · rw [Layout.written, if_pos hid]
    exact ⟨rfl, rfl, rfl⟩
  · rw [Layout.written_of_ne hid]
    exact .refl sku

variable {payload : SkuUpdate}

/-- A written column holds what it held, or a field of the payload. -/
theorem SkuRecord.Admitted.written {sku : SkuRecord} (h : sku.Admitted) :
    (skuLayout.written id loaded (Patch.apply payload.fields loaded) now sku).Admitted := by
  by_cases hid : skuLayout.key sku = id
  · have hcells : (skuLayout.written id loaded (Patch.apply payload.fields loaded) now sku).cells =
        Patch.update loaded (Patch.apply payload.fields loaded) sku.cells :=
      Layout.cells_written hid
    intro column cell hcell
    rw [hcells] at hcell
    rcases Patch.update_apply payload.fields loaded sku.cells column with heq | heq
    · exact h column cell (heq ▸ hcell)
    · exact payload.fields_valid column cell (hcell ▸ heq)
  · rw [Layout.written_of_ne hid]
    exact h

/-- A SKU is rewritten. -/
theorem guar_updateSkuRow {held : Nat → Prop} {db db' : CatalogDb} (hinv : db.Constraints)
    (hheld : held id)
    (h : updateSkuRow id loaded (Patch.apply payload.fields loaded) now db = .ok db') :
    catalogDiscipline.Guar held db db' := by
  obtain ⟨row, hrow, hid, hcells, hskus⟩ := updateSkuRow_eq_ok h
  have hcode : ∀ sku : SkuRecord,
      (skuLayout.written id loaded (Patch.apply payload.fields loaded) now sku).code = sku.code :=
    fun sku => Layout.name_written (T := skuLayout) sku
  refine ⟨⟨?_, ?_, ?_, ?_, ?_⟩, ?_, fun other hother sku hsku => ?_⟩
  · rw [hskus]
    exact Layout.registry_written (T := skuLayout) hinv.registry
  · rw [hskus]
    exact Layout.forall_map_written (T := skuLayout) hinv.registry.keyed hinv.columns hrow hid
      hcells
  · rw [hskus]
    exact Layout.forall_map_written (T := skuLayout) hinv.registry.keyed hinv.admitted hrow hid
      (hinv.admitted row hrow).written
  · rw [hskus]
    exact Layout.forall_map_written (T := skuLayout) hinv.registry.keyed hinv.codes hrow hid
      ((hcode row).symm ▸ hinv.codes row hrow)
  · rw [hskus]
    exact Layout.forall_map_written (T := skuLayout) hinv.registry.keyed hinv.currencies hrow hid
      ((row.kept_written).currency.symm ▸ hinv.currencies row hrow)
  · change Continues _ _ _ _ _
    rw [hskus]
    exact continues_map fun sku _ => ⟨Layout.key_written (T := skuLayout) sku,
      Layout.name_written (T := skuLayout) sku, sku.kept_written⟩
  · rw [hskus]
    have hne : sku.id ≠ id := fun heq => hother (hsku ▸ heq ▸ hheld)
    exact (Layout.mem_map_written_iff (T := skuLayout) hne).symm

end Written

/-! ## The obligations -/

theorem meets_createSku (payload : SkuCreate) (principal : Principal) (now : Nat)
    (db : CatalogDb) :
    catalogDiscipline.Meets (.create payload principal) db (createSku payload principal)
      ⟨fun _ => False, .ok, now, db⟩ := by
  refine Discipline.wp_bind _ _ (Discipline.wp_ofExcept fun _ hrequire => ?_)
  have hadmin := isAdmin_of_requireAdmin hrequire
  refine Discipline.wp_bind _ _ (Discipline.wp_freshId fun id => ?_)
  refine Discipline.wp_bind _ _ (Discipline.wp_now fun createdAt db₁ h₁ => ?_)
  refine Discipline.wp_bind _ _ (Discipline.wp_now fun updatedAt db₂ h₂ => ?_)
  refine Discipline.wp_bind _ _ fun n₃ db₃ h₃ => ⟨trivial, ?_⟩
  refine Discipline.wp_bind _ _ (Discipline.wp_write fun n₄ db₄ h₄ _ _ =>
    ⟨fun _ _ => trivial, fun _ _ => ?_⟩)
  intro n db₅ hr db' hpending
  obtain ⟨view, hview, hinsert⟩ := View.flushed_pending_eq_ok.1 hpending
  cases hview
  constructor
  · refine guar_insertSku hr.inv ?_ ?_ ?_ ?_ hinsert
    · exact Or.inl (List.mem_singleton.2 rfl)
    · exact payload.code_valid
    · exact payload.currency_length
    · intro column cell hcell
      change (if column = .isActive then some (.flag true) else payload.fields column) =
        some cell at hcell
      split at hcell
      · rename_i hcolumn
        cases hcell
        rw [hcolumn]
        rfl
      · exact payload.fields_valid column cell hcell
  · exact .create hadmin _ rfl (insertSku_eq_ok hinsert).1

theorem meets_updateSku (skuId : Nat) (payload : SkuUpdate) (principal : Principal) (now : Nat)
    (db : CatalogDb) :
    catalogDiscipline.Meets (.update skuId payload principal) db
      (updateSku skuId payload principal) ⟨fun _ => False, .ok, now, db⟩ := by
  refine Discipline.wp_bind _ _ (Discipline.wp_ofExcept fun _ hrequire => ?_)
  have hadmin := isAdmin_of_requireAdmin hrequire
  refine Discipline.wp_bind _ _ (Discipline.wp_select rfl fun n₁ db₁ h₁ => ?_)
  refine Discipline.wp_bind _ _ (Discipline.wp_ofExcept fun sku hsku => ?_)
  obtain ⟨hmem, hid⟩ := getSku_eq_ok hsku
  -- the row that was read is there whenever the request commits
  have hrow : ∀ db' : CatalogDb,
      Continues SkuRecord.id SkuRecord.code SkuRecord.Kept db₁.skus db'.skus →
      ∃ row ∈ db'.skus, row.id = skuId := by
    intro db' hgrow
    obtain ⟨row, hrow, hrowid, -⟩ := hgrow sku hmem
    exact ⟨row, hrow, hrowid.trans hid⟩
  dsimp only
  split
  · intro n db₂ hr db' hpending
    cases hpending
    obtain ⟨row, hmem', hid'⟩ := hrow db₂ hr.grow
    exact ⟨⟨hr.inv, catalogDiscipline.grow_refl _, fun r _ => catalogDiscipline.same_refl r _⟩,
      .update hadmin row hmem' hid' sku.cells (Or.inl rfl)⟩
  · refine Discipline.wp_bind _ _ (Discipline.wp_now fun time db₂ h₂ => ?_)
    refine Discipline.wp_bind _ _ fun n₃ db₃ h₃ => ⟨trivial, ?_⟩
    refine Discipline.wp_bind _ _ (Discipline.wp_write fun n₄ db₄ h₄ _ _ =>
      ⟨fun _ _ => trivial, fun _ _ => ?_⟩)
    intro n db₅ hr db' hpending
    obtain ⟨view, hview, hupdate⟩ := View.flushed_pending_eq_ok.1 hpending
    cases hview
    obtain ⟨-, -, -, -, hskus⟩ := updateSkuRow_eq_ok hupdate
    obtain ⟨row, hmem', hid'⟩ := hrow db₅
      (h₂.trans (h₃.trans (h₄.ungranted.trans hr.unflushed.ungranted))).grow
    exact ⟨guar_updateSkuRow hr.inv (Or.inl (List.mem_singleton.2 rfl)) hupdate,
      .update hadmin row hmem' hid' sku.cells (Or.inr ⟨time, hskus⟩)⟩

theorem catalogDiscipline_governs : catalogDiscipline.Governs catalog where
  program := by
    intro op now db _
    cases op with
    | create payload principal => exact meets_createSku payload principal now db
    | update skuId payload principal => exact meets_updateSku skuId payload principal now db
  env := fun e => e.elim

/-! ## Runs -/

/-- A configuration of the requests on the catalog. -/
abbrev CatalogConfig := Config CatalogDb Nat Failure SkuRecord CatalogOp

/-- A scheduler choice. -/
abbrev CatalogLabel := Label CatalogOp Empty

/-- A configuration some run reaches from an empty catalog. -/
def ReachableCatalog (c : CatalogConfig) : Prop := catalog.machine.Run (.idle ⟨[]⟩) c

theorem CatalogDb.constraints_empty : CatalogDb.Constraints ⟨[]⟩ where
  registry := ⟨List.nodup_nil, List.nodup_nil⟩
  columns := fun _ h => absurd h List.not_mem_nil
  admitted := fun _ h => absurd h List.not_mem_nil
  codes := fun _ h => absurd h List.not_mem_nil
  currencies := fun _ h => absurd h List.not_mem_nil

theorem ReachableCatalog.sound {c : CatalogConfig} (h : ReachableCatalog c) :
    c.Sound catalogDiscipline :=
  sound_of_run catalogDiscipline_governs (Config.sound_idle CatalogDb.constraints_empty) h

/-- A request from its start, with the id it draws if it draws one. -/
def catalogRequest (op : CatalogOp) (statements draw : Nat) : List CatalogLabel :=
  .start 0 op :: .replicate statements (.step 0 draw)

/-- An admin. -/
def catalogAdmin : Principal := ⟨1, .admin, [], none⟩

/-- The fields of a keyboard that must be given. -/
def keyboardFields : SkuColumn → Option SkuCell
  | .name => some (.text "Keyboard")
  | .weightG => some (.int 650)
  | .lengthMm => some (.int 440)
  | .widthMm => some (.int 140)
  | .heightMm => some (.int 35)
  | .isFragile => some (.flag true)
  | .isHazmat => some (.flag false)
  | .requiresColdChain => some (.flag false)
  | _ => none

/-- The admin creates SKU 1. -/
def createKeyboard : List CatalogLabel := catalogRequest
  (.create
    { code := "KBD"
      currency := "PKR"
      fields := keyboardFields
      code_valid := by decide
      currency_length := by decide
      fields_valid := by
        intro column cell h
        cases column <;> cases h <;> decide
      required := by decide } catalogAdmin) 6 1

/-- The keyboard gets another name and another weight. -/
def renameKeyboard : List CatalogLabel := catalogRequest
  (.update 1
    { fields := fun
        | .name => some (some (.text "Wireless keyboard"))
        | .weightG => some (some (.int 700))
        | _ => none
      fields_valid := by
        intro column cell h
        cases column <;> cases h <;> decide } catalogAdmin) 5 0

/-- What a request gives a column of the SKU with this id. -/
def CatalogOp.Gives (op : CatalogOp) (skuId : Nat) (_code : String) (column : SkuColumn)
    (value : Option SkuCell) : Prop :=
  ∃ payload principal, op = .update skuId payload principal ∧ principal.isAdmin = true ∧
    payload.fields column = some value

theorem CatalogEffect.attributed {db db' : CatalogDb} {op : CatalogOp}
    (h : CatalogEffect db db' op) (hinv : db.Constraints) (hinv' : db'.Constraints) :
    Attributed SkuRecord.id SkuRecord.code SkuRecord.cells op.Gives db.skus db'.skus := by
  cases h with
  | create _ new _ hskus =>
    intro sku hsku sku' hsku' hid column
    have hstay : sku ∈ db'.skus := hskus ▸ List.mem_append_left _ hsku
    exact Or.inl (by rw [hinv'.registry.keyed.eq_of_key hsku' hstay hid])
  | update hadmin row hrow hid loaded hskus =>
    rcases hskus with heq | ⟨now, heq⟩
    · rw [heq]
      exact .refl hinv.registry.keyed
    · rw [heq]
      exact Layout.attributed_written (T := skuLayout) hinv.registry.keyed hrow hid
        fun column value hgives => ⟨_, _, rfl, hadmin, hgives⟩

/-- A SKU keeps its code, and no other SKU ever has it; what else it says was said by the requests
that were answered: over any run, a column that has changed holds what the body of an answered
update of it gave it, and an admin asked for the update. -/
theorem sku_changes {c c' : CatalogConfig} (h : ReachableCatalog c) (ls : List CatalogLabel)
    (hrun : catalog.machine.exec c ls = some c') {sku : SkuRecord} (hsku : sku ∈ c.db.skus) :
    ∃ sku' ∈ c'.db.skus, sku'.id = sku.id ∧ sku.Kept sku' ∧
      (∀ other ∈ c'.db.skus, other.code = sku.code ↔ other = sku') ∧
      ∀ column, sku'.cells column = sku.cells column ∨ ∃ answer ∈ catalog.answers c ls,
        ∃ payload principal, answer.1 = .update sku.id payload principal ∧
          principal.isAdmin = true ∧ payload.fields column = some (sku'.cells column) := by
  obtain ⟨sku', hsku', hid, hkept, hholder⟩ := holder_of_run catalogDiscipline_governs h.sound
    (fun _ hinv => hinv.registry) (fun _ _ hgrow => hgrow) (Machine.run_of_exec _ hrun) hsku
  refine ⟨sku', hsku', hid, hkept, hholder, fun column => ?_⟩
  have hattributed := attributed_of_answers catalogDiscipline_governs h.sound
    (fun _ hinv => hinv.registry.keyed) (fun _ _ hgrow => hgrow)
    (fun _ _ _ _ _ _ _ hinv hinv' heffect => CatalogEffect.attributed heffect hinv hinv')
    (fun e _ => e.elim) ls hrun
  exact hattributed sku hsku sku' hsku' hid column

theorem sku_changes_of_keyboard :
    ∃ c c' : CatalogConfig, catalog.machine.exec c renameKeyboard = some c' ∧
      c'.db.skus.map (fun sku => (sku.id, sku.code, sku.cells .name)) =
        [(1, "KBD", some (.text "Wireless keyboard"))] ∧
      ∃ sku ∈ c.db.skus, sku.cells .name = some (.text "Keyboard") ∧
        ∃ sku' ∈ c'.db.skus, sku'.id = sku.id ∧ sku.Kept sku' ∧
          (∀ other ∈ c'.db.skus, other.code = sku.code ↔ other = sku') ∧
          ∀ column, sku'.cells column = sku.cells column ∨
            ∃ answer ∈ catalog.answers c renameKeyboard,
              ∃ payload principal, answer.1 = .update sku.id payload principal ∧
                principal.isAdmin = true ∧ payload.fields column = some (sku'.cells column) := by
  have hrun : (catalog.machine.exec (.idle ⟨[]⟩) createKeyboard).bind (fun c =>
      (catalog.machine.exec c renameKeyboard).map fun c' =>
        (c.db.skus.map fun sku => sku.cells .name,
          c'.db.skus.map fun sku => (sku.id, sku.code, sku.cells .name))) =
      some ([some (.text "Keyboard")], [(1, "KBD", some (.text "Wireless keyboard"))]) := by
    decide +kernel
  obtain ⟨c, hc, hrest⟩ := Option.bind_eq_some_iff.1 hrun
  obtain ⟨c', hc', hshown⟩ := Option.map_eq_some_iff.1 hrest
  rw [Prod.mk.injEq] at hshown
  have hbefore : some (SkuCell.text "Keyboard") ∈ c.db.skus.map fun sku => sku.cells .name := by
    rw [hshown.1]
    simp
  obtain ⟨sku, hsku, hname⟩ := List.mem_map.1 hbefore
  exact ⟨c, c', hc', hshown.2, sku, hsku, hname,
    sku_changes (Machine.run_of_exec _ hc) renameKeyboard hc' hsku⟩

/-! ## The answers to a reserve -/

/-- The columns of a SKU that reserves and snapshots read; the NULLs that the constraints exclude
are read as nothing. -/
def SkuRecord.toSku (sku : SkuRecord) : Sku where
  id := sku.id
  code := sku.code
  name := match sku.cells .name with
    | some (.text name) => name
    | _ => ""
  weightG := match sku.cells .weightG with
    | some (.int n) => n.toNat
    | _ => 0
  unitValue := match sku.cells .unitValue with
    | some (.hundredths n) => some n
    | _ => none
  currency := sku.currency
  isActive := match sku.cells .isActive with
    | some (.flag isActive) => isActive
    | _ => false
  deletedAt := sku.deletedAt

/-- The state of the service with this catalog. -/
def CatalogDb.over (catalog : CatalogDb) (db : Db) : Db :=
  { db with skus := catalog.skus.map SkuRecord.toSku }

/-- What a line says that no update of the catalog can change. -/
def ReservedLine.lasting (line : ReservedLine) : Nat × Int × String × String :=
  (line.skuId, line.quantity, line.skuCode, line.currency)

/-- What the schemas promise of a line. -/
structure ReservedLine.Admitted (line : ReservedLine) : Prop where
  code : isSkuCode line.skuCode = true
  name : 2 ≤ line.skuName.length ∧ line.skuName.length ≤ 200
  weight : 0 < line.unitWeightG ∧ line.unitWeightG ≤ 1000000
  value : ∀ n, line.unitValue = some n → n < 10 ^ 12
  currency : line.currency.length = 3

/-- The SKU and the quantity of a row. -/
def InventoryReservation.pair (r : InventoryReservation) : Nat × Int := (r.skuId, r.quantity)

theorem reservedLine_eq_ok {skus : List Sku} {r : InventoryReservation} {line : ReservedLine}
    (h : reservedLine skus r = .ok line) : ∃ sku ∈ skus, sku.id = r.skuId ∧ line =
      ⟨r.skuId, r.quantity, sku.code, sku.name, sku.weightG, sku.unitValue, sku.currency⟩ := by
  simp only [reservedLine, skuRow, Bind.bind, Except.bind, pure, Except.pure] at h
  split at h
  · cases h
  rename_i found hfound
  split at hfound
  · rename_i sku hsku
    cases hfound
    cases h
    have hid := List.find?_some hsku
    exact ⟨found, List.mem_of_find?_eq_some hsku, beq_iff_eq.1 hid, rfl⟩
  · cases hfound

/-- A traversal that succeeds gives one result an element, in their order. -/
theorem forall₂_of_mapM {α β : Type} {f : α → Except Failure β} :
    ∀ {as : List α} {bs : List β}, as.mapM f = .ok bs → List.Forall₂ (fun a b => f a = .ok b) as bs
  | [], bs, h => by
    cases h
    exact .nil
  | a :: as, bs, h => by
    simp only [List.mapM_cons, Bind.bind, Except.bind, pure, Except.pure] at h
    split at h
    · cases h
    rename_i b hb
    split at h
    · cases h
    rename_i rest hrest
    cases h
    exact .cons hb (forall₂_of_mapM hrest)

/-- Two traversals of elements that correspond give results that correspond. -/
theorem map_eq_of_forall₂ {α β γ δ : Type} {R R' : α → β → Prop} {p : α → δ} {g : β → γ}
    (hR : ∀ a a' b b', p a = p a' → R a b → R' a' b' → g b = g b') {as : List α} {bs : List β}
    (h : List.Forall₂ R as bs) : ∀ {as' : List α} {bs' : List β}, List.Forall₂ R' as' bs' →
      as.map p = as'.map p → bs.map g = bs'.map g := by
  induction h with
  | nil =>
    intro as' bs' h' heq
    cases h' with
    | nil => rfl
    | cons => simp at heq
  | cons hab _ ih =>
    intro as' bs' h' heq
    cases h' with
    | nil => simp at heq
    | cons hab' h' =>
      rw [List.map_cons, List.map_cons, List.cons.injEq] at heq
      rw [List.map_cons, List.map_cons, hR _ _ _ _ heq.1 hab hab', ih h' heq.2]

theorem result_eq_ok {shipmentId warehouseId : Nat} {holds : List InventoryReservation}
    {skus : List Sku} {answer : ReservationResult}
    (h : result shipmentId warehouseId holds skus = .ok answer) :
    (holds.insertionSort fun a b => a.skuId ≤ b.skuId).mapM (reservedLine skus) =
      .ok answer.lines := by
  simp only [result, Bind.bind, Except.bind, pure, Except.pure] at h
  split at h
  · cases h
  · rename_i lines hlines
    cases h
    exact hlines

/-- A SKU that was read has its code and its currency in every later state of the catalog. -/
theorem toSku_of_run {c c' : CatalogConfig} (h : ReachableCatalog c)
    (hrun : catalog.machine.Run c c') {sku sku' : Sku}
    (hsku : sku ∈ c.db.skus.map SkuRecord.toSku) (hsku' : sku' ∈ c'.db.skus.map SkuRecord.toSku)
    (hid : sku'.id = sku.id) : sku'.code = sku.code ∧ sku'.currency = sku.currency := by
  obtain ⟨row, hrow, rfl⟩ := List.mem_map.1 hsku
  obtain ⟨row', hrow', rfl⟩ := List.mem_map.1 hsku'
  have hgrow : catalogDiscipline.grow c.db c'.db :=
    grow_of_run catalogDiscipline_governs h.sound hrun
  have hreg := (sound_of_run catalogDiscipline_governs h.sound hrun).inv.registry
  obtain ⟨hcode, hkept⟩ := Continues.row hgrow hreg.keyed hrow hrow' hid
  exact ⟨hcode, hkept.currency⟩

/-- A column that may not be NULL holds what its schema admits. -/
theorem CatalogDb.Constraints.cell {db : CatalogDb} (hinv : db.Constraints) {sku : SkuRecord}
    (hsku : sku ∈ db.skus) {column : SkuColumn} (hrequired : column ∈ SkuColumn.required) :
    ∃ cell, sku.cells column = some cell ∧ column.admits cell = true := by
  cases hcell : sku.cells column with
  | some cell => exact ⟨cell, rfl, hinv.admitted sku hsku column cell hcell⟩
  | none =>
    have hnull : (SkuColumn.required.any fun column => (sku.cells column).isNone) = true :=
      List.any_eq_true.2 ⟨column, hrequired, by rw [hcell]; rfl⟩
    have hviolation := hinv.columns sku hsku
    rw [skuViolation, if_pos hnull] at hviolation
    cases hviolation

/-- A line made from the catalog is what the schemas promise. -/
theorem CatalogDb.Constraints.line_admitted {db : CatalogDb} (hinv : db.Constraints)
    {skus : List Sku} (hskus : skus ⊆ db.skus.map SkuRecord.toSku) {r : InventoryReservation}
    {line : ReservedLine} (h : reservedLine skus r = .ok line) : line.Admitted := by
  obtain ⟨found, hfound, -, rfl⟩ := reservedLine_eq_ok h
  obtain ⟨sku, hsku, rfl⟩ := List.mem_map.1 (hskus hfound)
  obtain ⟨name, hname, hadmitsName⟩ := hinv.cell hsku (by decide : SkuColumn.name ∈ _)
  obtain ⟨weight, hweight, hadmitsWeight⟩ := hinv.cell hsku (by decide : SkuColumn.weightG ∈ _)
  constructor
  · exact hinv.codes sku hsku
  · cases name with
    | text name =>
      simp only [SkuRecord.toSku, hname]
      exact of_decide_eq_true hadmitsName
    | int | flag | hundredths => cases hadmitsName
  · cases weight with
    | int n =>
      have hbounds : 0 < n ∧ n ≤ 1000000 := of_decide_eq_true hadmitsWeight
      simp only [SkuRecord.toSku, hweight]
      omega
    | text | flag | hundredths => cases hadmitsWeight
  · intro n hn
    simp only [SkuRecord.toSku] at hn
    split at hn
    · rename_i value hvalue
      cases hn
      exact of_decide_eq_true (hinv.admitted sku hsku .unitValue _ hvalue)
    · cases hn
  · exact hinv.currencies sku hsku

/-- Whatever becomes of the catalog, a reserve that is repeated is answered, with the SKUs,
quantities, codes and currencies of the first answer, and within the bounds of the schemas. -/
theorem result_of_run {c c' : CatalogConfig} (h : ReachableCatalog c)
    (hrun : catalog.machine.Run c c') {shipmentId warehouseId : Nat}
    {holds holds' : List InventoryReservation}
    (hholds : holds'.map InventoryReservation.pair = holds.map InventoryReservation.pair)
    {skus : List Sku} (hskus : skus ⊆ c.db.skus.map SkuRecord.toSku) {answer : ReservationResult}
    (hanswer : result shipmentId warehouseId holds skus = .ok answer) (db : Db) :
    ∃ answer', result shipmentId warehouseId holds'
        (loadSkusAny (holds'.map (·.skuId)) (c'.db.over db)) = .ok answer' ∧
      answer'.lines.map ReservedLine.lasting = answer.lines.map ReservedLine.lasting ∧
      ∀ line ∈ answer'.lines, line.Admitted := by
  have hinv' := (sound_of_run catalogDiscipline_governs h.sound hrun).inv
  have hlines := result_eq_ok hanswer
  have hsubset : loadSkusAny (holds'.map (·.skuId)) (c'.db.over db) ⊆
      c'.db.skus.map SkuRecord.toSku := fun _ hsku => List.mem_of_mem_filter hsku
  -- the SKU of every row was known, so it is
  have hknown : ∀ r ∈ holds', ∃ sku ∈ loadSkusAny (holds'.map (·.skuId)) (c'.db.over db),
      sku.id = r.skuId := by
    intro r hr
    obtain ⟨old, hold, hpair⟩ := List.mem_map.1 (hholds ▸ List.mem_map_of_mem hr)
    obtain ⟨line, -, hline⟩ := exists_of_mapM_eq_ok hlines old ((List.mem_insertionSort _).2 hold)
    obtain ⟨sku, hsku, hid, -⟩ := reservedLine_eq_ok hline
    obtain ⟨row, hrow, rfl⟩ := List.mem_map.1 (hskus hsku)
    have hgrow : Continues SkuRecord.id SkuRecord.code SkuRecord.Kept c.db.skus c'.db.skus :=
      grow_of_run catalogDiscipline_governs h.sound hrun
    obtain ⟨row', hrow', hid', -⟩ := hgrow row hrow
    have hskuId : row'.id = r.skuId := (hid'.trans hid).trans (congrArg Prod.fst hpair)
    refine ⟨row'.toSku, List.mem_filter.2 ⟨List.mem_map_of_mem hrow', ?_⟩, hskuId⟩
    exact List.contains_iff_mem.2 (List.mem_map.2 ⟨r, hr, hskuId.symm⟩)
  obtain ⟨answer', hanswer'⟩ : ∃ answer', result shipmentId warehouseId holds' _ = .ok answer' :=
    result_of_skus hknown
  have hlines' := forall₂_of_mapM (result_eq_ok hanswer')
  refine ⟨answer', hanswer', ?_, ?_⟩
  · have hsorted : ∀ rows : List InventoryReservation,
        (rows.insertionSort fun a b => a.skuId ≤ b.skuId).map InventoryReservation.pair =
          (rows.map InventoryReservation.pair).insertionSort fun a b => a.1 ≤ b.1 := fun rows =>
      List.map_insertionSort _ _ InventoryReservation.pair rows fun _ _ _ _ => Iff.rfl
    refine map_eq_of_forall₂ (p := InventoryReservation.pair) ?_ hlines' (forall₂_of_mapM hlines)
      (by rw [hsorted, hsorted, hholds])
    intro r old line line' hpair hline hline'
    obtain ⟨sku, hsku, hid, rfl⟩ := reservedLine_eq_ok hline
    obtain ⟨sku', hsku', hid', rfl⟩ := reservedLine_eq_ok hline'
    have hskuId : r.skuId = old.skuId := congrArg Prod.fst hpair
    have hquantity : r.quantity = old.quantity := congrArg Prod.snd hpair
    obtain ⟨hcode, hcurrency⟩ := toSku_of_run h hrun (hskus hsku') (hsubset hsku)
      (hid.trans (hskuId.trans hid'.symm))
    simp only [ReservedLine.lasting, hskuId, hquantity, hcode, hcurrency]
  · have hmade := hlines'.imp fun r line hline =>
      And.intro (hinv'.line_admitted hsubset hline) trivial
    exact ((List.forall₂_and_left _ _).1 hmade.flip).1

theorem eq_ok_of_toOption {ε α : Type} {x : Except ε α} {a : α} (h : x.toOption = some a) :
    x = .ok a := by
  cases x with
  | error e => cases h
  | ok b =>
    cases h
    rfl

/-- Two keyboards are held. -/
def keyboardHold : InventoryReservation :=
  { id := 5
    inventoryItemId := 3
    shipmentId := 9
    warehouseId := 7
    skuId := 1
    quantity := 2
    status := .held
    expiresAt := some 900
    confirmedAt := none
    committedAt := none
    releasedAt := none
    releaseReason := none }

/-- A reserve is confirmed and repeated after the keyboard was renamed. -/
theorem result_of_renamed :
    ∃ (c' : CatalogConfig) (answer answer' : ReservationResult),
      answer.lines.map (·.skuName) = ["Keyboard"] ∧
      answer'.lines.map (·.skuName) = ["Wireless keyboard"] ∧
      result 9 7 [keyboardHold.confirm 800] (loadSkusAny [1] (c'.db.over .empty)) = .ok answer' ∧
      answer'.lines.map ReservedLine.lasting = answer.lines.map ReservedLine.lasting ∧
      ∀ line ∈ answer'.lines, line.Admitted := by
  have hrun : (catalog.machine.exec (.idle ⟨[]⟩) createKeyboard).bind (fun c =>
      (catalog.machine.exec c renameKeyboard).bind fun c' =>
        (result 9 7 [keyboardHold] (c.db.skus.map SkuRecord.toSku)).toOption.bind fun answer =>
          (result 9 7 [keyboardHold.confirm 800]
            (loadSkusAny [1] (c'.db.over .empty))).toOption.map fun answer' =>
              (answer.lines.map (·.skuName), answer'.lines.map (·.skuName))) =
      some (["Keyboard"], ["Wireless keyboard"]) := by
    decide +kernel
  obtain ⟨c, hc, hrest⟩ := Option.bind_eq_some_iff.1 hrun
  obtain ⟨c', hc', hrest⟩ := Option.bind_eq_some_iff.1 hrest
  obtain ⟨answer, hanswer, hrest⟩ := Option.bind_eq_some_iff.1 hrest
  obtain ⟨answer', hanswer', hshown⟩ := Option.map_eq_some_iff.1 hrest
  rw [Prod.mk.injEq] at hshown
  obtain ⟨again, hagain, hlasting, hadmitted⟩ :=
    result_of_run (Machine.run_of_exec _ hc) (Machine.run_of_exec _ hc')
      (show [keyboardHold.confirm 800].map InventoryReservation.pair =
        [keyboardHold].map InventoryReservation.pair from rfl)
      (List.Subset.refl _) (eq_ok_of_toOption hanswer) .empty
  obtain rfl : again = answer' :=
    Except.ok.inj (hagain.symm.trans (eq_ok_of_toOption hanswer'))
  exact ⟨c', answer, again, hshown.1, hshown.2, hagain, hlasting, hadmitted⟩

end SmartLogistics.Inventory
