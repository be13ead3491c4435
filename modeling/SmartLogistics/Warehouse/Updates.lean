import Mathlib.Algebra.Ring.Int.Defs
import Mathlib.Data.List.DropRight
import Mathlib.Data.Rat.Defs
import SmartLogistics.Platform.Http
import SmartLogistics.Warehouse.Warehouses

/-!
# What an update may write and what a read can show

`WarehouseBase` validates a warehouse when it is created and again whenever it is read;
`WarehouseUpdate` declares the same fields once more, without the country's normaliser, the check
of the timezone and the pattern of the phone number. Between the two stands the table, with its
column types and its constraints.

`staysReadable_iff` says which updates leave a warehouse that reads show as it is stored: those
whose values fit the columns and either break a constraint or are what `WarehouseBase` would have
made of them. The others are answered with an error that is neither a domain nor an integrity
error, or publish a country code that no reader is shown.
-/

set_option autoImplicit false
set_option linter.dupNamespace false

namespace SmartLogistics.Warehouse

open SmartLogistics.Platform

/-! ## Values and fields -/

/-- What a warehouse is for. -/
inductive WarehouseType
  | fulfillmentCenter
  | distributionHub
  | regionalDepot
  | returnsCenter
  deriving DecidableEq, Repr

/-- A value of a column other than `NULL`. -/
inductive Cell
  | text (text : PyStr)
  | int (value : Int)
  /-- A float that is a number; the infinities are outside every bound. -/
  | float (value : Rat)
  | nan
  | type (type : WarehouseType)
  deriving DecidableEq, Repr

/-- A field that `WarehouseBase` and `WarehouseUpdate` declare. -/
inductive Field
  | name
  | city
  | detail (column : DetailColumn)
  deriving DecidableEq, Repr

/-- The fields of `WarehouseBase`. -/
def Field.all : List Field := [.name, .city] ++ DetailColumn.all.map .detail

/-- What a warehouse has in a field. -/
def cell (warehouse : Warehouse Cell) : Field → Option Cell
  | .name => some (.text (pyStr warehouse.name))
  | .city => some (.text (pyStr warehouse.city))
  | .detail column => warehouse.details column

/-- The body of an update request: `none` where a field is not set, `some none` where it is
`null`. -/
structure Changes where
  name : Option (Option String)
  city : Option (Option String)
  details : DetailColumn → Option (Option Cell)

/-- The text of a body's `name` or `city`. -/
def givenText (given : Option (Option String)) : Option (Option Cell) :=
  given.map fun given => given.map fun text => .text (pyStr text)

/-- What a body has for a field. -/
def Changes.field (changes : Changes) : Field → Option (Option Cell)
  | .name => givenText changes.name
  | .city => givenText changes.city
  | .detail column => changes.details column

/-! ## Validators -/

/-- What the validators take from the Unicode tables, from `zoneinfo` and from `EmailStr`. -/
structure Libraries where
  /-- The full uppercase mapping of a character. -/
  upper : Nat → List Nat
  timezones : List PyStr
  /-- The normalised address; none if the text is not an address. -/
  emailStr : PyStr → Option PyStr

/-- `str.isspace`: what `strip` removes. -/
def isSpace (c : Nat) : Bool :=
  (decide (0x09 ≤ c) && decide (c ≤ 0x0D)) || (decide (0x1C ≤ c) && decide (c ≤ 0x20)) ||
    (decide (0x2000 ≤ c) && decide (c ≤ 0x200A)) ||
    [0x85, 0xA0, 0x1680, 0x2028, 0x2029, 0x202F, 0x205F, 0x3000].contains c

/-- `str.strip`. -/
def strip (text : PyStr) : PyStr := (text.dropWhile isSpace).rdropWhile isSpace

/-- `upper_country`, which runs before the length is checked. -/
def upperCountry (libraries : Libraries) : Cell → Cell
  | .text text => .text ((strip text).flatMap libraries.upper)
  | value => value

/-- `known_timezone`. -/
def knownTimezone (libraries : Libraries) : Cell → Bool
  | .text text => libraries.timezones.contains text
  | _ => false

/-- `[0-9\s\-()]`; the pattern's `\s` has no separators below the space. -/
def isPhoneCharacter (c : Nat) : Bool :=
  (decide (0x30 ≤ c) && decide (c ≤ 0x39)) ||
    (isSpace c && !(decide (0x1C ≤ c) && decide (c < 0x20))) ||
    [0x2D, 0x28, 0x29].contains c

/-- `PHONE_PATTERN`: an optional plus sign, then 7 to 32 characters. -/
def phonePattern (text : PyStr) : Bool :=
  let rest := if text.head? = some 0x2B then text.tail else text
  decide (7 ≤ rest.length) && decide (rest.length ≤ 32) && rest.all isPhoneCharacter

/-- A type of a field, with the constraints of its `Field`. -/
inductive FieldType
  | warehouseType
  /-- `str` alone. -/
  | plain
  /-- `str` with `min_length` and `max_length`. -/
  | str (minLength maxLength : Nat)
  /-- `str` with `max_length` and `PHONE_PATTERN`. -/
  | phone (maxLength : Nat)
  | emailStr
  /-- `int` with `gt=0` and perhaps `le`. -/
  | int (le : Option Int)
  /-- `float` with `ge=-bound` and `le=bound`. -/
  | float (bound : Rat)

/-- The value pydantic makes of a value; none is a `ValidationError`. -/
def FieldType.validate (libraries : Libraries) : FieldType → Cell → Option Cell
  | .warehouseType, .type type => some (.type type)
  | .plain, .text text => some (.text text)
  | .str minLength maxLength, .text text =>
    if encodes text && decide (minLength ≤ text.length) && decide (text.length ≤ maxLength) then
      some (.text text)
    else none
  | .phone maxLength, .text text =>
    if encodes text && decide (text.length ≤ maxLength) && phonePattern text then some (.text text)
    else none
  | .emailStr, .text text => (libraries.emailStr text).map .text
  | .int le, .int value =>
    if decide (0 < value) && le.all (fun bound => decide (value ≤ bound)) then some (.int value)
    else none
  | .float bound, .float value =>
    if decide (-bound ≤ value) && decide (value ≤ bound) then some (.float value) else none
  -- neither comparison of the bounds is true of a NaN, so none refuses it
  | .float _, .nan => some .nan
  | _, _ => none

/-- The types that `WarehouseBase` declares. -/
def WarehouseBase.fieldType : Field → FieldType
  | .name => .str 2 150
  | .detail .type => .warehouseType
  | .detail .addressLine1 => .str 3 255
  | .detail .addressLine2 => .str 0 255
  | .city => .str 2 100
  | .detail .region => .str 0 100
  | .detail .postalCode => .str 0 20
  | .detail .countryCode => .str 2 2
  | .detail .latitude => .float 90
  | .detail .longitude => .float 180
  | .detail .entranceLatitude => .float 90
  | .detail .entranceLongitude => .float 180
  | .detail .mapPlaceId => .str 0 255
  | .detail .geofenceRadiusM => .int (some 5000)
  | .detail .capacityUnits => .int none
  | .detail .maxDailyOutbound => .int none
  | .detail .timezone => .plain
  | .detail .contactName => .str 0 150
  | .detail .contactEmail => .emailStr
  | .detail .contactPhone => .phone 32
  | .detail .notes => .str 0 1000

/-- The field is declared with `| None`. -/
def WarehouseBase.nullable : Field → Bool
  | .name | .city => false
  | .detail column =>
    match column with
    | .type | .addressLine1 | .countryCode | .geofenceRadiusM | .capacityUnits | .timezone => false
    | _ => true

/-- One field of `WarehouseBase`: its annotation, and the validators that belong to it. -/
def WarehouseBase.value (libraries : Libraries) (field : Field) (value : Cell) : Option Cell :=
  match field with
  | .detail .countryCode =>
    (WarehouseBase.fieldType field).validate libraries (upperCountry libraries value)
  | .detail .timezone =>
    ((WarehouseBase.fieldType field).validate libraries value).filter (knownTimezone libraries)
  | _ => (WarehouseBase.fieldType field).validate libraries value

/-- A field of a row, read through `WarehouseBase`. -/
def WarehouseBase.cell (libraries : Libraries) (field : Field) : Option Cell → Option (Option Cell)
  | none => if WarehouseBase.nullable field then some none else none
  | some value => (WarehouseBase.value libraries field value).map some

/-- `WarehouseDetail.model_validate`: what a reader is shown of a row. -/
def WarehouseDetail.modelValidate (libraries : Libraries) (row : Warehouse Cell) :
    Option (Warehouse Cell) :=
  if Field.all.all fun field => (WarehouseBase.cell libraries field (cell row field)).isSome then
    some { row with
      details := fun column =>
        (WarehouseBase.cell libraries (.detail column) (row.details column)).getD none }
  else none

/-- The types that `WarehouseUpdate` declares. -/
def WarehouseUpdate.fieldType : Field → FieldType
  | .name => .str 2 150
  | .detail .type => .warehouseType
  | .detail .addressLine1 => .str 3 255
  | .detail .addressLine2 => .str 0 255
  | .city => .str 2 100
  | .detail .region => .str 0 100
  | .detail .postalCode => .str 0 20
  | .detail .countryCode => .str 2 2
  | .detail .latitude => .float 90
  | .detail .longitude => .float 180
  | .detail .entranceLatitude => .float 90
  | .detail .entranceLongitude => .float 180
  | .detail .mapPlaceId => .str 0 255
  | .detail .geofenceRadiusM => .int (some 5000)
  | .detail .capacityUnits => .int none
  | .detail .maxDailyOutbound => .int none
  | .detail .timezone => .plain
  | .detail .contactName => .str 0 150
  | .detail .contactEmail => .emailStr
  | .detail .contactPhone => .str 0 32
  | .detail .notes => .str 0 1000

/-- A field of a body that is set; each may be `null`. -/
def WarehouseUpdate.cell (libraries : Libraries) (field : Field) :
    Option Cell → Option (Option Cell)
  | none => some none
  | some value => ((WarehouseUpdate.fieldType field).validate libraries value).map some

/-- `WarehouseUpdate.model_validate`; `none` is a validation error. -/
def WarehouseUpdate.modelValidate (libraries : Libraries) (body : Changes) : Option Changes :=
  if Field.all.all fun field =>
      (body.field field).all fun given => (WarehouseUpdate.cell libraries field given).isSome then
    some { body with
      details := fun column =>
        (body.details column).bind (WarehouseUpdate.cell libraries (.detail column)) }
  else none

/-! ## The table -/

/-- The size of a `String` column. -/
def columnSize : Field → Nat
  | .name => 150
  | .detail .addressLine1 => 255
  | .detail .addressLine2 => 255
  | .city => 100
  | .detail .region => 100
  | .detail .postalCode => 20
  | .detail .countryCode => 2
  | .detail .mapPlaceId => 255
  | .detail .timezone => 64
  | .detail .contactName => 150
  | .detail .contactEmail => 320
  | .detail .contactPhone => 32
  | .detail .notes => 1000
  | _ => 0

/-- The driver can send the value and the column can hold it. -/
def fits (field : Field) : Cell → Bool
  | .text text =>
    encodes text && !text.contains 0 && decide (text.length ≤ columnSize field)
  | .int value => decide (-2 ^ 31 ≤ value) && decide (value < 2 ^ 31)
  | _ => true

/-- Every column of the row is within its type. -/
def rowFits (row : Warehouse Cell) : Bool :=
  Field.all.all fun field => (cell row field).all (fits field)

/-- The columns that are `NOT NULL`, apart from `name` and `city`. -/
def notNull : List DetailColumn :=
  [.type, .addressLine1, .countryCode, .geofenceRadiusM, .capacityUnits, .timezone]

/-- A positive integer. -/
def positive : Cell → Bool
  | .int value => decide (0 < value)
  | _ => false

/-- `BETWEEN -bound AND bound`; a NaN is above every number. -/
def between (bound : Rat) : Cell → Bool
  | .float value => decide (-bound ≤ value) && decide (value ≤ bound)
  | _ => false

/-- The check constraints of `warehouses`, in the order they are checked; a `NULL` passes. -/
def checkConstraints : List (String × DetailColumn × (Cell → Bool)) :=
  [("ck_warehouses_capacity_positive", .capacityUnits, positive),
    ("ck_warehouses_entrance_latitude_range", .entranceLatitude, between 90),
    ("ck_warehouses_entrance_longitude_range", .entranceLongitude, between 180),
    ("ck_warehouses_geofence_radius_positive", .geofenceRadiusM, positive),
    ("ck_warehouses_latitude_range", .latitude, between 90),
    ("ck_warehouses_longitude_range", .longitude, between 180)]

/-- The constraint a row breaks, if any. -/
def violated (row : Warehouse Cell) : Option IntegrityError :=
  if notNull.any fun column => (row.details column).isNone then some ⟨.notNullViolation, ""⟩
  else
    (checkConstraints.find? fun check => !(row.details check.2.1).all check.2.2).map fun check =>
      ⟨.checkViolation, check.1⟩

/-- A row that the table holds. -/
structure StoredWarehouse where
  row : Warehouse Cell
  fits : rowFits row = true
  constraints : violated row = none

/-! ## The endpoint -/

/-- What ends an update. -/
inductive UpdateError
  | domain (error : DomainError)
  | integrity (error : IntegrityError)
  /-- A `DBAPIError` of another kind: the value cannot be sent, or the column cannot hold it. -/
  | data
  /-- `WarehouseDetail.model_validate` raised. -/
  | validation

/-- The assignments of a body; a `null` name or city never reaches the row. -/
def Changes.assignments (changes : Changes) : WarehouseOp Cell :=
  .update { name := changes.name.join, city := changes.city.join, details := changes.details }

/-- The warehouse an update makes of a row: `updated_at` moves if there is something to flush. -/
def Changes.write (changes : Changes) (principal : Principal) (now : Nat) (row : Warehouse Cell) :
    Warehouse Cell :=
  let changed := changes.assignments.apply principal now row
  { changed with updatedAt := if isModified row changed then now else changed.updatedAt }

/-- The flush of an update. The columns it leaves alone hold values that fit. -/
def flush (changes : Changes) (row : Warehouse Cell) : Except UpdateError StoredWarehouse :=
  if hFits : rowFits row = true then
    if changes.name = some none ∨ changes.city = some none then
      .error (.integrity ⟨.notNullViolation, ""⟩)
    else
      match hViolated : violated row with
      | some error => .error (.integrity error)
      | none => .ok ⟨row, hFits, hViolated⟩
  else .error .data

/-- The details an event carries beside the columns that consumers keep. -/
def snapshotColumns : List DetailColumn :=
  [.type, .region, .countryCode, .timezone, .latitude, .longitude, .entranceLatitude,
    .entranceLongitude, .geofenceRadiusM]

/-- `snapshot`: the payload of an event. -/
structure PublicSnapshot where
  kept : Snapshot
  details : List (DetailColumn × Option Cell)

/-- The payload of an event about the row. -/
def publicSnapshot (warehouse : Warehouse Cell) : PublicSnapshot where
  kept := snapshot warehouse
  details := snapshotColumns.map fun column => (column, warehouse.details column)

/-- A committed update: the row, the response and the event. -/
structure Updated where
  stored : StoredWarehouse
  detail : Warehouse Cell
  eventType : String
  payload : PublicSnapshot

/-- `PATCH /warehouses/{id}` of a warehouse that is stored, with a body that is valid. -/
def updateWarehouse (libraries : Libraries) (principal : Principal) (now : Nat)
    (stored : StoredWarehouse) (changes : Changes) : Except UpdateError Updated := do
  (principal.require [.admin]).mapError .domain
  if changes.assignments.finds principal stored.row then
    let flushed ← flush changes (changes.write principal now stored.row)
    -- the answer is built before the commit, so an error rolls the update back
    match WarehouseDetail.modelValidate libraries flushed.row with
    | none => .error .validation
    | some detail =>
      .ok { stored := flushed
            detail := detail
            eventType := changes.assignments.eventType
            payload := publicSnapshot flushed.row }
  else .error (.domain (notFoundError "Warehouse not found."))

/-! ## What the validators agree on -/

section

variable {libraries : Libraries}

/-- `EmailStr` takes its own normal forms as they are. -/
def Libraries.EmailsNormal (libraries : Libraries) : Prop :=
  ∀ text address, libraries.emailStr text = some address →
    libraries.emailStr address = some address

/-- A validated value is validated again as it is. -/
theorem FieldType.validate_again (emails : libraries.EmailsNormal) {fieldType : FieldType}
    {raw value : Cell} (h : fieldType.validate libraries raw = some value) :
    fieldType.validate libraries value = some value := by
  cases fieldType <;> cases raw <;>
    simp only [FieldType.validate, Option.ite_none_right_eq_some, Option.some.injEq,
      Option.map_eq_some_iff, reduceCtorEq] at h
  case emailStr.text text =>
    obtain ⟨address, h, rfl⟩ := h
    simp only [FieldType.validate, emails text address h, Option.map_some]
  all_goals first
    | (obtain ⟨h, rfl⟩ := h; simp only [FieldType.validate, h, if_true])
    | (subst h; rfl)

/-- Only `EmailStr` changes a value. -/
theorem FieldType.validate_eq (fieldType : FieldType) (h : fieldType ≠ .emailStr)
    {raw value : Cell} (hv : fieldType.validate libraries raw = some value) : value = raw := by
  cases fieldType <;> cases raw <;>
    simp only [FieldType.validate, Option.ite_none_right_eq_some, Option.some.injEq,
      Option.map_eq_some_iff, reduceCtorEq] at hv <;> grind

/-- The two schemas differ in the fieldType of one field. -/
theorem fieldType_eq {field : Field} (h : field ≠ .detail .contactPhone) :
    WarehouseUpdate.fieldType field = WarehouseBase.fieldType field := by
  match field with
  | .name | .city => rfl
  | .detail column => cases column <;> first | rfl | exact absurd rfl h

/-- What `WarehouseBase` asks of a value that `WarehouseUpdate` accepted. -/
def presents (libraries : Libraries) (field : Field) (value : Cell) : Bool :=
  match field, value with
  | .detail .countryCode, value => decide (upperCountry libraries value = value)
  | .detail .timezone, value => knownTimezone libraries value
  | .detail .contactPhone, .text text => phonePattern text
  | _, _ => true

/-- `WarehouseBase` keeps an accepted value exactly if it presents it. -/
theorem value_eq_self_iff (emails : libraries.EmailsNormal) {field : Field} {raw value : Cell}
    (h : (WarehouseUpdate.fieldType field).validate libraries raw = some value) :
    WarehouseBase.value libraries field value = some value ↔
      presents libraries field value = true := by
  have again := FieldType.validate_again emails h
  by_cases phone : field = .detail .contactPhone
  · subst phone
    cases raw <;>
      simp only [WarehouseUpdate.fieldType, FieldType.validate, Option.ite_none_right_eq_some,
        Option.some.injEq, reduceCtorEq] at h
    obtain ⟨h, rfl⟩ := h
    simp only [Bool.and_eq_true, decide_eq_true_eq, Nat.zero_le, and_true] at h
    simp [WarehouseBase.value, WarehouseBase.fieldType, FieldType.validate, presents, h]
  rw [fieldType_eq phone] at again h
  by_cases country : field = .detail .countryCode
  · subst country
    refine ⟨fun kept => ?_, fun normal => ?_⟩
    · exact decide_eq_true ((WarehouseBase.fieldType _).validate_eq (by nofun) kept).symm
    · have normal : upperCountry libraries value = value := of_decide_eq_true normal
      simp only [WarehouseBase.value, normal, again]
  by_cases zone : field = .detail .timezone
  · subst zone
    simp [WarehouseBase.value, presents, again, Option.filter]
  · have plain : WarehouseBase.value libraries field value =
        (WarehouseBase.fieldType field).validate libraries value := by
      unfold WarehouseBase.value
      split
      · exact absurd rfl country
      · exact absurd rfl zone
      · rfl
    have silent : presents libraries field value = true := by
      unfold presents
      split
      · exact absurd rfl country
      · exact absurd rfl zone
      · exact absurd rfl phone
      · rfl
    exact ⟨fun _ => silent, fun _ => plain.trans again⟩

/-! ## Fields of rows and bodies -/

theorem Field.mem_all (field : Field) : field ∈ Field.all := by
  cases field with
  | name | city => simp [Field.all]
  | detail column => cases column <;> decide

/-- The reader is shown the row as it is: every validator of `WarehouseBase` keeps what it reads. -/
def Satisfies (libraries : Libraries) (row : Warehouse Cell) : Prop :=
  WarehouseDetail.modelValidate libraries row = some row

/-- A text that `WarehouseBase` takes without a normaliser is kept. -/
theorem cell_text_kept {field : Field} (h : field = .name ∨ field = .city) {text : PyStr}
    {shown : Option Cell}
    (hr : WarehouseBase.cell libraries field (some (.text text)) = some shown) :
    shown = some (.text text) := by
  obtain rfl | rfl := h <;>
    simp only [WarehouseBase.cell, WarehouseBase.value, WarehouseBase.fieldType,
      FieldType.validate, Option.map_eq_some_iff, Option.ite_none_right_eq_some,
      Option.some.injEq] at hr <;> grind

theorem satisfies_iff (row : Warehouse Cell) :
    Satisfies libraries row ↔
      ∀ field, WarehouseBase.cell libraries field (cell row field) = some (cell row field) := by
  unfold Satisfies WarehouseDetail.modelValidate
  simp only [Option.ite_none_right_eq_some, List.all_eq_true, Option.some.injEq]
  constructor
  · rintro ⟨passes, same⟩ field
    obtain ⟨shown, read⟩ := Option.isSome_iff_exists.mp (passes field field.mem_all)
    rw [read]
    cases field with
    | name => exact congrArg some (cell_text_kept (.inl rfl) read)
    | city => exact congrArg some (cell_text_kept (.inr rfl) read)
    | detail column =>
      have kept := congrArg (fun row : Warehouse Cell => row.details column) same
      change (WarehouseBase.cell libraries _ (cell row (.detail column))).getD none = _ at kept
      rw [read, Option.getD_some] at kept
      exact congrArg some kept
  · intro kept
    refine ⟨fun field _ => by rw [kept field]; rfl, ?_⟩
    have details : (fun column => (WarehouseBase.cell libraries (.detail column)
        (row.details column)).getD none) = row.details := by
      funext column
      exact congrArg (Option.getD · none) (kept (.detail column))
    rw [details]

theorem givenText_getD {given : Option (Option String)} (h : given ≠ some none) (text : String) :
    some (Cell.text (pyStr (given.join.getD text))) =
      (givenText given).getD (some (.text (pyStr text))) := by
  match given with
  | none => rfl
  | some none => exact absurd rfl h
  | some (some given) => rfl

theorem givenText_or_kept {given : Option (Option String)} {text : String} {value : Cell}
    (h : some (Cell.text (pyStr (given.join.getD text))) = some value) :
    givenText given = some (some value) ∨ some (Cell.text (pyStr text)) = some value := by
  match given with
  | none => exact .inr h
  | some none => exact .inr h
  | some (some given) => exact .inl (congrArg some h)

theorem givenText_written {given : Option (Option String)} {value : Cell}
    (h : givenText given = some (some value)) (text : String) :
    some (Cell.text (pyStr (given.join.getD text))) = some value := by
  match given with
  | some (some given) => exact Option.some.inj h

/-- What an update leaves in a field. A `null` name or city is caught before it reaches the row. -/
theorem cell_write (changes : Changes) (principal : Principal) (now : Nat) (row : Warehouse Cell)
    (hName : changes.name ≠ some none) (hCity : changes.city ≠ some none) (field : Field) :
    cell (changes.write principal now row) field =
      (changes.field field).getD (cell row field) := by
  cases field with
  | name => exact givenText_getD hName row.name
  | city => exact givenText_getD hCity row.city
  | detail column => rfl

/-- A value that is given is written. -/
theorem cell_write_of_given {changes : Changes} {field : Field} {value : Cell}
    (h : changes.field field = some (some value)) (principal : Principal) (now : Nat)
    (row : Warehouse Cell) : cell (changes.write principal now row) field = some value := by
  cases field with
  | name => exact givenText_written h row.name
  | city => exact givenText_written h row.city
  | detail column =>
    change ((changes.details column).getD (row.details column)) = _
    rw [show changes.details column = _ from h, Option.getD_some]

/-- A field holds what it is given or what it held. -/
theorem given_or_kept {changes : Changes} {principal : Principal} {now : Nat}
    {row : Warehouse Cell} {field : Field} {value : Cell}
    (h : cell (changes.write principal now row) field = some value) :
    changes.field field = some (some value) ∨ cell row field = some value := by
  cases field with
  | name => exact givenText_or_kept h
  | city => exact givenText_or_kept h
  | detail column =>
    change (changes.details column).getD (row.details column) = some value at h
    match given : changes.details column with
    | none =>
      rw [given] at h
      exact .inr h
    | some other =>
      rw [given] at h
      exact .inl (given.trans (congrArg some h))

/-- What a valid body holds, its annotation accepted. -/
theorem given_validated {body changes : Changes}
    (h : WarehouseUpdate.modelValidate libraries body = some changes) {field : Field} {value : Cell}
    (given : changes.field field = some (some value)) :
    ∃ raw, (WarehouseUpdate.fieldType field).validate libraries raw = some value := by
  simp only [WarehouseUpdate.modelValidate, Option.ite_none_right_eq_some, List.all_eq_true,
    Option.some.injEq] at h
  obtain ⟨passes, rfl⟩ := h
  -- the schema takes the text of a name or a city as it is
  have text (hf : field = .name ∨ field = .city) (sent : body.field field = some (some value)) :
      ∃ raw, (WarehouseUpdate.fieldType field).validate libraries raw = some value := by
    have passed := passes field field.mem_all
    rw [sent, Option.all_some, WarehouseUpdate.cell, Option.isSome_map] at passed
    obtain ⟨shown, accepted⟩ := Option.isSome_iff_exists.mp passed
    have kept : shown = value :=
      FieldType.validate_eq _ (by obtain rfl | rfl := hf <;> nofun) accepted
    exact ⟨value, kept ▸ accepted⟩
  cases field with
  | name => exact text (.inl rfl) given
  | city => exact text (.inr rfl) given
  | detail column =>
    simp only [Changes.field, Option.bind_eq_some_iff] at given
    obtain ⟨raw, -, accepted⟩ := given
    cases raw with
    | none => simp [WarehouseUpdate.cell] at accepted
    | some raw =>
      simp only [WarehouseUpdate.cell, Option.map_eq_some_iff, Option.some.injEq] at accepted
      obtain ⟨_, accepted, rfl⟩ := accepted
      exact ⟨raw, accepted⟩

/-! ## What the table refuses -/

/-- Every value a body gives fits its column: no text with a NUL or a lone surrogate, none longer
than its column, no integer beyond 32 bits. -/
def Changes.Fits (changes : Changes) : Prop :=
  ∀ field value, changes.field field = some (some value) → fits field value = true

/-- A body gives `null` for a field that is required, or a NaN for a coordinate. -/
def Changes.Refused (changes : Changes) : Prop :=
  (∃ field, WarehouseBase.nullable field = false ∧ changes.field field = some none) ∨
    ∃ column, changes.details column = some (some .nan)

theorem rowFits_iff (row : Warehouse Cell) :
    rowFits row = true ↔ ∀ field value, cell row field = some value → fits field value = true := by
  simp only [rowFits, List.all_eq_true, Option.all_eq_true]
  exact ⟨fun h field value held => h field field.mem_all value held,
    fun h field _ value held => h field value held⟩

/-- The columns of an updated row fit exactly if what the body gives fits. -/
theorem rowFits_write (stored : StoredWarehouse) (changes : Changes) (principal : Principal)
    (now : Nat) : rowFits (changes.write principal now stored.row) = true ↔ changes.Fits := by
  rw [rowFits_iff]
  constructor
  · intro h field value given
    exact h field value (cell_write_of_given given principal now stored.row)
  · intro h field value held
    obtain given | kept := given_or_kept held
    · exact h field value given
    · exact (rowFits_iff stored.row).mp stored.fits field value kept

/-- A row breaks no constraint if its required columns hold values and its checks pass. -/
theorem violated_eq_none_iff (row : Warehouse Cell) :
    violated row = none ↔
      (∀ column ∈ notNull, (row.details column).isSome) ∧
        ∀ check ∈ checkConstraints, (row.details check.2.1).all check.2.2 = true := by
  unfold violated
  split
  · rename_i h
    simp only [List.any_eq_true, Option.isNone_iff_eq_none] at h
    obtain ⟨column, required, missing⟩ := h
    simp only [reduceCtorEq, false_iff, not_and]
    intro held
    have present := held column required
    rw [missing] at present
    exact absurd present (by nofun)
  · rename_i h
    simp only [List.any_eq_true, Option.isNone_iff_eq_none, not_exists, not_and] at h
    simp only [Option.map_eq_none_iff, List.find?_eq_none, Bool.not_eq_true', Bool.not_eq_false]
    exact ⟨fun passes => ⟨fun column required => Option.isSome_iff_ne_none.mpr (h column required),
      passes⟩, And.right⟩

theorem nullable_eq_false_iff (field : Field) :
    WarehouseBase.nullable field = false ↔
      field = .name ∨ field = .city ∨ ∃ column ∈ notNull, field = .detail column := by
  cases field with
  | name | city => simp [WarehouseBase.nullable]
  | detail column => cases column <;> simp [WarehouseBase.nullable, notNull]

/-- A validated value passes the check of its column unless it is a NaN. -/
theorem check_validated {check : String × DetailColumn × (Cell → Bool)}
    (h : check ∈ checkConstraints) {raw value : Cell}
    (accepted :
      (WarehouseUpdate.fieldType (.detail check.2.1)).validate libraries raw = some value) :
    check.2.2 value = true ↔ value ≠ .nan := by
  simp only [checkConstraints, List.mem_cons, List.not_mem_nil, or_false] at h
  rcases h with rfl | rfl | rfl | rfl | rfl | rfl <;>
    cases raw <;>
      simp only [WarehouseUpdate.fieldType, FieldType.validate, Option.ite_none_right_eq_some,
        Option.some.injEq, reduceCtorEq] at accepted <;>
      grind [positive, between]

/-- A NaN is accepted for a coordinate only, and each coordinate has its check. -/
theorem check_of_nan {column : DetailColumn} {raw : Cell}
    (accepted : (WarehouseUpdate.fieldType (.detail column)).validate libraries raw = some .nan) :
    ∃ check ∈ checkConstraints, check.2.1 = column := by
  cases column <;> simp [checkConstraints] <;>
    cases raw <;> simp [WarehouseUpdate.fieldType, FieldType.validate] at accepted

/-- The table refuses exactly the rows of bodies that `Refused` describes. -/
theorem refused_iff (stored : StoredWarehouse) {body changes : Changes}
    (h : WarehouseUpdate.modelValidate libraries body = some changes) (principal : Principal)
    (now : Nat) :
    changes.Refused ↔ changes.name = some none ∨ changes.city = some none ∨
      violated (changes.write principal now stored.row) ≠ none := by
  have heldBefore := (violated_eq_none_iff stored.row).mp stored.constraints
  constructor
  · rintro (⟨field, required, null⟩ | ⟨column, given⟩)
    · -- a null where the column has none
      obtain rfl | rfl | ⟨column, listed, rfl⟩ := (nullable_eq_false_iff field).mp required
      · exact .inl (by simpa [Changes.field, givenText] using null)
      · exact .inr (.inl (by simpa [Changes.field, givenText] using null))
      · refine .inr (.inr fun passes => ?_)
        have present := ((violated_eq_none_iff _).mp passes).1 column listed
        change ((changes.details column).getD (stored.row.details column)).isSome = true at present
        rw [show changes.details column = some none from null] at present
        exact absurd present (by nofun)
    · -- a NaN, which no range admits
      refine .inr (.inr fun passes => ?_)
      obtain ⟨raw, accepted⟩ := given_validated h
        (show changes.field (.detail column) = _ from given)
      obtain ⟨check, member, rfl⟩ := check_of_nan accepted
      have passed := ((violated_eq_none_iff _).mp passes).2 check member
      change ((changes.details _).getD _).all check.2.2 = true at passed
      rw [given] at passed
      exact (check_validated member accepted).mp passed rfl
  · intro broken
    by_contra accepted
    simp only [Changes.Refused, not_or, not_exists, not_and] at accepted
    obtain ⟨notNulled, notNan⟩ := accepted
    obtain null | null | broken := broken
    · exact notNulled .name rfl (by simp [Changes.field, givenText, null])
    · exact notNulled .city rfl (by simp [Changes.field, givenText, null])
    -- columns that the body leaves out pass as they did
    refine broken ((violated_eq_none_iff _).mpr ⟨fun column required => ?_, fun check member => ?_⟩)
    · change ((changes.details column).getD (stored.row.details column)).isSome = true
      match given : changes.details column with
      | none => exact heldBefore.1 column required
      | some none =>
        exact absurd given (notNulled (.detail column)
          ((nullable_eq_false_iff _).mpr (.inr (.inr ⟨column, required, rfl⟩))))
      | some (some value) => rfl
    · change ((changes.details _).getD _).all check.2.2 = true
      match given : changes.details check.2.1 with
      | none => exact heldBefore.2 check member
      | some none => rfl
      | some (some value) =>
        obtain ⟨raw, accepted⟩ := given_validated h
          (show changes.field (.detail check.2.1) = _ from given)
        refine (check_validated member accepted).mpr ?_
        rintro rfl
        exact notNan _ given

/-! ## Which updates stay readable -/

/-- Every value a body gives is what `WarehouseBase` would make of it: the country code is stripped
and in upper case, the timezone is known, and the phone number matches the pattern. -/
def Changes.Presentable (libraries : Libraries) (changes : Changes) : Prop :=
  ∀ field value, changes.field field = some (some value) → presents libraries field value = true

/-- The validators keep an updated row exactly if the body is presentable. -/
theorem satisfies_write_iff (emails : libraries.EmailsNormal) {row : Warehouse Cell}
    (satisfies : Satisfies libraries row) {body changes : Changes}
    (h : WarehouseUpdate.modelValidate libraries body = some changes) (principal : Principal)
    (now : Nat) (accepted : ¬changes.Refused) :
    Satisfies libraries (changes.write principal now row) ↔ changes.Presentable libraries := by
  simp only [Changes.Refused, not_or, not_exists, not_and] at accepted
  have hName : changes.name ≠ some none := fun null =>
    accepted.1 .name rfl (by simp [Changes.field, givenText, null])
  have hCity : changes.city ≠ some none := fun null =>
    accepted.1 .city rfl (by simp [Changes.field, givenText, null])
  rw [satisfies_iff] at satisfies ⊢
  refine forall_congr' fun field => ?_
  rw [cell_write changes principal now row hName hCity]
  match given : changes.field field with
  | none => simpa using satisfies field
  | some none =>
    have optional : WarehouseBase.nullable field = true := by
      by_contra required
      exact accepted.1 field (Bool.eq_false_iff.mpr required) given
    simp [WarehouseBase.cell, optional]
  | some (some value) =>
    obtain ⟨raw, validated⟩ := given_validated h given
    simp [WarehouseBase.cell, value_eq_self_iff emails validated]

/-- What the flush answers, by the two questions the table asks. -/
theorem flush_eq (stored : StoredWarehouse) {body changes : Changes}
    (h : WarehouseUpdate.modelValidate libraries body = some changes) (principal : Principal)
    (now : Nat) :
    (¬changes.Fits ∧ flush changes (changes.write principal now stored.row) = .error .data) ∨
      (changes.Fits ∧ changes.Refused ∧ ∃ error,
        flush changes (changes.write principal now stored.row) = .error (.integrity error)) ∨
      (changes.Fits ∧ ¬changes.Refused ∧ ∃ flushed : StoredWarehouse,
        flush changes (changes.write principal now stored.row) = .ok flushed ∧
          flushed.row = changes.write principal now stored.row) := by
  have refused := refused_iff stored h principal now
  unfold flush
  split
  · rename_i fit
    have fits := (rowFits_write stored changes principal now).mp fit
    split
    · rename_i null
      exact .inr (.inl ⟨fits, refused.mpr (by tauto), _, rfl⟩)
    · rename_i named
      split
      · rename_i error broken
        exact .inr (.inl ⟨fits, refused.mpr (.inr (.inr (by rw [broken]; nofun))), error, rfl⟩)
      · rename_i kept
        refine .inr (.inr ⟨fits, fun broken => ?_, _, rfl, rfl⟩)
        obtain null | null | broken := refused.mp broken
        · exact named (.inl null)
        · exact named (.inr null)
        · exact broken kept
  · rename_i fit
    exact .inl ⟨fun fits => fit ((rowFits_write stored changes principal now).mpr fits), rfl⟩

/-- An update failed with a domain or an integrity error, or it left a row that every validator of
`WarehouseBase` keeps, and its event says what the reader is shown. -/
def StaysReadable (libraries : Libraries) : Except UpdateError Updated → Prop
  | .error (.domain _) | .error (.integrity _) => True
  | .error _ => False
  | .ok updated =>
    Satisfies libraries updated.stored.row ∧ updated.payload = publicSnapshot updated.detail

/-- The caller may not update warehouses, or the warehouse is deleted. -/
def turnedAway (principal : Principal) (stored : StoredWarehouse) : Prop :=
  principal.isAdmin = false ∨ stored.row.deletedAt ≠ none

theorem updateWarehouse_turnedAway {principal : Principal} {stored : StoredWarehouse}
    (h : turnedAway principal stored) (libraries : Libraries) (now : Nat) (changes : Changes) :
    ∃ error, updateWarehouse libraries principal now stored changes = .error (.domain error) := by
  unfold updateWarehouse Principal.require
  by_cases admin : principal.role = .admin
  · have deleted : stored.row.deletedAt ≠ none := by
      obtain role | deleted := h
      · simp [Principal.isAdmin, admin] at role
      · exact deleted
    simp [admin, Changes.assignments, WarehouseOp.finds, deleted, Except.mapError, bind,
      Except.bind]
  · simp [admin, Except.mapError, bind, Except.bind]

/-- An update that is not turned away is what its flush and the read of its row make of it. -/
theorem updateWarehouse_eq {principal : Principal} {stored : StoredWarehouse}
    (h : ¬turnedAway principal stored) (libraries : Libraries) (now : Nat) (changes : Changes) :
    updateWarehouse libraries principal now stored changes =
      (flush changes (changes.write principal now stored.row)).bind fun flushed =>
        match WarehouseDetail.modelValidate libraries flushed.row with
        | none => .error .validation
        | some detail =>
          .ok { stored := flushed
                detail := detail
                eventType := "warehouse.updated"
                payload := publicSnapshot flushed.row } := by
  simp only [turnedAway, not_or, Bool.not_eq_false, ne_eq, not_not] at h
  obtain ⟨admin, live⟩ := h
  have role : principal.role = .admin := by simpa [Principal.isAdmin] using admin
  unfold updateWarehouse Principal.require
  simp [role, Changes.assignments, WarehouseOp.finds, WarehouseOp.eventType, live,
    Principal.mayTouchWarehouse, Principal.seesAllWarehouses, Except.mapError, bind, Except.bind]

/-- An update that the table takes stays readable exactly if its body is presentable. -/
theorem staysReadable_of_accepted (emails : libraries.EmailsNormal) {principal : Principal}
    {stored : StoredWarehouse} (away : ¬turnedAway principal stored)
    (satisfies : Satisfies libraries stored.row) {body changes : Changes}
    (h : WarehouseUpdate.modelValidate libraries body = some changes) (fits : changes.Fits)
    (accepted : ¬changes.Refused) (now : Nat) :
    StaysReadable libraries (updateWarehouse libraries principal now stored changes) ↔
      changes.Presentable libraries := by
  rw [updateWarehouse_eq away]
  obtain ⟨misfits, -⟩ | ⟨-, refused, -⟩ | ⟨-, -, after, flushed, row⟩ :=
    flush_eq stored h principal now
  · exact absurd fits misfits
  · exact absurd refused accepted
  rw [flushed, Except.bind]
  have kept := satisfies_write_iff emails satisfies h principal now accepted
  rw [← row] at kept
  constructor
  · intro stays
    split at stays
    · exact absurd stays id
    · exact kept.mp stays.1
  · intro presentable
    have shown : WarehouseDetail.modelValidate libraries after.row = some after.row :=
      kept.mpr presentable
    rw [shown]
    exact ⟨shown, rfl⟩

/-- An update stays readable exactly if it is turned away, or its values fit their columns and the
table refuses them or `WarehouseBase` would keep them. -/
theorem staysReadable_iff (libraries : Libraries) (emails : libraries.EmailsNormal)
    (principal : Principal) (now : Nat) (stored : StoredWarehouse)
    (satisfies : Satisfies libraries stored.row) (body changes : Changes)
    (h : WarehouseUpdate.modelValidate libraries body = some changes) :
    StaysReadable libraries (updateWarehouse libraries principal now stored changes) ↔
      turnedAway principal stored ∨
        (changes.Fits ∧ (changes.Refused ∨ changes.Presentable libraries)) := by
  by_cases away : turnedAway principal stored
  · obtain ⟨error, answer⟩ := updateWarehouse_turnedAway away libraries now changes
    rw [answer]
    exact iff_of_true trivial (.inl away)
  rw [or_iff_right away]
  obtain ⟨misfits, flushed⟩ | ⟨fits, refused, error, flushed⟩ | ⟨fits, accepted, -⟩ :=
    flush_eq stored h principal now
  · rw [updateWarehouse_eq away, flushed]
    exact iff_of_false (fun stays => stays) (fun held => misfits held.1)
  · rw [updateWarehouse_eq away, flushed]
    exact iff_of_true trivial ⟨fits, .inl refused⟩
  · rw [staysReadable_of_accepted emails away satisfies h fits accepted]
    exact ⟨fun presentable => ⟨fits, .inr presentable⟩,
      fun held => held.2.resolve_left accepted⟩

end

/-! ## A warehouse in Karachi -/

/-- Libraries that know the letters of ASCII, one timezone and no address. -/
def asciiLibraries : Libraries where
  upper c := [if 0x61 ≤ c ∧ c ≤ 0x7A then c - 0x20 else c]
  timezones := [pyStr "Asia/Karachi"]
  emailStr _ := none

theorem asciiLibraries_emailsNormal : asciiLibraries.EmailsNormal := nofun

/-- A row with the columns that are not nullable, and few others. -/
def karachiRow : Warehouse Cell where
  id := 7
  code := "KHI-01"
  name := "Karachi Central"
  status := .active
  city := "Karachi"
  details
    | .type => some (.type .fulfillmentCenter)
    | .addressLine1 => some (.text (pyStr "Plot 42"))
    | .countryCode => some (.text (pyStr "PK"))
    | .geofenceRadiusM => some (.int 150)
    | .capacityUnits => some (.int 50000)
    | .timezone => some (.text (pyStr "Asia/Karachi"))
    | _ => none
  geocodedAt := none
  deletedAt := none
  deletedBy := none
  updatedAt := 0

/-- The row, as the database holds it. -/
def storedKarachi : StoredWarehouse where
  row := karachiRow
  fits := by decide +kernel
  constraints := by decide +kernel

theorem storedKarachi_satisfies : Satisfies asciiLibraries storedKarachi.row := by
  rw [satisfies_iff]
  intro field
  have kept : ∀ field ∈ Field.all,
      WarehouseBase.cell asciiLibraries field (cell storedKarachi.row field) =
        some (cell storedKarachi.row field) := by
    decide +kernel
  exact kept field field.mem_all

/-- A body that sets one detail to a text. -/
def changeOf (column : DetailColumn) (text : String) : Changes where
  name := none
  city := none
  details other := if other = column then some (some (.text (pyStr text))) else none

theorem changeOf_given {column : DetailColumn} {text : String} {field : Field}
    {given : Option Cell} (h : (changeOf column text).field field = some given) :
    field = .detail column ∧ given = some (.text (pyStr text)) := by
  cases field with
  | name | city => exact absurd h (by nofun)
  | detail other =>
    simp only [Changes.field, changeOf, Option.ite_none_right_eq_some, Option.some.injEq] at h
    exact ⟨congrArg Field.detail h.1, h.2.symm⟩

theorem changeOf_valid {column : DetailColumn} {text : String}
    (h : (WarehouseUpdate.fieldType (.detail column)).validate asciiLibraries
      (.text (pyStr text)) = some (.text (pyStr text))) :
    WarehouseUpdate.modelValidate asciiLibraries (changeOf column text) =
      some (changeOf column text) := by
  have cell : WarehouseUpdate.cell asciiLibraries (.detail column) (some (.text (pyStr text))) =
      some (some (.text (pyStr text))) := by
    rw [WarehouseUpdate.cell, h, Option.map_some]
  unfold WarehouseUpdate.modelValidate
  rw [if_pos]
  · congr 2
    funext other
    by_cases same : other = column
    · subst same
      simp [changeOf, cell]
    · simp [changeOf, same]
  · simp only [List.all_eq_true, Option.all_eq_true]
    rintro field - given sent
    obtain ⟨rfl, rfl⟩ := changeOf_given sent
    rw [cell]
    rfl

theorem changeOf_fits {column : DetailColumn} {text : String}
    (h : fits (.detail column) (.text (pyStr text)) = true) : (changeOf column text).Fits := by
  intro field value given
  obtain ⟨rfl, same⟩ := changeOf_given given
  exact Option.some.inj same ▸ h

theorem changeOf_not_refused (column : DetailColumn) (text : String) :
    ¬(changeOf column text).Refused := by
  rintro (⟨field, -, null⟩ | ⟨other, given⟩)
  · exact absurd (changeOf_given null).2 (by nofun)
  · have same := changeOf_given (show (changeOf column text).field (.detail other) = _ from given)
    exact absurd same.2 (by nofun)

theorem changeOf_presentable_iff {column : DetailColumn} {text : String} :
    (changeOf column text).Presentable asciiLibraries ↔
      presents asciiLibraries (.detail column) (.text (pyStr text)) = true := by
  constructor
  · intro h
    exact h (.detail column) (.text (pyStr text)) (by simp [Changes.field, changeOf])
  · intro h field value given
    obtain ⟨rfl, same⟩ := changeOf_given given
    exact Option.some.inj same ▸ h

/-- An admin. -/
def karachiAdmin : Principal := ⟨1, .admin, [], none⟩

theorem storedKarachi_not_turnedAway : ¬turnedAway karachiAdmin storedKarachi := by
  rintro (role | deleted)
  · exact absurd role (by decide)
  · exact deleted rfl

/-- A phone number that matches the pattern is taken, stored and shown. -/
theorem staysReadable_phone :
    StaysReadable asciiLibraries (updateWarehouse asciiLibraries karachiAdmin 5 storedKarachi
      (changeOf .contactPhone "+92 21 35000002")) := by
  have valid : WarehouseUpdate.modelValidate asciiLibraries
      (changeOf .contactPhone "+92 21 35000002") =
        some (changeOf .contactPhone "+92 21 35000002") := changeOf_valid (by decide +kernel)
  have fits : (changeOf .contactPhone "+92 21 35000002").Fits := changeOf_fits (by decide +kernel)
  have presentable : (changeOf .contactPhone "+92 21 35000002").Presentable asciiLibraries :=
    changeOf_presentable_iff.mpr (by decide +kernel)
  rw [staysReadable_iff asciiLibraries asciiLibraries_emailsNormal karachiAdmin 5 storedKarachi
    storedKarachi_satisfies _ _ valid]
  exact .inr ⟨fits, .inr presentable⟩

/-- A timezone that does not exist cannot be read back; a country code in lower case is published as
it was sent and shown in upper case. -/
theorem not_staysReadable_timezone_country :
    ¬StaysReadable asciiLibraries (updateWarehouse asciiLibraries karachiAdmin 5 storedKarachi
        (changeOf .timezone "Mars/Base")) ∧
      ¬StaysReadable asciiLibraries (updateWarehouse asciiLibraries karachiAdmin 5 storedKarachi
        (changeOf .countryCode "pk")) := by
  constructor
  · rw [staysReadable_of_accepted asciiLibraries_emailsNormal storedKarachi_not_turnedAway
      storedKarachi_satisfies (changeOf_valid (by decide +kernel))
        (changeOf_fits (by decide +kernel))
      (changeOf_not_refused _ _), changeOf_presentable_iff]
    decide +kernel
  · rw [staysReadable_of_accepted asciiLibraries_emailsNormal storedKarachi_not_turnedAway
      storedKarachi_satisfies (changeOf_valid (by decide +kernel))
        (changeOf_fits (by decide +kernel))
      (changeOf_not_refused _ _), changeOf_presentable_iff]
    decide +kernel

end SmartLogistics.Warehouse
