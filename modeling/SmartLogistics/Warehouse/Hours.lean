import SmartLogistics.Library.Table
import SmartLogistics.Platform.Auth

/-!
# The weekly schedule of a warehouse

`replace_hours` deletes the opening hours of a warehouse and inserts those of the request. The
`DELETE` finds the rows that are committed when it starts, waits for each and removes it; a row that
is committed while it waits is not among them. `hours` runs any number of such transactions.

`schedule_of_run`: the schedule of a warehouse is that of the last request that was answered, along
runs in which every commit has locked all rows of the schedule it replaces (`covers`).
`not_replaced` is a run that leaves a mixture of two requests.
-/

set_option autoImplicit false
set_option linter.dupNamespace false

namespace SmartLogistics.Warehouse

open SmartLogistics.Library SmartLogistics.Platform

/-! ## Rows and requests -/

/-- The opening hours of a weekday, in minutes. -/
structure OperatingHours where
  dayOfWeek : Nat
  opensAt : Option Nat
  closesAt : Option Nat
  isClosed : Bool
  deriving DecidableEq, Repr

/-- `check_window`: closed without times, or open with a closing time after the opening time. -/
def OperatingHours.checkWindow (day : OperatingHours) : Bool :=
  if day.isClosed then day.opensAt.isNone && day.closesAt.isNone
  else
    match day.opensAt, day.closesAt with
    | some opensAt, some closesAt => decide (opensAt < closesAt)
    | _, _ => false

/-- A row of `warehouse_operating_hours`. -/
structure WarehouseOperatingHours where
  id : Nat
  warehouseId : Nat
  hours : OperatingHours
  deriving DecidableEq, Repr

/-- The body of a request: the whole week at once. -/
structure WeeklyScheduleUpdate where
  days : List OperatingHours
  days_ne_nil : days ≠ []
  days_length_le : days.length ≤ 7
  day_range : ∀ day ∈ days, 1 ≤ day.dayOfWeek ∧ day.dayOfWeek ≤ 7
  windows : ∀ day ∈ days, day.checkWindow = true
  unique_days : (days.map (·.dayOfWeek)).Nodup

/-- Of a row of `warehouses`, what a request on opening hours reads. -/
structure Facility where
  id : Nat
  deletedAt : Option Nat
  deriving DecidableEq, Repr

/-- The tables. -/
structure HoursDb where
  facilities : List Facility
  hours : List WarehouseOperatingHours
  deriving DecidableEq, Repr

namespace HoursDb

/-- The primary key and `uq_warehouse_operating_day`. -/
structure Constraints (db : HoursDb) : Prop where
  keyed : Table.Keyed WarehouseOperatingHours.id db.hours
  unique_days : (db.hours.map fun row => (row.warehouseId, row.hours.dayOfWeek)).Nodup

/-- The schedule of a warehouse. -/
def schedule (db : HoursDb) (warehouseId : Nat) : List OperatingHours :=
  (db.hours.filter (·.warehouseId == warehouseId)).map (·.hours)

theorem mem_schedule {db : HoursDb} {warehouseId : Nat} {day : OperatingHours} :
    day ∈ db.schedule warehouseId ↔
      ∃ row ∈ db.hours, row.warehouseId = warehouseId ∧ row.hours = day := by
  simp [schedule, and_assoc]

end HoursDb

/-! ## The transaction -/

/-- `_assert_can_manage`, on the row that was read. -/
def assertCanManage (facility : Option Facility) (warehouseId : Nat) (principal : Principal) :
    Except Failure Unit :=
  match facility.filter (·.deletedAt.isNone) with
  | none => .error (.domain (notFoundError "Warehouse not found."))
  | some _ =>
    if principal.isAdmin then .ok ()
    else if principal.role == .warehouseOperator && principal.mayTouchWarehouse warehouseId then
      .ok ()
    else
      .error (.domain (permissionDeniedError "You may only manage warehouses assigned to you."))

/-- A request on the schedule of a warehouse. -/
structure ReplaceHours where
  warehouseId : Nat
  payload : WeeklyScheduleUpdate
  principal : Principal

/-- `list_hours`: the rows of a warehouse by weekday. -/
def listHours (warehouseId : Nat) (db : HoursDb) : List WarehouseOperatingHours :=
  (db.hours.filter (·.warehouseId == warehouseId)).insertionSort
    fun a b => a.hours.dayOfWeek ≤ b.hours.dayOfWeek

/-- The rows a `DELETE` has locked are removed. -/
def deleteHours (ids : List Nat) (db : HoursDb) : Except Failure HoursDb :=
  .ok { db with hours := db.hours.filter fun row => !ids.contains row.id }

/-- What the database answers to the `INSERT` of new rows. -/
def insertHours (rows : List WarehouseOperatingHours) (db : HoursDb) : Except Failure HoursDb :=
  let hours := db.hours ++ rows
  if ¬ Table.Keyed WarehouseOperatingHours.id hours then
    .error (.integrity ⟨.uniqueViolation, "pk_warehouse_operating_hours"⟩)
  else if ¬ (hours.map fun row => (row.warehouseId, row.hours.dayOfWeek)).Nodup then
    .error (.integrity ⟨.uniqueViolation, "uq_warehouse_operating_day"⟩)
  else .ok { db with hours := hours }

/-- The new rows, each with a fresh id; a row that is inserted is locked. -/
def newHours (warehouseId : Nat) :
    List OperatingHours → Txn HoursDb Nat Failure (List WarehouseOperatingHours)
  | [] => .pure []
  | day :: days => .uuid4 fun id => .lock id ((newHours warehouseId days).bind fun rows =>
      .pure ({ id := id, warehouseId := warehouseId, hours := day } :: rows))

/-- `replace_hours`. -/
def replaceHours (request : ReplaceHours) :
    Txn HoursDb Nat Failure (List WarehouseOperatingHours) := do
  let facility ← Txn.select fun db => db.facilities.find? (·.id == request.warehouseId)
  Txn.ofExcept (assertCanManage facility request.warehouseId request.principal)
  -- the `DELETE` waits for the rows it has found, and removes those that are still there
  let rows ← Table.selectForUpdate WarehouseOperatingHours.id id HoursDb.hours
    fun row => row.warehouseId == request.warehouseId
  Txn.write (deleteHours (rows.map (·.id)))
  let new ← newHours request.warehouseId request.payload.days
  Txn.write (insertHours new)
  Txn.select (listHours request.warehouseId)

/-- Any number of requests on schedules; the rest of the service writes `warehouses`. -/
def hours : System HoursDb Nat Failure (List WarehouseOperatingHours) ReplaceHours
    (List Facility) where
  program := replaceHours
  env := fun facilities db => { db with facilities := facilities }

/-! ## What a commit replaces -/

/-- The effect of a commit that holds the rows `held`: of the old schedule those rows stay that it
does not hold. -/
structure Replaced (request : ReplaceHours) (held : Nat → Prop) (db db' : HoursDb) : Prop where
  stays : ∀ row ∈ db'.hours, row.warehouseId = request.warehouseId →
    row.hours ∈ request.payload.days ∨ row ∈ db.hours ∧ ¬ held row.id
  added : ∀ day ∈ request.payload.days, day ∈ db'.schedule request.warehouseId
  others : ∀ row, row.warehouseId ≠ request.warehouseId → (row ∈ db'.hours ↔ row ∈ db.hours)

/-- What the transactions promise each other: a row whose lock is held stays or stays away. -/
def hoursDiscipline :
    Discipline HoursDb Nat Failure (List WarehouseOperatingHours) ReplaceHours where
  inv := HoursDb.Constraints
  same := fun id db db' => ∀ row : WarehouseOperatingHours, row.id = id →
    (row ∈ db.hours ↔ row ∈ db'.hours)
  grow := fun _ _ => True
  lockFact := fun _ _ _ _ => True
  flushFact := fun _ _ => True
  post := fun request _ held _ _ db db' => Replaced request held db db'
  same_refl := fun _ _ _ _ => Iff.rfl
  same_trans := fun h h' row hrow => (h row hrow).trans (h' row hrow)
  grow_refl := fun _ => trivial
  grow_trans := fun _ _ => trivial

theorem lookup_eq_of_same {id : Nat} {db db' : HoursDb} (hdb : db.Constraints)
    (hdb' : db'.Constraints) (hsame : hoursDiscipline.same id db db') :
    Table.lookup WarehouseOperatingHours.id db.hours id =
      Table.lookup WarehouseOperatingHours.id db'.hours id := by
  refine Option.ext fun row => ?_
  rw [hdb.keyed.lookup_eq_some, hdb'.keyed.lookup_eq_some]
  exact and_congr_left fun hid => hsame row hid

theorem insertHours_eq_ok {rows : List WarehouseOperatingHours} {db db' : HoursDb}
    (h : insertHours rows db = .ok db') : db'.hours = db.hours ++ rows ∧ db'.Constraints := by
  simp only [insertHours] at h
  split at h
  · cases h
  rename_i hkeyed
  split at h
  · cases h
  rename_i hunique
  cases h
  exact ⟨rfl, not_not.1 hkeyed, not_not.1 hunique⟩

/-- The rule of the new rows: one for each day, all locked. -/
theorem wp_newHours {request : ReplaceHours} {warehouseId : Nat} (days : List OperatingHours)
    {Q : List WarehouseOperatingHours → View HoursDb Nat Failure → Prop}
    {v : View HoursDb Nat Failure} (hinv : v.db.Constraints)
    (h : ∀ n db, hoursDiscipline.Rely v n db → ∀ rows : List WarehouseOperatingHours,
      rows.map (·.hours) = days → (∀ row ∈ rows, row.warehouseId = warehouseId) →
      Q rows ((v.later n db).grantAll (rows.map (·.id)))) :
    hoursDiscipline.wp request (newHours warehouseId days) Q v := by
  induction days generalizing Q v with
  | nil =>
    have hstart := h v.now v.db (.refl _ hinv) [] rfl fun _ hrow => absurd hrow List.not_mem_nil
    rw [List.map_nil, View.grantAll_nil] at hstart
    exact hstart
  | cons day days ih =>
    intro id n db hr
    refine ⟨trivial, Discipline.wp_bind _ _ (ih hr.inv fun m db' hr' rows hdays hrows => ?_)⟩
    change Q _ (((v.later m db').grantAll [id]).grantAll _)
    rw [View.grantAll_grantAll]
    exact h m db' (hr.trans hr'.ungranted)
      ({ id := id, warehouseId := warehouseId, hours := day } :: rows)
      (by rw [List.map_cons, hdays])
      fun row hrow => (List.mem_cons.1 hrow).elim (fun heq => by rw [heq]) (hrows row)

/-- The rows a transaction has found and locked, among the keys `keys` that its `DELETE` saw. -/
theorem mem_locked_iff {warehouseId : Nat} {keys : List Nat} {db db' : HoursDb}
    (hdb : db.Constraints) (hsame : ∀ id ∈ keys, hoursDiscipline.same id db db')
    {row : WarehouseOperatingHours} (hrow : row ∈ db'.hours) (hkey : row.id ∈ keys) :
    row.id ∈ (keys.filterMap fun k => (Table.lookup WarehouseOperatingHours.id db.hours k).filter
      fun r => r.warehouseId == warehouseId).map (·.id) ↔ row.warehouseId = warehouseId := by
  -- the row is as it was when it was locked
  have hold : row ∈ db.hours := (hsame row.id hkey row rfl).2 hrow
  simp only [List.mem_map, List.mem_filterMap, Option.filter_eq_some_iff,
    hdb.keyed.lookup_eq_some, beq_iff_eq]
  constructor
  · rintro ⟨found, ⟨k, -, ⟨hfound, -⟩, hwarehouse⟩, hid⟩
    rwa [← hdb.keyed.eq_of_key hfound hold hid]
  · exact fun hwarehouse => ⟨row, ⟨row.id, hkey, ⟨hold, rfl⟩, hwarehouse⟩, rfl⟩

/-- The two writes of `replace_hours`: the rows found go, the new ones come, and no other row
moves. -/
theorem guar_of_writes {request : ReplaceHours} {keys ids : List Nat}
    {rows : List WarehouseOperatingHours} {held : Nat → Prop} {db db' : HoursDb}
    (hkeys : ∀ row ∈ db.hours, row.id ∈ keys →
      (row.id ∈ ids ↔ row.warehouseId = request.warehouseId))
    (hids : ∀ id ∈ ids, id ∈ keys)
    (hheld : ∀ id, held id ↔ id ∈ rows.map (·.id) ∨ id ∈ keys)
    (hdays : rows.map (·.hours) = request.payload.days)
    (hrows : ∀ row ∈ rows, row.warehouseId = request.warehouseId)
    (hinsert : insertHours rows
      { db with hours := db.hours.filter fun row => !ids.contains row.id } = .ok db') :
    hoursDiscipline.Guar held db db' ∧ Replaced request held db db' := by
  obtain ⟨hhours, hinv⟩ := insertHours_eq_ok hinsert
  have hmem : ∀ row, row ∈ db'.hours ↔ (row ∈ db.hours ∧ row.id ∉ ids) ∨ row ∈ rows := by
    intro row
    rw [hhours]
    simp [List.mem_filter]
  refine ⟨⟨hinv, trivial, fun id hid row hrow => ?_⟩, ⟨fun row hrow hwarehouse => ?_,
    fun day hday => ?_, fun row hwarehouse => ?_⟩⟩
  · -- a row that is not held is neither deleted nor inserted
    rw [hmem]
    subst hrow
    have hnot : row.id ∉ rows.map (·.id) ∧ row.id ∉ keys := by simpa [hheld] using hid
    have hnew : row ∉ rows := fun hnew => hnot.1 (List.mem_map_of_mem hnew)
    have hold : row.id ∉ ids := fun hold => hnot.2 (hids _ hold)
    simp [hnew, hold]
  · rcases (hmem row).1 hrow with ⟨hold, hkept⟩ | hnew
    · refine Or.inr ⟨hold, fun hid => ?_⟩
      rcases (hheld row.id).1 hid with hnew | hkey
      · -- no new row has the key of an old one
        obtain ⟨new, hmemnew, heq⟩ := List.mem_map.1 hnew
        have hkeyed := hinv.keyed
        rw [Table.Keyed, hhours, List.map_append] at hkeyed
        refine List.disjoint_of_nodup_append hkeyed (List.mem_map_of_mem (a := row) ?_) hnew
        simpa [List.mem_filter] using ⟨hold, hkept⟩
      · exact hkept ((hkeys row hold hkey).2 hwarehouse)
    · exact Or.inl (hdays ▸ List.mem_map_of_mem hnew)
  · rw [← hdays] at hday
    obtain ⟨row, hrow, rfl⟩ := List.mem_map.1 hday
    exact HoursDb.mem_schedule.2 ⟨row, (hmem row).2 (Or.inr hrow), hrows row hrow, rfl⟩
  · have hnew : row ∉ rows := fun hnew => hwarehouse (hrows row hnew)
    have hold : row ∈ db.hours → row.id ∉ ids := fun hrow hid =>
      hwarehouse ((hkeys row hrow (hids _ hid)).1 hid)
    rw [hmem]
    simpa [hnew] using hold

/-- The rest of `replace_hours`, once the rows of `keys` are locked: those of the warehouse that are
there are deleted, and the new ones inserted. -/
theorem wp_writeHours (request : ReplaceHours) (opened : HoursDb) {keys : List Nat}
    {v : View HoursDb Nat Failure} (hp : v.pending = .ok) (hinv : v.db.Constraints)
    (hheld : ∀ id, v.held id ↔ id ∈ keys) {ids : List Nat}
    (hids : ids = (keys.filterMap fun k =>
      (Table.lookup WarehouseOperatingHours.id v.db.hours k).filter
        fun r => r.warehouseId == request.warehouseId).map (·.id)) :
    hoursDiscipline.wp request
      ((Txn.write (deleteHours ids)).bind fun _ =>
        (newHours request.warehouseId request.payload.days).bind fun new =>
          (Txn.write (insertHours new)).bind fun _ => Txn.select (listHours request.warehouseId))
      (hoursDiscipline.Commits request opened) v := by
  refine Discipline.wp_bind _ _ (Discipline.wp_write fun n₁ db₁ h₁ _ _ =>
    ⟨fun _ _ => trivial, fun _ _ => ?_⟩)
  refine Discipline.wp_bind _ _ (wp_newHours _ h₁.inv fun n₂ db₂ h₂ rows hdays hrows => ?_)
  refine Discipline.wp_bind _ _ (Discipline.wp_write fun n₃ db₃ h₃ _ _ =>
    ⟨fun _ _ => trivial, fun _ _ => Discipline.wp_select_view fun n₄ db₄ h₄ _ _ => ?_⟩)
  intro n₅ db₅ h₅ db' hpending
  obtain ⟨view, hdeleted, hinsert⟩ := View.flushed_pending_eq_ok.1 hpending
  obtain ⟨view', hview, hdelete⟩ := View.flushed_pending_eq_ok.1 hdeleted
  have hview' : (.ok db₅ : Except Failure HoursDb) = .ok view' := by rw [← hview]; simp [hp]
  cases hview'
  cases hdelete
  -- the rows that are locked stayed as they were
  have honward := ((((h₁.onward.flushed (deleteHours ids)).trans h₂.onward).grantAll
    (rows.map (·.id))).trans h₃.onward).flushed (insertHours rows)
  have hrely := (honward.trans h₄.onward).rely_of h₅
  have hsame : ∀ id ∈ keys, hoursDiscipline.same id v.db db₅ := fun id hid =>
    hrely.same id ((hheld id).2 hid)
  have hfound : ∀ row ∈ db₅.hours, row.id ∈ keys →
      (row.id ∈ ids ↔ row.warehouseId = request.warehouseId) := by
    intro row hrow hkey
    rw [hids]
    exact mem_locked_iff hinv hsame hrow hkey
  have hsub : ∀ id ∈ ids, id ∈ keys := by
    intro id hid
    rw [hids] at hid
    exact (Table.map_filterMap_lookup_sublist _ _ keys).subset hid
  exact guar_of_writes hfound hsub (fun id => or_congr_right (hheld id)) hdays hrows hinsert

/-- The obligation of `replace_hours`. -/
theorem meets_replaceHours (request : ReplaceHours) (now : Nat) (db : HoursDb) :
    hoursDiscipline.Meets request db (replaceHours request)
      ⟨fun _ => False, .ok, now, db⟩ := by
  refine Discipline.wp_bind _ _ (Discipline.wp_select rfl fun n₁ db₁ h₁ => ?_)
  refine Discipline.wp_bind _ _ (Discipline.wp_ofExcept fun _ _ => ?_)
  refine Discipline.wp_bind _ _ (Table.wp_selectForUpdate_of_same rfl
    (fun _ _ _ ha hb hs => lookup_eq_of_same ha hb hs) (fun _ _ _ _ _ => trivial)
    fun n₂ seen h₂ n₃ db₃ h₃ => ?_)
  refine wp_writeHours request db rfl ?_ (fun id => by simp) rfl
  exact h₃.inv

theorem hoursDiscipline_governs : hoursDiscipline.Governs hours where
  program := fun request now db _ => meets_replaceHours request now db
  env := fun _ _ hdb => ⟨⟨hdb.keyed, hdb.unique_days⟩, trivial, fun _ _ _ _ => Iff.rfl⟩

/-! ## Runs -/

/-- The payloads of the answered requests on a warehouse, in the order of their commits. -/
def requested (warehouseId : Nat) (answered : List (ReplaceHours × List WarehouseOperatingHours)) :
    List WeeklyScheduleUpdate :=
  (answered.filter fun answer => answer.1.warehouseId == warehouseId).map (·.1.payload)

/-- If the step is a commit, it has locked every committed row of the schedule it replaces. -/
def covers (c : Config HoursDb Nat Failure (List WarehouseOperatingHours) ReplaceHours) :
    Label ReplaceHours (List Facility) → Bool
  | .step t _ => (c.sessions t).all fun s => (s.result c.db).isNone ||
      c.db.hours.all fun row => row.warehouseId != s.op.warehouseId || c.locks row.id == some t
  | _ => true

/-- The week of a warehouse that was last requested, or the one it had. -/
def lastRequested (db : HoursDb) (answered : List (ReplaceHours × List WarehouseOperatingHours))
    (warehouseId : Nat) : List OperatingHours :=
  match (requested warehouseId answered).getLast? with
  | some payload => payload.days
  | none => db.schedule warehouseId

theorem lastRequested_snoc (db : HoursDb)
    (answered : List (ReplaceHours × List WarehouseOperatingHours)) (request : ReplaceHours)
    (rows : List WarehouseOperatingHours) (warehouseId : Nat) :
    lastRequested db (answered ++ [(request, rows)]) warehouseId =
      if request.warehouseId = warehouseId then request.payload.days
      else lastRequested db answered warehouseId := by
  by_cases h : request.warehouseId = warehouseId
  · simp [lastRequested, requested, List.filter_append, h]
  · simp [lastRequested, requested, List.filter_append, h]

/-- A commit that covers the schedule it replaces leaves the week of its request. -/
theorem Replaced.mem_schedule_iff {request : ReplaceHours} {held : Nat → Prop} {db db' : HoursDb}
    (h : Replaced request held db db')
    (hcovers : ∀ row ∈ db.hours, row.warehouseId = request.warehouseId → held row.id)
    (warehouseId : Nat) (day : OperatingHours) : day ∈ db'.schedule warehouseId ↔
      if request.warehouseId = warehouseId then day ∈ request.payload.days
      else day ∈ db.schedule warehouseId := by
  by_cases heq : request.warehouseId = warehouseId
  · subst heq
    rw [if_pos rfl]
    constructor
    · intro hday
      obtain ⟨row, hrow, hwarehouse, rfl⟩ := HoursDb.mem_schedule.1 hday
      rcases h.stays row hrow hwarehouse with hnew | ⟨hold, hfree⟩
      · exact hnew
      · exact absurd (hcovers row hold hwarehouse) hfree
    · exact h.added day
  · rw [if_neg heq, HoursDb.mem_schedule, HoursDb.mem_schedule]
    constructor
    · rintro ⟨row, hrow, rfl, hday⟩
      exact ⟨row, (h.others row (Ne.symm heq)).1 hrow, rfl, hday⟩
    · rintro ⟨row, hrow, rfl, hday⟩
      exact ⟨row, (h.others row (Ne.symm heq)).2 hrow, rfl, hday⟩

/-- The schedule of every warehouse is the week last requested for it, after every run from a
database that meets its constraints in which each commit has locked all rows of the schedule it
replaces. -/
theorem schedule_of_run {db : HoursDb} (hdb : db.Constraints)
    {ls : List (Label ReplaceHours (List Facility))}
    {c : Config HoursDb Nat Failure (List WarehouseOperatingHours) ReplaceHours}
    (hrun : hours.machine.execOf (fun c l => covers c l = true) (.idle db) ls = some c)
    (warehouseId : Nat) (day : OperatingHours) : day ∈ c.db.schedule warehouseId ↔
      day ∈ lastRequested db (hours.answers (.idle db) ls) warehouseId := by
  let I : Config HoursDb Nat Failure (List WarehouseOperatingHours) ReplaceHours →
      List (ReplaceHours × List WarehouseOperatingHours) → Prop := fun c answered =>
    c.Sound hoursDiscipline ∧ ∀ warehouseId day,
      day ∈ c.db.schedule warehouseId ↔ day ∈ lastRequested db answered warehouseId
  suffices h : I c ([] ++ hours.answers (.idle db) ls) from h.2 warehouseId day
  have hstart : I (.idle db) [] := ⟨Config.sound_idle hdb, fun _ _ => Iff.rfl⟩
  refine System.answers_preserves _ (fun c l c' answered hI hcovers hnext => ?_) ls hstart hrun
  obtain ⟨hsound, hlast⟩ := hI
  refine ⟨hsound.next hoursDiscipline_governs hnext, fun warehouseId day => ?_⟩
  rcases System.delivered_cases _ hnext with ⟨hnone, hdb'⟩ |
    ⟨t, draw, s, rows, rfl, hs, hprog, hpending, hsome⟩
  · -- nothing is committed but writes of other tables
    have hsame : c'.db.hours = c.db.hours := by
      rcases hdb' with heq | ⟨_, -, heq⟩
      · rw [heq]
      · rw [heq]
        rfl
    rw [hnone, Option.toList_none, List.append_nil, ← hlast]
    simp only [HoursDb.mem_schedule, hsame]
  · have hreplaced := (hsound.commit hs hprog hpending).2
    rw [hsome, Option.toList_some, lastRequested_snoc, hreplaced.mem_schedule_iff]
    · split
      · exact Iff.rfl
      · exact hlast _ _
    · -- the commit covers the schedule
      intro row hrow hwarehouse
      have hresult : s.result c.db = some rows :=
        Session.result_eq_some.2 ⟨hprog, _, hpending⟩
      simp only [covers, hs, Option.all_some, hresult, Option.isNone_some, Bool.false_or] at hcovers
      have hlocked := List.all_eq_true.1 hcovers row hrow
      rw [Bool.or_eq_true, bne_iff_ne, beq_iff_eq] at hlocked
      exact hlocked.resolve_left fun hne => hne hwarehouse

/-! ## Two requests -/

/-- A day that is open from eight to eight. -/
def sampleDay (dayOfWeek : Nat) : OperatingHours where
  dayOfWeek := dayOfWeek
  opensAt := some (8 * 60)
  closesAt := some (20 * 60)
  isClosed := false

/-- An admin requests one day for warehouse 7. -/
def sampleRequest (dayOfWeek : Nat) (h : 1 ≤ dayOfWeek ∧ dayOfWeek ≤ 7) : ReplaceHours where
  warehouseId := 7
  payload :=
    { days := [sampleDay dayOfWeek]
      days_ne_nil := List.cons_ne_nil _ _
      days_length_le := by simp
      day_range := by simpa [sampleDay] using h
      windows := by simp [sampleDay, OperatingHours.checkWindow]
      unique_days := List.nodup_singleton _ }
  principal := { userId := 1, role := .admin, warehouseIds := [] }

/-- Warehouse 7 opens on Mondays. -/
def sampleHours : HoursDb where
  facilities := [{ id := 7, deletedAt := none }]
  hours := [{ id := 1, warehouseId := 7, hours := sampleDay 1 }]

theorem sampleHours_constraints : sampleHours.Constraints := ⟨by decide, by decide⟩

/-- Session `t` is opened for a request of one day. -/
def openRequest (t dayOfWeek : Nat) (h : 1 ≤ dayOfWeek ∧ dayOfWeek ≤ 7) :
    Label ReplaceHours (List Facility) :=
  .start t (sampleRequest dayOfWeek h)

/-- A request for Tuesday, and after it one for Wednesday. -/
def inTurn : List (Label ReplaceHours (List Facility)) :=
  openRequest 0 2 (by decide) :: List.replicate 10 (.step 0 10) ++
    openRequest 1 3 (by decide) :: List.replicate 10 (.step 1 20)

theorem schedule_of_in_turn : ∃ c,
    hours.machine.execOf (fun c l => covers c l = true) (.idle sampleHours) inTurn = some c ∧
      c.db.schedule 7 = [sampleDay 3] ∧ ∀ day, day ∈ c.db.schedule 7 ↔
        day ∈ lastRequested sampleHours (hours.answers (.idle sampleHours) inTurn) 7 := by
  have hrun : (hours.machine.execOf (fun c l => covers c l = true) (.idle sampleHours) inTurn).map
      (fun c => c.db.schedule 7) = some [sampleDay 3] := by
    decide +kernel
  obtain ⟨c, hc, hdays⟩ := Option.map_eq_some_iff.1 hrun
  exact ⟨c, hc, hdays, schedule_of_run sampleHours_constraints hc 7⟩

/-- Both requests have found the row of Monday when the first one locks it. -/
def atOnce : List (Label ReplaceHours (List Facility)) :=
  [openRequest 0 2 (by decide), openRequest 1 3 (by decide), .step 0 0, .step 0 0, .step 1 0,
    .step 1 0] ++ List.replicate 8 (.step 0 10) ++ List.replicate 8 (.step 1 20)

/-- Two requests are answered, and the schedule is that of neither: it is a mixture. -/
theorem not_replaced : ∃ c, hours.machine.exec (.idle sampleHours) atOnce = some c ∧
    (requested 7 (hours.answers (.idle sampleHours) atOnce)).length = 2 ∧
    ∀ payload ∈ requested 7 (hours.answers (.idle sampleHours) atOnce),
      ¬ ∀ day, day ∈ c.db.schedule 7 ↔ day ∈ payload.days := by
  have hrun : (hours.machine.exec (.idle sampleHours) atOnce).map (fun c => c.db.schedule 7) =
      some [sampleDay 2, sampleDay 3] := by
    decide +kernel
  have hrequested : (requested 7 (hours.answers (.idle sampleHours) atOnce)).map (·.days) =
      [[sampleDay 2], [sampleDay 3]] := by
    decide +kernel
  obtain ⟨c, hc, hdays⟩ := Option.map_eq_some_iff.1 hrun
  refine ⟨c, hc, by simpa using congrArg List.length hrequested, fun payload hpayload hsame => ?_⟩
  have hboth : sampleDay 2 ∈ payload.days ∧ sampleDay 3 ∈ payload.days := by
    rw [← hsame, ← hsame, hdays]
    decide
  have hmem : payload.days ∈ [[sampleDay 2], [sampleDay 3]] := by
    rw [← hrequested]
    exact List.mem_map_of_mem hpayload
  rcases List.mem_cons.1 hmem with heq | hmem
  · rw [heq] at hboth
    exact absurd hboth (by decide)
  · rw [List.mem_singleton.1 hmem] at hboth
    exact absurd hboth (by decide)

end SmartLogistics.Warehouse
