import SmartLogistics.Warehouse.Warehouses

/-!
# Convergence of the warehouse replicas

`replicas_converge`: along runs in which every `UPDATE` finds the columns it leaves alone as its
writer read them, and no newer `updated_at` than its own (`UpToDate`), a replica that has handled
every event agrees with the warehouse rows. A writer whose copy is stale publishes what the row no
longer says, and `not_converged_after_stale_copy` is a run in which a facility under maintenance
stays active in a replica.
-/

set_option autoImplicit false
set_option linter.dupNamespace false

namespace SmartLogistics.Warehouse

open SmartLogistics.Library SmartLogistics.Platform

variable {Detail : Type}

/-- The replica row states the facts of the warehouse row. -/
structure Warehouse.Matches (warehouse : Warehouse Detail) (ref : WarehouseRef) : Prop where
  code : ref.code = warehouse.code
  name : ref.name = warehouse.name
  status : ref.status = warehouse.status.value
  city : ref.city = warehouse.city
  isDeleted : ref.isDeleted = warehouse.deletedAt.isSome

/-- The replica agrees with every warehouse row whose committed events are all handled. -/
def Converged (s : WarehouseState Detail) (consumer : Consumer) : Prop :=
  ∀ id row, s.rows id = some row → (s.replicas consumer).handled id = (s.events id).length →
    ∃ ref, (s.replicas consumer).refs.find? (·.id == id) = some ref ∧ row.Matches ref

/-- The replicated columns that the `UPDATE` from `copy` to `warehouse` leaves alone say in the row
what the snapshot says. -/
def Undisturbed (copy warehouse row : Warehouse Detail) : Prop :=
  (copy.name = warehouse.name → row.name = warehouse.name) ∧
  (copy.status = warehouse.status → row.status = warehouse.status) ∧
  (copy.city = warehouse.city → row.city = warehouse.city) ∧
  (copy.deletedAt = warehouse.deletedAt → row.deletedAt.isSome = warehouse.deletedAt.isSome)

instance (copy warehouse row : Warehouse Detail) : Decidable (Undisturbed copy warehouse row) := by
  unfold Undisturbed
  infer_instance

/-- If the step is an `UPDATE`, the row is as its writer read it where it leaves it alone, and not
newer than the `UPDATE`; if it commits an event without a write, the row is newer than the event or
says the same. -/
def UpToDate (s : WarehouseState Detail) : WarehouseLabel Detail → Prop
  | .update t =>
    match s.writers t with
    | some (.updating _ copy warehouse) => ∀ row ∈ s.rows warehouse.id,
        row.updatedAt ≤ warehouse.updatedAt ∧ Undisturbed copy warehouse row
    | _ => True
  | .commit t =>
    match s.writers t with
    | some (.unchanged _ warehouse) => ∀ row ∈ s.rows warehouse.id,
        warehouse.updatedAt < row.updatedAt ∨ Undisturbed warehouse warehouse row
    | _ => True
  | _ => True

instance (s : WarehouseState Detail) (l : WarehouseLabel Detail) : Decidable (UpToDate s l) := by
  unfold UpToDate
  split
  · split <;> infer_instance
  · split <;> infer_instance
  · infer_instance

/-! ## Replaying snapshots -/

/-- The replica row that events of one warehouse make, in their order. -/
def replay (events : List WarehouseEvent) : Option WarehouseRef :=
  events.foldl (fun ref event => some (applySnapshot ref event.payload)) none

theorem replay_append (events : List WarehouseEvent) (event : WarehouseEvent) :
    replay (events ++ [event]) = some (applySnapshot (replay events) event.payload) := by
  rw [replay, List.foldl_append]
  rfl

/-- A snapshot that is not older replaces what is there. -/
theorem applySnapshot_of_le {ref : Option WarehouseRef} {payload : Snapshot}
    (h : ∀ old ∈ ref, old.sourceUpdatedAt ≤ payload.updatedAt) :
    applySnapshot ref payload = payload.toRef := by
  cases ref with
  | none => rfl
  | some old => exact if_pos (h old rfl)

/-- An older snapshot is ignored. -/
theorem applySnapshot_of_lt {ref : WarehouseRef} {payload : Snapshot}
    (h : payload.updatedAt < ref.sourceUpdatedAt) : applySnapshot (some ref) payload = ref :=
  if_neg (Nat.not_le.2 h)

/-- A snapshot states the facts of the object it is taken from. -/
theorem matches_snapshot {warehouse row : Warehouse Detail} (hcode : row.code = warehouse.code)
    (h : Undisturbed warehouse warehouse row) : row.Matches (snapshot warehouse).toRef where
  code := hcode.symm
  name := (h.1 rfl).symm
  status := congrArg WarehouseStatus.value (h.2.1 rfl).symm
  city := (h.2.2.1 rfl).symm
  isDeleted := (h.2.2.2 rfl).symm

/-- What an undisturbed `UPDATE` leaves says what its snapshot says. -/
theorem undisturbed_writeChanged [DecidableEq Detail] {copy warehouse row : Warehouse Detail}
    (h : Undisturbed copy warehouse row) :
    Undisturbed warehouse warehouse (writeChanged copy warehouse row) := by
  obtain ⟨hname, hstatus, hcity, hdeleted⟩ := h
  refine ⟨fun _ => ?_, fun _ => ?_, fun _ => ?_, fun _ => ?_⟩
  · simp only [writeChanged]
    split
    · rename_i heq
      exact hname heq
    · rfl
  · simp only [writeChanged]
    split
    · rename_i heq
      exact hstatus heq
    · rfl
  · simp only [writeChanged]
    split
    · rename_i heq
      exact hcity heq
    · rfl
  · simp only [writeChanged]
    split
    · rename_i heq
      exact hdeleted heq
    · rfl

/-! ## The invariant -/

/-- The object's row is there, with its code, and not older. -/
def WarehouseState.Knows (s : WarehouseState Detail) (warehouse : Warehouse Detail) : Prop :=
  ∃ row, s.rows warehouse.id = some row ∧ warehouse.updatedAt ≤ row.updatedAt ∧
    row.code = warehouse.code

/-- What holds of an open transaction, by where it stands. -/
def Writer.Valid (s : WarehouseState Detail) (t : Nat) : Writer Detail → Prop
  | .new _ => True
  | .inserted _ => True
  | .loaded _ _ copy => s.Knows copy
  | .set _ copy warehouse =>
    s.Knows copy ∧ warehouse.id = copy.id ∧ warehouse.code = copy.code ∧
      warehouse.updatedAt = copy.updatedAt
  | .updating _ copy warehouse =>
    s.Knows copy ∧ warehouse.id = copy.id ∧ warehouse.code = copy.code
  | .updated _ copy warehouse =>
    s.Knows copy ∧ warehouse.id = copy.id ∧ warehouse.code = copy.code ∧
      s.locks warehouse.id = some t ∧ ∀ row ∈ s.rows warehouse.id,
        row.updatedAt ≤ warehouse.updatedAt ∧ Undisturbed copy warehouse row
  | .unchanged _ warehouse => s.Knows warehouse

/-- The events of each warehouse replay to its row, and each replica is where it is in them. -/
structure InStep (s : WarehouseState Detail) : Prop where
  ids : ∀ id row, s.rows id = some row → row.id = id
  fresh : ∀ id, s.rows id = none → s.events id = []
  payloads : ∀ id, ∀ event ∈ s.events id, event.payload.id = id
  source : ∀ id row, s.rows id = some row →
    ∃ ref, replay (s.events id) = some ref ∧ row.Matches ref ∧ ref.sourceUpdatedAt = row.updatedAt
  writers : ∀ t writer, s.writers t = some writer → writer.Valid s t
  locks : ∀ id t, s.locks id = some t →
    ∃ op copy warehouse, s.writers t = some (.updated op copy warehouse) ∧ warehouse.id = id
  handled : ∀ consumer id, (s.replicas consumer).handled id ≤ (s.events id).length
  refs : ∀ consumer id, (s.replicas consumer).refs.find? (·.id == id) =
    replay ((s.events id).take ((s.replicas consumer).handled id))

theorem inStep_empty : InStep (WarehouseState.empty : WarehouseState Detail) where
  ids := fun id row h => by simp [WarehouseState.empty] at h
  fresh := fun _ _ => rfl
  payloads := fun id event h => by simp [WarehouseState.empty] at h
  source := fun id row h => by simp [WarehouseState.empty] at h
  writers := fun t writer h => by simp [WarehouseState.empty] at h
  locks := fun id t h => by simp [WarehouseState.empty] at h
  handled := fun _ _ => Nat.le_refl _
  refs := fun _ _ => rfl

/-- A replica that has handled the events of a warehouse agrees with its row. -/
theorem InStep.converged {s : WarehouseState Detail} (h : InStep s) (consumer : Consumer) :
    Converged s consumer := by
  intro id row hrow hall
  obtain ⟨ref, href, hmatches, -⟩ := h.source id row hrow
  refine ⟨ref, ?_, hmatches⟩
  rw [h.refs consumer id, hall, List.take_length, href]

/-- What holds of a transaction survives commits of others, which leave the rows it has locked. -/
theorem Writer.Valid.mono {s s' : WarehouseState Detail} {t : Nat} {writer : Writer Detail}
    (h : writer.Valid s t)
    (hrows : ∀ id row, s.rows id = some row →
      ∃ row', s'.rows id = some row' ∧ row.updatedAt ≤ row'.updatedAt ∧ row'.code = row.code)
    (hlocked : ∀ id, s.locks id = some t → s'.locks id = some t ∧ s'.rows id = s.rows id) :
    writer.Valid s' t := by
  have hknows : ∀ {warehouse : Warehouse Detail}, s.Knows warehouse → s'.Knows warehouse := by
    rintro warehouse ⟨row, hrow, hle, hcode⟩
    obtain ⟨row', hrow', hle', hcode'⟩ := hrows _ _ hrow
    exact ⟨row', hrow', Nat.le_trans hle hle', hcode'.trans hcode⟩
  cases writer with
  | new warehouse => trivial
  | inserted warehouse => trivial
  | loaded op principal copy => exact hknows h
  | set op copy warehouse => exact ⟨hknows h.1, h.2⟩
  | updating op copy warehouse => exact ⟨hknows h.1, h.2⟩
  | updated op copy warehouse =>
    obtain ⟨hcopy, hid, hcode, hlock, hrow⟩ := h
    obtain ⟨hlock', heq⟩ := hlocked _ hlock
    exact ⟨hknows hcopy, hid, hcode, hlock', heq ▸ hrow⟩
  | unchanged op warehouse => exact hknows h

section Steps

variable {s s' : WarehouseState Detail}

/-- A transaction moves on, without a lock. -/
theorem InStep.setWriter (h : InStep s) {t : Nat} {writer : Writer Detail}
    (hvalid : writer.Valid s t)
    (hlock : ∀ id, s.locks id ≠ some t) : InStep (s.setWriter t writer) where
  ids := h.ids
  fresh := h.fresh
  payloads := h.payloads
  source := h.source
  writers := by
    intro u x hx
    by_cases hu : u = t
    · subst hu
      simp only [WarehouseState.setWriter, Function.update_self, Option.some.injEq] at hx
      exact hx ▸ hvalid
    · simp only [WarehouseState.setWriter, Function.update_of_ne hu] at hx
      exact h.writers u x hx
  locks := by
    intro id u hu
    have hut : u ≠ t := by
      rintro rfl
      exact hlock id hu
    obtain ⟨op, copy, warehouse, hw, hid⟩ := h.locks id u hu
    exact ⟨op, copy, warehouse, (Function.update_of_ne hut ..).trans hw, hid⟩
  handled := h.handled
  refs := h.refs

/-- A transaction ends, and its locks with it. -/
theorem InStep.endWriter (h : InStep s) (t : Nat) : InStep (s.endWriter t) where
  ids := h.ids
  fresh := h.fresh
  payloads := h.payloads
  source := h.source
  writers := by
    intro u x hx
    by_cases hu : u = t
    · subst hu
      simp [WarehouseState.endWriter] at hx
    · simp only [WarehouseState.endWriter, Function.update_of_ne hu] at hx
      refine (h.writers u x hx).mono (fun id row hrow => ⟨row, hrow, Nat.le_refl _, rfl⟩)
        fun id hlock => ⟨?_, rfl⟩
      simp only [WarehouseState.endWriter, hlock, Option.some.injEq, if_neg hu]
  locks := by
    intro id u hu
    simp only [WarehouseState.endWriter] at hu
    split at hu
    · cases hu
    · rename_i hne
      have hut : u ≠ t := fun heq => hne (heq ▸ hu)
      obtain ⟨op, copy, warehouse, hw, hid⟩ := h.locks id u hu
      exact ⟨op, copy, warehouse, (Function.update_of_ne hut ..).trans hw, hid⟩
  handled := h.handled
  refs := h.refs

/-- A commit keeps the replicas in step, if the event replays to the row and no other transaction
has locked a row that changes. -/
theorem InStep.publish (h : InStep s) {t : Nat} {row : Warehouse Detail} {event : WarehouseEvent}
    (hpayload : event.payload.id = row.id)
    (hmatches : row.Matches (applySnapshot (replay (s.events row.id)) event.payload))
    (hsource : (applySnapshot (replay (s.events row.id)) event.payload).sourceUpdatedAt =
      row.updatedAt)
    (hrow : ∀ old, s.rows row.id = some old → old.updatedAt ≤ row.updatedAt ∧ row.code = old.code)
    (hlocked : ∀ u, s.locks row.id = some u → u ≠ t → s.rows row.id = some row) :
    InStep ((s.publish row event).endWriter t) := by
  have hevents : ∀ id, id ≠ row.id → (s.publish row event).events id = s.events id :=
    fun id hid => Function.update_of_ne hid ..
  have hself : (s.publish row event).events row.id = s.events row.id ++ [event] :=
    Function.update_self ..
  have hrows : ∀ id, id ≠ row.id → (s.publish row event).rows id = s.rows id :=
    fun id hid => Function.update_of_ne hid ..
  have hrowself : (s.publish row event).rows row.id = some row := Function.update_self ..
  -- only the row of the event, its events and the locks of `t` have changed
  constructor
  · intro id w hw
    by_cases hid : id = row.id
    · subst hid
      exact congrArg Warehouse.id (Option.some.inj (hw.symm.trans hrowself))
    · exact h.ids id w ((hrows id hid).symm.trans hw)
  · intro id hnone
    by_cases hid : id = row.id
    · subst hid
      exact absurd (hnone.symm.trans hrowself) (by simp)
    · exact (hevents id hid).trans (h.fresh id ((hrows id hid).symm.trans hnone))
  · intro id e he
    by_cases hid : id = row.id
    · subst hid
      rcases List.mem_append.1 (hself ▸ he) with he | he
      · exact h.payloads row.id e he
      · exact List.mem_singleton.1 he ▸ hpayload
    · exact h.payloads id e (hevents id hid ▸ he)
  · intro id w hw
    by_cases hid : id = row.id
    · subst hid
      -- the event replays to the row
      obtain rfl : row = w := Option.some.inj (hrowself.symm.trans hw)
      refine ⟨_, ?_, hmatches, hsource⟩
      exact (congrArg replay hself).trans (replay_append _ _)
    · obtain ⟨ref, href, hm, hsrc⟩ := h.source id w ((hrows id hid).symm.trans hw)
      exact ⟨ref, (congrArg replay (hevents id hid)).trans href, hm, hsrc⟩
  · intro u x hx
    by_cases hu : u = t
    · subst hu
      simp [WarehouseState.endWriter] at hx
    · simp only [WarehouseState.endWriter, Function.update_of_ne hu] at hx
      refine (h.writers u x hx).mono ?_ ?_
      · intro id old hold
        by_cases hid : id = row.id
        · subst hid
          exact ⟨row, hrowself, hrow old hold⟩
        · exact ⟨old, (hrows id hid).trans hold, Nat.le_refl _, rfl⟩
      · -- a row that another transaction has locked is as it was
        intro id hlock
        refine ⟨?_, ?_⟩
        · simp only [WarehouseState.endWriter, WarehouseState.publish, hlock, Option.some.injEq,
            if_neg hu]
        · by_cases hid : id = row.id
          · subst hid
            exact hrowself.trans (hlocked u hlock hu).symm
          · exact hrows id hid
  · intro id u hu
    have hlock : (if s.locks id = some t then none else s.locks id) = some u := hu
    split at hlock
    · cases hlock
    · rename_i hne
      have hut : u ≠ t := fun heq => hne (heq ▸ hlock)
      obtain ⟨op, copy, warehouse, hw, hid⟩ := h.locks id u hlock
      exact ⟨op, copy, warehouse, (Function.update_of_ne hut ..).trans hw, hid⟩
  · intro consumer id
    refine Nat.le_trans (h.handled consumer id) ?_
    by_cases hid : id = row.id
    · subst hid
      have hlength := congrArg List.length hself
      rw [List.length_append] at hlength
      exact le_of_le_of_eq (Nat.le_add_right _ _) hlength.symm
    · exact Nat.le_of_eq (congrArg List.length (hevents id hid)).symm
  · intro consumer id
    refine (h.refs consumer id).trans (congrArg replay ?_)
    by_cases hid : id = row.id
    · subst hid
      -- the new event comes after those the replica has handled
      exact ((congrArg (List.take _) hself).trans
        (List.take_append_of_le_length (h.handled consumer row.id))).symm
    · exact (congrArg (List.take _) (hevents id hid)).symm

/-- Only a transaction that has written its row has a lock. -/
theorem InStep.locks_ne (h : InStep s) {t : Nat} {writer : Writer Detail}
    (hwriter : s.writers t = some writer)
    (hne : ∀ op copy warehouse, writer ≠ .updated op copy warehouse) (id : Nat) :
    s.locks id ≠ some t := by
  intro hlock
  obtain ⟨op, copy, warehouse, hw, -⟩ := h.locks id t hlock
  exact hne op copy warehouse (Option.some.inj (hwriter.symm.trans hw))

/-- A transaction that is not open has no lock. -/
theorem InStep.locks_ne_of_none (h : InStep s) {t : Nat} (hnone : s.writers t = none) (id : Nat) :
    s.locks id ≠ some t := by
  intro hlock
  obtain ⟨op, copy, warehouse, hw, -⟩ := h.locks id t hlock
  exact absurd (hnone.symm.trans hw) (by simp)

/-! ## One kind of step after the other -/

variable {t : Nat}

/-- A create commits. -/
theorem InStep.inserts (h : InStep s) {warehouse : Warehouse Detail}
    (hnone : s.rows warehouse.id = none) :
    InStep ((s.publish warehouse (emit "warehouse.created" warehouse)).endWriter t) := by
  have hfresh := h.fresh _ hnone
  refine h.publish rfl ?_ ?_ (fun old hold => ?_) (fun u hlock _ => ?_)
  · rw [hfresh]
    exact matches_snapshot rfl ⟨fun _ => rfl, fun _ => rfl, fun _ => rfl, fun _ => rfl⟩
  · rw [hfresh]
    rfl
  · exact absurd (hnone.symm.trans hold) (by simp)
  · -- nobody has written a row that is not there
    obtain ⟨op, copy, w, hw, hid⟩ := h.locks _ u hlock
    obtain ⟨⟨row, hrow, -⟩, hid', -⟩ := h.writers u _ hw
    rw [← hid', hid] at hrow
    exact absurd (hnone.symm.trans hrow) (by simp)

/-- A change that changes nothing publishes the copy it has. -/
theorem InStep.announces (h : InStep s) {op : WarehouseOp Detail} {warehouse row : Warehouse Detail}
    (hwriter : s.writers t = some (.unchanged op warehouse))
    (hrow : s.rows warehouse.id = some row)
    (hok : UpToDate s (.commit t : WarehouseLabel Detail)) :
    InStep ((s.publish row (emit op.eventType warehouse)).endWriter t) := by
  obtain ⟨row', hrow', hle, hcode⟩ := h.writers t _ hwriter
  obtain rfl : row' = row := Option.some.inj (hrow'.symm.trans hrow)
  have hrowid : row'.id = warehouse.id := h.ids _ _ hrow
  simp only [UpToDate, hwriter] at hok
  obtain ⟨ref, href, hmatches, hsrc⟩ := h.source _ _ hrow
  have hreplay : replay (s.events row'.id) = some ref := hrowid.symm ▸ href
  have hsame : s.rows row'.id = some row' := hrowid.symm ▸ hrow
  have hresult : row'.Matches (applySnapshot (some ref) (snapshot warehouse)) ∧
      (applySnapshot (some ref) (snapshot warehouse)).sourceUpdatedAt = row'.updatedAt := by
    rcases Nat.lt_or_ge warehouse.updatedAt row'.updatedAt with hlt | hge
    · -- the replica has a newer snapshot
      rw [applySnapshot_of_lt (hsrc ▸ hlt)]
      exact ⟨hmatches, hsrc⟩
    · have hundisturbed := (hok row' hrow).resolve_left (Nat.not_lt.2 hge)
      have happlied : applySnapshot (some ref) (snapshot warehouse) =
          (snapshot warehouse).toRef := by
        refine applySnapshot_of_le fun old hold => ?_
        cases hold
        exact hsrc ▸ hge
      rw [happlied]
      exact ⟨matches_snapshot hcode hundisturbed, Nat.le_antisymm hle hge⟩
  refine h.publish hrowid.symm ?_ ?_ (fun old hold => ?_) fun _ _ _ => hsame
  · rw [hreplay]
    exact hresult.1
  · rw [hreplay]
    exact hresult.2
  · obtain rfl : row' = old := Option.some.inj (hsame.symm.trans hold)
    exact ⟨Nat.le_refl _, rfl⟩

variable [DecidableEq Detail]

/-- A create begins. -/
theorem InStep.next_create (h : InStep s) {id : Nat} {payload : WarehouseCreate Detail}
    (hnext : warehouseNext s (.create t id payload) = some s') : InStep s' := by
  simp only [warehouseNext] at hnext
  split at hnext
  · rename_i hnone
    cases hnext
    exact h.setWriter trivial (h.locks_ne_of_none hnone)
  · cases hnext

/-- A change reads its warehouse. -/
theorem InStep.next_load (h : InStep s) {id : Nat} {principal : Principal} {op : WarehouseOp Detail}
    (hnext : warehouseNext s (.load t id principal op) = some s') : InStep s' := by
  simp only [warehouseNext] at hnext
  split at hnext
  · rename_i row hnone hrow
    split at hnext
    · cases hnext
      refine h.setWriter ⟨row, ?_, Nat.le_refl _, rfl⟩ (h.locks_ne_of_none hnone)
      rw [h.ids id row hrow]
      exact hrow
    · cases hnext
  · cases hnext

/-- The copy is changed. -/
theorem InStep.next_set (h : InStep s)
    (hnext : warehouseNext s (.set t) = some s') : InStep s' := by
  simp only [warehouseNext] at hnext
  split at hnext
  · rename_i op principal copy hwriter
    cases hnext
    refine h.setWriter ⟨h.writers t _ hwriter, ?_, ?_, ?_⟩ (h.locks_ne hwriter (by simp))
    all_goals cases op <;> rfl
  · cases hnext

/-- The flush sends an `UPDATE`, or nothing if nothing has changed. -/
theorem InStep.next_flush (h : InStep s)
    (hnext : warehouseNext s (.flush t) = some s') : InStep s' := by
  simp only [warehouseNext] at hnext
  split at hnext
  · rename_i warehouse hwriter
    cases hnext
    exact h.setWriter trivial (h.locks_ne hwriter (by simp))
  · rename_i op copy warehouse hwriter
    obtain ⟨⟨row, hrow, hle, hcode⟩, hid, hcode', htime⟩ := h.writers t _ hwriter
    split at hnext
    · cases hnext
      exact h.setWriter ⟨⟨row, hrow, hle, hcode⟩, hid, hcode'⟩ (h.locks_ne hwriter (by simp))
    · cases hnext
      refine h.setWriter ⟨row, ?_, ?_, ?_⟩ (h.locks_ne hwriter (by simp))
      · exact hid ▸ hrow
      · exact htime ▸ hle
      · exact hcode' ▸ hcode
  · cases hnext

/-- The `UPDATE` locks the row. -/
theorem InStep.next_update (h : InStep s)
    (hok : UpToDate s (.update t : WarehouseLabel Detail))
    (hnext : warehouseNext s (.update t) = some s') : InStep s' := by
  simp only [warehouseNext] at hnext
  split at hnext
  · rename_i op copy warehouse hwriter
    obtain ⟨hcopy, hid, hcode⟩ := h.writers t _ hwriter
    simp only [UpToDate, hwriter] at hok
    split at hnext
    · rename_i hfree
      cases hnext
      refine ⟨h.ids, h.fresh, h.payloads, h.source, ?_, ?_, h.handled, h.refs⟩
      · intro u x hx
        by_cases hu : u = t
        · subst hu
          simp only [WarehouseState.setWriter, Function.update_self, Option.some.injEq] at hx
          subst hx
          exact ⟨hcopy, hid, hcode, Function.update_self .., hok⟩
        · -- the lock was free, so it is none that another transaction relies on
          simp only [WarehouseState.setWriter, Function.update_of_ne hu] at hx
          refine (h.writers u x hx).mono (fun id row hrow => ⟨row, hrow, Nat.le_refl _, rfl⟩)
            fun id hlock => ⟨?_, rfl⟩
          have hne : id ≠ warehouse.id := by
            rintro rfl
            rw [hfree] at hlock
            cases hlock
          exact (Function.update_of_ne hne ..).trans hlock
      · intro id u hu
        by_cases hne : id = warehouse.id
        · subst hne
          simp only [WarehouseState.setWriter, Function.update_self, Option.some.injEq] at hu
          exact ⟨op, copy, warehouse, hu ▸ Function.update_self .., rfl⟩
        · simp only [WarehouseState.setWriter, Function.update_of_ne hne] at hu
          have hut : u ≠ t := fun heq => h.locks_ne hwriter (by simp) id (heq ▸ hu)
          obtain ⟨op', copy', warehouse', hw, hid'⟩ := h.locks id u hu
          exact ⟨op', copy', warehouse', (Function.update_of_ne hut ..).trans hw, hid'⟩
    · cases hnext
  · cases hnext

/-- An `UPDATE` that was up to date when it locked the row commits. -/
theorem InStep.updates (h : InStep s) {op : WarehouseOp Detail}
    {copy warehouse row : Warehouse Detail}
    (hwriter : s.writers t = some (.updated op copy warehouse))
    (hrow : s.rows warehouse.id = some row) :
    InStep ((s.publish (writeChanged copy warehouse row)
      (emit op.eventType warehouse)).endWriter t) := by
  obtain ⟨⟨row', hrow', -, hcode'⟩, hid, hcode, hlock, hcurrent⟩ := h.writers t _ hwriter
  obtain ⟨hle, hundisturbed⟩ := hcurrent row hrow
  have hrowid : row.id = warehouse.id := h.ids _ _ hrow
  obtain rfl : row' = row := by
    rw [← hid] at hrow'
    exact Option.some.inj (hrow'.symm.trans hrow)
  obtain ⟨ref, href, -, hsrc⟩ := h.source _ _ hrow
  -- no event so far is newer than the copy that is written
  have happlied : applySnapshot (replay (s.events row'.id)) (snapshot warehouse) =
      (snapshot warehouse).toRef := by
    refine applySnapshot_of_le fun old hold => ?_
    rw [hrowid, href] at hold
    cases hold
    exact hsrc ▸ hle
  refine h.publish hrowid.symm ?_ ?_ (fun old hold => ?_) fun u hlock' hu => ?_
  · exact happlied.symm ▸ matches_snapshot (hcode'.trans hcode.symm)
      (undisturbed_writeChanged hundisturbed)
  · exact congrArg WarehouseRef.sourceUpdatedAt happlied
  · obtain rfl : row' = old := by
      have hold' : s.rows row'.id = some old := hold
      rw [hrowid] at hold'
      exact Option.some.inj (hrow.symm.trans hold')
    exact ⟨hle, rfl⟩
  · have hlock'' : s.locks row'.id = some u := hlock'
    rw [hrowid, hlock, Option.some.injEq] at hlock''
    exact absurd hlock''.symm hu

theorem InStep.next_commit (h : InStep s) (hok : UpToDate s (.commit t : WarehouseLabel Detail))
    (hnext : warehouseNext s (.commit t) = some s') : InStep s' := by
  simp only [warehouseNext] at hnext
  split at hnext
  · rename_i warehouse hwriter
    split at hnext
    · rename_i hnone
      cases hnext
      exact h.inserts hnone
    · cases hnext
  · rename_i op copy warehouse hwriter
    obtain ⟨row, hrow, rfl⟩ := Option.map_eq_some_iff.1 hnext
    exact h.updates hwriter hrow
  · rename_i op warehouse hwriter
    obtain ⟨row, hrow, rfl⟩ := Option.map_eq_some_iff.1 hnext
    exact h.announces hwriter hrow hok
  · cases hnext

theorem InStep.next_tick (h : InStep s) {n : Nat}
    (hnext : warehouseNext s (.tick n) = some s') : InStep s' := by
  cases hnext
  exact ⟨h.ids, h.fresh, h.payloads, h.source, h.writers, h.locks, h.handled, h.refs⟩

/-- A consumer handles the next event of a warehouse, or one again. -/
theorem InStep.next_deliver (h : InStep s) {consumer : Consumer} {id n : Nat}
    (hnext : warehouseNext s (.deliver consumer id n) = some s') : InStep s' := by
  simp only [warehouseNext] at hnext
  split at hnext
  · cases hnext
    exact h
  split at hnext
  · rename_i hn
    rw [Option.map_eq_some_iff] at hnext
    obtain ⟨event, hevent, rfl⟩ := hnext
    have hpayload : event.payload.id = id := h.payloads id event (List.mem_of_getElem? hevent)
    have hlt : n < (s.events id).length := (List.getElem?_eq_some_iff.1 hevent).1
    refine ⟨h.ids, h.fresh, h.payloads, h.source, h.writers, h.locks, ?_, ?_⟩
    · intro c i
      by_cases hc : c = consumer
      · subst hc
        by_cases hi : i = id
        · subst hi
          simpa using Nat.succ_le_of_lt hlt
        · simpa [Function.update_of_ne hi] using h.handled c i
      · simpa [Function.update_of_ne hc] using h.handled c i
    · intro c i
      by_cases hc : c = consumer
      · subst hc
        simp only [Function.update_self]
        rw [find_upsertWarehouse, hpayload]
        by_cases hi : i = id
        · -- the replica has handled one event more
          subst hi
          rw [if_pos rfl, Function.update_self, h.refs c i, ← hn, List.take_add_one, hevent,
            Option.toList_some, replay_append]
        · rw [if_neg (Ne.symm hi), Function.update_of_ne hi, h.refs c i]
      · simp only [Function.update_of_ne hc]
        exact h.refs c i
  · cases hnext

end Steps

/-- Every step whose `UPDATE` is up to date keeps the replicas in step. -/
theorem InStep.next [DecidableEq Detail] {s s' : WarehouseState Detail} (h : InStep s)
    {l : WarehouseLabel Detail} (hok : UpToDate s l) (hnext : warehouseNext s l = some s') :
    InStep s' := by
  cases l with
  | create => exact h.next_create hnext
  | load => exact h.next_load hnext
  | set => exact h.next_set hnext
  | flush => exact h.next_flush hnext
  | update => exact h.next_update hok hnext
  | commit => exact h.next_commit hok hnext
  | abort t =>
    simp only [warehouseNext, Option.map_eq_some_iff] at hnext
    obtain ⟨writer, -, rfl⟩ := hnext
    exact h.endWriter t
  | tick => exact h.next_tick hnext
  | deliver => exact h.next_deliver hnext

/-- Along a run in which every `UPDATE` is up to date, a replica that has handled every event of a
warehouse agrees with its row. -/
theorem replicas_converge [DecidableEq Detail] {s : WarehouseState Detail}
    (hrun : warehouses.RunOf UpToDate WarehouseState.empty s) (consumer : Consumer) :
    Converged s consumer := by
  have hstep : InStep s := hrun.preserves (fun _ _ _ h hok hnext => h.next hok hnext) inStep_empty
  exact hstep.converged consumer

/-! ## Two runs -/

/-- An admin. -/
def admin : Principal where
  userId := 1
  role := .admin
  warehouseIds := []

/-- Warehouse 7 is created. -/
def createSample : List (WarehouseLabel Unit) :=
  [.create 0 7 ⟨"KHI-02", "Karachi North", "Karachi", fun _ => none⟩, .flush 0, .commit 0, .tick 1]

/-- Writer 0 renames the warehouse. -/
def loadRename : WarehouseLabel Unit :=
  .load 0 7 admin (.update ⟨some "Karachi East", none, fun _ => none⟩)

/-- Writer 1 takes the warehouse out of service. -/
def loadMaintenance : WarehouseLabel Unit := .load 1 7 admin (.changeStatus .maintenance)

/-- What is left of a writer once it has read the row. -/
def finishWriter (t : Nat) : List (WarehouseLabel Unit) := [.set t, .flush t, .update t, .commit t]

/-- Shipment gets the three events of the warehouse. -/
def deliverAll : List (WarehouseLabel Unit) :=
  [.deliver .shipment 7 0, .deliver .shipment 7 1, .deliver .shipment 7 2]

/-- What the row and the replica say of the status, and whether every event is handled. -/
def statusOf (s : WarehouseState Unit) : Option WarehouseStatus × List String × Bool :=
  ((s.rows 7).map (·.status), (s.replicas .shipment).refs.map (·.status),
    (s.replicas .shipment).handled 7 == (s.events 7).length)

/-- The second writer reads the row after the first one's commit. -/
theorem replicas_converge_after_two_writers :
    ∃ s : WarehouseState Unit, warehouses.RunOf UpToDate WarehouseState.empty s ∧
      statusOf s = (some .maintenance, ["maintenance"], true) ∧ Converged s .shipment := by
  have hexec : (warehouses.execOf UpToDate (WarehouseState.empty : WarehouseState Unit)
      (createSample ++ loadRename :: finishWriter 0 ++ loadMaintenance :: finishWriter 1 ++
        deliverAll)).map statusOf = some (some .maintenance, ["maintenance"], true) := by
    decide +kernel
  obtain ⟨s, hs, hstatus⟩ := Option.map_eq_some_iff.1 hexec
  have hrun := Machine.runOf_of_execOf _ hs
  exact ⟨s, hrun, hstatus, replicas_converge hrun .shipment⟩

/-- Both writers read the active warehouse; the rename commits last, and its snapshot says
active. -/
theorem not_converged_after_stale_copy :
    ∃ s : WarehouseState Unit, warehouses.Run WarehouseState.empty s ∧
      statusOf s = (some .maintenance, ["active"], true) ∧ ¬ Converged s .shipment := by
  have hexec : (warehouses.exec (WarehouseState.empty : WarehouseState Unit)
      (createSample ++ [loadRename, loadMaintenance] ++ finishWriter 1 ++ finishWriter 0 ++
        deliverAll)).map statusOf = some (some .maintenance, ["active"], true) := by
    decide +kernel
  obtain ⟨s, hs, hstatus⟩ := Option.map_eq_some_iff.1 hexec
  refine ⟨s, Machine.run_of_exec _ hs, hstatus, fun hconverged => ?_⟩
  simp only [statusOf, Prod.mk.injEq, beq_iff_eq, Option.map_eq_some_iff] at hstatus
  obtain ⟨⟨row, hrow, hrowstatus⟩, hrefs, hall⟩ := hstatus
  obtain ⟨ref, href, hmatches⟩ := hconverged 7 row hrow hall
  have hmem : ref.status ∈ (s.replicas .shipment).refs.map (·.status) :=
    List.mem_map_of_mem (List.mem_of_find?_eq_some href)
  rw [hrefs, List.mem_singleton, hmatches.status, hrowstatus] at hmem
  exact absurd hmem (by decide)

end SmartLogistics.Warehouse
