import SmartLogistics.Shipment.Lifecycle
import Mathlib.Data.List.Sort

/-!
# The audit trail, the status and the events

The life cycle of a shipment is written four times: in its status, in the stamps and the counter of
its row, in `shipment_status_history`, and in the outbox. `OneStory` says that the four agree, and
that what they tell is a path of the state machine (`IsPath`).

`one_story`: in every reachable state they agree for every shipment, and a stamp that is written
stays. The induction carries what an open transaction knows (`TxnOk`): the row a status change has
read is the committed one, or an older version of it.
-/

set_option autoImplicit false
set_option linter.dupNamespace false

namespace SmartLogistics.Shipment

open SmartLogistics.Library SmartLogistics.Platform SmartLogistics.Warehouse
  SmartLogistics.Inventory

/-! ## Paths of the state machine -/

/-- A step of a life cycle: the previous status and the status. -/
abbrev StatusStep := Option ShipmentStatus × ShipmentStatus

/-- The steps lead from nothing to the status, along `allowedTransitions`. -/
inductive IsPath : List StatusStep → ShipmentStatus → Prop
  | created : IsPath [(none, .created)] .created
  | move {steps : List StatusStep} {status target : ShipmentStatus} (h : IsPath steps status)
      (hallowed : canTransition status target = true) :
      IsPath (steps ++ [(some status, target)]) target

/-- How often the steps enter a status. -/
def entries (target : ShipmentStatus) (steps : List StatusStep) : Nat :=
  steps.countP fun step => step.2 == target

theorem entries_snoc (target : ShipmentStatus) (steps : List StatusStep) (step : StatusStep) :
    entries target (steps ++ [step]) =
      entries target steps + if step.2 = target then 1 else 0 := by
  simp [entries, List.countP_append, List.countP_cons]

/-- The statuses whose entry is stamped. -/
def stampedStatuses : List ShipmentStatus := [.dispatched, .pickedUp, .delivered, .cancelled]

/-- The stamp of a status. -/
def Shipment.stamp (shipment : Shipment) : ShipmentStatus → Option Nat
  | .dispatched => shipment.dispatchedAt
  | .pickedUp => shipment.pickedUpAt
  | .delivered => shipment.deliveredAt
  | .cancelled => shipment.cancelledAt
  | _ => none

/-- How far a status is from the creation, cycles counted once. -/
def ShipmentStatus.rank : ShipmentStatus → Nat
  | .created | .readyForDispatch | .dispatching | .dispatchFailed => 0
  | .dispatched => 1
  | .pickedUp => 2
  | .inTransit => 3
  | .outForDelivery | .deliveryFailed => 4
  | .delivered | .returnInitiated | .cancelled => 5
  | .returned => 6

/-- A transition does not lead back, and one into a stamped status leads on. -/
theorem rank_of_canTransition {status target : ShipmentStatus}
    (h : canTransition status target = true) :
    status.rank ≤ target.rank ∧ (target ∈ stampedStatuses → status.rank < target.rank) := by
  revert h
  cases status <;> cases target <;> decide

/-- A path enters a stamped status once at most, and then does not fall behind it. -/
theorem IsPath.entries_le {steps : List StatusStep} {status : ShipmentStatus}
    (h : IsPath steps status) {target : ShipmentStatus} (htarget : target ∈ stampedStatuses) :
    entries target steps ≤ 1 ∧ (entries target steps ≠ 0 → target.rank ≤ status.rank) := by
  induction h with
  | created =>
    have hne : entries target [(none, .created)] = 0 := by
      rcases List.mem_cons.1 htarget with rfl | h
      · rfl
      · revert h
        cases target <;> decide
    simp [hne]
  | @move steps status next h hallowed ih =>
    obtain ⟨hle, hlt⟩ := rank_of_canTransition hallowed
    rw [entries_snoc]
    by_cases hnext : next = target
    · subst hnext
      -- the status before is behind the target, so the path has not been there
      have hzero : entries next steps = 0 := by
        by_contra hne
        exact absurd (ih.2 hne) (Nat.not_le.2 (hlt htarget))
      simp [hzero]
    · rw [if_neg hnext, Nat.add_zero]
      exact ⟨ih.1, fun hne => (ih.2 hne).trans hle⟩

/-! ## One change -/

/-- An accepted change assigns what `moveTo` assigns. -/
theorem changeStatus_eq_moveTo {shipment moved : Shipment} {target : ShipmentStatus}
    {principal : Principal} {reason : Option String} {expectedVersion : Option Nat} {now : Nat}
    (h : changeStatus shipment target principal reason expectedVersion now = .ok moved) :
    moved = shipment.moveTo target reason now := by
  unfold changeStatus at h
  repeat' split at h
  all_goals
    cases h
  rfl

/-- A change stamps the status it enters, if that one is stamped. -/
theorem stamp_moveTo (shipment : Shipment) (target : ShipmentStatus) (reason : Option String)
    (now : Nat) {status : ShipmentStatus} (hstatus : status ∈ stampedStatuses) :
    (shipment.moveTo target reason now).stamp status =
      if target = status then some now else shipment.stamp status := by
  cases target <;> cases status <;>
    first
    | rfl
    | exact absurd hstatus (by decide)

/-- A change counts the entries into `delivery_failed`. -/
theorem attempts_moveTo (shipment : Shipment) (target : ShipmentStatus) (reason : Option String)
    (now : Nat) : (shipment.moveTo target reason now).deliveryAttemptCount =
      shipment.deliveryAttemptCount + if target = .deliveryFailed then 1 else 0 := by
  cases target <;> rfl

/-! ## What the tables tell -/

/-- The step an event tells of. -/
def ShipmentPayload.step : ShipmentPayload → Option StatusStep
  | .created summary _ _ _ => some (none, summary.status)
  | .updated _ _ => none
  | .statusChanged summary previousStatus _ _ => some (some previousStatus, summary.status)

namespace Tables

/-- The life cycle of a shipment in its audit rows, in the order they were committed. -/
def steps (db : Tables) (shipmentId : Nat) : List StatusStep :=
  (db.historyOf shipmentId).map fun entry => (entry.fromStatus, entry.toStatus)

/-- The rows of `shipment.created` and `shipment.status_changed` of a shipment. -/
def lifecycleEvents (db : Tables) (shipmentId : Nat) : List (OutboxEvent ShipmentPayload) :=
  db.outbox.filter fun event => event.envelope.payload.summary.id == shipmentId &&
    event.envelope.payload.step.isSome

/-- The life cycle in the outbox, in order of `seq`. -/
def eventSteps (db : Tables) (shipmentId : Nat) : List StatusStep :=
  ((db.lifecycleEvents shipmentId).insertionSort fun a b => a.seq ≤ b.seq).filterMap
    fun event => event.envelope.payload.step

end Tables

/-- The audit rows, the row and the events of a shipment tell one life cycle. -/
structure OneStory (db : Tables) (row : ShipmentRow) : Prop where
  path : IsPath (db.steps row.id) row.status
  stamped_once : ∀ status ∈ stampedStatuses, entries status (db.steps row.id) ≤ 1
  stamped : ∀ status ∈ stampedStatuses,
    (row.stamp status).isSome ↔ entries status (db.steps row.id) = 1
  attempts : row.deliveryAttemptCount = entries .deliveryFailed (db.steps row.id)
  events : db.eventSteps row.id = db.steps row.id

/-- A later row of a shipment has the stamps of an earlier one. -/
def StampsKept (row row' : ShipmentRow) : Prop :=
  row'.id = row.id ∧ ∀ status ∈ stampedStatuses, ∀ time, row.stamp status = some time →
    row'.stamp status = some time

theorem StampsKept.refl (row : ShipmentRow) : StampsKept row row := ⟨rfl, fun _ _ _ h => h⟩

theorem StampsKept.trans {a b c : ShipmentRow} (h : StampsKept a b) (h' : StampsKept b c) :
    StampsKept a c :=
  ⟨h'.1.trans h.1, fun status hmem time htime =>
    h'.2 status hmem time (h.2 status hmem time htime)⟩

/-- `OneStory`, with the events in the order they were committed. -/
structure Told (db : Tables) (row : ShipmentRow) : Prop where
  path : IsPath (db.steps row.id) row.status
  stamped : ∀ status ∈ stampedStatuses,
    (row.stamp status).isSome ↔ entries status (db.steps row.id) = 1
  attempts : row.deliveryAttemptCount = entries .deliveryFailed (db.steps row.id)
  events : (db.lifecycleEvents row.id).filterMap (fun event => event.envelope.payload.step) =
    db.steps row.id
  ordered : (db.lifecycleEvents row.id).Pairwise fun a b => a.seq < b.seq

theorem Told.oneStory {db : Tables} {row : ShipmentRow} (h : Told db row) : OneStory db row where
  path := h.path
  stamped_once := fun _ hstatus => (h.path.entries_le hstatus).1
  stamped := h.stamped
  attempts := h.attempts
  events := by
    rw [Tables.eventSteps, (h.ordered.imp fun hlt => Nat.le_of_lt hlt).insertionSort_eq, h.events]

/-- The story of a shipment depends on its own audit rows and events, and on the status, the stamps
and the counter of its row. -/
theorem Told.congr {db db' : Tables} {read row : ShipmentRow} (h : Told db read)
    (hid : row.id = read.id) (hstatus : row.status = read.status)
    (hstamp : ∀ status, row.stamp status = read.stamp status)
    (hattempts : row.deliveryAttemptCount = read.deliveryAttemptCount)
    (hsteps : db'.steps read.id = db.steps read.id)
    (hevents : db'.lifecycleEvents read.id = db.lifecycleEvents read.id) : Told db' row := by
  constructor
  · rw [hid, hsteps, hstatus]
    exact h.path
  · intro status hmem
    rw [hid, hsteps, hstamp]
    exact h.stamped status hmem
  · rw [hid, hsteps, hattempts]
    exact h.attempts
  · rw [hid, hsteps, hevents]
    exact h.events
  · rw [hid, hevents]
    exact h.ordered

/-- The story of a shipment goes on with a change of its row, its audit row and its event. -/
theorem Told.move {db db' : Tables} {read row : ShipmentRow} (h : Told db read)
    {target : ShipmentStatus} (hallowed : canTransition read.status target = true)
    (hstatus : row.status = target)
    (hstamp : ∀ status ∈ stampedStatuses, (row.stamp status).isSome =
      (decide (target = status) || (read.stamp status).isSome))
    (hattempts : row.deliveryAttemptCount =
      read.deliveryAttemptCount + if target = .deliveryFailed then 1 else 0)
    (hsteps : db'.steps row.id = db.steps read.id ++ [(some read.status, target)])
    {event : OutboxEvent ShipmentPayload}
    (hstep : event.envelope.payload.step = some (some read.status, target))
    (hevents : db'.lifecycleEvents row.id = db.lifecycleEvents read.id ++ [event])
    (hseq : ∀ e ∈ db.lifecycleEvents read.id, e.seq < event.seq) : Told db' row where
  path := by
    rw [hsteps, hstatus]
    exact .move h.path hallowed
  stamped := by
    intro status hmem
    obtain ⟨hle, hrank⟩ := h.path.entries_le hmem
    obtain ⟨-, hlt⟩ := rank_of_canTransition hallowed
    rw [hstamp status hmem, hsteps, entries_snoc, Bool.or_eq_true, decide_eq_true_eq,
      h.stamped status hmem]
    by_cases htarget : target = status
    · subst htarget
      have hzero : entries target (db.steps read.id) = 0 := by
        by_contra hne
        exact absurd (hrank hne) (Nat.not_le.2 (hlt hmem))
      simp [hzero]
    · simp [htarget]
  attempts := by
    rw [hattempts, hsteps, entries_snoc, h.attempts]
  events := by
    rw [hsteps, hevents, List.filterMap_append, h.events]
    simp [hstep]
  ordered := by
    rw [hevents, List.pairwise_append]
    refine ⟨h.ordered, List.pairwise_singleton _ _, fun a ha b hb => ?_⟩
    rw [List.mem_singleton.1 hb]
    exact hseq a ha

/-! ## What a transaction knows -/

/-- The row was read: the committed one is it, or a later version of it. -/
def Known (db : Tables) (read : ShipmentRow) : Prop :=
  ∃ row ∈ db.shipments, row.id = read.id ∧ read.version ≤ row.version ∧
    (read.version = row.version → row = read)

/-- Every row is there still, or in a later version. -/
def Advances (db db' : Tables) : Prop :=
  ∀ row ∈ db.shipments, ∃ row' ∈ db'.shipments, row'.id = row.id ∧
    (row' = row ∨ row.version < row'.version)

theorem Advances.refl (db : Tables) : Advances db db :=
  fun row hrow => ⟨row, hrow, rfl, Or.inl rfl⟩

theorem Known.mono {db db' : Tables} {read : ShipmentRow} (h : Known db read)
    (hdb : Advances db db') : Known db' read := by
  obtain ⟨row, hrow, hid, hle, hsame⟩ := h
  obtain ⟨row', hrow', hid', rfl | hlt⟩ := hdb row hrow
  · exact ⟨row', hrow', hid, hle, hsame⟩
  · exact ⟨row', hrow', hid'.trans hid, by omega, fun heq => by omega⟩

namespace Lifecycle

/-- What a request has computed from the rows it read. -/
inductive Computed (db : Tables) : Work → Prop
  | insert {row : ShipmentRow} {packages : List Package} {entry : ShipmentStatusHistory}
      (hstatus : row.status = .created) (hstamp : ∀ status, row.stamp status = none)
      (hattempts : row.deliveryAttemptCount = 0) (hentry : entry.shipmentId = row.id)
      (hfrom : entry.fromStatus = none) (hto : entry.toStatus = .created) :
      Computed db (.insert row packages entry)
  | edit {read row : ShipmentRow} {payload : ShipmentPayload} (hknown : Known db read)
      (hid : row.id = read.id) (hstatus : row.status = read.status)
      (hstamp : ∀ status, row.stamp status = read.stamp status)
      (hattempts : row.deliveryAttemptCount = read.deliveryAttemptCount)
      (hversion : row = read ∨ row.version = read.version + 1) (hstep : payload.step = none) :
      Computed db (.write read row none payload)
  | move {read row : ShipmentRow} {entry : ShipmentStatusHistory} {payload : ShipmentPayload}
      {target : ShipmentStatus} {now : Nat} (hknown : Known db read)
      (hallowed : canTransition read.status target = true) (hid : row.id = read.id)
      (hstatus : row.status = target)
      (hstamp : ∀ status ∈ stampedStatuses,
        row.stamp status = if target = status then some now else read.stamp status)
      (hattempts : row.deliveryAttemptCount =
        read.deliveryAttemptCount + if target = .deliveryFailed then 1 else 0)
      (hversion : row.version = read.version + 1) (hentry : entry.shipmentId = read.id)
      (hfrom : entry.fromStatus = some read.status) (hto : entry.toStatus = target)
      (hpayload : payload.summary.id = read.id)
      (hstep : payload.step = some (some read.status, target)) :
      Computed db (.write read row (some entry) payload)
  | pack {read : ShipmentRow} {package : Package} : Computed db (.pack read package)
  | repack {read : ShipmentRow} {old new : Package} : Computed db (.repack read old new)

theorem known_of_get {db : Tables} {shipmentId : Nat} {principal : Principal} {row : ShipmentRow}
    (h : get db shipmentId principal = .ok row) : Known db row :=
  ⟨row, (get_eq_ok h).1, rfl, Nat.le_refl _, fun _ => rfl⟩

/-- An update of the contents leaves the life cycle alone. -/
theorem update_eq_ok {row row' : ShipmentRow} {payload : ShipmentUpdate}
    (h : update row payload = .ok row') : row'.id = row.id ∧ row'.status = row.status ∧
      (∀ status, row'.stamp status = row.stamp status) ∧
      row'.deliveryAttemptCount = row.deliveryAttemptCount := by
  unfold update at h
  repeat' split at h
  all_goals
    cases h
    try exact ⟨rfl, rfl, fun status => by cases status <;> rfl, rfl⟩

/-- What a request prepares is computed from the committed rows. -/
theorem computed_of_prepare {db : Tables} {now id barcode : Nat} {op : Op} {work : Work}
    (h : prepare db now id barcode op = .ok work) : Computed db work := by
  cases op with
  | create payload destination packages warehouse reservation principal shipmentId referenceNo =>
    cases h
    exact .insert rfl (fun status => by cases status <;> rfl) rfl rfl rfl rfl
  | update shipmentId payload principal =>
    simp only [prepare, Bind.bind, Except.bind] at h
    split at h
    · cases h
    rename_i read hread
    split at h
    · cases h
    rename_i row hrow
    cases h
    obtain ⟨hid, hstatus, hstamp, hattempts⟩ := update_eq_ok hrow
    unfold versioned
    split
    · rename_i heq
      exact .edit (known_of_get hread) (by rw [heq]) (by rw [heq]) (fun _ => by rw [heq])
        (by rw [heq]) (Or.inl heq) rfl
    · exact .edit (known_of_get hread) hid hstatus
        (fun status => by rw [← hstamp status]; cases status <;> rfl) hattempts (Or.inr rfl) rfl
  | changeStatus shipmentId target principal reason expectedVersion =>
    simp only [prepare, Bind.bind, Except.bind] at h
    split at h
    · cases h
    rename_i read hread
    split at h
    · cases h
    rename_i moved hmoved
    cases h
    obtain ⟨hallowed, hstatus, hversion, hid, -⟩ := changeStatus_eq_ok hmoved
    have hmove := changeStatus_eq_moveTo hmoved
    have hstamp : ∀ status ∈ stampedStatuses,
        moved.stamp status = if target = status then some now else read.stamp status := by
      intro status hmem
      rw [hmove]
      exact stamp_moveTo _ _ _ _ hmem
    have hattempts : moved.deliveryAttemptCount =
        read.deliveryAttemptCount + if target = .deliveryFailed then 1 else 0 := by
      rw [hmove]
      exact attempts_moveTo _ _ _ _
    exact .move (known_of_get hread) hallowed hid hstatus hstamp hattempts hversion rfl rfl rfl hid
      (by simp only [ShipmentPayload.step, summary, hstatus])
  | addPackage shipmentId payload principal =>
    simp only [prepare, Bind.bind, Except.bind] at h
    split at h
    · cases h
    · cases h
      exact .pack
  | updatePackage packageId payload principal =>
    simp only [prepare, Bind.bind, Except.bind] at h
    split at h
    · cases h
    · cases h
      exact .repack

/-- What a flushed transaction holds: the lock on the row it writes, which is as it was read. -/
def Holds (s : State) (t : Nat) : Work → Prop
  | .insert row _ _ =>
    s.locks (.shipment row.id) = some t ∧ ∀ r ∈ s.db.shipments, r.id ≠ row.id
  | .write read row _ _ => row ≠ read →
    s.locks (.shipment read.id) = some t ∧ read ∈ s.db.shipments
  | _ => True

/-- The events are those of the work. -/
def Emits (work : Work) (events : List (OutboxEvent ShipmentPayload)) : Prop :=
  events.map (fun event => event.envelope.payload) = work.payload.toList

/-- An event of a life cycle that is staged comes after those of its shipment. -/
def Follows (s : State) (event : OutboxEvent ShipmentPayload) : Prop :=
  event.seq < s.nextSeq ∧ (event.envelope.payload.step ≠ none →
    ∀ e ∈ s.db.lifecycleEvents event.envelope.payload.summary.id, e.seq < event.seq)

/-- What holds of an open transaction. -/
def TxnOk (s : State) (t : Nat) : Open → Prop
  | .opened _ => True
  | .computed work => Computed s.db work
  | .flushed work => Computed s.db work ∧ Holds s t work
  | .staged work events => Computed s.db work ∧ Holds s t work ∧ Emits work events ∧
    ∀ event ∈ events, Follows s event

/-- The invariant of the transactions on shipments. -/
structure Story (s : State) : Prop where
  keyed : (s.db.shipments.map fun row => row.id).Nodup
  told : ∀ row ∈ s.db.shipments, Told s.db row
  audited : ∀ entry ∈ s.db.history, ∃ row ∈ s.db.shipments, row.id = entry.shipmentId
  published : ∀ event ∈ s.db.outbox, event.seq < s.nextSeq
  published_for : ∀ event ∈ s.db.outbox, event.envelope.payload.step ≠ none →
    ∃ row ∈ s.db.shipments, row.id = event.envelope.payload.summary.id
  txns : ∀ t txn, s.txns t = some txn → TxnOk s t txn

theorem story_empty : Story .empty where
  keyed := List.nodup_nil
  told := fun _ h => absurd h List.not_mem_nil
  audited := fun _ h => absurd h List.not_mem_nil
  published := fun _ h => absurd h List.not_mem_nil
  published_for := fun _ h => absurd h List.not_mem_nil
  txns := fun _ _ h => nomatch h

/-! ## What a commit changes -/

/-- The audit row a transaction inserts. -/
def auditRow : Work → Option ShipmentStatusHistory
  | .insert _ _ entry => some entry
  | .write _ _ entry _ => entry
  | _ => none

theorem history_apply (work : Work) (events : List (OutboxEvent ShipmentPayload)) (db : Tables) :
    (work.apply events db).history = db.history ++ (auditRow work).toList := by
  cases work <;> simp [Work.apply, auditRow]

theorem outbox_apply (work : Work) (events : List (OutboxEvent ShipmentPayload)) (db : Tables) :
    (work.apply events db).outbox = db.outbox ++ events := by
  cases work <;> rfl

theorem steps_apply (work : Work) (events : List (OutboxEvent ShipmentPayload)) (db : Tables)
    (id : Nat) : (work.apply events db).steps id = db.steps id ++
      ((auditRow work).toList.filter (·.shipmentId == id)).map
        fun entry => (entry.fromStatus, entry.toStatus) := by
  rw [Tables.steps, Tables.historyOf, history_apply, List.filter_append, List.map_append]
  rfl

theorem lifecycleEvents_apply (work : Work) (events : List (OutboxEvent ShipmentPayload))
    (db : Tables) (id : Nat) : (work.apply events db).lifecycleEvents id =
      db.lifecycleEvents id ++ events.filter fun event =>
        event.envelope.payload.summary.id == id && event.envelope.payload.step.isSome := by
  rw [Tables.lifecycleEvents, outbox_apply, List.filter_append]
  rfl

/-- An audit row and a life cycle event are of the shipment whose row is locked. -/
theorem Computed.locked {db : Tables} {work : Work} (h : Computed db work) :
    (∀ entry, auditRow work = some entry → work.locked = some (.shipment entry.shipmentId)) ∧
      ∀ payload, work.payload = some payload → payload.step ≠ none →
        work.locked = some (.shipment payload.summary.id) := by
  cases h with
  | insert hstatus hstamp hattempts hentry hfrom hto =>
    refine ⟨fun _ h => ?_, fun _ h _ => ?_⟩
    · cases h
      rw [hentry]
      rfl
    · cases h
      rfl
  | edit hknown hid hstatus hstamp hattempts hversion hstep =>
    refine ⟨fun _ h => (nomatch h), fun _ h hne => ?_⟩
    cases h
    exact absurd hstep hne
  | @move read row entry payload target now hknown hallowed hid hstatus hstamp hattempts hversion
      hentry hfrom hto hpayload hstep =>
    -- the version of the row is new
    have hne : row ≠ read := fun heq => by
      rw [heq] at hversion
      omega
    refine ⟨fun _ h => ?_, fun _ h _ => ?_⟩
    · cases h
      rw [Work.locked, if_neg hne, hentry]
    · cases h
      rw [Work.locked, if_neg hne, hpayload]
  | pack => exact ⟨fun _ h => (nomatch h), fun _ h => (nomatch h)⟩
  | repack => exact ⟨fun _ h => (nomatch h), fun _ h => (nomatch h)⟩

theorem Emits.payload {work : Work} {events : List (OutboxEvent ShipmentPayload)}
    (h : Emits work events) {event : OutboxEvent ShipmentPayload} (hevent : event ∈ events) :
    work.payload = some event.envelope.payload := by
  have hmem : event.envelope.payload ∈ work.payload.toList := by
    rw [← h]
    exact List.mem_map_of_mem hevent
  exact Option.mem_toList.1 hmem

/-- A commit leaves the story of the shipments alone whose row it has not locked. -/
theorem Computed.frame {db : Tables} {work : Work} (h : Computed db work)
    {events : List (OutboxEvent ShipmentPayload)} (hemits : Emits work events) {id : Nat}
    (hid : work.locked ≠ some (.shipment id)) :
    (work.apply events db).steps id = db.steps id ∧
      (work.apply events db).lifecycleEvents id = db.lifecycleEvents id ∧
      ∀ row, row.id = id → (row ∈ (work.apply events db).shipments ↔ row ∈ db.shipments) := by
  refine ⟨?_, ?_, fun row hrow => ?_⟩
  · rw [steps_apply, List.filter_eq_nil_iff.2, List.map_nil, List.append_nil]
    intro entry hentry hkey
    rw [beq_iff_eq] at hkey
    exact hid (hkey ▸ h.locked.1 entry (Option.mem_toList.1 hentry))
  · rw [lifecycleEvents_apply, List.filter_eq_nil_iff.2, List.append_nil]
    intro event hevent hkey
    rw [Bool.and_eq_true, beq_iff_eq, Option.isSome_iff_ne_none] at hkey
    exact hid (hkey.1 ▸ h.locked.2 _ (hemits.payload hevent) hkey.2)
  · cases work with
    | insert new packages entry =>
      have hne : row ≠ new := fun heq => hid (by rw [← hrow, heq]; rfl)
      simp [Work.apply, hne]
    | write read new entry payload =>
      simp only [Work.apply]
      split
      · exact Iff.rfl
      rename_i hnew
      have hne : read.id ≠ id := fun heq => hid (by rw [Work.locked, if_neg hnew, heq])
      have hnewid : new.id = read.id := by
        cases h <;> assumption
      rw [List.mem_map]
      constructor
      · rintro ⟨r, hr, heq⟩
        split at heq
        · rw [← heq, hnewid] at hrow
          exact absurd hrow hne
        · exact heq ▸ hr
      · exact fun hmem => ⟨row, hmem, if_neg fun heq => hne (heq.symm.trans hrow)⟩
    | pack read package => exact Iff.rfl
    | repack read old new => exact Iff.rfl

theorem Computed.mono {db db' : Tables} (hdb : Advances db db') {work : Work}
    (h : Computed db work) : Computed db' work := by
  cases h with
  | insert hstatus hstamp hattempts hentry hfrom hto =>
    exact .insert hstatus hstamp hattempts hentry hfrom hto
  | edit hknown hid hstatus hstamp hattempts hversion hstep =>
    exact .edit (hknown.mono hdb) hid hstatus hstamp hattempts hversion hstep
  | move hknown hallowed hid hstatus hstamp hattempts hversion hentry hfrom hto hpayload hstep =>
    exact .move (hknown.mono hdb) hallowed hid hstatus hstamp hattempts hversion hentry hfrom hto
      hpayload hstep
  | pack => exact .pack
  | repack => exact .repack

/-- A flushed transaction has the lock on the row it writes. -/
theorem Holds.locked {s : State} {t : Nat} {work : Work} (h : Holds s t work) {id : Nat}
    (hid : work.locked = some (.shipment id)) : s.locks (.shipment id) = some t := by
  cases work with
  | insert row packages entry =>
    cases hid
    exact h.1
  | write read row entry payload =>
    rw [Work.locked] at hid
    split at hid
    · cases hid
    · rename_i hne
      cases hid
      exact (h hne).1
  | pack read package => cases hid
  | repack read old new =>
    rw [Work.locked] at hid
    split at hid <;> cases hid

/-- A step keeps what concerns the rows that a transaction has locked. -/
structure Keeps (s s' : State) (t : Nat) : Prop where
  advances : Advances s.db s'.db
  seq : s.nextSeq ≤ s'.nextSeq
  locks : ∀ row, s.locks row = some t → s'.locks row = some t
  events : ∀ id, s.locks (.shipment id) = some t →
    s'.db.lifecycleEvents id = s.db.lifecycleEvents id
  rows : ∀ id, s.locks (.shipment id) = some t → ∀ row, row.id = id →
    (row ∈ s'.db.shipments ↔ row ∈ s.db.shipments)

/-- The tables stay as they are. -/
theorem Keeps.of_db_eq {s s' : State} {t : Nat} (hdb : s'.db = s.db) (hseq : s.nextSeq ≤ s'.nextSeq)
    (hlocks : ∀ row, s.locks row = some t → s'.locks row = some t) : Keeps s s' t where
  advances := by
    rw [hdb]
    exact .refl _
  seq := hseq
  locks := hlocks
  events := fun _ _ => by rw [hdb]
  rows := fun _ _ _ _ => by rw [hdb]

theorem Holds.mono {s s' : State} {t : Nat} (hkeeps : Keeps s s' t) {work : Work}
    (h : Holds s t work) : Holds s' t work := by
  cases work with
  | insert row packages entry =>
    refine ⟨hkeeps.locks _ h.1, fun r hr hid => ?_⟩
    exact h.2 r ((hkeeps.rows _ h.1 r hid).1 hr) hid
  | write read row entry payload =>
    intro hne
    obtain ⟨hlock, hread⟩ := h hne
    exact ⟨hkeeps.locks _ hlock, (hkeeps.rows _ hlock read rfl).2 hread⟩
  | pack read package => trivial
  | repack read old new => trivial

theorem TxnOk.mono {s s' : State} {t : Nat} (hkeeps : Keeps s s' t) {txn : Open}
    (h : TxnOk s t txn) : TxnOk s' t txn := by
  cases txn with
  | opened op => trivial
  | computed work => exact Computed.mono hkeeps.advances h
  | flushed work => exact ⟨h.1.mono hkeeps.advances, h.2.mono hkeeps⟩
  | staged work events =>
    obtain ⟨hcomputed, hholds, hemits, hfollows⟩ := h
    refine ⟨hcomputed.mono hkeeps.advances, hholds.mono hkeeps, hemits,
      fun event hevent => ?_⟩
    obtain ⟨hlt, hafter⟩ := hfollows event hevent
    refine ⟨hlt.trans_le hkeeps.seq, fun hstep => ?_⟩
    -- the event is of a row that is locked
    have hlock := hholds.locked (hcomputed.locked.2 _ (hemits.payload hevent) hstep)
    rw [hkeeps.events _ hlock]
    exact hafter hstep

/-- The invariant goes over to a state with the same tables in which only one transaction moved. -/
theorem Story.congr {s s' : State} (h : Story s) (hdb : s'.db = s.db)
    (hseq : s.nextSeq ≤ s'.nextSeq)
    (htxns : ∀ u txn, s'.txns u = some txn → TxnOk s' u txn) : Story s' where
  keyed := by
    rw [hdb]
    exact h.keyed
  told := by
    rw [hdb]
    exact h.told
  audited := by
    rw [hdb]
    exact h.audited
  published := by
    rw [hdb]
    exact fun event hevent => (h.published event hevent).trans_le hseq
  published_for := by
    rw [hdb]
    exact h.published_for
  txns := htxns

theorem Story.eq_of_id {s : State} (h : Story s) {row row' : ShipmentRow}
    (hrow : row ∈ s.db.shipments) (hrow' : row' ∈ s.db.shipments) (hid : row.id = row'.id) :
    row = row' :=
  List.inj_on_of_nodup_map h.keyed hrow hrow' hid

/-- The row a flushed transaction has read is the committed one still. -/
theorem Story.read_mem {s : State} (hs : Story s) {read row : ShipmentRow}
    {entry : Option ShipmentStatusHistory} {payload : ShipmentPayload}
    (hok : (Work.write read row entry payload).accepted s.db = true) (hknown : Known s.db read) :
    read ∈ s.db.shipments := by
  obtain ⟨committed, hcommitted, hid, -, hsame⟩ := hknown
  obtain ⟨r, hr, hkey⟩ := List.any_eq_true.1 hok
  rw [Bool.and_eq_true, beq_iff_eq, beq_iff_eq] at hkey
  have heq : r = committed := hs.eq_of_id hr hcommitted (hkey.1.trans hid.symm)
  subst heq
  rwa [← hsame hkey.2.symm]

/-! ## The commit of a transaction -/

section Commit

variable {s : State} {t : Nat} {work : Work} {events : List (OutboxEvent ShipmentPayload)}

/-- The rows after a write of a row: the others, and the new one. -/
theorem mem_shipments_write {db : Tables} {read row : ShipmentRow}
    {entry : Option ShipmentStatusHistory} {payload : ShipmentPayload} (hne : row ≠ read)
    (hread : read ∈ db.shipments) (hid : row.id = read.id) {r : ShipmentRow} :
    r ∈ ((Work.write read row entry payload).apply events db).shipments ↔
      r = row ∨ r ∈ db.shipments ∧ r.id ≠ row.id := by
  simp only [Work.apply, if_neg hne, List.mem_map]
  constructor
  · rintro ⟨r', hr', rfl⟩
    split
    · exact Or.inl rfl
    · rename_i hr
      exact Or.inr ⟨hr', fun heq => hr (heq.trans hid)⟩
  · rintro (rfl | ⟨hr, hkey⟩)
    · exact ⟨read, hread, if_pos rfl⟩
    · exact ⟨r, hr, if_neg fun heq => hkey (heq.trans hid.symm)⟩

/-- A write leads from the row that was read to its next version. -/
theorem Computed.write {db : Tables} {read row : ShipmentRow}
    {entry : Option ShipmentStatusHistory} {payload : ShipmentPayload}
    (h : Computed db (.write read row entry payload)) : row.id = read.id ∧
      (row = read ∨ row.version = read.version + 1) := by
  cases h with
  | edit hknown hid hstatus hstamp hattempts hversion hstep => exact ⟨hid, hversion⟩
  | move hknown hallowed hid hstatus hstamp hattempts hversion hentry hfrom hto hpayload hstep =>
    exact ⟨hid, Or.inr hversion⟩

theorem Story.advances (hs : Story s) (hcomputed : Computed s.db work) (hholds : Holds s t work) :
    Advances s.db (work.apply events s.db) := by
  intro r hr
  cases work with
  | insert row packages entry =>
    exact ⟨r, List.mem_append_left _ hr, rfl, Or.inl rfl⟩
  | write read row entry payload =>
    obtain ⟨hid, heq | hversion⟩ := hcomputed.write
    · refine ⟨r, ?_, rfl, Or.inl rfl⟩
      simpa [Work.apply, heq] using hr
    · have hne : row ≠ read := fun heq => by
        rw [heq] at hversion
        omega
      obtain ⟨-, hread⟩ := hholds hne
      by_cases hkey : r.id = row.id
      · have hsame : r = read := hs.eq_of_id hr hread (hkey.trans hid)
        refine ⟨row, (mem_shipments_write hne hread hid).2 (Or.inl rfl), hkey.symm, Or.inr ?_⟩
        rw [hsame, hversion]
        omega
      · exact ⟨r, (mem_shipments_write hne hread hid).2 (Or.inr ⟨hr, hkey⟩), rfl, Or.inl rfl⟩
  | pack read package => exact ⟨r, hr, rfl, Or.inl rfl⟩
  | repack read old new => exact ⟨r, hr, rfl, Or.inl rfl⟩

theorem Story.keyed_apply (hs : Story s) (hcomputed : Computed s.db work)
    (hholds : Holds s t work) :
    ((work.apply events s.db).shipments.map fun row => row.id).Nodup := by
  cases work with
  | insert row packages entry =>
    simp only [Work.apply, List.map_append, List.map_cons, List.map_nil]
    refine List.nodup_append'.2 ⟨hs.keyed, List.nodup_singleton _, fun id hid hnew => ?_⟩
    obtain ⟨r, hr, rfl⟩ := List.mem_map.1 hid
    exact hholds.2 r hr (List.mem_singleton.1 hnew)
  | write read row entry payload =>
    have hid := hcomputed.write.1
    have hmap : ((Work.write read row entry payload).apply events s.db).shipments.map
        (fun row => row.id) = s.db.shipments.map fun row => row.id := by
      simp only [Work.apply]
      split
      · rfl
      rw [List.map_map]
      refine List.map_congr_left fun r _ => ?_
      rw [Function.comp_apply]
      split
      · rename_i hr
        rw [hid, hr]
      · rfl
    rw [hmap]
    exact hs.keyed
  | pack read package => exact hs.keyed
  | repack read old new => exact hs.keyed

/-- A new shipment has one audit row and one event. -/
theorem Story.told_insert (hs : Story s) {row : ShipmentRow} {packages : List Package}
    {entry : ShipmentStatusHistory} (hcomputed : Computed s.db (.insert row packages entry))
    (hholds : Holds s t (.insert row packages entry))
    (hemits : Emits (.insert row packages entry) events) :
    Told ((Work.insert row packages entry).apply events s.db) row := by
  cases hcomputed with
  | insert hstatus hstamp hattempts hentry hfrom hto =>
  -- nothing is told of an id that no row has
  have hold : s.db.steps row.id = [] := by
    rw [Tables.steps, Tables.historyOf, List.filter_eq_nil_iff.2, List.map_nil]
    intro e he hkey
    obtain ⟨r, hr, hid⟩ := hs.audited e he
    exact hholds.2 r hr (hid.trans (beq_iff_eq.1 hkey))
  have hsteps : ((Work.insert row packages entry).apply events s.db).steps row.id =
      [(none, .created)] := by
    rw [steps_apply, hold]
    simp [auditRow, hentry, hfrom, hto]
  obtain ⟨event, rfl⟩ : ∃ event, events = [event] := by
    have hlength := congrArg List.length hemits
    rw [List.length_map] at hlength
    exact List.length_eq_one_iff.1 hlength
  have hpayload : event.envelope.payload = createdPayload row := by
    simpa [Emits, Work.payload] using hemits
  have hevents : ((Work.insert row packages entry).apply [event] s.db).lifecycleEvents row.id =
      [event] := by
    have hnone : s.db.lifecycleEvents row.id = [] := by
      rw [Tables.lifecycleEvents, List.filter_eq_nil_iff]
      intro e he hkey
      rw [Bool.and_eq_true, beq_iff_eq, Option.isSome_iff_ne_none] at hkey
      obtain ⟨r, hr, hid⟩ := hs.published_for e he hkey.2
      exact hholds.2 r hr (hid.trans hkey.1)
    rw [lifecycleEvents_apply, hnone, List.nil_append, List.filter_eq_self]
    intro e he
    rw [List.mem_singleton.1 he, hpayload, Bool.and_eq_true, beq_iff_eq]
    exact ⟨rfl, rfl⟩
  constructor
  · rw [hsteps, hstatus]
    exact .created
  · intro status hmem
    rw [hsteps, hstamp]
    have hzero : entries status [(none, .created)] = 0 := by
      revert hmem
      cases status <;> decide
    simp [hzero]
  · rw [hattempts, hsteps]
    rfl
  · rw [hevents, hsteps, List.filterMap_cons, hpayload]
    simp [createdPayload, ShipmentPayload.step, summary, hstatus]
  · rw [hevents]
    exact List.pairwise_singleton _ _

/-- The event of a write. -/
theorem Emits.write {read row : ShipmentRow} {entry : Option ShipmentStatusHistory}
    {payload : ShipmentPayload} (h : Emits (.write read row entry payload) events) :
    ∃ event, events = [event] ∧ event.envelope.payload = payload := by
  have hlength := congrArg List.length h
  rw [List.length_map] at hlength
  obtain ⟨event, rfl⟩ := List.length_eq_one_iff.1 hlength
  exact ⟨event, rfl, by simpa [Emits, Work.payload] using h⟩

/-- The row that a write leaves has the story of the one it read, with one step more if it is a
change of status. -/
theorem Story.told_write (hs : Story s) {read row : ShipmentRow}
    {entry : Option ShipmentStatusHistory} {payload : ShipmentPayload}
    (hcomputed : Computed s.db (.write read row entry payload)) (hread : read ∈ s.db.shipments)
    (hemits : Emits (.write read row entry payload) events)
    (hfollows : ∀ event ∈ events, Follows s event) :
    Told ((Work.write read row entry payload).apply events s.db) row := by
  obtain ⟨event, rfl, rfl⟩ := hemits.write
  have htold := hs.told read hread
  cases hcomputed with
  | edit hknown hid hstatus hstamp hattempts hversion hstep =>
    refine htold.congr hid hstatus hstamp hattempts ?_ ?_
    · rw [steps_apply]
      simp [auditRow]
    · rw [lifecycleEvents_apply]
      simp [hstep]
  | @move _ _ entry _ target now hknown hallowed hid hstatus hstamp hattempts hversion hentry hfrom
      hto hpayload hstep =>
    refine htold.move hallowed hstatus (fun status hmem => ?_) hattempts ?_ hstep ?_ ?_
    · rw [hstamp status hmem]
      split <;> simp [*]
    · rw [hid, steps_apply]
      simp [auditRow, hentry, hfrom, hto]
    · rw [hid, lifecycleEvents_apply]
      simp [hpayload, hstep]
    · intro e he
      rw [← hpayload] at he
      exact (hfollows event List.mem_cons_self).2 (by simp [hstep]) e he

/-- Every row tells its story after a commit. -/
theorem Story.told_apply (hs : Story s) (ht : TxnOk s t (.staged work events)) :
    ∀ row ∈ (work.apply events s.db).shipments, Told (work.apply events s.db) row := by
  obtain ⟨hcomputed, hholds, hemits, hfollows⟩ := ht
  intro r hr
  by_cases hlocked : work.locked = some (.shipment r.id)
  · cases work with
    | insert row packages entry =>
      rcases List.mem_append.1 hr with hold | hnew
      · have hid : row.id = r.id := by simpa [Work.locked] using hlocked
        exact absurd hid.symm (hholds.2 r hold)
      · rw [List.mem_singleton.1 hnew]
        exact hs.told_insert hcomputed hholds hemits
    | write read row entry payload =>
      have hne : row ≠ read := fun heq => by
        rw [Work.locked, if_pos heq] at hlocked
        cases hlocked
      have hread := (hholds hne).2
      rcases (mem_shipments_write hne hread hcomputed.write.1).1 hr with rfl | ⟨-, hkey⟩
      · exact hs.told_write hcomputed hread hemits hfollows
      · have hid : read.id = r.id := by simpa [Work.locked, hne] using hlocked
        exact absurd (hid.symm.trans hcomputed.write.1.symm) hkey
    | pack read package => cases hlocked
    | repack read old new =>
      rw [Work.locked] at hlocked
      split at hlocked <;> cases hlocked
  · obtain ⟨hsteps, hevents, hrows⟩ := hcomputed.frame hemits hlocked
    exact (hs.told r ((hrows r rfl).1 hr)).congr rfl rfl (fun _ => rfl) rfl hsteps hevents

/-- No commit takes a stamp back. -/
theorem Story.stampsKept_apply (hs : Story s) (hcomputed : Computed s.db work)
    (hholds : Holds s t work) : ∀ row ∈ s.db.shipments,
      ∃ row' ∈ (work.apply events s.db).shipments, StampsKept row row' := by
  intro r hr
  cases work with
  | insert row packages entry =>
    exact ⟨r, List.mem_append_left _ hr, rfl, fun _ _ _ h => h⟩
  | write read row entry payload =>
    by_cases hne : row = read
    · refine ⟨r, ?_, rfl, fun _ _ _ h => h⟩
      simpa [Work.apply, hne] using hr
    have hread := (hholds hne).2
    have hid := hcomputed.write.1
    by_cases hkey : r.id = row.id
    · have hsame : r = read := hs.eq_of_id hr hread (hkey.trans hid)
      subst hsame
      refine ⟨row, (mem_shipments_write hne hread hid).2 (Or.inl rfl), hid, ?_⟩
      intro status hmem time htime
      cases hcomputed with
      | edit hknown hid hstatus hstamp hattempts hversion hstep =>
        rw [hstamp]
        exact htime
      | @move _ _ _ _ target now hknown hallowed hid hstatus hstamp hattempts hversion hentry hfrom
          hto hpayload hstep =>
        -- the path has not entered the status yet if the change enters it
        have hother : target ≠ status := by
          rintro rfl
          have htold := hs.told r hread
          have hone := (htold.stamped target hmem).1 (by rw [htime]; rfl)
          have hrank := (htold.path.entries_le hmem).2 (by omega)
          exact absurd hrank (Nat.not_le.2 ((rank_of_canTransition hallowed).2 hmem))
        rw [hstamp status hmem, if_neg hother]
        exact htime
    · exact ⟨r, (mem_shipments_write hne hread hid).2 (Or.inr ⟨hr, hkey⟩), rfl, fun _ _ _ h => h⟩
  | pack read package => exact ⟨r, hr, rfl, fun _ _ _ h => h⟩
  | repack read old new => exact ⟨r, hr, rfl, fun _ _ _ h => h⟩

end Commit

/-- The other transactions know and hold what they did after a commit. -/
theorem Story.keeps_commit {s : State} (hs : Story s) {t u : Nat} (hut : u ≠ t) {work : Work}
    {events : List (OutboxEvent ShipmentPayload)} (hcomputed : Computed s.db work)
    (hholds : Holds s t work) (hemits : Emits work events) :
    Keeps s (s.endTxn t (work.apply events s.db)) u := by
  -- a row that `u` has locked is not the one `t` has locked
  have hother : ∀ id, s.locks (.shipment id) = some u → work.locked ≠ some (.shipment id) := by
    intro id hlock hid
    have hsame := hholds.locked hid
    rw [hlock] at hsame
    exact hut (Option.some.inj hsame)
  refine ⟨hs.advances hcomputed hholds, Nat.le_refl _, fun row hrow => ?_, fun id hlock => ?_,
    fun id hlock => ?_⟩
  · simp only [State.endTxn, hrow]
    exact if_neg fun heq => hut (Option.some.inj heq)
  · exact (hcomputed.frame hemits (hother id hlock)).2.1
  · exact (hcomputed.frame hemits (hother id hlock)).2.2

/-- A commit keeps the invariant. -/
theorem Story.commit {s : State} (hs : Story s) {t : Nat} {work : Work}
    {events : List (OutboxEvent ShipmentPayload)} (ht : s.txns t = some (.staged work events)) :
    Story (s.endTxn t (work.apply events s.db)) := by
  obtain ⟨hcomputed, hholds, hemits, hfollows⟩ := hs.txns t _ ht
  have hadvances : Advances s.db (work.apply events s.db) := hs.advances hcomputed hholds
  -- the shipment of an audit row or an event has a row after the commit
  have hpresent : ∀ id, work.locked = some (.shipment id) →
      ∃ row ∈ (work.apply events s.db).shipments, row.id = id := by
    intro id hid
    cases work with
    | insert row packages entry =>
      exact ⟨row, List.mem_append_right _ List.mem_cons_self, by simpa [Work.locked] using hid⟩
    | write read row entry payload =>
      have hne : row ≠ read := fun heq => by simp [Work.locked, heq] at hid
      obtain ⟨r, hr, hrid, -⟩ := hadvances read (hholds hne).2
      exact ⟨r, hr, hrid.trans (by simpa [Work.locked, hne] using hid)⟩
    | pack read package => cases hid
    | repack read old new =>
      rw [Work.locked] at hid
      split at hid <;> cases hid
  have hstill : ∀ id, (∃ row ∈ s.db.shipments, row.id = id) →
      ∃ row ∈ (work.apply events s.db).shipments, row.id = id := by
    rintro _ ⟨row, hrow, rfl⟩
    obtain ⟨row', hrow', hid, -⟩ := hadvances row hrow
    exact ⟨row', hrow', hid⟩
  refine ⟨hs.keyed_apply hcomputed hholds, hs.told_apply (hs.txns t _ ht), fun entry hentry => ?_,
    fun event hevent => ?_, fun event hevent hstep => ?_, fun u txn hu => ?_⟩
  · simp only [State.endTxn, history_apply, List.mem_append, Option.mem_toList] at hentry
    rcases hentry with hold | hnew
    · exact hstill _ (hs.audited entry hold)
    · exact hpresent _ (hcomputed.locked.1 entry hnew)
  · simp only [State.endTxn, outbox_apply, List.mem_append] at hevent
    exact hevent.elim (hs.published event) fun hnew => (hfollows event hnew).1
  · simp only [State.endTxn, outbox_apply, List.mem_append] at hevent
    rcases hevent with hold | hnew
    · exact hstill _ (hs.published_for event hold hstep)
    · exact hpresent _ (hcomputed.locked.2 _ (hemits.payload hnew) hstep)
  · rcases update_option_eq_some hu with ⟨-, hnone⟩ | ⟨hut, hold⟩
    · cases hnone
    · exact (hs.txns u txn hold).mono (hs.keeps_commit hut hcomputed hholds hemits)

/-! ## Runs -/

/-- A step of a transaction that commits nothing. -/
theorem Story.setTxn {s s' : State} (hs : Story s) {t : Nat} {txn : Open} (hdb : s'.db = s.db)
    (hseq : s.nextSeq ≤ s'.nextSeq) (htxns : s'.txns = s.txns)
    (hlocks : ∀ u ≠ t, ∀ row, s.locks row = some u → s'.locks row = some u)
    (htxn : TxnOk (s'.setTxn t txn) t txn) : Story (s'.setTxn t txn) := by
  refine hs.congr hdb hseq fun u txn' hu => ?_
  rw [State.setTxn, htxns] at hu
  rcases update_eq_some hu with ⟨rfl, rfl⟩ | ⟨hut, hold⟩
  · exact htxn
  · exact (hs.txns u txn' hold).mono (.of_db_eq hdb hseq (hlocks u hut))

theorem Story.step {s s' : State} {l : Label} (hs : Story s) (h : Step s l s') : Story s' := by
  cases h with
  | start hfree => exact hs.setTxn rfl (Nat.le_refl _) rfl (fun _ _ _ h => h) trivial
  | read ht hwork =>
    exact hs.setTxn rfl (Nat.le_refl _) rfl (fun _ _ _ h => h) (computed_of_prepare hwork)
  | @flush t work ht hnone =>
    have hcomputed : Computed s.db work := hs.txns t _ ht
    refine hs.setTxn rfl (Nat.le_refl _) rfl (fun _ _ _ h => h) ⟨hcomputed, ?_⟩
    cases work with
    | insert row packages entry => cases hnone
    | write read row entry payload => exact fun hne => by simp [Work.locked, hne] at hnone
    | pack read package => trivial
    | repack read old new => trivial
  | @lock t work row ht hrow hfree hok =>
    have hcomputed : Computed s.db work := hs.txns t _ ht
    refine hs.setTxn rfl (Nat.le_refl _) rfl (fun u hut key hkey => ?_) ⟨hcomputed, ?_⟩
    · -- the row was free, so it is not one that `u` holds
      have hne : key ≠ row := by
        rintro rfl
        rw [State.blocked, hkey, Option.any_some, bne_eq_false_iff_eq] at hfree
        exact hut hfree
      exact (Function.update_of_ne hne ..).trans hkey
    · cases work with
      | insert new packages entry =>
        cases hrow
        refine ⟨Function.update_self .., fun r hr hid => ?_⟩
        simp only [Work.accepted, Bool.not_eq_true', List.any_eq_false, beq_iff_eq] at hok
        exact hok r hr hid
      | write read new entry payload =>
        intro hne
        rw [Work.locked, if_neg hne] at hrow
        cases hrow
        refine ⟨Function.update_self .., ?_⟩
        cases hcomputed with
        | edit hknown => exact hs.read_mem hok hknown
        | move hknown => exact hs.read_mem hok hknown
      | pack read package => trivial
      | repack read old new => trivial
  | @stage t eventId work ht hnone =>
    obtain ⟨hcomputed, hholds⟩ := hs.txns t _ ht
    refine hs.setTxn rfl (Nat.le_refl _) rfl (fun _ _ _ h => h) ⟨hcomputed, hholds, ?_, ?_⟩
    · rw [Emits, hnone]
      rfl
    · exact fun event hevent => absurd hevent List.not_mem_nil
  | @emit t eventId work payload ht hsome =>
    obtain ⟨hcomputed, hholds⟩ := hs.txns t _ ht
    have hdb : Keeps s ({ s with nextSeq := s.nextSeq + 1 } : State) t :=
      .of_db_eq rfl (Nat.le_succ _) fun _ h => h
    refine hs.setTxn rfl (Nat.le_succ _) rfl (fun _ _ _ h => h)
      ⟨hcomputed, hholds.mono hdb, ?_, ?_⟩
    · rw [Emits, hsome]
      rfl
    · intro event hevent
      rw [List.mem_singleton.1 hevent]
      exact ⟨Nat.lt_succ_self _, fun _ e he => hs.published e (List.mem_of_mem_filter he)⟩
  | commit ht hunique => exact hs.commit ht
  | @stop t l =>
    refine hs.congr rfl (Nat.le_refl _) fun u txn hu => ?_
    rcases update_option_eq_some hu with ⟨-, hnone⟩ | ⟨hut, hold⟩
    · cases hnone
    · have hkeeps : Keeps s (s.endTxn t s.db) u := by
        refine .of_db_eq rfl (Nat.le_refl _) fun row hrow => ?_
        simp only [State.endTxn, hrow]
        exact if_neg fun heq => hut (Option.some.inj heq)
      exact (hs.txns u txn hold).mono hkeeps
  | tick => exact hs.congr rfl (Nat.le_refl _) fun u txn hu =>
      (hs.txns u txn hu).mono (.of_db_eq rfl (Nat.le_refl _) fun _ h => h)

theorem story_of_run {s : State} (h : machine.Run .empty s) : Story s := by
  have hstep : ∀ s l s', Story s → True → machine.next s l = some s' → Story s' :=
    fun _ _ _ hs _ hnext => hs.step (step_of_next hnext)
  exact h.preserves hstep story_empty

/-- A step takes no stamp back. -/
theorem Story.stampsKept {s s' : State} {l : Label} (hs : Story s) (h : Step s l s') :
    ∀ row ∈ s.db.shipments, ∃ row' ∈ s'.db.shipments, StampsKept row row' := by
  cases h with
  | @commit t work events ht hunique =>
    obtain ⟨hcomputed, hholds, -, -⟩ := hs.txns t _ ht
    exact hs.stampsKept_apply hcomputed hholds
  | _ => exact fun row hrow => ⟨row, hrow, .refl row⟩

theorem stampsKept_of_run {s s' : State} (h : machine.Run .empty s) (hrun : machine.Run s s')
    {row : ShipmentRow} (hrow : row ∈ s.db.shipments) :
    ∃ row' ∈ s'.db.shipments, StampsKept row row' := by
  induction hrun with
  | refl => exact ⟨row, hrow, .refl row⟩
  | @tail s₁ s₂ hrun hnext ih =>
    obtain ⟨row₁, hrow₁, hkept₁⟩ := ih
    obtain ⟨l, -, hnext⟩ := hnext
    obtain ⟨row₂, hrow₂, hkept₂⟩ :=
      (story_of_run (h.trans hrun)).stampsKept (step_of_next hnext) row₁ hrow₁
    exact ⟨row₂, hrow₂, hkept₁.trans hkept₂⟩

/-- The life cycle of a shipment: in every reachable state its audit rows are a path of the state
machine to its status, its stamps and its counter are those of the path, and its events tell the
same path; in every later state a stamp is what it was. -/
theorem one_story {s : State} (h : machine.Run .empty s) :
    (∀ row ∈ s.db.shipments, OneStory s.db row) ∧
      ∀ s', machine.Run s s' → ∀ row ∈ s.db.shipments,
        ∃ row' ∈ s'.db.shipments, StampsKept row row' :=
  ⟨fun row hrow => ((story_of_run h).told row hrow).oneStory,
    fun _ hrun _ hrow => stampsKept_of_run h hrun hrow⟩

/-- A move and a cancellation that read the same version: the first to flush goes through. -/
def raced : List Label :=
  transaction 0 9 sampleCreate ++
    [.start 1 (sampleMove .readyForDispatch), .start 2 (.cancel 50 sampleAdmin "Not needed"),
      .read 1 20 20, .read 2 30 30, .flush 1, .stage 1 21, .commit 1, .flush 2]

theorem one_story_after_race : ∃ s, machine.Run .empty s ∧
    s.db.shipments.map (fun row => row.status) = [.readyForDispatch] ∧
    ∀ row ∈ s.db.shipments, OneStory s.db row := by
  have hrun : (machine.exec .empty raced).map
      (fun s => s.db.shipments.map fun row => row.status) = some [.readyForDispatch] := by
    decide +kernel
  obtain ⟨s, hs, hstatus⟩ := Option.map_eq_some_iff.1 hrun
  exact ⟨s, Machine.run_of_exec _ hs, hstatus, (one_story (Machine.run_of_exec _ hs)).1⟩

end Lifecycle

end SmartLogistics.Shipment
