import SmartLogistics.Shipment.AuditTrail

/-!
# The snapshots a shipment publishes

Every event of a shipment carries a summary of its row, with the version. A consumer that keeps the
last one goes back in time if an older version follows a newer one (`Forward`).

An `update` that changes nothing sends no `UPDATE`, so no version is checked: it publishes the row
as it read it. `fresh` says that such a snapshot is still the newest when its `seq` is drawn, and
`forward_of_run` that `Forward` holds along runs in which it always is. `not_forward` is a run in
which it is not.
-/

set_option autoImplicit false

namespace SmartLogistics.Shipment

open SmartLogistics.Library SmartLogistics.Platform

/-! ## What is published -/

/-- The summary that an event carries. -/
abbrev snapshot (event : OutboxEvent ShipmentPayload) : ShipmentSummary :=
  event.envelope.payload.summary

/-- The snapshots of these events never go back in time: in the order of `seq` the versions of a
shipment do not decrease, and those of one version have one status. -/
structure Forward (events : Set (OutboxEvent ShipmentPayload)) : Prop where
  version_le : ∀ event ∈ events, ∀ later ∈ events, (snapshot event).id = (snapshot later).id →
    event.seq < later.seq → (snapshot event).version ≤ (snapshot later).version
  status_eq : ∀ event ∈ events, ∀ other ∈ events, (snapshot event).id = (snapshot other).id →
    (snapshot event).version = (snapshot other).version →
    (snapshot event).status = (snapshot other).status

theorem Forward.mono {events events' : Set (OutboxEvent ShipmentPayload)} (h : Forward events)
    (hsub : events' ⊆ events) : Forward events' where
  version_le := fun event he later hl => h.version_le event (hsub he) later (hsub hl)
  status_eq := fun event he other ho => h.status_eq event (hsub he) other (hsub ho)

/-- The next event may carry any snapshot of its shipment that is not older than the others, and
tells their status if it is of their version. -/
theorem Forward.insert {events : Set (OutboxEvent ShipmentPayload)} (h : Forward events)
    {new : OutboxEvent ShipmentPayload} (hseq : ∀ event ∈ events, event.seq < new.seq)
    (hnew : ∀ event ∈ events, (snapshot event).id = (snapshot new).id →
      (snapshot event).version ≤ (snapshot new).version ∧
        ((snapshot event).version = (snapshot new).version →
          (snapshot event).status = (snapshot new).status)) :
    Forward (insert new events) where
  version_le := by
    rintro event (rfl | he) later (rfl | hl) hid hlt
    · exact Nat.le_refl _
    · exact absurd (hseq later hl) (Nat.lt_asymm hlt)
    · exact (hnew event he hid).1
    · exact h.version_le event he later hl hid hlt
  status_eq := by
    rintro event (rfl | he) other (rfl | ho) hid hversion
    · rfl
    · exact ((hnew other ho hid.symm).2 hversion.symm).symm
    · exact (hnew event he hid).2 hversion
    · exact h.status_eq event he other ho hid hversion

/-- A snapshot tells what the committed row of its shipment was: it is of the row's version and
status, or of an earlier version. -/
def Dated (db : Tables) (summary : ShipmentSummary) : Prop :=
  ∃ row ∈ db.shipments, row.id = summary.id ∧ summary.version ≤ row.version ∧
    (summary.version = row.version → summary.status = row.status)

theorem Dated.mono {db db' : Tables} {summary : ShipmentSummary} (h : Dated db summary)
    (hdb : Advances db db') : Dated db' summary := by
  obtain ⟨row, hrow, hid, hle, hstatus⟩ := h
  obtain ⟨row', hrow', hid', rfl | hlt⟩ := hdb row hrow
  · exact ⟨row', hrow', hid'.trans hid, hle, hstatus⟩
  · exact ⟨row', hrow', hid'.trans hid, hle.trans hlt.le, fun heq => by omega⟩

theorem Known.dated {db : Tables} {read : ShipmentRow} (h : Known db read) :
    Dated db (summary read) := by
  obtain ⟨row, hrow, hid, hle, hsame⟩ := h
  exact ⟨row, hrow, hid, hle, fun heq => by rw [hsame heq]; rfl⟩

theorem dated_of_mem {db : Tables} {row : ShipmentRow} (h : row ∈ db.shipments) :
    Dated db (summary row) :=
  ⟨row, h, rfl, Nat.le_refl _, fun _ => rfl⟩

namespace Lifecycle

/-! ## Fresh snapshots -/

/-- The committed row of the shipment has the version that was read. -/
def unchangedSince (db : Tables) (read : ShipmentRow) : Bool :=
  db.shipments.all fun row => row.id != read.id || row.version == read.version

/-- No open transaction has changed the row and inserted its event. -/
def State.unannounced (s : State) (row : RowLock) : Bool :=
  match s.locks row with
  | none => true
  | some t =>
    match s.txns t with
    | some (.staged _ _) => false
    | _ => true

/-- If the step draws the `seq` of an update that changed nothing, no newer version is committed,
and none is announced by an open transaction. -/
def fresh (s : State) : Label → Bool
  | .stage t _ =>
    match s.txns t with
    | some (.flushed (.write read row _ _)) =>
      row != read || (unchangedSince s.db read && s.unannounced (.shipment read.id))
    | _ => true
  | _ => true

/-! ## What a transaction publishes -/

/-- The event of a write tells of the row it leaves. -/
def Work.Tells : Work → Prop
  | .write _ row _ payload => payload.summary = summary row
  | _ => True

theorem tells_of_prepare {db : Tables} {now id barcode : Nat} {op : Op} {work : Work}
    (h : prepare db now id barcode op = .ok work) : work.Tells := by
  cases op with
  | create payload destination packages warehouse reservation principal shipmentId referenceNo =>
    cases h
    trivial
  | update shipmentId payload principal =>
    simp only [prepare, Bind.bind, Except.bind] at h
    repeat' split at h
    all_goals cases h
    rfl
  | changeStatus shipmentId target principal reason expectedVersion =>
    simp only [prepare, Bind.bind, Except.bind] at h
    repeat' split at h
    all_goals cases h
    rfl
  | addPackage shipmentId payload principal =>
    simp only [prepare, Bind.bind, Except.bind] at h
    split at h
    · cases h
    · cases h
      trivial
  | updatePackage packageId payload principal =>
    simp only [prepare, Bind.bind, Except.bind] at h
    split at h
    · cases h
    · cases h
      trivial

/-- The row a transaction leaves. -/
def Work.row? : Work → Option ShipmentRow
  | .insert row _ _ => some row
  | .write _ row _ _ => some row
  | _ => none

/-- An event tells of the row its transaction leaves. -/
theorem Work.Tells.summary_eq {work : Work} (h : work.Tells) {payload : ShipmentPayload}
    (hpayload : work.payload = some payload) :
    ∃ row, work.row? = some row ∧ payload.summary = summary row := by
  cases work with
  | insert row packages entry =>
    cases hpayload
    exact ⟨row, rfl, rfl⟩
  | write read row entry payload' =>
    cases hpayload
    exact ⟨row, rfl, h⟩
  | pack read package => cases hpayload
  | repack read old new => cases hpayload

/-- The row that a write starts from was read. -/
theorem Computed.known {db : Tables} {read row : ShipmentRow}
    {entry : Option ShipmentStatusHistory} {payload : ShipmentPayload}
    (h : Computed db (.write read row entry payload)) : Known db read := by
  cases h <;> assumption

/-- A row that is left without a lock is one that was read. -/
theorem Computed.known_of_unlocked {db : Tables} {work : Work} (h : Computed db work)
    {row : ShipmentRow} (hrow : work.row? = some row)
    (hlocked : work.locked ≠ some (.shipment row.id)) : Known db row := by
  cases work with
  | insert new packages entry =>
    cases hrow
    exact absurd rfl hlocked
  | write read new entry payload =>
    cases hrow
    by_cases heq : row = read
    · exact heq ▸ h.known
    · exact absurd (by rw [Work.locked, if_neg heq, h.write.1]) hlocked
  | pack read package => cases hrow
  | repack read old new => cases hrow

/-! ## The events with a `seq` -/

/-- The events that have their `seq`: the committed ones, and those an open transaction has
inserted. -/
def State.sequenced (s : State) : Set (OutboxEvent ShipmentPayload) :=
  { event | event ∈ s.db.outbox ∨
    ∃ t work events, s.txns t = some (.staged work events) ∧ event ∈ events }

/-- The invariant of the snapshots. -/
structure Timeline (s : State) : Prop where
  story : Story s
  tells : ∀ t txn, s.txns t = some txn → ∀ work, txn.work? = some work → work.Tells
  dated : ∀ event ∈ s.db.outbox, Dated s.db (snapshot event)
  forward : Forward s.sequenced

theorem timeline_empty : Timeline .empty where
  story := story_empty
  tells := fun _ _ h => nomatch h
  dated := fun _ h => absurd h List.not_mem_nil
  forward :=
    { version_le := by
        rintro _ (h | ⟨_, _, _, h, -⟩)
        · exact absurd h List.not_mem_nil
        · cases h
      status_eq := by
        rintro _ (h | ⟨_, _, _, h, -⟩)
        · exact absurd h List.not_mem_nil
        · cases h }

section Steps

variable {s : State}

/-- The `seq` of every event has been drawn. -/
theorem Timeline.seq_lt (h : Timeline s) {event : OutboxEvent ShipmentPayload}
    (hevent : event ∈ s.sequenced) : event.seq < s.nextSeq := by
  rcases hevent with hold | ⟨t, work, events, ht, hmem⟩
  · exact h.story.published event hold
  · exact ((h.story.txns t _ ht).2.2.2 event hmem).1

/-- An event of a row that no transaction has announced a change of tells what the committed row
was. -/
theorem Timeline.dated_of_sequenced (h : Timeline s) {event : OutboxEvent ShipmentPayload}
    (hevent : event ∈ s.sequenced)
    (hfree : s.unannounced (.shipment (snapshot event).id) = true) :
    Dated s.db (snapshot event) := by
  rcases hevent with hold | ⟨t, work, events, ht, hmem⟩
  · exact h.dated event hold
  obtain ⟨hcomputed, hholds, hemits, -⟩ := h.story.txns t _ ht
  obtain ⟨row, hrow, hsummary⟩ := (h.tells t _ ht work rfl).summary_eq (hemits.payload hmem)
  have hid : (snapshot event).id = row.id := congrArg ShipmentSummary.id hsummary
  have hunlocked : work.locked ≠ some (.shipment row.id) := by
    intro hlocked
    simp [State.unannounced, hid, hholds.locked hlocked, ht] at hfree
  rw [snapshot, hsummary]
  exact (hcomputed.known_of_unlocked hrow hunlocked).dated

/-- The row that is locked by the transaction that flushes is not announced. -/
theorem unannounced_of_flushed {t : Nat} {work : Work} (ht : s.txns t = some (.flushed work))
    {row : RowLock} (hlock : s.locks row = some t) : s.unannounced row = true := by
  simp only [State.unannounced, hlock, ht]

/-- The next event is not older than the others of its shipment. -/
theorem Timeline.newest (h : Timeline s) {t eventId : Nat} {work : Work}
    (ht : s.txns t = some (.flushed work)) {payload : ShipmentPayload}
    (hpayload : work.payload = some payload) (hfresh : fresh s (.stage t eventId) = true) :
    ∀ event ∈ s.sequenced, (snapshot event).id = payload.summary.id →
      (snapshot event).version ≤ payload.summary.version ∧
        ((snapshot event).version = payload.summary.version →
          (snapshot event).status = payload.summary.status) := by
  intro event hevent hid
  obtain ⟨hcomputed, hholds⟩ := h.story.txns t _ ht
  obtain ⟨row, hrow, hsummary⟩ := (h.tells t _ ht work rfl).summary_eq hpayload
  rw [hsummary] at hid ⊢
  have hid : (snapshot event).id = row.id := hid
  cases work with
  | insert new packages entry =>
    -- no event tells of a shipment that is not there
    cases hrow
    have hfree := unannounced_of_flushed ht hholds.1
    rw [← hid] at hfree
    obtain ⟨r, hr, hrid, -⟩ := h.dated_of_sequenced hevent hfree
    exact absurd (hrid.trans hid) (hholds.2 r hr)
  | write read new entry payload' =>
    cases hrow
    have hwrite := hcomputed.write
    by_cases hnew : row = read
    · -- nothing changed: the row that was read is the committed one still
      subst hnew
      obtain ⟨committed, hcommitted, hkey, -, hsame⟩ := hcomputed.known
      simp only [fresh, ht, bne_self_eq_false, Bool.false_or, Bool.and_eq_true] at hfresh
      have hversion := List.all_eq_true.1 hfresh.1 committed hcommitted
      rw [Bool.or_eq_true, bne_iff_ne, beq_iff_eq] at hversion
      have heq : committed = row := hsame (hversion.resolve_left fun hne => hne hkey).symm
      rw [← hid] at hfresh
      obtain ⟨r, hr, hrid, hle, hstatus⟩ := h.dated_of_sequenced hevent hfresh.2
      have hr' : r = row := heq ▸ h.story.eq_of_id hr hcommitted (hrid.trans (hid.trans hkey.symm))
      rw [← hr']
      exact ⟨hle, hstatus⟩
    · -- the row is written under its lock, in the next version
      obtain ⟨hlock, hread⟩ := hholds hnew
      have hfree := unannounced_of_flushed ht hlock
      rw [← hwrite.1, ← hid] at hfree
      obtain ⟨r, hr, hrid, hle, -⟩ := h.dated_of_sequenced hevent hfree
      have hr' : r = read := h.story.eq_of_id hr hread (hrid.trans (hid.trans hwrite.1))
      have hversion := hwrite.2.resolve_left hnew
      have hlt : (snapshot event).version < (summary row).version := by
        change _ < row.version
        rw [hversion, ← hr']
        exact Nat.lt_succ_of_le hle
      exact ⟨hlt.le, fun heq => absurd heq hlt.ne⟩
  | pack read package => cases hpayload
  | repack read old new => cases hpayload

/-! ## Steps -/

/-- A transaction moves on without a commit: the events with a `seq` are those from before, and
those it has inserted. -/
theorem sequenced_setTxn {s' : State} {t : Nat} {txn : Open} (hdb : s'.db = s.db)
    (htxns : s'.txns = s.txns) : (s'.setTxn t txn).sequenced ⊆
      s.sequenced ∪ { event | ∃ work events, txn = .staged work events ∧ event ∈ events } := by
  rintro event (hold | ⟨u, work, events, hu, hmem⟩)
  · exact Or.inl (Or.inl (hdb ▸ hold))
  · rw [State.setTxn, htxns] at hu
    rcases update_eq_some hu with ⟨-, rfl⟩ | ⟨-, hu⟩
    · exact Or.inr ⟨work, events, rfl, hmem⟩
    · exact Or.inl (Or.inr ⟨u, work, events, hu, hmem⟩)

theorem Timeline.setTxn (h : Timeline s) {s' : State} {t : Nat} {txn : Open}
    (hstory : Story (s'.setTxn t txn)) (hdb : s'.db = s.db) (htxns : s'.txns = s.txns)
    (htells : ∀ work, txn.work? = some work → work.Tells)
    (hforward : Forward (s'.setTxn t txn).sequenced) : Timeline (s'.setTxn t txn) where
  story := hstory
  tells := by
    intro u txn' hu
    rw [State.setTxn, htxns] at hu
    rcases update_eq_some hu with ⟨-, rfl⟩ | ⟨-, hold⟩
    · exact htells
    · exact h.tells u txn' hold
  dated := by
    change ∀ event ∈ s'.db.outbox, Dated s'.db (snapshot event)
    rw [hdb]
    exact h.dated
  forward := hforward

/-- A transaction that has not inserted its event adds none. -/
theorem Timeline.forward_setTxn (h : Timeline s) {s' : State} {t : Nat} {txn : Open}
    (hdb : s'.db = s.db) (htxns : s'.txns = s.txns)
    (hnone : ∀ work events, txn = .staged work events → events = []) :
    Forward (s'.setTxn t txn).sequenced := by
  refine h.forward.mono fun event hevent => ?_
  rcases sequenced_setTxn hdb htxns hevent with hold | ⟨work, events, htxn, hmem⟩
  · exact hold
  · rw [hnone work events htxn] at hmem
    exact absurd hmem List.not_mem_nil

/-- Once a transaction has ended, no event has a `seq` that had none. -/
theorem sequenced_endTxn {t : Nat} {db : Tables}
    (hout : ∀ event ∈ db.outbox, event ∈ s.sequenced) :
    (s.endTxn t db).sequenced ⊆ s.sequenced := by
  rintro event (hold | ⟨u, work, events, hu, hmem⟩)
  · exact hout event hold
  · rcases update_option_eq_some hu with ⟨-, hnone⟩ | ⟨-, hu⟩
    · cases hnone
    · exact Or.inr ⟨u, work, events, hu, hmem⟩

theorem Timeline.endTxn (h : Timeline s) {t : Nat} {db : Tables} (hstory : Story (s.endTxn t db))
    (hout : ∀ event ∈ db.outbox, event ∈ s.sequenced)
    (hdated : ∀ event ∈ db.outbox, Dated db (snapshot event)) : Timeline (s.endTxn t db) where
  story := hstory
  tells := by
    intro u txn hu
    rcases update_option_eq_some hu with ⟨-, hnone⟩ | ⟨-, hold⟩
    · cases hnone
    · exact h.tells u txn hold
  dated := hdated
  forward := h.forward.mono (sequenced_endTxn hout)

/-- The row that a transaction leaves is committed with it, or a later version of it was. -/
theorem Computed.dated_apply {db : Tables} {work : Work} (h : Computed db work)
    {events : List (OutboxEvent ShipmentPayload)} (hadvances : Advances db (work.apply events db))
    {row : ShipmentRow} (hrow : work.row? = some row)
    (hread : ∀ read new entry payload, work = .write read new entry payload → new ≠ read →
      read ∈ db.shipments) : Dated (work.apply events db) (summary row) := by
  cases work with
  | insert new packages entry =>
    cases hrow
    exact dated_of_mem (List.mem_append_right _ List.mem_cons_self)
  | write read new entry payload =>
    cases hrow
    by_cases heq : row = read
    · exact (heq ▸ h.known.mono hadvances : Known _ row).dated
    · have hmem := hread _ _ _ _ rfl heq
      exact dated_of_mem ((mem_shipments_write heq hmem h.write.1).2 (Or.inl rfl))
  | pack read package => cases hrow
  | repack read old new => cases hrow

theorem Timeline.commit (h : Timeline s) {t : Nat} {work : Work}
    {events : List (OutboxEvent ShipmentPayload)} (ht : s.txns t = some (.staged work events)) :
    Timeline (s.endTxn t (work.apply events s.db)) := by
  obtain ⟨hcomputed, hholds, hemits, -⟩ := h.story.txns t _ ht
  have hadvances : Advances s.db (work.apply events s.db) := h.story.advances hcomputed hholds
  refine h.endTxn (h.story.commit ht) (fun event hevent => ?_) fun event hevent => ?_
  · rw [outbox_apply, List.mem_append] at hevent
    exact hevent.imp_right fun hmem => ⟨t, work, events, ht, hmem⟩
  · rw [outbox_apply, List.mem_append] at hevent
    rcases hevent with hold | hmem
    · exact (h.dated event hold).mono hadvances
    · obtain ⟨row, hrow, hsummary⟩ := (h.tells t _ ht work rfl).summary_eq (hemits.payload hmem)
      rw [snapshot, hsummary]
      refine hcomputed.dated_apply hadvances hrow ?_
      rintro read new entry payload rfl hne
      exact (hholds hne).2

theorem Timeline.step (h : Timeline s) {s' : State} {l : Label} (hfresh : fresh s l = true)
    (hstep : Step s l s') : Timeline s' := by
  have hstory := h.story.step hstep
  cases hstep with
  | start hfree =>
    exact h.setTxn hstory rfl rfl (fun _ h => nomatch h)
      (h.forward_setTxn rfl rfl fun _ _ h => nomatch h)
  | read ht hwork =>
    refine h.setTxn hstory rfl rfl (fun _ heq => ?_)
      (h.forward_setTxn rfl rfl fun _ _ h => nomatch h)
    cases heq
    exact tells_of_prepare hwork
  | flush ht hnone =>
    exact h.setTxn hstory rfl rfl (fun work hwork => h.tells _ _ ht work hwork)
      (h.forward_setTxn rfl rfl fun _ _ h => nomatch h)
  | lock ht hrow hfree hok =>
    exact h.setTxn hstory rfl rfl (fun work hwork => h.tells _ _ ht work hwork)
      (h.forward_setTxn rfl rfl fun _ _ h => nomatch h)
  | stage ht hnone =>
    refine h.setTxn hstory rfl rfl (fun work hwork => h.tells _ _ ht work hwork)
      (h.forward_setTxn rfl rfl fun _ _ heq => ?_)
    cases heq
    rfl
  | @emit t eventId work payload ht hsome =>
    refine h.setTxn hstory rfl rfl (fun work hwork => h.tells _ _ ht work hwork) ?_
    have hnew : Forward (insert (emit payload s.nextSeq eventId s.clock) s.sequenced) :=
      h.forward.insert (fun _ hevent => h.seq_lt hevent) (h.newest ht hsome hfresh)
    refine hnew.mono fun event hevent => ?_
    rcases sequenced_setTxn (s := s) rfl rfl hevent with hold | ⟨_, _, heq, hmem⟩
    · exact Or.inr hold
    · cases heq
      exact Or.inl (List.mem_singleton.1 hmem)
  | commit ht hunique => exact h.commit ht
  | stop => exact h.endTxn hstory (fun event hevent => Or.inl hevent) h.dated
  | tick => exact ⟨hstory, h.tells, h.dated, h.forward⟩

end Steps

/-! ## Runs -/

theorem timeline_of_run {s : State} (h : machine.RunOf (fun s l => fresh s l = true) .empty s) :
    Timeline s := by
  have hstep : ∀ s l s', Timeline s → fresh s l = true → machine.next s l = some s' →
      Timeline s' := fun _ _ _ hs hfresh hnext => hs.step hfresh (step_of_next hnext)
  exact h.preserves hstep timeline_empty

/-- The snapshots that are published never go back in time, in every state of every run in which the
snapshot of an update that changes nothing is fresh when its `seq` is drawn. -/
theorem forward_of_run {s : State} (h : machine.RunOf (fun s l => fresh s l = true) .empty s) :
    Forward { event | event ∈ s.db.outbox } :=
  (timeline_of_run h).forward.mono fun _ hevent => Or.inl hevent

/-- An update that sends the customer's reference a shipment has. -/
def sampleUpdate : Op :=
  .update 50
    { customerReference := some none
      serviceLevel := none
      priority := none
      promisedDeliveryAt := none
      declaredValue := none
      specialInstructions := none }
    sampleAdmin

/-- The update publishes what it read before the move, and is committed after it. -/
def announced : List Label :=
  transaction 0 9 sampleCreate ++
    [.start 1 sampleUpdate, .start 2 (sampleMove .readyForDispatch), .read 1 20 20, .read 2 30 30,
      .flush 2, .flush 1, .stage 1 21, .stage 2 31, .commit 2, .commit 1]

theorem forward_of_announced : ∃ s, machine.RunOf (fun s l => fresh s l = true) .empty s ∧
    s.db.outbox.map (fun event => (event.seq, (snapshot event).version)) =
      [(1, 1), (3, 2), (2, 1)] ∧
    Forward { event | event ∈ s.db.outbox } := by
  have hrun : (machine.execOf (fun s l => fresh s l = true) .empty announced).map
      (fun s => s.db.outbox.map fun event => (event.seq, (snapshot event).version)) =
        some [(1, 1), (3, 2), (2, 1)] := by
    decide +kernel
  obtain ⟨s, hs, hevents⟩ := Option.map_eq_some_iff.1 hrun
  exact ⟨s, Machine.runOf_of_execOf _ hs, hevents, forward_of_run (Machine.runOf_of_execOf _ hs)⟩

/-- The same update, with the move committed before it draws its `seq`. -/
def overtaken : List Label :=
  transaction 0 9 sampleCreate ++ [.start 1 sampleUpdate, .read 1 20 20] ++
    transaction 2 30 (sampleMove .readyForDispatch) ++ [.flush 1, .stage 1 21, .commit 1]

/-- An update that changes nothing publishes an older version after a newer one. -/
theorem not_forward :
    ∃ s, machine.Run .empty s ∧ ¬ Forward { event | event ∈ s.db.outbox } := by
  have hrun : (machine.exec .empty overtaken).map
      (fun s => s.db.outbox.map fun event =>
        (event.seq, (snapshot event).id, (snapshot event).version)) =
        some [(1, 50, 1), (2, 50, 2), (3, 50, 1)] := by
    decide +kernel
  obtain ⟨s, hs, hevents⟩ := Option.map_eq_some_iff.1 hrun
  refine ⟨s, Machine.run_of_exec _ hs, fun hforward => ?_⟩
  have hmem : ∀ row ∈ [(1, 50, 1), (2, 50, 2), (3, 50, 1)], ∃ event ∈ s.db.outbox,
      (event.seq, (snapshot event).id, (snapshot event).version) = row := by
    rw [← hevents]
    exact fun row hrow => List.mem_map.1 hrow
  obtain ⟨event, he, heq⟩ := hmem (2, 50, 2) (by decide)
  obtain ⟨later, hl, hleq⟩ := hmem (3, 50, 1) (by decide)
  simp only [Prod.mk.injEq] at heq hleq
  have hle := hforward.version_le event he later hl (heq.2.1.trans hleq.2.1.symm) (by omega)
  omega

end Lifecycle

end SmartLogistics.Shipment
