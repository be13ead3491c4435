import Mathlib.Data.Prod.Lex
import SmartLogistics.Library.Paging
import SmartLogistics.Shipment.Packing
import SmartLogistics.Shipment.Snapshots

/-!
# The times of a shipment

The audit rows of a shipment carry the times of the changes, its row the stamps of four of them. In
every run (`chronicle_of_run`) the audit rows are in order of time as they are committed, and a
stamp lies between the changes before it and the audit row of its own, so the stamps follow the
state machine. The version check carries this: a change that goes through has read the row after the
change before it was committed, and takes its time later.
-/

set_option autoImplicit false

namespace SmartLogistics.Shipment

open SmartLogistics.Library SmartLogistics.Platform SmartLogistics.Warehouse
  SmartLogistics.Inventory

/-! ## Times -/

/-- The times recorded of a shipment agree with the order of its changes. -/
structure Chronicle (db : Tables) (now : Nat) (row : ShipmentRow) : Prop where
  created : row.createdAt ≤ now
  times : (db.historyOf row.id).Pairwise fun a b => a.occurredAt ≤ b.occurredAt
  since : ∀ entry ∈ db.historyOf row.id, row.createdAt ≤ entry.occurredAt ∧ entry.occurredAt ≤ now
  stamped : ∀ status ∈ stampedStatuses, ∀ time, row.stamp status = some time →
    ∃ before entry after, db.historyOf row.id = before ++ entry :: after ∧
      entry.toStatus = status ∧ (∀ e ∈ before, e.occurredAt ≤ time) ∧ row.createdAt ≤ time ∧
        time ≤ entry.occurredAt

theorem Chronicle.congr {db db' : Tables} {now now' : Nat} {read row : ShipmentRow}
    (h : Chronicle db now read) (hnow : now ≤ now') (hid : row.id = read.id)
    (hcreated : row.createdAt = read.createdAt)
    (hstamp : ∀ status, row.stamp status = read.stamp status)
    (hhistory : db'.historyOf read.id = db.historyOf read.id) : Chronicle db' now' row := by
  constructor
  · rw [hcreated]
    exact h.created.trans hnow
  · rw [hid, hhistory]
    exact h.times
  · rw [hid, hhistory, hcreated]
    exact fun entry hentry => ⟨(h.since entry hentry).1, (h.since entry hentry).2.trans hnow⟩
  · rw [hid, hhistory, hcreated]
    intro status hmem time htime
    exact h.stamped status hmem time ((hstamp status).symm.trans htime)

/-- The chronicle of a shipment goes on with a change that takes its time after the last one. -/
theorem Chronicle.move {db db' : Tables} {now time : Nat} {read row : ShipmentRow}
    {entry : ShipmentStatusHistory} (h : Chronicle db now read) (hid : row.id = read.id)
    (hcreated : row.createdAt = read.createdAt)
    (hhistory : db'.historyOf read.id = db.historyOf read.id ++ [entry])
    (hstamp : ∀ status ∈ stampedStatuses,
      row.stamp status = if entry.toStatus = status then some time else read.stamp status)
    (hsince : read.createdAt ≤ time) (htime : time ≤ entry.occurredAt)
    (hnow : entry.occurredAt ≤ now) (hafter : ∀ e ∈ db.historyOf read.id, e.occurredAt ≤ time) :
    Chronicle db' now row := by
  constructor
  · rw [hcreated]
    exact h.created
  · rw [hid, hhistory, List.pairwise_append]
    refine ⟨h.times, List.pairwise_singleton _ _, fun a ha b hb => ?_⟩
    rw [List.mem_singleton.1 hb]
    exact (hafter a ha).trans htime
  · rw [hid, hhistory, hcreated]
    intro e he
    rcases List.mem_append.1 he with hold | hnew
    · exact h.since e hold
    · rw [List.mem_singleton.1 hnew]
      exact ⟨hsince.trans htime, hnow⟩
  · rw [hid, hhistory, hcreated]
    intro status hmem stamp hstamped
    rw [hstamp status hmem] at hstamped
    split at hstamped
    · -- the stamp is the one of this change
      rename_i hto
      cases hstamped
      exact ⟨db.historyOf read.id, entry, [], rfl, hto, hafter, hsince, htime⟩
    · obtain ⟨before, e, after, heq, hto, hbefore, hcreated', hle⟩ :=
        h.stamped status hmem stamp hstamped
      refine ⟨before, e, after ++ [entry], ?_, hto, hbefore, hcreated', hle⟩
      rw [heq, List.append_assoc, List.cons_append]

/-- Along a path of the state machine a stamped status is not entered after a later one. -/
theorem IsPath.rank_sorted {steps : List StatusStep} {status : ShipmentStatus}
    (h : IsPath steps status) :
    steps.Pairwise (fun a b => a.2.rank ≤ b.2.rank) ∧
      ∀ step ∈ steps, step.2.rank ≤ status.rank := by
  induction h with
  | created =>
    refine ⟨List.pairwise_singleton _ _, fun step hstep => ?_⟩
    rw [List.mem_singleton.1 hstep]
  | @move steps status target h hallowed ih =>
    have hrank := (rank_of_canTransition hallowed).1
    constructor
    · rw [List.pairwise_append]
      refine ⟨ih.1, List.pairwise_singleton _ _, fun a ha b hb => ?_⟩
      rw [List.mem_singleton.1 hb]
      exact (ih.2 a ha).trans hrank
    · intro step hstep
      rcases List.mem_append.1 hstep with hold | hnew
      · exact (ih.2 step hold).trans hrank
      · rw [List.mem_singleton.1 hnew]

/-- The stamps of a shipment are in the order of the state machine. -/
theorem Chronicle.stamps_sorted {db : Tables} {now : Nat} {row : ShipmentRow}
    (h : Chronicle db now row) (hpath : IsPath (db.steps row.id) row.status)
    {status later : ShipmentStatus} (hstatus : status ∈ stampedStatuses)
    (hlater : later ∈ stampedStatuses) (hrank : status.rank < later.rank) {time time' : Nat}
    (htime : row.stamp status = some time) (htime' : row.stamp later = some time') :
    time ≤ time' := by
  obtain ⟨before, entry, after, heq, hto, -, -, hle⟩ := h.stamped status hstatus time htime
  obtain ⟨before', entry', after', heq', hto', hbefore', -, -⟩ :=
    h.stamped later hlater time' htime'
  -- the change to the first status is one of those before the change to the second
  have hmem : entry ∈ before' := by
    have hentry : entry ∈ before' ++ entry' :: after' := by
      rw [← heq', heq]
      exact List.mem_append_right _ List.mem_cons_self
    have hsorted := hpath.rank_sorted.1
    rw [Tables.steps, List.pairwise_map, heq'] at hsorted
    rcases List.mem_append.1 hentry with hbefore | hrest
    · exact hbefore
    rcases List.mem_cons.1 hrest with rfl | hafter
    · rw [hto] at hto'
      rw [hto'] at hrank
      exact absurd hrank (Nat.lt_irrefl _)
    · have hback : later.rank ≤ status.rank := by
        have hpair := List.rel_of_pairwise_cons (List.pairwise_append.1 hsorted).2.1 hafter
        simpa [hto, hto'] using hpair
      omega
  exact hle.trans (hbefore' entry hmem)

namespace Lifecycle

/-! ## What a transaction has read -/

/-- The times a request has computed, with the clock at the time it read. -/
inductive Timed (db : Tables) (now : Nat) : Work → Prop
  | insert {row : ShipmentRow} {packages : List Package} {entry : ShipmentStatusHistory}
      (hentry : entry.shipmentId = row.id) (hstamp : ∀ status, row.stamp status = none)
      (hcreated : row.createdAt ≤ entry.occurredAt) (hnow : entry.occurredAt ≤ now) :
      Timed db now (.insert row packages entry)
  | edit {read row : ShipmentRow} {payload : ShipmentPayload} (hid : row.id = read.id)
      (hcreated : row.createdAt = read.createdAt)
      (hstamp : ∀ status, row.stamp status = read.stamp status) :
      Timed db now (.write read row none payload)
  | move {read row : ShipmentRow} {entry : ShipmentStatusHistory} {payload : ShipmentPayload}
      {time : Nat} (hid : row.id = read.id) (hcreated : row.createdAt = read.createdAt)
      (hentry : entry.shipmentId = read.id)
      (hstamp : ∀ status ∈ stampedStatuses,
        row.stamp status = if entry.toStatus = status then some time else read.stamp status)
      (hsince : read.createdAt ≤ time) (htime : time ≤ entry.occurredAt)
      (hnow : entry.occurredAt ≤ now)
      (hafter : read ∈ db.shipments → ∀ e ∈ db.historyOf read.id, e.occurredAt ≤ time) :
      Timed db now (.write read row (some entry) payload)
  | pack {read : ShipmentRow} {package : Package} : Timed db now (.pack read package)
  | repack {read : ShipmentRow} {old new : Package} : Timed db now (.repack read old new)

theorem createdAt_update {row row' : ShipmentRow} {payload : ShipmentUpdate}
    (h : update row payload = .ok row') : row'.createdAt = row.createdAt := by
  unfold update at h
  repeat' split at h
  all_goals
    cases h
    try rfl

theorem timed_of_prepare {db : Tables} {now id barcode : Nat} {op : Op} {work : Work}
    (hrows : ∀ row ∈ db.shipments, Chronicle db now row)
    (h : prepare db now id barcode op = .ok work) : Timed db now work := by
  cases op with
  | create payload destination packages warehouse reservation principal shipmentId referenceNo =>
    cases h
    exact .insert rfl (fun status => by cases status <;> rfl) (Nat.le_refl _) (Nat.le_refl _)
  | update shipmentId payload principal =>
    simp only [prepare, Bind.bind, Except.bind] at h
    split at h
    · cases h
    rename_i read hread
    split at h
    · cases h
    rename_i row hrow
    cases h
    obtain ⟨hid, -, hstamp, -⟩ := update_eq_ok hrow
    have hcreated := createdAt_update hrow
    -- the version goes up only if a column has changed
    unfold versioned
    split
    · rename_i heq
      exact .edit (by rw [heq]) (by rw [heq]) fun _ => by rw [heq]
    · refine .edit hid hcreated fun status => ?_
      rw [← hstamp status]
      cases status <;> rfl
  | changeStatus shipmentId target principal reason expectedVersion =>
    simp only [prepare, Bind.bind, Except.bind] at h
    split at h
    · cases h
    rename_i read hread
    split at h
    · cases h
    rename_i moved hmoved
    cases h
    obtain ⟨-, -, -, hid, -⟩ := changeStatus_eq_ok hmoved
    have hchronicle := hrows read (get_eq_ok hread).1
    -- the new audit row is not older than those of the row it has read
    refine .move hid rfl rfl (fun status hmem => ?_) hchronicle.created (Nat.le_refl _)
      (Nat.le_refl _) fun _ e he => (hchronicle.since e he).2
    have hstamp := stamp_moveTo read.toShipment target reason now hmem
    rw [← changeStatus_eq_moveTo hmoved] at hstamp
    exact hstamp
  | addPackage shipmentId payload principal =>
    simp only [prepare, Bind.bind, Except.bind] at h
    split at h
    · cases h
    · cases h
      exact .pack
  | updatePackage packageId payload principal =>
    simp only [prepare, Bind.bind, Except.bind] at h
    split at h
    · cases h
    · cases h
      exact .repack

/-- What was computed stays right as long as a row that is still there has the audit rows it had. -/
theorem Timed.mono {db db' : Tables} {now now' : Nat} {work : Work} (h : Timed db now work)
    (hnow : now ≤ now') (hdb : ∀ read row entry payload, work = .write read row entry payload →
      read ∈ db'.shipments →
        read ∈ db.shipments ∧ db'.historyOf read.id = db.historyOf read.id) :
    Timed db' now' work := by
  cases h with
  | insert hentry hstamp hcreated hle => exact .insert hentry hstamp hcreated (hle.trans hnow)
  | edit hid hcreated hstamp => exact .edit hid hcreated hstamp
  | move hid hcreated hentry hstamp hsince htime hle hafter =>
    refine .move hid hcreated hentry hstamp hsince htime (hle.trans hnow) fun hread => ?_
    obtain ⟨hmem, hhistory⟩ := hdb _ _ _ _ rfl hread
    rw [hhistory]
    exact hafter hmem
  | pack => exact .pack
  | repack => exact .repack

/-! ## Commits -/

section Commit

variable {s : State} {t : Nat} {work : Work} {events : List (OutboxEvent ShipmentPayload)}

theorem historyOf_apply (work : Work) (events : List (OutboxEvent ShipmentPayload)) (db : Tables)
    (id : Nat) : (work.apply events db).historyOf id =
      db.historyOf id ++ (auditRow work).toList.filter (·.shipmentId == id) := by
  rw [Tables.historyOf, history_apply, List.filter_append]
  rfl

/-- A commit adds audit rows to the shipment whose row it has locked. -/
theorem Computed.historyOf {db : Tables} (h : Computed db work) {id : Nat}
    (hid : work.locked ≠ some (.shipment id)) :
    (work.apply events db).historyOf id = db.historyOf id := by
  rw [historyOf_apply, List.filter_eq_nil_iff.2, List.append_nil]
  intro entry hentry hkey
  rw [beq_iff_eq] at hkey
  exact hid (hkey ▸ h.locked.1 entry (Option.mem_toList.1 hentry))

/-- A row that a transaction has read and that is committed after the commit of another one was so
before it, with the same audit rows. -/
theorem Story.read_of_apply (hs : Story s) (hcomputed : Computed s.db work)
    (hholds : Holds s t work) (hemits : Emits work events) {read : ShipmentRow}
    (hknown : Known s.db read) (hmem : read ∈ (work.apply events s.db).shipments) :
    read ∈ s.db.shipments ∧
      (work.apply events s.db).historyOf read.id = s.db.historyOf read.id := by
  have hfree : work.locked ≠ some (.shipment read.id) := by
    intro hlocked
    obtain ⟨r, hr, hid, hle, -⟩ := hknown
    cases work with
    | insert row packages entry =>
      have hrow : row.id = read.id := by simpa [Work.locked] using hlocked
      exact hholds.2 r hr (hid.trans hrow.symm)
    | write old new entry payload =>
      have hne : new ≠ old := fun heq => by
        rw [Work.locked, if_pos heq] at hlocked
        cases hlocked
      have hold : old.id = read.id := by simpa [Work.locked, hne] using hlocked
      have hmemold := (hholds hne).2
      obtain ⟨hnewid, heq | hversion⟩ := hcomputed.write
      · exact hne heq
      rcases (mem_shipments_write hne hmemold hnewid).1 hmem with rfl | ⟨-, hkey⟩
      · -- nobody has read the version this commit writes
        rw [hs.eq_of_id hr hmemold (hid.trans hold.symm)] at hle
        omega
      · exact hkey (hold.symm.trans hnewid.symm)
    | pack read package => cases hlocked
    | repack read old new =>
      rw [Work.locked] at hlocked
      split at hlocked <;> cases hlocked
  exact ⟨((hcomputed.frame hemits hfree).2.2 read rfl).1 hmem, hcomputed.historyOf hfree⟩

/-- Every row keeps its chronicle in a commit. -/
theorem Story.chronicle_apply (hs : Story s) (ht : TxnOk s t (.staged work events))
    (htimed : Timed s.db s.clock work)
    (hrows : ∀ row ∈ s.db.shipments, Chronicle s.db s.clock row) :
    ∀ row ∈ (work.apply events s.db).shipments,
      Chronicle (work.apply events s.db) s.clock row := by
  obtain ⟨hcomputed, hholds, hemits, -⟩ := ht
  intro r hr
  by_cases hlocked : work.locked = some (.shipment r.id)
  · cases htimed with
    | @insert row packages entry hentry hstamp hcreated hnow =>
      rcases List.mem_append.1 hr with hold | hnew
      · have hid : row.id = r.id := by simpa [Work.locked] using hlocked
        exact absurd hid.symm (hholds.2 r hold)
      rw [List.mem_singleton.1 hnew]
      -- no audit row is of a shipment that has no row
      have hnone : s.db.historyOf row.id = [] := by
        rw [Tables.historyOf, List.filter_eq_nil_iff]
        intro e he hkey
        obtain ⟨r, hr, hid⟩ := hs.audited e he
        exact hholds.2 r hr (hid.trans (beq_iff_eq.1 hkey))
      have hhistory : ((Work.insert row packages entry).apply events s.db).historyOf row.id =
          [entry] := by
        rw [historyOf_apply, hnone]
        simp [auditRow, hentry]
      refine ⟨hcreated.trans hnow, ?_, ?_, fun status _ time htime => ?_⟩
      · rw [hhistory]
        exact List.pairwise_singleton _ _
      · rw [hhistory]
        intro e he
        rw [List.mem_singleton.1 he]
        exact ⟨hcreated, hnow⟩
      · rw [hstamp] at htime
        cases htime
    | @edit read row payload hid hcreated hstamp =>
      have hne : row ≠ read := fun heq => by
        rw [Work.locked, if_pos heq] at hlocked
        cases hlocked
      have hread := (hholds hne).2
      rcases (mem_shipments_write hne hread hid).1 hr with rfl | ⟨-, hkey⟩
      · refine (hrows read hread).congr (Nat.le_refl _) hid hcreated hstamp ?_
        rw [historyOf_apply]
        simp [auditRow]
      · have hold : read.id = r.id := by simpa [Work.locked, hne] using hlocked
        exact absurd (hold.symm.trans hid.symm) hkey
    | @move read row entry payload time hid hcreated hentry hstamp hsince htime hnow hafter =>
      have hne : row ≠ read := fun heq => by
        rw [Work.locked, if_pos heq] at hlocked
        cases hlocked
      have hread := (hholds hne).2
      rcases (mem_shipments_write hne hread hid).1 hr with rfl | ⟨-, hkey⟩
      · refine (hrows read hread).move hid hcreated ?_ hstamp hsince htime hnow (hafter hread)
        rw [historyOf_apply]
        simp [auditRow, hentry]
      · have hold : read.id = r.id := by simpa [Work.locked, hne] using hlocked
        exact absurd (hold.symm.trans hid.symm) hkey
    | pack => cases hlocked
    | repack =>
      rw [Work.locked] at hlocked
      split at hlocked <;> cases hlocked
  · have hold : r ∈ s.db.shipments := ((hcomputed.frame hemits hlocked).2.2 r rfl).1 hr
    exact (hrows r hold).congr (Nat.le_refl _) rfl rfl (fun _ => rfl) (hcomputed.historyOf hlocked)

end Commit

/-! ## Runs -/

/-- The invariant of the times. -/
structure Chronology (s : State) : Prop where
  story : Story s
  rows : ∀ row ∈ s.db.shipments, Chronicle s.db s.clock row
  txns : ∀ t txn, s.txns t = some txn → ∀ work, txn.work? = some work → Timed s.db s.clock work

theorem chronology_empty : Chronology .empty where
  story := story_empty
  rows := fun _ h => absurd h List.not_mem_nil
  txns := fun _ _ h => by cases h

theorem TxnOk.computed {s : State} {t : Nat} {txn : Open} (h : TxnOk s t txn) {work : Work}
    (hwork : txn.work? = some work) : Computed s.db work := by
  cases txn with
  | opened op => cases hwork
  | computed work =>
    cases hwork
    exact h
  | flushed work =>
    cases hwork
    exact h.1
  | staged work events =>
    cases hwork
    exact h.1

/-- A transaction that goes on with the work it has keeps its times. -/
theorem Chronology.keep {s s' : State} (hs : Chronology s) (hstory : Story s') {t : Nat}
    {old new : Open} (hdb : s'.db = s.db) (hclock : s'.clock = s.clock)
    (htxns : s'.txns = Function.update s.txns t (some new)) (ht : s.txns t = some old)
    (hwork : ∀ work, new.work? = some work → old.work? = some work ∨ Timed s.db s.clock work) :
    Chronology s' := by
  refine ⟨hstory, ?_, fun u txn hu work hw => ?_⟩
  · rw [hdb, hclock]
    exact hs.rows
  · rw [htxns] at hu
    rw [hdb, hclock]
    rcases update_eq_some hu with ⟨rfl, rfl⟩ | ⟨-, hold⟩
    · exact (hwork work hw).elim (hs.txns u old ht work) fun h => h
    · exact hs.txns u txn hold work hw

theorem Chronology.step {s s' : State} {l : Label} (hs : Chronology s) (h : Step s l s') :
    Chronology s' := by
  have hstory := hs.story.step h
  cases h with
  | @start t op hfree =>
    refine ⟨hstory, hs.rows, fun u txn hu work hw => ?_⟩
    rcases update_eq_some hu with ⟨-, rfl⟩ | ⟨-, hold⟩
    · cases hw
    · exact hs.txns u txn hold work hw
  | @read t id barcode op work ht hwork =>
    refine hs.keep hstory rfl rfl rfl ht fun work' hw => Or.inr ?_
    cases hw
    exact timed_of_prepare hs.rows hwork
  | flush ht hnone => exact hs.keep hstory rfl rfl rfl ht fun _ hw => Or.inl hw
  | lock ht hrow hfree hok => exact hs.keep hstory rfl rfl rfl ht fun _ hw => Or.inl hw
  | stage ht hnone => exact hs.keep hstory rfl rfl rfl ht fun _ hw => Or.inl hw
  | emit ht hsome => exact hs.keep hstory rfl rfl rfl ht fun _ hw => Or.inl hw
  | @commit t work events ht hunique =>
    have hok := hs.story.txns t _ ht
    refine ⟨hstory, hs.story.chronicle_apply hok (hs.txns t _ ht work rfl) hs.rows,
      fun u txn hu work' hw => ?_⟩
    rcases update_option_eq_some hu with ⟨-, hnone⟩ | ⟨-, hold⟩
    · cases hnone
    · refine (hs.txns u txn hold work' hw).mono (Nat.le_refl _) ?_
      rintro read row entry payload rfl hread
      have hknown := ((hs.story.txns u txn hold).computed hw).known
      exact hs.story.read_of_apply hok.1 hok.2.1 hok.2.2.1 hknown hread
  | stop =>
    refine ⟨hstory, hs.rows, fun u txn hu work hw => ?_⟩
    rcases update_option_eq_some hu with ⟨-, hnone⟩ | ⟨-, hold⟩
    · cases hnone
    · exact hs.txns u txn hold work hw
  | @tick n =>
    have hle : s.clock ≤ s.clock + n := Nat.le_add_right _ _
    refine ⟨hstory, fun row hrow => ?_, fun u txn hu work hw => ?_⟩
    · exact (hs.rows row hrow).congr hle rfl rfl (fun _ => rfl) rfl
    · exact (hs.txns u txn hu work hw).mono hle fun _ _ _ _ _ hread => ⟨hread, rfl⟩

theorem chronology_of_run {s : State} (h : machine.Run .empty s) : Chronology s := by
  have hstep : ∀ s l s', Chronology s → True → machine.next s l = some s' → Chronology s' :=
    fun _ _ _ hs _ hnext => hs.step (step_of_next hnext)
  exact h.preserves hstep chronology_empty

/-- No audit row is changed or taken back. -/
theorem historyOf_of_run {s s' : State} (hrun : machine.Run s s') (id : Nat) :
    s.db.historyOf id <+: s'.db.historyOf id := by
  induction hrun with
  | refl => exact List.prefix_rfl
  | @tail s₁ s₂ hrun hnext ih =>
    obtain ⟨l, -, hnext⟩ := hnext
    refine ih.trans ?_
    rcases db_of_step (step_of_next hnext) with hdb | ⟨t, work, events, -, -, -, hdb⟩
    · exact hdb ▸ List.prefix_rfl
    · rw [hdb, historyOf_apply]
      exact List.prefix_append _ _

/-- The key of `ORDER BY occurred_at, id`. -/
def instant (entry : ShipmentStatusHistory) : Nat ×ₗ Nat := toLex (entry.occurredAt, entry.id)

/-- Audit rows that are committed in order of time are listed with the times in this order, and
themselves in this order if no two have the same time. -/
theorem history_eq_ok {db : Tables} {shipmentId : Nat} {principal : Principal}
    {rows : List ShipmentStatusHistory}
    (htimes : (db.historyOf shipmentId).Pairwise fun a b => a.occurredAt ≤ b.occurredAt)
    (h : history db shipmentId principal = .ok rows) :
    rows.map (·.occurredAt) = (db.historyOf shipmentId).map (·.occurredAt) ∧
      (((db.historyOf shipmentId).map (·.occurredAt)).Nodup → rows = db.historyOf shipmentId) := by
  simp only [history] at h
  split at h
  · cases h
  have hlex : Ordered instant (db.historyOf shipmentId) rows := by
    cases h
    refine ordered_of_le (fun a b => ?_) _
    rw [instant, instant, Prod.Lex.toLex_le_toLex]
  have hlisted : Ordered (fun entry : ShipmentStatusHistory => entry.occurredAt)
      (db.historyOf shipmentId) rows := by
    refine ⟨hlex.perm, hlex.sorted.imp fun hle => ?_⟩
    rw [instant, instant, Prod.Lex.toLex_le_toLex] at hle
    omega
  have hkept : Ordered (fun entry : ShipmentStatusHistory => entry.occurredAt)
      (db.historyOf shipmentId) (db.historyOf shipmentId) := ⟨List.Perm.refl _, htimes⟩
  exact ⟨hlisted.keys_eq.trans hkept.keys_eq.symm,
    hlisted.eq_of_nodup hkept (List.Perm.refl _)⟩

/-- The times of a shipment, in every reachable state: its audit rows are in order of time as they
were committed, its stamps lie between them in the order of the state machine, the history that is
listed has them in this order, and no audit row is ever changed or taken back. -/
theorem chronicle_of_run {s : State} (h : machine.Run .empty s) {row : ShipmentRow}
    (hrow : row ∈ s.db.shipments) :
    Chronicle s.db s.clock row ∧
      (∀ status ∈ stampedStatuses, ∀ later ∈ stampedStatuses, status.rank < later.rank →
        ∀ time time', row.stamp status = some time → row.stamp later = some time' →
          time ≤ time') ∧
      (∀ principal rows, history s.db row.id principal = .ok rows →
        rows.map (·.occurredAt) = (s.db.historyOf row.id).map (·.occurredAt) ∧
          (((s.db.historyOf row.id).map (·.occurredAt)).Nodup →
            IsPath (rows.map fun entry => (entry.fromStatus, entry.toStatus)) row.status)) ∧
      ∀ s', machine.Run s s' → s.db.historyOf row.id <+: s'.db.historyOf row.id := by
  have hchronology := chronology_of_run h
  have hchronicle := hchronology.rows row hrow
  have hpath := (hchronology.story.told row hrow).path
  refine ⟨hchronicle, ?_, fun principal rows hrows => ?_, fun s' hrun => historyOf_of_run hrun _⟩
  · intro status hstatus later hlater hrank time time' htime htime'
    exact hchronicle.stamps_sorted hpath hstatus hlater hrank htime htime'
  · obtain ⟨htimes, hsame⟩ := history_eq_ok hchronicle.times hrows
    refine ⟨htimes, fun hnodup => ?_⟩
    rw [hsame hnodup]
    exact hpath

/-- Shipment 50 is created, readied and dispatched, with time in between. -/
def dispatchedLater : List Label :=
  transaction 0 9 sampleCreate ++ .tick 60 :: transaction 1 20 (sampleMove .readyForDispatch) ++
    .tick 60 :: transaction 2 30 (sampleMove .dispatching) ++
    .tick 60 :: transaction 3 40 (sampleMove .dispatched)

theorem chronicle_after_dispatch : ∃ s, machine.Run .empty s ∧
    (s.db.historyOf 50).map (·.occurredAt) = [0, 60, 120, 180] ∧
    s.db.shipments.map (fun row => row.dispatchedAt) = [some 180] ∧
    ∀ row ∈ s.db.shipments, Chronicle s.db s.clock row := by
  have hrun : (machine.exec .empty dispatchedLater).map
      (fun s => ((s.db.historyOf 50).map (·.occurredAt),
        s.db.shipments.map fun row => row.dispatchedAt)) =
      some ([0, 60, 120, 180], [some 180]) := by
    decide +kernel
  obtain ⟨s, hs, hfacts⟩ := Option.map_eq_some_iff.1 hrun
  obtain ⟨htimes, hstamps⟩ := Prod.mk.inj hfacts
  have hreach := Machine.run_of_exec _ hs
  exact ⟨s, hreach, htimes, hstamps, fun row hrow => (chronicle_of_run hreach hrow).1⟩

end Lifecycle

end SmartLogistics.Shipment
