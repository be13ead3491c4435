import SmartLogistics.Library.History
import SmartLogistics.Shipment.Packing

/-!
# Who moves a shipment

An audit row names the actor of a change, with the role it acted in. The check is made when the row
of the shipment is read and the audit row is committed four steps later, with other transactions in
between. `mandated_of_run`: the audit rows of a shipment are the way of the state machine to its
status, and each is of a request that was made, by a principal who could see the shipment as it was
read, in a role that may move it there, and at its warehouse if it is an operator.
-/

set_option autoImplicit false

namespace SmartLogistics.Shipment

open SmartLogistics.Library SmartLogistics.Platform SmartLogistics.Warehouse
  SmartLogistics.Inventory

/-! ## Permission -/

/-- The principal may move the shipment, as it was read, to the status. -/
structure MayMove (principal : Principal) (read : ShipmentRow) (target : ShipmentStatus) :
    Prop where
  sees : visible read.toShipment principal = true
  role : principal.role ∈ transitionRoles target
  site : principal.role = .warehouseOperator → read.originWarehouseId ∈ principal.warehouseIds
  step : canTransition read.status target = true

theorem mayMove_of_changeStatus {read : ShipmentRow} {moved : Shipment} {target : ShipmentStatus}
    {principal : Principal} {reason : Option String} {expectedVersion : Option Nat} {now : Nat}
    (h : changeStatus read.toShipment target principal reason expectedVersion now = .ok moved) :
    MayMove principal read target := by
  have hallowed := (changeStatus_eq_ok h).1
  unfold changeStatus at h
  split at h
  · cases h
  rename_i hsees
  split at h
  · cases h
  rename_i hrole
  split at h
  · cases h
  rename_i hsite
  refine ⟨by simpa using hsees, by simpa using hrole, fun hoperator => ?_, hallowed⟩
  simpa [hoperator, Principal.mayTouchWarehouse, Principal.seesAllWarehouses] using hsite

namespace Lifecycle

/-- What a request that reads the tables records: a new shipment, or a change it may make. -/
inductive Op.Records (db : Tables) (entry : ShipmentStatusHistory) : Op → Prop
  | create {payload : ShipmentCreate} {destination : Address} {packages : List PackageCreate}
      {warehouse : WarehouseRef} {reservation : ReservationResult} {principal : Principal}
      {referenceNo : Nat} (hfrom : entry.fromStatus = none) (hto : entry.toStatus = .created)
      (hactor : entry.actorId = principal.userId) (hrole : entry.actorRole = principal.role) :
      Records db entry (.create payload destination packages warehouse reservation principal
        entry.shipmentId referenceNo)
  | change {principal : Principal} {expectedVersion : Option Nat} (read : ShipmentRow)
      (hread : read ∈ db.shipments) (hid : read.id = entry.shipmentId)
      (hfrom : entry.fromStatus = some read.status) (hmay : MayMove principal read entry.toStatus)
      (hactor : entry.actorId = principal.userId) (hrole : entry.actorRole = principal.role) :
      Records db entry
        (.changeStatus entry.shipmentId entry.toStatus principal entry.reason expectedVersion)

theorem records_of_prepare {db : Tables} {now id barcode : Nat} {op : Op} {work : Work}
    {entry : ShipmentStatusHistory} (h : prepare db now id barcode op = .ok work)
    (hentry : auditRow work = some entry) : op.Records db entry := by
  cases op with
  | create payload destination packages warehouse reservation principal shipmentId referenceNo =>
    cases h
    cases hentry
    exact .create rfl rfl rfl rfl
  | update shipmentId payload principal =>
    simp only [prepare, Bind.bind, Except.bind] at h
    split at h
    · cases h
    split at h
    · cases h
    cases h
    cases hentry
  | changeStatus shipmentId target principal reason expectedVersion =>
    simp only [prepare, Bind.bind, Except.bind] at h
    split at h
    · cases h
    rename_i read hread
    split at h
    · cases h
    rename_i moved hmoved
    cases h
    cases hentry
    obtain ⟨hmem, hid, -, -⟩ := get_eq_ok hread
    subst hid
    exact .change read hmem rfl rfl (mayMove_of_changeStatus hmoved) rfl rfl
  | addPackage shipmentId payload principal =>
    simp only [prepare, Bind.bind, Except.bind] at h
    split at h
    · cases h
    cases h
    cases hentry
  | updatePackage packageId payload principal =>
    simp only [prepare, Bind.bind, Except.bind] at h
    split at h
    · cases h
    cases h
    cases hentry

/-! ## Runs -/

/-- The audit row is of a request that was made, and read the tables of a state on the way. -/
def Mandated (ls : List Label) (entry : ShipmentStatusHistory) : Prop :=
  ∃ before s t op, before <+: ls ∧ machine.exec .empty before = some s ∧
    .start t op ∈ before ∧ op.Records s.db entry

theorem Mandated.mono {ls ls' : List Label} {entry : ShipmentStatusHistory} (h : Mandated ls entry)
    (hls : ls <+: ls') : Mandated ls' entry := by
  obtain ⟨before, s, t, op, hbefore, hexec, hstart, hrecords⟩ := h
  exact ⟨before, s, t, op, hbefore.trans hls, hexec, hstart, hrecords⟩

/-- Every audit row, committed or not, is mandated by the labels so far. -/
structure Traced (s : State) (ls : List Label) : Prop where
  exec : machine.exec .empty ls = some s
  opened : ∀ t op, s.txns t = some (.opened op) → .start t op ∈ ls
  works : ∀ t txn work entry, s.txns t = some txn → txn.work? = some work →
    auditRow work = some entry → Mandated ls entry
  history : ∀ entry ∈ s.db.history, Mandated ls entry

theorem traced_empty : Traced .empty [] where
  exec := rfl
  opened := fun _ _ h => nomatch h
  works := fun _ _ _ _ h => nomatch h
  history := fun _ h => absurd h List.not_mem_nil

/-- An open transaction after a step is as it was, has just started or read, or goes on with its
work. -/
theorem txn_of_step {s s' : State} {l : Label} (h : Step s l s') {u : Nat} {txn' : Open}
    (hu : s'.txns u = some txn') :
    s.txns u = some txn' ∨ (∃ op, l = .start u op ∧ txn' = .opened op) ∨
      (∃ op now id barcode work, s.txns u = some (.opened op) ∧
        prepare s.db now id barcode op = .ok work ∧ txn' = .computed work) ∨
      ∃ txn work, s.txns u = some txn ∧ txn.work? = some work ∧ txn'.work? = some work := by
  cases h with
  | start hfree =>
    rcases update_eq_some hu with ⟨rfl, rfl⟩ | ⟨-, hold⟩
    · exact Or.inr (Or.inl ⟨_, rfl, rfl⟩)
    · exact Or.inl hold
  | read ht hprepare =>
    rcases update_eq_some hu with ⟨rfl, rfl⟩ | ⟨-, hold⟩
    · exact Or.inr (Or.inr (Or.inl ⟨_, _, _, _, _, ht, hprepare, rfl⟩))
    · exact Or.inl hold
  | flush ht =>
    rcases update_eq_some hu with ⟨rfl, rfl⟩ | ⟨-, hold⟩
    · exact Or.inr (Or.inr (Or.inr ⟨_, _, ht, rfl, rfl⟩))
    · exact Or.inl hold
  | lock ht =>
    rcases update_eq_some hu with ⟨rfl, rfl⟩ | ⟨-, hold⟩
    · exact Or.inr (Or.inr (Or.inr ⟨_, _, ht, rfl, rfl⟩))
    · exact Or.inl hold
  | stage ht =>
    rcases update_eq_some hu with ⟨rfl, rfl⟩ | ⟨-, hold⟩
    · exact Or.inr (Or.inr (Or.inr ⟨_, _, ht, rfl, rfl⟩))
    · exact Or.inl hold
  | emit ht =>
    rcases update_eq_some hu with ⟨rfl, rfl⟩ | ⟨-, hold⟩
    · exact Or.inr (Or.inr (Or.inr ⟨_, _, ht, rfl, rfl⟩))
    · exact Or.inl hold
  | commit ht =>
    rcases update_option_eq_some hu with ⟨-, hnone⟩ | ⟨-, hold⟩
    · cases hnone
    · exact Or.inl hold
  | stop =>
    rcases update_option_eq_some hu with ⟨-, hnone⟩ | ⟨-, hold⟩
    · cases hnone
    · exact Or.inl hold
  | tick => exact Or.inl hu

theorem Traced.next {s s' : State} {l : Label} {ls : List Label} (h : Traced s ls)
    (hnext : machine.next s l = some s') : Traced s' (ls ++ [l]) := by
  have hstep : Step s l s' := step_of_next hnext
  have hprefix : ls <+: ls ++ [l] := List.prefix_append ls [l]
  constructor
  · rw [Machine.exec_append, h.exec, Option.bind_some, Machine.exec_singleton]
    exact hnext
  · intro u op hu
    rcases txn_of_step hstep hu with hold | ⟨op', rfl, heq⟩ | ⟨_, _, _, _, _, -, -, heq⟩ |
      ⟨txn, work, -, -, hwork⟩
    · exact List.mem_append_left _ (h.opened u op hold)
    · cases heq
      exact List.mem_append_right _ List.mem_cons_self
    · cases heq
    · cases hwork
  · intro u txn' work entry hu hwork hentry
    rcases txn_of_step hstep hu with hold | ⟨op', -, rfl⟩ |
      ⟨op, now, id, barcode, new, ht, hnew, rfl⟩ | ⟨txn, old, hold, hwork', hsame⟩
    · exact (h.works u txn' work entry hold hwork hentry).mono hprefix
    · cases hwork
    · -- the request has just read
      cases hwork
      exact ⟨ls, s, u, op, hprefix, h.exec, h.opened u op ht, records_of_prepare hnew hentry⟩
    · have heq : old = work := Option.some.inj (hsame.symm.trans hwork)
      exact (h.works u txn work entry hold (heq ▸ hwork') hentry).mono hprefix
  · intro entry hentry
    rcases db_of_step hstep with hdb | ⟨t, work, events, -, ht, -, hdb⟩
    · rw [hdb] at hentry
      exact (h.history entry hentry).mono hprefix
    · rw [hdb, history_apply, List.mem_append, Option.mem_toList] at hentry
      rcases hentry with hold | hnew
      · exact (h.history entry hold).mono hprefix
      · exact (h.works t _ work entry ht rfl hnew).mono hprefix

/-- The status of a shipment is where requests that were made, and may be made, have brought it. -/
theorem mandated_of_run (ls : List Label) {s : State} (hrun : machine.exec .empty ls = some s)
    {row : ShipmentRow} (hrow : row ∈ s.db.shipments) :
    IsPath (s.db.steps row.id) row.status ∧ ∀ entry ∈ s.db.historyOf row.id, Mandated ls entry := by
  have htraced : Traced s ls := Machine.exec_preserves (I := Traced)
    (fun _ _ _ _ h hnext => h.next hnext) ls traced_empty hrun
  have htold : Told s.db row := (story_of_run (Machine.run_of_exec _ hrun)).told row hrow
  refine ⟨htold.oneStory.path, fun entry hentry => ?_⟩
  exact htraced.history entry (List.mem_of_mem_filter hentry)

/-- An operator of the warehouse releases shipment 50 for dispatch; the attempt of an operator of
another one is refused. -/
def releasedByOperator : List Label :=
  transaction 0 9 sampleCreate ++
    [.start 1 (.changeStatus 50 .readyForDispatch ⟨3, .warehouseOperator, [8], none⟩ none none),
      .start 2 (.changeStatus 50 .readyForDispatch ⟨2, .warehouseOperator, [7], none⟩ none none),
      .read 2 30 30, .read 1 20 20, .flush 2, .stage 2 31, .commit 2]

theorem mandated_of_operator :
    ∃ s, machine.exec .empty releasedByOperator = some s ∧
      s.db.history.map (fun entry => (entry.toStatus, entry.actorId, entry.actorRole)) =
        [(.created, sampleAdmin.userId, .admin), (.readyForDispatch, 2, .warehouseOperator)] ∧
      ∀ row ∈ s.db.shipments, IsPath (s.db.steps row.id) row.status ∧
        ∀ entry ∈ s.db.historyOf row.id, Mandated releasedByOperator entry := by
  have hrun : (machine.exec .empty releasedByOperator).map (fun s =>
      s.db.history.map fun entry => (entry.toStatus, entry.actorId, entry.actorRole)) =
      some
        [(.created, sampleAdmin.userId, .admin), (.readyForDispatch, 2, .warehouseOperator)] := by
    decide +kernel
  obtain ⟨s, hs, hhistory⟩ := Option.map_eq_some_iff.1 hrun
  exact ⟨s, hs, hhistory, fun row hrow => mandated_of_run releasedByOperator hs hrow⟩

end Lifecycle

end SmartLogistics.Shipment
