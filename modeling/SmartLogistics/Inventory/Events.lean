import SmartLogistics.Inventory.Alone
import SmartLogistics.Inventory.Runs
import SmartLogistics.Platform.InTurn
import SmartLogistics.Library.Partition
import Mathlib.Algebra.BigOperators.Group.Multiset.Basic

/-!
# The events Inventory consumes

`buildProcessor` is Inventory's consumer: a warehouse snapshot updates the replica, a created
shipment confirms its holds, a dispatched one commits them, a cancelled one releases them.

What a shipment's event does to its reservations, and whether it fails, depends on these alone
(`events_local`), although shipments share items: a consistent state refuses no write of a handler.
`events_commute`: shipment events processed in two orders that agree on each shipment's own events
succeed and fail alike, and leave the same reservations, stock and ledger entries.
-/

set_option autoImplicit false

namespace SmartLogistics.Inventory

open SmartLogistics.Library SmartLogistics.Platform SmartLogistics.Warehouse

variable {unconfirmedHold now ids : Nat} {db : Db}

/-! ## The processor -/

/-- What Inventory's handlers read of the payload of a shipment event. -/
structure ShipmentPayload where
  id : Nat
  status : String
  reason : Option String
  deriving DecidableEq, Repr

/-- What the events that Inventory consumes are about. -/
inductive EventPayload
  | warehouse (payload : Snapshot)
  | shipment (payload : ShipmentPayload)
  deriving DecidableEq, Repr

/-- An event that Inventory consumes. -/
abbrev Event := EventEnvelope EventPayload

/-- `on_warehouse_snapshot`: the replica of the warehouse is brought up to date. -/
def onWarehouseSnapshot (event : Event) : InventoryTxn Unit :=
  match event.payload with
  | .warehouse payload =>
    Txn.write fun db => .ok { db with warehouseRefs := upsertWarehouse payload db.warehouseRefs }
  | .shipment _ => Txn.raise .keyError

/-- The shipment was recorded: confirm its hold so it never expires. -/
def onShipmentCreated (event : Event) : InventoryTxn Unit :=
  match event.payload with
  | .shipment payload => do
    let _ ← confirm payload.id
    return ()
  | .warehouse _ => Txn.raise .keyError

/-- The reason of a cancellation, if it gives one. -/
def releaseReason : Option String → String
  | some reason => if reason = "" then "Shipment cancelled" else reason
  | none => "Shipment cancelled"

/-- Stock follows the lifecycle: dispatched commits, cancelled releases. -/
def onShipmentStatusChanged (event : Event) : InventoryTxn Unit :=
  match event.payload with
  | .shipment payload =>
    if payload.status = "dispatched" then do
      let _ ← commit payload.id none
      return ()
    else if payload.status = "cancelled" then do
      let _ ← release payload.id (releaseReason payload.reason)
      return ()
    else return ()
  | .warehouse _ => Txn.raise .keyError

/-- `build_processor`: the handlers of Inventory. -/
def buildProcessor : EventProcessor Db Row Failure EventPayload where
  name := "inventory"
  handlers := fun eventType =>
    [("warehouse.created", onWarehouseSnapshot),
     ("warehouse.updated", onWarehouseSnapshot),
     ("warehouse.status_changed", onWarehouseSnapshot),
     ("warehouse.deleted", onWarehouseSnapshot),
     ("warehouse.restored", onWarehouseSnapshot),
     ("shipment.created", onShipmentCreated),
     ("shipment.status_changed", onShipmentStatusChanged)].lookup eventType
  topics := ["warehouse.events", "shipment.events"]

/-- The event is one of a shipment. -/
def IsShipmentEvent (event : Event) : Prop :=
  event.eventType = "shipment.created" ∨ event.eventType = "shipment.status_changed"

instance : DecidablePred IsShipmentEvent := fun event =>
  inferInstanceAs (Decidable (event.eventType = _ ∨ event.eventType = _))

/-- The aggregate the event is about. -/
def aggregateId (event : Event) : Nat :=
  match event.payload with
  | .warehouse payload => payload.id
  | .shipment payload => payload.id

/-! ## What a shipment event asks of its shipment's holds -/

/-- The stock side of a shipment event. -/
inductive StockAction
  | confirm
  | commit
  | release (reason : String)
  | nothing
  /-- The payload is not a shipment's. -/
  | malformed
  deriving DecidableEq, Repr

/-- What an event asks of the stock. -/
def stockAction (event : Event) : StockAction :=
  match event.payload with
  | .warehouse _ => .malformed
  | .shipment payload =>
    if event.eventType = "shipment.created" then .confirm
    else if payload.status = "dispatched" then .commit
    else if payload.status = "cancelled" then .release (releaseReason payload.reason)
    else .nothing

/-- The transaction of an action. -/
def StockAction.program (shipmentId : Nat) : StockAction → InventoryTxn Unit
  | .confirm => do
    let _ ← Inventory.confirm shipmentId
    return ()
  | .commit => do
    let _ ← Inventory.commit shipmentId none
    return ()
  | .release reason => do
    let _ ← Inventory.release shipmentId reason
    return ()
  | .nothing => return ()
  | .malformed => Txn.raise .keyError

/-- What an action makes of a hold of the shipment. -/
def StockAction.onHold (now : Nat) (r : InventoryReservation) : StockAction → InventoryReservation
  | .confirm => if r.confirmedAt.isNone then r.confirm now else r
  | .commit => r.commit now
  | .release reason => r.release reason now
  | .nothing => r
  | .malformed => r

/-- What an action for a shipment makes of a reservation. -/
def StockAction.onRow (action : StockAction) (shipmentId now : Nat) (r : InventoryReservation) :
    InventoryReservation :=
  if isHeldFor shipmentId r then action.onHold now r else r

theorem handlers_of_shipmentEvent {event : Event} (h : IsShipmentEvent event) :
    ∃ handler, buildProcessor.handlers event.eventType = some handler ∧
      handler event = (stockAction event).program (aggregateId event) := by
  rcases h with htype | htype
  · refine ⟨onShipmentCreated, by rw [htype]; rfl, ?_⟩
    unfold onShipmentCreated stockAction aggregateId
    cases event.payload with
    | warehouse payload => rfl
    | shipment payload =>
      simp only
      rw [if_pos htype]
      rfl
  · refine ⟨onShipmentStatusChanged, by rw [htype]; rfl, ?_⟩
    unfold onShipmentStatusChanged stockAction aggregateId
    cases event.payload with
    | warehouse payload => rfl
    | shipment payload =>
      have hne : event.eventType ≠ "shipment.created" := by
        rw [htype]
        decide
      simp only [if_neg hne]
      split
      · rfl
      · split
        · rfl
        · rfl

/-! ## What an action does -/

/-- A ledger entry: the item, the shipment, and the change. -/
def StockMovement.entry (m : StockMovement) : Nat × Option Nat × Int :=
  (m.inventoryItemId, m.referenceId, m.quantityDelta)

/-- The ledger entries of a list of rows. -/
def entriesOf (rows : List StockMovement) : Multiset (Nat × Option Nat × Int) :=
  Multiset.ofList (rows.map StockMovement.entry)

/-- Whether an action succeeds, told from the shipment's reservations. -/
def StockAction.answer (rows : List InventoryReservation) : StockAction → Except Failure Bool
  | .commit =>
    if rows.any (·.status == .held) || rows.any (·.status == .committed) then .ok true
    else .error (.domain (conflictError "This shipment holds no stock to commit."))
  | .malformed => .error .keyError
  | .confirm => .ok true
  | .release _ => .ok true
  | .nothing => .ok true

/-- The ledger entries of an action, told from the shipment's reservations. -/
def StockAction.entries (shipmentId : Nat) (rows : List InventoryReservation) :
    StockAction → Multiset (Nat × Option Nat × Int)
  | .commit => (rows.filter (·.status == .held)).map fun r =>
      (r.inventoryItemId, some shipmentId, -r.quantity)
  | .confirm => 0
  | .release _ => 0
  | .nothing => 0
  | .malformed => 0

/-- The state `db'` is what the action makes of `db`. -/
structure StockAction.Done (action : StockAction) (shipmentId now : Nat) (db db' : Db) : Prop where
  consistent : Consistent db'
  items : db'.items.map (·.id) = db.items.map (·.id)
  reservations : db'.reservations = db.reservations.map (action.onRow shipmentId now)
  movements : ∃ rows, db'.movements = db.movements ++ rows ∧
    entriesOf rows = action.entries shipmentId (forShipment shipmentId db)

theorem contains_heldRows (h : Consistent db) (shipmentId : Nat) {r : InventoryReservation}
    (hr : r ∈ db.reservations) :
    ((heldRows shipmentId db).map InventoryReservation.id).contains r.id =
      isHeldFor shipmentId r := by
  rw [Bool.eq_iff_iff, (selected_heldRows h shipmentId).contains_iff h.reservations hr, heldRows,
    h.reservations.mem_rowsWhere]
  exact and_iff_right hr

/-- Without a hold of the shipment an action changes no row. -/
theorem map_onRow_of_none (action : StockAction) {shipmentId : Nat} (h : Consistent db)
    (hnone : heldRows shipmentId db = []) :
    db.reservations.map (action.onRow shipmentId now) = db.reservations := by
  refine (List.map_congr_left fun r hr => ?_).trans (List.map_id' _)
  rw [StockAction.onRow, ← contains_heldRows h shipmentId hr, hnone]
  rfl

/-- The holds of a shipment are those among its reservations. -/
theorem heldRows_perm (h : Consistent db) (shipmentId : Nat) :
    (heldRows shipmentId db).Perm ((forShipment shipmentId db).filter (·.status == .held)) := by
  refine (List.perm_ext_iff_of_nodup (selected_heldRows h shipmentId).nodup
    ((h.reservations.nodup.filter _).filter _)).2 fun r => ?_
  simp only [mem_heldRows h, List.mem_filter, beq_iff_eq, and_assoc]

theorem any_held (h : Consistent db) (shipmentId : Nat) :
    (forShipment shipmentId db).any (·.status == .held) = true ↔ heldRows shipmentId db ≠ [] := by
  rw [← List.length_pos_iff, (heldRows_perm h shipmentId).length_eq, List.length_pos_iff, Ne,
    List.filter_eq_nil_iff, List.any_eq_true]
  simp

/-- The ledger rows of a dispatch, one a hold. -/
theorem entries_of_dispatches {shipmentId : Nat} {holds : List InventoryReservation}
    {rows : List StockMovement}
    (h : List.Forall₂ (StockMovement.Dispatches shipmentId) holds rows) :
    rows.map StockMovement.entry =
      holds.map fun r => (r.inventoryItemId, some shipmentId, -r.quantity) := by
  induction h with
  | nil => rfl
  | cons hrow _ ih =>
    rw [List.map_cons, List.map_cons, ih, StockMovement.entry, hrow.item, hrow.shipment, hrow.delta]

theorem done_nothing (h : Consistent db) {action : StockAction} (shipmentId now : Nat)
    (hrows : db.reservations.map (action.onRow shipmentId now) = db.reservations)
    (hentries : action.entries shipmentId (forShipment shipmentId db) = 0) :
    action.Done shipmentId now db db where
  consistent := h
  items := rfl
  reservations := hrows.symm
  movements := ⟨[], (List.append_nil _).symm, hentries.symm⟩

theorem done_confirm (h : Consistent db) (shipmentId now : Nat) :
    StockAction.confirm.Done shipmentId now db (db.writeReservations
      (((heldRows shipmentId db).filter (·.confirmedAt.isNone)).map (·.id))
      (InventoryReservation.confirm now)) where
  consistent := h.confirmed _ now
  items := rfl
  reservations := by
    refine List.map_congr_left fun r hr => ?_
    have hs := selected_heldRows h shipmentId
    have hunconfirmed : Selected ((heldRows shipmentId db).filter (·.confirmedAt.isNone)) db :=
      ⟨fun x hx => hs.mem x (List.mem_of_mem_filter hx), hs.nodup.filter _,
        fun x hx => hs.status x (List.mem_of_mem_filter hx)⟩
    have hrow : isHeldFor shipmentId r = true ↔ r ∈ heldRows shipmentId db := by
      rw [← contains_heldRows h shipmentId hr]
      exact hs.contains_iff h.reservations hr
    have hiff := hunconfirmed.contains_iff h.reservations hr
    rw [List.mem_filter, ← hrow] at hiff
    simp only [StockAction.onRow, StockAction.onHold]
    by_cases hheld : isHeldFor shipmentId r = true
    · rw [if_pos hheld]
      exact if_congr (hiff.trans (and_iff_right hheld)) rfl rfl
    · rw [if_neg hheld, if_neg fun hin => hheld (hiff.1 hin).1]
  movements := ⟨[], (List.append_nil _).symm, rfl⟩

theorem done_commit (h : Consistent db) (shipmentId now : Nat) (events : List StockEvent) :
    StockAction.commit.Done shipmentId now db ((db.commitRows (heldRows shipmentId db) now
      (dispatchRows shipmentId none now (heldRows shipmentId db) db)).stage events) where
  consistent := (h.dispatched (selected_heldRows h shipmentId) shipmentId none now).stage events
  items := List.map_map ..
  reservations := List.map_congr_left fun r hr => by
    rw [contains_heldRows h shipmentId hr]
    rfl
  movements := by
    refine ⟨dispatchRows shipmentId none now (heldRows shipmentId db) db, rfl, ?_⟩
    obtain ⟨final, hloop⟩ :=
      commitEach_dispatchRows h (selected_heldRows h shipmentId) shipmentId none now
    rw [entriesOf, entries_of_dispatches (commitEach_dispatches hloop)]
    exact Multiset.coe_eq_coe.2 ((heldRows_perm h shipmentId).map _)

theorem done_release (h : Consistent db) (shipmentId now : Nat) (reason : String)
    (events : List StockEvent) : (StockAction.release reason).Done shipmentId now db
      ((db.releaseRows (heldRows shipmentId db) reason now).stage events) where
  consistent := (h.released (selected_heldRows h shipmentId) reason now).stage events
  items := List.map_map ..
  reservations := List.map_congr_left fun r hr => by
    rw [contains_heldRows h shipmentId hr]
    rfl
  movements := ⟨[], (List.append_nil _).symm, rfl⟩

/-- An action that leaves holds as they are changes no row. -/
theorem map_onRow_of_keep (action : StockAction) {shipmentId : Nat}
    (hkeep : ∀ r, action.onHold now r = r) :
    db.reservations.map (action.onRow shipmentId now) = db.reservations := by
  refine (List.map_congr_left fun r _ => ?_).trans (List.map_id' _)
  rw [StockAction.onRow, hkeep, ite_self]

/-- In a consistent state an action answers what the shipment's reservations say, and changes these
and the ledger accordingly. -/
theorem runAlone_program (h : Consistent db) (action : StockAction)
    (shipmentId now ids : Nat) :
    (∃ db', (action.program shipmentId).runAlone now ids db = .ok ((), db', ids) ∧
      action.answer (forShipment shipmentId db) = .ok true ∧ action.Done shipmentId now db db') ∨
    ∃ e, (action.program shipmentId).runAlone now ids db = .error e ∧
      action.answer (forShipment shipmentId db) = .error e ∧ action.Done shipmentId now db db := by
  cases action with
  | confirm =>
    refine Or.inl ⟨_, ?_, rfl, done_confirm h shipmentId now⟩
    rw [StockAction.program, Txn.bind_eq, Txn.runAlone_bind_of_ok (runAlone_confirm h shipmentId)]
    rfl
  | commit =>
    rw [StockAction.program, Txn.bind_eq, Txn.runAlone_bind, runAlone_commit h]
    by_cases hnone : heldRows shipmentId db = []
    · have hdone : StockAction.commit.Done shipmentId now db db := by
        refine done_nothing h shipmentId now (map_onRow_of_none _ h hnone) ?_
        have hperm := heldRows_perm h shipmentId
        rw [hnone, List.nil_perm] at hperm
        simp only [StockAction.entries, hperm]
        rfl
      have hany : (forShipment shipmentId db).any (·.status == .held) = false := by
        rw [← Bool.not_eq_true]
        exact fun hany => (any_held h shipmentId).1 hany hnone
      have hcommitted : (forShipment shipmentId db).any (·.status == .committed) =
          hasStatus shipmentId .committed db := List.any_filter
      rw [if_pos hnone]
      simp only [StockAction.answer, hany, Bool.false_or, hcommitted]
      -- nothing is held: a repeated dispatch is answered, another one is refused
      by_cases hrepeated : hasStatus shipmentId .committed db = true
      · rw [if_pos hrepeated, if_pos hrepeated]
        exact Or.inl ⟨db, rfl, rfl, hdone⟩
      · rw [if_neg hrepeated, if_neg hrepeated]
        exact Or.inr ⟨_, rfl, rfl, hdone⟩
    · have hany := (any_held h shipmentId).2 hnone
      rw [if_neg hnone]
      refine Or.inl ⟨_, rfl, ?_, done_commit h shipmentId now _⟩
      rw [StockAction.answer, hany]
      rfl
  | release reason =>
    rw [StockAction.program, Txn.bind_eq, Txn.runAlone_bind, runAlone_release h]
    by_cases hnone : heldRows shipmentId db = []
    · rw [if_pos hnone]
      exact Or.inl ⟨db, rfl, rfl,
        done_nothing h shipmentId now (map_onRow_of_none _ h hnone) rfl⟩
    · rw [if_neg hnone]
      exact Or.inl ⟨_, rfl, rfl, done_release h shipmentId now reason _⟩
  | nothing =>
    exact Or.inl ⟨db, rfl, rfl,
      done_nothing h shipmentId now (map_onRow_of_keep _ fun _ => rfl) rfl⟩
  | malformed =>
    exact Or.inr ⟨_, rfl, rfl,
      done_nothing h shipmentId now (map_onRow_of_keep _ fun _ => rfl) rfl⟩

/-! ## Events by shipment -/

/-- The row without its moments: what was done to it, and not when. -/
def InventoryReservation.untimed (r : InventoryReservation) : InventoryReservation :=
  { r with
    confirmedAt := r.confirmedAt.map fun _ => 0
    committedAt := r.committedAt.map fun _ => 0
    releasedAt := r.releasedAt.map fun _ => 0 }

/-- The reservations of a shipment without their moments. -/
def shipmentPart (shipmentId : Nat) (db : Db) : List InventoryReservation :=
  (forShipment shipmentId db).map InventoryReservation.untimed

/-- What an action does to a row does not depend on when. -/
theorem untimed_onRow (action : StockAction) (shipmentId now : Nat) (r : InventoryReservation) :
    (action.onRow shipmentId now r).untimed = action.onRow shipmentId 0 r.untimed := by
  have hheld : isHeldFor shipmentId r.untimed = isHeldFor shipmentId r := rfl
  unfold StockAction.onRow
  rw [hheld]
  split
  · cases action with
    | confirm =>
      cases hc : r.confirmedAt with
      | none =>
        simp [StockAction.onHold, InventoryReservation.untimed, InventoryReservation.confirm, hc]
      | some t => simp [StockAction.onHold, InventoryReservation.untimed, hc]
    | commit => rfl
    | release reason => rfl
    | nothing => rfl
    | malformed => rfl
  · rfl

theorem onRow_shipmentId (action : StockAction) (shipmentId now : Nat) (r : InventoryReservation) :
    (action.onRow shipmentId now r).shipmentId = r.shipmentId := by
  unfold StockAction.onRow
  split
  · cases action with
    | confirm =>
      simp only [StockAction.onHold]
      split
      · rfl
      · rfl
    | _ => rfl
  · rfl

namespace StockAction.Done

variable {action : StockAction} {shipmentId : Nat} {db' : Db}

/-- What an action makes of the reservations of any shipment. -/
theorem shipmentPart_eq (h : action.Done shipmentId now db db') (k : Nat) :
    shipmentPart k db' = (shipmentPart k db).map (action.onRow shipmentId 0) := by
  have hfilter : forShipment k db' =
      (forShipment k db).map (action.onRow shipmentId now) := by
    rw [forShipment, h.reservations, List.filter_map]
    refine congrArg _ (List.filter_congr fun r _ => ?_)
    rw [Function.comp_apply, onRow_shipmentId]
  rw [shipmentPart, shipmentPart, hfilter, List.map_map, List.map_map]
  exact List.map_congr_left fun r _ => untimed_onRow action shipmentId now r

/-- An action leaves the reservations of the other shipments alone. -/
theorem shipmentPart_other (h : action.Done shipmentId now db db') {k : Nat}
    (hk : shipmentId ≠ k) : shipmentPart k db' = shipmentPart k db := by
  rw [h.shipmentPart_eq k]
  refine (List.map_congr_left fun r hr => ?_).trans (List.map_id' _)
  obtain ⟨r₀, hr₀, rfl⟩ := List.mem_map.1 hr
  have hid : r₀.shipmentId = k := beq_iff_eq.1 (List.mem_filter.1 hr₀).2
  have hother : isHeldFor shipmentId r₀.untimed = false := by
    have hne : (r₀.untimed.shipmentId == shipmentId) = false :=
      beq_eq_false_iff_ne.2 fun heq => hk (heq.symm.trans hid)
    rw [isHeldFor, hne, Bool.false_and]
  rw [StockAction.onRow, hother]
  rfl

end StockAction.Done

/-- The answer of an action, told from the rows without their moments. -/
theorem answer_untimed (action : StockAction) (rows : List InventoryReservation) :
    action.answer (rows.map InventoryReservation.untimed) = action.answer rows := by
  cases action with
  | commit =>
    simp only [StockAction.answer, List.any_map]
    rfl
  | _ => rfl

theorem entries_untimed (action : StockAction) (shipmentId : Nat)
    (rows : List InventoryReservation) :
    action.entries shipmentId (rows.map InventoryReservation.untimed) =
      action.entries shipmentId rows := by
  cases action with
  | commit =>
    simp only [StockAction.entries, List.filter_map, List.map_map]
    rfl
  | _ => rfl

/-- Inventory's processing of shipment events by shipment: an event answers, and adds ledger
entries. -/
def shipmentEvents (isDuplicate : Nat → Bool) : Partitioned Db (Turn EventPayload) Event Nat
    (List InventoryReservation) (Except Failure Bool × Multiset (Nat × Option Nat × Int)) where
  step d db :=
    (((buildProcessor.handleOne isDuplicate d db).1,
      entriesOf
        ((buildProcessor.handleOne isDuplicate d db).2.movements.drop db.movements.length)),
      (buildProcessor.handleOne isDuplicate d db).2)
  event := Turn.event
  key := aggregateId
  part := shipmentPart
  answer event rows :=
    if isDuplicate event.eventId then (.ok false, 0)
    else ((stockAction event).answer rows, (stockAction event).entries (aggregateId event) rows)
  next event rows :=
    if isDuplicate event.eventId then rows
    else rows.map ((stockAction event).onRow (aggregateId event) 0)

/-- Processing a shipment event that is no duplicate does what its action does. -/
theorem handleOne_spec (h : Consistent db) {d : Turn EventPayload}
    (hevent : IsShipmentEvent d.event) {isDuplicate : Nat → Bool}
    (hnew : isDuplicate d.event.eventId = false) :
    (buildProcessor.handleOne isDuplicate d db).1 =
        (stockAction d.event).answer (forShipment (aggregateId d.event) db) ∧
      (stockAction d.event).Done (aggregateId d.event) d.instant db
        (buildProcessor.handleOne isDuplicate d db).2 := by
  obtain ⟨handler, hhandler, hprogram⟩ := handlers_of_shipmentEvent hevent
  simp only [EventProcessor.handleOne, hhandler, hnew, hprogram]
  rcases runAlone_program h (stockAction d.event) (aggregateId d.event) d.instant d.ids with
    ⟨db', hrun, hanswer, hdone⟩ | ⟨e, hrun, hanswer, hdone⟩
  · simp only [hrun, hanswer]
    exact ⟨rfl, hdone⟩
  · simp only [hrun, hanswer]
    exact ⟨rfl, hdone⟩

theorem handleOne_duplicate {d : Turn EventPayload} (hevent : IsShipmentEvent d.event)
    {isDuplicate : Nat → Bool} (hdup : isDuplicate d.event.eventId = true) :
    buildProcessor.handleOne isDuplicate d db = (.ok false, db) := by
  obtain ⟨handler, hhandler, -⟩ := handlers_of_shipmentEvent hevent
  simp only [EventProcessor.handleOne, hhandler, hdup]
  rfl

/-- Shipment events are local: what they do and answer depends on their shipment's reservations. -/
theorem events_local (isDuplicate : Nat → Bool) :
    (shipmentEvents isDuplicate).Local (fun d => IsShipmentEvent d.event) Consistent where
  keeps := by
    intro d db hevent h
    cases hdup : isDuplicate d.event.eventId with
    | true =>
      simp only [shipmentEvents, handleOne_duplicate hevent hdup]
      exact h
    | false => exact (handleOne_spec h hevent hdup).2.consistent
  answer := by
    intro d db hevent h
    cases hdup : isDuplicate d.event.eventId with
    | true =>
      simp [shipmentEvents, handleOne_duplicate hevent hdup, hdup, entriesOf]
    | false =>
      obtain ⟨hanswer, hdone⟩ := handleOne_spec h hevent hdup
      obtain ⟨rows, hrows, hentries⟩ := hdone.movements
      have hdup' : ¬ isDuplicate d.event.eventId = true := by simp [hdup]
      simp only [shipmentEvents, shipmentPart, answer_untimed, entries_untimed]
      rw [if_neg hdup', hanswer, hrows, List.drop_left, hentries]
  next := by
    intro d db hevent h
    cases hdup : isDuplicate d.event.eventId with
    | true => simp [shipmentEvents, handleOne_duplicate hevent hdup, hdup]
    | false =>
      have hdup' : ¬ isDuplicate d.event.eventId = true := by simp [hdup]
      simp only [shipmentEvents]
      rw [if_neg hdup']
      exact (handleOne_spec h hevent hdup).2.shipmentPart_eq _
  other := by
    intro d db k hevent h hk
    cases hdup : isDuplicate d.event.eventId with
    | true => simp only [shipmentEvents, handleOne_duplicate hevent hdup]
    | false => exact (handleOne_spec h hevent hdup).2.shipmentPart_other hk

/-- The handlers run in turn are a run of the events by shipment. -/
theorem handleAll_eq_run (isDuplicate : Nat → Bool) (ds : List (Turn EventPayload)) (db : Db) :
    (buildProcessor.handleAll isDuplicate ds db).1 =
        ((shipmentEvents isDuplicate).run ds db).1.map (fun x => (x.1, x.2.1)) ∧
      (buildProcessor.handleAll isDuplicate ds db).2 =
        ((shipmentEvents isDuplicate).run ds db).2 := by
  induction ds generalizing db with
  | nil => exact ⟨rfl, rfl⟩
  | cons d ds ih =>
    obtain ⟨hanswers, hfinal⟩ := ih (buildProcessor.handleOne isDuplicate d db).2
    simp only [EventProcessor.handleAll, hanswers, hfinal]
    exact ⟨rfl, rfl⟩

/-- Events processed in turn, no two with one id, are a run of the events by shipment. -/
theorem processAll_eq_run {ds : List (Turn EventPayload)}
    (hids : (ds.map (·.event.eventId)).Nodup) (db : ConsumerDb Db) :
    (buildProcessor.processAll ds db).1 =
        ((shipmentEvents (db.isProcessed buildProcessor.name)).run ds db.tables).1.map
          (fun x => (x.1, x.2.1)) ∧
      (buildProcessor.processAll ds db).2.tables =
        ((shipmentEvents (db.isProcessed buildProcessor.name)).run ds db.tables).2 := by
  obtain ⟨hanswers, htables⟩ := buildProcessor.processAll_eq hids db
  obtain ⟨hanswers', htables'⟩ :=
    handleAll_eq_run (db.isProcessed buildProcessor.name) ds db.tables
  exact ⟨hanswers.trans hanswers', htables.trans htables'⟩

/-- A shipment event keeps the items, and adds to the ledger what it reports. -/
theorem ledger_of_step (isDuplicate : Nat → Bool) {d : Turn EventPayload}
    (hevent : IsShipmentEvent d.event) (h : Consistent db) :
    ((shipmentEvents isDuplicate).step d db).2.items.map (·.id) = db.items.map (·.id) ∧
      entriesOf ((shipmentEvents isDuplicate).step d db).2.movements =
        entriesOf db.movements + ((shipmentEvents isDuplicate).step d db).1.2 := by
  cases hdup : isDuplicate d.event.eventId with
  | true =>
    simp only [shipmentEvents, handleOne_duplicate hevent hdup, List.drop_length]
    exact ⟨trivial, (add_zero _).symm⟩
  | false =>
    obtain ⟨-, hdone⟩ := handleOne_spec h hevent hdup
    obtain ⟨rows, hrows, -⟩ := hdone.movements
    refine ⟨hdone.items, ?_⟩
    simp only [shipmentEvents]
    rw [hrows, List.drop_left, entriesOf, List.map_append, ← Multiset.coe_add]
    rfl

/-- A run of shipment events keeps the items, and adds to the ledger what its events report. -/
theorem ledger_of_run (isDuplicate : Nat → Bool) {ds : List (Turn EventPayload)}
    (hds : ∀ d ∈ ds, IsShipmentEvent d.event) (h : Consistent db) :
    ((shipmentEvents isDuplicate).run ds db).2.items.map (·.id) = db.items.map (·.id) ∧
      entriesOf ((shipmentEvents isDuplicate).run ds db).2.movements =
        entriesOf db.movements + (((shipmentEvents isDuplicate).run ds db).1.map (·.2.2)).sum := by
  induction ds generalizing db with
  | nil => exact ⟨rfl, (add_zero _).symm⟩
  | cons d ds ih =>
    have hevent := hds d List.mem_cons_self
    obtain ⟨hitem, hstep⟩ := ledger_of_step isDuplicate hevent h
    obtain ⟨hitems, hledger⟩ := ih (fun x hx => hds x (List.mem_cons_of_mem _ hx))
      ((events_local isDuplicate).keeps d db hevent h)
    refine ⟨hitems.trans hitem, ?_⟩
    simp only [Partitioned.run, List.map_cons, List.sum_cons]
    rw [hledger, hstep, add_assoc]

/-! ## The counters -/

/-- An item with its counters. -/
def InventoryItem.counters (i : InventoryItem) : Nat × Int × Int :=
  (i.id, i.onHandQty, i.reservedQty)

/-- The counters are told from the ledger entries and the reservations. -/
theorem counters_eq (h : Consistent db) : db.items.map InventoryItem.counters =
    (db.items.map (·.id)).map fun id =>
      (id, ledger db.movements id, heldQty db.reservations id) := by
  rw [List.map_map]
  refine List.map_congr_left fun i hi => ?_
  rw [InventoryItem.counters, h.on_hand i hi, h.reserved i hi]
  rfl

theorem ledger_eq_of_entries {rows rows' : List StockMovement}
    (h : entriesOf rows = entriesOf rows') (itemId : Nat) :
    ledger rows itemId = ledger rows' itemId := by
  have hentries : ∀ rows : List StockMovement, ledger rows itemId =
      Table.totalBy (fun e => e.1 == itemId) (·.2.2) (rows.map StockMovement.entry) := by
    intro rows
    rw [Table.totalBy_map]
    rfl
  rw [hentries, hentries]
  exact Table.totalBy_perm (Multiset.coe_eq_coe.1 h)

theorem heldQty_eq_of_parts {a b : Db} (h : ∀ k, shipmentPart k a = shipmentPart k b)
    (itemId : Nat) : heldQty a.reservations itemId = heldQty b.reservations itemId := by
  have huntimed : ∀ rows : List InventoryReservation, heldQty rows itemId =
      heldQty (rows.map InventoryReservation.untimed) itemId := by
    intro rows
    rw [heldQty, heldQty, Table.totalBy_map]
    rfl
  have hperm : (a.reservations.map InventoryReservation.untimed).Perm
      (b.reservations.map InventoryReservation.untimed) := by
    refine perm_of_filter_eq (·.shipmentId) fun k => ?_
    rw [List.filter_map, List.filter_map]
    exact h k
  rw [huntimed a.reservations, huntimed b.reservations]
  exact Table.totalBy_perm hperm

/-! ## The whole -/

/-- From every reachable state, shipment events processed in two orders that keep each shipment's
own events in order: the same events succeed and fail, and every item's counters, every
reservation but for its moments, and the ledger entries end up the same. -/
theorem events_commute {c : Config Db Row Failure Outcome Operation}
    (hreach : Reachable unconfirmedHold c) (processed : List ProcessedEvent)
    (first second : List (Turn EventPayload))
    (hevents : ∀ d ∈ first, IsShipmentEvent d.event)
    (hids : (first.map (·.event.eventId)).Nodup)
    (horder : ∀ shipmentId, (first.map (·.event)).filter (fun e => aggregateId e == shipmentId) =
      (second.map (·.event)).filter fun e => aggregateId e == shipmentId) :
    (buildProcessor.processAll first ⟨c.db, processed⟩).1.Perm
        (buildProcessor.processAll second ⟨c.db, processed⟩).1 ∧
      (buildProcessor.processAll first ⟨c.db, processed⟩).2.tables.items.map
          InventoryItem.counters =
        (buildProcessor.processAll second ⟨c.db, processed⟩).2.tables.items.map
          InventoryItem.counters ∧
      (∀ shipmentId, shipmentPart shipmentId
          (buildProcessor.processAll first ⟨c.db, processed⟩).2.tables =
        shipmentPart shipmentId
          (buildProcessor.processAll second ⟨c.db, processed⟩).2.tables) ∧
      ((buildProcessor.processAll first ⟨c.db, processed⟩).2.tables.movements.map
          StockMovement.entry).Perm
        ((buildProcessor.processAll second ⟨c.db, processed⟩).2.tables.movements.map
          StockMovement.entry) := by
  have h : Consistent c.db := (sound_of_reachable hreach).inv
  have hperm : (first.map (·.event)).Perm (second.map (·.event)) :=
    perm_of_filter_eq aggregateId fun k => horder k
  have hevents' : ∀ d ∈ second, IsShipmentEvent d.event := by
    intro d hd
    obtain ⟨d', hd', heq⟩ := List.mem_map.1 (hperm.mem_iff.2 (List.mem_map_of_mem hd))
    rw [← heq]
    exact hevents d' hd'
  have hids' : (second.map (·.event.eventId)).Nodup := by
    have hmap := hperm.map EventEnvelope.eventId
    rw [List.map_map, List.map_map] at hmap
    exact hmap.nodup_iff.1 hids
  -- which events are duplicates is settled at the start, and the same in both orders
  obtain ⟨hfirst, hfirst'⟩ := processAll_eq_run hids ⟨c.db, processed⟩
  obtain ⟨hsecond, hsecond'⟩ := processAll_eq_run hids' ⟨c.db, processed⟩
  rw [hfirst, hfirst', hsecond, hsecond']
  have hlocal := events_local (ConsumerDb.isProcessed ⟨c.db, processed⟩ buildProcessor.name)
  obtain ⟨hanswers, hparts⟩ := hlocal.commute hevents hevents' h horder
  obtain ⟨hitems, hledger⟩ := ledger_of_run
    (ConsumerDb.isProcessed ⟨c.db, processed⟩ buildProcessor.name) hevents h
  obtain ⟨hitems', hledger'⟩ := ledger_of_run
    (ConsumerDb.isProcessed ⟨c.db, processed⟩ buildProcessor.name) hevents' h
  rw [(hanswers.map (·.2.2)).sum_eq, ← hledger'] at hledger
  refine ⟨hanswers.map _, ?_, hparts, Multiset.coe_eq_coe.1 hledger⟩
  rw [counters_eq (hlocal.keeps_run hevents h), counters_eq (hlocal.keeps_run hevents' h), hitems,
    hitems']
  refine List.map_congr_left fun id _ => ?_
  rw [ledger_eq_of_entries hledger, heldQty_eq_of_parts hparts]

/-- An event of `shipment.events`. -/
def sampleEvent (eventId shipmentId : Nat) (eventType status : String) : Event where
  eventId := eventId
  eventType := eventType
  version := 1
  occurredAt := 0
  producer := "shipment"
  key := toString shipmentId
  payload := .shipment ⟨shipmentId, status, none⟩
  traceparent := none

/-- Shipment 50 is dispatched and shipment 51 cancelled, in either order; both held a unit of the
same item. Shipment 52 holds nothing, so its dispatch fails. -/
theorem events_commute_on_shared_item : ∃ c, Reachable 30 c ∧
    (buildProcessor.processAll
      [⟨sampleEvent 1 50 "shipment.status_changed" "dispatched", 3, 0⟩,
       ⟨sampleEvent 2 51 "shipment.status_changed" "cancelled", 4, 0⟩,
       ⟨sampleEvent 3 52 "shipment.status_changed" "dispatched", 5, 0⟩]
        ⟨c.db, []⟩).2.tables.items.map InventoryItem.counters = [(20, 9, 0), (10, 10, 0)] ∧
    (buildProcessor.processAll
      [⟨sampleEvent 3 52 "shipment.status_changed" "dispatched", 5, 0⟩,
       ⟨sampleEvent 2 51 "shipment.status_changed" "cancelled", 6, 0⟩,
       ⟨sampleEvent 1 50 "shipment.status_changed" "dispatched", 7, 0⟩]
        ⟨c.db, []⟩).2.tables.items.map InventoryItem.counters = [(20, 9, 0), (10, 10, 0)] := by
  have hrun : ((inventory 30).machine.exec (.idle .empty) (stocked ++
      session 0 (reserveOne 50 1) (.replicate 14 31) ++
        session 0 (reserveOne 51 1) (.replicate 14 32))).map (fun c =>
          (buildProcessor.processAll
            [⟨sampleEvent 1 50 "shipment.status_changed" "dispatched", 3, 0⟩,
             ⟨sampleEvent 2 51 "shipment.status_changed" "cancelled", 4, 0⟩,
             ⟨sampleEvent 3 52 "shipment.status_changed" "dispatched", 5, 0⟩]
              ⟨c.db, []⟩).2.tables.items.map InventoryItem.counters) =
        some [(20, 9, 0), (10, 10, 0)] := by
    decide +kernel
  obtain ⟨c, hc, hcounters⟩ := Option.map_eq_some_iff.1 hrun
  have hreach : Reachable 30 c := Machine.run_of_exec _ hc
  refine ⟨c, hreach, hcounters, ?_⟩
  rw [← hcounters]
  refine (events_commute hreach [] _ _ ?_ (by decide) ?_).2.1.symm
  · decide
  · intro shipmentId
    by_cases h50 : shipmentId = 50
    · subst h50
      rfl
    by_cases h51 : shipmentId = 51
    · subst h51
      rfl
    by_cases h52 : shipmentId = 52
    · subst h52
      rfl
    simp [sampleEvent, aggregateId, Ne.symm h50, Ne.symm h51, Ne.symm h52]

end SmartLogistics.Inventory
