import SmartLogistics.Shipment.Ownership
import SmartLogistics.Shipment.Standings

/-!
# The events of a shipment

The events of a recorded shipment are a path of the state machine that ends at its status
(`History`), and there are none of a shipment that is not recorded (`Saga.Told`). A move of the
state machine leaves the standing of the rows, or is a dispatch or a cancellation, whose event moves
them out of `held` (`standing_of_transition`).
-/

set_option autoImplicit false

namespace SmartLogistics.Shipment

open SmartLogistics.Library SmartLogistics.Platform SmartLogistics.Warehouse
  SmartLogistics.Inventory

/-- The status that an event reports. -/
def ShipmentEvent.status : ShipmentEvent → ShipmentStatus
  | .created _ => .created
  | .statusChanged _ status _ _ => status

/-- How the rows of a shipment in a status are to stand. -/
def ShipmentStatus.standing : ShipmentStatus → Standing
  | .created | .readyForDispatch | .dispatching | .dispatchFailed => .held
  | .dispatched | .pickedUp | .inTransit | .outForDelivery | .delivered | .deliveryFailed
  | .returnInitiated | .returned => .committed
  | .cancelled => .released

/-- The events of a shipment that has come to a status: its create, then moves along the table of
transitions. -/
inductive History (id : Nat) : List ShipmentEvent → ShipmentStatus → Prop
  | created : History id [.created id] .created
  | changed {events : List ShipmentEvent} {status target : ShipmentStatus} (reason : Option String)
      (h : History id events status) (hmove : canTransition status target = true) :
      History id (events ++ [.statusChanged id target status reason]) target

/-- A move along the table leaves the standing, or is a dispatch or a cancellation of a shipment
whose rows are held, with the operation that moves them. -/
theorem standing_of_transition {status target : ShipmentStatus}
    (hmove : canTransition status target = true) (id : Nat) (reason : Option String) :
    (onShipmentEvent (.statusChanged id target status reason) = none ∧
      target.standing = status.standing) ∨
      ∃ op, onShipmentEvent (.statusChanged id target status reason) = some op ∧
        settledBy op = some (id, target.standing) ∧ status.standing = .held := by
  cases status <;> cases target <;> first
    | exact Or.inl ⟨rfl, rfl⟩
    | exact Or.inr ⟨_, rfl, rfl, rfl⟩
    | cases hmove

namespace History

variable {id n : Nat} {events : List ShipmentEvent} {status : ShipmentStatus}
  {event : ShipmentEvent}

/-- The last event reports the status. -/
theorem last (h : History id events status) :
    ∃ init event, events = init ++ [event] ∧ event.status = status := by
  cases h with
  | created => exact ⟨[], _, rfl, rfl⟩
  | changed reason h hmove => exact ⟨_, _, rfl, rfl⟩

theorem getElem?_zero (h : History id events status) : events[0]? = some (.created id) := by
  induction h with
  | created => rfl
  | changed reason h hmove ih =>
    rw [List.getElem?_append_left, ih]
    exact (List.getElem?_eq_some_iff.1 ih).1

/-- Every event but the first moves the shipment on from what the one before it reports. -/
theorem getElem?_succ (h : History id events status) (hevent : events[n + 1]? = some event) :
    ∃ before target reason, events[n]? = some before ∧
      event = .statusChanged id target before.status reason ∧
        canTransition before.status target = true := by
  induction h with
  | created => cases hevent
  | @changed events status target reason h hmove ih =>
    obtain ⟨init, before, rfl, hstatus⟩ := h.last
    rcases Nat.lt_or_ge (n + 1) (init ++ [before]).length with hlt | hge
    · rw [List.getElem?_append_left hlt] at hevent
      obtain ⟨x, target', reason', hx, hrest⟩ := ih hevent
      exact ⟨x, target', reason', by rw [List.getElem?_append_left (by omega), hx], hrest⟩
    · -- the event that the change has added
      have hlength : n + 1 < (init ++ [before] ++
          [ShipmentEvent.statusChanged id target status reason]).length :=
        (List.getElem?_eq_some_iff.1 hevent).1
      simp only [List.length_append, List.length_cons, List.length_nil] at hge hlength
      obtain rfl : n = init.length := by omega
      rw [List.getElem?_append_right (by simp), List.length_append, List.length_singleton,
        Nat.sub_self] at hevent
      cases hevent
      refine ⟨before, target, reason, ?_, ?_, ?_⟩
      · rw [List.getElem?_append_left (by simp), List.getElem?_append_right (Nat.le_refl _),
          Nat.sub_self]
        rfl
      · rw [hstatus]
      · rw [hstatus]
        exact hmove

end History

/-- The events tell the history of each recorded shipment, and there are no others. -/
structure Tells (shipments : Nat → Option Shipment) (events : Nat → List ShipmentEvent) : Prop where
  unrecorded : ∀ id, shipments id = none → events id = []
  history : ∀ id shipment, shipments id = some shipment → History id (events id) shipment.status

/-- A row is written, and its event is appended. -/
theorem Tells.write {shipments : Nat → Option Shipment} {events : Nat → List ShipmentEvent}
    (h : Tells shipments events) {id : Nat} {row : Shipment} {event : ShipmentEvent}
    (hrow : History id (events id ++ [event]) row.status) :
    Tells (Function.update shipments id (some row))
      (Function.update events id (events id ++ [event])) := by
  constructor
  · intro id' hnone
    by_cases hsame : id' = id
    · rw [hsame, Function.update_self] at hnone
      cases hnone
    · rw [Function.update_of_ne hsame] at hnone ⊢
      exact h.unrecorded id' hnone
  · intro id' x hx
    rcases update_eq_some hx with ⟨rfl, rfl⟩ | ⟨hne, hx⟩
    · rw [Function.update_self]
      exact hrow
    · rw [Function.update_of_ne hne]
      exact h.history id' x hx

namespace Saga

/-- A flushed shipment is new, and the events tell the history of the recorded ones. -/
structure Told (s : Saga) : Prop where
  flushed : ∀ t r shipment, s.creates t = some r → r.phase.shipment? = some shipment →
    shipment.status = .created
  tells : Tells s.shipments s.events

theorem told_initial : initial.Told where
  flushed := fun _ _ _ h => nomatch h
  tells := ⟨fun _ _ => rfl, fun _ _ h => nomatch h⟩

namespace Told

variable {g : Settings} {s s' : Saga} {l : SagaLabel}

/-- A shipment with an event is recorded. -/
theorem recorded (h : s.Told) {id n : Nat} {event : ShipmentEvent}
    (hevent : (s.events id)[n]? = some event) : ∃ shipment, s.shipments id = some shipment := by
  cases hrow : s.shipments id with
  | some shipment => exact ⟨shipment, rfl⟩
  | none =>
    rw [h.tells.unrecorded id hrow] at hevent
    cases hevent

/-- A request moves on. -/
theorem setCreate (h : s.Told) {t : Nat} {r : CreateRequest}
    (hr : ∀ shipment, r.phase.shipment? = some shipment → shipment.status = .created) :
    (s.setCreate t r).Told where
  flushed := by
    intro u x shipment hx hshipment
    rcases update_eq_some hx with ⟨rfl, rfl⟩ | ⟨-, hx⟩
    · exact hr shipment hshipment
    · exact h.flushed u x shipment hx hshipment
  tells := h.tells

theorem setCreate_of_none (h : s.Told) {t : Nat} {r : CreateRequest}
    (hr : r.phase.shipment? = none) : (s.setCreate t r).Told := by
  refine h.setCreate fun shipment hshipment => ?_
  rw [hr] at hshipment
  cases hshipment

/-- Every step keeps the events and the rows together. -/
theorem next (h : s.Told) (hv : s.Versioned) (hnext : g.next s l = some s') : s'.Told := by
  cases Settings.step_of_next hnext with
  | post keys r hnone hid hheld hphase =>
    apply setCreate_of_none
    · exact ⟨h.flushed, h.tells⟩
    · rcases hphase with hphase | hphase <;> rw [hphase] <;> rfl
  | @act t action r r' keys inserting referenceNo hr hmoves hlocks hinserts =>
    apply setCreate
    · exact ⟨h.flushed, h.tells⟩
    · intro shipment hshipment
      rcases hmoves.shipment shipment hshipment with hold | ⟨answer, -, -, hcreated, -⟩
      · exact h.flushed t r shipment hr hold
      · exact hcreated
  | reserve hr hphase =>
    apply setCreate_of_none
    · exact ⟨h.flushed, h.tells⟩
    · rfl
  | release hr hphase =>
    apply setCreate_of_none
    · exact ⟨h.flushed, h.tells⟩
    · rfl
  | answer hr hphase hanswer =>
    apply setCreate_of_none
    · exact ⟨h.flushed, h.tells⟩
    · rfl
  | @commit t lost r r' shipment keys hr hphase hpayload hid hend =>
    -- the shipment was not recorded before, so it has no events yet
    have hflushed : r.phase.shipment? = some shipment := by rw [hphase]; rfl
    have hnone := (hv.inserted t r shipment hr hflushed).2
    apply setCreate_of_none
    · refine ⟨h.flushed, h.tells.write ?_⟩
      rw [h.tells.unrecorded _ hnone, h.flushed t r shipment hr hflushed]
      exact .created
    · rcases hend with ⟨-, -, -, -, -, hempty⟩ | ⟨-, -, hended⟩
      · exact hempty
      · rw [hended]
        rfl
  | @settle u draw session c outcome hsession hstep hprog hpending hclosed =>
    obtain ⟨answers, handled, handling, heq⟩ := s.settled_eq c u outcome
    rw [heq]
    exact ⟨h.flushed, h.tells⟩
  | @stop u l l' c hrun hstep hstart hdb hclock hclosed =>
    obtain ⟨handling, heq⟩ := s.closed_eq c u
    rw [heq]
    exact ⟨h.flushed, h.tells⟩
  | @change v id copy moved target principal reason expectedVersion hcopy hmoved hversion =>
    -- the version has not changed, so the copy is the row and the move is from its status
    have hrow := hv.copy_eq hcopy hversion
    obtain ⟨hallowed, hstatus, -⟩ := changeStatus_eq_ok hmoved
    refine ⟨h.flushed, h.tells.write ?_⟩
    rw [hstatus]
    exact .changed reason (h.tells.history id copy hrow) hallowed
  | _ => exact ⟨h.flushed, h.tells⟩

end Told

end Saga

end SmartLogistics.Shipment
