import SmartLogistics.Shipment.SagaSteps

/-!
# What Inventory's answers stand for

An answer to a create request is for the lines the request asks for, and Inventory has rows of its
shipment from then on. So every shipment that is recorded lists the lines of a request for it, and
has rows (`Saga.Answered`, `answered_of_saga`).
-/

set_option autoImplicit false
set_option linter.dupNamespace false

namespace SmartLogistics.Shipment

open SmartLogistics.Library SmartLogistics.Platform SmartLogistics.Warehouse
  SmartLogistics.Inventory

/-! ## Rows of a shipment -/

/-- Inventory has a row of the shipment. -/
def HasRows (shipmentId : Nat) (db : Db) : Prop :=
  ∃ r ∈ db.reservations, r.shipmentId = shipmentId

theorem HasRows.grow {shipmentId : Nat} {db db' : Db} (h : HasRows shipmentId db)
    (hgrow : Grows db db') : HasRows shipmentId db' := by
  obtain ⟨r, hr, hship⟩ := h
  obtain ⟨r', hr', hg⟩ := hgrow.reservations r hr
  exact ⟨r', hr', hg.shipment.trans hship⟩

theorem forShipment_eq_nil {shipmentId : Nat} {db : Db} :
    forShipment shipmentId db = [] ↔ ¬ HasRows shipmentId db := by
  rw [forShipment, List.filter_eq_nil_iff]
  constructor
  · rintro h ⟨r, hr, hship⟩
    exact h r hr (beq_iff_eq.2 hship)
  · intro h r hr hship
    exact h ⟨r, hr, beq_iff_eq.1 hship⟩

/-- The answer is for the lines of the request, and its shipment has rows. -/
structure Stands (answer : ReservationResult) (request : ReservationRequest) (db : Db) : Prop where
  answers : answer.Answers request
  rows : HasRows request.shipmentId db

theorem Stands.grow {answer : ReservationResult} {request : ReservationRequest} {db db' : Db}
    (h : Stands answer request db) (hgrow : Grows db db') : Stands answer request db' :=
  ⟨h.answers, h.rows.grow hgrow⟩

/-- Only a reserve answers with a reservation, and the answer stands. -/
theorem stands_of_committed {unconfirmedHold clock : Nat} {op : Operation} {opened db db' : Db}
    {held : Row → Prop} {answer : ReservationResult} {created : Bool}
    (h : Committed unconfirmedHold op opened held (.reserved answer created) clock db db') :
    ∃ request, op = .reserve request ∧ Stands answer request db' := by
  cases op with
  | reserve request =>
    refine ⟨request, rfl, ?_⟩
    cases created with
    | false =>
      obtain ⟨hanswers, hrows, rfl⟩ := h
      exact ⟨hanswers, hrows⟩
    | true =>
      obtain ⟨hanswers, _, _, _, _, holds, -, -, -, -, hholds, hlines, rfl⟩ := h
      refine ⟨hanswers, ?_⟩
      -- a request has a line, so there is a hold
      cases holds with
      | nil =>
        rw [List.map_nil, eq_comm, List.map_eq_nil_iff] at hlines
        exact absurd hlines request.lines_ne_nil
      | cons hold rest =>
        exact ⟨hold, List.mem_append_right _ List.mem_cons_self,
          (hholds hold List.mem_cons_self).shipment⟩
  | openPosition | adjust | confirm | commit | release | releaseExpired => exact h.elim

/-- The shipment has the lines of the request. -/
def Shipment.Lists (shipment : Shipment) (request : ReservationRequest) : Prop :=
  (shipment.items.map fun item => (item.skuId, item.quantity)).Perm
    (request.lines.map fun line => (line.skuId, line.quantity))

theorem lists_of_answers {shipment : Shipment} {answer : ReservationResult}
    {request : ReservationRequest} (hitems : shipment.items = answer.lines.map shipmentItem)
    (h : answer.Answers request) : shipment.Lists request := by
  rw [Shipment.Lists, hitems, List.map_map]
  exact h.lines

/-! ## The invariant -/

namespace Saga

/-- What request `t` asks Inventory for. -/
def reservationOf (s : Saga) (t : Nat) : Option ReservationRequest :=
  (s.creates t).map (·.reservation)

/-- Reserves under way are for what their requests ask; answers stand; and a shipment that is
flushed or recorded has the lines a request for it asks for, and rows. -/
structure Answered (s : Saga) : Prop where
  calls : ∀ call ∈ s.calls, ∀ request, call.op = .reserve request →
    s.reservationOf call.caller = some request
  sessions : ∀ u session t request, s.inventory.sessions u = some session →
    s.origins u = some (.call t) → session.op = .reserve request →
    s.reservationOf t = some request
  answers : ∀ entry ∈ s.answers, ∃ request, s.reservationOf entry.1 = some request ∧
    Stands entry.2 request s.inventory.db
  answered : ∀ t r answer, s.creates t = some r → r.phase.answer? = some answer →
    Stands answer r.reservation s.inventory.db
  flushed : ∀ t r shipment, s.creates t = some r → r.phase.shipment? = some shipment →
    shipment.Lists r.reservation ∧ HasRows r.shipmentId s.inventory.db
  recorded : ∀ id shipment, s.shipments id = some shipment → ∃ t request,
    s.reservationOf t = some request ∧ request.shipmentId = id ∧ shipment.Lists request ∧
      HasRows id s.inventory.db

theorem answered_initial : initial.Answered where
  calls := fun _ h => absurd h List.not_mem_nil
  sessions := fun _ _ _ _ h => nomatch h
  answers := fun _ h => absurd h List.not_mem_nil
  answered := fun _ _ _ h => nomatch h
  flushed := fun _ _ _ h => nomatch h
  recorded := fun _ _ h => nomatch h

variable {g : Settings} {s s' : Saga} {l : SagaLabel} {t : Nat} {r : CreateRequest}

theorem reservationOf_setCreate_self (s : Saga) (t : Nat) (r : CreateRequest) :
    (s.setCreate t r).reservationOf t = some r.reservation := by
  simp [reservationOf, setCreate]

/-- A request goes on to ask for what it asks for. -/
theorem reservationOf_setCreate {request : ReservationRequest} {r' : CreateRequest}
    (hr : ∀ r, s.creates t = some r → r'.reservation = r.reservation) {u : Nat}
    (h : s.reservationOf u = some request) : (s.setCreate t r').reservationOf u = some request := by
  obtain ⟨x, hx, rfl⟩ := Option.map_eq_some_iff.1 h
  by_cases hut : u = t
  · subst hut
    rw [reservationOf_setCreate_self, hr x hx]
  · exact Option.map_eq_some_iff.2 ⟨x, (Function.update_of_ne hut ..).trans hx, rfl⟩

/-- A settled transaction adds an answer if it was a reserve for a call. -/
theorem mem_answers_settle {u : Nat} {outcome : Outcome} {entry : Nat × ReservationResult}
    (h : entry ∈ (s.settle u outcome).answers) : entry ∈ s.answers ∨
      s.origins u = some (.call entry.1) ∧ ∃ created, outcome = .reserved entry.2 created := by
  unfold settle at h
  split at h
  · rename_i caller answer created horigin
    rcases List.mem_append.1 h with h | h
    · exact Or.inl h
    · rw [List.mem_singleton.1 h]
      exact Or.inr ⟨horigin, created, rfl⟩
  · exact Or.inl h
  · exact Or.inl h

namespace Answered

/-- A request moves on. -/
theorem setCreate (h : s.Answered) {r' : CreateRequest}
    (hreservation : ∀ r, s.creates t = some r → r'.reservation = r.reservation)
    (hanswered : ∀ answer, r'.phase.answer? = some answer →
      Stands answer r'.reservation s.inventory.db)
    (hflushed : ∀ shipment, r'.phase.shipment? = some shipment →
      shipment.Lists r'.reservation ∧ HasRows r'.shipmentId s.inventory.db) :
    (s.setCreate t r').Answered where
  calls := fun call hcall request hop =>
    reservationOf_setCreate hreservation (h.calls call hcall request hop)
  sessions := fun u session caller request hs horigin hop =>
    reservationOf_setCreate hreservation (h.sessions u session caller request hs horigin hop)
  answers := by
    intro entry hentry
    obtain ⟨request, hrequest, hstands⟩ := h.answers entry hentry
    exact ⟨request, reservationOf_setCreate hreservation hrequest, hstands⟩
  answered := by
    intro u x answer hx hanswer
    rcases update_eq_some hx with ⟨rfl, rfl⟩ | ⟨-, hx⟩
    · exact hanswered answer hanswer
    · exact h.answered u x answer hx hanswer
  flushed := by
    intro u x shipment hx hshipment
    rcases update_eq_some hx with ⟨rfl, rfl⟩ | ⟨-, hx⟩
    · exact hflushed shipment hshipment
    · exact h.flushed u x shipment hx hshipment
  recorded := by
    intro id shipment hshipment
    obtain ⟨caller, request, hrequest, hrest⟩ := h.recorded id shipment hshipment
    exact ⟨caller, request, reservationOf_setCreate hreservation hrequest, hrest⟩

/-- Inventory moves on. -/
theorem inventory (h : s.Answered) {c : Config Db Row Failure Outcome Operation}
    {origins : Nat → Option Origin} (hgrow : Grows s.inventory.db c.db)
    (hsessions : ∀ u session t request, c.sessions u = some session →
      origins u = some (.call t) → session.op = .reserve request →
      s.reservationOf t = some request) :
    ({ s with
      inventory := c
      origins := origins } : Saga).Answered where
  calls := h.calls
  sessions := hsessions
  answers := by
    intro entry hentry
    obtain ⟨request, hrequest, hstands⟩ := h.answers entry hentry
    exact ⟨request, hrequest, hstands.grow hgrow⟩
  answered := fun u x answer hx hanswer => (h.answered u x answer hx hanswer).grow hgrow
  flushed := by
    intro u x shipment hx hshipment
    obtain ⟨hlists, hrows⟩ := h.flushed u x shipment hx hshipment
    exact ⟨hlists, hrows.grow hgrow⟩
  recorded := by
    intro id shipment hshipment
    obtain ⟨t, request, hrequest, hid, hlists, hrows⟩ := h.recorded id shipment hshipment
    exact ⟨t, request, hrequest, hid, hlists, hrows.grow hgrow⟩

/-- Inventory goes on with the transactions it has. -/
theorem goes_on (h : s.Answered) {c : Config Db Row Failure Outcome Operation}
    {l' : Label Operation Environment} (hgrow : Grows s.inventory.db c.db)
    (hstep : (Inventory.inventory g.unconfirmedHold).next s.inventory l' = some c)
    (hstart : ∀ v op, l' ≠ .start v op) : ({ s with inventory := c } : Saga).Answered := by
  refine h.inventory hgrow fun u session t request hs horigin hop => ?_
  rcases System.next_session _ hstep hs with ⟨session', hs', hsame, -⟩ | ⟨op, hl, -⟩
  · exact h.sessions u session' t request hs' horigin (hsame ▸ hop)
  · exact absurd hl (hstart u op)

/-- Inventory starts a transaction that is not a reserve for a request, or for one that asks for
it. -/
theorem starts (h : s.Answered) {c : Config Db Row Failure Outcome Operation} {u : Nat}
    {op : Operation} (origin : Option Origin)
    (hstart : (Inventory.inventory g.unconfirmedHold).next s.inventory (.start u op) = some c)
    (horigin : ∀ t request, origin = some (.call t) → op = .reserve request →
      s.reservationOf t = some request) :
    ({ s with
      inventory := c
      origins := Function.update s.origins u origin } : Saga).Answered := by
  obtain ⟨-, rfl⟩ := Settings.start_eq_some hstart
  refine h.inventory (.refl _) fun v session t request hs hv hop => ?_
  rcases update_eq_some hs with ⟨rfl, rfl⟩ | ⟨hvu, hs⟩
  · rw [Function.update_self] at hv
    exact horigin t request hv hop
  · rw [Function.update_of_ne hvu] at hv
    exact h.sessions v session t request hs hv hop

/-- A request moves on by itself. -/
theorem acts (h : s.Answered) {r' : CreateRequest} {keys : IdempotentState Shipment Shipment}
    {inserting : Nat → Option Nat} {referenceNo : Nat} (hr : s.creates t = some r)
    (hmoves : r.Moves r') :
    ({ s with
      keys := keys
      inserting := inserting
      referenceNo := referenceNo }.setCreate t r').Answered := by
  have hsame : r'.reservation = r.reservation := by
    rw [CreateRequest.reservation, CreateRequest.reservation, hmoves.payload, hmoves.shipmentId]
  apply setCreate
  · exact ⟨h.calls, h.sessions, h.answers, h.answered, h.flushed, h.recorded⟩
  · intro x hx
    obtain rfl := Option.some.inj (hr.symm.trans hx)
    exact hsame
  · intro answer hanswer
    rw [hmoves.answer] at hanswer
    cases hanswer
  · intro shipment hshipment
    rw [hsame, hmoves.shipmentId]
    rcases hmoves.shipment shipment hshipment with hold | ⟨answer, hanswer, -, -, hitems⟩
    · exact h.flushed t r shipment hr hold
    · have hstands := h.answered t r answer hr hanswer
      exact ⟨lists_of_answers hitems hstands.answers, hstands.rows⟩

/-- A create commits the shipment it has flushed. -/
theorem commits (h : s.Answered) {lost : Bool} {r' : CreateRequest} {shipment : Shipment}
    {keys : IdempotentState Shipment Shipment} {inserting : Nat → Option Nat}
    {events : Nat → List ShipmentEvent} (hr : s.creates t = some r)
    (hphase : r.phase = .recorded shipment) (hpayload : r'.payload = r.payload)
    (hid : r'.shipmentId = r.shipmentId)
    (hend : lost = true ∧ r'.heldFor = r.heldFor ∧ r'.phase ≠ .ended ∧
        r'.phase.isOver = false ∧ r'.phase.answer? = none ∧ r'.phase.shipment? = none ∨
      lost = false ∧ r'.heldFor = none ∧ r'.phase = .ended) :
    ({ s with
      keys := keys
      inserting := inserting
      shipments := Function.update s.shipments r.shipmentId (some shipment)
      events := events }.setCreate t r').Answered := by
  have hsame : r'.reservation = r.reservation := by
    rw [CreateRequest.reservation, CreateRequest.reservation, hpayload, hid]
  have hempty : r'.phase.answer? = none ∧ r'.phase.shipment? = none := by
    rcases hend with ⟨-, -, -, -, hanswer, hshipment⟩ | ⟨-, -, hended⟩
    · exact ⟨hanswer, hshipment⟩
    · rw [hended]
      exact ⟨rfl, rfl⟩
  apply setCreate
  · refine ⟨h.calls, h.sessions, h.answers, h.answered, h.flushed, fun id x hx => ?_⟩
    rcases update_eq_some hx with ⟨rfl, rfl⟩ | ⟨-, hx⟩
    · obtain ⟨hlists, hrows⟩ := h.flushed t r x hr (by rw [hphase]; rfl)
      exact ⟨t, r.reservation, Option.map_eq_some_iff.2 ⟨r, hr, rfl⟩, rfl, hlists, hrows⟩
    · exact h.recorded id x hx
  · intro x hx
    obtain rfl := Option.some.inj (hr.symm.trans hx)
    exact hsame
  · intro answer hanswer
    rw [hempty.1] at hanswer
    cases hanswer
  · intro x hx
    rw [hempty.2] at hx
    cases hx

/-- A transaction of Inventory commits; a reserve for a request is answered. -/
theorem settles (h : s.Answered) (hc : s.inventory.Sound (protocol g.unconfirmedHold))
    {u draw : Nat} {session : Session Db Row Failure Outcome Operation}
    {c : Config Db Row Failure Outcome Operation} {outcome : Outcome}
    (hsession : s.inventory.sessions u = some session)
    (hstep : (Inventory.inventory g.unconfirmedHold).next s.inventory (.step u draw) = some c)
    (hprog : session.prog = .pure outcome) (hpending : session.pending s.inventory.db = .ok c.db) :
    (({ s with inventory := c }.close u).settle u outcome).Answered := by
  have hmoved := h.goes_on
    (hc.grow_of_next (protocol_governs g.unconfirmedHold) hstep) hstep fun _ _ heq => nomatch heq
  obtain ⟨answers, handled, handling, heq⟩ := s.settled_eq c u outcome
  have hmem : ∀ entry ∈ answers, entry ∈ s.answers ∨
      s.origins u = some (.call entry.1) ∧ ∃ created, outcome = .reserved entry.2 created := by
    intro entry hentry
    have hsettled : entry ∈ (({ s with inventory := c }.close u).settle u outcome).answers := by
      rw [heq]
      exact hentry
    obtain ⟨handling', hclose⟩ := s.closed_eq c u
    rw [hclose] at hsettled
    rcases mem_answers_settle hsettled with hold | hnew
    · exact Or.inl hold
    · exact Or.inr hnew
  rw [heq]
  refine ⟨hmoved.calls, hmoved.sessions, fun entry hentry => ?_, hmoved.answered, hmoved.flushed,
    hmoved.recorded⟩
  rcases hmem entry hentry with hold | ⟨horigin, created, rfl⟩
  · exact hmoved.answers entry hold
  · obtain ⟨request, hop, hstands⟩ := stands_of_committed (hc.commit hsession hprog hpending).2
    exact ⟨request, h.sessions u session entry.1 request hsession horigin hop, hstands⟩

/-- Every step keeps the answers. -/
theorem next (h : s.Answered) (hv : s.Versioned)
    (hc : s.inventory.Sound (protocol g.unconfirmedHold)) (hnext : g.next s l = some s') :
    s'.Answered := by
  have hgrow : ∀ {l' c}, (Inventory.inventory g.unconfirmedHold).next s.inventory l' = some c →
      Grows s.inventory.db c.db := fun hstep =>
    hc.grow_of_next (protocol_governs g.unconfirmedHold) hstep
  cases Settings.step_of_next hnext with
  | @post t principal key payload uuid4 keys r hnone hid hheld hphase =>
    apply setCreate
    · exact ⟨h.calls, h.sessions, h.answers, h.answered, h.flushed, h.recorded⟩
    · intro x hx
      cases hnone.symm.trans hx
    · intro answer hanswer
      rcases hphase with hphase | hphase <;> rw [hphase] at hanswer <;> cases hanswer
    · intro shipment hshipment
      rcases hphase with hphase | hphase <;> rw [hphase] at hshipment <;> cases hshipment
  | act keys inserting referenceNo hr hmoves => exact h.acts hr hmoves
  | @reserve t r warehouse n hr hphase =>
    apply setCreate
    · refine ⟨fun call hcall request hop => ?_, h.sessions, h.answers, h.answered, h.flushed,
        h.recorded⟩
      rcases List.mem_append.1 hcall with hcall | hcall
      · exact h.calls call hcall request hop
      · obtain rfl := List.mem_singleton.1 hcall
        obtain rfl := Operation.reserve.inj hop
        exact Option.map_eq_some_iff.2 ⟨r, hr, rfl⟩
    · intro x hx
      obtain rfl := Option.some.inj (hr.symm.trans hx)
      rfl
    · exact fun _ hanswer => nomatch hanswer
    · exact fun _ hshipment => nomatch hshipment
  | @release t r shipmentId n hr hphase =>
    apply setCreate
    · refine ⟨fun call hcall request hop => ?_, h.sessions, h.answers, h.answered, h.flushed,
        h.recorded⟩
      rcases List.mem_append.1 hcall with hcall | hcall
      · exact h.calls call hcall request hop
      · obtain rfl := List.mem_singleton.1 hcall
        cases hop
    · intro x hx
      obtain rfl := Option.some.inj (hr.symm.trans hx)
      rfl
    · exact fun _ hanswer => nomatch hanswer
    · exact fun _ hshipment => nomatch hshipment
  | @answer t n k r warehouse answer hr hphase hanswer =>
    apply setCreate
    · exact ⟨h.calls, h.sessions, fun entry hentry =>
        h.answers entry (List.mem_of_mem_eraseIdx hentry), h.answered, h.flushed, h.recorded⟩
    · intro x hx
      obtain rfl := Option.some.inj (hr.symm.trans hx)
      rfl
    · intro answer' hanswer'
      obtain rfl := Option.some.inj hanswer'
      obtain ⟨request, hrequest, hstands⟩ := h.answers _ (List.mem_of_getElem? hanswer)
      obtain ⟨x, hx, rfl⟩ := Option.map_eq_some_iff.1 hrequest
      obtain rfl := Option.some.inj (hr.symm.trans hx)
      exact hstands
    · exact fun _ hshipment => nomatch hshipment
  | commit keys hr hphase hpayload hid hend =>
    exact h.commits hr hphase hpayload hid hend
  | lose =>
    exact ⟨fun call hcall => h.calls call (List.mem_of_mem_eraseIdx hcall), h.sessions, h.answers,
      h.answered, h.flushed, h.recorded⟩
  | @deliver n u call c hcall hstart =>
    have hcalls := h.calls call (List.mem_of_getElem? hcall)
    obtain ⟨_, hsessions, hanswers, hanswered, hflushed, hrecorded⟩ := h.starts
      (some (.call call.caller)) hstart fun t request horigin hop => by
        cases horigin
        exact hcalls request hop
    exact ⟨fun call hcall => h.calls call (List.mem_of_mem_eraseIdx hcall), hsessions, hanswers,
      hanswered, hflushed, hrecorded⟩
  | settle hsession hstep hprog hpending hclosed =>
    exact h.settles hc hsession hstep hprog hpending
  | @stop u l l' c hrun hstep hstart hdb hclock hclosed =>
    obtain ⟨handling, heq⟩ := s.closed_eq c u
    rw [heq]
    obtain ⟨hcalls, hsessions, hanswers, hanswered, hflushed, hrecorded⟩ :=
      h.goes_on (hgrow hstep) hstep hstart
    exact ⟨hcalls, hsessions, hanswers, hanswered, hflushed, hrecorded⟩
  | run hstep hdb hclock hopen => exact h.goes_on (hgrow hstep) hstep fun _ _ heq => nomatch heq
  | operate hstart => exact h.starts none hstart fun _ _ horigin => nomatch horigin
  | @environment e =>
    have hstep : (Inventory.inventory g.unconfirmedHold).next s.inventory (.env e) =
      some { s.inventory with db := applyEnvironment e s.inventory.db } := rfl
    exact h.goes_on (hgrow hstep) hstep fun _ _ heq => nomatch heq
  | @change v id copy moved target principal reason expectedVersion hcopy hmoved hversion =>
    refine ⟨h.calls, h.sessions, h.answers, h.answered, h.flushed, fun id' x hx => ?_⟩
    rcases update_eq_some hx with ⟨rfl, rfl⟩ | ⟨-, hx⟩
    · obtain ⟨t, request, hrequest, hid, hlists, hrows⟩ :=
        h.recorded _ copy (hv.copy_eq hcopy hversion)
      refine ⟨t, request, hrequest, hid, ?_, hrows⟩
      rw [Shipment.Lists, (changeStatus_eq_ok hmoved).2.2.2.2]
      exact hlists
    · exact h.recorded id' x hx
  | @handle u shipmentId event op c hfree hevent hop hstart =>
    obtain ⟨hcalls, hsessions, hanswers, hanswered, hflushed, hrecorded⟩ :=
      h.starts (some (.event shipmentId)) hstart fun _ _ horigin => nomatch horigin
    exact ⟨hcalls, hsessions, hanswers, hanswered, hflushed, hrecorded⟩
  | @tick n keys =>
    obtain ⟨hcalls, hsessions, hanswers, hanswered, hflushed, hrecorded⟩ :=
      h.inventory (c := { s.inventory with clock := s.inventory.clock + n }) (.refl _) h.sessions
    exact ⟨hcalls, hsessions, hanswers, hanswered, hflushed, hrecorded⟩
  | _ => exact ⟨h.calls, h.sessions, h.answers, h.answered, h.flushed, h.recorded⟩

end Answered

end Saga

theorem answered_of_saga {g : Settings} {s : Saga} (h : g.machine.Run .initial s) : s.Answered := by
  have hstep : ∀ (s : Saga) l s', (s.inventory.Sound (protocol g.unconfirmedHold) ∧ s.Versioned) ∧
      s.Answered → True → g.machine.next s l = some s' →
      (s'.inventory.Sound (protocol g.unconfirmedHold) ∧ s'.Versioned) ∧ s'.Answered := by
    rintro s l s' ⟨⟨hc, hv⟩, ha⟩ - hnext
    exact ⟨⟨sound_of_next hc hnext, hv.next hnext⟩, ha.next hv hc hnext⟩
  exact (h.preserves hstep ⟨⟨Config.sound_idle consistent_empty, Saga.versioned_initial⟩,
    Saga.answered_initial⟩).2

end SmartLogistics.Shipment
