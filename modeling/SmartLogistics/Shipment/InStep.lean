import SmartLogistics.Shipment.Processing

/-!
# Stock and lifecycle in step

The reservations of a shipment follow it through three channels: the reserve of its create, the
compensating release of a create that fails, and the events, which Inventory handles one after the
other. Between two databases nothing is in step at every moment, so the invariant of a run says of
each row how the last event that was handled leaves it (`Saga.Follows`, in `Saga.Steady` with what
is known of owners, events and transactions). When the events of a shipment are all handled, its
rows stand as its status has them (`in_step_of_run`).
-/

set_option autoImplicit false
set_option linter.dupNamespace false

namespace SmartLogistics.Shipment

open SmartLogistics.Library SmartLogistics.Platform SmartLogistics.Warehouse
  SmartLogistics.Inventory

/-! ## The rows of a shipment -/

/-- The lines of a shipment's rows. -/
def heldLines (shipmentId : Nat) (db : Db) : List (Nat × Int) :=
  (forShipment shipmentId db).map fun r => (r.skuId, r.quantity)

namespace Saga

/-- How a row stands before Inventory has handled an event of its shipment: an unconfirmed hold,
unless it has lapsed or its create has failed. -/
def Unconfirmed (s : Saga) (r : InventoryReservation) : Prop :=
  r.confirmedAt = none ∧ (r.status = .held ∨ r.status = .released ∧
    ((∃ e, r.expiresAt = some e ∧ e ≤ s.inventory.clock) ∨ s.GivenUp r.shipmentId))

/-- A row stands as the last event that was handled leaves it. -/
structure Follows (s : Saga) (r : InventoryReservation) : Prop where
  before : s.handled r.shipmentId = 0 → s.Unconfirmed r
  after : ∀ n event, s.handled r.shipmentId = n + 1 → (s.events r.shipmentId)[n]? = some event →
    event.status.standing.Of r

/-- Rows follow their shipments, and are the lines that its create asked for; the transaction for an
event knows them. -/
structure Following (s : Saga) : Prop where
  rows : ∀ r ∈ s.inventory.db.reservations, s.Follows r
  lines : ∀ id, HasRows id s.inventory.db → ∃ t request, s.reservationOf t = some request ∧
    request.shipmentId = id ∧
      heldLines id s.inventory.db = request.lines.map fun line => (line.skuId, line.quantity)
  knows : ∀ u session id, s.inventory.sessions u = some session →
    s.origins u = some (.event id) → Knows session.opened id s.inventory.db

theorem following_initial : initial.Following where
  rows := fun _ h => absurd h List.not_mem_nil
  lines := fun _ ⟨_, h, _⟩ => absurd h List.not_mem_nil
  knows := fun _ _ _ h => nomatch h

section Rows

variable {g : Settings} {s s' : Saga} {l : SagaLabel} {u : Nat} {r r' : InventoryReservation}

/-- A row that stays stands as it did, unless an event of its shipment is handled. -/
theorem Follows.mono (h : s.Follows r) (hclock : s.inventory.clock ≤ s'.inventory.clock)
    (hgiven : s.GivenUp r.shipmentId → s'.GivenUp r.shipmentId)
    (hhandled : s'.handled r.shipmentId = s.handled r.shipmentId)
    (hevents : ∀ n, n < s.handled r.shipmentId →
      (s'.events r.shipmentId)[n]? = (s.events r.shipmentId)[n]?) : s'.Follows r where
  before := by
    intro hzero
    obtain ⟨hnone, hheld | ⟨hreleased, hwhy⟩⟩ := h.before (hhandled ▸ hzero)
    · exact ⟨hnone, Or.inl hheld⟩
    · refine ⟨hnone, Or.inr ⟨hreleased, hwhy.imp ?_ hgiven⟩⟩
      rintro ⟨e, he, hle⟩
      exact ⟨e, he, hle.trans hclock⟩
  after := by
    intro n event hn hevent
    rw [hhandled] at hn
    rw [hevents n (by omega)] at hevent
    exact h.after n event hn hevent

/-- A commit that does not work for an event of the row's shipment leaves the row following, if a
release is one of a create that has failed. -/
theorem Follows.rowStep {op : Operation} (h : s.Follows r)
    (hrow : RowStep op s.inventory.clock r r')
    (hop : ∀ standing, settledBy op = some (r.shipmentId, standing) →
      standing = .released ∧ s.GivenUp r.shipmentId)
    (hnew : s.GivenUp r.shipmentId → s.handled r.shipmentId = 0) : s.Follows r' := by
  cases hrow with
  | kept => exact h
  | confirmed now heq hstatus hnone =>
    subst heq
    cases (hop .held rfl).1
  | committed now actorId heq hstatus =>
    subst heq
    cases (hop .committed rfl).1
  | released now reason heq hstatus =>
    subst heq
    have hgiven := (hop .released rfl).2
    refine ⟨fun hzero => ⟨(h.before hzero).1, Or.inr ⟨rfl, Or.inr hgiven⟩⟩, fun n _ hn _ => ?_⟩
    have hzero := hnew hgiven
    rw [show s.handled r.shipmentId = n + 1 from hn] at hzero
    cases hzero
  | expired now cutoff hsweeps hcutoff hlapsed =>
    simp only [isLapsed, Bool.and_eq_true, beq_iff_eq, Option.isNone_iff_eq_none,
      Option.any_eq_true, decide_eq_true_eq] at hlapsed
    obtain ⟨⟨hheld, hnone⟩, e, he, hle⟩ := hlapsed
    refine ⟨fun _ => ⟨hnone, Or.inr ⟨rfl, Or.inl ⟨e, he, hle.trans hcutoff⟩⟩⟩, ?_⟩
    intro n event hn hevent
    -- a sweep finds no row of a shipment with a handled event
    have hstands := h.after n event hn hevent
    cases hs : event.status.standing <;> rw [hs] at hstands
    · exact absurd hnone hstands.2
    · rw [show r.status = .committed from hstands] at hheld
      cases hheld
    · rw [show r.status = .released from hstands] at hheld
      cases hheld

/-- A state with the same rows, and longer lists of events. -/
theorem Following.congr (h : s.Following) (hp : s.Processed)
    (hrows : s'.inventory.db.reservations = s.inventory.db.reservations)
    (hclock : s.inventory.clock ≤ s'.inventory.clock)
    (hgiven : ∀ id, s.GivenUp id → s'.GivenUp id)
    (hreservation : ∀ t request, s.reservationOf t = some request →
      s'.reservationOf t = some request)
    (hhandled : s'.handled = s.handled) (hevents : ∀ id, s.events id <+: s'.events id)
    (hknows : ∀ u session id, s'.inventory.sessions u = some session →
      s'.origins u = some (.event id) → Knows session.opened id s.inventory.db) : s'.Following where
  rows := by
    intro r hr
    rw [hrows] at hr
    refine (h.rows r hr).mono hclock (hgiven _) (congrFun hhandled _) fun n hn => ?_
    obtain ⟨more, hmore⟩ := hevents r.shipmentId
    rw [← hmore, List.getElem?_append_left (hn.trans_le (hp.handled _))]
  lines := by
    intro id hhas
    have hlines : heldLines id s'.inventory.db = heldLines id s.inventory.db := by
      rw [heldLines, heldLines, forShipment, forShipment, hrows]
    obtain ⟨r, hr, hship⟩ := hhas
    obtain ⟨t, request, hrequest, hid, heq⟩ := h.lines id ⟨r, hrows ▸ hr, hship⟩
    exact ⟨t, request, hreservation t request hrequest, hid, hlines.trans heq⟩
  knows := by
    intro u session id hs horigin r hr hship
    exact hknows u session id hs horigin r (hrows ▸ hr) hship

end Rows

end Saga

/-- The lines of a shipment after a commit. -/
theorem heldLines_of_rows {op : Operation} {clock shipmentId : Nat} {db db' : Db}
    {f : InventoryReservation → InventoryReservation} {new : List InventoryReservation}
    (hrows : db'.reservations = db.reservations.map f ++ new)
    (hsteps : ∀ r ∈ db.reservations, RowStep op clock r (f r)) :
    heldLines shipmentId db' = heldLines shipmentId db ++
      (new.filter (·.shipmentId == shipmentId)).map fun r => (r.skuId, r.quantity) := by
  have hfilter : db.reservations.filter ((fun r => r.shipmentId == shipmentId) ∘ f) =
      db.reservations.filter (·.shipmentId == shipmentId) := by
    refine List.filter_congr fun r hr => ?_
    rw [Function.comp_apply, (hsteps r hr).grows.shipment]
  rw [heldLines, heldLines, forShipment, forShipment, hrows, List.filter_append, List.map_append,
    List.filter_map, hfilter, List.map_map]
  congr 1
  refine List.map_congr_left fun r hr => ?_
  have hg := (hsteps r (List.mem_of_mem_filter hr)).grows
  rw [Function.comp_apply, hg.sku, hg.quantity]

/-- A reserve adds no rows to a shipment that has the lines it asks for. -/
theorem not_hasRows_of_reserved {op : Operation} {clock : Nat} {db db' : Db}
    {request : ReservationRequest} {f : InventoryReservation → InventoryReservation}
    {new : List InventoryReservation} (hinv : Consistent db')
    (hrows : db'.reservations = db.reservations.map f ++ new)
    (hsteps : ∀ r ∈ db.reservations, RowStep op clock r (f r)) (hnew : Reserved request new)
    (hlines : HasRows request.shipmentId db → heldLines request.shipmentId db =
      request.lines.map fun line => (line.skuId, line.quantity)) :
    ¬ HasRows request.shipmentId db := by
  intro hhas
  have hsame := (hlines hhas).trans hnew.lines.symm
  obtain ⟨n, hn⟩ : ∃ n, n ∈ new := by
    refine List.exists_mem_of_ne_nil _ fun hnil => request.lines_ne_nil ?_
    rw [← List.map_eq_nil_iff, ← hnew.lines, hnil]
    rfl
  have hmem : (n.skuId, n.quantity) ∈ heldLines request.shipmentId db := by
    rw [hsame]
    exact List.mem_map_of_mem hn
  obtain ⟨r, hr, heq⟩ := List.mem_map.1 hmem
  obtain ⟨hr, hship⟩ := List.mem_filter.1 hr
  -- the two rows have one line of the shipment
  have hnodup : (db'.reservations.map fun r => (r.shipmentId, r.skuId)).Nodup := hinv.lines
  rw [hrows, List.map_append, List.nodup_append] at hnodup
  refine hnodup.2.2 _ (List.mem_map_of_mem (List.mem_map_of_mem hr)) _ (List.mem_map_of_mem hn) ?_
  have hg := (hsteps r hr).grows
  have hsku : r.skuId = n.skuId := congrArg Prod.fst heq
  rw [hg.shipment, hg.sku, (hnew.rows n hn).1, beq_iff_eq.1 hship, hsku]

namespace Saga

theorem Owned.reservation_unique {s : Saga} (h : s.Owned) {t u : Nat}
    {request request' : ReservationRequest} (ht : s.reservationOf t = some request)
    (hu : s.reservationOf u = some request') (hid : request.shipmentId = request'.shipmentId) :
    request = request' := by
  obtain ⟨r, hr, rfl⟩ := Option.map_eq_some_iff.1 ht
  obtain ⟨x, hx, rfl⟩ := Option.map_eq_some_iff.1 hu
  obtain rfl := h.unique t u r x hr hx hid
  rw [Option.some.inj (hr.symm.trans hx)]

/-- What a run keeps. -/
structure Steady (g : Settings) (s : Saga) : Prop where
  sound : s.inventory.Sound (protocol g.unconfirmedHold)
  versioned : s.Versioned
  answered : s.Answered
  owned : s.Owned
  told : s.Told
  processed : s.Processed
  following : s.Following

theorem steady_initial (g : Settings) : initial.Steady g where
  sound := Config.sound_idle consistent_empty
  versioned := versioned_initial
  answered := answered_initial
  owned := owned_initial
  told := told_initial
  processed := processed_initial
  following := following_initial

namespace Steady

variable {g : Settings} {s s' : Saga} {l : SagaLabel} {u : Nat}
  {session : Session Db Row Failure Outcome Operation} {outcome : Outcome}
  {c : Config Db Row Failure Outcome Operation}

/-- A shipment with an event has rows. -/
theorem hasRows (h : s.Steady g) {id n : Nat} {event : ShipmentEvent}
    (hevent : (s.events id)[n]? = some event) : HasRows id s.inventory.db := by
  obtain ⟨shipment, hrow⟩ := h.told.recorded hevent
  obtain ⟨t, request, -, -, -, hrows⟩ := h.answered.recorded id shipment hrow
  exact hrows

/-- A shipment of which an event is handled has rows. -/
theorem hasRows_of_handled (h : s.Steady g) {id n : Nat} (hn : s.handled id = n + 1) :
    HasRows id s.inventory.db := by
  have hle := h.processed.handled id
  have hevent : (s.events id)[n]? = some (s.events id)[n] := List.getElem?_eq_getElem (by omega)
  exact h.hasRows hevent

theorem handled_of_givenUp (h : s.Steady g) {id : Nat} (hgiven : s.GivenUp id) :
    s.handled id = 0 := by
  have hle := h.processed.handled id
  rw [h.told.tells.unrecorded id hgiven.1] at hle
  exact Nat.le_zero.1 hle

/-- What a transaction that commits does to the rows: it moves them on, or adds those of the
reserve of a create, whose shipment has none. -/
theorem rows_of_commit (h : s.Steady g) (hsession : s.inventory.sessions u = some session)
    (hprog : session.prog = .pure outcome)
    (hpending : session.pending s.inventory.db = .ok c.db) :
    ∃ f new, c.db.reservations = s.inventory.db.reservations.map f ++ new ∧
      (∀ r ∈ s.inventory.db.reservations, RowStep session.op s.inventory.clock r (f r)) ∧
      (new = [] ∨ ∃ t request, s.reservationOf t = some request ∧ Reserved request new ∧
        ¬ HasRows request.shipmentId s.inventory.db) := by
  obtain ⟨hguar, hpost⟩ := h.sound.commit hsession hprog hpending
  obtain ⟨f, new, hrows, hsteps, hnil | ⟨request, hop, hnew⟩⟩ :=
    rows_of_committed h.sound.inv hpost
  · exact ⟨f, new, hrows, hsteps, Or.inl hnil⟩
  refine ⟨f, new, hrows, hsteps, Or.inr ?_⟩
  have hmay := h.processed.sessions u session hsession
  rw [hop] at hmay
  cases horigin : s.origins u with
  | none =>
    rw [horigin] at hmay
    cases hmay
  | some origin =>
    cases origin with
    | event id =>
      obtain ⟨event, -, hsettled⟩ := h.processed.settledBy_eq h.told hsession horigin
      rw [hop] at hsettled
      cases hsettled
    | call t =>
      have hrequest := h.answered.sessions u session t request hsession horigin hop
      refine ⟨t, request, hrequest, hnew, ?_⟩
      refine not_hasRows_of_reserved hguar.inv hrows hsteps hnew fun hhas => ?_
      obtain ⟨t', request', hrequest', hid, hlines⟩ := h.following.lines _ hhas
      rw [hlines, h.owned.reservation_unique hrequest' hrequest hid]

/-- The lines of a shipment after a commit are still those its create asked for. -/
theorem lines_of_commit (h : s.Steady g) (hsession : s.inventory.sessions u = some session)
    (hprog : session.prog = .pure outcome)
    (hpending : session.pending s.inventory.db = .ok c.db) {id : Nat} (hhas : HasRows id c.db) :
    ∃ t request, s.reservationOf t = some request ∧ request.shipmentId = id ∧
      heldLines id c.db = request.lines.map fun line => (line.skuId, line.quantity) := by
  obtain ⟨f, new, hrows, hsteps, hnew⟩ := h.rows_of_commit hsession hprog hpending
  have hold : (∀ r ∈ new, r.shipmentId ≠ id) → ∃ t request, s.reservationOf t = some request ∧
      request.shipmentId = id ∧
        heldLines id c.db = request.lines.map fun line => (line.skuId, line.quantity) := by
    intro hnot
    have hnil : new.filter (·.shipmentId == id) = [] :=
      List.filter_eq_nil_iff.2 fun r hr heq => hnot r hr (beq_iff_eq.1 heq)
    rw [heldLines_of_rows hrows hsteps, hnil, List.map_nil, List.append_nil]
    refine h.following.lines id ?_
    obtain ⟨r', hr', hship⟩ := hhas
    rw [hrows] at hr'
    rcases List.mem_append.1 hr' with hr' | hr'
    · obtain ⟨r, hr, rfl⟩ := List.mem_map.1 hr'
      exact ⟨r, hr, (hsteps r hr).grows.shipment.symm.trans hship⟩
    · exact absurd hship (hnot r' hr')
  rcases hnew with rfl | ⟨t, request, hrequest, hnew, hfresh⟩
  · exact hold fun r hr => absurd hr List.not_mem_nil
  by_cases hid : request.shipmentId = id
  · subst hid
    refine ⟨t, request, hrequest, rfl, ?_⟩
    have hall : new.filter (·.shipmentId == request.shipmentId) = new :=
      List.filter_eq_self.2 fun r hr => beq_iff_eq.2 (hnew.rows r hr).1
    rw [heldLines_of_rows hrows hsteps, heldLines, forShipment_eq_nil.2 hfresh, hall, List.map_nil,
      List.nil_append, hnew.lines]
  · exact hold fun r hr heq => hid ((hnew.rows r hr).1.symm.trans heq)

/-- A transaction for an event knows the rows that a commit leaves. -/
theorem knows_of_commit (h : s.Steady g) (hsession : s.inventory.sessions u = some session)
    (hprog : session.prog = .pure outcome)
    (hpending : session.pending s.inventory.db = .ok c.db) {opened : Db} {id : Nat}
    (hhas : HasRows id s.inventory.db) (hknows : Knows opened id s.inventory.db) :
    Knows opened id c.db := by
  obtain ⟨f, new, hrows, hsteps, hnew⟩ := h.rows_of_commit hsession hprog hpending
  intro r' hr' hship
  rw [hrows] at hr'
  rcases List.mem_append.1 hr' with hr' | hr'
  · obtain ⟨r, hr, rfl⟩ := List.mem_map.1 hr'
    have hg := (hsteps r hr).grows
    obtain ⟨r₀, hr₀, hid, hship₀⟩ := hknows r hr (hg.shipment.symm.trans hship)
    exact ⟨r₀, hr₀, hid.trans hg.id.symm, hship₀⟩
  · rcases hnew with rfl | ⟨t, request, -, hnew, hfresh⟩
    · exact absurd hr' List.not_mem_nil
    · rw [← (hnew.rows r' hr').1, hship] at hfresh
      exact absurd hhas hfresh

/-- A new hold stands as one of a shipment without events does. -/
theorem follows_of_new (h : s.Steady g) {request : ReservationRequest}
    {new : List InventoryReservation} (hnew : Reserved request new)
    (hfresh : ¬ HasRows request.shipmentId s.inventory.db) {r : InventoryReservation}
    (hr : r ∈ new) : s.Follows r := by
  obtain ⟨hship, hheld, hnone⟩ := hnew.rows r hr
  refine ⟨fun _ => ⟨hnone, Or.inl hheld⟩, fun n event hn _ => ?_⟩
  rw [← hship] at hfresh
  exact absurd (h.hasRows_of_handled hn) hfresh

/-- The commit of a call's transaction, or of Inventory's own, leaves every row following. -/
theorem follows_of_other (h : s.Steady g) (hsession : s.inventory.sessions u = some session)
    (hprog : session.prog = .pure outcome)
    (hpending : session.pending s.inventory.db = .ok c.db)
    (horigin : ∀ id, s.origins u ≠ some (.event id)) :
    ∀ r ∈ c.db.reservations, s.Follows r := by
  obtain ⟨f, new, hrows, hsteps, hnew⟩ := h.rows_of_commit hsession hprog hpending
  have hmay := h.processed.sessions u session hsession
  intro r' hr'
  rw [hrows] at hr'
  rcases List.mem_append.1 hr' with hr' | hr'
  · obtain ⟨r, hr, rfl⟩ := List.mem_map.1 hr'
    refine (h.following.rows r hr).rowStep (hsteps r hr) ?_ h.handled_of_givenUp
    intro standing hsettled
    cases horigin' : s.origins u with
    | none =>
      rw [horigin'] at hmay
      rw [settledBy_of_isOwn hmay] at hsettled
      cases hsettled
    | some origin =>
      cases origin with
      | event id => exact absurd horigin' (horigin id)
      | call t =>
        rw [horigin'] at hmay
        obtain ⟨rfl, hrel⟩ := released_of_isCall hmay hsettled
        exact ⟨rfl, h.owned.releasing _ (Or.inr ⟨u, session, t, hsession, horigin', hrel⟩)⟩
  · rcases hnew with rfl | ⟨t, request, -, hnew, hfresh⟩
    · exact absurd hr' List.not_mem_nil
    · exact h.follows_of_new hnew hfresh hr'

/-- The transaction for an event finds the rows of its shipment HELD. -/
theorem held_of_event (h : s.Steady g) {draw id : Nat} (hok : g.Assumes s (.run u draw))
    (hsession : s.inventory.sessions u = some session) (hprog : session.prog = .pure outcome)
    (hpending : session.pending s.inventory.db = .ok c.db)
    (horigin : s.origins u = some (.event id)) :
    ∀ r ∈ s.inventory.db.reservations, r.shipmentId = id → r.status = .held := by
  rintro r hr rfl
  obtain ⟨-, event, hevent, hop⟩ := h.processed.handling u session _ hsession horigin
  obtain ⟨shipment, hrow⟩ := h.told.recorded hevent
  have hhistory := h.told.tells.history _ shipment hrow
  cases hn : s.handled r.shipmentId with
  | zero =>
    -- `shipment.created`: the hold has not lapsed, and its create has not failed
    rw [hn, hhistory.getElem?_zero] at hevent
    cases hevent
    obtain ⟨-, hheld | ⟨-, ⟨e, he, hle⟩ | hgiven⟩⟩ := (h.following.rows r hr).before hn
    · exact hheld
    · have hresult : session.result s.inventory.db ≠ none := by
        rw [Session.result_eq_some.2 ⟨hprog, _, hpending⟩]
        exact Option.some_ne_none _
      have hlt := hok session r.shipmentId hsession (Option.some.inj hop).symm hresult r hr rfl e he
      omega
    · rw [hgiven.1] at hrow
      cases hrow
  | succ n =>
    -- a dispatch or a cancellation: the rows are held since the event before
    rw [hn] at hevent
    obtain ⟨before, target, reason, hbefore, rfl, hmove⟩ := hhistory.getElem?_succ hevent
    have hstands := (h.following.rows r hr).after n before hn hbefore
    rcases standing_of_transition hmove r.shipmentId reason with ⟨hnone, -⟩ | ⟨op, -, -, hheld⟩
    · rw [hop] at hnone
      cases hnone
    · rw [hheld] at hstands
      exact hstands.1

/-- The commit of an event's transaction leaves the rows of its shipment as the event says. -/
theorem standing_of_event (h : s.Steady g) {draw id : Nat} (hok : g.Assumes s (.run u draw))
    (hsession : s.inventory.sessions u = some session) (hprog : session.prog = .pure outcome)
    (hpending : session.pending s.inventory.db = .ok c.db)
    (horigin : s.origins u = some (.event id)) : ∃ event,
      (s.events id)[s.handled id]? = some event ∧
        ∀ r ∈ c.db.reservations, r.shipmentId = id → event.status.standing.Of r := by
  obtain ⟨event, hevent, hsettled⟩ := h.processed.settledBy_eq h.told hsession horigin
  obtain ⟨-, hpost⟩ := h.sound.commit hsession hprog hpending
  exact ⟨event, hevent, standing_of_committed h.sound.inv hpost hsettled
    (h.following.knows u session id hsession horigin)
    (h.held_of_event hok hsession hprog hpending horigin)⟩

/-- It leaves the rows of the other shipments following. -/
theorem follows_of_event (h : s.Steady g) {id : Nat}
    (hsession : s.inventory.sessions u = some session) (hprog : session.prog = .pure outcome)
    (hpending : session.pending s.inventory.db = .ok c.db)
    (horigin : s.origins u = some (.event id)) :
    ∀ r ∈ c.db.reservations, r.shipmentId ≠ id → s.Follows r := by
  obtain ⟨f, new, hrows, hsteps, hnew⟩ := h.rows_of_commit hsession hprog hpending
  obtain ⟨event, -, hsettled⟩ := h.processed.settledBy_eq h.told hsession horigin
  intro r' hr' hne
  rw [hrows] at hr'
  rcases List.mem_append.1 hr' with hr' | hr'
  · obtain ⟨r, hr, rfl⟩ := List.mem_map.1 hr'
    refine (h.following.rows r hr).rowStep (hsteps r hr) ?_ h.handled_of_givenUp
    intro standing hother
    rw [hsettled] at hother
    cases hother
    exact absurd (hsteps r hr).grows.shipment hne
  · rcases hnew with rfl | ⟨t, request, -, hnew, hfresh⟩
    · exact absurd hr' List.not_mem_nil
    · exact h.follows_of_new hnew hfresh hr'

/-- An event that moves no rows leaves the rows of its shipment standing. -/
theorem standing_of_skip (h : s.Steady g) {id : Nat} {event : ShipmentEvent}
    (hevent : (s.events id)[s.handled id]? = some event) (hop : onShipmentEvent event = none) :
    ∀ r ∈ s.inventory.db.reservations, r.shipmentId = id → event.status.standing.Of r := by
  rintro r hr rfl
  obtain ⟨shipment, hrow⟩ := h.told.recorded hevent
  have hhistory := h.told.tells.history _ shipment hrow
  cases hn : s.handled r.shipmentId with
  | zero =>
    rw [hn, hhistory.getElem?_zero] at hevent
    cases hevent
    cases hop
  | succ n =>
    rw [hn] at hevent
    obtain ⟨before, target, reason, hbefore, rfl, hmove⟩ := hhistory.getElem?_succ hevent
    rcases standing_of_transition hmove r.shipmentId reason with ⟨-, hsame⟩ | ⟨op, hsome, -⟩
    · rw [ShipmentEvent.status, hsame]
      exact (h.following.rows r hr).after n before hn hbefore
    · rw [hop] at hsome
      cases hsome

/-- A row of a shipment whose next event is handled, if it stands as the event says. -/
theorem follows_handled {id : Nat} {event : ShipmentEvent}
    (hevent : (s.events id)[s.handled id]? = some event)
    (hhandled : s'.handled id = s.handled id + 1) (hevents : s'.events = s.events)
    {r : InventoryReservation} (hship : r.shipmentId = id) (hstands : event.status.standing.Of r) :
    s'.Follows r := by
  subst hship
  refine ⟨fun hzero => ?_, fun n event' hn hevent' => ?_⟩
  · rw [hhandled] at hzero
    cases hzero
  · rw [hhandled, Nat.add_right_cancel_iff] at hn
    rw [hevents, ← hn, hevent, Option.some.injEq] at hevent'
    exact hevent' ▸ hstands

/-- The rows of a shipment whose next event is handled, and the rows of the others. -/
theorem rows_handled (h : s.Steady g) (hnext : g.next s l = some s') {id : Nat}
    {event : ShipmentEvent} (hevent : (s.events id)[s.handled id]? = some event)
    (hhandled : s'.handled = Function.update s.handled id (s.handled id + 1))
    (hevents : s'.events = s.events) (hclock : s.inventory.clock ≤ s'.inventory.clock)
    {rows : List InventoryReservation}
    (hown : ∀ r ∈ rows, r.shipmentId = id → event.status.standing.Of r)
    (hother : ∀ r ∈ rows, r.shipmentId ≠ id → s.Follows r) : ∀ r ∈ rows, s'.Follows r := by
  intro r hr
  by_cases hship : r.shipmentId = id
  · refine follows_handled hevent ?_ hevents hship (hown r hr hship)
    rw [hhandled, Function.update_self]
  · refine (hother r hr hship).mono hclock (h.owned.givenUp_next hnext) ?_ fun n _ => ?_
    · rw [hhandled, Function.update_of_ne hship]
    · rw [hevents]

/-- The transactions that Inventory goes on with know what they knew. -/
theorem knows_of_continues (h : s.Steady g) {c : Config Db Row Failure Outcome Operation}
    (hc : s.Continues c) (u : Nat) (session : Session Db Row Failure Outcome Operation) (id : Nat)
    (hs : c.sessions u = some session) (horigin : s.origins u = some (.event id)) :
    Knows session.opened id s.inventory.db := by
  obtain ⟨session₀, hs₀, -, hopened⟩ := hc u session hs
  exact hopened ▸ h.following.knows u session₀ id hs₀ horigin

/-- A commit of Inventory keeps the rows following. -/
theorem following_settle (h : s.Steady g) {draw : Nat} (hok : g.Assumes s (.run u draw))
    (hnext : g.next s (.run u draw) = some (({ s with inventory := c }.close u).settle u outcome))
    (hsession : s.inventory.sessions u = some session)
    (hstep : (Inventory.inventory g.unconfirmedHold).next s.inventory (.step u draw) = some c)
    (hprog : session.prog = .pure outcome)
    (hpending : session.pending s.inventory.db = .ok c.db) :
    (({ s with inventory := c }.close u).settle u outcome).Following := by
  have hclock := System.clock_le_of_next _ hstep
  have hc : s.Continues c := continues_of_next hstep fun _ _ heq => by cases heq
  have hgiven : ∀ id, s.GivenUp id → _ := fun id => h.owned.givenUp_next hnext
  have hlines : ∀ id, HasRows id c.db → _ := fun _ => h.lines_of_commit hsession hprog hpending
  -- the transactions for events are of shipments that have rows
  have hknows : ∀ v session' id, c.sessions v = some session' →
      s.origins v = some (.event id) → Knows session'.opened id c.db := by
    intro v session' id hs horigin
    obtain ⟨session₀, hs₀, -⟩ := hc v session' hs
    obtain ⟨-, event, hevent, -⟩ := h.processed.handling v session₀ id hs₀ horigin
    exact h.knows_of_commit hsession hprog hpending (h.hasRows hevent)
      (h.knows_of_continues hc v session' id hs horigin)
  by_cases hevent : ∃ id, s.origins u = some (.event id)
  · obtain ⟨id, horigin⟩ := hevent
    obtain ⟨event, hget, hown⟩ := h.standing_of_event hok hsession hprog hpending horigin
    have hrows := h.rows_handled hnext hget (by rw [settle_of_event horigin])
      (by rw [settle_of_event horigin]) (by rw [settle_of_event horigin]; exact hclock) hown
      (h.follows_of_event hsession hprog hpending horigin)
    rw [settle_of_event horigin] at hrows ⊢
    exact ⟨hrows, hlines, hknows⟩
  · have hother : ∀ id, s.origins u ≠ some (.event id) := fun id horigin => hevent ⟨id, horigin⟩
    obtain ⟨answers, heq⟩ := settle_of_other (c := c) hother
    rw [heq] at hgiven ⊢
    refine ⟨fun r hr => ?_, hlines, hknows⟩
    exact (h.follows_of_other hsession hprog hpending hother r hr).mono hclock (hgiven _) rfl
      fun _ _ => rfl

/-- Every assumed step keeps the rows following. -/
theorem following_next (h : s.Steady g) (hok : g.Assumes s l) (hnext : g.next s l = some s') :
    s'.Following := by
  have hgiven : ∀ id, s.GivenUp id → s'.GivenUp id := fun id => h.owned.givenUp_next hnext
  have hreservation : ∀ t request, s.reservationOf t = some request →
      s'.reservationOf t = some request := by
    intro t request hrequest
    obtain ⟨r, hr, rfl⟩ := Option.map_eq_some_iff.1 hrequest
    obtain ⟨r', hr', hsame, -⟩ := creates_next hnext hr
    exact Option.map_eq_some_iff.2 ⟨r', hr', hsame⟩
  have happended : ∀ (id id' : Nat) (event : ShipmentEvent),
      s.events id' <+: Function.update s.events id (s.events id ++ [event]) id' := by
    intro id id' event
    by_cases hsame : id' = id
    · subst hsame
      rw [Function.update_self]
      exact List.prefix_append _ _
    · have hold := Function.update_of_ne hsame (s.events id ++ [event]) s.events
      exact hold.symm ▸ List.prefix_rfl
  cases Settings.step_of_next hnext with
  | commit keys hr hphase hpayload hid hend =>
    exact h.following.congr h.processed rfl (Nat.le_refl _) hgiven hreservation rfl
      (fun id' => happended _ id' _) h.following.knows
  | change hcopy hmoved hversion =>
    exact h.following.congr h.processed rfl (Nat.le_refl _) hgiven hreservation rfl
      (fun id' => happended _ id' _) h.following.knows
  | settle hsession hstep hprog hpending hclosed =>
    exact h.following_settle hok hnext hsession hstep hprog hpending
  | @stop u l l' c hrun hstep hstart hdb hclock hclosed =>
    obtain ⟨handling, heq⟩ := s.closed_eq c u
    rw [heq] at hgiven hreservation ⊢
    exact h.following.congr h.processed (congrArg Db.reservations hdb) (Nat.le_of_eq hclock.symm)
      hgiven hreservation rfl (fun _ => List.prefix_rfl)
      (h.knows_of_continues (continues_of_next hstep hstart))
  | run hstep hdb hclock hopen =>
    exact h.following.congr h.processed (congrArg Db.reservations hdb) (Nat.le_of_eq hclock.symm)
      hgiven hreservation rfl (fun _ => List.prefix_rfl)
      (h.knows_of_continues (continues_of_next hstep fun _ _ heq => by cases heq))
  | @deliver n u call c hcall hstart =>
    obtain ⟨-, rfl⟩ := Settings.start_eq_some hstart
    refine h.following.congr h.processed rfl (Nat.le_refl _) hgiven hreservation rfl
      (fun _ => List.prefix_rfl) fun v session id hs hv => ?_
    rcases update_option_eq_some hv with ⟨-, heq⟩ | ⟨hvu, hv⟩
    · cases heq
    · exact h.following.knows v session id ((Function.update_of_ne hvu ..).symm.trans hs) hv
  | @operate u op c hstart =>
    obtain ⟨-, rfl⟩ := Settings.start_eq_some hstart
    refine h.following.congr h.processed rfl (Nat.le_refl _) hgiven hreservation rfl
      (fun _ => List.prefix_rfl) fun v session id hs hv => ?_
    rcases update_option_eq_some hv with ⟨-, heq⟩ | ⟨hvu, hv⟩
    · cases heq
    · exact h.following.knows v session id ((Function.update_of_ne hvu ..).symm.trans hs) hv
  | @environment e =>
    have hrows : (applyEnvironment e s.inventory.db).reservations =
        s.inventory.db.reservations := by
      cases e <;> rfl
    exact h.following.congr h.processed hrows (Nat.le_refl _) hgiven hreservation rfl
      (fun _ => List.prefix_rfl) h.following.knows
  | @handle u id event op c hfree hevent hop hstart =>
    obtain ⟨-, rfl⟩ := Settings.start_eq_some hstart
    refine h.following.congr h.processed rfl (Nat.le_refl _) hgiven hreservation rfl
      (fun _ => List.prefix_rfl) fun v session id' hs hv => ?_
    rcases update_eq_some hs with ⟨-, rfl⟩ | ⟨hvu, hs⟩
    · exact fun r hr hship => ⟨r, hr, rfl, hship⟩
    · exact h.following.knows v session id' hs ((Function.update_of_ne hvu ..).symm.trans hv)
  | @skip u id event hfree hevent hop =>
    have hrows := h.rows_handled hnext hevent rfl rfl (Nat.le_refl _)
      (h.standing_of_skip hevent hop) fun r hr _ => h.following.rows r hr
    exact ⟨hrows, fun id' hhas => h.following.lines id' hhas, h.following.knows⟩
  | @tick n keys =>
    exact h.following.congr h.processed rfl (Nat.le_add_right _ _) hgiven hreservation rfl
      (fun _ => List.prefix_rfl) h.following.knows
  | _ =>
    exact h.following.congr h.processed rfl (Nat.le_refl _) hgiven hreservation rfl
      (fun _ => List.prefix_rfl) h.following.knows

theorem next (h : s.Steady g) (hok : g.Assumes s l) (hnext : g.next s l = some s') :
    s'.Steady g where
  sound := sound_of_next h.sound hnext
  versioned := h.versioned.next hnext
  answered := h.answered.next h.versioned h.sound hnext
  owned := h.owned.next hok hnext
  told := h.told.next h.versioned hnext
  processed := h.processed.next hok hnext
  following := h.following_next hok hnext

end Steady

theorem steady_of_run {g : Settings} {s : Saga} (h : g.machine.RunOf g.Assumes .initial s) :
    s.Steady g := by
  have hstep : ∀ (s : Saga) l s', s.Steady g → g.Assumes s l → g.machine.next s l = some s' →
      s'.Steady g := fun _ _ _ hs hok hnext => hs.next hok hnext
  exact h.preserves hstep (steady_initial g)

/-! ## Between events -/

/-- The rows of a shipment are in step with it. Those of a recorded shipment are its lines, and
stand as its status has them; without the shipment they are released, or holds that will lapse. -/
structure InStep (s : Saga) (shipmentId : Nat) : Prop where
  lines : ∀ shipment, s.shipments shipmentId = some shipment →
    (heldLines shipmentId s.inventory.db).Perm
      (shipment.items.map fun item => (item.skuId, item.quantity))
  recorded : ∀ shipment, s.shipments shipmentId = some shipment →
    ∀ r ∈ s.inventory.db.reservations, r.shipmentId = shipmentId → shipment.status.standing.Of r
  unrecorded : s.shipments shipmentId = none →
    ∀ r ∈ s.inventory.db.reservations, r.shipmentId = shipmentId →
      r.status = .released ∨ r.status = .held ∧ r.confirmedAt = none ∧ r.expiresAt ≠ none

namespace Steady

variable {g : Settings} {s : Saga} {id : Nat} {shipment : Shipment}

/-- A recorded shipment has rows for its lines, whether its events are handled or not. -/
theorem lines (h : s.Steady g) (hrow : s.shipments id = some shipment) :
    (heldLines id s.inventory.db).Perm
      (shipment.items.map fun item => (item.skuId, item.quantity)) := by
  obtain ⟨t, request, hrequest, hid, hlists, hhas⟩ := h.answered.recorded id shipment hrow
  obtain ⟨t', request', hrequest', hid', hlines⟩ := h.following.lines id hhas
  obtain rfl := h.owned.reservation_unique hrequest hrequest' (hid.trans hid'.symm)
  rw [hlines]
  exact hlists.symm

/-- The last event of a recorded shipment is of its status, so when that is handled the rows
stand as the status has them. -/
theorem recorded (h : s.Steady g) (hhandled : s.handled id = (s.events id).length)
    (hrow : s.shipments id = some shipment) {r : InventoryReservation}
    (hr : r ∈ s.inventory.db.reservations) (hship : r.shipmentId = id) :
    shipment.status.standing.Of r := by
  subst hship
  obtain ⟨init, event, hevents, hstatus⟩ := (h.told.tells.history _ shipment hrow).last
  rw [hevents, List.length_append, List.length_singleton] at hhandled
  have hlast : (s.events r.shipmentId)[init.length]? = some event := by
    rw [hevents, List.getElem?_append_right (Nat.le_refl _), Nat.sub_self]
    rfl
  rw [← hstatus]
  exact (h.following.rows r hr).after init.length event hhandled hlast

/-- Without its shipment a row is released, or an unconfirmed hold, which has a time to expire. -/
theorem unrecorded (h : s.Steady g) (hnone : s.shipments id = none) {r : InventoryReservation}
    (hr : r ∈ s.inventory.db.reservations) (hship : r.shipmentId = id) :
    r.status = .released ∨ r.status = .held ∧ r.confirmedAt = none ∧ r.expiresAt ≠ none := by
  subst hship
  have hzero : s.handled r.shipmentId = 0 := by
    have hle := h.processed.handled r.shipmentId
    rw [h.told.tells.unrecorded _ hnone] at hle
    exact Nat.le_zero.1 hle
  obtain ⟨hunconfirmed, hheld | ⟨hreleased, -⟩⟩ := (h.following.rows r hr).before hzero
  · have hexpires := h.sound.inv.expires r hr hheld
    rw [hunconfirmed, Option.isSome_none, Bool.false_eq_true, false_or] at hexpires
    exact Or.inr ⟨hheld, hunconfirmed, Option.isSome_iff_ne_none.1 hexpires⟩
  · exact Or.inl hreleased

end Steady

end Saga

/-- Along a run of assumed steps, the rows of every shipment whose events are all handled are in
step with it. -/
theorem in_step_of_run {g : Settings} {s : Saga} (h : g.machine.RunOf g.Assumes .initial s)
    (shipmentId : Nat) (hhandled : s.handled shipmentId = (s.events shipmentId).length) :
    s.InStep shipmentId where
  lines := fun _ hrow => (Saga.steady_of_run h).lines hrow
  recorded := fun _ hrow _ hr hship => (Saga.steady_of_run h).recorded hhandled hrow hr hship
  unrecorded := fun hnone _ hr hship => (Saga.steady_of_run h).unrecorded hnone hr hship

/-- A way to see that a step is one that is assumed. -/
def isAssumed (g : Settings) (s : Saga) : SagaLabel → Bool
  | .post _ principal idempotencyKey _ uuid4 =>
    !s.shipmentIds.contains (shipmentIdFor g.uuid5 principal.userId idempotencyKey uuid4)
  | .commit _ lost => !lost
  | .operate _ op => isOwn op
  | .run u _ => (s.inventory.sessions u).all fun session =>
    match session.op with
    | .confirm shipmentId => s.inventory.db.reservations.all fun r =>
      r.shipmentId != shipmentId || r.expiresAt.all fun e => decide (s.inventory.clock < e)
    | _ => true
  | _ => true

theorem assumes_of_isAssumed {g : Settings} {s : Saga} {l : SagaLabel}
    (h : isAssumed g s l = true) : g.Assumes s l := by
  cases l with
  | post t principal idempotencyKey payload uuid4 =>
    simpa [isAssumed, Settings.Assumes] using h
  | commit t lost => simpa [isAssumed, Settings.Assumes] using h
  | operate u op => exact h
  | run u draw =>
    intro session shipmentId hsession hop _ r hr hship e he
    simp only [isAssumed, hsession, Option.all_some, hop, List.all_eq_true] at h
    simpa [hship, he] using h r hr
  | _ => trivial

/-- Request 0 records shipment 50, whose hold is confirmed. -/
def confirmedOrder : List SagaLabel :=
  stockedSaga ++ [.post 0 sampleAdmin none (samplePayload 1) 50] ++ reservedUnderKey 0 14 ++
    [.act 0 .flush, .commit 0 false, .handle 3 50] ++ statements 3 10 0

/-- It is cancelled, which releases the hold. -/
def cancelledOrder : List SagaLabel :=
  confirmedOrder ++ [.read 0 50, .change 0 .cancelled sampleAdmin none none, .handle 4 50] ++
    statements 4 14 0

/-- Both events are handled, and the row of the order is in step. -/
theorem in_step_after_cancellation :
    ∃ s, sampleSettings.machine.RunOf sampleSettings.Assumes .initial s ∧
      s.handled 50 = 2 ∧ (s.shipments 50).map (·.status) = some .cancelled ∧
      s.inventory.db.reservations.map (·.status) = [.released] ∧ s.InStep 50 := by
  have hrun : (sampleSettings.machine.execOf (fun s l => isAssumed sampleSettings s l = true)
      .initial cancelledOrder).map (fun s => (s.handled 50, (s.events 50).length,
        (s.shipments 50).map (·.status), s.inventory.db.reservations.map (·.status))) =
          some (2, 2, some .cancelled, [.released]) := by
    decide +kernel
  obtain ⟨s, hs, hfacts⟩ := Option.map_eq_some_iff.1 hrun
  simp only [Prod.mk.injEq] at hfacts
  obtain ⟨hhandled, hlength, hstatus, hrows⟩ := hfacts
  have hreach : sampleSettings.machine.RunOf sampleSettings.Assumes .initial s :=
    (Machine.runOf_of_execOf _ hs).mono fun _ _ => assumes_of_isAssumed
  exact ⟨s, hreach, hhandled, hstatus, hrows,
    in_step_of_run hreach 50 (hhandled.trans hlength.symm)⟩

end SmartLogistics.Shipment
