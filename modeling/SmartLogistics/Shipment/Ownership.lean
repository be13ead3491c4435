import SmartLogistics.Shipment.Answers
import SmartLogistics.Shipment.Compensation

/-!
# Whose shipment id it is

The assumptions on a run of the saga (`Settings.Assumes`), and what follows for shipment ids
(`Saga.Owned`): every id belongs to one request for ever, it is recorded only by this request, and a
release on its behalf is only ever sent once its request has given it up.
-/

set_option autoImplicit false

namespace SmartLogistics.Shipment

open SmartLogistics.Library SmartLogistics.Platform SmartLogistics.Warehouse
  SmartLogistics.Inventory

/-- The operations that Inventory runs for nobody's shipment: sweeps, and positions opened or
adjusted. -/
def isOwn : Operation → Bool
  | .releaseExpired _ => true
  | .openPosition _ _ => true
  | .adjust _ _ _ => true
  | _ => false

/-- What a run assumes of a step: a create uses a shipment id that no create has used; a commit that
raises was rolled back; the reservations of a shipment are left to its create and its events; and
`shipment.created` is processed before the hold expires. -/
def Settings.Assumes (g : Settings) (s : Saga) : SagaLabel → Prop
  | .post _ principal idempotencyKey _ uuid4 =>
    shipmentIdFor g.uuid5 principal.userId idempotencyKey uuid4 ∉ s.shipmentIds
  | .commit _ lost => lost = false
  | .operate _ op => isOwn op = true
  | .run u _ => ∀ session shipmentId, s.inventory.sessions u = some session →
    session.op = .confirm shipmentId → session.result s.inventory.db ≠ none →
      ∀ r ∈ s.inventory.db.reservations, r.shipmentId = shipmentId →
        ∀ e, r.expiresAt = some e → s.inventory.clock < e
  | _ => True

namespace Saga

/-- The create of the shipment has failed for good. -/
def GivenUp (s : Saga) (shipmentId : Nat) : Prop :=
  s.shipments shipmentId = none ∧
    ∃ t r, s.creates t = some r ∧ r.shipmentId = shipmentId ∧ r.phase.isOver = true

/-- Every shipment id has one create, which alone holds or releases its stock, and which has ended
if the shipment is recorded. -/
structure Owned (s : Saga) : Prop where
  used : ∀ t r, s.creates t = some r → r.shipmentId ∈ s.shipmentIds
  unique : ∀ t u r x, s.creates t = some r → s.creates u = some x →
    r.shipmentId = x.shipmentId → t = u
  holder : ∀ t r shipmentId, s.creates t = some r → r.Holds shipmentId → r.shipmentId = shipmentId
  releasing : ∀ shipmentId, s.Releasing shipmentId → s.GivenUp shipmentId
  recorded : ∀ shipmentId shipment, s.shipments shipmentId = some shipment →
    ∃ t r, s.creates t = some r ∧ r.shipmentId = shipmentId ∧ r.phase = .ended

theorem owned_initial : initial.Owned where
  used := fun _ _ h => nomatch h
  unique := fun _ _ _ _ h => nomatch h
  holder := fun _ _ _ h => nomatch h
  releasing := by
    rintro shipmentId (⟨call, hcall, -⟩ | ⟨u, session, t, hs, -⟩)
    · cases hcall
    · cases hs
  recorded := fun _ _ h => nomatch h

section Creates

variable {g : Settings} {s s' : Saga} {l : SagaLabel} {t : Nat} {r : CreateRequest}

theorem creates_setCreate {u : Nat} {x r' : CreateRequest} (ht : s.creates t = some r)
    (hpayload : r'.payload = r.payload) (hid : r'.shipmentId = r.shipmentId)
    (hover : r.phase.isOver = true → r'.phase.isOver = true)
    (hended : r.phase = .ended → r'.phase = .ended) (hx : s.creates u = some x) :
    ∃ x', (s.setCreate t r').creates u = some x' ∧ x'.reservation = x.reservation ∧
      (x.phase.isOver = true → x'.phase.isOver = true) ∧
      (x.phase = .ended → x'.phase = .ended) := by
  by_cases hut : u = t
  · subst hut
    obtain rfl := Option.some.inj (ht.symm.trans hx)
    refine ⟨r', Function.update_self .., ?_, hover, hended⟩
    rw [CreateRequest.reservation, CreateRequest.reservation, hpayload, hid]
  · exact ⟨x, (Function.update_of_ne hut ..).trans hx, rfl, id, id⟩

/-- A create stays, asks for what it asks for, and does not come back from its end. -/
theorem creates_next (h : g.next s l = some s') (hr : s.creates t = some r) :
    ∃ r', s'.creates t = some r' ∧ r'.reservation = r.reservation ∧
      (r.phase.isOver = true → r'.phase.isOver = true) ∧
      (r.phase = .ended → r'.phase = .ended) := by
  have hsame : ∃ r', s.creates t = some r' ∧ r'.reservation = r.reservation ∧
      (r.phase.isOver = true → r'.phase.isOver = true) ∧ (r.phase = .ended → r'.phase = .ended) :=
    ⟨r, hr, rfl, id, id⟩
  cases Settings.step_of_next h with
  | @post u _ _ _ _ keys x hnone hid hheld hphase =>
    have hne : t ≠ u := by
      rintro rfl
      rw [hnone] at hr
      cases hr
    exact ⟨r, (Function.update_of_ne hne ..).trans hr, rfl, id, id⟩
  | act keys inserting referenceNo hx hmoves hlocks hinserts =>
    exact creates_setCreate hx hmoves.payload hmoves.shipmentId hmoves.ended
      (fun hended => absurd hended hmoves.open_) hr
  | reserve hx hphase =>
    exact creates_setCreate hx rfl rfl (fun hover => by rw [hphase] at hover; cases hover)
      (fun hended => by rw [hphase] at hended; cases hended) hr
  | release hx hphase =>
    exact creates_setCreate hx rfl rfl (fun _ => rfl)
      (fun hended => by rw [hphase] at hended; cases hended) hr
  | answer hx hphase hanswer =>
    exact creates_setCreate hx rfl rfl (fun hover => by rw [hphase] at hover; cases hover)
      (fun hended => by rw [hphase] at hended; cases hended) hr
  | commit keys hx hphase hpayload hid hend =>
    exact creates_setCreate hx hpayload hid (fun hover => by rw [hphase] at hover; cases hover)
      (fun hended => by rw [hphase] at hended; cases hended) hr
  | @settle u draw session c outcome hsession hstep hprog hpending hclosed =>
    obtain ⟨answers, handled, handling, heq⟩ := s.settled_eq c u outcome
    rw [heq]
    exact hsame
  | @stop u l l' c hrun hstep hstart hdb hclock hclosed =>
    obtain ⟨handling, heq⟩ := s.closed_eq c u
    rw [heq]
    exact hsame
  | _ => exact hsame

/-- A create was there before the step, or the step posts it. -/
theorem creates_prev (h : g.next s l = some s') (hr : s'.creates t = some r) :
    (∃ r₀, s.creates t = some r₀ ∧ r.shipmentId = r₀.shipmentId) ∨
      ∃ principal key payload uuid4, l = .post t principal key payload uuid4 ∧
        r.shipmentId = shipmentIdFor g.uuid5 principal.userId key uuid4 ∧
          s'.shipmentIds = r.shipmentId :: s.shipmentIds := by
  have hset : ∀ {u : Nat} {x x' : CreateRequest}, s.creates u = some x →
      Function.update s.creates u (some x') t = some r → x'.shipmentId = x.shipmentId →
      ∃ r₀, s.creates t = some r₀ ∧ r.shipmentId = r₀.shipmentId := by
    intro u x x' hx hr hid
    rcases update_eq_some hr with ⟨rfl, rfl⟩ | ⟨-, hold⟩
    · exact ⟨x, hx, hid⟩
    · exact ⟨r, hold, rfl⟩
  cases Settings.step_of_next h with
  | @post u _ _ _ _ keys x hnone hid hheld hphase =>
    rcases update_eq_some hr with ⟨rfl, rfl⟩ | ⟨-, hold⟩
    · exact Or.inr ⟨_, _, _, _, rfl, hid, rfl⟩
    · exact Or.inl ⟨r, hold, rfl⟩
  | act keys inserting referenceNo hx hmoves hlocks hinserts =>
    exact Or.inl (hset hx hr hmoves.shipmentId)
  | reserve hx hphase => exact Or.inl (hset hx hr rfl)
  | release hx hphase => exact Or.inl (hset hx hr rfl)
  | answer hx hphase hanswer => exact Or.inl (hset hx hr rfl)
  | commit keys hx hphase hpayload hid hend => exact Or.inl (hset hx hr hid)
  | @settle u draw session c outcome hsession hstep hprog hpending hclosed =>
    obtain ⟨answers, handled, handling, heq⟩ := s.settled_eq c u outcome
    rw [heq] at hr
    exact Or.inl ⟨r, hr, rfl⟩
  | @stop u l l' c hrun hstep hstart hdb hclock hclosed =>
    obtain ⟨handling, heq⟩ := s.closed_eq c u
    rw [heq] at hr
    exact Or.inl ⟨r, hr, rfl⟩
  | _ => exact Or.inl ⟨r, hr, rfl⟩

/-- Ids that have been used stay used. -/
theorem used_next (h : g.next s l = some s') {shipmentId : Nat}
    (hused : shipmentId ∈ s.shipmentIds) : shipmentId ∈ s'.shipmentIds := by
  cases Settings.step_of_next h with
  | post keys x hnone hid hheld hphase => exact List.mem_cons_of_mem _ hused
  | @settle u draw session c outcome hsession hstep hprog hpending hclosed =>
    obtain ⟨answers, handled, handling, heq⟩ := s.settled_eq c u outcome
    rw [heq]
    exact hused
  | @stop u l l' c hrun hstep hstart hdb hclock hclosed =>
    obtain ⟨handling, heq⟩ := s.closed_eq c u
    rw [heq]
    exact hused
  | _ => exact hused

/-- A shipment is recorded before the step, or its create commits. -/
theorem recorded_prev (h : g.next s l = some s') {shipmentId : Nat} {shipment : Shipment}
    (hrow : s'.shipments shipmentId = some shipment) :
    (∃ x, s.shipments shipmentId = some x) ∨
      ∃ t lost r, l = .commit t lost ∧ s.creates t = some r ∧ r.shipmentId = shipmentId ∧
        r.phase = .recorded shipment ∧
        (lost = false → ∃ r', s'.creates t = some r' ∧ r'.shipmentId = shipmentId ∧
          r'.phase = .ended) := by
  cases Settings.step_of_next h with
  | @commit t lost r r' x keys hr hphase hpayload hid hend =>
    rcases update_eq_some hrow with ⟨rfl, rfl⟩ | ⟨-, hold⟩
    · refine Or.inr ⟨t, lost, r, rfl, hr, rfl, hphase, fun hlost => ?_⟩
      rcases hend with ⟨htrue, -⟩ | ⟨-, -, hended⟩
      · rw [hlost] at htrue
        cases htrue
      · exact ⟨r', Function.update_self .., hid, hended⟩
    · exact Or.inl ⟨shipment, hold⟩
  | @change v id copy moved target principal reason expectedVersion hcopy hmoved hversion =>
    rcases update_eq_some hrow with ⟨rfl, -⟩ | ⟨-, hold⟩
    · cases hx : s.shipments shipmentId with
      | none =>
        rw [hx] at hversion
        cases hversion
      | some x => exact Or.inl ⟨x, rfl⟩
    · exact Or.inl ⟨shipment, hold⟩
  | @settle u draw session c outcome hsession hstep hprog hpending hclosed =>
    obtain ⟨answers, handled, handling, heq⟩ := s.settled_eq c u outcome
    rw [heq] at hrow
    exact Or.inl ⟨shipment, hrow⟩
  | @stop u l l' c hrun hstep hstart hdb hclock hclosed =>
    obtain ⟨handling, heq⟩ := s.closed_eq c u
    rw [heq] at hrow
    exact Or.inl ⟨shipment, hrow⟩
  | _ => exact Or.inl ⟨shipment, hrow⟩

end Creates

namespace Owned

variable {g : Settings} {s s' : Saga} {l : SagaLabel}

/-- A create that failed for good never records its shipment. -/
theorem givenUp_next (h : s.Owned) (hnext : g.next s l = some s') {shipmentId : Nat}
    (hgiven : s.GivenUp shipmentId) : s'.GivenUp shipmentId := by
  obtain ⟨hnone, t, r, hr, rfl, hover⟩ := hgiven
  obtain ⟨r', hr', hsame, hover', -⟩ := creates_next hnext hr
  refine ⟨?_, t, r', hr', congrArg ReservationRequest.shipmentId hsame, hover' hover⟩
  refine Option.eq_none_iff_forall_ne_some.2 fun x hx => ?_
  rcases recorded_prev hnext hx with ⟨x₀, hold⟩ | ⟨u, lost, y, rfl, hy, hid, hphase, -⟩
  · rw [hnone] at hold
    cases hold
  · obtain rfl := h.unique u t y r hy hr hid
    obtain rfl := Option.some.inj (hy.symm.trans hr)
    rw [hphase] at hover
    cases hover

/-- Along the assumed steps every shipment id keeps its one create. -/
theorem next (h : s.Owned) (hok : g.Assumes s l) (hnext : g.next s l = some s') : s'.Owned := by
  have hposted : ∀ {t u : Nat} {principal : Principal} {key : Option String}
      {payload : ShipmentCreate} {uuid4 : Nat} {r x : CreateRequest},
      l = .post t principal key payload uuid4 →
      r.shipmentId = shipmentIdFor g.uuid5 principal.userId key uuid4 →
      s.creates u = some x → x.shipmentId ≠ r.shipmentId := by
    rintro t u principal key payload uuid4 r x rfl hid hx heq
    exact hok (hid ▸ heq ▸ h.used u x hx)
  constructor
  · intro t r hr
    rcases creates_prev hnext hr with ⟨r₀, hr₀, hid⟩ | ⟨_, _, _, _, -, -, hids⟩
    · rw [hid]
      exact used_next hnext (h.used t r₀ hr₀)
    · rw [hids]
      exact List.mem_cons_self
  · intro t u r x hr hx hid
    rcases creates_prev hnext hr with ⟨r₀, hr₀, hsame⟩ | ⟨_, _, _, _, hpost, hnew, -⟩
    · rcases creates_prev hnext hx with ⟨x₀, hx₀, hsame'⟩ | ⟨_, _, _, _, hpost, hnew, -⟩
      · exact h.unique t u r₀ x₀ hr₀ hx₀ (hsame.symm.trans (hid.trans hsame'))
      · exact absurd (hsame.symm.trans hid) (hposted hpost hnew hr₀)
    · rcases creates_prev hnext hx with ⟨x₀, hx₀, hsame'⟩ | ⟨_, _, _, _, hpost', -, -⟩
      · exact absurd (hsame'.symm.trans hid.symm) (hposted hpost hnew hx₀)
      · rw [hpost] at hpost'
        cases hpost'
        rfl
  · intro t r' shipmentId hr' hholds
    rcases holder_next hnext ⟨r', hr', hholds⟩ with ⟨r, hr, hold⟩ | ⟨n, r, -, hr, hid⟩
    · obtain ⟨x, hx, hsame, -⟩ := creates_next hnext hr
      obtain rfl := Option.some.inj (hx.symm.trans hr')
      exact (congrArg ReservationRequest.shipmentId hsame).trans (h.holder t r _ hr hold)
    · obtain ⟨x, hx, hsame, -⟩ := creates_next hnext hr
      obtain rfl := Option.some.inj (hx.symm.trans hr')
      exact (congrArg ReservationRequest.shipmentId hsame).trans hid
  · intro shipmentId hrel
    rcases releasing_next hnext hrel with hrel | ⟨t, r, -, hr, hphase⟩
    · exact h.givenUp_next hnext (h.releasing shipmentId hrel)
    · have hid := h.holder t r shipmentId hr (Or.inr hphase)
      refine h.givenUp_next hnext ⟨?_, t, r, hr, hid, ?_⟩
      · -- the create of a recorded shipment has ended
        refine Option.eq_none_iff_forall_ne_some.2 fun x hx => ?_
        obtain ⟨u, y, hy, hyid, hended⟩ := h.recorded shipmentId x hx
        obtain rfl := h.unique t u r y hr hy (hid.trans hyid.symm)
        obtain rfl := Option.some.inj (hr.symm.trans hy)
        rw [hended] at hphase
        cases hphase
      · cases hp : r.phase <;> rw [hp] at hphase <;> cases hphase
        rfl
  · intro shipmentId shipment hrow
    rcases recorded_prev hnext hrow with ⟨x, hx⟩ | ⟨t, lost, r, rfl, -, -, -, hended⟩
    · obtain ⟨t, r, hr, hid, hended⟩ := h.recorded shipmentId x hx
      obtain ⟨r', hr', hsame, -, hended'⟩ := creates_next hnext hr
      exact ⟨t, r', hr', (congrArg ReservationRequest.shipmentId hsame).trans hid, hended' hended⟩
    · obtain ⟨r', hr', hid, hphase⟩ := hended hok
      exact ⟨t, r', hr', hid, hphase⟩

end Owned

end Saga

end SmartLogistics.Shipment
