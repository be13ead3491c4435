import SmartLogistics.Shipment.Saga

/-!
# The steps of the two services

`Step` lists what each step of `Settings.next` does, with its guards (`step_of_next`), so that an
invariant of the two services is a case analysis on it. Two invariants of all runs follow: the rows
a request or a status change works on are as it knows them (`Saga.Versioned`), and Inventory's
transactions keep their protocol (`sound_of_saga`).
-/

set_option autoImplicit false

namespace SmartLogistics.Shipment

open SmartLogistics.Library SmartLogistics.Platform SmartLogistics.Warehouse
  SmartLogistics.Inventory

/-! ## What a request does by itself -/

/-- How a request moves by itself. -/
structure CreateRequest.Moves (r r' : CreateRequest) : Prop where
  principal : r'.principal = r.principal
  payload : r'.payload = r.payload
  shipmentId : r'.shipmentId = r.shipmentId
  heldFor : r'.heldFor = r.heldFor ∨ r'.heldFor = none
  open_ : r.phase ≠ .ended
  ended : r.phase.isOver = true → r'.phase.isOver = true
  answer : r'.phase.answer? = none
  shipment : ∀ shipment, r'.phase.shipment? = some shipment → r.phase.shipment? = some shipment ∨
    ∃ answer, r.phase.answer? = some answer ∧ shipment.id = r.shipmentId ∧
      shipment.status = .created ∧ shipment.items = answer.lines.map shipmentItem
  releases : ∀ id, r'.phase.releases? = some id → r.heldFor = some id

/-- A request in a phase in which it has no shipment and releases nothing. -/
theorem CreateRequest.moves_moved {r : CreateRequest} {phase : Phase} (hopen : r.phase ≠ .ended)
    (hover : r.phase.isOver = true → phase.isOver = true) (hanswer : phase.answer? = none)
    (hshipment : phase.shipment? = none) (hreleases : phase.releases? = none) :
    r.Moves (r.moved phase) where
  principal := rfl
  payload := rfl
  shipmentId := rfl
  heldFor := Or.inl rfl
  open_ := hopen
  ended := hover
  answer := hanswer
  shipment := fun shipment h => by
    rw [show (r.moved phase).phase = phase from rfl, hshipment] at h
    cases h
  releases := fun id h => by
    rw [show (r.moved phase).phase = phase from rfl, hreleases] at h
    cases h

namespace Settings

variable {g : Settings} {s s' : Saga} {t : Nat} {r : CreateRequest}

/-- The lock on an uncommitted row stays with the request that inserted it. -/
def KeepsLocks (t : Nat) (inserting inserting' : Nat → Option Nat) : Prop :=
  ∀ id u, u ≠ t → inserting id = some u → inserting' id = some u

theorem keepsLocks_refl (t : Nat) (inserting : Nat → Option Nat) :
    KeepsLocks t inserting inserting := fun _ _ _ h => h

theorem keepsLocks_unlock (s : Saga) (t : Nat) :
    KeepsLocks t s.inserting (s.unlock t).inserting := by
  intro id u hut hlock
  simp only [Saga.unlock, hlock, Option.some.injEq, hut, if_false]

/-- What a request that raises leaves behind. -/
theorem raised_eq_some (h : g.raised s t r = some s') (hopen : r.phase ≠ .ended)
    (hover : r.phase.isOver = false) :
    ∃ keys inserting r', s' = { s with
      keys := keys
      inserting := inserting
      creates := Function.update s.creates t (some r') } ∧ r.Moves r' ∧
      KeepsLocks t s.inserting inserting ∧ r'.phase.shipment? = none := by
  have hnot : ∀ {phase : Phase}, r.phase.isOver = true → phase.isOver = true := fun htrue => by
    rw [hover] at htrue
    cases htrue
  unfold raised at h
  split at h
  · obtain ⟨keys, -, rfl⟩ := Option.map_eq_some_iff.1 h
    exact ⟨keys, _, r.moved .failed, rfl, CreateRequest.moves_moved hopen hnot rfl rfl rfl,
      keepsLocks_unlock s t, rfl⟩
  · cases h
    exact ⟨s.keys, s.inserting, r.moved .raised, rfl,
      CreateRequest.moves_moved hopen hnot rfl rfl rfl, keepsLocks_refl t _, rfl⟩

/-- The request gets to flush a shipment only if there is none of its id, and with the lock on
it. -/
def Inserts (s : Saga) (t : Nat) (r r' : CreateRequest) (inserting : Nat → Option Nat) : Prop :=
  ∀ shipment, r'.phase.shipment? = some shipment →
    (r.phase.shipment? = some shipment ∧ inserting = s.inserting) ∨
      (inserting r.shipmentId = some t ∧ s.shipments r.shipmentId = none ∧
        (s.inserting r.shipmentId).any (· != t) = false)

theorem inserts_of_none {r' : CreateRequest} {inserting : Nat → Option Nat}
    (h : r'.phase.shipment? = none) : Inserts s t r r' inserting := by
  intro shipment hsome
  rw [h] at hsome
  cases hsome

theorem none_of_insertShipment {shipments : Nat → Option Shipment} {shipment : Shipment}
    (h : insertShipment shipments shipment = .ok ()) : shipments shipment.id = none := by
  unfold insertShipment at h
  split at h
  · cases h
  · rename_i hnone
    simpa using hnone

/-- What a request does by itself: it changes its own entry, the store and the locks on uncommitted
rows. -/
def Acts (s : Saga) (t : Nat) (r : CreateRequest) (s' : Saga) : Prop :=
  ∃ keys inserting referenceNo r', s' = { s with
    keys := keys
    inserting := inserting
    referenceNo := referenceNo
    creates := Function.update s.creates t (some r') } ∧ r.Moves r' ∧
    KeepsLocks t s.inserting inserting ∧ Inserts s t r r' inserting

/-- An exception, after which reference numbers may have been drawn. -/
theorem acts_raised {n : Nat} (hr : g.raised { s with referenceNo := n } t r = some s')
    (hopen : r.phase ≠ .ended) (hover : r.phase.isOver = false) : Acts s t r s' := by
  obtain ⟨keys, inserting, r', rfl, hm, hlocks, hnone⟩ := raised_eq_some hr hopen hover
  exact ⟨keys, inserting, n, r', rfl, hm, hlocks, inserts_of_none hnone⟩

/-- A request moves on to a phase that carries no data. -/
theorem moves_of_phase {phase phase' : Phase} (hp : r.phase = phase) (hopen : phase ≠ .ended)
    (hover : phase.isOver = false) (hanswer : phase'.answer? = none)
    (hshipment : phase'.shipment? = none) (hreleases : phase'.releases? = none) :
    r.Moves (r.moved phase') := by
  refine CreateRequest.moves_moved (hp ▸ hopen) (fun htrue => ?_) hanswer hshipment hreleases
  rw [hp, hover] at htrue
  cases htrue

/-- `run_idempotent` claims the key, is refused, or replays. -/
theorem acts_claim (h : g.act s t r .claim = some s') : Acts s t r s' := by
  simp only [act] at h
  split at h
  · rename_i hp
    obtain ⟨keys, -, rfl⟩ := Option.map_eq_some_iff.1 h
    refine ⟨keys, s.inserting, s.referenceNo, _, rfl, ?_, keepsLocks_refl t _, inserts_of_none ?_⟩
    · split <;> exact moves_of_phase hp (by simp) rfl rfl rfl rfl
    · split <;> rfl
  · cases h

/-- `create` reads the origin warehouse. -/
theorem acts_check (h : g.act s t r .check = some s') : Acts s t r s' := by
  simp only [act] at h
  split at h
  · rename_i hp
    split at h
    · cases h
      exact ⟨s.keys, s.inserting, s.referenceNo, _, rfl,
        moves_of_phase hp (by simp) rfl rfl rfl rfl,
        keepsLocks_refl t _, inserts_of_none rfl⟩
    · exact acts_raised h (by simp [hp]) (by rw [hp]; rfl)
  · cases h

/-- The shipment is flushed, with the lock on its uncommitted row. -/
theorem acts_flush (h : g.act s t r .flush = some s') : Acts s t r s' := by
  simp only [act] at h
  split at h
  · rename_i warehouse answer hp
    split at h
    · cases h
    rename_i hlock
    split at h
    · exact acts_raised h (by simp [hp]) (by rw [hp]; rfl)
    rename_i hinsert
    have hmoves : ∀ {phase : Phase}, phase.answer? = none → phase.releases? = none →
        phase.shipment? = some (newShipment r.payload warehouse r.principal r.shipmentId
          s.referenceNo s.keys.clock answer) → r.Moves (r.moved phase) := by
      intro phase hanswer hreleases hshipment
      refine ⟨rfl, rfl, rfl, Or.inl rfl, by simp [hp], fun htrue => ?_, hanswer, ?_, ?_⟩
      · rw [hp] at htrue
        cases htrue
      · intro shipment hsome
        rw [show (r.moved phase).phase = phase from rfl, hshipment] at hsome
        cases hsome
        exact Or.inr ⟨answer, by rw [hp]; rfl, rfl, rfl, rfl⟩
      · intro id hsome
        rw [show (r.moved phase).phase = phase from rfl, hreleases] at hsome
        cases hsome
    -- the row is free, so no other request loses a lock
    have hlocks :
      KeepsLocks t s.inserting (Function.update s.inserting r.shipmentId (some t)) := by
      intro id u hut hu
      rw [Function.update_of_ne, hu]
      rintro rfl
      rw [hu, Option.any_some, bne_iff_ne] at hlock
      exact hlock hut
    have hinserts : ∀ r' : CreateRequest,
        Inserts s t r r' (Function.update s.inserting r.shipmentId (some t)) := fun r' _ _ =>
      Or.inr ⟨Function.update_self .., none_of_insertShipment hinsert,
        Bool.eq_false_iff.2 hlock⟩
    split at h
    · obtain ⟨keys, -, rfl⟩ := Option.map_eq_some_iff.1 h
      exact ⟨keys, _, _, _, rfl, hmoves rfl rfl rfl, hlocks, hinserts _⟩
    · cases h
      exact ⟨s.keys, _, _, _, rfl, hmoves rfl rfl rfl, hlocks, hinserts _⟩
  · cases h

/-- The response is written under the key. -/
theorem acts_record (h : g.act s t r .record = some s') : Acts s t r s' := by
  simp only [act] at h
  split at h
  · rename_i shipment hp
    obtain ⟨keys, -, rfl⟩ := Option.map_eq_some_iff.1 h
    have hkeep : ∀ shipment', Phase.shipment? (.recorded shipment) = some shipment' →
        r.phase.shipment? = some shipment' := by
      intro shipment' hsome
      rw [hp]
      exact hsome
    refine ⟨keys, s.inserting, s.referenceNo, _, rfl, ⟨rfl, rfl, rfl, Or.inl rfl, by simp [hp],
      fun htrue => ?_, rfl, fun shipment' hsome => Or.inl (hkeep shipment' hsome),
      fun id hsome => ?_⟩, keepsLocks_refl t _, fun shipment' hsome =>
      Or.inl ⟨hkeep shipment' hsome, rfl⟩⟩
    · rw [hp] at htrue
      cases htrue
    · cases hsome
  · cases h

/-- Something raises. -/
theorem acts_raise (h : g.act s t r .raise = some s') : Acts s t r s' := by
  simp only [act] at h
  split at h
  · rename_i hp
    obtain ⟨keys, -, rfl⟩ := Option.map_eq_some_iff.1 h
    exact ⟨keys, s.inserting, s.referenceNo, _, rfl, moves_of_phase hp (by simp) rfl rfl rfl rfl,
      keepsLocks_refl t _, inserts_of_none rfl⟩
  case h_7 => cases h
  all_goals
    rename_i hp
    exact acts_raised h (by simp [hp]) (by rw [hp]; rfl)

/-- The claim is released after an exception. -/
theorem acts_release {dropped : Bool} (h : g.act s t r (.release dropped) = some s') :
    Acts s t r s' := by
  simp only [act] at h
  split at h
  · rename_i hp
    obtain ⟨keys, -, rfl⟩ := Option.map_eq_some_iff.1 h
    exact ⟨keys, s.inserting, s.referenceNo, _, rfl, moves_of_phase hp (by simp) rfl rfl rfl rfl,
      keepsLocks_refl t _, inserts_of_none rfl⟩
  · cases h

/-- `compensate` calls Inventory if there is a hold to release. -/
theorem acts_compensate (h : g.act s t r .compensate = some s') : Acts s t r s' := by
  simp only [act] at h
  split at h
  · rename_i hp
    split at h
    · rename_i shipmentId hheld
      cases h
      refine ⟨s.keys, s.inserting, s.referenceNo, _, rfl, ⟨rfl, rfl, rfl, Or.inr rfl,
        by simp [hp], fun _ => rfl, rfl, fun _ hsome => ?_, fun id hsome => ?_⟩,
        keepsLocks_refl t _, inserts_of_none rfl⟩
      · cases hsome
      · cases hsome
        exact hheld
    · cases h
      exact ⟨s.keys, _, s.referenceNo, _, rfl, moves_of_phase hp (by simp) rfl rfl rfl rfl,
        keepsLocks_unlock s t, inserts_of_none rfl⟩
  · cases h

/-- The release has been answered, or given up. -/
theorem acts_finish (h : g.act s t r .finish = some s') : Acts s t r s' := by
  simp only [act] at h
  split at h
  · rename_i hp
    cases h
    exact ⟨s.keys, _, s.referenceNo, _, rfl,
      CreateRequest.moves_moved (by simp [hp]) (fun _ => rfl) rfl rfl rfl,
      keepsLocks_unlock s t, inserts_of_none rfl⟩
  · cases h

/-- The pod of the request dies. -/
theorem acts_die (h : g.act s t r .die = some s') : Acts s t r s' := by
  simp only [act] at h
  split at h
  · cases h
  · rename_i hp
    cases h
    exact ⟨_, _, s.referenceNo, _, rfl,
      CreateRequest.moves_moved hp (fun _ => rfl) rfl rfl rfl, keepsLocks_unlock s t,
      inserts_of_none rfl⟩

theorem act_eq_some {action : Action} (h : g.act s t r action = some s') : Acts s t r s' := by
  cases action with
  | claim => exact acts_claim h
  | check => exact acts_check h
  | flush => exact acts_flush h
  | record => exact acts_record h
  | raise => exact acts_raise h
  | release => exact acts_release h
  | compensate => exact acts_compensate h
  | finish => exact acts_finish h
  | die => exact acts_die h

/-- What a commit of a request does. -/
theorem commitCreate_eq_some {lost : Bool} (h : g.commitCreate s t r lost = some s') :
    ∃ keys shipment r', r.phase = .recorded shipment ∧ s' = { s with
      keys := keys
      inserting := (s.unlock t).inserting
      shipments := Function.update s.shipments r.shipmentId (some shipment)
      events := Function.update s.events r.shipmentId
        (s.events r.shipmentId ++ [.created r.shipmentId])
      creates := Function.update s.creates t (some r') } ∧
      r'.principal = r.principal ∧ r'.payload = r.payload ∧ r'.shipmentId = r.shipmentId ∧
      (lost = true ∧ r'.heldFor = r.heldFor ∧ r'.phase ≠ .ended ∧ r'.phase.isOver = false ∧
          r'.phase.answer? = none ∧ r'.phase.shipment? = none ∨
        lost = false ∧ r'.heldFor = none ∧ r'.phase = .ended) := by
  unfold commitCreate at h
  split at h
  · rename_i shipment hp
    have hfinish : ∀ (phase : Phase) r', phase = .failed ∨ phase = .raised →
        (r' = if lost then r.moved phase else
          { r with
            heldFor := none
            phase := .ended }) →
        r'.principal = r.principal ∧ r'.payload = r.payload ∧ r'.shipmentId = r.shipmentId ∧
        (lost = true ∧ r'.heldFor = r.heldFor ∧ r'.phase ≠ .ended ∧ r'.phase.isOver = false ∧
            r'.phase.answer? = none ∧ r'.phase.shipment? = none ∨
          lost = false ∧ r'.heldFor = none ∧ r'.phase = .ended) := by
      rintro phase r' hphase rfl
      cases lost with
      | true =>
        refine ⟨rfl, rfl, rfl, Or.inl ⟨rfl, rfl, ?_⟩⟩
        rcases hphase with rfl | rfl <;> exact ⟨by simp [CreateRequest.moved], rfl, rfl, rfl⟩
      | false => exact ⟨rfl, rfl, rfl, Or.inr ⟨rfl, rfl, rfl⟩⟩
    dsimp only at h
    split at h
    · obtain ⟨keys, -, rfl⟩ := Option.map_eq_some_iff.1 h
      exact ⟨keys, shipment, _, hp, rfl, hfinish _ _ (Or.inl rfl) rfl⟩
    · cases h
      exact ⟨s.keys, shipment, _, hp, rfl, hfinish _ _ (Or.inr rfl) rfl⟩
  · cases h

/-- Starting a transaction of Inventory. -/
theorem start_eq_some {c c' : Config Db Row Failure Outcome Operation} {u : Nat} {op : Operation}
    (h : (inventory g.unconfirmedHold).next c (.start u op) = some c') :
    c.sessions u = none ∧ c' = c.put u ⟨op, c.db, program g.unconfirmedHold op, .ok⟩ := by
  simp only [System.next] at h
  split at h
  · rename_i hnone
    cases h
    exact ⟨hnone, rfl⟩
  · cases h

end Settings

/-! ## Steps -/

/-- What each step does: the steps of `Settings.next` with their guards, up to the store. -/
inductive Step (g : Settings) (s : Saga) : SagaLabel → Saga → Prop
  | post {t : Nat} {principal : Principal} {idempotencyKey : Option String}
      {payload : ShipmentCreate} {uuid4 : Nat} (keys : IdempotentState Shipment Shipment)
      (r : CreateRequest) (hnone : s.creates t = none)
      (hid : r.shipmentId = shipmentIdFor g.uuid5 principal.userId idempotencyKey uuid4)
      (hheld : r.heldFor = none) (hphase : r.phase = .claiming ∨ r.phase = .creating) :
      Step g s (.post t principal idempotencyKey payload uuid4)
        ({ s with
          keys := keys
          shipmentIds := r.shipmentId :: s.shipmentIds }.setCreate t r)
  | act {t : Nat} {action : Action} {r r' : CreateRequest}
      (keys : IdempotentState Shipment Shipment) (inserting : Nat → Option Nat) (referenceNo : Nat)
      (hr : s.creates t = some r) (hmoves : r.Moves r')
      (hlocks : Settings.KeepsLocks t s.inserting inserting)
      (hinserts : Settings.Inserts s t r r' inserting) :
      Step g s (.act t action)
        ({ s with
          keys := keys
          inserting := inserting
          referenceNo := referenceNo }.setCreate t r')
  | reserve {t : Nat} {r : CreateRequest} {warehouse : WarehouseRef} {n : Nat}
      (hr : s.creates t = some r) (hphase : r.phase = .reserving warehouse n) :
      Step g s (.send t) ({ s with calls := s.calls ++
        [InventoryCall.mk t (.reserve r.reservation)] }.setCreate t
          (r.moved (.reserving warehouse (n + 1))))
  | release {t : Nat} {r : CreateRequest} {shipmentId n : Nat} (hr : s.creates t = some r)
      (hphase : r.phase = .compensating shipmentId n) :
      Step g s (.send t) ({ s with calls := s.calls ++
        [InventoryCall.mk t (.release shipmentId "Shipment could not be recorded")] }.setCreate t
          (r.moved (.compensating shipmentId (n + 1))))
  | answer {t n k : Nat} {r : CreateRequest} {warehouse : WarehouseRef} {answer : ReservationResult}
      (hr : s.creates t = some r) (hphase : r.phase = .reserving warehouse k)
      (hanswer : s.answers[n]? = some (t, answer)) :
      Step g s (.answer t n) ({ s with answers := s.answers.eraseIdx n }.setCreate t { r with
        heldFor := some r.shipmentId
        phase := .reserved warehouse answer })
  | commit {t : Nat} {lost : Bool} {r r' : CreateRequest} {shipment : Shipment}
      (keys : IdempotentState Shipment Shipment) (hr : s.creates t = some r)
      (hphase : r.phase = .recorded shipment) (hpayload : r'.payload = r.payload)
      (hid : r'.shipmentId = r.shipmentId)
      (hend : lost = true ∧ r'.heldFor = r.heldFor ∧ r'.phase ≠ .ended ∧
          r'.phase.isOver = false ∧ r'.phase.answer? = none ∧ r'.phase.shipment? = none ∨
        lost = false ∧ r'.heldFor = none ∧ r'.phase = .ended) :
      Step g s (.commit t lost)
        ({ s with
          keys := keys
          inserting := (s.unlock t).inserting
          shipments := Function.update s.shipments r.shipmentId (some shipment)
          events := Function.update s.events r.shipmentId
            (s.events r.shipmentId ++ [ShipmentEvent.created r.shipmentId]) }.setCreate t r')
  | lose {n : Nat} : Step g s (.lose n) { s with calls := s.calls.eraseIdx n }
  | deliver {n u : Nat} {call : InventoryCall} {c : Config Db Row Failure Outcome Operation}
      (hcall : s.calls[n]? = some call)
      (hstart : (inventory g.unconfirmedHold).next s.inventory (.start u call.op) = some c) :
      Step g s (.deliver n u)
        { s with
          inventory := c
          calls := s.calls.eraseIdx n
          origins := Function.update s.origins u (some (.call call.caller)) }
  | settle {u draw : Nat} {session : Session Db Row Failure Outcome Operation}
      {c : Config Db Row Failure Outcome Operation} {outcome : Outcome}
      (hsession : s.inventory.sessions u = some session)
      (hstep : (inventory g.unconfirmedHold).next s.inventory (.step u draw) = some c)
      (hprog : session.prog = .pure outcome)
      (hpending : session.pending s.inventory.db = .ok c.db)
      (hclosed : c.sessions u = none) :
      Step g s (.run u draw) (({ s with inventory := c }.close u).settle u outcome)
  | stop {u : Nat} {l : SagaLabel} {l' : Label Operation Environment}
      {c : Config Db Row Failure Outcome Operation}
      (hrun : (∃ draw, l = .run u draw) ∨ l = .abort u)
      (hstep : (inventory g.unconfirmedHold).next s.inventory l' = some c)
      (hstart : ∀ v op, l' ≠ .start v op) (hdb : c.db = s.inventory.db)
      (hclock : c.clock = s.inventory.clock) (hclosed : c.sessions u = none) :
      Step g s l ({ s with inventory := c }.close u)
  | run {u draw : Nat} {c : Config Db Row Failure Outcome Operation}
      (hstep : (inventory g.unconfirmedHold).next s.inventory (.step u draw) = some c)
      (hdb : c.db = s.inventory.db) (hclock : c.clock = s.inventory.clock)
      (hopen : (c.sessions u).isSome) :
      Step g s (.run u draw) { s with inventory := c }
  | operate {u : Nat} {op : Operation} {c : Config Db Row Failure Outcome Operation}
      (hstart : (inventory g.unconfirmedHold).next s.inventory (.start u op) = some c) :
      Step g s (.operate u op)
        { s with
          inventory := c
          origins := Function.update s.origins u none }
  | environment {e : Environment} : Step g s (.environment e)
      { s with inventory := { s.inventory with db := applyEnvironment e s.inventory.db } }
  | replica {refs : List WarehouseRef} : Step g s (.replica refs) { s with refs := refs }
  | read {v shipmentId : Nat} : Step g s (.read v shipmentId)
      { s with
        copies := Function.update s.copies v
          ((s.shipments shipmentId).map fun shipment => (shipmentId, shipment)) }
  | change {v id : Nat} {copy moved : Shipment} {target : ShipmentStatus} {principal : Principal}
      {reason : Option String} {expectedVersion : Option Nat}
      (hcopy : s.copies v = some (id, copy))
      (hmoved : changeStatus copy target principal reason expectedVersion s.keys.clock = .ok moved)
      (hversion : (s.shipments id).any (·.version == copy.version) = true) :
      Step g s (.change v target principal reason expectedVersion)
        { s with
          shipments := Function.update s.shipments id (some moved)
          events := Function.update s.events id
            (s.events id ++ [.statusChanged id target copy.status reason])
          copies := Function.update s.copies v none }
  | handle {u shipmentId : Nat} {event : ShipmentEvent} {op : Operation}
      {c : Config Db Row Failure Outcome Operation} (hfree : s.handling shipmentId = none)
      (hevent : (s.events shipmentId)[s.handled shipmentId]? = some event)
      (hop : onShipmentEvent event = some op)
      (hstart : (inventory g.unconfirmedHold).next s.inventory (.start u op) = some c) :
      Step g s (.handle u shipmentId)
        { s with
          inventory := c
          origins := Function.update s.origins u (some (.event shipmentId))
          handling := Function.update s.handling shipmentId (some u) }
  | skip {u shipmentId : Nat} {event : ShipmentEvent} (hfree : s.handling shipmentId = none)
      (hevent : (s.events shipmentId)[s.handled shipmentId]? = some event)
      (hop : onShipmentEvent event = none) :
      Step g s (.handle u shipmentId)
        { s with handled := Function.update s.handled shipmentId (s.handled shipmentId + 1) }
  | purge (keys : IdempotentState Shipment Shipment) : Step g s .purge { s with keys := keys }
  | tick {n : Nat} (keys : IdempotentState Shipment Shipment) : Step g s (.tick n)
      { s with
        keys := keys
        inventory := { s.inventory with clock := s.inventory.clock + n } }

namespace Settings

variable {g : Settings} {s s' : Saga}

/-- The next statement of a transaction of Inventory: it commits and settles what it was for, or it
ends or goes on without a commit. -/
theorem step_of_run {u draw : Nat} (h : g.next s (.run u draw) = some s') :
    Step g s (.run u draw) s' := by
  simp only [next] at h
  split at h
  · cases h
  rename_i session hsession
  obtain ⟨c, hc, rfl⟩ := Option.map_eq_some_iff.1 h
  have hadvance := hc
  simp only [System.next, hsession] at hadvance
  obtain ⟨-, hclock, hstep⟩ := Config.advance_result hadvance
  rcases hstep with ⟨outcome, hresult, hprog, hpending, hnone⟩ |
    ⟨hresult, hdb, hnone | ⟨session', -, -, hsome⟩⟩
  · simp only [hresult, hnone, Option.isNone_none, if_true]
    exact .settle hsession hc hprog hpending hnone
  · simp only [hresult, hnone, Option.isNone_none, if_true]
    exact .stop (Or.inl ⟨draw, rfl⟩) hc (fun _ _ => by simp) hdb hclock hnone
  · simp only [hresult, hsome, Option.isNone_some, Bool.false_eq_true, if_false]
    exact .run hc hdb hclock (by rw [hsome]; rfl)

theorem step_of_next {l : SagaLabel} (h : g.next s l = some s') : Step g s l s' := by
  cases l with
  | post t principal idempotencyKey payload uuid4 =>
    simp only [next] at h
    split at h
    · cases h
    rename_i hnone
    split at h
    · obtain ⟨keys, -, rfl⟩ := Option.map_eq_some_iff.1 h
      exact .post keys _ hnone rfl rfl (Or.inl rfl)
    · cases h
      exact .post s.keys _ hnone rfl rfl (Or.inr rfl)
  | act t action =>
    obtain ⟨r, hr, h⟩ := Option.bind_eq_some_iff.1 h
    obtain ⟨keys, inserting, referenceNo, r', rfl, hmoves, hlocks, hinserts⟩ := act_eq_some h
    exact .act keys inserting referenceNo hr hmoves hlocks hinserts
  | send t =>
    simp only [next] at h
    split at h
    · cases h
    rename_i r hr
    split at h
    case h_3 => cases h
    all_goals
      rename_i hphase
      split at h
      case isFalse => cases h
    · cases h
      exact .reserve hr hphase
    · cases h
      exact .release hr hphase
  | answer t n =>
    simp only [next] at h
    split at h
    · rename_i r caller answer hr hanswer
      split at h
      · rename_i hphase
        split at h
        · rename_i hcaller
          cases h
          exact .answer hr hphase (hcaller ▸ hanswer)
        · cases h
      · cases h
    · cases h
  | commit t lost =>
    obtain ⟨r, hr, h⟩ := Option.bind_eq_some_iff.1 h
    obtain ⟨keys, shipment, r', hphase, rfl, -, hpayload, hid, hend⟩ := commitCreate_eq_some h
    exact .commit keys hr hphase hpayload hid hend
  | lose n =>
    simp only [next] at h
    split at h
    · cases h
      exact .lose
    · cases h
  | deliver n u =>
    simp only [next] at h
    split at h
    · cases h
    · rename_i hcall
      obtain ⟨c, hc, rfl⟩ := Option.map_eq_some_iff.1 h
      exact .deliver hcall hc
  | run u draw => exact step_of_run h
  | abort u =>
    simp only [next] at h
    obtain ⟨c, hc, rfl⟩ := Option.map_eq_some_iff.1 h
    have hfinish := hc
    simp only [System.next, Option.map_eq_some_iff] at hfinish
    obtain ⟨_, -, rfl⟩ := hfinish
    exact .stop (Or.inr rfl) hc (fun _ _ => by simp) rfl rfl (Function.update_self ..)
  | operate u op =>
    simp only [next] at h
    obtain ⟨c, hc, rfl⟩ := Option.map_eq_some_iff.1 h
    exact .operate hc
  | environment e =>
    cases h
    exact .environment
  | replica refs =>
    cases h
    exact .replica
  | read v shipmentId =>
    cases h
    exact .read
  | change v target principal reason expectedVersion =>
    simp only [next] at h
    split at h
    · cases h
    rename_i id copy hcopy
    split at h
    · cases h
    rename_i moved hmoved
    split at h
    · rename_i hversion
      cases h
      exact .change hcopy hmoved hversion
    · cases h
  | handle u shipmentId =>
    simp only [next] at h
    split at h
    · rename_i event hfree hevent
      split at h
      · rename_i hop
        cases h
        exact .skip hfree hevent hop
      · rename_i op hop
        obtain ⟨c, hc, rfl⟩ := Option.map_eq_some_iff.1 h
        exact .handle hfree hevent hop hc
    · cases h
  | purge =>
    simp only [next] at h
    obtain ⟨keys, -, rfl⟩ := Option.map_eq_some_iff.1 h
    exact .purge keys
  | tick n =>
    simp only [next] at h
    obtain ⟨keys, -, h⟩ := Option.bind_eq_some_iff.1 h
    cases h
    exact .tick keys

end Settings

/-! ## Rows and versions -/

/-- An uncommitted shipment is locked by its request and has no committed row; a status change has
read an older version than the row's, or the row as it is. -/
structure Saga.Versioned (s : Saga) : Prop where
  inserted : ∀ t r shipment, s.creates t = some r → r.phase.shipment? = some shipment →
    s.inserting r.shipmentId = some t ∧ s.shipments r.shipmentId = none
  copies : ∀ v id copy, s.copies v = some (id, copy) → ∃ row, s.shipments id = some row ∧
    copy.version ≤ row.version ∧ (copy.version = row.version → copy = row)

namespace Saga

theorem versioned_initial : initial.Versioned where
  inserted := fun _ _ _ h => nomatch h
  copies := fun _ _ _ h => nomatch h

namespace Versioned

variable {g : Settings} {s s' : Saga} {l : SagaLabel}

/-- A status change writes the row it has read. -/
theorem copy_eq (h : s.Versioned) {v id : Nat} {copy : Shipment}
    (hcopy : s.copies v = some (id, copy))
    (hversion : (s.shipments id).any (·.version == copy.version) = true) :
    s.shipments id = some copy := by
  obtain ⟨row, hrow, -, hsame⟩ := h.copies v id copy hcopy
  rw [hrow, Option.any_some, beq_iff_eq] at hversion
  rw [hrow, hsame hversion.symm]

/-- The invariant is about four parts of the state. -/
theorem congr (h : s.Versioned) (hcreates : s'.creates = s.creates)
    (hinserting : s'.inserting = s.inserting) (hshipments : s'.shipments = s.shipments)
    (hcopies : s'.copies = s.copies) : s'.Versioned := by
  obtain ⟨hinserted, hversions⟩ := h
  constructor
  · rwa [hcreates, hinserting, hshipments]
  · rwa [hcopies, hshipments]

/-- A request moves to a phase without a flushed shipment. -/
theorem setCreate (h : s.Versioned) (t : Nat) {r : CreateRequest}
    (hr : r.phase.shipment? = none) : (s.setCreate t r).Versioned where
  inserted := by
    intro u r' shipment hu hsome
    rcases update_eq_some hu with ⟨rfl, rfl⟩ | ⟨-, hu⟩
    · rw [hr] at hsome
      cases hsome
    · exact h.inserted u r' shipment hu hsome
  copies := h.copies

/-- Every step keeps the rows versioned. -/
theorem next (h : s.Versioned) (hnext : g.next s l = some s') : s'.Versioned := by
  cases Settings.step_of_next hnext with
  | post keys r hnone hid hheld hphase =>
    refine (h.setCreate _ ?_).congr rfl rfl rfl rfl
    rcases hphase with hphase | hphase <;> rw [hphase] <;> rfl
  | @act t action r r' keys inserting referenceNo hr hmoves hlocks hinserts =>
    refine ⟨fun u x shipment hu hsome => ?_, h.copies⟩
    rcases update_eq_some hu with ⟨rfl, rfl⟩ | ⟨hut, hu⟩
    · rw [hmoves.shipmentId]
      rcases hinserts shipment hsome with ⟨hold, heq⟩ | ⟨hlock, hnone, -⟩
      · rw [show (_ : Nat → Option Nat) = s.inserting from heq]
        exact h.inserted u r shipment hr hold
      · exact ⟨hlock, hnone⟩
    · obtain ⟨hlock, hnone⟩ := h.inserted u x shipment hu hsome
      exact ⟨hlocks _ u hut hlock, hnone⟩
  | reserve hr hphase => exact (h.setCreate _ rfl).congr rfl rfl rfl rfl
  | release hr hphase => exact (h.setCreate _ rfl).congr rfl rfl rfl rfl
  | answer hr hphase hanswer => exact (h.setCreate _ rfl).congr rfl rfl rfl rfl
  | @commit t lost r r' shipment keys hr hphase hpayload hid hend =>
    obtain ⟨hlock, hnone⟩ := h.inserted t r shipment hr (by rw [hphase]; rfl)
    constructor
    · intro u x flushed hu hsome
      rcases update_eq_some hu with ⟨rfl, rfl⟩ | ⟨hut, hu⟩
      · rcases hend with ⟨-, -, -, -, -, hempty⟩ | ⟨-, -, hended⟩
        · rw [hempty] at hsome
          cases hsome
        · rw [hended] at hsome
          cases hsome
      · obtain ⟨hlock', hnone'⟩ := h.inserted u x flushed hu hsome
        -- the two requests have locked different rows
        have hne : x.shipmentId ≠ r.shipmentId := by
          intro heq
          rw [heq, hlock, Option.some.injEq] at hlock'
          exact hut hlock'.symm
        exact ⟨Settings.keepsLocks_unlock s t _ u hut hlock',
          (Function.update_of_ne hne ..).trans hnone'⟩
    · intro v id copy hv
      obtain ⟨row, hrow, hversion⟩ := h.copies v id copy hv
      have hne : id ≠ r.shipmentId := by
        rintro rfl
        rw [hnone] at hrow
        cases hrow
      exact ⟨row, (Function.update_of_ne hne ..).trans hrow, hversion⟩
  | @settle u draw session c outcome hsession hstep hprog hpending hclosed =>
    obtain ⟨answers, handled, handling, heq⟩ := s.settled_eq c u outcome
    rw [heq]
    exact h.congr rfl rfl rfl rfl
  | @stop u l l' c hrun hstep hstart hdb hclock hclosed =>
    obtain ⟨handling, heq⟩ := s.closed_eq c u
    rw [heq]
    exact h.congr rfl rfl rfl rfl
  | @read v shipmentId =>
    refine ⟨h.inserted, fun w id copy hw => ?_⟩
    rcases update_option_eq_some hw with ⟨-, hread⟩ | ⟨-, hold⟩
    · obtain ⟨row, hrow, heq⟩ := Option.map_eq_some_iff.1 hread
      cases heq
      exact ⟨copy, hrow, Nat.le_refl _, fun _ => rfl⟩
    · exact h.copies w id copy hold
  | @change v id copy moved target principal reason expectedVersion hcopy hmoved hversion =>
    have hrow := h.copy_eq hcopy hversion
    have hnext := (changeStatus_eq_ok hmoved).2.2.1
    constructor
    · intro t r shipment hr hsome
      obtain ⟨hlock, hnone⟩ := h.inserted t r shipment hr hsome
      have hne : r.shipmentId ≠ id := by
        rintro rfl
        rw [hrow] at hnone
        cases hnone
      exact ⟨hlock, (Function.update_of_ne hne ..).trans hnone⟩
    · intro w id' copy' hw
      rcases update_option_eq_some hw with ⟨-, hnone⟩ | ⟨-, hold⟩
      · cases hnone
      obtain ⟨row', hrow', hle, heq⟩ := h.copies w id' copy' hold
      by_cases hne : id' = id
      · subst hne
        rw [hrow, Option.some.injEq] at hrow'
        subst hrow'
        refine ⟨moved, Function.update_self .., by omega, fun hsame => ?_⟩
        omega
      · exact ⟨row', (Function.update_of_ne hne ..).trans hrow', hle, heq⟩
  | _ => exact h.congr rfl rfl rfl rfl

end Versioned

end Saga

/-! ## Inventory -/

/-- A step leaves Inventory alone, or is a step of Inventory. -/
theorem Settings.next_inventory {g : Settings} {s s' : Saga} {l : SagaLabel}
    (h : g.next s l = some s') : s'.inventory = s.inventory ∨
      ∃ l', (inventory g.unconfirmedHold).next s.inventory l' = some s'.inventory := by
  cases Settings.step_of_next h with
  | deliver hcall hstart => exact Or.inr ⟨_, hstart⟩
  | settle hsession hstep hprog hpending hclosed =>
    rw [Saga.settle_inventory, Saga.close_inventory]
    exact Or.inr ⟨_, hstep⟩
  | stop hrun hstep hstart hdb hclock hclosed =>
    rw [Saga.close_inventory]
    exact Or.inr ⟨_, hstep⟩
  | run hstep hdb hclock hopen => exact Or.inr ⟨_, hstep⟩
  | operate hstart => exact Or.inr ⟨_, hstart⟩
  | @environment e => exact Or.inr ⟨.env e, rfl⟩
  | handle hfree hevent hop hstart => exact Or.inr ⟨_, hstart⟩
  | @tick n keys => exact Or.inr ⟨.tick n, rfl⟩
  | _ => exact Or.inl rfl

theorem sound_of_next {g : Settings} {s s' : Saga} {l : SagaLabel}
    (h : s.inventory.Sound (protocol g.unconfirmedHold)) (hnext : g.next s l = some s') :
    s'.inventory.Sound (protocol g.unconfirmedHold) := by
  rcases Settings.next_inventory hnext with heq | ⟨l', hl'⟩
  · rwa [heq]
  · exact h.next (protocol_governs g.unconfirmedHold) hl'

/-- Inventory is sound in every state of the two services. -/
theorem sound_of_saga {g : Settings} {s : Saga} (h : g.machine.Run .initial s) :
    s.inventory.Sound (protocol g.unconfirmedHold) := by
  have hstep : ∀ (s : Saga) l s', s.inventory.Sound (protocol g.unconfirmedHold) → True →
      g.machine.next s l = some s' → s'.inventory.Sound (protocol g.unconfirmedHold) :=
    fun _ _ _ hs _ hnext => sound_of_next hs hnext
  exact h.preserves hstep (Config.sound_idle consistent_empty)

end SmartLogistics.Shipment
