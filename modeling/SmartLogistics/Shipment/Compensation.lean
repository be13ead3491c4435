import SmartLogistics.Shipment.SagaSteps

/-!
# Whose hold `compensate` releases

`compensate` releases the hold of the shipment id its request used. The id is a function of the
caller and the key, and Inventory hands the hold of an id to every request that asks for it, so the
hold may have become that of a shipment another request has recorded.

`compensation_safe_of_run`: along runs in which no request gets the answer for a live shipment, and
none records a shipment while another one that is still going on holds its stock, or its stock is
being released (`Exclusive`), no compensating release takes stock from a live shipment.
`not_compensation_safe_after_expiry`: a repeat of a create whose key has expired releases the stock
of the recorded shipment.
-/

set_option autoImplicit false

namespace SmartLogistics.Shipment

open SmartLogistics.Library SmartLogistics.Platform SmartLogistics.Warehouse
  SmartLogistics.Inventory

/-- The shipment whose holds an operation releases. -/
def releasedBy : Operation → Option Nat
  | .release shipmentId _ => some shipmentId
  | _ => none

namespace CreateRequest

/-- The request is still going on and has taken over the hold of the shipment, or is releasing
it. -/
def Holds (r : CreateRequest) (shipmentId : Nat) : Prop :=
  r.phase ≠ .ended ∧ r.heldFor = some shipmentId ∨ r.phase.releases? = some shipmentId

instance (r : CreateRequest) (shipmentId : Nat) : Decidable (r.Holds shipmentId) :=
  inferInstanceAs (Decidable (_ ∨ _))

theorem Moves.holds {r r' : CreateRequest} (h : r.Moves r') {shipmentId : Nat}
    (hh : r'.Holds shipmentId) : r.Holds shipmentId := by
  rcases hh with ⟨-, hheld⟩ | hrel
  · rcases h.heldFor with heq | hnone
    · exact Or.inl ⟨h.open_, heq ▸ hheld⟩
    · rw [hnone] at hheld
      cases hheld
  · exact Or.inl ⟨h.open_, h.releases shipmentId hrel⟩

end CreateRequest

namespace Saga

/-- The shipment is recorded and not cancelled. -/
def Live (s : Saga) (shipmentId : Nat) : Prop :=
  ∃ shipment, s.shipments shipmentId = some shipment ∧ shipment.status ≠ .cancelled

/-- Request `t` holds the stock of the shipment, or is releasing it. -/
def Holder (s : Saga) (t shipmentId : Nat) : Prop :=
  ∃ r, s.creates t = some r ∧ r.Holds shipmentId

/-- A compensating release of the shipment is under way or open at Inventory. -/
def Releasing (s : Saga) (shipmentId : Nat) : Prop :=
  (∃ call ∈ s.calls, releasedBy call.op = some shipmentId) ∨
    ∃ u session t, s.inventory.sessions u = some session ∧ s.origins u = some (.call t) ∧
      releasedBy session.op = some shipmentId

/-- No compensating release that is about to commit takes stock from a live shipment. -/
def CompensationSafe (s : Saga) : Prop :=
  ∀ u session t shipmentId n, s.inventory.sessions u = some session →
    s.origins u = some (.call t) → releasedBy session.op = some shipmentId →
    session.result s.inventory.db = some (.count n) → n ≠ 0 → ¬ s.Live shipmentId

/-- If the step gives a request the answer for a shipment, the shipment is not live; if it records a
shipment, no other request that is going on holds its stock, none releases it, and the request
learns of the commit. -/
def Exclusive (s : Saga) : SagaLabel → Prop
  | .answer t _ => ∀ r, s.creates t = some r → ¬ s.Live r.shipmentId
  | .commit t lost => lost = false ∧ ∀ r, s.creates t = some r →
    (∀ u, u ≠ t → ¬ s.Holder u r.shipmentId) ∧ ¬ s.Releasing r.shipmentId
  | _ => True

/-- Nobody else holds or releases the stock of a live shipment. -/
structure Uncontested (s : Saga) : Prop where
  holder : ∀ shipmentId, s.Live shipmentId → ∀ t, ¬ s.Holder t shipmentId
  releasing : ∀ shipmentId, s.Live shipmentId → ¬ s.Releasing shipmentId

theorem uncontested_initial : initial.Uncontested where
  holder := fun _ ⟨_, h, _⟩ => nomatch h
  releasing := fun _ ⟨_, h, _⟩ => nomatch h

/-! ## What a step does to holders, releases and live shipments -/

variable {g : Settings} {s s' : Saga} {l : SagaLabel} {shipmentId : Nat}

/-- A request set to `r` holds a shipment if `r` does. -/
theorem holder_setCreate {t u : Nat} {r : CreateRequest}
    (h : (s.setCreate t r).Holder u shipmentId) :
    u = t ∧ r.Holds shipmentId ∨ u ≠ t ∧ s.Holder u shipmentId := by
  obtain ⟨x, hx, hholds⟩ := h
  rcases update_eq_some hx with ⟨hut, rfl⟩ | ⟨hut, hx⟩
  · exact Or.inl ⟨hut, hholds⟩
  · exact Or.inr ⟨hut, x, hx, hholds⟩

/-- A shipment becomes live by a commit only. -/
theorem live_next (hv : s.Versioned) (h : g.next s l = some s') (hlive : s'.Live shipmentId) :
    s.Live shipmentId ∨
      ∃ t lost r, l = .commit t lost ∧ s.creates t = some r ∧ r.shipmentId = shipmentId := by
  cases Settings.step_of_next h with
  | @commit t lost r r' shipment keys hr hphase hpayload hid hend =>
    obtain ⟨x, hx, hstatus⟩ := hlive
    rcases update_eq_some hx with ⟨hsame, -⟩ | ⟨-, hx⟩
    · exact Or.inr ⟨t, lost, r, rfl, hr, hsame.symm⟩
    · exact Or.inl ⟨x, hx, hstatus⟩
  | @change v id copy moved target principal reason expectedVersion hcopy hmoved hversion =>
    obtain ⟨x, hx, hstatus⟩ := hlive
    rcases update_eq_some hx with ⟨rfl, rfl⟩ | ⟨-, hx⟩
    · refine Or.inl ⟨copy, hv.copy_eq hcopy hversion, fun hcancelled => ?_⟩
      -- nothing follows a cancellation
      have hallowed := (changeStatus_eq_ok hmoved).1
      rw [hcancelled] at hallowed
      cases target <;> cases hallowed
    · exact Or.inl ⟨x, hx, hstatus⟩
  | @settle u draw session c outcome hsession hstep hprog hpending hclosed =>
    obtain ⟨answers, handled, handling, heq⟩ := s.settled_eq c u outcome
    rw [heq] at hlive
    exact Or.inl hlive
  | @stop u l l' c hrun hstep hstart hdb hclock hclosed =>
    obtain ⟨handling, heq⟩ := s.closed_eq c u
    rw [heq] at hlive
    exact Or.inl hlive
  | _ => exact Or.inl hlive

/-- A request takes over a hold by an answer only. -/
theorem holder_next (h : g.next s l = some s') {t : Nat} (hholder : s'.Holder t shipmentId) :
    s.Holder t shipmentId ∨
      ∃ n r, l = .answer t n ∧ s.creates t = some r ∧ r.shipmentId = shipmentId := by
  cases Settings.step_of_next h with
  | @post t' _ _ _ _ keys r hnone hid hheld hphase =>
    rcases holder_setCreate hholder with ⟨rfl, ⟨-, hheld'⟩ | hrel⟩ | ⟨-, hold⟩
    · rw [hheld] at hheld'
      cases hheld'
    · rcases hphase with hphase | hphase <;> rw [hphase] at hrel <;> cases hrel
    · exact Or.inl hold
  | @act t' action r r' keys inserting referenceNo hr hmoves hlocks hinserts =>
    rcases holder_setCreate hholder with ⟨rfl, hholds⟩ | ⟨-, hold⟩
    · exact Or.inl ⟨r, hr, hmoves.holds hholds⟩
    · exact Or.inl hold
  | @reserve t' r warehouse n hr hphase =>
    rcases holder_setCreate hholder with ⟨rfl, ⟨-, hheld⟩ | hrel⟩ | ⟨-, hold⟩
    · exact Or.inl ⟨r, hr, Or.inl ⟨by simp [hphase], hheld⟩⟩
    · cases hrel
    · exact Or.inl hold
  | @release t' r id n hr hphase =>
    rcases holder_setCreate hholder with ⟨rfl, ⟨-, hheld⟩ | hrel⟩ | ⟨-, hold⟩
    · exact Or.inl ⟨r, hr, Or.inl ⟨by simp [hphase], hheld⟩⟩
    · exact Or.inl ⟨r, hr, Or.inr (by rw [hphase]; exact hrel)⟩
    · exact Or.inl hold
  | @answer t' n k r warehouse answer hr hphase hanswer =>
    rcases holder_setCreate hholder with ⟨rfl, ⟨-, hheld⟩ | hrel⟩ | ⟨-, hold⟩
    · exact Or.inr ⟨n, r, rfl, hr, Option.some.inj hheld⟩
    · cases hrel
    · exact Or.inl hold
  | @commit t' lost r r' shipment keys hr hphase hpayload hid hend =>
    -- a commit that is answered drops the hold, one whose answer is lost keeps it
    rcases holder_setCreate hholder with ⟨rfl, hholds⟩ | ⟨-, hold⟩
    · refine Or.inl ⟨r, hr, Or.inl ⟨by simp [hphase], ?_⟩⟩
      rcases hend with ⟨-, hheld, -, hover, -, -⟩ | ⟨-, hnone, hended⟩
      · rcases hholds with ⟨-, hheld'⟩ | hrel
        · exact hheld ▸ hheld'
        · cases hp : r'.phase <;> rw [hp] at hrel hover <;> cases hrel
          cases hover
      · rcases hholds with ⟨-, hheld'⟩ | hrel
        · rw [hnone] at hheld'
          cases hheld'
        · rw [hended] at hrel
          cases hrel
    · exact Or.inl hold
  | @settle u draw session c outcome hsession hstep hprog hpending hclosed =>
    obtain ⟨answers, handled, handling, heq⟩ := s.settled_eq c u outcome
    rw [heq] at hholder
    exact Or.inl hholder
  | @stop u l l' c hrun hstep hstart hdb hclock hclosed =>
    obtain ⟨handling, heq⟩ := s.closed_eq c u
    rw [heq] at hholder
    exact Or.inl hholder
  | _ => exact Or.inl hholder

/-- A transaction that is open for a call was open for it before. -/
theorem releasing_of_session {c : Config Db Row Failure Outcome Operation}
    {l' : Label Operation Environment}
    (hc : (Inventory.inventory g.unconfirmedHold).next s.inventory l' = some c)
    (hstart : ∀ v op, l' ≠ .start v op) {u t : Nat}
    {session : Session Db Row Failure Outcome Operation} (hs : c.sessions u = some session)
    (hu : s.origins u = some (.call t)) (hrel : releasedBy session.op = some shipmentId) :
    s.Releasing shipmentId := by
  rcases System.next_session _ hc hs with ⟨session', hs', hop, -⟩ | ⟨op, hl, -⟩
  · exact Or.inr ⟨u, session', t, hs', hu, hop ▸ hrel⟩
  · exact absurd hl (hstart u op)

/-- A release gets under way from a request that compensates only. -/
theorem releasing_next (h : g.next s l = some s') (hrel : s'.Releasing shipmentId) :
    s.Releasing shipmentId ∨ ∃ t r, l = .send t ∧ s.creates t = some r ∧
      r.phase.releases? = some shipmentId := by
  cases Settings.step_of_next h with
  | @reserve t r warehouse n hr hphase =>
    rcases hrel with ⟨call, hcall, hid⟩ | hopen
    · rcases List.mem_append.1 hcall with hcall | hcall
      · exact Or.inl (Or.inl ⟨call, hcall, hid⟩)
      · rw [List.mem_singleton.1 hcall] at hid
        cases hid
    · exact Or.inl (Or.inr hopen)
  | @release t r id n hr hphase =>
    rcases hrel with ⟨call, hcall, hid⟩ | hopen
    · rcases List.mem_append.1 hcall with hcall | hcall
      · exact Or.inl (Or.inl ⟨call, hcall, hid⟩)
      · rw [List.mem_singleton.1 hcall] at hid
        cases hid
        exact Or.inr ⟨t, r, rfl, hr, by rw [hphase]; rfl⟩
    · exact Or.inl (Or.inr hopen)
  | lose =>
    rcases hrel with ⟨call, hcall, hid⟩ | hopen
    · exact Or.inl (Or.inl ⟨call, List.mem_of_mem_eraseIdx hcall, hid⟩)
    · exact Or.inl (Or.inr hopen)
  | @deliver n u call c hcall hstart =>
    obtain ⟨hnone, rfl⟩ := Settings.start_eq_some hstart
    rcases hrel with ⟨call', hcall', hid⟩ | ⟨v, session, t, hs, hv, hid⟩
    · exact Or.inl (Or.inl ⟨call', List.mem_of_mem_eraseIdx hcall', hid⟩)
    · rcases update_eq_some hs with ⟨rfl, rfl⟩ | ⟨hvu, hs⟩
      · -- the transaction it opens is for a call that was on its way
        exact Or.inl (Or.inl ⟨call, List.mem_of_getElem? hcall, hid⟩)
      · exact Or.inl (Or.inr ⟨v, session, t, hs, (Function.update_of_ne hvu ..).symm.trans hv, hid⟩)
  | @settle u draw session c outcome hsession hstep hprog hpending hclosed =>
    obtain ⟨answers, handled, handling, heq⟩ := s.settled_eq c u outcome
    rw [heq] at hrel
    rcases hrel with hcall | ⟨v, session, t, hs, hv, hid⟩
    · exact Or.inl (Or.inl hcall)
    · exact Or.inl (releasing_of_session hstep (fun _ _ h => nomatch h) hs hv hid)
  | @stop u l l' c hrun hstep hstart hdb hclock hclosed =>
    obtain ⟨handling, heq⟩ := s.closed_eq c u
    rw [heq] at hrel
    rcases hrel with hcall | ⟨v, session, t, hs, hv, hid⟩
    · exact Or.inl (Or.inl hcall)
    · exact Or.inl (releasing_of_session hstep hstart hs hv hid)
  | @run u draw c hstep hdb hclock hopen =>
    rcases hrel with hcall | ⟨v, session, t, hs, hv, hid⟩
    · exact Or.inl (Or.inl hcall)
    · exact Or.inl (releasing_of_session hstep (fun _ _ h => nomatch h) hs hv hid)
  | @operate u op c hstart =>
    obtain ⟨hnone, rfl⟩ := Settings.start_eq_some hstart
    rcases hrel with hcall | ⟨v, session, t, hs, hv, hid⟩
    · exact Or.inl (Or.inl hcall)
    · rcases update_option_eq_some hv with ⟨-, hnot⟩ | ⟨hvu, hv⟩
      · cases hnot
      · exact Or.inl (Or.inr ⟨v, session, t, (Function.update_of_ne hvu ..).symm.trans hs, hv, hid⟩)
  | @handle u id event op c hfree hevent hop hstart =>
    obtain ⟨hnone, rfl⟩ := Settings.start_eq_some hstart
    rcases hrel with hcall | ⟨v, session, t, hs, hv, hid⟩
    · exact Or.inl (Or.inl hcall)
    · rcases update_option_eq_some hv with ⟨-, hnot⟩ | ⟨hvu, hv⟩
      · cases hnot
      · exact Or.inl (Or.inr ⟨v, session, t, (Function.update_of_ne hvu ..).symm.trans hs, hv, hid⟩)
  | _ => exact Or.inl hrel

/-! ## Whole runs -/

/-- A request that learns of its commit holds nothing any more. -/
theorem not_holder_of_commit {t : Nat} (h : g.next s (.commit t false) = some s') :
    ¬ s'.Holder t shipmentId := by
  intro hholder
  cases Settings.step_of_next h with
  | stop hrun => simp at hrun
  | commit keys hr hphase hpayload hid hend =>
    rcases holder_setCreate hholder with ⟨-, hholds⟩ | ⟨hne, -⟩
    · rcases hend with ⟨hlost, -⟩ | ⟨-, hnone, hended⟩
      · cases hlost
      · rcases hholds with ⟨-, hheld⟩ | hrel
        · rw [hnone] at hheld
          cases hheld
        · rw [hended] at hrel
          cases hrel
    · exact hne rfl

/-- Every exclusive step keeps live shipments uncontested. -/
theorem Uncontested.next (h : s.Uncontested) (hv : s.Versioned) (hok : s.Exclusive l)
    (hnext : g.next s l = some s') : s'.Uncontested := by
  have hboth : ∀ id, s'.Live id → (∀ t, ¬ s'.Holder t id) ∧ ¬ s'.Releasing id := by
    intro id hlive
    rcases live_next hv hnext hlive with hlive | ⟨t, lost, r, rfl, hr, rfl⟩
    · -- live before: the step lets no request at the hold
      have hholder := h.holder id hlive
      refine ⟨fun t ht => ?_, fun hrel => ?_⟩
      · rcases holder_next hnext ht with ht | ⟨n, r, rfl, hr, rfl⟩
        · exact hholder t ht
        · exact hok r hr hlive
      · rcases releasing_next hnext hrel with hrel | ⟨t, r, -, hr, hphase⟩
        · exact h.releasing id hlive hrel
        · exact hholder t ⟨r, hr, Or.inr hphase⟩
    · -- live by this commit: nobody else was at the hold
      obtain ⟨rfl, hothers⟩ := hok
      obtain ⟨hholder, hreleasing⟩ := hothers r hr
      refine ⟨fun u hu => ?_, fun hrel => ?_⟩
      · by_cases hut : u = t
        · subst hut
          exact not_holder_of_commit hnext hu
        · rcases holder_next hnext hu with hu | ⟨_, _, hl, -⟩
          · exact hholder u hut hu
          · cases hl
      · rcases releasing_next hnext hrel with hrel | ⟨_, _, hl, -⟩
        · exact hreleasing hrel
        · cases hl
  exact ⟨fun id hlive => (hboth id hlive).1, fun id hlive => (hboth id hlive).2⟩

end Saga

/-- Along a run of exclusive steps, no compensating release takes stock from a live shipment. -/
theorem compensation_safe_of_run {g : Settings} {s : Saga}
    (h : g.machine.RunOf Saga.Exclusive .initial s) : s.CompensationSafe := by
  have hstep : ∀ (s : Saga) l s', s.Versioned ∧ s.Uncontested → s.Exclusive l →
      g.machine.next s l = some s' → s'.Versioned ∧ s'.Uncontested := by
    rintro s l s' ⟨hv, hu⟩ hok hnext
    exact ⟨hv.next hnext, hu.next hv hok hnext⟩
  obtain ⟨-, hu⟩ := h.preserves hstep ⟨Saga.versioned_initial, Saga.uncontested_initial⟩
  intro u session t shipmentId n hs horigin hrel _ _ hlive
  exact hu.releasing shipmentId hlive (Or.inr ⟨u, session, t, hs, horigin, hrel⟩)

/-! ## Runs on given labels -/

/-- The requests and transactions that the label starts have names below `n`. -/
def SagaLabel.isBelow (n : Nat) : SagaLabel → Bool
  | .post t _ _ _ _ => decide (t < n)
  | .deliver _ u => decide (u < n)
  | .operate u _ => decide (u < n)
  | .handle u _ => decide (u < n)
  | _ => true

namespace Saga

variable {g : Settings} {s s' : Saga} {l : SagaLabel}

/-- All requests, and all open transactions of Inventory, have names below `n`. -/
structure Below (n : Nat) (s : Saga) : Prop where
  creates : ∀ t r, s.creates t = some r → t < n
  sessions : ∀ u session, s.inventory.sessions u = some session → u < n

theorem below_initial (n : Nat) : initial.Below n where
  creates := fun _ _ h => nomatch h
  sessions := fun _ _ h => nomatch h

/-- A request that moves on has its name. -/
theorem Below.update {n t : Nat} {r : CreateRequest} (h : s.Below n) (ht : t < n)
    (hcreates : s'.creates = Function.update s.creates t (some r))
    (hinventory : s'.inventory = s.inventory) : s'.Below n where
  creates := by
    intro u x hx
    rw [hcreates] at hx
    rcases update_eq_some hx with ⟨rfl, -⟩ | ⟨-, hx⟩
    · exact ht
    · exact h.creates u x hx
  sessions := by
    rw [hinventory]
    exact h.sessions

/-- A step of Inventory opens the transaction it starts only. -/
theorem Below.inventory {n : Nat} (h : s.Below n) {k : Label Operation Environment}
    {c : Config Db Row Failure Outcome Operation}
    (hnext : (Inventory.inventory g.unconfirmedHold).next s.inventory k = some c)
    (hstart : ∀ u op, k = .start u op → u < n) {u : Nat}
    {session : Session Db Row Failure Outcome Operation} (hs : c.sessions u = some session) :
    u < n := by
  rcases System.next_session _ hnext hs with ⟨old, hold, -⟩ | ⟨op, hk, -⟩
  · exact h.sessions u old hold
  · exact hstart u op hk

theorem Below.next {n : Nat} (h : s.Below n) (hl : l.isBelow n = true)
    (hnext : g.next s l = some s') : s'.Below n := by
  cases Settings.step_of_next hnext with
  | post => exact h.update (of_decide_eq_true hl) rfl rfl
  | act keys inserting referenceNo hr => exact h.update (h.creates _ _ hr) rfl rfl
  | reserve hr => exact h.update (h.creates _ _ hr) rfl rfl
  | release hr => exact h.update (h.creates _ _ hr) rfl rfl
  | answer hr => exact h.update (h.creates _ _ hr) rfl rfl
  | commit keys hr => exact h.update (h.creates _ _ hr) rfl rfl
  | @deliver m u call c hcall hstart =>
    refine ⟨h.creates, fun v session hs => h.inventory hstart (fun w op heq => ?_) hs⟩
    cases heq
    exact of_decide_eq_true hl
  | @operate u op c hstart =>
    refine ⟨h.creates, fun v session hs => h.inventory hstart (fun w op heq => ?_) hs⟩
    cases heq
    exact of_decide_eq_true hl
  | @handle u id event op c hfree hevent hop hstart =>
    refine ⟨h.creates, fun v session hs => h.inventory hstart (fun w op heq => ?_) hs⟩
    cases heq
    exact of_decide_eq_true hl
  | @run u draw c hstep =>
    exact ⟨h.creates, fun v session hs => h.inventory hstep (fun _ _ heq => nomatch heq) hs⟩
  | @settle u draw session c outcome hsession hstep =>
    obtain ⟨answers, handled, handling, heq⟩ := s.settled_eq c u outcome
    rw [heq]
    exact ⟨h.creates, fun v session hs => h.inventory hstep (fun _ _ heq => nomatch heq) hs⟩
  | @stop u l l' c hrun hstep hstart =>
    obtain ⟨handling, heq⟩ := s.closed_eq c u
    rw [heq]
    exact ⟨h.creates, fun v session hs =>
      h.inventory hstep (fun w op heq => absurd heq (hstart w op)) hs⟩
  | _ => exact ⟨h.creates, h.sessions⟩

end Saga

/-- A way to see that a step is exclusive, when all names are below `n`. -/
def isExclusive (n : Nat) (s : Saga) : SagaLabel → Bool
  | .answer t _ => (s.creates t).all fun r =>
    (s.shipments r.shipmentId).all (·.status == .cancelled)
  | .commit t lost => !lost && (s.creates t).all fun r =>
    ((List.range n).all fun u =>
      u == t || (s.creates u).all fun other => !decide (other.Holds r.shipmentId)) &&
    (s.calls.all fun call => releasedBy call.op != some r.shipmentId) &&
    (List.range n).all fun u =>
      (s.inventory.sessions u).all fun session => releasedBy session.op != some r.shipmentId
  | _ => true

theorem exclusive_of_isExclusive {n : Nat} {s : Saga} {l : SagaLabel} (hbelow : s.Below n)
    (h : isExclusive n s l = true) : s.Exclusive l := by
  cases l with
  | answer t m =>
    rintro r hr ⟨shipment, hshipment, hstatus⟩
    simp only [isExclusive, hr, Option.all_some, hshipment, beq_iff_eq] at h
    exact hstatus h
  | commit t lost =>
    simp only [isExclusive, Bool.and_eq_true, Bool.not_eq_true'] at h
    refine ⟨h.1, fun r hr => ?_⟩
    have hall := h.2
    simp only [hr, Option.all_some, Bool.and_eq_true, List.all_eq_true, List.mem_range,
      Bool.or_eq_true, beq_iff_eq, bne_iff_ne] at hall
    obtain ⟨⟨hholders, hcalls⟩, hsessions⟩ := hall
    refine ⟨fun u hut ⟨other, hother, hholds⟩ => ?_, ?_⟩
    · have hnot := (hholders u (hbelow.creates u other hother)).resolve_left hut
      rw [hother, Option.all_some, decide_eq_true hholds] at hnot
      cases hnot
    · rintro (⟨call, hcall, hrel⟩ | ⟨u, session, caller, hsession, -, hrel⟩)
      · exact hcalls call hcall hrel
      · have hnot := hsessions u (hbelow.sessions u session hsession)
        rw [hsession, Option.all_some, hrel, bne_self_eq_false] at hnot
        cases hnot
  | _ => trivial

/-- A run whose steps are seen to be exclusive. -/
theorem runOf_exclusive {g : Settings} {n : Nat} {s : Saga}
    (h : g.machine.RunOf (fun s l => l.isBelow n = true ∧ isExclusive n s l = true) .initial s) :
    g.machine.RunOf Saga.Exclusive .initial s ∧ s.Below n := by
  induction h with
  | refl => exact ⟨Relation.ReflTransGen.refl, Saga.below_initial n⟩
  | tail _ hstep ih =>
    obtain ⟨hrun, hbelow⟩ := ih
    obtain ⟨l, ⟨hnamed, hl⟩, hnext⟩ := hstep
    exact ⟨hrun.tail ⟨l, exclusive_of_isExclusive hbelow hl, hnext⟩, hbelow.next hnamed hnext⟩

/-- The pod of request 0 dies with its reservation. Request 1 takes the key over after the lease and
records shipment 50 with the same hold, which is confirmed. Then a request without a key gets a hold
for shipment 51, raises, and releases it. -/
def compensatedBeside : List SagaLabel :=
  stockedSaga ++ [.post 0 sampleAdmin (some "k") (samplePayload 1) 0, .act 0 .claim] ++
    reservedUnderKey 0 14 ++
    [.act 0 .die, .tick 61, .post 1 sampleAdmin (some "k") (samplePayload 1) 0, .act 1 .claim,
      .act 1 .claim] ++
    reservedUnderKey 1 3 ++
    [.act 1 .flush, .act 1 .record, .commit 1 false, .handle 3 50] ++ statements 3 10 0 ++
    [.post 2 sampleAdmin none (samplePayload 1) 51, .act 2 .check, .send 2, .deliver 0 3] ++
    statements 3 14 32 ++
    [.answer 2 0, .act 2 .raise, .act 2 .compensate, .send 2, .deliver 0 4] ++ statements 4 13 0

/-- The release takes the stock of shipment 51, and not that of the recorded shipment 50. -/
theorem compensation_safe_beside_recorded :
    ∃ s, sampleSettings.machine.RunOf Saga.Exclusive .initial s ∧
      (s.inventory.sessions 4).map (fun session =>
        (releasedBy session.op, session.result s.inventory.db)) =
        some (some 51, some (.count 1)) ∧
      (s.shipments 50).map (·.status) = some .created ∧ s.CompensationSafe := by
  have hrun : (sampleSettings.machine.execOf (fun s l =>
      l.isBelow 5 = true ∧ isExclusive 5 s l = true) .initial compensatedBeside).map (fun s =>
      ((s.inventory.sessions 4).map (fun session =>
        (releasedBy session.op, session.result s.inventory.db)),
        (s.shipments 50).map (·.status))) =
        some (some (some 51, some (.count 1)), some .created) := by
    decide +kernel
  obtain ⟨s, hs, hfacts⟩ := Option.map_eq_some_iff.1 hrun
  rw [Prod.mk.injEq] at hfacts
  have hreach := (runOf_exclusive (Machine.runOf_of_execOf _ hs)).1
  exact ⟨s, hreach, hfacts.1, hfacts.2, compensation_safe_of_run hreach⟩

/-- Request 0 records shipment 50 and its hold is confirmed. A day later its key has expired, so
request 1 with the same key is granted it, gets the hold of shipment 50, meets the recorded row when
it inserts its own, and compensates. -/
def expiredKey : List SagaLabel :=
  stockedSaga ++ [.post 0 sampleAdmin (some "k") (samplePayload 1) 0, .act 0 .claim] ++
    reservedUnderKey 0 14 ++
    [.act 0 .flush, .act 0 .record, .commit 0 false, .handle 3 50] ++ statements 3 10 0 ++
    [.tick (24 * 60 * 60), .post 1 sampleAdmin (some "k") (samplePayload 1) 0, .act 1 .claim,
      .act 1 .claim] ++
    reservedUnderKey 1 3 ++
    [.act 1 .flush, .act 1 (.release true), .act 1 .compensate, .send 1, .deliver 0 4] ++
    statements 4 13 0

/-- The release of request 1 is about to take the stock of the recorded shipment. -/
theorem not_compensation_safe_after_expiry :
    ∃ s, sampleSettings.machine.Run .initial s ∧ ¬ s.CompensationSafe := by
  have hrun : (sampleSettings.machine.exec .initial expiredKey).map (fun s =>
      ((s.inventory.sessions 4).map fun session =>
        (releasedBy session.op, session.result s.inventory.db),
        s.origins 4, (s.shipments 50).map (·.status))) =
      some (some (some 50, some (.count 1)), some (.call 1), some .created) := by
    decide +kernel
  obtain ⟨s, hs, hfacts⟩ := Option.map_eq_some_iff.1 hrun
  simp only [Prod.mk.injEq, Option.map_eq_some_iff] at hfacts
  obtain ⟨⟨session, hsession, hrel, hresult⟩, horigin, shipment, hshipment, hstatus⟩ := hfacts
  refine ⟨s, Machine.run_of_exec _ hs, fun hsafe => ?_⟩
  refine hsafe 4 session 1 50 1 hsession horigin hrel hresult (by decide) ⟨shipment, hshipment, ?_⟩
  rw [hstatus]
  decide

end SmartLogistics.Shipment
