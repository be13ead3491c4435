import SmartLogistics.Shipment.EventHistory

/-!
# What Inventory's transactions work for

Every open transaction of Inventory works for a call of a request, or for the next event of a
shipment, or for neither (`Saga.Processed`). The events of a shipment are handled one at a time, in
their order, and a transaction that settles a shipment's rows is the one of its event or a release.
-/

set_option autoImplicit false

namespace SmartLogistics.Shipment

open SmartLogistics.Library SmartLogistics.Platform SmartLogistics.Warehouse
  SmartLogistics.Inventory

/-- The operations of the calls a create sends. -/
def IsCall : Operation → Prop
  | .reserve _ => True
  | .release _ _ => True
  | _ => False

theorem settledBy_of_isOwn {op : Operation} (h : isOwn op = true) : settledBy op = none := by
  cases op <;> first | rfl | cases h

/-- A call moves the rows of a shipment to RELEASED only. -/
theorem released_of_isCall {op : Operation} (h : IsCall op) {id : Nat} {standing : Standing}
    (hop : settledBy op = some (id, standing)) :
    standing = .released ∧ releasedBy op = some id := by
  cases op with
  | reserve request => cases hop
  | release shipmentId reason =>
    cases hop
    exact ⟨rfl, rfl⟩
  | openPosition | adjust | confirm | commit | releaseExpired => exact h.elim

/-- The operations a transaction of the origin may run, an event's apart. -/
def MayRun : Option Origin → Operation → Prop
  | none, op => isOwn op = true
  | some (.call _), op => IsCall op
  | some (.event _), _ => True

namespace Saga

/-- Transactions run what their origin allows; the one for an event of a shipment runs its next
event, and is the only one. -/
structure Processed (s : Saga) : Prop where
  handled : ∀ id, s.handled id ≤ (s.events id).length
  calls : ∀ call ∈ s.calls, IsCall call.op
  sessions : ∀ u session, s.inventory.sessions u = some session → MayRun (s.origins u) session.op
  handling : ∀ u session id, s.inventory.sessions u = some session →
    s.origins u = some (.event id) → s.handling id = some u ∧
      ∃ event, (s.events id)[s.handled id]? = some event ∧ onShipmentEvent event = some session.op

theorem processed_initial : initial.Processed where
  handled := fun _ => Nat.le_refl _
  calls := fun _ h => absurd h List.not_mem_nil
  sessions := fun _ _ h => nomatch h
  handling := fun _ _ _ h => nomatch h

variable {g : Settings} {s s' : Saga} {l : SagaLabel} {u : Nat}
  {c : Config Db Row Failure Outcome Operation}

/-- The transactions of `c` were open in `s`, for the same operations. -/
def Continues (s : Saga) (c : Config Db Row Failure Outcome Operation) : Prop :=
  ∀ u session, c.sessions u = some session → ∃ session₀, s.inventory.sessions u = some session₀ ∧
    session.op = session₀.op ∧ session.opened = session₀.opened

theorem continues_of_next {l' : Label Operation Environment}
    (hstep : (Inventory.inventory g.unconfirmedHold).next s.inventory l' = some c)
    (hstart : ∀ v op, l' ≠ .start v op) : s.Continues c := by
  intro u session hs
  rcases System.next_session _ hstep hs with hold | ⟨op, hl, -⟩
  · exact hold
  · exact absurd hl (hstart u op)

/-- A transaction that is run or aborted is open. -/
theorem open_of_next (h : g.next s l = some s') (hrun : (∃ draw, l = .run u draw) ∨ l = .abort u) :
    ∃ session, s.inventory.sessions u = some session := by
  cases hs : s.inventory.sessions u with
  | some session => exact ⟨session, rfl⟩
  | none =>
    rcases hrun with ⟨draw, rfl⟩ | rfl
    · simp [Settings.next, hs] at h
    · simp [Settings.next, System.next, hs] at h

theorem close_of_event {id : Nat} (horigin : s.origins u = some (.event id)) :
    { s with inventory := c }.close u = { s with
      inventory := c
      handling := Function.update s.handling id none } := by
  simp only [close, horigin]

theorem close_of_other (horigin : ∀ id, s.origins u ≠ some (.event id)) :
    { s with inventory := c }.close u = { s with inventory := c } := by
  unfold close
  split
  · rename_i id heq
    exact absurd heq (horigin id)
  · rfl

theorem settle_of_event {id : Nat} {outcome : Outcome} (horigin : s.origins u = some (.event id)) :
    ({ s with inventory := c }.close u).settle u outcome = { s with
      inventory := c
      handled := Function.update s.handled id (s.handled id + 1)
      handling := Function.update s.handling id none } := by
  rw [close_of_event horigin]
  simp only [settle, horigin]

theorem settle_of_other {outcome : Outcome} (horigin : ∀ id, s.origins u ≠ some (.event id)) :
    ∃ answers, ({ s with inventory := c }.close u).settle u outcome = { s with
      inventory := c
      answers := answers } := by
  rw [close_of_other horigin]
  unfold settle
  split
  · exact ⟨_, rfl⟩
  · rename_i id heq
    exact absurd heq (horigin id)
  · exact ⟨s.answers, rfl⟩

namespace Processed

/-- The operation of an event's transaction moves the rows of its shipment. -/
theorem settledBy_eq (h : s.Processed) (ht : s.Told)
    {session : Session Db Row Failure Outcome Operation} {id : Nat}
    (hs : s.inventory.sessions u = some session) (horigin : s.origins u = some (.event id)) :
    ∃ event, (s.events id)[s.handled id]? = some event ∧
      settledBy session.op = some (id, event.status.standing) := by
  obtain ⟨-, event, hevent, hop⟩ := h.handling u session id hs horigin
  obtain ⟨shipment, hrow⟩ := ht.recorded hevent
  have hhistory := ht.tells.history id shipment hrow
  refine ⟨event, hevent, ?_⟩
  cases hn : s.handled id with
  | zero =>
    rw [hn, hhistory.getElem?_zero] at hevent
    cases hevent
    rw [← Option.some.inj hop]
    rfl
  | succ n =>
    rw [hn] at hevent
    obtain ⟨before, target, reason, -, rfl, hmove⟩ := hhistory.getElem?_succ hevent
    rcases standing_of_transition hmove id reason with ⟨hnone, -⟩ | ⟨op, hsome, hsettled, -⟩
    · rw [hop] at hnone
      cases hnone
    · rw [hop] at hsome
      exact Option.some.inj hsome ▸ hsettled

/-- Inventory goes on with the transactions it has. -/
theorem goes_on (h : s.Processed) (hc : s.Continues c) :
    ({ s with inventory := c } : Saga).Processed where
  handled := h.handled
  calls := h.calls
  sessions := by
    intro u session hs
    obtain ⟨session₀, hs₀, hop, -⟩ := hc u session hs
    exact hop ▸ h.sessions u session₀ hs₀
  handling := by
    intro u session id hs horigin
    obtain ⟨session₀, hs₀, hop, -⟩ := hc u session hs
    exact hop ▸ h.handling u session₀ id hs₀ horigin

/-- The transaction for an event ends, with or without having handled it. -/
theorem ends (h : s.Processed) (hc : s.Continues c) (hclosed : c.sessions u = none)
    {session : Session Db Row Failure Outcome Operation} {id n : Nat}
    (hs : s.inventory.sessions u = some session) (horigin : s.origins u = some (.event id))
    (hn : n ≤ (s.events id).length) :
    ({ s with
      inventory := c
      handled := Function.update s.handled id n
      handling := Function.update s.handling id none } : Saga).Processed where
  handled := by
    intro id'
    dsimp only
    by_cases hsame : id' = id
    · subst hsame
      rwa [Function.update_self]
    · rw [Function.update_of_ne hsame]
      exact h.handled id'
  calls := h.calls
  sessions := (h.goes_on hc).sessions
  handling := by
    intro v session' id' hs' horigin'
    have hold := (h.goes_on hc).handling v session' id' hs' horigin'
    -- the shipment's only transaction was `u`
    have hne : id' ≠ id := by
      rintro rfl
      have hboth := hold.1.symm.trans (h.handling u session id' hs horigin).1
      obtain rfl := Option.some.inj hboth
      rw [hclosed] at hs'
      cases hs'
    dsimp only
    rw [Function.update_of_ne hne, Function.update_of_ne hne]
    exact hold

/-- Inventory starts a transaction of the origin. -/
theorem starts (h : s.Processed) {op : Operation} {origin : Option Origin}
    (hstart : (Inventory.inventory g.unconfirmedHold).next s.inventory (.start u op) = some c)
    (hop : MayRun origin op) (horigin : ∀ id, origin ≠ some (.event id)) :
    ({ s with
      inventory := c
      origins := Function.update s.origins u origin } : Saga).Processed where
  handled := h.handled
  calls := h.calls
  sessions := by
    obtain ⟨-, rfl⟩ := Settings.start_eq_some hstart
    intro v session hs
    dsimp only
    rcases update_eq_some hs with ⟨rfl, rfl⟩ | ⟨hvu, hs⟩
    · rw [Function.update_self]
      exact hop
    · rw [Function.update_of_ne hvu]
      exact h.sessions v session hs
  handling := by
    obtain ⟨-, rfl⟩ := Settings.start_eq_some hstart
    intro v session id hs hv
    dsimp only at hv
    rcases update_eq_some hs with ⟨rfl, rfl⟩ | ⟨hvu, hs⟩
    · rw [Function.update_self] at hv
      exact absurd hv (horigin id)
    · rw [Function.update_of_ne hvu] at hv
      exact h.handling v session id hs hv

/-- An event is appended to a shipment's. -/
theorem append (h : s.Processed) (id : Nat) (event : ShipmentEvent) :
    ({ s with events := Function.update s.events id (s.events id ++ [event]) } :
      Saga).Processed where
  handled := by
    intro id'
    dsimp only
    by_cases hsame : id' = id
    · subst hsame
      rw [Function.update_self, List.length_append]
      exact Nat.le_add_right_of_le (h.handled id')
    · rw [Function.update_of_ne hsame]
      exact h.handled id'
  calls := h.calls
  sessions := h.sessions
  handling := by
    intro u session id' hs horigin
    obtain ⟨hhandling, x, hx, hop⟩ := h.handling u session id' hs horigin
    refine ⟨hhandling, x, ?_, hop⟩
    dsimp only
    by_cases hsame : id' = id
    · subst hsame
      rw [Function.update_self, List.getElem?_append_left (List.getElem?_eq_some_iff.1 hx).1, hx]
    · rw [Function.update_of_ne hsame, hx]

/-- The transaction for the next event of a shipment starts. -/
theorem handles (h : s.Processed) {id : Nat} {event : ShipmentEvent} {op : Operation}
    (hfree : s.handling id = none) (hevent : (s.events id)[s.handled id]? = some event)
    (hop : onShipmentEvent event = some op)
    (hstart : (Inventory.inventory g.unconfirmedHold).next s.inventory (.start u op) = some c) :
    ({ s with
      inventory := c
      origins := Function.update s.origins u (some (.event id))
      handling := Function.update s.handling id (some u) } : Saga).Processed := by
  obtain ⟨hnone, rfl⟩ := Settings.start_eq_some hstart
  refine ⟨h.handled, h.calls, fun v session hs => ?_, fun v session id' hs hv => ?_⟩
  · dsimp only
    rcases update_eq_some hs with ⟨rfl, rfl⟩ | ⟨hvu, hs⟩
    · rw [Function.update_self]
      trivial
    · rw [Function.update_of_ne hvu]
      exact h.sessions v session hs
  · dsimp only at hv ⊢
    rcases update_eq_some hs with ⟨rfl, rfl⟩ | ⟨hvu, hs⟩
    · rw [Function.update_self, Option.some.injEq, Origin.event.injEq] at hv
      subst hv
      exact ⟨Function.update_self .., event, hevent, hop⟩
    · rw [Function.update_of_ne hvu] at hv
      obtain ⟨hhandling, hrest⟩ := h.handling v session id' hs hv
      have hne : id' ≠ id := by
        rintro rfl
        rw [hfree] at hhandling
        cases hhandling
      exact ⟨(Function.update_of_ne hne ..).trans hhandling, hrest⟩

/-- The next event of a shipment asks nothing of Inventory. -/
theorem skips (h : s.Processed) {id : Nat} {event : ShipmentEvent}
    (hfree : s.handling id = none) (hevent : (s.events id)[s.handled id]? = some event) :
    ({ s with handled := Function.update s.handled id (s.handled id + 1) } : Saga).Processed := by
  refine ⟨fun id' => ?_, h.calls, h.sessions, fun v session id' hs hv => ?_⟩
  · dsimp only
    by_cases hsame : id' = id
    · subst hsame
      rw [Function.update_self]
      exact (List.getElem?_eq_some_iff.1 hevent).1
    · rw [Function.update_of_ne hsame]
      exact h.handled id'
  · obtain ⟨hhandling, x, hx, hop⟩ := h.handling v session id' hs hv
    have hne : id' ≠ id := by
      rintro rfl
      rw [hfree] at hhandling
      cases hhandling
    refine ⟨hhandling, x, ?_, hop⟩
    dsimp only
    rw [Function.update_of_ne hne]
    exact hx

/-- Every step keeps the transactions to their origins. -/
theorem next (h : s.Processed) (hok : g.Assumes s l) (hnext : g.next s l = some s') :
    s'.Processed := by
  cases Settings.step_of_next hnext with
  | @reserve t r warehouse n hr hphase =>
    refine ⟨h.handled, fun call hcall => ?_, h.sessions, h.handling⟩
    rcases List.mem_append.1 hcall with hcall | hcall
    · exact h.calls call hcall
    · rw [List.mem_singleton.1 hcall]
      trivial
  | @release t r shipmentId n hr hphase =>
    refine ⟨h.handled, fun call hcall => ?_, h.sessions, h.handling⟩
    rcases List.mem_append.1 hcall with hcall | hcall
    · exact h.calls call hcall
    · rw [List.mem_singleton.1 hcall]
      trivial
  | lose =>
    exact ⟨h.handled, fun call hcall => h.calls call (List.mem_of_mem_eraseIdx hcall), h.sessions,
      h.handling⟩
  | @commit t lost r r' shipment keys hr hphase hpayload hid hend =>
    obtain ⟨hhandled, hcalls, hsessions, hhandling⟩ := h.append r.shipmentId (.created r.shipmentId)
    exact ⟨hhandled, hcalls, hsessions, hhandling⟩
  | @change v id copy moved target principal reason expectedVersion hcopy hmoved hversion =>
    obtain ⟨hhandled, hcalls, hsessions, hhandling⟩ :=
      h.append id (.statusChanged id target copy.status reason)
    exact ⟨hhandled, hcalls, hsessions, hhandling⟩
  | @deliver n u call c hcall hstart =>
    have hmay : MayRun (some (.call call.caller)) call.op :=
      h.calls call (List.mem_of_getElem? hcall)
    obtain ⟨hhandled, -, hsessions, hhandling⟩ := h.starts hstart hmay fun _ heq => by cases heq
    exact ⟨hhandled, fun call hcall => h.calls call (List.mem_of_mem_eraseIdx hcall), hsessions,
      hhandling⟩
  | operate hstart => exact h.starts hstart hok (fun _ heq => by cases heq)
  | @settle u draw session c outcome hsession hstep hprog hpending hclosed =>
    have hc : s.Continues c := continues_of_next hstep fun _ _ heq => by cases heq
    by_cases hevent : ∃ id, s.origins u = some (.event id)
    · obtain ⟨id, horigin⟩ := hevent
      rw [settle_of_event horigin]
      obtain ⟨-, event, hget, -⟩ := h.handling u session id hsession horigin
      exact h.ends hc hclosed hsession horigin (List.getElem?_eq_some_iff.1 hget).1
    · obtain ⟨answers, heq⟩ := settle_of_other (c := c)
        fun id horigin => hevent ⟨id, horigin⟩
      rw [heq]
      obtain ⟨hhandled, hcalls, hsessions, hhandling⟩ := h.goes_on hc
      exact ⟨hhandled, hcalls, hsessions, hhandling⟩
  | @stop u l l' c hrun hstep hstart hdb hclock hclosed =>
    have hc : s.Continues c := continues_of_next hstep hstart
    obtain ⟨session, hsession⟩ := open_of_next hnext hrun
    by_cases hevent : ∃ id, s.origins u = some (.event id)
    · obtain ⟨id, horigin⟩ := hevent
      have hends := h.ends hc hclosed hsession horigin (h.handled id)
      rw [Function.update_eq_self] at hends
      rw [close_of_event horigin]
      exact hends
    · rw [close_of_other fun id horigin => hevent ⟨id, horigin⟩]
      exact h.goes_on hc
  | run hstep hdb hclock hopen =>
    exact h.goes_on (continues_of_next hstep fun _ _ heq => by cases heq)
  | handle hfree hevent hop hstart => exact h.handles hfree hevent hop hstart
  | skip hfree hevent hop => exact h.skips hfree hevent
  | _ => exact ⟨h.handled, h.calls, h.sessions, h.handling⟩

end Processed

end Saga

end SmartLogistics.Shipment
