import SmartLogistics.Platform.ExactlyOnce
import SmartLogistics.Platform.Reliability

/-!
# From the outbox to a consumer's tables

The two halves of event delivery, run together (`pipeline`): the transactions and relays of a
producing service put messages on the broker, and the pods of a consumer group take them off it. A
message goes to the partition of its key, in the order of the sends; a send that failed may have
reached the broker.

`end_to_end`: in every reachable state the consumer's tables are what the writes of some events make
of the initial ones, each once; each of these events was added by a transaction that committed; and
an event that a committed transaction added is still to be sent, or it is on the broker, and behind
the committed offset it was applied unless it has no handler or was given up.
-/

set_option autoImplicit false

namespace SmartLogistics.Platform

open SmartLogistics.Library

variable {Db Row ε Payload Raw : Type}

/-- A producing service, the broker and a consumer group. What is read off the broker is what was
put on it. -/
structure Route (Db Row ε Payload Raw : Type) where
  batchSize : Nat
  processor : EventProcessor Db Row ε Payload
  maxAttempts : Nat
  /-- The broker's partition for a key of a topic. -/
  partitionFor : String → String → Nat
  toBytes : EventEnvelope Payload → Raw
  fromBytes : Raw → Option (EventEnvelope Payload)
  roundTrip : ∀ envelope, fromBytes (toBytes envelope) = some envelope

/-- The envelope of an event. -/
def NewEvent.envelope (event : NewEvent Payload) : EventEnvelope Payload := (event.row 0).envelope

/-- What is sent for an event. -/
def NewEvent.message (event : NewEvent Payload) : BrokerMessage Payload :=
  ⟨event.topic, event.key, event.envelope⟩

namespace Route

variable (r : Route Db Row ε Payload Raw)

/-- The consumer group, with the messages there are so far. -/
def group (broker : TopicPartition → List Raw) : ConsumerGroup Db Row ε Payload Raw where
  processor := r.processor
  maxAttempts := r.maxAttempts
  fromBytes := r.fromBytes
  messages := broker

/-- The partition a message goes to. -/
def target (message : BrokerMessage Payload) : TopicPartition :=
  ⟨message.topic, r.partitionFor message.topic message.key⟩

/-- The broker, once it has the message. -/
def append (broker : TopicPartition → List Raw) (message : BrokerMessage Payload) :
    TopicPartition → List Raw :=
  Function.update broker (r.target message)
    (broker (r.target message) ++ [r.toBytes message.envelope])

end Route

/-- The producing service, what the broker has, and the consumer group. -/
structure Pipeline (Db Row ε Payload Raw : Type) where
  delivery : Delivery Payload
  broker : TopicPartition → List Raw
  consumer : ConsumerState Db Row ε Payload

/-- A scheduler choice. -/
inductive PipelineLabel (Payload : Type)
  | produce (l : DeliveryLabel Payload)
  | consume (l : ConsumerLabel)

namespace Pipeline

/-- Nothing written, nothing sent, nothing handled. -/
def initial (tables : Db) : Pipeline Db Row ε Payload Raw where
  delivery := .empty
  broker := fun _ => []
  consumer := ConsumerState.initial tables

end Pipeline

/-- The message that a step of the producing service puts on the broker: that of the row it sends,
unless the send fails without reaching the broker. -/
def Delivery.reaches (s : Delivery Payload) : DeliveryLabel Payload → Option (BrokerMessage Payload)
  | .relay (.send t answer) =>
    match s.outbox.relays t, answer with
    | some (.sending (row :: _) _), .ok => some row.message
    | some (.sending (row :: _) _), .unconfirmed _ => some row.message
    | _, _ => none
  | _ => none

section Runs

variable [DecidableEq Row]

/-- One scheduler choice. -/
def pipelineNext (r : Route Db Row ε Payload Raw) (s : Pipeline Db Row ε Payload Raw) :
    PipelineLabel Payload → Option (Pipeline Db Row ε Payload Raw)
  | .produce l =>
    (deliveryNext r.batchSize s.delivery l).map fun delivery =>
      { s with
        delivery := delivery
        broker := (s.delivery.reaches l).elim s.broker (r.append s.broker) }
  | .consume l =>
    (consumerNext (r.group s.broker) s.consumer l).map fun consumer =>
      { s with consumer := consumer }

/-- All interleavings of the producing service with the pods of the consumer group. -/
def pipeline (r : Route Db Row ε Payload Raw) :
    Machine (Pipeline Db Row ε Payload Raw) (PipelineLabel Payload) :=
  ⟨pipelineNext r⟩

end Runs

/-! ## What is to hold -/

/-- Every event of a committed transaction is applied to the consumer's tables once, and no other
is. -/
structure EndToEnd (r : Route Db Row ε Payload Raw) (tables : Db)
    (s : Pipeline Db Row ε Payload Raw) (events : List (EventEnvelope Payload)) : Prop where
  effects : ∃ past, r.processor.Effects tables past s.consumer.config.db events
  sourced : ∀ envelope ∈ events, ∃ event, envelope = event.envelope ∧
    s.delivery.added envelope.eventId = some (event, .committed)
  /-- It is pending, or on the broker; behind the committed offset it is settled. -/
  delivered : ∀ id event, s.delivery.added id = some (event, .committed) →
    (∃ row ∈ s.delivery.outbox.rows, row.Carries event ∧ row.isPending = true) ∨
    ∃ offset, (s.broker (r.target event.message))[offset]? = some (r.toBytes event.envelope) ∧
      (offset < s.consumer.committed (r.target event.message) →
        r.processor.handlers event.eventType = none ∨ event.envelope ∈ events ∨
        LogRecord.gaveUp id ∈ s.consumer.log)
  /-- Once nothing is left to send or to read, all of them are applied. -/
  complete : (∀ row ∈ s.delivery.outbox.rows, row.isPending = false) →
    (∀ tp, s.consumer.committed tp = (s.broker tp).length) →
    ∀ id event, s.delivery.added id = some (event, .committed) →
      LogRecord.gaveUp id ∉ s.consumer.log → r.processor.handlers event.eventType ≠ none →
      event.envelope ∈ events

/-! ## The producing service -/

theorem OutboxEvent.Carries.message {row : OutboxEvent Payload} {event : NewEvent Payload}
    (h : row.Carries event) : row.message = event.message :=
  congrArg OutboxEvent.message h

theorem OutboxEvent.Carries.eventId {row : OutboxEvent Payload} {event : NewEvent Payload}
    (h : row.Carries event) : row.eventId = event.eventId :=
  congrArg OutboxEvent.eventId h

namespace Delivery

variable {s s' : Delivery Payload} {l : DeliveryLabel Payload}

theorem observe_added (outbox : RelayState Payload) (l : RelayLabel Payload) :
    (s.observe outbox l).added = s.added := by
  unfold observe
  repeat' split
  all_goals rfl

/-- What a committed transaction has added stays. -/
theorem added_of_next {batchSize : Nat} (hwritten : Written s)
    (hnext : deliveryNext batchSize s l = some s') {id : Nat} {event : NewEvent Payload}
    (h : s.added id = some (event, .committed)) : s'.added id = some (event, .committed) := by
  have hsettled : ∀ t fate, s.settle t fate id = some (event, .committed) := by
    intro t fate
    simp [settle, h]
  cases l with
  | begin t =>
    simp only [deliveryNext] at hnext
    split at hnext
    · cases hnext
      exact h
    · cases hnext
  | add t topic eventType key producer payload traceparent =>
    simp only [deliveryNext] at hnext
    split at hnext
    · cases hnext
      -- the new event has an id of its own
      have hne : id ≠ s.nextId := (hwritten.fresh id (by rw [h]; exact Option.some_ne_none _)).ne
      exact (Function.update_of_ne hne ..).trans h
    · cases hnext
  | insert t =>
    simp only [deliveryNext] at hnext
    split at hnext
    · cases hnext
      exact h
    · cases hnext
  | commit t =>
    simp only [deliveryNext] at hnext
    split at hnext
    · cases hnext
      exact hsettled t .committed
    · cases hnext
  | rollback t =>
    simp only [deliveryNext] at hnext
    split at hnext
    · cases hnext
      exact hsettled t .rolledBack
    · cases hnext
  | relay l =>
    simp only [deliveryNext] at hnext
    split at hnext
    · cases hnext
    · obtain ⟨outbox, -, rfl⟩ := Option.map_eq_some_iff.1 hnext
      rw [observe_added]
      exact h

/-- A confirmed send is of a message that reached the broker. -/
theorem sends_of_next {batchSize : Nat} (hnext : deliveryNext batchSize s l = some s') :
    s'.sends = s.sends ∨ ∃ m, s.reaches l = some m ∧ s'.sends = s.sends ++ [m] := by
  cases l with
  | relay l =>
    simp only [deliveryNext] at hnext
    split at hnext
    · cases hnext
    · obtain ⟨outbox, -, rfl⟩ := Option.map_eq_some_iff.1 hnext
      cases l with
      | send t answer =>
        simp only [observe, reaches]
        split
        · rename_i hrelay _
          exact Or.inr ⟨_, by simp only [hrelay], rfl⟩
        · exact Or.inl rfl
        · exact Or.inl rfl
      | _ => exact Or.inl rfl
  | _ =>
    refine Or.inl ?_
    simp only [deliveryNext] at hnext
    split at hnext
    · cases hnext
      rfl
    · cases hnext

/-- Only the messages of committed events reach the broker. -/
theorem reaches_eq_some (hwritten : Written s) (hrelayed : Relayed s) {m : BrokerMessage Payload}
    (h : s.reaches l = some m) : ∃ event : NewEvent Payload,
      m = event.message ∧ s.added event.eventId = some (event, .committed) := by
  have hsending : ∀ {t : Nat} {row : OutboxEvent Payload} {todo : List (OutboxEvent Payload)}
      {marks : List (Nat × Mark)}, s.outbox.relays t = some (.sending (row :: todo) marks) →
      ∃ event : NewEvent Payload,
        row.message = event.message ∧ s.added event.eventId = some (event, .committed) := by
    intro t row todo marks hrelay
    -- the row is claimed, so it is one of the committed ones
    obtain ⟨-, hheld, -⟩ := hrelayed.executions t _ hrelay
    obtain ⟨event, hcarries, hadded⟩ := hwritten.carried row (hheld row List.mem_cons_self).1
    exact ⟨event, hcarries.message, hcarries.eventId ▸ hadded⟩
  unfold reaches at h
  split at h
  · split at h
    · rename_i hrelay
      cases h
      exact hsending hrelay
    · rename_i hrelay
      cases h
      exact hsending hrelay
    · cases h
  · cases h

end Delivery

/-! ## The consumer group, as messages arrive -/

section Growing

variable {r : Route Db Row ε Payload Raw} {broker broker' : TopicPartition → List Raw}

theorem Route.raw_of_prefix (hgrow : ∀ tp, broker tp <+: broker' tp) {m : Message} {raw : Raw}
    (h : (r.group broker).raw m = some raw) : (r.group broker').raw m = some raw := by
  obtain ⟨rest, hrest⟩ := hgrow m.1
  have hlt : m.2 < (broker m.1).length := (List.getElem?_eq_some_iff.1 h).1
  have hmore : (broker' m.1)[m.2]? = (broker m.1)[m.2]? := by
    rw [← hrest, List.getElem?_append_left hlt]
  exact hmore.trans h

/-- A message that is there keeps its envelope. -/
theorem Route.envelope_of_prefix (hgrow : ∀ tp, broker tp <+: broker' tp) {m : Message}
    (h : ((r.group broker).raw m).isSome) :
    (r.group broker').envelope m = (r.group broker).envelope m := by
  obtain ⟨raw, hraw⟩ := Option.isSome_iff_exists.1 h
  rw [ConsumerGroup.envelope_eq_some hraw,
    ConsumerGroup.envelope_eq_some (Route.raw_of_prefix hgrow hraw)]
  rfl

theorem Route.envelope_isSome {m : Message} {envelope : EventEnvelope Payload}
    (h : (r.group broker).envelope m = some envelope) : ((r.group broker).raw m).isSome := by
  obtain ⟨raw, hraw, -⟩ := Option.bind_eq_some_iff.1 h
  rw [hraw]
  rfl

theorem Route.settled_of_prefix (hgrow : ∀ tp, broker tp <+: broker' tp) {db : ConsumerDb Db}
    {log : List LogRecord} {m : Message} (h : (r.group broker).Settled db log m) :
    (r.group broker').Settled db log m := by
  obtain ⟨raw, hraw, hsettled⟩ := h
  exact ⟨raw, Route.raw_of_prefix hgrow hraw, hsettled⟩

theorem Pod.Accounted.grow (hgrow : ∀ tp, broker tp <+: broker' tp) {db : ConsumerDb Db}
    {log : List LogRecord} {p : Pod} (h : p.Accounted (r.group broker) db log) :
    p.Accounted (r.group broker') db log where
  fetched := by
    intro m hm
    obtain ⟨raw, hraw⟩ := Option.isSome_iff_exists.1 (h.fetched m hm)
    rw [Route.raw_of_prefix hgrow hraw]
    rfl
  positions := fun tp offset ho i hi =>
    (h.positions tp offset ho i hi).imp_left (Route.settled_of_prefix hgrow)
  attempts := by
    intro m todo failures hphase envelope henvelope
    have hm : m ∈ p.phase.messages := by
      rw [hphase]
      exact List.mem_cons_self
    rw [Route.envelope_of_prefix hgrow (h.fetched m hm)] at henvelope
    exact h.attempts m todo failures hphase envelope henvelope

/-- New messages change nothing of what the pods have done. -/
theorem ConsumerState.Accounted.grow (hgrow : ∀ tp, broker tp <+: broker' tp) {tables : Db}
    {st : ConsumerState Db Row ε Payload} (h : st.Accounted (r.group broker) tables) :
    st.Accounted (r.group broker') tables where
  sound := h.sound
  serial := h.serial
  sessions := by
    intro pod s hs
    obtain ⟨positions, m, todo, failures, hpod, henvelope⟩ := h.sessions pod s hs
    refine ⟨positions, m, todo, failures, hpod, ?_⟩
    rw [Route.envelope_of_prefix hgrow (Route.envelope_isSome henvelope), henvelope]
  pods := fun pod p hp => (h.pods pod p hp).grow hgrow
  committed := fun tp offset ho => Route.settled_of_prefix hgrow (h.committed tp offset ho)
  effects := by
    obtain ⟨events, past, hissuing, heffects, hread⟩ := h.effects
    refine ⟨events, past, hissuing, heffects, fun envelope hmem => ?_⟩
    obtain ⟨m, hm⟩ := hread envelope hmem
    exact ⟨m, by rw [Route.envelope_of_prefix hgrow (Route.envelope_isSome hm), hm]⟩

end Growing

/-! ## Runs -/

/-- The invariant: that of each half, and what the broker has. -/
structure Pipeline.Joined (r : Route Db Row ε Payload Raw) (tables : Db)
    (s : Pipeline Db Row ε Payload Raw) : Prop where
  written : Written s.delivery
  relayed : Relayed s.delivery
  accounted : s.consumer.Accounted (r.group s.broker) tables
  /-- The broker has messages of committed events only. -/
  sourced : ∀ tp, ∀ raw ∈ s.broker tp, ∃ event : NewEvent Payload,
    raw = r.toBytes event.envelope ∧ s.delivery.added event.eventId = some (event, .committed)
  sent : ∀ m ∈ s.delivery.sends, r.toBytes m.envelope ∈ s.broker (r.target m)

namespace Pipeline

variable {r : Route Db Row ε Payload Raw} {tables : Db} {s s' : Pipeline Db Row ε Payload Raw}

theorem joined_initial (r : Route Db Row ε Payload Raw) (tables : Db) :
    (initial tables : Pipeline Db Row ε Payload Raw).Joined r tables where
  written := written_empty
  relayed := relayed_empty
  accounted := ConsumerState.accounted_initial _ tables
  sourced := fun _ _ h => absurd h List.not_mem_nil
  sent := fun _ h => absurd h List.not_mem_nil

theorem prefix_append (r : Route Db Row ε Payload Raw) (broker : TopicPartition → List Raw)
    (m : BrokerMessage Payload) (tp : TopicPartition) : broker tp <+: r.append broker m tp := by
  unfold Route.append
  by_cases htp : tp = r.target m
  · subst htp
    rw [Function.update_self]
    exact List.prefix_append _ _
  · exact ⟨[], by rw [Function.update_of_ne htp, List.append_nil]⟩

/-- A message on the broker is an old one or the new one. -/
theorem mem_append {broker : TopicPartition → List Raw} {m : BrokerMessage Payload}
    {tp : TopicPartition} {raw : Raw} (h : raw ∈ r.append broker m tp) :
    raw ∈ broker tp ∨ raw = r.toBytes m.envelope := by
  unfold Route.append at h
  by_cases htp : tp = r.target m
  · subst htp
    rw [Function.update_self] at h
    exact (List.mem_append.1 h).imp_right List.mem_singleton.1
  · rw [Function.update_of_ne htp] at h
    exact Or.inl h

theorem mem_append_self (r : Route Db Row ε Payload Raw) (broker : TopicPartition → List Raw)
    (m : BrokerMessage Payload) : r.toBytes m.envelope ∈ r.append broker m (r.target m) := by
  rw [Route.append, Function.update_self]
  exact List.mem_append_right _ (List.mem_singleton_self _)

/-- Every step keeps the invariant. -/
theorem Joined.next [DecidableEq Row] (h : s.Joined r tables) {l : PipelineLabel Payload}
    (hnext : pipelineNext r s l = some s') : s'.Joined r tables := by
  cases l with
  | produce l =>
    obtain ⟨delivery, hdelivery, rfl⟩ := Option.map_eq_some_iff.1 hnext
    obtain ⟨hwritten, hrelayed⟩ := written_next ⟨h.written, h.relayed⟩ hdelivery
    have hadded : ∀ id (event : NewEvent Payload),
        s.delivery.added id = some (event, .committed) →
          delivery.added id = some (event, .committed) :=
      fun id event => Delivery.added_of_next h.written hdelivery
    have hsends := Delivery.sends_of_next hdelivery
    cases hreaches : s.delivery.reaches l with
    | none =>
      rw [hreaches] at hsends
      have hsame : delivery.sends = s.delivery.sends := by
        rcases hsends with hsame | ⟨m, hm, -⟩
        · exact hsame
        · cases hm
      refine ⟨hwritten, hrelayed, h.accounted, fun tp raw hraw => ?_, fun m hm => ?_⟩
      · obtain ⟨event, heq, hevent⟩ := h.sourced tp raw hraw
        exact ⟨event, heq, hadded _ event hevent⟩
      · exact h.sent m (hsame ▸ hm)
    | some message =>
      -- the broker's log grows by the message, confirmed or not
      have hgrow := prefix_append r s.broker message
      refine ⟨hwritten, hrelayed, h.accounted.grow hgrow, fun tp raw hraw => ?_, fun m hm => ?_⟩
      · rcases mem_append hraw with hraw | rfl
        · obtain ⟨event, heq, hevent⟩ := h.sourced tp raw hraw
          exact ⟨event, heq, hadded _ event hevent⟩
        · obtain ⟨event, rfl, hevent⟩ :=
            Delivery.reaches_eq_some h.written h.relayed hreaches
          exact ⟨event, rfl, hadded _ event hevent⟩
      · have hold : m ∈ s.delivery.sends → r.toBytes m.envelope ∈
            r.append s.broker message (r.target m) := fun hmem =>
          (hgrow (r.target m)).subset (h.sent m hmem)
        rcases hsends with hsame | ⟨m', hm', hsame⟩
        · exact hold (hsame ▸ hm)
        · rw [hreaches, Option.some.injEq] at hm'
          subst hm'
          rw [hsame, List.mem_append, List.mem_singleton] at hm
          rcases hm with hm | rfl
          · exact hold hm
          · exact mem_append_self r s.broker m
  | consume l =>
    obtain ⟨consumer, hconsumer, rfl⟩ := Option.map_eq_some_iff.1 hnext
    exact ⟨h.written, h.relayed, h.accounted.next hconsumer, h.sourced, h.sent⟩

/-- An event with a row in `processed_events` is applied. -/
theorem mem_of_isProcessed {past : List Db} {events : List (EventEnvelope Payload)}
    (heffects : r.processor.Effects tables past s.consumer.config.db events)
    (hsourced : ∀ envelope ∈ events, ∃ event : NewEvent Payload, envelope = event.envelope ∧
      s.delivery.added envelope.eventId = some (event, .committed))
    {event : NewEvent Payload} (hadded : s.delivery.added event.eventId = some (event, .committed))
    (hprocessed : s.consumer.config.db.isProcessed r.processor.name event.eventId = true) :
    event.envelope ∈ events := by
  obtain ⟨row, hrow, hkey⟩ := List.any_eq_true.1 hprocessed
  rw [Bool.and_eq_true, beq_iff_eq, beq_iff_eq] at hkey
  have hmem : (row.consumer, row.eventId, row.eventType) ∈
      events.map fun envelope => (r.processor.name, envelope.eventId, envelope.eventType) := by
    rw [← heffects.rows]
    exact List.mem_map_of_mem hrow
  obtain ⟨envelope, henvelope, heq⟩ := List.mem_map.1 hmem
  have hid : envelope.eventId = event.eventId := by
    rw [← hkey.2]
    exact congrArg (fun key => key.2.1) heq
  obtain ⟨event', rfl, hadded'⟩ := hsourced envelope henvelope
  rw [hid, hadded] at hadded'
  cases hadded'
  exact henvelope

/-- A row that is published has its message on the broker. -/
theorem Joined.offset (h : s.Joined r tables) {row : OutboxEvent Payload}
    (hrow : row ∈ s.delivery.outbox.rows) (hpublished : row.isPending = false)
    {event : NewEvent Payload} (hcarries : row.Carries event) :
    ∃ offset : Nat,
      (s.broker (r.target event.message))[offset]? = some (r.toBytes event.envelope) := by
  have hne : row.publishedAt ≠ none := by
    intro hnone
    rw [OutboxEvent.isPending, hnone] at hpublished
    cases hpublished
  have hsent := h.sent row.message (h.relayed.published row hrow hne)
  rw [hcarries.message] at hsent
  obtain ⟨offset, hoffset⟩ := List.getElem?_of_mem hsent
  exact ⟨offset, hoffset⟩

end Pipeline

/-- However the transactions, relays, pods, failures and crashes interleave, the consumer's tables
are what the committed events make of the initial ones, each applied once and no other; none is
lost on the way. -/
theorem end_to_end [DecidableEq Row] (r : Route Db Row ε Payload Raw) (tables : Db)
    {s : Pipeline Db Row ε Payload Raw} (hrun : (pipeline r).Run (Pipeline.initial tables) s) :
    ∃ events, EndToEnd r tables s events := by
  have hjoined : s.Joined r tables :=
    hrun.preserves (fun _ _ _ h _ hnext => h.next hnext) (Pipeline.joined_initial r tables)
  obtain ⟨events, _, -, heffects, hread⟩ := hjoined.accounted.effects
  have hsourced : ∀ envelope ∈ events, ∃ event : NewEvent Payload, envelope = event.envelope ∧
      s.delivery.added envelope.eventId = some (event, .committed) := by
    intro envelope henvelope
    obtain ⟨m, hm⟩ := hread envelope henvelope
    obtain ⟨raw, hraw, hparsed⟩ := Option.bind_eq_some_iff.1 hm
    obtain ⟨event, rfl, hadded⟩ := hjoined.sourced m.1 raw (List.mem_of_getElem? hraw)
    have heq : some event.envelope = some envelope := (r.roundTrip _).symm.trans hparsed
    cases heq
    exact ⟨event, rfl, hadded⟩
  -- a message of the event below the committed offset is settled, and so is the event
  have hbehind : ∀ {event : NewEvent Payload} {offset : Nat},
      s.delivery.added event.eventId = some (event, .committed) →
      (s.broker (r.target event.message))[offset]? = some (r.toBytes event.envelope) →
      offset < s.consumer.committed (r.target event.message) →
      r.processor.handlers event.eventType = none ∨ event.envelope ∈ events ∨
        LogRecord.gaveUp event.eventId ∈ s.consumer.log := by
    intro event offset hadded hoffset hlt
    obtain ⟨raw, hraw, hsettled⟩ := hjoined.accounted.committed _ offset hlt
    have heq : some raw = some (r.toBytes event.envelope) := hraw.symm.trans hoffset
    cases heq
    rcases hsettled event.envelope (r.roundTrip _) with hnone | hprocessed | ⟨hgave, -⟩
    · exact Or.inl hnone
    · exact Or.inr (Or.inl (Pipeline.mem_of_isProcessed heffects hsourced hadded hprocessed))
    · exact Or.inr (Or.inr hgave)
  have hrow : ∀ id (event : NewEvent Payload), s.delivery.added id = some (event, .committed) →
      ∃ row ∈ s.delivery.outbox.rows, row.Carries event ∧ event.eventId = id := by
    intro id event hadded
    obtain ⟨row, hmem, rfl⟩ := hjoined.written.complete id event hadded
    obtain ⟨event', hcarries, hadded'⟩ := hjoined.written.carried row hmem
    rw [hadded] at hadded'
    cases hadded'
    exact ⟨row, hmem, hcarries, hcarries.eventId.symm⟩
  refine ⟨events, ⟨_, heffects⟩, hsourced, fun id event hadded => ?_,
    fun hnone hall id event hadded hgave hhandler => ?_⟩
  · -- the row is pending still, or its message is in the log
    obtain ⟨row, hmem, hcarries, rfl⟩ := hrow id event hadded
    cases hpending : row.isPending with
    | true => exact Or.inl ⟨row, hmem, hcarries, hpending⟩
    | false =>
      obtain ⟨offset, hoffset⟩ := hjoined.offset hmem hpending hcarries
      exact Or.inr ⟨offset, hoffset, hbehind hadded hoffset⟩
  · -- with nothing pending and all offsets committed, the message is in the log and settled
    obtain ⟨row, hmem, hcarries, rfl⟩ := hrow id event hadded
    obtain ⟨offset, hoffset⟩ := hjoined.offset hmem (hnone row hmem) hcarries
    have hlt : offset < s.consumer.committed (r.target event.message) := by
      rw [hall]
      exact (List.getElem?_eq_some_iff.1 hoffset).1
    rcases hbehind hadded hoffset hlt with hno | happlied | hgaveUp
    · exact absurd hno hhandler
    · exact happlied
    · exact absurd hgaveUp hgave

/-- A service whose events are counted, with one partition for all keys. -/
def countedRoute : Route Nat Unit Unit Unit (EventEnvelope Unit) where
  batchSize := 100
  processor := { counter with topics := ["shipment.events"] }
  maxAttempts := 5
  partitionFor := fun _ _ => 0
  toBytes := id
  fromBytes := some
  roundTrip := fun _ => rfl

/-- The pod reads `n` messages and handles them, each in `steps` statements. -/
def readAll (pod : Nat) (steps : List Nat) : List ConsumerLabel :=
  let tp : TopicPartition := ⟨"shipment.events", 0⟩
  [.join pod, .assign pod [tp]] ++ steps.map (fun _ => .fetch pod tp) ++ [.deliver pod] ++
    steps.flatMap (fun n => .handle pod :: .replicate n (.step pod 0 true)) ++ [.commit pod]

/-- Two events are committed and one is rolled back. The first execution of `run_once` crashes after
a send, so the first event is sent twice. -/
def sentTwice : List (DeliveryLabel Unit) :=
  [.begin 0, addSample 0, .begin 1, addSample 1, addSample 0, .insert 0, .insert 1, .insert 0,
    .rollback 1, .commit 0] ++
  ([.start 0, .claim 0, .claim 0, .claim 0, .send 0 .ok, .crash 0,
    .start 0, .claim 0, .claim 0, .claim 0, .send 0 .ok, .send 0 .ok, .commit 0].map .relay)

/-- The pod counts two of the three messages. -/
theorem end_to_end_after_crash : ∃ s : Pipeline Nat Unit Unit Unit (EventEnvelope Unit),
    (pipeline countedRoute).Run (Pipeline.initial 0) s ∧
    ((s.broker ⟨"shipment.events", 0⟩).map (·.eventId), s.consumer.config.db.tables) =
      ([1, 1, 3], 2) ∧
    ∃ events, EndToEnd countedRoute 0 s events := by
  have hexec : ((pipeline countedRoute).exec (Pipeline.initial 0)
      (sentTwice.map .produce ++ (readAll 0 [7, 3, 7]).map .consume)).map
      (fun s => ((s.broker ⟨"shipment.events", 0⟩).map (·.eventId), s.consumer.config.db.tables)) =
      some ([1, 1, 3], 2) := by
    decide +kernel
  obtain ⟨s, hs, hfacts⟩ := Option.map_eq_some_iff.1 hexec
  have hrun := Machine.run_of_exec _ hs
  exact ⟨s, hrun, hfacts, end_to_end countedRoute 0 hrun⟩

end SmartLogistics.Platform
