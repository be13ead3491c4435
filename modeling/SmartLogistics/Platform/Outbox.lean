import SmartLogistics.Library.Machine
import SmartLogistics.Library.Table

/-!
# The transactional outbox and its relays

`addEvent` stages an event with the change it is about; any number of `OutboxRelay.run_once`
executions publish the committed rows (`relays`). A relay claims a batch row by row with
`FOR UPDATE SKIP LOCKED`, sends the rows in order, stops at the first failure, and marks what it
sent in one commit; it may crash anywhere, which leaves its rows as they were.

`firstInOrder_of_run`: along runs in which no claimed batch has a gap (`ClaimsPrefix`), the first
publications of a key's events are in the order of their `seq`. Skipping a row that another relay
has locked makes a gap, and `not_firstInOrder_after_skip` is a run in which it reorders a key.
-/

set_option autoImplicit false

namespace SmartLogistics.Platform

open SmartLogistics.Library

/-- The envelope every service publishes and consumes. -/
structure EventEnvelope (Payload : Type) where
  eventId : Nat
  eventType : String
  version : Nat
  occurredAt : Nat
  producer : String
  key : String
  payload : Payload
  traceparent : Option String
  deriving DecidableEq, Repr

/-- An event waiting to be (or already) published. -/
structure OutboxEvent (Payload : Type) where
  seq : Nat
  eventId : Nat
  topic : String
  key : String
  eventType : String
  envelope : EventEnvelope Payload
  publishedAt : Option Nat
  attempts : Nat
  lastError : Option String
  deriving DecidableEq, Repr

variable {Payload : Type}

/-- The row `add_event` stages: the ids and the clock are those the session draws for it. -/
def addEvent (topic eventType key producer : String) (payload : Payload)
    (traceparent : Option String) (seq eventId now : Nat) : OutboxEvent Payload where
  seq := seq
  eventId := eventId
  topic := topic
  key := key
  eventType := eventType
  envelope :=
    { eventId := eventId
      eventType := eventType
      version := 1
      occurredAt := now
      producer := producer
      key := key
      payload := payload
      traceparent := traceparent }
  publishedAt := none
  attempts := 0
  lastError := none

/-! ## Relays -/

/-- The event waits to be published. -/
def OutboxEvent.isPending (row : OutboxEvent Payload) : Bool := row.publishedAt.isNone

/-- What a relay writes back to a row of its batch. -/
inductive Mark
  | sent (publishedAt : Nat)
  | failed (attempts : Nat) (lastError : String)
  deriving DecidableEq, Repr

/-- The row with the outcome of its sending. -/
def OutboxEvent.mark (row : OutboxEvent Payload) : Mark → OutboxEvent Payload
  | .sent publishedAt => { row with publishedAt := some publishedAt }
  | .failed attempts lastError => { row with attempts := attempts, lastError := some lastError }

/-- The writes of a relay's commit: each mark is on the row with its `seq`. -/
def applyMarks (marks : List (Nat × Mark)) (rows : List (OutboxEvent Payload)) :
    List (OutboxEvent Payload) :=
  rows.map fun row => (marks.lookup row.seq).elim row row.mark

/-- A row after the marks is the row, or the row with one mark. -/
theorem elim_mark {P : OutboxEvent Payload → Prop} (marks : List (Nat × Mark))
    {row : OutboxEvent Payload} (hrow : P row) (hmark : ∀ mark, P (row.mark mark)) :
    P ((marks.lookup row.seq).elim row row.mark) := by
  cases marks.lookup row.seq with
  | none => exact hrow
  | some mark => exact hmark mark

/-- Where an execution of `run_once` stands. -/
inductive Relay (Payload : Type)
  /-- Locking the batch: `todo` is what is left of the statement's snapshot. -/
  | claiming (todo : List Nat) (batch : List (OutboxEvent Payload))
  /-- Sending the batch. -/
  | sending (todo : List (OutboxEvent Payload)) (marks : List (Nat × Mark))
  /-- A row failed; the commit is next. -/
  | stopped (marks : List (Nat × Mark))

/-- What the publisher answers to a send. -/
inductive Sent
  | ok
  | failed (error : String)
  /-- The broker has the event, but the relay sees an error. -/
  | unconfirmed (error : String)

/-- An event on the broker. -/
structure Publication where
  key : String
  seq : Nat
  deriving DecidableEq, Repr

/-- What the log says of the event when it is sent. -/
def OutboxEvent.publication (row : OutboxEvent Payload) : Publication := ⟨row.key, row.seq⟩

/-- The committed rows with their locks, the open executions, and what the broker got, in order. -/
structure RelayState (Payload : Type) where
  clock : Nat
  rows : List (OutboxEvent Payload)
  locks : Nat → Option Nat
  relays : Nat → Option (Relay Payload)
  log : List Publication

/-- A scheduler choice. -/
inductive RelayLabel (Payload : Type)
  /-- A business transaction commits an event. -/
  | commitEvent (row : OutboxEvent Payload)
  | start (t : Nat)
  /-- Lock or skip the next row of the snapshot, or end the claim. -/
  | claim (t : Nat)
  | send (t : Nat) (answer : Sent)
  | commit (t : Nat)
  | crash (t : Nat)
  | tick (n : Nat)

namespace RelayState

/-- An empty outbox, and no relay at work. -/
def empty : RelayState Payload where
  clock := 0
  rows := []
  locks := fun _ => none
  relays := fun _ => none
  log := []

/-- A relay set to `relay`, or idle. -/
def setRelay (s : RelayState Payload) (t : Nat) (relay : Option (Relay Payload)) :
    RelayState Payload :=
  { s with relays := Function.update s.relays t relay }

/-- Execution `t` ended, and its row locks released. -/
def endRelay (s : RelayState Payload) (t : Nat) : RelayState Payload :=
  { s with
    locks := fun seq => if s.locks seq = some t then none else s.locks seq
    relays := Function.update s.relays t none }

/-- Another execution has locked the row. -/
def skips (s : RelayState Payload) (t seq : Nat) : Bool :=
  match s.locks seq with
  | some u => u != t
  | none => false

end RelayState

open RelayState

/-- The error text a relay stores. -/
def errorText (error : String) : String := (error.take 500).toString

/-- One scheduler choice, with batches of at most `batchSize` rows. -/
def relayNext (batchSize : Nat) (s : RelayState Payload) :
    RelayLabel Payload → Option (RelayState Payload)
  | .commitEvent row =>
    -- `seq` is unique, and the rows of one key commit in its order
    if row.publishedAt = none ∧ (∀ r ∈ s.rows, r.seq ≠ row.seq) ∧
        ∀ r ∈ s.rows, r.key = row.key → r.seq < row.seq then
      some { s with rows := s.rows ++ [row] }
    else none
  | .start t =>
    match s.relays t with
    | none => some (s.setRelay t (some
        (.claiming (Table.keysWhere OutboxEvent.seq OutboxEvent.isPending s.rows) [])))
    | some _ => none
  | .claim t =>
    match s.relays t with
    | some (.claiming [] batch) => some (s.setRelay t (some (.sending batch [])))
    | some (.claiming (seq :: todo) batch) =>
      if batchSize ≤ batch.length then some (s.setRelay t (some (.sending batch [])))
      else if s.skips t seq then some (s.setRelay t (some (.claiming todo batch)))
      else
        -- the row is returned in its current version, if it is still unpublished
        some ({ s with locks := Function.update s.locks seq (some t) }.setRelay t
          (some (.claiming todo (batch ++
            ((Table.lookup OutboxEvent.seq s.rows seq).filter OutboxEvent.isPending).toList))))
    | _ => none
  | .send t answer =>
    match s.relays t with
    | some (.sending (row :: todo) marks) =>
      match answer with
      | .ok =>
        some ({ s with log := s.log ++ [row.publication] }.setRelay t
          (some (.sending todo (marks ++ [(row.seq, Mark.sent s.clock)]))))
      | .failed error =>
        -- stop here: publishing later rows first would reorder events
        some (s.setRelay t
          (some (.stopped
            (marks ++ [(row.seq, Mark.failed (row.attempts + 1) (errorText error))]))))
      | .unconfirmed error =>
        some ({ s with log := s.log ++ [row.publication] }.setRelay t
          (some (.stopped
            (marks ++ [(row.seq, Mark.failed (row.attempts + 1) (errorText error))]))))
    | _ => none
  | .commit t =>
    match s.relays t with
    | some (.sending [] marks) => some ({ s with rows := applyMarks marks s.rows }.endRelay t)
    | some (.stopped marks) => some ({ s with rows := applyMarks marks s.rows }.endRelay t)
    | _ => none
  | .crash t => (s.relays t).map fun _ => s.endRelay t
  | .tick n => some { s with clock := s.clock + n }

/-- All interleavings of the relays of an outbox. -/
def relays (batchSize : Nat) : Machine (RelayState Payload) (RelayLabel Payload) :=
  ⟨relayNext batchSize⟩

/-- What each step does, with its guards. -/
inductive RelayStep (batchSize : Nat) (s : RelayState Payload) :
    RelayLabel Payload → RelayState Payload → Prop
  | commitEvent {row : OutboxEvent Payload} (hpending : row.publishedAt = none)
      (hseq : ∀ r ∈ s.rows, r.seq ≠ row.seq)
      (hkey : ∀ r ∈ s.rows, r.key = row.key → r.seq < row.seq) :
      RelayStep batchSize s (.commitEvent row) { s with rows := s.rows ++ [row] }
  | start {t : Nat} (hfree : s.relays t = none) : RelayStep batchSize s (.start t)
      (s.setRelay t (some (.claiming
        (Table.keysWhere OutboxEvent.seq OutboxEvent.isPending s.rows) [])))
  | claimed {t : Nat} {todo : List Nat} {batch : List (OutboxEvent Payload)}
      (ht : s.relays t = some (.claiming todo batch))
      (hend : todo = [] ∨ batchSize ≤ batch.length) :
      RelayStep batchSize s (.claim t) (s.setRelay t (some (.sending batch [])))
  | skip {t seq : Nat} {todo : List Nat} {batch : List (OutboxEvent Payload)}
      (ht : s.relays t = some (.claiming (seq :: todo) batch)) :
      RelayStep batchSize s (.claim t) (s.setRelay t (some (.claiming todo batch)))
  | lock {t seq : Nat} {todo : List Nat} {batch : List (OutboxEvent Payload)}
      (ht : s.relays t = some (.claiming (seq :: todo) batch)) (hfree : s.skips t seq = false) :
      RelayStep batchSize s (.claim t)
        ({ s with locks := Function.update s.locks seq (some t) }.setRelay t
          (some (.claiming todo (batch ++
            ((Table.lookup OutboxEvent.seq s.rows seq).filter OutboxEvent.isPending).toList))))
  | sent {t : Nat} {row : OutboxEvent Payload} {todo : List (OutboxEvent Payload)}
      {marks : List (Nat × Mark)} (ht : s.relays t = some (.sending (row :: todo) marks)) :
      RelayStep batchSize s (.send t .ok)
        ({ s with log := s.log ++ [row.publication] }.setRelay t
          (some (.sending todo (marks ++ [(row.seq, Mark.sent s.clock)]))))
  | failed {t : Nat} {row : OutboxEvent Payload} {todo : List (OutboxEvent Payload)}
      {marks : List (Nat × Mark)} {error : String}
      (ht : s.relays t = some (.sending (row :: todo) marks)) :
      RelayStep batchSize s (.send t (.failed error))
        (s.setRelay t
          (some (.stopped
            (marks ++ [(row.seq, Mark.failed (row.attempts + 1) (errorText error))]))))
  | unconfirmed {t : Nat} {row : OutboxEvent Payload} {todo : List (OutboxEvent Payload)}
      {marks : List (Nat × Mark)} {error : String}
      (ht : s.relays t = some (.sending (row :: todo) marks)) :
      RelayStep batchSize s (.send t (.unconfirmed error))
        ({ s with log := s.log ++ [row.publication] }.setRelay t
          (some (.stopped
            (marks ++ [(row.seq, Mark.failed (row.attempts + 1) (errorText error))]))))
  | commit {t : Nat} {relay : Relay Payload} {marks : List (Nat × Mark)}
      (ht : s.relays t = some relay) (hmarks : relay = .sending [] marks ∨ relay = .stopped marks) :
      RelayStep batchSize s (.commit t) ({ s with rows := applyMarks marks s.rows }.endRelay t)
  | crash {t : Nat} {relay : Relay Payload} (ht : s.relays t = some relay) :
      RelayStep batchSize s (.crash t) (s.endRelay t)
  | tick {n : Nat} : RelayStep batchSize s (.tick n) { s with clock := s.clock + n }

theorem relayStep_of_next {batchSize : Nat} {s s' : RelayState Payload} {l : RelayLabel Payload}
    (h : relayNext batchSize s l = some s') : RelayStep batchSize s l s' := by
  cases l with
  | commitEvent row =>
    simp only [relayNext] at h
    split at h
    · rename_i hrow
      cases h
      exact .commitEvent hrow.1 hrow.2.1 hrow.2.2
    · cases h
  | start t =>
    simp only [relayNext] at h
    split at h
    · rename_i hfree
      cases h
      exact .start hfree
    · cases h
  | claim t =>
    simp only [relayNext] at h
    split at h
    · rename_i batch ht
      cases h
      exact .claimed ht (Or.inl rfl)
    · rename_i seq todo batch ht
      split at h
      · rename_i hfull
        cases h
        exact .claimed ht (Or.inr hfull)
      split at h
      · cases h
        exact .skip ht
      · rename_i hfree
        cases h
        exact .lock ht (Bool.eq_false_iff.2 hfree)
    · cases h
  | send t answer =>
    simp only [relayNext] at h
    split at h
    · rename_i row todo marks ht
      cases answer with
      | ok =>
        cases h
        exact .sent ht
      | failed error =>
        cases h
        exact .failed ht
      | unconfirmed error =>
        cases h
        exact .unconfirmed ht
    · cases h
  | commit t =>
    simp only [relayNext] at h
    split at h
    · rename_i marks ht
      cases h
      exact .commit ht (Or.inl rfl)
    · rename_i marks ht
      cases h
      exact .commit ht (Or.inr rfl)
    · cases h
  | crash t =>
    simp only [relayNext, Option.map_eq_some_iff] at h
    obtain ⟨relay, ht, rfl⟩ := h
    exact .crash ht
  | tick n =>
    simp only [relayNext, Option.some.injEq] at h
    subst h
    exact .tick

/-! ## Order of first publications -/

/-- Every event is first published after the events of its key that were published before it have
smaller `seq`s. -/
def FirstInOrder (log : List Publication) : Prop :=
  ∀ pre p post, log = pre ++ p :: post → p ∉ pre → ∀ q ∈ pre, q.key = p.key → q.seq < p.seq

/-- With each row the batch has the unpublished rows of its key before it. -/
def GapFree (rows batch : List (OutboxEvent Payload)) : Prop :=
  ∀ x ∈ batch, ∀ r ∈ rows, r.key = x.key → r.seq < x.seq → r.publishedAt = none →
    ∃ y ∈ batch, y.seq = r.seq

instance (rows batch : List (OutboxEvent Payload)) : Decidable (GapFree rows batch) := by
  unfold GapFree
  infer_instance

/-- If the step ends a claim, the claimed batch has no gap. -/
def ClaimsPrefix (batchSize : Nat) (s : RelayState Payload) : RelayLabel Payload → Prop
  | .claim t =>
    match s.relays t with
    | some (.claiming [] batch) => GapFree s.rows batch
    | some (.claiming (_ :: _) batch) => batchSize ≤ batch.length → GapFree s.rows batch
    | _ => True
  | _ => True

instance (batchSize : Nat) (s : RelayState Payload) (l : RelayLabel Payload) :
    Decidable (ClaimsPrefix batchSize s l) := by
  unfold ClaimsPrefix
  split
  · split <;> infer_instance
  · infer_instance

theorem firstInOrder_nil : FirstInOrder [] := fun pre p post h => by
  simp at h

/-- Another publication keeps the order, if it is a repetition or comes after the events of its key
published so far. -/
theorem FirstInOrder.snoc {log : List Publication} (h : FirstInOrder log) {p : Publication}
    (hp : p ∉ log → ∀ q ∈ log, q.key = p.key → q.seq < p.seq) : FirstInOrder (log ++ [p]) := by
  intro pre x post heq hx
  rcases List.eq_nil_or_concat post with rfl | ⟨post', y, rfl⟩
  · -- the publication is the new one
    obtain ⟨rfl, hxp⟩ := List.append_inj' heq rfl
    cases hxp
    exact hp hx
  · rw [List.concat_eq_append, ← List.cons_append, ← List.append_assoc] at heq
    obtain ⟨hlog, -⟩ := List.append_inj' heq rfl
    exact h pre x post' hlog hx

/-- The row is committed, as far as what a relay copied of it goes. -/
def IsCommitted (rows : List (OutboxEvent Payload)) (x : OutboxEvent Payload) : Prop :=
  ∃ r ∈ rows, r.publication = x.publication

/-- Before each row of the list, the events of its key are published or in the list. -/
def Ready (s : RelayState Payload) (todo : List (OutboxEvent Payload)) : Prop :=
  ∀ x ∈ todo, ∀ r ∈ s.rows, r.key = x.key → r.seq < x.seq →
    r.publication ∈ s.log ∨ ∃ y ∈ todo, y.seq = r.seq

/-- The events that marks record as sent are on the broker. -/
def MarksSent (s : RelayState Payload) (marks : List (Nat × Mark)) : Prop :=
  ∀ seq publishedAt, (seq, Mark.sent publishedAt) ∈ marks →
    ∃ r ∈ s.rows, r.seq = seq ∧ r.publication ∈ s.log

/-- What holds of an open execution: its rows are committed, in order of `seq`, and once it sends
them, none is ahead of its key. -/
def RelayOk (s : RelayState Payload) : Relay Payload → Prop
  | .claiming todo batch =>
    (batch.map (·.seq) ++ todo).Pairwise (· < ·) ∧ ∀ x ∈ batch, IsCommitted s.rows x
  | .sending todo marks =>
    (todo.map (·.seq)).Pairwise (· < ·) ∧ (∀ x ∈ todo, IsCommitted s.rows x) ∧ Ready s todo ∧
      MarksSent s marks
  | .stopped marks => MarksSent s marks

/-- The invariant of the relays: a row marked as published is on the broker, and with an event on
the broker every committed event of its key before it is. -/
structure InOrder (s : RelayState Payload) : Prop where
  keyed : Table.Keyed OutboxEvent.seq s.rows
  marked : ∀ r ∈ s.rows, r.publishedAt ≠ none → r.publication ∈ s.log
  known : ∀ p ∈ s.log, ∃ r ∈ s.rows, r.publication = p
  closed : ∀ p ∈ s.log, ∀ r ∈ s.rows, r.key = p.key → r.seq < p.seq → r.publication ∈ s.log
  relays : ∀ t relay, s.relays t = some relay → RelayOk s relay
  order : FirstInOrder s.log

theorem inOrder_empty : InOrder (RelayState.empty : RelayState Payload) where
  keyed := List.nodup_nil
  marked := fun _ h => absurd h List.not_mem_nil
  known := fun _ h => absurd h List.not_mem_nil
  closed := fun _ h => absurd h List.not_mem_nil
  relays := fun _ _ h => by cases h
  order := firstInOrder_nil

variable {s s' : RelayState Payload}

/-- An open execution stays in order while the others commit, publish and mark rows. -/
theorem RelayOk.mono {relay : Relay Payload} (h : RelayOk s relay)
    (hold : ∀ r ∈ s.rows, ∃ r' ∈ s'.rows, r'.publication = r.publication)
    (hnew : ∀ r' ∈ s'.rows, (∃ r ∈ s.rows, r.publication = r'.publication) ∨
      ∀ r ∈ s.rows, r.seq ≠ r'.seq ∧ (r.key = r'.key → r.seq < r'.seq))
    (hlog : ∀ p ∈ s.log, p ∈ s'.log) : RelayOk s' relay := by
  have hcommitted : ∀ x, IsCommitted s.rows x → IsCommitted s'.rows x := by
    rintro x ⟨r, hr, hx⟩
    obtain ⟨r', hr', heq⟩ := hold r hr
    exact ⟨r', hr', heq.trans hx⟩
  have hmarks : ∀ marks, MarksSent s marks → MarksSent s' marks := by
    intro marks hsent seq publishedAt hmem
    obtain ⟨r, hr, hseq, hpub⟩ := hsent seq publishedAt hmem
    obtain ⟨r', hr', heq⟩ := hold r hr
    exact ⟨r', hr', (congrArg Publication.seq heq).trans hseq, heq ▸ hlog _ hpub⟩
  cases relay with
  | claiming todo batch => exact ⟨h.1, fun x hx => hcommitted x (h.2 x hx)⟩
  | sending todo marks =>
    obtain ⟨hsorted, hin, hready, hsent⟩ := h
    refine ⟨hsorted, fun x hx => hcommitted x (hin x hx), ?_, hmarks marks hsent⟩
    intro x hx r' hr' hkey hlt
    rcases hnew r' hr' with ⟨r, hr, heq⟩ | hlater
    · have hparts : r.key = r'.key ∧ r.seq = r'.seq := by
        simpa [OutboxEvent.publication] using heq
      rcases hready x hx r hr (hparts.1.trans hkey) (hparts.2 ▸ hlt) with hpub | ⟨y, hy, hseq⟩
      · exact Or.inl (heq ▸ hlog _ hpub)
      · exact Or.inr ⟨y, hy, hseq.trans hparts.2⟩
    · -- a new row of the key comes after every row that is committed already
      obtain ⟨r, hr, hx'⟩ := hin x hx
      have hparts : r.key = x.key ∧ r.seq = x.seq := by
        simpa [OutboxEvent.publication] using hx'
      have hlt' := (hlater r hr).2 (hparts.1.trans hkey.symm)
      omega
  | stopped marks => exact hmarks marks h

/-- Moving one execution on keeps the invariant. -/
theorem InOrder.setRelay (h : InOrder s) {t : Nat} {relay : Option (Relay Payload)}
    (hok : ∀ relay', relay = some relay' → RelayOk s relay') : InOrder (s.setRelay t relay) := by
  refine ⟨h.keyed, h.marked, h.known, h.closed, fun u relay' hu => ?_, h.order⟩
  simp only [RelayState.setRelay] at hu
  by_cases hut : u = t
  · subst hut
    rw [Function.update_self] at hu
    exact hok relay' hu
  · rw [Function.update_of_ne hut] at hu
    exact h.relays u relay' hu

/-- Ending an execution keeps the invariant. -/
theorem InOrder.endRelay (h : InOrder s) (t : Nat) : InOrder (s.endRelay t) := by
  have hset : InOrder (s.setRelay t none) := h.setRelay fun relay' hnone => by cases hnone
  exact ⟨hset.keyed, hset.marked, hset.known, hset.closed, hset.relays, hset.order⟩

/-- A committed event keeps the invariant. -/
theorem InOrder.commitEvent (h : InOrder s) {row : OutboxEvent Payload}
    (hpending : row.publishedAt = none) (hseq : ∀ r ∈ s.rows, r.seq ≠ row.seq)
    (hkey : ∀ r ∈ s.rows, r.key = row.key → r.seq < row.seq) :
    InOrder { s with rows := s.rows ++ [row] } where
  keyed := by
    rw [Table.Keyed, List.map_append, List.nodup_append]
    refine ⟨h.keyed, List.nodup_singleton _, ?_⟩
    intro i hi j hj
    obtain ⟨r, hr, rfl⟩ := List.mem_map.1 hi
    rw [List.mem_singleton.1 hj]
    exact hseq r hr
  marked := by
    intro r hr hne
    rcases List.mem_append.1 hr with hr | hr
    · exact h.marked r hr hne
    · rw [List.mem_singleton.1 hr] at hne
      exact absurd hpending hne
  known := by
    intro p hp
    obtain ⟨r, hr, heq⟩ := h.known p hp
    exact ⟨r, List.mem_append_left _ hr, heq⟩
  closed := by
    intro p hp r hr hrkey hlt
    rcases List.mem_append.1 hr with hr | hr
    · exact h.closed p hp r hr hrkey hlt
    · -- the new row comes after the events of its key on the broker
      obtain ⟨x, hx, heq⟩ := h.known p hp
      have hparts : x.key = p.key ∧ x.seq = p.seq := by
        rw [← heq]
        exact ⟨rfl, rfl⟩
      rw [List.mem_singleton.1 hr] at hrkey hlt
      have hlt' := hkey x hx (hparts.1.trans hrkey.symm)
      omega
  relays := by
    intro t relay ht
    refine (h.relays t relay ht).mono (fun r hr => ⟨r, List.mem_append_left _ hr, rfl⟩) ?_
      fun p hp => hp
    intro r hr
    rcases List.mem_append.1 hr with hr | hr
    · exact Or.inl ⟨r, hr, rfl⟩
    · rw [List.mem_singleton.1 hr]
      exact Or.inr fun r hr => ⟨hseq r hr, hkey r hr⟩
  order := h.order

/-- The events of a batch are sent in order, so sending its first row keeps the invariant. -/
theorem InOrder.publish (h : InOrder s) {t : Nat} {row : OutboxEvent Payload}
    {todo : List (OutboxEvent Payload)} {marks : List (Nat × Mark)}
    (ht : s.relays t = some (.sending (row :: todo) marks)) :
    InOrder { s with log := s.log ++ [row.publication] } := by
  obtain ⟨hsorted, hin, hready, -⟩ := h.relays t _ ht
  -- every event of the key before this one is on the broker
  have hbefore : ∀ r ∈ s.rows, r.key = row.key → r.seq < row.seq → r.publication ∈ s.log := by
    intro r hr hkey hlt
    rcases hready row List.mem_cons_self r hr hkey hlt with hpub | ⟨y, hy, hseq⟩
    · exact hpub
    · rcases List.mem_cons.1 hy with rfl | hy
      · omega
      · have hlater : row.seq < y.seq :=
          List.rel_of_pairwise_cons hsorted (List.mem_map_of_mem hy)
        omega
  have hlog : ∀ p ∈ s.log, p ∈ s.log ++ [row.publication] := fun p hp =>
    List.mem_append_left _ hp
  refine ⟨h.keyed, fun r hr hne => hlog _ (h.marked r hr hne), ?_, ?_, ?_, h.order.snoc ?_⟩
  · intro p hp
    rcases List.mem_append.1 hp with hp | hp
    · exact h.known p hp
    · obtain ⟨r, hr, heq⟩ := hin row List.mem_cons_self
      exact ⟨r, hr, heq.trans (List.mem_singleton.1 hp).symm⟩
  · intro p hp r hr hkey hlt
    rcases List.mem_append.1 hp with hp | hp
    · exact hlog _ (h.closed p hp r hr hkey hlt)
    · rw [List.mem_singleton.1 hp] at hkey hlt
      exact hlog _ (hbefore r hr hkey hlt)
  · intro u relay hu
    exact (h.relays u relay hu).mono (fun r hr => ⟨r, hr, rfl⟩)
      (fun r hr => Or.inl ⟨r, hr, rfl⟩) hlog
  · intro hnew q hq hkey
    by_contra hge
    obtain ⟨r, hr, heq⟩ := hin row List.mem_cons_self
    have hparts : r.key = row.key ∧ r.seq = row.seq := by
      simpa [OutboxEvent.publication] using heq
    rcases Nat.lt_or_eq_of_le (Nat.le_of_not_lt hge) with hlt | hsame
    · -- a later event of the key on the broker would have had this one before it
      have hpub := h.closed q hq r hr (hparts.1.trans hkey.symm) (hparts.2 ▸ hlt)
      exact hnew (heq ▸ hpub)
    · refine hnew ?_
      have hqeq : row.publication = q := by
        cases q
        simp only [OutboxEvent.publication, Publication.mk.injEq]
        exact ⟨hkey.symm, hsame⟩
      rwa [hqeq]

/-- The marks of a relay keep the invariant: the rows they mark as published are on the broker. -/
theorem InOrder.applyMarks (h : InOrder s) {marks : List (Nat × Mark)} (hsent : MarksSent s marks) :
    InOrder { s with rows := applyMarks marks s.rows } := by
  have hmark : ∀ r : OutboxEvent Payload, ((marks.lookup r.seq).elim r r.mark).publication =
      r.publication ∧ ((marks.lookup r.seq).elim r r.mark).seq = r.seq := by
    intro r
    exact elim_mark (P := fun r' => r'.publication = r.publication ∧ r'.seq = r.seq) marks
      ⟨rfl, rfl⟩ fun mark => by cases mark <;> exact ⟨rfl, rfl⟩
  have hback : ∀ r' ∈ Platform.applyMarks marks s.rows, ∃ r ∈ s.rows,
      r.publication = r'.publication := by
    intro r' hr'
    obtain ⟨r, hr, rfl⟩ := List.mem_map.1 hr'
    exact ⟨r, hr, (hmark r).1.symm⟩
  have hforth : ∀ r ∈ s.rows, ∃ r' ∈ Platform.applyMarks marks s.rows,
      r'.publication = r.publication := fun r hr => ⟨_, List.mem_map_of_mem hr, (hmark r).1⟩
  refine ⟨(Table.keyed_map fun r => (hmark r).2).2 h.keyed, ?_, ?_, ?_, ?_, h.order⟩
  · intro r' hr' hne
    obtain ⟨r, hr, rfl⟩ := List.mem_map.1 hr'
    rw [(hmark r).1]
    cases hl : marks.lookup r.seq with
    | none =>
      rw [hl] at hne
      exact h.marked r hr hne
    | some mark =>
      cases mark with
      | sent publishedAt =>
        obtain ⟨before, after, rfl, -⟩ := List.lookup_eq_some_iff.1 hl
        obtain ⟨x, hx, hseq, hpub⟩ := hsent r.seq publishedAt
          (List.mem_append_right _ List.mem_cons_self)
        rwa [← h.keyed.eq_of_key hx hr hseq]
      | failed attempts lastError =>
        rw [hl] at hne
        exact h.marked r hr hne
  · intro p hp
    obtain ⟨r, hr, heq⟩ := h.known p hp
    obtain ⟨r', hr', heq'⟩ := hforth r hr
    exact ⟨r', hr', heq'.trans heq⟩
  · intro p hp r' hr' hkey hlt
    obtain ⟨r, hr, heq⟩ := hback r' hr'
    have hparts : r.key = r'.key ∧ r.seq = r'.seq := by
      simpa [OutboxEvent.publication] using heq
    exact heq ▸ h.closed p hp r hr (hparts.1.trans hkey) (hparts.2 ▸ hlt)
  · intro t relay ht
    exact (h.relays t relay ht).mono hforth (fun r' hr' => Or.inl (hback r' hr')) fun p hp => hp

/-- A claimed batch without a gap is ready to be sent. -/
theorem InOrder.ready (h : InOrder s) {batch : List (OutboxEvent Payload)}
    (hgap : GapFree s.rows batch) : Ready s batch := by
  intro x hx r hr hkey hlt
  by_cases hpending : r.publishedAt = none
  · exact Or.inr (hgap x hx r hr hkey hlt hpending)
  · exact Or.inl (h.marked r hr hpending)

/-- A mark for a row that was sent is on the broker. -/
theorem MarksSent.snoc {marks : List (Nat × Mark)} (h : MarksSent s marks) {seq : Nat} {mark : Mark}
    (hmark : ∀ publishedAt, mark = .sent publishedAt →
      ∃ r ∈ s.rows, r.seq = seq ∧ r.publication ∈ s.log) :
        MarksSent s (marks ++ [(seq, mark)]) := by
  intro seq' publishedAt hmem
  rcases List.mem_append.1 hmem with hmem | hmem
  · exact h seq' publishedAt hmem
  · rw [List.mem_singleton, Prod.mk.injEq] at hmem
    obtain ⟨rfl, heq⟩ := hmem
    exact hmark publishedAt heq.symm

/-- Every step keeps the invariant, if the batches claimed have no gap. -/
theorem InOrder.next {batchSize : Nat} {l : RelayLabel Payload} (h : InOrder s)
    (hok : ClaimsPrefix batchSize s l) (hnext : relayNext batchSize s l = some s') :
    InOrder s' := by
  cases relayStep_of_next hnext with
  | commitEvent hpending hseq hkey => exact h.commitEvent hpending hseq hkey
  | start hfree =>
    refine h.setRelay fun relay' heq => ?_
    cases heq
    exact ⟨h.keyed.pairwise_keysWhere _, fun x hx => absurd hx List.not_mem_nil⟩
  | @claimed t todo batch ht hend =>
    obtain ⟨hsorted, hin⟩ := h.relays t _ ht
    have hgap : GapFree s.rows batch := by
      simp only [ClaimsPrefix, ht] at hok
      cases todo with
      | nil => exact hok
      | cons seq todo => exact hok (hend.resolve_left (List.cons_ne_nil seq todo))
    refine h.setRelay fun relay' heq => ?_
    cases heq
    exact ⟨(List.pairwise_append.1 hsorted).1, hin, h.ready hgap,
      fun _ _ hm => absurd hm List.not_mem_nil⟩
  | @skip t seq todo batch ht =>
    obtain ⟨hsorted, hin⟩ := h.relays t _ ht
    obtain ⟨hbatch, htodo, hacross⟩ := List.pairwise_append.1 hsorted
    -- the rest of the snapshot is still ahead of the batch
    refine h.setRelay fun relay' heq => ?_
    cases heq
    exact ⟨List.pairwise_append.2 ⟨hbatch, htodo.of_cons, fun a ha b hb =>
      hacross a ha b (List.mem_cons_of_mem _ hb)⟩, hin⟩
  | @lock t seq todo batch ht hfree =>
    obtain ⟨hsorted, hin⟩ := h.relays t _ ht
    obtain ⟨hbatch, htodo, hacross⟩ := List.pairwise_append.1 hsorted
    -- the row joins the batch, if it is still unpublished
    have hlocked : InOrder { s with locks := Function.update s.locks seq (some t) } := by
      refine ⟨h.keyed, h.marked, h.known, h.closed, fun u relay hu => ?_, h.order⟩
      exact (h.relays u relay hu).mono (fun r hr => ⟨r, hr, rfl⟩)
        (fun r hr => Or.inl ⟨r, hr, rfl⟩) fun p hp => hp
    refine hlocked.setRelay fun relay' heq => ?_
    cases heq
    cases hrow : (Table.lookup OutboxEvent.seq s.rows seq).filter OutboxEvent.isPending with
    | none =>
      rw [Option.toList_none, List.append_nil]
      exact ⟨List.pairwise_append.2 ⟨hbatch, htodo.of_cons, fun a ha b hb =>
        hacross a ha b (List.mem_cons_of_mem _ hb)⟩, hin⟩
    | some row =>
      obtain ⟨hmem, hseq⟩ := Table.mem_of_lookup (Option.eq_some_of_filter_eq_some hrow)
      rw [Option.toList_some]
      constructor
      · rw [List.map_append, List.append_assoc, List.map_singleton, hseq,
          List.singleton_append]
        exact List.pairwise_append.2 ⟨hbatch, htodo, hacross⟩
      · intro x hx
        rcases List.mem_append.1 hx with hx | hx
        · exact hin x hx
        · rw [List.mem_singleton.1 hx]
          exact ⟨row, hmem, rfl⟩
  | @sent t row todo marks ht =>
    obtain ⟨hsorted, hin, hready, hsent⟩ := h.relays t _ ht
    have hpublished := h.publish ht
    obtain ⟨-, -, -, hsent'⟩ := hpublished.relays t _ ht
    -- what the execution has sent is on the broker, this row included
    obtain ⟨r, hr, heq⟩ := hin row List.mem_cons_self
    have hrow : ∃ r ∈ s.rows, r.seq = row.seq ∧ r.publication ∈ s.log ++ [row.publication] :=
      ⟨r, hr, congrArg Publication.seq heq, heq ▸ List.mem_append_right _ List.mem_cons_self⟩
    refine hpublished.setRelay fun relay' heq => ?_
    cases heq
    refine ⟨(List.pairwise_cons.1 hsorted).2, fun x hx => hin x (List.mem_cons_of_mem _ hx), ?_,
      hsent'.snoc fun _ _ => hrow⟩
    intro x hx r' hr' hkey hlt
    rcases hready x (List.mem_cons_of_mem _ hx) r' hr' hkey hlt with hpub | ⟨y, hy, hseq⟩
    · exact Or.inl (List.mem_append_left _ hpub)
    · rcases List.mem_cons.1 hy with rfl | hy
      · left
        have hsame : r' = r := h.keyed.eq_of_key hr' hr
          (hseq.symm.trans (congrArg Publication.seq heq).symm)
        exact List.mem_append_right _ (List.mem_singleton.2 (hsame ▸ heq))
      · exact Or.inr ⟨y, hy, hseq⟩
  | @failed t row todo marks error ht =>
    refine h.setRelay fun relay' heq => ?_
    cases heq
    exact (h.relays t _ ht).2.2.2.snoc fun _ heq => by cases heq
  | @unconfirmed t row todo marks error ht =>
    have hpublished := h.publish ht
    refine hpublished.setRelay fun relay' heq => ?_
    cases heq
    exact (hpublished.relays t _ ht).2.2.2.snoc fun _ heq => by cases heq
  | @commit t relay marks ht hmarks =>
    have hok := h.relays t _ ht
    rcases hmarks with rfl | rfl
    · exact (h.applyMarks hok.2.2.2).endRelay t
    · exact (h.applyMarks hok).endRelay t
  | @crash t relay ht => exact h.endRelay t
  | tick =>
    refine ⟨h.keyed, h.marked, h.known, h.closed, fun u relay hu => ?_, h.order⟩
    exact (h.relays u relay hu).mono (fun r hr => ⟨r, hr, rfl⟩)
      (fun r hr => Or.inl ⟨r, hr, rfl⟩) fun p hp => hp

/-- Along a run in which no claimed batch has a gap, the first publications of a key's events are in
the order of their `seq`. -/
theorem firstInOrder_of_run {batchSize : Nat}
    (h : (relays batchSize).RunOf (ClaimsPrefix batchSize) RelayState.empty s) :
    FirstInOrder s.log := by
  have horder : InOrder s :=
    h.preserves (fun _ _ _ hs hok hnext => hs.next hok hnext) inOrder_empty
  exact horder.order

/-! ## Two runs -/

/-- An event of shipment `a`, committed. -/
def commitSample (seq : Nat) : RelayLabel Unit :=
  .commitEvent
    (addEvent "shipment.events" "shipment.status_changed" "a" "shipment" () none seq seq 0)

/-- The first relay fails at the second event; a later one sends the rest. -/
theorem firstInOrder_after_failure :
    ∃ s : RelayState Unit, (relays 100).RunOf (ClaimsPrefix 100) RelayState.empty s ∧
      s.log.map (·.seq) = [1, 2, 3] ∧ FirstInOrder s.log := by
  have hrun : ((relays 100).execOf (ClaimsPrefix 100) (RelayState.empty : RelayState Unit)
      ([commitSample 1, commitSample 2, commitSample 3, .start 0] ++ .replicate 4 (.claim 0) ++
        [.send 0 .ok, .send 0 (.failed "broker down"), .commit 0, .start 1] ++
        .replicate 3 (.claim 1) ++ [.send 1 .ok, .send 1 .ok, .commit 1])).map
      (fun s => s.log.map (·.seq)) = some [1, 2, 3] := by
    decide +kernel
  obtain ⟨s, hs, hlog⟩ := Option.map_eq_some_iff.1 hrun
  have hreach := Machine.runOf_of_execOf _ hs
  exact ⟨s, hreach, hlog, firstInOrder_of_run hreach⟩

/-- Relay 0 has claimed event 1 and not sent it when event 2 commits; relay 1 skips the locked row,
claims event 2 and sends it. -/
def skipLocked : List (RelayLabel Unit) :=
  [commitSample 1, .start 0, .claim 0, .claim 0, commitSample 2, .start 1, .claim 1, .claim 1,
    .claim 1, .send 1 .ok, .send 0 .ok]

/-- Event 2 of the key is on the broker before event 1. -/
theorem not_firstInOrder_after_skip :
    ∃ s : RelayState Unit, (relays 100).Run RelayState.empty s ∧
      s.log = [⟨"a", 2⟩, ⟨"a", 1⟩] ∧ ¬ FirstInOrder s.log := by
  have hrun : ((relays 100).exec (RelayState.empty : RelayState Unit) skipLocked).map
      (fun s => s.log) = some [⟨"a", 2⟩, ⟨"a", 1⟩] := by
    decide +kernel
  obtain ⟨s, hs, hlog⟩ := Option.map_eq_some_iff.1 hrun
  refine ⟨s, Machine.run_of_exec _ hs, hlog, fun horder => ?_⟩
  have hlt := horder [⟨"a", 2⟩] ⟨"a", 1⟩ [] hlog (by decide) ⟨"a", 2⟩ List.mem_cons_self rfl
  exact absurd hlt (by decide)

end SmartLogistics.Platform
