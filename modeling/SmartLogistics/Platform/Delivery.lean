import SmartLogistics.Platform.Outbox

/-!
# Business transactions and relays

Business transactions add events, insert them and commit or roll back (`Writer`), while any number
of relays publish the committed rows, fail and crash (`delivery`). Beside the state stand the facts
a statement about deliveries needs: what became of each event (`added`), what the broker has
confirmed (`sends`), and what each execution of `run_once` did (`ended`). `Reliable` is what is to
hold of them.

`Written` is the invariant of the transactions: whatever the relays do to a row, the events of the
committed transactions are those of the rows, one each.
-/

set_option autoImplicit false

namespace SmartLogistics.Platform

open SmartLogistics.Library RelayState

variable {Payload : Type}

/-! ## Business transactions -/

/-- What `add_event` is given, with the id and the time its envelope draws. -/
structure NewEvent (Payload : Type) where
  eventId : Nat
  occurredAt : Nat
  topic : String
  eventType : String
  key : String
  producer : String
  payload : Payload
  traceparent : Option String

/-- The row of an event; `seq` is drawn by its `INSERT`. -/
def NewEvent.row (event : NewEvent Payload) (seq : Nat) : OutboxEvent Payload :=
  addEvent event.topic event.eventType event.key event.producer event.payload event.traceparent seq
    event.eventId event.occurredAt

/-- An open transaction: the events it has added and not inserted, and the rows it has inserted. -/
structure Writer (Payload : Type) where
  staged : List (NewEvent Payload)
  inserted : List (OutboxEvent Payload)

/-- What became of the transaction that added an event. -/
inductive Fate
  | opened (t : Nat)
  | committed
  | rolledBack
  deriving DecidableEq

/-! ## Executions of `run_once` -/

/-- What is sent for a row. -/
structure BrokerMessage (Payload : Type) where
  topic : String
  key : String
  envelope : EventEnvelope Payload

/-- The message that carries the event to the broker. -/
def OutboxEvent.message (row : OutboxEvent Payload) : BrokerMessage Payload :=
  ⟨row.topic, row.key, row.envelope⟩

/-- The count of an execution, and its sends so far with what they answered. -/
structure Execution (Payload : Type) where
  published : Nat
  attempts : List (OutboxEvent Payload × Bool)

/-- An execution that has ended: its sends, what it returned unless it crashed, and how many rows
its commit marked as published. -/
structure Ended (Payload : Type) where
  attempts : List (OutboxEvent Payload × Bool)
  returned : Option Nat
  marked : Nat

/-- How many rows were pending and are published. -/
def newlyMarked (rows rows' : List (OutboxEvent Payload)) : Nat :=
  rows.countP fun r => r.isPending && rows'.any fun r' => r'.seq == r.seq && !r'.isPending

/-! ## The machine -/

/-- The outbox with its relays, the open transactions, and what the statement is about. -/
structure Delivery (Payload : Type) where
  nextSeq : Nat
  nextId : Nat
  outbox : RelayState Payload
  writers : Nat → Option (Writer Payload)
  executions : Nat → Execution Payload
  /-- Every event added so far. -/
  added : Nat → Option (NewEvent Payload × Fate)
  /-- The messages whose send succeeded. -/
  sends : List (BrokerMessage Payload)
  ended : List (Ended Payload)

/-- A scheduler choice. -/
inductive DeliveryLabel (Payload : Type)
  | begin (t : Nat)
  | add (t : Nat) (topic eventType key producer : String) (payload : Payload)
      (traceparent : Option String)
  /-- The flush of the next event. -/
  | insert (t : Nat)
  | commit (t : Nat)
  | rollback (t : Nat)
  /-- A step of a relay, or time passes. -/
  | relay (l : RelayLabel Payload)

namespace Delivery

/-- Nothing written and nothing sent. -/
def empty : Delivery Payload where
  nextSeq := 1
  nextId := 1
  outbox := .empty
  writers := fun _ => none
  executions := fun _ => ⟨0, []⟩
  added := fun _ => none
  sends := []
  ended := []

/-- The events, once transaction `t` has ended. -/
def settle (s : Delivery Payload) (t : Nat) (fate : Fate) :
    Nat → Option (NewEvent Payload × Fate) :=
  fun id => (s.added id).map fun (event, old) => (event, if old = .opened t then fate else old)

/-- A step of a relay that leads to `outbox`, as its execution sees it. -/
def observe (s : Delivery Payload) (outbox : RelayState Payload) :
    RelayLabel Payload → Delivery Payload
  | .start t =>
    { s with
      outbox := outbox
      executions := Function.update s.executions t ⟨0, []⟩ }
  | .send t answer =>
    match s.outbox.relays t, answer with
    | some (.sending (row :: _) _), .ok =>
      { s with
        outbox := outbox
        executions := Function.update s.executions t
          ⟨(s.executions t).published + 1, (s.executions t).attempts ++ [(row, true)]⟩
        sends := s.sends ++ [row.message] }
    | some (.sending (row :: _) _), _ =>
      { s with
        outbox := outbox
        executions := Function.update s.executions t
          ⟨(s.executions t).published, (s.executions t).attempts ++ [(row, false)]⟩ }
    | _, _ => { s with outbox := outbox }
  | .commit t =>
    { s with
      outbox := outbox
      ended := s.ended ++ [⟨(s.executions t).attempts, some (s.executions t).published,
        newlyMarked s.outbox.rows outbox.rows⟩] }
  | .crash t =>
    { s with
      outbox := outbox
      ended := s.ended ++ [⟨(s.executions t).attempts, none, 0⟩] }
  | _ => { s with outbox := outbox }

end Delivery

/-- One scheduler choice. -/
def deliveryNext (batchSize : Nat) (s : Delivery Payload) :
    DeliveryLabel Payload → Option (Delivery Payload)
  | .begin t =>
    match s.writers t with
    | none => some { s with writers := Function.update s.writers t (some ⟨[], []⟩) }
    | some _ => none
  | .add t topic eventType key producer payload traceparent =>
    match s.writers t with
    | some writer =>
      let event : NewEvent Payload :=
        { eventId := s.nextId
          occurredAt := s.outbox.clock
          topic := topic
          eventType := eventType
          key := key
          producer := producer
          payload := payload
          traceparent := traceparent }
      some { s with
        nextId := s.nextId + 1
        writers := Function.update s.writers t
          (some { writer with staged := writer.staged ++ [event] })
        added := Function.update s.added s.nextId (some (event, .opened t)) }
    | none => none
  | .insert t =>
    match s.writers t with
    | some ⟨event :: staged, inserted⟩ =>
      some { s with
        nextSeq := s.nextSeq + 1
        writers := Function.update s.writers t
          (some ⟨staged, inserted ++ [event.row s.nextSeq]⟩) }
    | _ => none
  | .commit t =>
    match s.writers t with
    | some ⟨[], inserted⟩ =>
      some { s with
        outbox := { s.outbox with rows := s.outbox.rows ++ inserted }
        writers := Function.update s.writers t none
        added := s.settle t .committed }
    | _ => none
  | .rollback t =>
    match s.writers t with
    | some _ =>
      some { s with
        writers := Function.update s.writers t none
        added := s.settle t .rolledBack }
    | none => none
  | .relay l =>
    match l with
    | .commitEvent _ => none
    | l => (relayNext batchSize s.outbox l).map fun outbox => s.observe outbox l

/-- All interleavings of the transactions and the relays. -/
def delivery (batchSize : Nat) : Machine (Delivery Payload) (DeliveryLabel Payload) :=
  ⟨deliveryNext batchSize⟩

/-! ## What is to hold -/

/-- The row is the one that was added, whatever the relays wrote to it. -/
def OutboxEvent.Carries (row : OutboxEvent Payload) (event : NewEvent Payload) : Prop :=
  row = { event.row row.seq with
    publishedAt := row.publishedAt
    attempts := row.attempts
    lastError := row.lastError }

/-- No row is sent after a failed one. -/
def StopsAtFailure (attempts : List (OutboxEvent Payload × Bool)) : Prop :=
  ∀ attempt ∈ attempts.dropLast, attempt.2 = true

/-- The outbox has lost nothing and marked nothing unsent. -/
structure Reliable (s : Delivery Payload) : Prop where
  committed : ∀ id event, s.added id = some (event, .committed) →
    ∃ row, s.outbox.rows.filter (·.eventId == id) = [row] ∧ row.Carries event
  rolledBack : ∀ id event, s.added id = some (event, .rolledBack) →
    s.outbox.rows.filter (·.eventId == id) = []
  marked : ∀ row ∈ s.outbox.rows, row.publishedAt ≠ none → row.message ∈ s.sends
  /-- It is in the next snapshot, and only an open execution can have it locked. -/
  selectable : ∀ row ∈ s.outbox.rows, row.message ∉ s.sends →
    row.seq ∈ Table.keysWhere OutboxEvent.seq OutboxEvent.isPending s.outbox.rows ∧
      ∀ t, s.outbox.locks row.seq = some t → s.outbox.relays t ≠ none
  stops : ∀ run ∈ s.ended, StopsAtFailure run.attempts
  stopsOpen : ∀ t, s.outbox.relays t ≠ none → StopsAtFailure (s.executions t).attempts
  counted : ∀ run ∈ s.ended, ∀ n, run.returned = some n → n = run.marked

/-! ## Transactions -/

/-- The row or event is in the outbox, or inserted by an open transaction. -/
def Present (s : Delivery Payload) (x : OutboxEvent Payload) : Prop :=
  x ∈ s.outbox.rows ∨ ∃ t writer, s.writers t = some writer ∧ x ∈ writer.inserted

/-- The ids of the events an open transaction has added. -/
def Writer.ids (writer : Writer Payload) : List Nat :=
  writer.staged.map (·.eventId) ++ writer.inserted.map (·.eventId)

/-- An open transaction has the events it has added, each once. -/
structure WriterOk (s : Delivery Payload) (t : Nat) (writer : Writer Payload) : Prop where
  nodup : writer.ids.Nodup
  staged : ∀ event ∈ writer.staged, s.added event.eventId = some (event, .opened t)
  inserted : ∀ row ∈ writer.inserted, ∃ event seq, row = event.row seq ∧
    s.added event.eventId = some (event, .opened t)
  complete : ∀ id event, s.added id = some (event, .opened t) → id ∈ writer.ids

/-- The invariant of the transactions and the rows. -/
structure Written (s : Delivery Payload) : Prop where
  nodup : (s.outbox.rows.map (·.eventId)).Nodup
  carried : ∀ row ∈ s.outbox.rows, ∃ event, row.Carries event ∧
    s.added row.eventId = some (event, .committed)
  complete : ∀ id event, s.added id = some (event, .committed) →
    ∃ row ∈ s.outbox.rows, row.eventId = id
  writers : ∀ t writer, s.writers t = some writer → WriterOk s t writer
  opened : ∀ id event t, s.added id = some (event, .opened t) → s.writers t ≠ none
  fresh : ∀ id, s.added id ≠ none → id < s.nextId
  drawn : ∀ x, Present s x → x.seq < s.nextSeq
  distinct : ∀ x y, Present s x → Present s y → x.seq = y.seq → x.eventId = y.eventId

theorem written_empty : Written (.empty : Delivery Payload) where
  nodup := List.nodup_nil
  carried := fun _ h => absurd h List.not_mem_nil
  complete := fun _ _ h => nomatch h
  writers := fun _ _ h => nomatch h
  opened := fun _ _ _ h => nomatch h
  fresh := fun _ h => absurd rfl h
  drawn := by
    rintro x (hx | ⟨t, writer, ht, -⟩)
    · exact absurd hx List.not_mem_nil
    · cases ht
  distinct := by
    rintro x y (hx | ⟨t, writer, ht, -⟩)
    · exact absurd hx List.not_mem_nil
    · cases ht

/-- Rows have one `seq` each. -/
theorem Written.keyed {s : Delivery Payload} (h : Written s) :
    Table.Keyed OutboxEvent.seq s.outbox.rows := by
  have hids : s.outbox.rows.Pairwise fun a b => a.eventId ≠ b.eventId := List.pairwise_map.1 h.nodup
  rw [Table.Keyed, List.Nodup, List.pairwise_map]
  exact hids.imp_of_mem fun ha hb hne heq =>
    hne (h.distinct _ _ (Or.inl ha) (Or.inl hb) heq)

/-- The transactions do not see what the relays write. -/
theorem Written.congr {s s' : Delivery Payload} (h : Written s)
    {f : OutboxEvent Payload → OutboxEvent Payload}
    (hrows : s'.outbox.rows = s.outbox.rows.map f) (hid : ∀ row, (f row).eventId = row.eventId)
    (hseq : ∀ row, (f row).seq = row.seq)
    (hcarries : ∀ row event, row.Carries event → (f row).Carries event)
    (hwriters : s'.writers = s.writers) (hadded : s'.added = s.added)
    (hnextSeq : s'.nextSeq = s.nextSeq) (hnextId : s'.nextId = s.nextId) : Written s' := by
  -- what is present was present, with the same keys
  have hpresent : ∀ x, Present s' x → ∃ y, Present s y ∧ y.seq = x.seq ∧ y.eventId = x.eventId := by
    rintro x (hx | ⟨t, writer, ht, hx⟩)
    · rw [hrows] at hx
      obtain ⟨y, hy, rfl⟩ := List.mem_map.1 hx
      exact ⟨y, Or.inl hy, (hseq y).symm, (hid y).symm⟩
    · rw [hwriters] at ht
      exact ⟨x, Or.inr ⟨t, writer, ht, hx⟩, rfl, rfl⟩
  refine ⟨?_, ?_, ?_, ?_, ?_, ?_, ?_, ?_⟩
  · rw [hrows, List.map_map, show (fun x => x.eventId) ∘ f = fun x => x.eventId from funext hid]
    exact h.nodup
  · intro row hrow
    rw [hrows] at hrow
    obtain ⟨y, hy, rfl⟩ := List.mem_map.1 hrow
    obtain ⟨event, hcarried, hadd⟩ := h.carried y hy
    exact ⟨event, hcarries y event hcarried, by rw [hadded, hid, hadd]⟩
  · intro id event hadd
    rw [hadded] at hadd
    obtain ⟨row, hrow, rfl⟩ := h.complete id event hadd
    exact ⟨f row, hrows ▸ List.mem_map_of_mem hrow, hid row⟩
  · intro t writer ht
    rw [hwriters] at ht
    obtain ⟨hnodup, hstaged, hinserted, hcomplete⟩ := h.writers t writer ht
    exact ⟨hnodup, hadded ▸ hstaged, hadded ▸ hinserted, hadded ▸ hcomplete⟩
  · rw [hadded, hwriters]
    exact h.opened
  · rw [hadded, hnextId]
    exact h.fresh
  · intro x hx
    obtain ⟨y, hy, heq, -⟩ := hpresent x hx
    rw [hnextSeq, ← heq]
    exact h.drawn y hy
  · intro x x' hx hx' heq
    obtain ⟨y, hy, hyseq, hyid⟩ := hpresent x hx
    obtain ⟨y', hy', hyseq', hyid'⟩ := hpresent x' hx'
    rw [← hyid, ← hyid']
    exact h.distinct y y' hy hy' (hyseq.trans (heq.trans hyseq'.symm))

/-- A step of one transaction leaves the others alone, if it leaves their events alone. -/
theorem WriterOk.congr {s s' : Delivery Payload} {t : Nat} {writer : Writer Payload}
    (h : WriterOk s t writer)
    (hkept : ∀ id event, s.added id = some (event, .opened t) →
      s'.added id = some (event, .opened t))
    (hnew : ∀ id event, s'.added id = some (event, .opened t) →
      s.added id = some (event, .opened t)) : WriterOk s' t writer where
  nodup := h.nodup
  staged := fun event hevent => hkept _ _ (h.staged event hevent)
  inserted := by
    intro row hrow
    obtain ⟨event, seq, heq, hadd⟩ := h.inserted row hrow
    exact ⟨event, seq, heq, hkept _ _ hadd⟩
  complete := fun id event hadd => h.complete id event (hnew id event hadd)

section Transactions

variable {s : Delivery Payload} {t : Nat}

/-- What is present after transaction `t` has moved on, with the rows `rows` committed. -/
theorem present_update {s' : Delivery Payload} {o : Option (Writer Payload)}
    {x : OutboxEvent Payload}
    (hwriters : s'.writers = Function.update s.writers t o) (hx : Present s' x) :
    x ∈ s'.outbox.rows ∨ (∃ writer, o = some writer ∧ x ∈ writer.inserted) ∨
      ∃ u writer, u ≠ t ∧ s.writers u = some writer ∧ x ∈ writer.inserted := by
  rcases hx with hx | ⟨u, writer, hu, hx⟩
  · exact Or.inl hx
  · rw [hwriters] at hu
    rcases update_option_eq_some hu with ⟨-, ho⟩ | ⟨hut, hold⟩
    · exact Or.inr (Or.inl ⟨writer, ho, hx⟩)
    · exact Or.inr (Or.inr ⟨u, writer, hut, hold, hx⟩)

theorem settle_eq_some {fate fate' : Fate} {id : Nat} {event : NewEvent Payload} :
    s.settle t fate id = some (event, fate') ↔
      ∃ old, s.added id = some (event, old) ∧ fate' = if old = .opened t then fate else old := by
  simp only [Delivery.settle, Option.map_eq_some_iff, Prod.exists, Prod.mk.injEq]
  constructor
  · rintro ⟨event', old, hadd, rfl, rfl⟩
    exact ⟨old, hadd, rfl⟩
  · rintro ⟨old, hadd, rfl⟩
    exact ⟨event, old, hadd, rfl, rfl⟩

/-- The end of a transaction is none of another one's events. -/
theorem settle_opened {fate : Fate} (hfate : ∀ u, fate ≠ .opened u) {u id : Nat}
    {event : NewEvent Payload} : s.settle t fate id = some (event, .opened u) ↔
      u ≠ t ∧ s.added id = some (event, .opened u) := by
  rw [settle_eq_some]
  constructor
  · rintro ⟨old, hadd, heq⟩
    split at heq
    · exact absurd heq.symm (hfate u)
    · rename_i hold
      rw [← heq] at hadd hold
      exact ⟨fun hut => hold (by rw [hut]), hadd⟩
  · rintro ⟨hut, hadd⟩
    exact ⟨_, hadd, (if_neg fun heq => hut (Fate.opened.inj heq)).symm⟩

theorem Written.begin (h : Written s) (ht : s.writers t = none) :
    Written { s with writers := Function.update s.writers t (some ⟨[], []⟩) } := by
  have hpresent : ∀ x, Present { s with writers := Function.update s.writers t (some ⟨[], []⟩) } x →
      Present s x := by
    intro x hx
    rcases present_update rfl hx with hx | ⟨writer, ho, hx⟩ | ⟨u, writer, -, hu, hx⟩
    · exact Or.inl hx
    · cases ho
      exact absurd hx List.not_mem_nil
    · exact Or.inr ⟨u, writer, hu, hx⟩
  refine ⟨h.nodup, h.carried, h.complete, fun u writer hu => ?_, fun id event u hadd => ?_, h.fresh,
    fun x hx => h.drawn x (hpresent x hx),
    fun x y hx hy => h.distinct x y (hpresent x hx) (hpresent y hy)⟩
  · rcases update_eq_some hu with ⟨rfl, rfl⟩ | ⟨-, hold⟩
    · -- a transaction that was not open has added nothing
      exact ⟨List.nodup_nil, fun _ h => absurd h List.not_mem_nil,
        fun _ h => absurd h List.not_mem_nil, fun id event hadd =>
          absurd ht (h.opened id event _ hadd)⟩
    · exact (h.writers u writer hold).congr (fun _ _ h => h) fun _ _ h => h
  · by_cases hut : u = t
    · subst hut
      simp
    · simp only [Function.update_of_ne hut]
      exact h.opened id event u hadd

theorem Written.add (h : Written s) {writer : Writer Payload} (ht : s.writers t = some writer)
    {event : NewEvent Payload} (hid : event.eventId = s.nextId) :
    Written { s with
      nextId := s.nextId + 1
      writers := Function.update s.writers t
        (some { writer with staged := writer.staged ++ [event] })
      added := Function.update s.added s.nextId (some (event, .opened t)) } := by
  -- the id is new
  have hnew : s.added s.nextId = none := by
    by_contra hne
    exact absurd (h.fresh _ hne) (Nat.lt_irrefl _)
  have hother : ∀ {id : Nat} {value : NewEvent Payload × Fate}, s.added id = some value →
      id ≠ s.nextId := by
    rintro id value hadd rfl
    rw [hnew] at hadd
    cases hadd
  have hkept : ∀ {id : Nat} {value : NewEvent Payload × Fate}, s.added id = some value →
      Function.update s.added s.nextId (some (event, .opened t)) id = some value :=
    fun hadd => (Function.update_of_ne (hother hadd) ..).trans hadd
  have hpresent : ∀ x, Present { s with
      nextId := s.nextId + 1
      writers := Function.update s.writers t
        (some { writer with staged := writer.staged ++ [event] })
      added := Function.update s.added s.nextId (some (event, .opened t)) } x → Present s x := by
    intro x hx
    rcases present_update rfl hx with hx | ⟨writer', ho, hx⟩ | ⟨u, writer', -, hu, hx⟩
    · exact Or.inl hx
    · cases ho
      exact Or.inr ⟨t, writer, ht, hx⟩
    · exact Or.inr ⟨u, writer', hu, hx⟩
  refine ⟨h.nodup, fun row hrow => ?_, fun id event' hadd => ?_, fun u writer' hu => ?_,
    fun id event' u hadd => ?_, fun id hadd => ?_, fun x hx => h.drawn x (hpresent x hx),
    fun x y hx hy => h.distinct x y (hpresent x hx) (hpresent y hy)⟩
  · obtain ⟨event', hcarries, hadd⟩ := h.carried row hrow
    exact ⟨event', hcarries, hkept hadd⟩
  · rcases update_eq_some hadd with ⟨-, heq⟩ | ⟨-, hold⟩
    · cases heq
    · exact h.complete id event' hold
  · rcases update_eq_some hu with ⟨rfl, rfl⟩ | ⟨hut, hold⟩
    · obtain ⟨hnodup, hstaged, hinserted, hcomplete⟩ := h.writers _ writer ht
      have hperm : ({ writer with staged := writer.staged ++ [event] } : Writer Payload).ids.Perm
          (s.nextId :: writer.ids) := by
        simp only [Writer.ids, List.map_append, List.map_cons, List.map_nil, hid, List.append_assoc]
        exact List.perm_middle
      refine ⟨hperm.nodup_iff.2 (List.nodup_cons.2 ⟨fun hmem => ?_, hnodup⟩), fun e he => ?_,
        fun row hrow => ?_, fun id e hadd => hperm.mem_iff.2 ?_⟩
      · -- every id there is was drawn before
        rcases List.mem_append.1 hmem with hmem | hmem
        · obtain ⟨e, he, heq⟩ := List.mem_map.1 hmem
          exact hother (hstaged e he) heq
        · obtain ⟨row, hrow, heq⟩ := List.mem_map.1 hmem
          obtain ⟨e, seq, rfl, hadd⟩ := hinserted row hrow
          exact hother hadd heq
      · rcases List.mem_append.1 he with he | he
        · exact hkept (hstaged e he)
        · rw [List.mem_singleton.1 he, hid]
          exact Function.update_self ..
      · obtain ⟨e, seq, heq, hadd⟩ := hinserted row hrow
        exact ⟨e, seq, heq, hkept hadd⟩
      · rcases update_eq_some hadd with ⟨heq, -⟩ | ⟨-, hold⟩
        · exact heq ▸ List.mem_cons_self
        · exact List.mem_cons_of_mem _ (hcomplete id e hold)
    · refine (h.writers u writer' hold).congr (fun _ _ hadd => hkept hadd) fun id e hadd => ?_
      rcases update_eq_some hadd with ⟨-, heq⟩ | ⟨-, hold'⟩
      · cases heq
        exact absurd rfl hut
      · exact hold'
  · by_cases hut : u = t
    · subst hut
      simp
    · simp only [Function.update_of_ne hut]
      rcases update_eq_some hadd with ⟨-, heq⟩ | ⟨-, hold⟩
      · cases heq
        exact absurd rfl hut
      · exact h.opened id event' u hold
  · by_cases heq : id = s.nextId
    · exact heq ▸ Nat.lt_succ_self _
    · simp only [Function.update_of_ne heq] at hadd
      exact (h.fresh id hadd).trans (Nat.lt_succ_self _)

theorem Written.insert (h : Written s) {event : NewEvent Payload} {staged : List (NewEvent Payload)}
    {inserted : List (OutboxEvent Payload)} (ht : s.writers t = some ⟨event :: staged, inserted⟩) :
    Written { s with
      nextSeq := s.nextSeq + 1
      writers := Function.update s.writers t
        (some ⟨staged, inserted ++ [event.row s.nextSeq]⟩) } := by
  obtain ⟨hnodup, hstaged, hinserted, hcomplete⟩ := h.writers t _ ht
  have hpresent : ∀ x, Present { s with
      nextSeq := s.nextSeq + 1
      writers := Function.update s.writers t
        (some ⟨staged, inserted ++ [event.row s.nextSeq]⟩) } x →
      Present s x ∨ x = event.row s.nextSeq := by
    intro x hx
    rcases present_update rfl hx with hx | ⟨writer, ho, hx⟩ | ⟨u, writer, -, hu, hx⟩
    · exact Or.inl (Or.inl hx)
    · cases ho
      rcases List.mem_append.1 hx with hx | hx
      · exact Or.inl (Or.inr ⟨t, _, ht, hx⟩)
      · exact Or.inr (List.mem_singleton.1 hx)
    · exact Or.inl (Or.inr ⟨u, writer, hu, hx⟩)
  have hseq : (event.row s.nextSeq).seq = s.nextSeq := rfl
  refine ⟨h.nodup, h.carried, h.complete, fun u writer hu => ?_, fun id e u hadd => ?_, h.fresh,
    fun x hx => ?_, fun x y hx hy heq => ?_⟩
  · rcases update_eq_some hu with ⟨rfl, rfl⟩ | ⟨-, hold⟩
    · have hperm : (⟨staged, inserted ++ [event.row s.nextSeq]⟩ : Writer Payload).ids.Perm
          (⟨event :: staged, inserted⟩ : Writer Payload).ids := by
        simp only [Writer.ids, List.map_append, List.map_cons, List.map_nil, ← List.append_assoc]
        exact List.perm_append_singleton _ _
      refine ⟨hperm.nodup_iff.2 hnodup, fun e he => hstaged e (List.mem_cons_of_mem _ he),
        fun row hrow => ?_, fun id e hadd => hperm.mem_iff.2 (hcomplete id e hadd)⟩
      rcases List.mem_append.1 hrow with hrow | hrow
      · exact hinserted row hrow
      · exact ⟨event, s.nextSeq, List.mem_singleton.1 hrow, hstaged event List.mem_cons_self⟩
    · exact (h.writers u writer hold).congr (fun _ _ h => h) fun _ _ h => h
  · by_cases hut : u = t
    · subst hut
      simp
    · simp only [Function.update_of_ne hut]
      exact h.opened id e u hadd
  · rcases hpresent x hx with hx | rfl
    · exact (h.drawn x hx).trans (Nat.lt_succ_self _)
    · exact Nat.lt_succ_self _
  · rcases hpresent x hx with hx | rfl <;> rcases hpresent y hy with hy | rfl
    · exact h.distinct x y hx hy heq
    · -- the sequence is ahead of every row there is
      have hlt := h.drawn x hx
      omega
    · have hlt := h.drawn y hy
      omega
    · rfl

/-- The end of a transaction: its rows join the committed ones, or are forgotten. -/
theorem Written.settle (h : Written s) {writer : Writer Payload} (ht : s.writers t = some writer)
    {fate : Fate} {rows : List (OutboxEvent Payload)}
    (hfate : fate = .committed ∧ writer.staged = [] ∧ rows = writer.inserted ∨
      fate = .rolledBack ∧ rows = []) :
    Written { s with
      outbox := { s.outbox with rows := s.outbox.rows ++ rows }
      writers := Function.update s.writers t none
      added := s.settle t fate } := by
  obtain ⟨hnodup, hstaged, hinserted, hcomplete⟩ := h.writers t _ ht
  have hclosed : ∀ u, fate ≠ .opened u := by
    rintro u rfl
    rcases hfate with ⟨heq, -⟩ | ⟨heq, -⟩ <;> cases heq
  have hrows : ∀ x ∈ rows, x ∈ writer.inserted ∧ fate = .committed := by
    intro x hx
    rcases hfate with ⟨hfate, -, rfl⟩ | ⟨-, rfl⟩
    · exact ⟨hx, hfate⟩
    · exact absurd hx List.not_mem_nil
  have hpresent : ∀ x, Present { s with
      outbox := { s.outbox with rows := s.outbox.rows ++ rows }
      writers := Function.update s.writers t none
      added := s.settle t fate } x → Present s x := by
    intro x hx
    rcases present_update rfl hx with hx | ⟨writer', ho, -⟩ | ⟨u, writer', -, hu, hx⟩
    · rcases List.mem_append.1 hx with hx | hx
      · exact Or.inl hx
      · exact Or.inr ⟨t, writer, ht, (hrows x hx).1⟩
    · cases ho
    · exact Or.inr ⟨u, writer', hu, hx⟩
  refine ⟨?_, fun row hrow => ?_, fun id event hadd => ?_, fun u writer' hu => ?_,
    fun id event u hadd => ?_, fun id hadd => ?_, fun x hx => h.drawn x (hpresent x hx),
    fun x y hx hy => h.distinct x y (hpresent x hx) (hpresent y hy)⟩
  · rw [List.map_append, List.nodup_append']
    refine ⟨h.nodup, ?_, fun id hid hid' => ?_⟩
    · rcases hfate with ⟨-, -, rfl⟩ | ⟨-, rfl⟩
      · exact hnodup.of_append_right
      · exact List.nodup_nil
    · -- a committed event is not one that the transaction has added
      obtain ⟨row, hrow, rfl⟩ := List.mem_map.1 hid
      obtain ⟨row', hrow', heq⟩ := List.mem_map.1 hid'
      obtain ⟨event, -, hadd⟩ := h.carried row hrow
      obtain ⟨event', seq, rfl, hadd'⟩ := hinserted row' (hrows row' hrow').1
      rw [← heq] at hadd
      have hsame := hadd.symm.trans hadd'
      cases hsame
  · rcases List.mem_append.1 hrow with hrow | hrow
    · obtain ⟨event, hcarries, hadd⟩ := h.carried row hrow
      exact ⟨event, hcarries, settle_eq_some.2 ⟨_, hadd, rfl⟩⟩
    · obtain ⟨hmem, rfl⟩ := hrows row hrow
      obtain ⟨event, seq, rfl, hadd⟩ := hinserted row hmem
      exact ⟨event, rfl, settle_eq_some.2 ⟨_, hadd, (if_pos rfl).symm⟩⟩
  · obtain ⟨old, hold, heq⟩ := settle_eq_some.1 hadd
    split at heq
    · rename_i hopened
      subst hopened
      rcases hfate with ⟨-, hnone, rfl⟩ | ⟨rfl, -⟩
      · have hmem := hcomplete id event hold
        rw [Writer.ids, hnone, List.map_nil, List.nil_append] at hmem
        obtain ⟨row, hrow, hid⟩ := List.mem_map.1 hmem
        exact ⟨row, List.mem_append_right _ hrow, hid⟩
      · cases heq
    · obtain ⟨row, hrow, hid⟩ := h.complete id event (heq ▸ hold)
      exact ⟨row, List.mem_append_left _ hrow, hid⟩
  · rcases update_option_eq_some hu with ⟨-, hnone⟩ | ⟨hut, hold⟩
    · cases hnone
    · exact (h.writers u writer' hold).congr
        (fun _ _ hadd => (settle_opened hclosed).2 ⟨hut, hadd⟩)
        fun _ _ hadd => ((settle_opened hclosed).1 hadd).2
  · obtain ⟨hut, hold⟩ := (settle_opened hclosed).1 hadd
    simp only [Function.update_of_ne hut]
    exact h.opened id event u hold
  · refine h.fresh id fun hnone => hadd ?_
    simp only [Delivery.settle, hnone, Option.map_none]

end Transactions

end SmartLogistics.Platform
