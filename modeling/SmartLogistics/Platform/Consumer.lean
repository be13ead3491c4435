import SmartLogistics.Platform.Outbox

/-!
# Consuming events

`EventProcessor.process` records an event's id in `processed_events` in the transaction that runs
the event's handler; `consumers` runs any number of pods of a consumer group, which fetch messages,
retry a handler that raises, and commit their offsets once a batch is handled. Pods crash and
partitions move at any time, so messages are delivered again and to several pods at once.
-/

set_option autoImplicit false

namespace SmartLogistics.Platform

open SmartLogistics.Library

variable {Db Row ε α Payload Raw : Type}

/-- A row of `processed_events`. -/
structure ProcessedEvent where
  consumer : String
  eventId : Nat
  eventType : String
  processedAt : Nat
  deriving DecidableEq, Repr

/-- The consumer's database: the tables of its handlers, and `processed_events`. -/
structure ConsumerDb (Db : Type) where
  tables : Db
  processed : List ProcessedEvent

/-- What a transaction locks: the primary key it inserts, or a row of the handlers' tables. -/
inductive ConsumerRow (Row : Type)
  | processed (consumer : String) (eventId : Nat)
  | table (r : Row)
  deriving DecidableEq

namespace ConsumerDb

/-- The event is in `processed_events` for this consumer. -/
def isProcessed (db : ConsumerDb Db) (consumer : String) (eventId : Nat) : Bool :=
  db.processed.any fun row => row.consumer == consumer && row.eventId == eventId

/-- `INSERT … ON CONFLICT DO NOTHING`. -/
def insertProcessed (db : ConsumerDb Db) (row : ProcessedEvent) : ConsumerDb Db :=
  if db.isProcessed row.consumer row.eventId then db
  else { db with processed := db.processed ++ [row] }

/-- A write to the handlers' tables. -/
def onTables (f : Db → Except ε Db) (db : ConsumerDb Db) : Except ε (ConsumerDb Db) :=
  (f db.tables).map fun tables => { db with tables := tables }

end ConsumerDb

/-- A handler's body as part of a transaction on the consumer's database. -/
def onTables : Txn Db Row ε α → Txn (ConsumerDb Db) (ConsumerRow Row) ε α
  | .pure a => .pure a
  | .raise e => .raise e
  | .utcnow k => .utcnow fun n => onTables (k n)
  | .uuid4 k => .uuid4 fun n => onTables (k n)
  | .query k => .query fun db => onTables (k db.tables)
  | .lock r k => .lock (.table r) (onTables k)
  | .flush f k => .flush (ConsumerDb.onTables f) (onTables k)

/-- `EventProcessor`: the name of the consumer, its handlers by event type, and the topics it
reads. -/
structure EventProcessor (Db Row ε Payload : Type) where
  name : String
  handlers : String → Option (EventEnvelope Payload → Txn Db Row ε Unit)
  topics : List String

/-- Handle one event. Returns `false` when it was ignored or a duplicate. -/
def EventProcessor.process (self : EventProcessor Db Row ε Payload)
    (envelope : EventEnvelope Payload) : Txn (ConsumerDb Db) (ConsumerRow Row) ε Bool :=
  match self.handlers envelope.eventType with
  | none => .pure false
  | some handler =>
    -- the insert waits for another transaction that inserts the same key, then sees what it left
    .lock (.processed self.name envelope.eventId) <| .query fun db =>
      if db.isProcessed self.name envelope.eventId then .pure false
      else .utcnow fun now =>
        .flush (fun db => .ok (db.insertProcessed
            { consumer := self.name
              eventId := envelope.eventId
              eventType := envelope.eventType
              processedAt := now })) <|
          (onTables (handler envelope)).bind fun _ => .pure true

/-- The transactions of a processor. -/
def EventProcessor.system (self : EventProcessor Db Row ε Payload) :
    System (ConsumerDb Db) (ConsumerRow Row) ε Bool (EventEnvelope Payload) Empty where
  program := self.process
  env := fun e => e.elim

/-! ## Pods -/

/-- A partition of a topic. -/
structure TopicPartition where
  topic : String
  partition : Nat
  deriving DecidableEq, Repr

/-- A message: its partition and its offset. -/
abbrev Message := TopicPartition × Nat

/-- What the pods of a consumer group run, and the messages there are to consume. -/
structure ConsumerGroup (Db Row ε Payload Raw : Type) where
  processor : EventProcessor Db Row ε Payload
  maxAttempts : Nat
  fromBytes : Raw → Option (EventEnvelope Payload)
  messages : TopicPartition → List Raw

/-- The message at an offset, if it has been sent. -/
def ConsumerGroup.raw (g : ConsumerGroup Db Row ε Payload Raw) (m : Message) : Option Raw :=
  (g.messages m.1)[m.2]?

/-- The envelope of a message, unless the message does not parse. -/
def ConsumerGroup.envelope (g : ConsumerGroup Db Row ε Payload Raw) (m : Message) :
    Option (EventEnvelope Payload) :=
  (g.raw m).bind g.fromBytes

/-- Where the loop of `KafkaConsumerRunner.run` stands. -/
inductive RunnerPhase
  /-- In `getmany`, which has gathered `batch` so far. -/
  | polling (batch : List Message)
  /-- `todo` is left of the batch; the handler of its first message has failed `failures` times. -/
  | handling (todo : List Message) (failures : Nat)

/-- The messages a pod has fetched and not handled. -/
def RunnerPhase.messages : RunnerPhase → List Message
  | .polling batch => batch
  | .handling todo _ => todo

/-- A pod: the next offset of each partition it is assigned, and its loop. -/
structure Pod where
  positions : TopicPartition → Option Nat
  phase : RunnerPhase

/-- What the pods log. -/
inductive LogRecord
  | unparseable (m : Message)
  | failed (eventId attempt : Nat)
  | gaveUp (eventId : Nat)
  deriving DecidableEq, Repr

/-- The sessions on the consumer's database (session `t` is pod `t`'s), the committed offsets, the
pods and the log. -/
structure ConsumerState (Db Row ε Payload : Type) where
  config : Config (ConsumerDb Db) (ConsumerRow Row) ε Bool (EventEnvelope Payload)
  committed : TopicPartition → Nat
  pods : Nat → Option Pod
  log : List LogRecord

/-- A scheduler choice. -/
inductive ConsumerLabel
  | join (pod : Nat)
  /-- A rebalance reaches the pod. The pods learn of one at different times, so two of them may hold
  a partition. -/
  | assign (pod : Nat) (partitions : List TopicPartition)
  /-- `getmany` gathers the next message of a partition. -/
  | fetch (pod : Nat) (tp : TopicPartition)
  | deliver (pod : Nat)
  /-- Take up the first message of the batch, or the next attempt at it. -/
  | handle (pod : Nat)
  /-- Run the next statement of the pod's transaction; unless `answered`, an error is what the pod
  sees of the end of it. -/
  | step (pod draw : Nat) (answered : Bool)
  /-- The pod's connection to the database is lost. -/
  | disconnect (pod : Nat)
  | commit (pod : Nat)
  | crash (pod : Nat)
  | tick (n : Nat)

namespace ConsumerState

/-- No event is handled, and no pod runs. -/
def initial (tables : Db) : ConsumerState Db Row ε Payload where
  config := Config.idle ⟨tables, []⟩
  committed := fun _ => 0
  pods := fun _ => none
  log := []

/-- A pod set to `p`. -/
def setPod (st : ConsumerState Db Row ε Payload) (pod : Nat) (p : Pod) :
    ConsumerState Db Row ε Payload :=
  { st with pods := Function.update st.pods pod (some p) }

/-- A line of the log. -/
def logged (st : ConsumerState Db Row ε Payload) (record : LogRecord) :
    ConsumerState Db Row ε Payload :=
  { st with log := st.log ++ [record] }

end ConsumerState

section Pods

variable [DecidableEq Row]

/-- One scheduler choice. -/
def consumerNext (g : ConsumerGroup Db Row ε Payload Raw) (st : ConsumerState Db Row ε Payload) :
    ConsumerLabel → Option (ConsumerState Db Row ε Payload)
  | .join pod =>
    match st.pods pod with
    | none => some (st.setPod pod ⟨fun _ => none, .polling []⟩)
    | some _ => none
  | .assign pod partitions =>
    match st.pods pod with
    | some p =>
      -- a new assignment starts at the committed offsets, the first time at the earliest
      some (st.setPod pod { p with
        positions := fun tp =>
          if tp ∈ partitions ∧ tp.topic ∈ g.processor.topics then some (st.committed tp)
          else none })
    | none => none
  | .fetch pod tp =>
    match st.pods pod with
    | some ⟨positions, .polling batch⟩ =>
      (positions tp).bind fun offset =>
        (g.raw (tp, offset)).map fun _ =>
          st.setPod pod ⟨Function.update positions tp (some (offset + 1)),
            .polling (batch ++ [(tp, offset)])⟩
    | _ => none
  | .deliver pod =>
    match st.pods pod with
    | some ⟨positions, .polling (m :: batch)⟩ =>
      some (st.setPod pod ⟨positions, .handling (m :: batch) 0⟩)
    | _ => none
  | .handle pod =>
    match st.pods pod, st.config.sessions pod with
    | some ⟨positions, .handling (m :: todo) failures⟩, none =>
      match g.envelope m with
      | none => some ((st.logged (.unparseable m)).setPod pod ⟨positions, .handling todo 0⟩)
      | some envelope =>
        if failures < g.maxAttempts then
          (g.processor.system.next st.config (.start pod envelope)).map fun config =>
            { st with config := config }
        else some ((st.logged (.gaveUp envelope.eventId)).setPod pod ⟨positions, .handling todo 0⟩)
    | _, _ => none
  | .step pod draw answered =>
    match st.pods pod, st.config.sessions pod with
    | some ⟨positions, .handling (m :: todo) failures⟩, some s =>
      (g.processor.system.next st.config (.step pod draw)).map fun config =>
        if (config.sessions pod).isSome then { st with config := config }
        else if (s.result st.config.db).isSome && answered then
          { st with config := config }.setPod pod ⟨positions, .handling todo 0⟩
        else
          ({ st with config := config }.logged (.failed s.op.eventId (failures + 1))).setPod pod
            ⟨positions, .handling (m :: todo) (failures + 1)⟩
    | _, _ => none
  | .disconnect pod =>
    match st.pods pod, st.config.sessions pod with
    | some ⟨positions, .handling (m :: todo) failures⟩, some s =>
      (g.processor.system.next st.config (.abort pod)).map fun config =>
        ({ st with config := config }.logged (.failed s.op.eventId (failures + 1))).setPod pod
          ⟨positions, .handling (m :: todo) (failures + 1)⟩
    | _, _ => none
  | .commit pod =>
    match st.pods pod with
    | some ⟨positions, .handling [] _⟩ =>
      some ({ st with committed := fun tp => (positions tp).getD (st.committed tp) }.setPod pod
        ⟨positions, .polling []⟩)
    | _ => none
  | .crash pod =>
    match st.pods pod with
    | some _ => some { st with
        config := st.config.finish pod st.config.db
        pods := Function.update st.pods pod none }
    | none => none
  | .tick n => some { st with config := { st.config with clock := st.config.clock + n } }

end Pods

end SmartLogistics.Platform
