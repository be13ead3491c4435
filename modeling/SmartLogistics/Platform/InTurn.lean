import SmartLogistics.Platform.ExactlyOnce
import SmartLogistics.Library.Frame

/-!
# Events processed one after the other

`EventProcessor.processAll` processes events in turn, each in a transaction of its own that nothing
interrupts. As long as no two of them share an id, which of them are duplicates is settled before
the first (`processAll_eq`): what happens to the handlers' tables is what the handlers do in turn,
those of the duplicates left out (`handleAll`).
-/

set_option autoImplicit false

namespace SmartLogistics.Platform

open SmartLogistics.Library

variable {Db Row ε α Payload : Type}

/-- An event's turn: the instant at which it is processed, and the ids drawn from then on. -/
structure Turn (Payload : Type) where
  event : EventEnvelope Payload
  instant : Nat
  ids : Nat

/-- A handler's body, run alone on the consumer's database, is run alone on the tables. -/
theorem runAlone_onTables {now ids : Nat} {x : Txn Db Row ε α} {tables : Db}
    {processed : List ProcessedEvent} : (onTables x).runAlone now ids ⟨tables, processed⟩ =
      (x.runAlone now ids tables).map fun r => (r.1, ⟨r.2.1, processed⟩, r.2.2) := by
  induction x generalizing ids tables with
  | pure a => rfl
  | raise e => rfl
  | utcnow k ih => exact ih now
  | uuid4 k ih => exact ih ids
  | query k ih => exact ih tables
  | lock r k ih => exact ih
  | flush g k ih =>
    simp only [onTables, Txn.runAlone, ConsumerDb.onTables]
    cases g tables with
    | ok tables' => exact ih
    | error e => rfl

namespace EventProcessor

variable (self : EventProcessor Db Row ε Payload)

/-- Process one event by itself: the answer, and the state, from which a failure is rolled back. -/
def processOne (d : Turn Payload) (db : ConsumerDb Db) : Except ε Bool × ConsumerDb Db :=
  (((self.process d.event).runAlone d.instant d.ids db).map (·.1),
    (self.process d.event).after d.instant d.ids db)

/-- Process events one after the other: the events with the answers, and the state. -/
def processAll : List (Turn Payload) → ConsumerDb Db →
    List (EventEnvelope Payload × Except ε Bool) × ConsumerDb Db
  | [], db => ([], db)
  | d :: ds, db =>
    let (answers, final) := processAll ds (self.processOne d db).2
    ((d.event, (self.processOne d db).1) :: answers, final)

/-- What processing an event does to the tables, if it is known whether it is a duplicate. -/
def handleOne (isDuplicate : Nat → Bool) (d : Turn Payload) (tables : Db) :
    Except ε Bool × Db :=
  match self.handlers d.event.eventType with
  | none => (.ok false, tables)
  | some handler =>
    if isDuplicate d.event.eventId then (.ok false, tables)
    else
      match (handler d.event).runAlone d.instant d.ids tables with
      | .ok (_, tables', _) => (.ok true, tables')
      | .error e => (.error e, tables)

/-- The events handled one after another, with what each comes to. -/
def handleAll (isDuplicate : Nat → Bool) : List (Turn Payload) → Db →
    List (EventEnvelope Payload × Except ε Bool) × Db
  | [], tables => ([], tables)
  | d :: ds, tables =>
    let (answers, final) := handleAll isDuplicate ds (self.handleOne isDuplicate d tables).2
    ((d.event, (self.handleOne isDuplicate d tables).1) :: answers, final)

variable {self}

/-- A new event that has a handler is recorded and handled in one transaction. -/
theorem runAlone_process {event : EventEnvelope Payload}
    {handler : EventEnvelope Payload → Txn Db Row ε Unit} {now ids : Nat} {db : ConsumerDb Db}
    (hhandler : self.handlers event.eventType = some handler)
    (hnew : db.isProcessed self.name event.eventId = false) :
    (self.process event).runAlone now ids db =
      ((handler event).runAlone now ids db.tables).map fun r =>
        (true, ⟨r.2.1, db.processed ++ [self.row event now]⟩, r.2.2) := by
  have hinsert : db.insertProcessed (self.row event now) =
      ⟨db.tables, db.processed ++ [self.row event now]⟩ := by
    have hrow : db.isProcessed (self.row event now).consumer (self.row event now).eventId = false :=
      hnew
    rw [ConsumerDb.insertProcessed, hrow]
    rfl
  unfold EventProcessor.process
  rw [hhandler]
  simp only [Txn.runAlone, hnew, Bool.false_eq_true, if_false]
  change ((onTables (handler event)).bind _).runAlone now ids
    (db.insertProcessed (self.row event now)) = _
  rw [hinsert, Txn.runAlone_bind, runAlone_onTables]
  cases (handler event).runAlone now ids db.tables with
  | ok r => rfl
  | error e => rfl

/-- What processing one event does: its handler runs unless it is a duplicate, and no other event
becomes one. -/
theorem processOne_eq (self : EventProcessor Db Row ε Payload) (d : Turn Payload)
    (db : ConsumerDb Db) :
    (self.processOne d db).1 = (self.handleOne (db.isProcessed self.name) d db.tables).1 ∧
      (self.processOne d db).2.tables =
        (self.handleOne (db.isProcessed self.name) d db.tables).2 ∧
      ∀ eventId, d.event.eventId ≠ eventId →
        (self.processOne d db).2.isProcessed self.name eventId =
          db.isProcessed self.name eventId := by
  cases hhandler : self.handlers d.event.eventType with
  | none => simp [processOne, handleOne, EventProcessor.process, hhandler, Txn.after, Txn.commit,
      Txn.runAlone, Except.map]
  | some handler =>
  cases hnew : db.isProcessed self.name d.event.eventId with
  | true => simp [processOne, handleOne, EventProcessor.process, hhandler, hnew, Txn.after,
      Txn.commit, Txn.runAlone, Except.map]
  | false =>
    simp only [processOne, handleOne, hhandler, hnew, Txn.after, Txn.commit,
      runAlone_process hhandler hnew]
    cases (handler d.event).runAlone d.instant d.ids db.tables with
    | error e => exact ⟨rfl, rfl, fun _ _ => rfl⟩
    | ok r =>
      refine ⟨rfl, rfl, fun eventId hne => ?_⟩
      have hother : (self.row d.event d.instant).eventId ≠ eventId := hne
      simp [Except.map, ConsumerDb.isProcessed, hother]

/-- Events processed in turn, no two with one id: the handlers run in turn, those of the events
that were duplicates at the start left out. -/
theorem processAll_eq (self : EventProcessor Db Row ε Payload) {ds : List (Turn Payload)}
    (hids : (ds.map (·.event.eventId)).Nodup) (db : ConsumerDb Db) :
    (self.processAll ds db).1 = (self.handleAll (db.isProcessed self.name) ds db.tables).1 ∧
      (self.processAll ds db).2.tables =
        (self.handleAll (db.isProcessed self.name) ds db.tables).2 := by
  suffices h : ∀ isDuplicate : Nat → Bool, (∀ d ∈ ds,
      db.isProcessed self.name d.event.eventId = isDuplicate d.event.eventId) →
      (self.processAll ds db).1 = (self.handleAll isDuplicate ds db.tables).1 ∧
        (self.processAll ds db).2.tables = (self.handleAll isDuplicate ds db.tables).2 from
    h _ fun _ _ => rfl
  intro isDuplicate hsame
  induction ds generalizing db with
  | nil => exact ⟨rfl, rfl⟩
  | cons d ds ih =>
    rw [List.map_cons, List.nodup_cons] at hids
    obtain ⟨hanswer, htables, hother⟩ := self.processOne_eq d db
    have hfirst : self.handleOne (db.isProcessed self.name) d db.tables =
        self.handleOne isDuplicate d db.tables := by
      simp only [handleOne, hsame d List.mem_cons_self]
    rw [hfirst] at hanswer htables
    -- the first event makes no other one a duplicate
    obtain ⟨hanswers, hfinal⟩ := ih hids.2 (self.processOne d db).2 fun x hx => by
      rw [hother _ fun heq => hids.1 (heq ▸ List.mem_map_of_mem hx)]
      exact hsame x (List.mem_cons_of_mem _ hx)
    simp only [processAll, handleAll, hanswers, hfinal, hanswer, htables, and_self]

end EventProcessor

end SmartLogistics.Platform
