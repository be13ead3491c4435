import SmartLogistics.Library.Discipline
import SmartLogistics.Library.Serializability
import SmartLogistics.Platform.Consumer

/-!
# The transaction that handles an event

A commit of `process` inserts the event's row into `processed_events` if the row is new, and does
nothing otherwise (`EventProcessor.discipline`, `EventProcessor.governs`). What it does to the
handlers' tables is what the handler does: the writes that the handler issues when its queries are
answered from the committed states of the tables (`EventProcessor.process_issues`), and, if the
handler locks what it reads, what the handler does when it is run alone
(`EventProcessor.process_evaluates`).
-/

set_option autoImplicit false

namespace SmartLogistics.Platform

open SmartLogistics.Library

variable {Db Row ε α Payload : Type}

/-! ## What a commit of `process` does -/

namespace ConsumerDb

theorem isProcessed_of_prefix {a b : ConsumerDb Db} (h : a.processed <+: b.processed)
    {consumer : String} {eventId : Nat} (ha : a.isProcessed consumer eventId = true) :
    b.isProcessed consumer eventId = true := by
  obtain ⟨rest, hrest⟩ := h
  rw [isProcessed, ← hrest, List.any_append, Bool.or_eq_true]
  exact Or.inl ha

/-- An insert claims its own key and no other. -/
theorem isProcessed_insertProcessed (db : ConsumerDb Db) (row : ProcessedEvent) (consumer : String)
    (eventId : Nat) : (db.insertProcessed row).isProcessed consumer eventId =
      (db.isProcessed consumer eventId ||
        (row.consumer == consumer && row.eventId == eventId)) := by
  unfold insertProcessed
  split
  · rename_i hrow
    cases hkey : row.consumer == consumer && row.eventId == eventId with
    | false => rw [Bool.or_false]
    | true =>
      rw [Bool.and_eq_true, beq_iff_eq, beq_iff_eq] at hkey
      rw [← hkey.1, ← hkey.2, hrow]
      rfl
  · simp [isProcessed]

theorem processed_prefix_insertProcessed (db : ConsumerDb Db) (row : ProcessedEvent) :
    db.processed <+: (db.insertProcessed row).processed := by
  unfold insertProcessed
  split
  · exact List.prefix_rfl
  · exact List.prefix_append _ _

theorem insertProcessed_tables (db : ConsumerDb Db) (row : ProcessedEvent) :
    (db.insertProcessed row).tables = db.tables := by
  unfold insertProcessed
  split <;> rfl

theorem onTables_eq_ok {f : Db → Except ε Db} {db db' : ConsumerDb Db} :
    onTables f db = .ok db' ↔ f db.tables = .ok db'.tables ∧ db'.processed = db.processed := by
  rcases db' with ⟨tables', processed'⟩
  unfold onTables
  cases f db.tables with
  | error e => simp [Except.map]
  | ok tables => simp [Except.map, ConsumerDb.mk.injEq, eq_comm]

end ConsumerDb

namespace EventProcessor

variable (p : EventProcessor Db Row ε Payload)

/-- The row that `process` inserts. -/
def row (envelope : EventEnvelope Payload) (now : Nat) : ProcessedEvent where
  consumer := p.name
  eventId := envelope.eventId
  eventType := envelope.eventType
  processedAt := now

/-- Transactions only append to `processed_events`, each at a key it has locked; a commit inserts
the event's row if it is new, and nothing otherwise. -/
def discipline :
    Discipline (ConsumerDb Db) (ConsumerRow Row) ε Bool (EventEnvelope Payload) where
  inv := fun _ => True
  same := fun r a b =>
    match r with
    | .processed consumer eventId => a.isProcessed consumer eventId = b.isProcessed consumer eventId
    | .table _ => True
  grow := fun a b => a.processed <+: b.processed
  lockFact := fun _ _ _ _ => True
  flushFact := fun _ _ => True
  post := fun envelope _ _ handled _ db db' =>
    if handled then
      db.isProcessed p.name envelope.eventId = false ∧
        ∃ now, db'.processed = db.processed ++ [p.row envelope now]
    else db' = db ∧ (p.handlers envelope.eventType = none ∨
      db.isProcessed p.name envelope.eventId = true)
  same_refl := fun r db => by cases r <;> trivial
  same_trans := fun {r _ _ _} h h' => by
    cases r with
    | processed => exact h.trans h'
    | table => trivial
  grow_refl := fun _ => List.prefix_rfl
  grow_trans := fun h h' => h.trans h'

variable {p}

/-- The session has inserted the event's row, which was not there and cannot be put there by others,
and nothing else into `processed_events`. -/
structure Claimed (p : EventProcessor Db Row ε Payload) (envelope : EventEnvelope Payload)
    (now : Nat)
    (v : View (ConsumerDb Db) (ConsumerRow Row) ε) : Prop where
  held : v.held (.processed p.name envelope.eventId)
  free : v.db.isProcessed p.name envelope.eventId = false
  pending : ∀ db db', v.pending db = .ok db' →
    db'.processed = (db.insertProcessed (p.row envelope now)).processed

theorem Claimed.later {envelope : EventEnvelope Payload} {now : Nat}
    {v : View (ConsumerDb Db) (ConsumerRow Row) ε} (h : Claimed p envelope now v)
    {n : Nat} {db : ConsumerDb Db} (hr : p.discipline.Rely v n db) :
    Claimed p envelope now (v.later n db) where
  held := h.held
  free := (hr.same _ h.held).symm.trans h.free
  pending := h.pending

/-- What a handler does to its tables leaves the claim as it is. -/
theorem wp_onTables {envelope op : EventEnvelope Payload} {now : Nat} :
    ∀ (x : Txn Db Row ε α) (v : View (ConsumerDb Db) (ConsumerRow Row) ε),
      Claimed p envelope now v →
      p.discipline.wp op (onTables x) (fun _ v => Claimed p envelope now v) v := by
  intro x
  induction x with
  | pure a => exact fun v h => h
  | raise e => exact fun _ _ => trivial
  | utcnow k ih => exact fun v h n db hr => ih n _ (h.later hr)
  | uuid4 k ih => exact fun v h i => ih i _ h
  | query k ih => exact fun v h n db hr view _ => ih view.tables _ (h.later hr)
  | lock r k ih =>
    intro v h n db hr
    have hlater := h.later hr
    exact ⟨trivial, ih _ ⟨Or.inr hlater.held, hlater.free, hlater.pending⟩⟩
  | flush f k ih =>
    intro v h n db hr view _
    have hlater := h.later hr
    refine ⟨fun _ _ => trivial, fun view' _ => ih _ ⟨hlater.held, hlater.free, ?_⟩⟩
    intro db₁ db₂ hdb
    obtain ⟨mid, hmid, hf⟩ := View.flushed_pending_eq_ok.1 hdb
    exact (ConsumerDb.onTables_eq_ok.1 hf).2.trans (hlater.pending db₁ mid hmid)

/-- `process` meets its discipline. -/
theorem process_meets (envelope : EventEnvelope Payload) (now : Nat) (db : ConsumerDb Db) :
    p.discipline.Meets envelope db (p.process envelope) ⟨fun _ => False, .ok, now, db⟩ := by
  unfold process
  split
  · -- no handler: nothing is written
    rename_i hnone
    intro n db hr db' hdb
    cases hdb
    exact ⟨⟨trivial, List.prefix_rfl, fun r _ => p.discipline.same_refl r db⟩, rfl, Or.inl hnone⟩
  · rename_i handler hsome
    intro n₁ db₁ hr₁
    refine ⟨trivial, fun n₂ db₂ hr₂ view hview => ?_⟩
    cases hview
    dsimp only
    split
    · -- the key is taken, and stays so
      rename_i hclaimed
      intro n₃ db₃ hr₃ db' hdb
      cases hdb
      exact ⟨⟨trivial, List.prefix_rfl, fun r _ => p.discipline.same_refl r db₃⟩, rfl,
        Or.inr (ConsumerDb.isProcessed_of_prefix hr₃.grow hclaimed)⟩
    · -- the key is free, and nobody else takes it while it is locked
      rename_i hfree
      rw [Bool.not_eq_true] at hfree
      intro n₃ db₃ hr₃ n₄ db₄ hr₄ view hview
      refine ⟨fun _ _ => trivial, fun view' _ => Discipline.wp_bind _ _ ?_⟩
      have hheld : ∀ {n db} {v : View (ConsumerDb Db) (ConsumerRow Row) ε},
          v.held (.processed p.name envelope.eventId) → p.discipline.Rely v n db →
          v.db.isProcessed p.name envelope.eventId = false →
          db.isProcessed p.name envelope.eventId = false :=
        fun hv hr hfree => (hr.same _ hv).symm.trans hfree
      have hmine : (ConsumerRow.processed p.name envelope.eventId : ConsumerRow Row) ∈
          [ConsumerRow.processed p.name envelope.eventId] := List.mem_singleton_self _
      have hclaim : Claimed p envelope n₃
          ((((((⟨fun _ => False, .ok, now, db⟩ : View (ConsumerDb Db) (ConsumerRow Row) ε).later
            n₁ db₁).grantAll [.processed p.name envelope.eventId]).later n₂ db₂).later
            n₃ db₃).later n₄ db₄ |>.flushed fun db =>
              .ok (db.insertProcessed (p.row envelope n₃))) := by
        refine ⟨Or.inl hmine, hheld (Or.inl hmine) hr₄ (hheld (Or.inl hmine) hr₃ hfree), ?_⟩
        intro db₁ db₂ hdb
        obtain ⟨mid, hmid, hf⟩ := View.flushed_pending_eq_ok.1 hdb
        cases hmid
        cases hf
        rfl
      refine Discipline.wp_mono (fun _ v hv => ?_) _ _ (wp_onTables _ _ hclaim)
      intro n db hr db' hdb
      have hv' := hv.later hr
      have hprocessed := hv'.pending db db' hdb
      have hfree' : db.isProcessed p.name envelope.eventId = false := hv'.free
      refine ⟨⟨trivial, ?_, ?_⟩, hfree', n₃, ?_⟩
      · show db.processed <+: db'.processed
        rw [hprocessed]
        exact db.processed_prefix_insertProcessed _
      · intro r hr'
        cases r with
        | table r => trivial
        | processed consumer eventId =>
          -- a key that it does not hold is not the one it has inserted
          have hne : ((p.row envelope n₃).consumer == consumer &&
              (p.row envelope n₃).eventId == eventId) = false := by
            refine Bool.eq_false_iff.2 fun heq => hr' ?_
            rw [Bool.and_eq_true, beq_iff_eq, beq_iff_eq] at heq
            exact heq.1 ▸ heq.2 ▸ hv'.held
          have hsame := db.isProcessed_insertProcessed (p.row envelope n₃) consumer eventId
          rw [hne, Bool.or_false] at hsame
          show db.isProcessed consumer eventId = db'.isProcessed consumer eventId
          rw [← hsame, ConsumerDb.isProcessed, ConsumerDb.isProcessed, hprocessed]
      · rw [hprocessed, ConsumerDb.insertProcessed, if_neg]
        rw [row, hfree']
        exact Bool.false_ne_true

theorem governs : p.discipline.Governs p.system where
  program := fun envelope now db _ => process_meets envelope now db
  env := fun e => e.elim

end EventProcessor

/-! ## Handlers inside `process` -/

/-- A write to the consumer's database does to the handlers' tables what `f` does. -/
def Lifts (f : Db → Except ε Db) (g : ConsumerDb Db → Except ε (ConsumerDb Db)) : Prop :=
  ∀ db, (g db).map ConsumerDb.tables = f db.tables

theorem Lifts.apply {f : Db → Except ε Db} {g : ConsumerDb Db → Except ε (ConsumerDb Db)}
    (h : Lifts f g) {db db' : ConsumerDb Db} (hdb : g db = .ok db') :
    f db.tables = .ok db'.tables := by
  rw [← h db, hdb]
  rfl

/-- A write to the tables comes after what has been sent. -/
theorem Lifts.onTables {f : Db → Except ε Db} {g : ConsumerDb Db → Except ε (ConsumerDb Db)}
    (h : Lifts f g) (w : Db → Except ε Db) :
    Lifts (fun db => f db >>= w) fun db => g db >>= ConsumerDb.onTables w := by
  intro db
  have hdb := h db
  cases hg : g db with
  | error e =>
    rw [hg] at hdb
    simp only [hg, ← hdb, bind, Except.bind, Except.map]
  | ok db' =>
    rw [hg] at hdb
    simp only [hg, ← hdb, bind, Except.bind, Except.map, ConsumerDb.onTables]
    cases w db'.tables <;> rfl

/-- What a handler issues on the consumer's database it issues on its tables, whose committed states
answer its queries. -/
theorem issues_onTables {a : α} {all : ConsumerDb Db → Except ε (ConsumerDb Db)} :
    ∀ {x : Txn Db Row ε α} {states : List (ConsumerDb Db)}
      {sent : ConsumerDb Db → Except ε (ConsumerDb Db)} {f : Db → Except ε Db},
    Txn.Issues states sent (onTables x) a all → Lifts f sent →
    ∃ g, Txn.Issues (states.map ConsumerDb.tables) f x a g ∧ Lifts g all := by
  -- on each statement of the handler; `f` is what its writes so far do to the tables
  intro x
  induction x with
  | pure b =>
    intro states sent f h hf
    cases h
    exact ⟨f, .pure _, hf⟩
  | raise e => exact fun h => by cases h
  | utcnow k ih =>
    intro states sent f h hf
    cases h with
    | utcnow n h =>
      obtain ⟨g, hg, hall⟩ := ih n h hf
      exact ⟨g, .utcnow n hg, hall⟩
  | uuid4 k ih =>
    intro states sent f h hf
    cases h with
    | uuid4 n h =>
      obtain ⟨g, hg, hall⟩ := ih n h hf
      exact ⟨g, .uuid4 n hg, hall⟩
  | query k ih =>
    intro states sent f h hf
    cases h with
    | query hnow hview h =>
      obtain ⟨g, hg, hall⟩ := ih _ h hf
      have htables := hnow.map ConsumerDb.tables
      rw [List.map_cons] at htables hg
      exact ⟨g, .query htables (hf.apply hview) hg, hall⟩
  | lock r k ih =>
    intro states sent f h hf
    cases h with
    | lock h =>
      obtain ⟨g, hg, hall⟩ := ih h hf
      exact ⟨g, .lock hg, hall⟩
  | flush w k ih =>
    intro states sent f h hf
    cases h with
    | flush h =>
      obtain ⟨g, hg, hall⟩ := ih h (hf.onTables w)
      exact ⟨g, .flush hg, hall⟩

/-- A handler run alone on the consumer's database does to its tables what it does run alone on
them. -/
theorem evaluates_onTables {a : α} {db' : ConsumerDb Db} :
    ∀ {x : Txn Db Row ε α} {db : ConsumerDb Db},
    (onTables x).Evaluates db a db' → x.Evaluates db.tables a db'.tables := by
  intro x
  induction x with
  | pure b =>
    intro db h
    cases h
    exact .pure _ _
  | raise e => exact fun h => by cases h
  | utcnow k ih =>
    intro db h
    cases h with
    | utcnow n h => exact .utcnow n (ih n h)
  | uuid4 k ih =>
    intro db h
    cases h with
    | uuid4 n h => exact .uuid4 n (ih n h)
  | query k ih =>
    intro db h
    cases h with
    | query h => exact .query (ih _ h)
  | lock r k ih =>
    intro db h
    cases h with
    | lock h => exact .lock (ih h)
  | flush g k ih =>
    intro db h
    cases h with
    | flush hg h => exact .flush (ConsumerDb.onTables_eq_ok.1 hg).1 (ih h)

/-- Agreement of consumer databases on a row. -/
def rowAgree (agree : Row → Db → Db → Prop) : ConsumerRow Row → ConsumerDb Db → ConsumerDb Db → Prop
  | .processed consumer eventId, a, b =>
    a.isProcessed consumer eventId = b.isProcessed consumer eventId
  | .table r, a, b => agree r a.tables b.tables

theorem rowAgree_equivalence {agree : Row → Db → Db → Prop} (h : ∀ r, Equivalence (agree r))
    (r : ConsumerRow Row) : Equivalence (rowAgree agree r) := by
  cases r with
  | processed consumer eventId => exact ⟨fun _ => rfl, Eq.symm, Eq.trans⟩
  | table r => exact ⟨fun _ => (h r).refl _, (h r).symm, (h r).trans⟩

/-- A handler that locks what it reads does so on the consumer's database. -/
theorem locksReads_onTables {agree : Row → Db → Db → Prop} :
    ∀ {x : Txn Db Row ε α} {held : ConsumerRow Row → Prop},
      x.LocksReads agree (fun r => held (.table r)) →
      (onTables x).LocksReads (rowAgree agree) held := by
  intro x
  induction x with
  | pure a => exact fun _ => trivial
  | raise e => exact fun _ => trivial
  | utcnow k ih => exact fun h n => ih n (h n)
  | uuid4 k ih => exact fun h n => ih n (h n)
  | query k ih =>
    exact fun h => ⟨fun db db' hsame => congrArg onTables
      (h.1 db.tables db'.tables fun r hr => hsame (.table r) hr), fun db => ih _ (h.2 db.tables)⟩
  | lock r k ih =>
    intro held h
    have hheld : (fun x => x = r ∨ held (.table x)) =
        fun x => ConsumerRow.table x = .table r ∨ held (.table x) := by
      simp only [ConsumerRow.table.injEq]
    have hrest : k.LocksReads agree fun x => x = r ∨ held (.table x) := h
    rw [hheld] at hrest
    exact ih hrest
  | flush f k ih =>
    intro held h
    obtain ⟨⟨hframe, hcongr⟩, hrest⟩ := h
    refine ⟨⟨?_, ?_⟩, ih hrest⟩
    · intro db db' hf r hr
      obtain ⟨htables, hprocessed⟩ := ConsumerDb.onTables_eq_ok.1 hf
      cases r with
      | processed consumer eventId =>
        simp only [rowAgree, ConsumerDb.isProcessed, hprocessed]
      | table r => exact hframe _ _ htables r hr
    · intro db₁ db₂ db₁' db₂' hsame h₁ h₂ r hr
      obtain ⟨htables₁, hprocessed₁⟩ := ConsumerDb.onTables_eq_ok.1 h₁
      obtain ⟨htables₂, hprocessed₂⟩ := ConsumerDb.onTables_eq_ok.1 h₂
      cases r with
      | processed consumer eventId =>
        have hkey := hsame _ hr
        simp only [rowAgree, ConsumerDb.isProcessed] at hkey ⊢
        rw [hprocessed₁, hprocessed₂, hkey]
      | table r =>
        exact hcongr _ _ _ _ (fun x hx => hsame (.table x) hx) htables₁ htables₂ r hr

namespace EventProcessor

variable {p : EventProcessor Db Row ε Payload}

/-- A `process` that handles an event does to the tables what its handler issues. -/
theorem process_issues {envelope : EventEnvelope Payload} {states : List (ConsumerDb Db)}
    {all : ConsumerDb Db → Except ε (ConsumerDb Db)}
    (h : Txn.Issues states .ok (p.process envelope) true all) :
    ∃ handler f, p.handlers envelope.eventType = some handler ∧
      Txn.Issues (states.map ConsumerDb.tables) .ok (handler envelope) () f ∧ Lifts f all := by
  unfold process at h
  split at h
  · cases h
  · rename_i handler hsome
    cases h with
    | lock h =>
      cases h with
      | query hnow hview h =>
        dsimp only at h
        split at h
        · cases h
        · cases h with
          | utcnow now h =>
            cases h with
            | flush h =>
              obtain ⟨_, mid, h₁, h₂⟩ := Txn.issues_bind h
              cases h₂
              have hinsert : Lifts (.ok : Db → Except ε Db) fun db : ConsumerDb Db =>
                  Except.ok db >>= fun db => .ok (db.insertProcessed (p.row envelope now)) := by
                intro db
                exact congrArg Except.ok (db.insertProcessed_tables _)
              obtain ⟨f, hf, hall⟩ := issues_onTables h₁ hinsert
              exact ⟨handler, f, hsome, hf.earlier (hnow.map ConsumerDb.tables), hall⟩

/-- A `process` that handles an event, run alone, runs the handler. -/
theorem process_evaluates {envelope : EventEnvelope Payload} {db db' : ConsumerDb Db}
    (h : (p.process envelope).Evaluates db true db') :
    ∃ handler, p.handlers envelope.eventType = some handler ∧
      (handler envelope).Evaluates db.tables () db'.tables := by
  unfold process at h
  split at h
  · cases h
  · rename_i handler hsome
    cases h with
    | lock h =>
      cases h with
      | query h =>
        dsimp only at h
        split at h
        · cases h
        · cases h with
          | utcnow now h =>
            cases h with
            | flush hinsert h =>
              obtain ⟨_, mid, h₁, h₂⟩ := Txn.evaluates_bind h
              cases hinsert
              cases h₂
              have hhandler := evaluates_onTables h₁
              rw [ConsumerDb.insertProcessed_tables] at hhandler
              exact ⟨handler, hsome, hhandler⟩

/-- Every handler reads and writes only rows it has locked. -/
def HandlersLockReads (p : EventProcessor Db Row ε Payload) (agree : Row → Db → Db → Prop) : Prop :=
  (∀ r, Equivalence (agree r)) ∧ ∀ eventType handler envelope,
    p.handlers eventType = some handler → (handler envelope).LocksReads agree fun _ => False

theorem process_locksReads {agree : Row → Db → Db → Prop} (h : p.HandlersLockReads agree)
    (envelope : EventEnvelope Payload) :
    (p.process envelope).LocksReads (rowAgree agree) fun _ => False := by
  unfold process
  split
  · trivial
  · rename_i handler hsome
    refine ⟨?_, fun db => ?_⟩
    · intro db db' hsame
      have hkey := hsame (.processed p.name envelope.eventId) (Or.inl rfl)
      simp only [rowAgree] at hkey
      simp only [hkey]
    · dsimp only
      split
      · trivial
      · intro now
        refine ⟨⟨?_, ?_⟩, ?_⟩
        · intro db db' hf r hr
          cases hf
          cases r with
          | processed consumer eventId =>
            have hne : (p.name == consumer && envelope.eventId == eventId) = false := by
              refine Bool.eq_false_iff.2 fun heq => hr (Or.inl ?_)
              rw [Bool.and_eq_true, beq_iff_eq, beq_iff_eq] at heq
              rw [heq.1, heq.2]
            simp only [rowAgree, ConsumerDb.isProcessed_insertProcessed, hne, Bool.or_false]
          | table r =>
            simp only [rowAgree, ConsumerDb.insertProcessed_tables]
            exact (h.1 r).refl _
        · intro db₁ db₂ db₁' db₂' hsame h₁ h₂ r hr
          cases h₁
          cases h₂
          have hbefore := hsame r hr
          cases r with
          | processed consumer eventId =>
            simp only [rowAgree, ConsumerDb.isProcessed_insertProcessed] at hbefore ⊢
            rw [hbefore]
          | table r =>
            simpa only [rowAgree, ConsumerDb.insertProcessed_tables] using hbefore
        · refine Txn.LocksReads.bind ?_ fun _ _ _ => trivial
          refine locksReads_onTables ?_
          refine (h.2 _ handler envelope hsome).mono h.1 fun r hr => hr.elim

end EventProcessor

end SmartLogistics.Platform
