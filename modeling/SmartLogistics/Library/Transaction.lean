import SmartLogistics.Library.Machine
import Mathlib.Logic.Function.Basic

/-!
# Row-locking transactions under READ COMMITTED

A transaction body is a tree of statements (`Txn`): it reads the clock, draws a fresh id, runs a
query, locks a row, flushes a write, returns or raises. Each query sees the state committed when
the statement starts, under the transaction's own flushed writes; a row lock is held to the end of
the transaction; a flushed write is applied to the committed state when the transaction commits,
and a transaction that raises, or whose writes violate a constraint, is rolled back.

`System.machine` runs any number of sessions over one database, one statement a step, in any
order. A lock held by another session is not granted, so the waiting session has no step.
-/

set_option autoImplicit false

namespace SmartLogistics.Library

/-- A transaction body over a database `Db` with lockable rows `Row`, failing with `ε` and
returning `α`. -/
inductive Txn (Db Row ε α : Type) : Type
  /-- Return; the session commits. -/
  | pure (a : α)
  /-- Raise; the session rolls back. -/
  | raise (e : ε)
  /-- Read the clock. -/
  | utcnow (k : Nat → Txn Db Row ε α)
  /-- Draw an id. -/
  | uuid4 (k : Nat → Txn Db Row ε α)
  /-- Run a query on the snapshot the statement sees. -/
  | query (k : Db → Txn Db Row ε α)
  /-- Lock a row until the end of the transaction. -/
  | lock (r : Row) (k : Txn Db Row ε α)
  /-- Send a write to the database. -/
  | flush (f : Db → Except ε Db) (k : Txn Db Row ε α)

namespace Txn

variable {Db Row ε α β : Type}

/-- Sequencing. -/
def bind : Txn Db Row ε α → (α → Txn Db Row ε β) → Txn Db Row ε β
  | .pure a, f => f a
  | .raise e, _ => .raise e
  | .utcnow k, f => .utcnow fun t => (k t).bind f
  | .uuid4 k, f => .uuid4 fun n => (k n).bind f
  | .query k, f => .query fun db => (k db).bind f
  | .lock r k, f => .lock r (k.bind f)
  | .flush w k, f => .flush w (k.bind f)

theorem bind_bind {γ : Type} (x : Txn Db Row ε α) (f : α → Txn Db Row ε β)
    (g : β → Txn Db Row ε γ) : (x.bind f).bind g = x.bind fun a => (f a).bind g := by
  induction x with
  | pure a => rfl
  | raise e => rfl
  | utcnow k ih => exact congrArg Txn.utcnow (funext ih)
  | uuid4 k ih => exact congrArg Txn.uuid4 (funext ih)
  | query k ih => exact congrArg Txn.query (funext ih)
  | lock r k ih => exact congrArg (Txn.lock r) ih
  | flush w k ih => exact congrArg (Txn.flush w) ih

instance : Monad (Txn Db Row ε) where
  pure := Txn.pure
  bind := Txn.bind

@[simp] theorem bind_eq (x : Txn Db Row ε α) (f : α → Txn Db Row ε β) : x >>= f = x.bind f := rfl

@[simp] theorem pure_eq (a : α) : (Pure.pure a : Txn Db Row ε α) = .pure a := rfl

/-- The clock reading as an action. -/
def now : Txn Db Row ε Nat := .utcnow .pure

/-- A fresh id as an action. -/
def freshId : Txn Db Row ε Nat := .uuid4 .pure

/-- A query as an action. -/
def select (q : Db → β) : Txn Db Row ε β := .query fun db => .pure (q db)

/-- A write as an action. -/
def write (f : Db → Except ε Db) : Txn Db Row ε Unit := .flush f (.pure ())

/-- Lift a pure fallible computation. -/
def ofExcept : Except ε α → Txn Db Row ε α
  | .ok a => .pure a
  | .error e => .raise e

/-- Lock the rows of `keys` one after another and read each row's current version, which is kept
if it still satisfies the statement's condition (`get` returns `none` otherwise). This is the row
loop of `SELECT … ORDER BY … FOR UPDATE`, whose snapshot gave `keys`. -/
def lockEach {κ ρ : Type} (row : κ → Row) (get : Db → κ → Option ρ) :
    List κ → Txn Db Row ε (List ρ)
  | [] => .pure []
  | k :: ks => .lock (row k) (.query fun db =>
      (lockEach row get ks).bind fun rs => .pure ((get db k).toList ++ rs))

/-- The body run alone from the state `db`, with the clock at `now` and the ids drawn from `ids`
on: its result, the state with its writes, and the next id. -/
def runAlone (now : Nat) : Txn Db Row ε α → Nat → Db → Except ε (α × Db × Nat)
  | .pure a, ids, db => .ok (a, db, ids)
  | .raise e, _, _ => .error e
  | .utcnow k, ids, db => (k now).runAlone now ids db
  | .uuid4 k, ids, db => (k ids).runAlone now (ids + 1) db
  | .query k, ids, db => (k db).runAlone now ids db
  | .lock _ k, ids, db => k.runAlone now ids db
  | .flush f k, ids, db =>
    match f db with
    | .ok db' => k.runAlone now ids db'
    | .error e => .error e

end Txn

/-- An entry of an updated map is the new one or an old one. -/
theorem update_option_eq_some {κ ρ : Type} [DecidableEq κ] {f : κ → Option ρ} {k k' : κ}
    {o : Option ρ} {x : ρ} (h : Function.update f k o k' = some x) :
    k' = k ∧ o = some x ∨ k' ≠ k ∧ f k' = some x := by
  by_cases hk : k' = k
  · subst hk
    rw [Function.update_self] at h
    exact Or.inl ⟨rfl, h⟩
  · rw [Function.update_of_ne hk] at h
    exact Or.inr ⟨hk, h⟩

theorem update_eq_some {κ ρ : Type} [DecidableEq κ] {f : κ → Option ρ} {k k' : κ} {r x : ρ}
    (h : Function.update f k (some r) k' = some x) : k' = k ∧ x = r ∨ k' ≠ k ∧ f k' = some x :=
  (update_option_eq_some h).imp_left fun ⟨hk, hx⟩ => ⟨hk, (Option.some.inj hx).symm⟩

/-- The transactions a service runs and the writes other parts of the service make. -/
structure System (Db Row ε α Op Env : Type) where
  /-- The body of an operation. -/
  program : Op → Txn Db Row ε α
  /-- A write of another part of the service to the committed state. -/
  env : Env → Db → Db

/-- An open transaction: its operation, the state it was opened in (for specifications only), what
is left of its body, and its flushed writes. -/
structure Session (Db Row ε α Op : Type) where
  op : Op
  opened : Db
  prog : Txn Db Row ε α
  pending : Db → Except ε Db

/-- What the database answers to the writes of a session on the committed state `db`, those of a
flush it is about to send included. -/
def Session.outcome {Db Row ε α Op : Type} (s : Session Db Row ε α Op) (db : Db) : Except ε Db :=
  match s.prog with
  | .flush f _ => s.pending db >>= f
  | _ => s.pending db

/-- The result a session returns if its next step is a commit. -/
def Session.result {Db Row ε α Op : Type} (s : Session Db Row ε α Op) (db : Db) : Option α :=
  match s.prog, s.pending db with
  | .pure a, .ok _ => some a
  | _, _ => none

theorem Session.result_eq_some {Db Row ε α Op : Type} {s : Session Db Row ε α Op}
    {db : Db} {a : α} :
    s.result db = some a ↔ s.prog = .pure a ∧ ∃ db', s.pending db = .ok db' := by
  unfold Session.result
  constructor
  · intro h
    split at h
    · rename_i b db' hprog hpending
      cases h
      exact ⟨hprog, db', hpending⟩
    · cases h
  · rintro ⟨hprog, db', hpending⟩
    rw [hprog, hpending]

/-- The committed state, the clock, the lock table and the open sessions. A row is locked by at
most one session because the lock table is a function. -/
structure Config (Db Row ε α Op : Type) where
  db : Db
  clock : Nat
  locks : Row → Option Nat
  sessions : Nat → Option (Session Db Row ε α Op)

/-- A scheduler choice. -/
inductive Label (Op Env : Type)
  /-- Open session `t` for an operation. -/
  | start (t : Nat) (op : Op)
  /-- Run the next statement of session `t`; `draw` is the id it gets if it draws one. -/
  | step (t draw : Nat)
  /-- Session `t` is lost: its connection or its pod dies, or the database aborts it. -/
  | abort (t : Nat)
  /-- Time passes. -/
  | tick (n : Nat)
  /-- Another part of the service commits a write. -/
  | env (e : Env)

namespace Config

variable {Db Row ε α Op : Type}

/-- The state with no open session. -/
def idle (db : Db) : Config Db Row ε α Op where
  db := db
  clock := 0
  locks := fun _ => none
  sessions := fun _ => none

/-- The rows session `t` has locked. -/
def Held (c : Config Db Row ε α Op) (t : Nat) (r : Row) : Prop := c.locks r = some t

/-- Session `t` set to `s`. -/
def put (c : Config Db Row ε α Op) (t : Nat) (s : Session Db Row ε α Op) :
    Config Db Row ε α Op :=
  { c with sessions := Function.update c.sessions t (some s) }

/-- Session `t` ended with the committed state `db`; its locks are released. -/
def finish (c : Config Db Row ε α Op) (t : Nat) (db : Db) : Config Db Row ε α Op where
  db := db
  clock := c.clock
  locks := fun r => if c.locks r = some t then none else c.locks r
  sessions := Function.update c.sessions t none

/-- Session `t` given the lock on `r`. -/
def grant [DecidableEq Row] (c : Config Db Row ε α Op) (t : Nat) (r : Row) :
    Config Db Row ε α Op :=
  { c with locks := Function.update c.locks r (some t) }

/-- The next statement of session `t`, which stands at `s`. -/
def advance [DecidableEq Row] (c : Config Db Row ε α Op) (t draw : Nat)
    (s : Session Db Row ε α Op) : Option (Config Db Row ε α Op) :=
  match s.prog with
  | .pure _ =>
    match s.pending c.db with
    | .ok db => some (c.finish t db)
    | .error _ => some (c.finish t c.db)
  | .raise _ => some (c.finish t c.db)
  | .utcnow k => some (c.put t { s with prog := k c.clock })
  | .uuid4 k => some (c.put t { s with prog := k draw })
  | .query k =>
    match s.pending c.db with
    | .ok view => some (c.put t { s with prog := k view })
    | .error _ => some (c.finish t c.db)
  | .lock r k =>
    if c.locks r = none ∨ c.locks r = some t then
      some ((c.grant t r).put t { s with prog := k })
    else none
  | .flush f k =>
    match s.pending c.db >>= f with
    | .ok _ => some (c.put t { s with prog := k, pending := fun db => s.pending db >>= f })
    | .error _ => some (c.finish t c.db)

/-- An ended session is not open, and the others are as they were. -/
theorem sessions_finish_eq_some {c : Config Db Row ε α Op} {t u : Nat} {db : Db}
    {s : Session Db Row ε α Op} (h : (c.finish t db).sessions u = some s) :
    u ≠ t ∧ c.sessions u = some s := by
  rcases update_option_eq_some h with ⟨-, hnone⟩ | hold
  · cases hnone
  · exact hold

/-- Ending a session leaves the others with the locks they had. -/
theorem held_finish {c : Config Db Row ε α Op} {t u : Nat} {db : Db} (hut : u ≠ t) :
    (c.finish t db).Held u = c.Held u := by
  funext r
  simp only [Held, finish, eq_iff_iff]
  split
  · rename_i hr
    rw [hr]
    simpa using hut.symm
  · exact Iff.rfl

/-- A granted lock is one more for its session. -/
theorem held_grant [DecidableEq Row] {c : Config Db Row ε α Op} {t : Nat} {r x : Row} :
    (c.grant t r).Held t x ↔ x = r ∨ c.Held t x := by
  simp only [Held, grant]
  by_cases hxr : x = r
  · subst hxr
    simp
  · rw [Function.update_of_ne hxr]
    simp [hxr]

/-- The other sessions hold what they held. -/
theorem held_grant_of_ne [DecidableEq Row] {c : Config Db Row ε α Op} {t u : Nat} {r : Row}
    (hfree : c.locks r = none ∨ c.locks r = some t) (hut : u ≠ t) :
    (c.grant t r).Held u = c.Held u := by
  funext x
  simp only [Held, grant, eq_iff_iff]
  by_cases hxr : x = r
  · subst hxr
    rw [Function.update_self]
    rcases hfree with hfree | hfree <;> simp [hfree, Ne.symm hut]
  · rw [Function.update_of_ne hxr]

/-- What a statement leaves of a session that stays open, with the clock at `clock` and the
committed state `db`. -/
inductive Proceeds (clock : Nat) (db : Db) (draw : Nat) (s : Session Db Row ε α Op) :
    Session Db Row ε α Op → Prop
  | utcnow {k : Nat → Txn Db Row ε α} (hprog : s.prog = .utcnow k) :
      Proceeds clock db draw s { s with prog := k clock }
  | uuid4 {k : Nat → Txn Db Row ε α} (hprog : s.prog = .uuid4 k) :
      Proceeds clock db draw s { s with prog := k draw }
  | query {k : Db → Txn Db Row ε α} {view : Db} (hprog : s.prog = .query k)
      (hview : s.pending db = .ok view) : Proceeds clock db draw s { s with prog := k view }
  | lock {r : Row} {k : Txn Db Row ε α} (hprog : s.prog = .lock r k) :
      Proceeds clock db draw s { s with prog := k }
  | flush {f : Db → Except ε Db} {k : Txn Db Row ε α} (hprog : s.prog = .flush f k) :
      Proceeds clock db draw s { s with prog := k, pending := fun db => s.pending db >>= f }

theorem Proceeds.not_raise {clock draw : Nat} {db : Db} {s s' : Session Db Row ε α Op}
    (h : Proceeds clock db draw s s') {e : ε} (hprog : s.prog = .raise e) : False := by
  cases h with
  | utcnow hp => cases hprog.symm.trans hp
  | uuid4 hp => cases hprog.symm.trans hp
  | query hp _ => cases hprog.symm.trans hp
  | lock hp => cases hprog.symm.trans hp
  | flush hp => cases hprog.symm.trans hp

/-- A query goes on with what it sees. -/
theorem Proceeds.of_query {clock draw : Nat} {db : Db} {s s' : Session Db Row ε α Op}
    (h : Proceeds clock db draw s s') {k : Db → Txn Db Row ε α} (hprog : s.prog = .query k) :
    ∃ view, s.pending db = .ok view ∧ s' = { s with prog := k view } := by
  cases h with
  | query hp hview =>
    cases hprog.symm.trans hp
    exact ⟨_, hview, rfl⟩
  | utcnow hp => cases hprog.symm.trans hp
  | uuid4 hp => cases hprog.symm.trans hp
  | lock hp => cases hprog.symm.trans hp
  | flush hp => cases hprog.symm.trans hp

/-- A session that is open after its statement has been moved on by it. -/
theorem proceeds_of_advance [DecidableEq Row] {c c' : Config Db Row ε α Op} {t draw : Nat}
    {s s' : Session Db Row ε α Op} (h : c.advance t draw s = some c')
    (hs' : c'.sessions t = some s') : Proceeds c.clock c.db draw s s' := by
  have hfinish : ∀ {db}, c.finish t db ≠ c' := by
    rintro db rfl
    exact (sessions_finish_eq_some hs').1 rfl
  have hput : ∀ {d : Config Db Row ε α Op} {s₁}, d.put t s₁ = c' → s' = s₁ := by
    rintro d s₁ rfl
    rcases update_eq_some hs' with ⟨-, rfl⟩ | ⟨hne, -⟩
    · rfl
    · exact absurd rfl hne
  unfold advance at h
  cases hprog : s.prog with
  | pure a =>
    rw [hprog] at h
    simp only at h
    split at h <;> exact absurd (Option.some.inj h) hfinish
  | raise e =>
    rw [hprog] at h
    exact absurd (Option.some.inj h) hfinish
  | utcnow k =>
    rw [hprog] at h
    rw [hput (Option.some.inj h)]
    exact .utcnow hprog
  | uuid4 k =>
    rw [hprog] at h
    rw [hput (Option.some.inj h)]
    exact .uuid4 hprog
  | query k =>
    rw [hprog] at h
    simp only at h
    split at h
    · rename_i view hview
      rw [hput (Option.some.inj h)]
      exact .query hprog hview
    · exact absurd (Option.some.inj h) hfinish
  | lock r k =>
    rw [hprog] at h
    simp only at h
    split at h
    · rw [hput (Option.some.inj h)]
      exact .lock hprog
    · cases h
  | flush f k =>
    rw [hprog] at h
    simp only at h
    split at h
    · rw [hput (Option.some.inj h)]
      exact .flush hprog
    · exact absurd (Option.some.inj h) hfinish

/-- What one statement of a session can do to a configuration: commit, end without a commit, lock a
row, or move the session on. -/
theorem advance_cases [DecidableEq Row] {c c' : Config Db Row ε α Op} {t draw : Nat}
    {s : Session Db Row ε α Op} (h : c.advance t draw s = some c') :
    (∃ a db, s.prog = .pure a ∧ s.pending c.db = .ok db ∧ c' = c.finish t db) ∨
    c' = c.finish t c.db ∨
    (∃ r k, s.prog = .lock r k ∧ (c.locks r = none ∨ c.locks r = some t) ∧
      c' = (c.grant t r).put t { s with prog := k }) ∨
    ∃ s', s'.op = s.op ∧ s'.opened = s.opened ∧ c' = c.put t s' := by
  unfold advance at h
  cases hprog : s.prog with
  | pure a =>
    rw [hprog] at h
    simp only at h
    split at h
    · rename_i db hdb
      cases h
      exact Or.inl ⟨a, db, rfl, hdb, rfl⟩
    · cases h
      exact Or.inr (Or.inl rfl)
  | raise e =>
    rw [hprog] at h
    cases h
    exact Or.inr (Or.inl rfl)
  | utcnow k =>
    rw [hprog] at h
    cases h
    exact Or.inr (Or.inr (Or.inr ⟨{ s with prog := k c.clock }, rfl, rfl, rfl⟩))
  | uuid4 k =>
    rw [hprog] at h
    cases h
    exact Or.inr (Or.inr (Or.inr ⟨{ s with prog := k draw }, rfl, rfl, rfl⟩))
  | query k =>
    rw [hprog] at h
    simp only at h
    split at h
    · rename_i view _
      cases h
      exact Or.inr (Or.inr (Or.inr ⟨{ s with prog := k view }, rfl, rfl, rfl⟩))
    · cases h
      exact Or.inr (Or.inl rfl)
  | lock r k =>
    rw [hprog] at h
    simp only at h
    split at h
    · rename_i hfree
      cases h
      exact Or.inr (Or.inr (Or.inl ⟨r, k, rfl, hfree, rfl⟩))
    · cases h
  | flush f k =>
    rw [hprog] at h
    simp only at h
    split at h
    · cases h
      exact Or.inr (Or.inr (Or.inr
        ⟨{ s with prog := k, pending := fun db => s.pending db >>= f }, rfl, rfl, rfl⟩))
    · cases h
      exact Or.inr (Or.inl rfl)

/-- The next statement of a session: it commits with a result, or it leaves the committed state
alone and the session ends or stays open. -/
theorem advance_result [DecidableEq Row] {c c' : Config Db Row ε α Op} {t draw : Nat}
    {s : Session Db Row ε α Op} (h : c.advance t draw s = some c') :
    (∀ u, u ≠ t → c'.sessions u = c.sessions u) ∧ c'.clock = c.clock ∧
    ((∃ a, s.result c.db = some a ∧ s.prog = .pure a ∧ s.pending c.db = .ok c'.db ∧
        c'.sessions t = none) ∨
      (s.result c.db = none ∧ c'.db = c.db ∧ (c'.sessions t = none ∨
        ∃ s', s'.op = s.op ∧ s'.opened = s.opened ∧ c'.sessions t = some s'))) := by
  rcases hresult : s.result c.db with - | a
  · rcases advance_cases h with ⟨a, db, hprog, hdb, rfl⟩ | rfl | ⟨r, k, -, -, rfl⟩ |
      ⟨s', hop, hopened, rfl⟩
    · rw [Session.result_eq_some.2 ⟨hprog, db, hdb⟩] at hresult
      cases hresult
    · exact ⟨fun u hu => Function.update_of_ne hu .., rfl,
        Or.inr ⟨rfl, rfl, Or.inl (Function.update_self ..)⟩⟩
    · exact ⟨fun u hu => Function.update_of_ne hu .., rfl,
        Or.inr ⟨rfl, rfl, Or.inr ⟨{ s with prog := k }, rfl, rfl, Function.update_self ..⟩⟩⟩
    · exact ⟨fun u hu => Function.update_of_ne hu .., rfl,
        Or.inr ⟨rfl, rfl, Or.inr ⟨s', hop, hopened, Function.update_self ..⟩⟩⟩
  · obtain ⟨hprog, db, hdb⟩ := Session.result_eq_some.1 hresult
    simp only [advance, hprog, hdb, Option.some.injEq] at h
    subst h
    exact ⟨fun u hu => Function.update_of_ne hu .., rfl,
      Or.inl ⟨a, rfl, hprog, hdb, Function.update_self ..⟩⟩

/-- Session `t` waits for session `u`: its next statement locks a row that `u` holds. -/
def Waits (c : Config Db Row ε α Op) (t u : Nat) : Prop :=
  u ≠ t ∧ ∃ s r k, c.sessions t = some s ∧ s.prog = .lock r k ∧ c.Held u r

/-- The operation a scheduler choice answers, with its result: that of the session that commits. -/
def delivered {Env : Type} (c : Config Db Row ε α Op) : Label Op Env → Option (Op × α)
  | .step t _ => (c.sessions t).bind fun s => (s.result c.db).map fun a => (s.op, a)
  | _ => none

end Config

namespace System

variable {Db Row ε α Op Env : Type} [DecidableEq Row] (S : System Db Row ε α Op Env)

/-- One scheduler choice. -/
def next (c : Config Db Row ε α Op) : Label Op Env → Option (Config Db Row ε α Op)
  | .start t op =>
    match c.sessions t with
    | none => some (c.put t ⟨op, c.db, S.program op, .ok⟩)
    | some _ => none
  | .step t draw =>
    match c.sessions t with
    | none => none
    | some s => c.advance t draw s
  | .abort t => (c.sessions t).map fun _ => c.finish t c.db
  | .tick n => some { c with clock := c.clock + n }
  | .env e => some { c with db := S.env e c.db }

/-- What one scheduler choice does to the committed state: nothing, a commit of a session at the end
of its body, or a write of another part of the service. -/
theorem next_db {c c' : Config Db Row ε α Op} {l : Label Op Env} (h : S.next c l = some c') :
    c'.db = c.db ∨
    (∃ t draw s a, l = .step t draw ∧ c.sessions t = some s ∧ s.prog = .pure a ∧
      s.pending c.db = .ok c'.db) ∨
    ∃ e, l = .env e ∧ c'.db = S.env e c.db := by
  cases l with
  | start t op =>
    cases hs : c.sessions t with
    | some s => simp [next, hs] at h
    | none =>
      simp only [next, hs, Option.some.injEq] at h
      subst h
      exact Or.inl rfl
  | step t draw =>
    cases hs : c.sessions t with
    | none => simp [next, hs] at h
    | some s =>
      simp only [next, hs] at h
      rcases Config.advance_cases h with ⟨a, db, hprog, hdb, rfl⟩ | rfl | ⟨r, k, -, -, rfl⟩ |
        ⟨s', -, -, rfl⟩
      · exact Or.inr (Or.inl ⟨t, draw, s, a, rfl, hs, hprog, hdb⟩)
      · exact Or.inl rfl
      · exact Or.inl rfl
      · exact Or.inl rfl
  | abort t =>
    simp only [next, Option.map_eq_some_iff] at h
    obtain ⟨s, -, rfl⟩ := h
    exact Or.inl rfl
  | tick n =>
    simp only [next, Option.some.injEq] at h
    subst h
    exact Or.inl rfl
  | env e =>
    simp only [next, Option.some.injEq] at h
    subst h
    exact Or.inr (Or.inr ⟨e, rfl, rfl⟩)

/-- An open session was open before, for the same operation, or has just been started. -/
theorem next_session {c c' : Config Db Row ε α Op} {l : Label Op Env} (h : S.next c l = some c')
    {u : Nat} {s' : Session Db Row ε α Op} (hs' : c'.sessions u = some s') :
    (∃ s, c.sessions u = some s ∧ s'.op = s.op ∧ s'.opened = s.opened) ∨
      ∃ op, l = .start u op ∧ s' = ⟨op, c.db, S.program op, .ok⟩ := by
  have hfinish : ∀ t, Function.update c.sessions t none u = some s' →
      ∃ s, c.sessions u = some s ∧ s'.op = s.op ∧ s'.opened = s.opened := by
    intro t ht
    by_cases hut : u = t
    · rw [hut, Function.update_self] at ht
      cases ht
    · rw [Function.update_of_ne hut] at ht
      exact ⟨s', ht, rfl, rfl⟩
  cases l with
  | start t op =>
    simp only [next] at h
    split at h
    · cases h
      by_cases hut : u = t
      · subst hut
        simp only [Config.put, Function.update_self, Option.some.injEq] at hs'
        exact Or.inr ⟨op, rfl, hs'.symm⟩
      · simp only [Config.put, Function.update_of_ne hut] at hs'
        exact Or.inl ⟨s', hs', rfl, rfl⟩
    · cases h
  | step t draw =>
    simp only [next] at h
    split at h
    · cases h
    rename_i s hs
    obtain ⟨hothers, -, hstep⟩ := Config.advance_result h
    by_cases hut : u = t
    · subst hut
      rcases hstep with ⟨_, -, -, -, hnone⟩ | ⟨-, -, hnone | ⟨s'', hop, hopened, hsome⟩⟩
      · rw [hnone] at hs'
        cases hs'
      · rw [hnone] at hs'
        cases hs'
      · rw [hsome, Option.some.injEq] at hs'
        subst hs'
        exact Or.inl ⟨s, hs, hop, hopened⟩
    · rw [hothers u hut] at hs'
      exact Or.inl ⟨s', hs', rfl, rfl⟩
  | abort t =>
    simp only [next, Option.map_eq_some_iff] at h
    obtain ⟨_, -, rfl⟩ := h
    exact Or.inl (hfinish t hs')
  | tick n =>
    simp only [next, Option.some.injEq] at h
    subst h
    exact Or.inl ⟨s', hs', rfl, rfl⟩
  | env e =>
    simp only [next, Option.some.injEq] at h
    subst h
    exact Or.inl ⟨s', hs', rfl, rfl⟩

/-- An open session has just been started, or it is the one that took the step, or it is as it
was. -/
theorem next_session_cases {c c' : Config Db Row ε α Op} {l : Label Op Env}
    (h : S.next c l = some c') {u : Nat} {s' : Session Db Row ε α Op}
    (hs' : c'.sessions u = some s') :
    (∃ op, l = .start u op ∧ s' = ⟨op, c.db, S.program op, .ok⟩) ∨
    (∃ draw s, l = .step u draw ∧ c.sessions u = some s ∧ c.advance u draw s = some c' ∧
      s'.op = s.op) ∨
    (c.sessions u = some s' ∧ (∀ op, l ≠ .start u op) ∧ ∀ draw, l ≠ .step u draw) := by
  cases l with
  | start t op =>
    simp only [next] at h
    split at h
    · cases h
      rcases update_eq_some hs' with ⟨rfl, rfl⟩ | ⟨hut, hold⟩
      · exact Or.inl ⟨op, rfl, rfl⟩
      · exact Or.inr (Or.inr ⟨hold, fun _ heq => hut (by cases heq; rfl), fun _ => nofun⟩)
    · cases h
  | step t draw =>
    simp only [next] at h
    split at h
    · cases h
    rename_i s hs
    obtain ⟨hothers, -, hstep⟩ := Config.advance_result h
    by_cases hut : u = t
    · subst hut
      refine Or.inr (Or.inl ⟨draw, s, rfl, hs, h, ?_⟩)
      rcases hstep with ⟨_, -, -, -, hnone⟩ | ⟨-, -, hnone | ⟨s'', hop, -, hsome⟩⟩
      · rw [hnone] at hs'
        cases hs'
      · rw [hnone] at hs'
        cases hs'
      · rw [hsome, Option.some.injEq] at hs'
        exact hs' ▸ hop
    · rw [hothers u hut] at hs'
      exact Or.inr (Or.inr ⟨hs', fun _ => nofun, fun _ heq => hut (by cases heq; rfl)⟩)
  | abort t =>
    simp only [next, Option.map_eq_some_iff] at h
    obtain ⟨_, -, rfl⟩ := h
    rcases update_option_eq_some hs' with ⟨-, hnone⟩ | ⟨-, hold⟩
    · cases hnone
    · exact Or.inr (Or.inr ⟨hold, fun _ => nofun, fun _ => nofun⟩)
  | tick n =>
    simp only [next, Option.some.injEq] at h
    subst h
    exact Or.inr (Or.inr ⟨hs', fun _ => nofun, fun _ => nofun⟩)
  | env e =>
    simp only [next, Option.some.injEq] at h
    subst h
    exact Or.inr (Or.inr ⟨hs', fun _ => nofun, fun _ => nofun⟩)

/-- The clock does not go back. -/
theorem clock_le_of_next {c c' : Config Db Row ε α Op} {l : Label Op Env}
    (h : S.next c l = some c') : c.clock ≤ c'.clock := by
  cases l with
  | start t op =>
    simp only [next] at h
    split at h
    · cases h
      exact Nat.le_refl _
    · cases h
  | step t draw =>
    simp only [next] at h
    split at h
    · cases h
    · exact Nat.le_of_eq (Config.advance_result h).2.1.symm
  | abort t =>
    simp only [next, Option.map_eq_some_iff] at h
    obtain ⟨_, -, rfl⟩ := h
    exact Nat.le_refl _
  | tick n =>
    simp only [next, Option.some.injEq] at h
    subst h
    exact Nat.le_add_right _ _
  | env e =>
    simp only [next, Option.some.injEq] at h
    subst h
    exact Nat.le_refl _

/-- All interleavings of the system's sessions. -/
def machine : Machine (Config Db Row ε α Op) (Label Op Env) := ⟨S.next⟩

/-! ## What a run answers -/

/-- The operations a run answers, in the order of their commits. -/
def answers : Config Db Row ε α Op → List (Label Op Env) → List (Op × α)
  | _, [] => []
  | c, l :: ls =>
    match S.next c l with
    | none => []
    | some c' => (c.delivered l).toList ++ answers c' ls

/-- A scheduler choice is a commit that answers its operation, or it answers nothing. -/
theorem delivered_cases {c c' : Config Db Row ε α Op} {l : Label Op Env}
    (h : S.next c l = some c') :
    (c.delivered l = none ∧ (c'.db = c.db ∨ ∃ e, l = .env e ∧ c'.db = S.env e c.db)) ∨
    ∃ t draw s a, l = .step t draw ∧ c.sessions t = some s ∧ s.prog = .pure a ∧
      s.pending c.db = .ok c'.db ∧ c.delivered l = some (s.op, a) := by
  cases l with
  | step t draw =>
    simp only [next] at h
    split at h
    · cases h
    rename_i s hs
    rcases (Config.advance_result h).2.2 with ⟨a, hresult, hprog, hpending, -⟩ | ⟨hresult, hdb, -⟩
    · exact Or.inr
        ⟨t, draw, s, a, rfl, hs, hprog, hpending, by simp [Config.delivered, hs, hresult]⟩
    · exact Or.inl ⟨by simp [Config.delivered, hs, hresult], Or.inl hdb⟩
  | start t op =>
    rcases S.next_db h with hdb | ⟨u, draw, s, a, hl, -⟩ | ⟨e, hl, -⟩
    · exact Or.inl ⟨rfl, Or.inl hdb⟩
    · cases hl
    · cases hl
  | abort t =>
    rcases S.next_db h with hdb | ⟨u, draw, s, a, hl, -⟩ | ⟨e, hl, -⟩
    · exact Or.inl ⟨rfl, Or.inl hdb⟩
    · cases hl
    · cases hl
  | tick n =>
    rcases S.next_db h with hdb | ⟨u, draw, s, a, hl, -⟩ | ⟨e, hl, -⟩
    · exact Or.inl ⟨rfl, Or.inl hdb⟩
    · cases hl
    · cases hl
  | env e =>
    simp only [next, Option.some.injEq] at h
    subst h
    exact Or.inl ⟨rfl, Or.inr ⟨e, rfl, rfl⟩⟩

/-- A property of a state and of what was answered on the way to it, if every admitted step keeps
it, holds along every admitted run. -/
theorem answers_preserves {ok : Config Db Row ε α Op → Label Op Env → Prop}
    [∀ c l, Decidable (ok c l)] {I : Config Db Row ε α Op → List (Op × α) → Prop}
    (hI : ∀ c l c' past, I c past → ok c l → S.next c l = some c' →
      I c' (past ++ (c.delivered l).toList))
    (ls : List (Label Op Env)) {c c' : Config Db Row ε α Op} {past : List (Op × α)} (h : I c past)
    (hrun : S.machine.execOf ok c ls = some c') : I c' (past ++ S.answers c ls) := by
  induction ls generalizing c past with
  | nil =>
    cases hrun
    rw [answers, List.append_nil]
    exact h
  | cons l ls ih =>
    simp only [Machine.execOf] at hrun
    split at hrun
    · rename_i hok
      obtain ⟨m, hm, hrest⟩ := Option.bind_eq_some_iff.1 hrun
      have hstep := ih (hI c l m past h hok hm) hrest
      simp only [machine] at hm
      simp only [answers, hm]
      rwa [List.append_assoc] at hstep
    · cases hrun

end System

end SmartLogistics.Library
