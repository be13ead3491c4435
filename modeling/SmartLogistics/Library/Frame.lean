import SmartLogistics.Library.Table

/-!
# What a transaction leaves alone

A body frames a relation `P` where `I` holds (`Txn.Frames I P`) if, as long as the states its
queries see satisfy `I`, each of its writes relates the state before it to the state after it by
`P`. Run alone from a state that satisfies `I`, such a body leaves a state related to it by `P`
(`Txn.Frames.after`); among other sessions, so does its commit as long as the committed states
satisfy `I` (`System.framed_of_run`, `System.Framed.step`).
-/

set_option autoImplicit false

namespace SmartLogistics.Library

variable {Db Row ε α β Op Env : Type}

/-- `P` is a preorder on states that keeps `I`. -/
structure Frame (I : Db → Prop) (P : Db → Db → Prop) : Prop where
  refl : ∀ db, P db db
  trans : ∀ {a b c}, P a b → P b c → P a c
  keeps : ∀ {a b}, P a b → I a → I b

namespace Txn

/-- As long as the states its queries see satisfy `I`, every write of the body relates the state
before it to the state after it by `P`. -/
def Frames (I : Db → Prop) (P : Db → Db → Prop) : Txn Db Row ε α → Prop
  | .pure _ => True
  | .raise _ => True
  | .utcnow k => ∀ n, (k n).Frames I P
  | .uuid4 k => ∀ n, (k n).Frames I P
  | .query k => ∀ db, I db → (k db).Frames I P
  | .lock _ k => k.Frames I P
  | .flush f k => (∀ db db', f db = .ok db' → P db db') ∧ k.Frames I P

/-- The state committed if the rest of a transaction runs alone from `db` on: `base`, where the
transaction began, if it fails. -/
def commit (base : Db) (now ids : Nat) (db : Db) (x : Txn Db Row ε α) : Db :=
  match x.runAlone now ids db with
  | .ok r => r.2.1
  | .error _ => base

/-- The state a transaction that runs alone leaves. -/
def after (now ids : Nat) (db : Db) (x : Txn Db Row ε α) : Db := x.commit db now ids db

variable {I : Db → Prop} {P : Db → Db → Prop}

theorem Frames.bind {x : Txn Db Row ε α} {f : α → Txn Db Row ε β} (hx : x.Frames I P)
    (hf : ∀ a, (f a).Frames I P) : (x.bind f).Frames I P := by
  induction x with
  | pure a => exact hf a
  | raise e => trivial
  | utcnow k ih => exact fun n => ih n (hx n)
  | uuid4 k ih => exact fun n => ih n (hx n)
  | query k ih => exact fun db hdb => ih db (hx db hdb)
  | lock r k ih => exact ih hx
  | flush g k ih => exact ⟨hx.1, ih hx.2⟩

theorem frames_select (q : Db → β) : (select q : Txn Db Row ε β).Frames I P := fun _ _ => trivial

theorem frames_write {f : Db → Except ε Db} (hf : ∀ db db', f db = .ok db' → P db db') :
    (write f : Txn Db Row ε Unit).Frames I P := ⟨hf, trivial⟩

theorem frames_ofExcept (r : Except ε α) : (ofExcept r : Txn Db Row ε α).Frames I P := by
  cases r with
  | ok a => trivial
  | error e => trivial

theorem frames_lockEach {κ ρ : Type} (row : κ → Row) (get : Db → κ → Option ρ) (ks : List κ) :
    (lockEach row get ks : Txn Db Row ε (List ρ)).Frames I P := by
  induction ks with
  | nil => trivial
  | cons k ks ih => exact fun _ _ => ih.bind fun _ => trivial

theorem frames_selectForUpdate {ρ : Type} (key : ρ → Nat) (row : Nat → Row) (table : Db → List ρ)
    (p : ρ → Bool) : (Table.selectForUpdate key row table p : Txn Db Row ε _).Frames I P :=
  (frames_select _).bind fun _ => frames_lockEach row _ _

/-! ## Running alone -/

section Alone

variable {base : Db} {now ids ids' : Nat} {db db' : Db} {x : Txn Db Row ε α} {a : α}
  {f : α → Txn Db Row ε β}

/-- Two bodies one after the other, run alone. -/
theorem runAlone_bind : (x.bind f).runAlone now ids db =
    (x.runAlone now ids db).bind fun r => (f r.1).runAlone now r.2.2 r.2.1 := by
  induction x generalizing ids db with
  | pure a => rfl
  | raise e => rfl
  | utcnow k ih => exact ih now
  | uuid4 k ih => exact ih ids
  | query k ih => exact ih db
  | lock r k ih => exact ih
  | flush g k ih =>
    simp only [Txn.bind, runAlone]
    cases g db with
    | ok db' => exact ih
    | error e => rfl

/-- A body whose first part has run. -/
theorem commit_bind (h : x.runAlone now ids db = .ok (a, db', ids')) :
    (x.bind f).commit base now ids db = (f a).commit base now ids' db' := by
  rw [commit, runAlone_bind, h]
  rfl

/-- A body whose first part fails. -/
theorem commit_bind_error {e : ε} (h : x.runAlone now ids db = .error e) :
    (x.bind f).commit base now ids db = base := by
  rw [commit, runAlone_bind, h]
  rfl

/-- A body that begins with a query. -/
theorem commit_select {q : Db → α} :
    ((select q).bind f).commit base now ids db = (f (q db)).commit base now ids db := rfl

/-- A write that the database accepts. -/
theorem commit_write {g : Db → Except ε Db} {k : Unit → Txn Db Row ε β} (h : g db = .ok db') :
    ((write g).bind k).commit base now ids db = (k ()).commit base now ids db' := by
  simp only [write, Txn.bind, commit, runAlone, h]

/-- A write that the database refuses. -/
theorem commit_write_error {g : Db → Except ε Db} {k : Unit → Txn Db Row ε β} {e : ε}
    (h : g db = .error e) : ((write g).bind k).commit base now ids db = base := by
  simp only [write, Txn.bind, commit, runAlone, h]

/-- Two bodies one after the other succeed if both do. -/
theorem runAlone_bind_eq_ok {r : β × Db × Nat} (h : (x.bind f).runAlone now ids db = .ok r) :
    ∃ a db' ids', x.runAlone now ids db = .ok (a, db', ids') ∧
      (f a).runAlone now ids' db' = .ok r := by
  rw [runAlone_bind] at h
  cases hx : x.runAlone now ids db with
  | error e =>
    rw [hx] at h
    cases h
  | ok out =>
    rw [hx] at h
    exact ⟨out.1, out.2.1, out.2.2, rfl, h⟩

/-- A body whose first part has run, to its result. -/
theorem runAlone_bind_of_ok (h : x.runAlone now ids db = .ok (a, db', ids')) :
    (x.bind f).runAlone now ids db = (f a).runAlone now ids' db' := by
  rw [runAlone_bind, h]
  rfl

theorem runAlone_select_bind {q : Db → α} : ((select q).bind f).runAlone now ids db =
    (f (q db)).runAlone now ids db := rfl

theorem runAlone_now_bind {k : Nat → Txn Db Row ε β} :
    ((Txn.now).bind k).runAlone now ids db = (k now).runAlone now ids db := rfl

theorem runAlone_ofExcept_bind {r : Except ε α} : ((ofExcept r).bind f).runAlone now ids db =
    r.bind fun a => (f a).runAlone now ids db := by
  cases r with
  | ok a => rfl
  | error e => rfl

/-- A write and what follows it, run alone. -/
theorem runAlone_write_bind {g : Db → Except ε Db} {k : Unit → Txn Db Row ε β} :
    ((write g).bind k).runAlone now ids db =
      (g db).bind fun db' => (k ()).runAlone now ids db' := by
  simp only [write, Txn.bind, runAlone]
  cases g db with
  | ok db' => rfl
  | error e => rfl

/-- Locking reads run alone find the rows of the state and write nothing. -/
theorem runAlone_lockEach {κ ρ : Type} (row : κ → Row) (get : Db → κ → Option ρ) (ks : List κ) :
    (lockEach row get ks : Txn Db Row ε (List ρ)).runAlone now ids db =
      .ok (ks.filterMap (get db), db, ids) := by
  induction ks with
  | nil => rfl
  | cons k ks ih =>
    simp only [lockEach, runAlone, runAlone_bind, ih]
    rw [List.filterMap_cons]
    cases get db k <;> rfl

/-- `SELECT … FOR UPDATE` run alone. -/
theorem runAlone_selectForUpdate {ρ : Type} (key : ρ → Nat) (row : Nat → Row) (table : Db → List ρ)
    (p : ρ → Bool) (now ids : Nat) (db : Db) :
    (Table.selectForUpdate key row table p : Txn Db Row ε _).runAlone now ids db =
      .ok (Table.rowsWhere key p (table db), db, ids) :=
  runAlone_lockEach row _ _

end Alone

/-- A framing body, run alone, leaves a related state. -/
theorem Frames.after (hframe : Frame I P) {x : Txn Db Row ε α} (hx : x.Frames I P) {now ids : Nat}
    {db : Db} (hdb : I db) : P db (x.after now ids db) := by
  suffices h : ∀ base, P base db → P base (x.commit base now ids db) from h db (hframe.refl db)
  intro base hbase
  simp only [commit]
  induction x generalizing ids db with
  | pure a => exact hbase
  | raise e => exact hframe.refl base
  | utcnow k ih => exact ih now (hx now) hdb hbase
  | uuid4 k ih => exact ih ids (hx ids) hdb hbase
  | query k ih => exact ih db (hx db hdb) hdb hbase
  | lock r k ih => exact ih hx hdb hbase
  | flush g k ih =>
    simp only [runAlone]
    cases hg : g db with
    | error e => exact hframe.refl base
    | ok db' =>
      have hP := hx.1 db db' hg
      exact ih hx.2 (hframe.keeps hP hdb) (hframe.trans hbase hP)

end Txn

/-! ## Among other sessions -/

/-- A session whose writes, those to come and those already sent, are framed. -/
structure Session.Framed (I : Db → Prop) (P : Db → Db → Prop) (s : Session Db Row ε α Op) :
    Prop where
  prog : s.prog.Frames I P
  pending : ∀ db db', s.pending db = .ok db' → P db db'

variable {I : Db → Prop} {P : Db → Db → Prop}

/-- A framed session that takes a step is still framed. -/
theorem Session.Framed.advance [DecidableEq Row] (hframe : Frame I P) {c c' : Config Db Row ε α Op}
    {t draw : Nat} {s s' : Session Db Row ε α Op} (h : s.Framed I P) (hdb : I c.db)
    (hstep : c.advance t draw s = some c') (hs' : c'.sessions t = some s') : s'.Framed I P := by
  obtain ⟨hprog, hpending⟩ := h
  cases Config.proceeds_of_advance hstep hs' with
  | utcnow hp =>
    rw [hp] at hprog
    exact ⟨hprog c.clock, hpending⟩
  | uuid4 hp =>
    rw [hp] at hprog
    exact ⟨hprog draw, hpending⟩
  | query hp hview =>
    rw [hp] at hprog
    exact ⟨hprog _ (hframe.keeps (hpending _ _ hview) hdb), hpending⟩
  | lock hp =>
    rw [hp] at hprog
    exact ⟨hprog, hpending⟩
  | @flush f k hp =>
    rw [hp] at hprog
    refine ⟨hprog.2, fun db db' (hsent : (s.pending db >>= f) = .ok db') => ?_⟩
    cases hview : s.pending db with
    | error e =>
      rw [hview] at hsent
      cases hsent
    | ok view =>
      rw [hview] at hsent
      exact hframe.trans (hpending _ _ hview) (hprog.1 _ _ hsent)

namespace System

variable [DecidableEq Row] (S : System Db Row ε α Op Env)

/-- The open sessions of the operations `Q` are framed. -/
def Framed (I : Db → Prop) (P : Db → Db → Prop) (Q : Op → Prop) (c : Config Db Row ε α Op) : Prop :=
  ∀ t s, c.sessions t = some s → Q s.op → s.Framed I P

variable {S} {Q : Op → Prop}

theorem Framed.next (hframe : Frame I P) (hQ : ∀ op, Q op → (S.program op).Frames I P)
    {c c' : Config Db Row ε α Op} {l : Label Op Env} (h : Framed I P Q c) (hdb : I c.db)
    (hnext : S.next c l = some c') : Framed I P Q c' := by
  intro u s' hs' hop
  rcases S.next_session_cases hnext hs' with ⟨op, -, rfl⟩ | ⟨draw, s, -, hs, hstep, hsop⟩ |
    ⟨hs, -, -⟩
  · refine ⟨hQ op hop, fun db db' hdb' => ?_⟩
    cases hdb'
    exact hframe.refl db
  · exact (h u s hs (hsop ▸ hop)).advance hframe hdb hstep hs'
  · exact h u s' hs hop

/-- The next statement of a framed session commits nothing but what `P` allows. -/
theorem Framed.step (hframe : Frame I P) {c c' : Config Db Row ε α Op} (h : Framed I P Q c)
    {t draw : Nat} {s : Session Db Row ε α Op} (hs : c.sessions t = some s) (hop : Q s.op)
    (hnext : S.next c (.step t draw) = some c') : P c.db c'.db := by
  simp only [System.next, hs] at hnext
  rcases (Config.advance_result hnext).2.2 with ⟨a, -, -, hpending, -⟩ | ⟨-, hdb, -⟩
  · exact (h t s hs hop).pending _ _ hpending
  · rw [hdb]
    exact hframe.refl c.db

/-- Sessions stay framed along every run whose states satisfy `I`. -/
theorem framed_of_run (hframe : Frame I P) (hQ : ∀ op, Q op → (S.program op).Frames I P)
    {c c' : Config Db Row ε α Op} (h : Framed I P Q c)
    (hrun : S.machine.RunOf (fun m _ => I m.db) c c') : Framed I P Q c' :=
  hrun.preserves (fun _ _ _ hm hdb hnext => Framed.next hframe hQ hm hdb hnext) h

end System

end SmartLogistics.Library
