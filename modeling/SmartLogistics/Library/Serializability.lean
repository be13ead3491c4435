import SmartLogistics.Library.Transaction

/-!
# Transactions that lock what they read

`Txn.Evaluates` is the meaning of a body run alone. A body that reads and writes only rows it has
locked (`Txn.LocksReads`) cannot tell an interleaving from running alone at the moment of its
commit: in every configuration the system reaches, what a session commits is what its operation, run
alone from the committed state, can do (`Config.Serial.commit`). The invariant `Session.Serial` is
carried by every step (`Config.Serial.next`); it says that whatever the rest of the body does now,
the whole body can do from any state that agrees with the committed one on the rows the session
holds.

Of any other body it is still true that a session commits writes that the body issues when each of
its queries is answered from the state committed at that moment, under the writes it has sent by
then (`Txn.Issues`, `Config.Issuing.commit`).
-/

set_option autoImplicit false

namespace SmartLogistics.Library

variable {Db Row ε α β Op Env : Type}

namespace Txn

/-- The body, run alone from a state, can return `a` and leave another state. The clock and the ids
it draws are any. -/
inductive Evaluates : Txn Db Row ε α → Db → α → Db → Prop
  | pure (a : α) (db : Db) : Evaluates (.pure a) db a db
  | utcnow {k : Nat → Txn Db Row ε α} {db db' : Db} {a : α} (n : Nat) :
      Evaluates (k n) db a db' → Evaluates (.utcnow k) db a db'
  | uuid4 {k : Nat → Txn Db Row ε α} {db db' : Db} {a : α} (n : Nat) :
      Evaluates (k n) db a db' → Evaluates (.uuid4 k) db a db'
  | query {k : Db → Txn Db Row ε α} {db db' : Db} {a : α} :
      Evaluates (k db) db a db' → Evaluates (.query k) db a db'
  | lock {r : Row} {k : Txn Db Row ε α} {db db' : Db} {a : α} :
      Evaluates k db a db' → Evaluates (.lock r k) db a db'
  | flush {f : Db → Except ε Db} {k : Txn Db Row ε α} {db mid db' : Db} {a : α} :
      f db = .ok mid → Evaluates k mid a db' → Evaluates (.flush f k) db a db'

/-- Evaluating a sequence is evaluating its parts. -/
theorem evaluates_bind {f : α → Txn Db Row ε β} {db' : Db} {b : β} :
    ∀ {x : Txn Db Row ε α} {db : Db}, (x.bind f).Evaluates db b db' →
      ∃ a mid, x.Evaluates db a mid ∧ (f a).Evaluates mid b db' := by
  intro x
  induction x with
  | pure a => exact fun h => ⟨a, _, .pure a _, h⟩
  | raise e => exact fun h => by cases h
  | utcnow k ih =>
    intro db h
    cases h with
    | utcnow n h =>
      obtain ⟨a, mid, h₁, h₂⟩ := ih n h
      exact ⟨a, mid, .utcnow n h₁, h₂⟩
  | uuid4 k ih =>
    intro db h
    cases h with
    | uuid4 n h =>
      obtain ⟨a, mid, h₁, h₂⟩ := ih n h
      exact ⟨a, mid, .uuid4 n h₁, h₂⟩
  | query k ih =>
    intro db h
    cases h with
    | query h =>
      obtain ⟨a, mid, h₁, h₂⟩ := ih _ h
      exact ⟨a, mid, .query h₁, h₂⟩
  | lock r k ih =>
    intro db h
    cases h with
    | lock h =>
      obtain ⟨a, mid, h₁, h₂⟩ := ih h
      exact ⟨a, mid, .lock h₁, h₂⟩
  | flush g k ih =>
    intro db h
    cases h with
    | flush hg h =>
      obtain ⟨a, mid, h₁, h₂⟩ := ih h
      exact ⟨a, mid, .flush hg h₁, h₂⟩

/-- The body, which has sent the writes `sent`, can return `a` having sent the writes `all`, while
the committed states are `states`, from now on and in their order. Each query is answered from the
state committed at its moment, under the writes sent by then. -/
inductive Issues : List Db → (Db → Except ε Db) → Txn Db Row ε α → α → (Db → Except ε Db) → Prop
  | pure {states : List Db} {sent : Db → Except ε Db} (a : α) : Issues states sent (.pure a) a sent
  | utcnow {states : List Db} {sent all : Db → Except ε Db} {k : Nat → Txn Db Row ε α} {a : α}
      (n : Nat) : Issues states sent (k n) a all → Issues states sent (.utcnow k) a all
  | uuid4 {states : List Db} {sent all : Db → Except ε Db} {k : Nat → Txn Db Row ε α} {a : α}
      (n : Nat) : Issues states sent (k n) a all → Issues states sent (.uuid4 k) a all
  | query {states rest : List Db} {db view : Db} {sent all : Db → Except ε Db}
      {k : Db → Txn Db Row ε α} {a : α} : (db :: rest) <:+ states → sent db = .ok view →
      Issues (db :: rest) sent (k view) a all → Issues states sent (.query k) a all
  | lock {states : List Db} {sent all : Db → Except ε Db} {r : Row} {k : Txn Db Row ε α} {a : α} :
      Issues states sent k a all → Issues states sent (.lock r k) a all
  | flush {states : List Db} {sent f all : Db → Except ε Db} {k : Txn Db Row ε α} {a : α} :
      Issues states (fun db => sent db >>= f) k a all → Issues states sent (.flush f k) a all

/-- A body may as well be begun earlier. -/
theorem Issues.earlier {x : Txn Db Row ε α} {states states' : List Db} {sent all : Db → Except ε Db}
    {a : α} (h : Issues states sent x a all) (hle : states <:+ states') :
    Issues states' sent x a all := by
  induction h with
  | pure a => exact .pure a
  | utcnow n _ ih => exact .utcnow n (ih hle)
  | uuid4 n _ ih => exact .uuid4 n (ih hle)
  | query hnow hview hrest _ => exact .query (hnow.trans hle) hview hrest
  | lock _ ih => exact .lock (ih hle)
  | flush _ ih => exact .flush (ih hle)

/-- A sequence issues the writes of its parts, one after the other. -/
theorem issues_bind {h : α → Txn Db Row ε β} {b : β} {all : Db → Except ε Db} :
    ∀ {x : Txn Db Row ε α} {states : List Db} {sent : Db → Except ε Db},
      Issues states sent (x.bind h) b all →
      ∃ a mid, Issues states sent x a mid ∧ Issues states mid (h a) b all := by
  -- the states and the writes sent differ at each statement, so the induction is on all of them
  intro x
  induction x with
  | pure a => exact fun hall => ⟨a, _, .pure a, hall⟩
  | raise e => exact fun hall => by cases hall
  | utcnow k ih =>
    intro states sent hall
    cases hall with
    | utcnow n hall =>
      obtain ⟨a, mid, h₁, h₂⟩ := ih n hall
      exact ⟨a, mid, .utcnow n h₁, h₂⟩
  | uuid4 k ih =>
    intro states sent hall
    cases hall with
    | uuid4 n hall =>
      obtain ⟨a, mid, h₁, h₂⟩ := ih n hall
      exact ⟨a, mid, .uuid4 n h₁, h₂⟩
  | query k ih =>
    intro states sent hall
    cases hall with
    | query hnow hview hall =>
      -- what is issued after the query is issued from before it
      obtain ⟨a, mid, h₁, h₂⟩ := ih _ hall
      exact ⟨a, mid, .query hnow hview h₁, h₂.earlier hnow⟩
  | lock r k ih =>
    intro states sent hall
    cases hall with
    | lock hall =>
      obtain ⟨a, mid, h₁, h₂⟩ := ih hall
      exact ⟨a, mid, .lock h₁, h₂⟩
  | flush f k ih =>
    intro states sent hall
    cases hall with
    | flush hall =>
      obtain ⟨a, mid, h₁, h₂⟩ := ih hall
      exact ⟨a, mid, .flush h₁, h₂⟩

/-- The states agree on the rows. -/
def AgreeOn (agree : Row → Db → Db → Prop) (held : Row → Prop) (db db' : Db) : Prop :=
  ∀ r, held r → agree r db db'

/-- A write that reads and changes only the given rows. -/
structure WritesOnly (agree : Row → Db → Db → Prop) (held : Row → Prop) (f : Db → Except ε Db) :
    Prop where
  /-- The other rows stay. -/
  frame : ∀ db db', f db = .ok db' → ∀ r, ¬ held r → agree r db db'
  /-- What it makes of the rows depends on them only. -/
  congr : ∀ db₁ db₂ db₁' db₂', AgreeOn agree held db₁ db₂ → f db₁ = .ok db₁' → f db₂ = .ok db₂' →
    AgreeOn agree held db₁' db₂'

/-- The body, holding the given rows, reads and writes only rows it has locked by then. -/
def LocksReads (agree : Row → Db → Db → Prop) :
    (held : Row → Prop) → Txn Db Row ε α → Prop
  | _, .pure _ => True
  | _, .raise _ => True
  | held, .utcnow k => ∀ n, LocksReads agree held (k n)
  | held, .uuid4 k => ∀ n, LocksReads agree held (k n)
  | held, .query k => (∀ db db', AgreeOn agree held db db' → k db = k db') ∧
      ∀ db, LocksReads agree held (k db)
  | held, .lock r k => LocksReads agree (fun x => x = r ∨ held x) k
  | held, .flush f k => WritesOnly agree held f ∧ LocksReads agree held k

/-- A write to some rows is a write to more rows. -/
theorem WritesOnly.mono {agree : Row → Db → Db → Prop} (hagree : ∀ r, Equivalence (agree r))
    {held held' : Row → Prop} {f : Db → Except ε Db} (h : WritesOnly agree held f)
    (hle : ∀ r, held r → held' r) : WritesOnly agree held' f where
  frame := fun db db' hf r hr => h.frame db db' hf r fun hr' => hr (hle r hr')
  congr := by
    intro db₁ db₂ db₁' db₂' hsame h₁ h₂ r hr
    by_cases hheld : held r
    · exact h.congr db₁ db₂ db₁' db₂' (fun x hx => hsame x (hle x hx)) h₁ h₂ r hheld
    · -- neither write touches a row outside the smaller set
      exact (hagree r).trans ((hagree r).symm (h.frame db₁ db₁' h₁ r hheld))
        ((hagree r).trans (hsame r hr) (h.frame db₂ db₂' h₂ r hheld))

/-- Holding more rows, a body still reads and writes only rows it has locked. -/
theorem LocksReads.mono {agree : Row → Db → Db → Prop} (hagree : ∀ r, Equivalence (agree r)) :
    ∀ {x : Txn Db Row ε α} {held held' : Row → Prop}, x.LocksReads agree held →
      (∀ r, held r → held' r) → x.LocksReads agree held' := by
  intro x
  induction x with
  | pure a => exact fun _ _ => trivial
  | raise e => exact fun _ _ => trivial
  | utcnow k ih => exact fun h hle n => ih n (h n) hle
  | uuid4 k ih => exact fun h hle n => ih n (h n) hle
  | query k ih =>
    exact fun h hle => ⟨fun db db' hsame => h.1 db db' fun r hr => hsame r (hle r hr),
      fun db => ih db (h.2 db) hle⟩
  | lock r k ih =>
    exact fun h hle => ih h fun x hx => hx.imp id (hle x)
  | flush f k ih => exact fun h hle => ⟨h.1.mono hagree hle, ih h.2 hle⟩

/-- A sequence of parts that lock what they read locks what it reads. -/
theorem LocksReads.bind {agree : Row → Db → Db → Prop} {f : α → Txn Db Row ε β} :
    ∀ {x : Txn Db Row ε α} {held : Row → Prop}, x.LocksReads agree held →
      (∀ a held', (∀ r, held r → held' r) → (f a).LocksReads agree held') →
      (x.bind f).LocksReads agree held := by
  intro x
  induction x with
  | pure a => exact fun _ hf => hf a _ fun _ h => h
  | raise e => exact fun _ _ => trivial
  | utcnow k ih => exact fun h hf n => ih n (h n) hf
  | uuid4 k ih => exact fun h hf n => ih n (h n) hf
  | query k ih =>
    exact fun h hf => ⟨fun db db' hsame => congrArg (·.bind f) (h.1 db db' hsame),
      fun db => ih db (h.2 db) hf⟩
  | lock r k ih =>
    exact fun h hf => ih h fun a held' hle => hf a held' fun x hx => hle x (Or.inr hx)
  | flush g k ih => exact fun h hf => ⟨h.1, ih h.2 hf⟩

end Txn

open Txn

/-! ## What a session commits -/

/-- The states committed before the present one are `past`. What is left of an open session issues,
from now on, the operation issues with the same answers since the beginning of the history. -/
def Config.Issuing (S : System Db Row ε α Op Env) (past : List Db) (c : Config Db Row ε α Op) :
    Prop :=
  ∀ t s, c.sessions t = some s → ∀ later a all, Issues (c.db :: later) s.pending s.prog a all →
    Issues (past ++ c.db :: later) .ok (S.program s.op) a all

section

variable {S : System Db Row ε α Op Env} {past : List Db}

theorem Config.issuing_idle {db : Db} :
    (Config.idle db : Config Db Row ε α Op).Issuing S past :=
  fun t s hs => by simp [Config.idle] at hs

/-- A session commits writes that its operation issues. -/
theorem Config.Issuing.commit {c : Config Db Row ε α Op} (h : c.Issuing S past) {t : Nat}
    {s : Session Db Row ε α Op} (hs : c.sessions t = some s) {a : α} (ha : s.prog = .pure a) :
    Issues (past ++ [c.db]) .ok (S.program s.op) a s.pending :=
  h t s hs [] a s.pending (by rw [ha]; exact .pure a)

/-- Ending a session without a commit leaves the others as they are. -/
theorem Config.Issuing.finish {c : Config Db Row ε α Op} (h : c.Issuing S past) (t : Nat) :
    (c.finish t c.db).Issuing S past :=
  fun u s hs => h u s (Config.sessions_finish_eq_some hs).2

/-- A statement leaves of a session what its operation issues, if the committed state is as it
was. -/
theorem Config.Issuing.advance [DecidableEq Row] {c c' : Config Db Row ε α Op} {l : Label Op Env}
    (h : c.Issuing S past) (hnext : S.next c l = some c') {u : Nat} {s' : Session Db Row ε α Op}
    (hs' : c'.sessions u = some s') {later : List Db} {a : α} {all : Db → Except ε Db}
    (hall : Issues (c.db :: later) s'.pending s'.prog a all) :
    Issues (past ++ c.db :: later) .ok (S.program s'.op) a all := by
  rcases S.next_session_cases hnext hs' with ⟨op, -, rfl⟩ | ⟨draw, s, -, hs, hstep, -⟩ |
    ⟨hs, -, -⟩
  · exact hall.earlier (List.suffix_append _ _)
  · have hissues := h u s hs later a all
    cases Config.proceeds_of_advance hstep hs' with
    | utcnow hprog =>
      rw [hprog] at hissues
      exact hissues (.utcnow _ hall)
    | uuid4 hprog =>
      rw [hprog] at hissues
      exact hissues (.uuid4 _ hall)
    | query hprog hview =>
      rw [hprog] at hissues
      exact hissues (.query List.suffix_rfl hview hall)
    | lock hprog =>
      rw [hprog] at hissues
      exact hissues (.lock hall)
    | flush hprog =>
      rw [hprog] at hissues
      exact hissues (.flush hall)
  · exact h u s' hs later a all hall

/-- A step that leaves the committed state as it is adds nothing to the history. -/
theorem Config.Issuing.next_same [DecidableEq Row] {c c' : Config Db Row ε α Op}
    {l : Label Op Env} (h : c.Issuing S past) (hnext : S.next c l = some c')
    (hsame : c'.db = c.db) : c'.Issuing S past := by
  intro u s' hs' later a all hall
  rw [hsame] at hall ⊢
  exact h.advance hnext hs' hall

/-- Every step keeps what the sessions have sent what their operations issue. -/
theorem Config.Issuing.next [DecidableEq Row] {c c' : Config Db Row ε α Op} {l : Label Op Env}
    (h : c.Issuing S past) (hnext : S.next c l = some c') : c'.Issuing S (past ++ [c.db]) := by
  intro u s' hs' later a all hall
  have hearlier := hall.earlier (List.suffix_cons c.db (c'.db :: later))
  rw [List.append_assoc, List.singleton_append]
  exact h.advance hnext hs' hearlier

end

/-! ## Serial equivalence at the commit -/

variable (agree : Row → Db → Db → Prop)

/-- A session in its configuration: what is left of it locks what it reads, its pending writes stay
on the rows it holds, and what the rest can do now the whole operation can do alone. -/
structure Session.Serial (S : System Db Row ε α Op Env) (held : Row → Prop)
    (s : Session Db Row ε α Op) (db : Db) : Prop where
  reads : s.prog.LocksReads agree held
  frame : ∀ db₁ view, s.pending db₁ = .ok view → ∀ r, ¬ held r → agree r db₁ view
  congr : ∀ held', (∀ r, held r → held' r) → ∀ db₁ db₂ view₁ view₂, AgreeOn agree held' db₁ db₂ →
    s.pending db₁ = .ok view₁ → s.pending db₂ = .ok view₂ → AgreeOn agree held' view₁ view₂
  resumes : ∀ db', AgreeOn agree held db db' → ∀ view, s.pending db' = .ok view → ∀ a out,
    s.prog.Evaluates view a out → (S.program s.op).Evaluates db' a out

/-- A configuration all of whose sessions are serial, and whose locks are held by open sessions. -/
structure Config.Serial (S : System Db Row ε α Op Env) (c : Config Db Row ε α Op) : Prop where
  sessions : ∀ t s, c.sessions t = some s → s.Serial agree S (c.Held t) c.db
  open_of_lock : ∀ r t, c.locks r = some t → (c.sessions t).isSome

variable {agree} {S : System Db Row ε α Op Env}

theorem Config.serial_idle {db : Db} :
    (Config.idle db : Config Db Row ε α Op).Serial agree S where
  sessions := fun t s hs => by simp [Config.idle] at hs
  open_of_lock := fun r t hr => by simp [Config.idle] at hr

/-- What a session commits is what its operation, run alone from the committed state, can do. -/
theorem Config.Serial.commit (hagree : ∀ r, Equivalence (agree r))
    {c : Config Db Row ε α Op} (h : c.Serial agree S) {t : Nat} {s : Session Db Row ε α Op}
    (hs : c.sessions t = some s) {a : α} (ha : s.prog = .pure a) {db : Db}
    (hdb : s.pending c.db = .ok db) : (S.program s.op).Evaluates c.db a db := by
  refine (h.sessions t s hs).resumes c.db (fun r _ => (hagree r).refl _) db hdb a db ?_
  rw [ha]
  exact .pure a db

/-- A session stays serial while others commit to rows it does not hold. -/
theorem Session.Serial.later (hagree : ∀ r, Equivalence (agree r)) {held : Row → Prop}
    {s : Session Db Row ε α Op} {db db' : Db} (h : s.Serial agree S held db)
    (hsame : AgreeOn agree held db db') : s.Serial agree S held db' where
  reads := h.reads
  frame := h.frame
  congr := h.congr
  resumes := fun db₂ h₂ =>
    h.resumes db₂ fun r hr => (hagree r).trans (hsame r hr) (h₂ r hr)

/-- Ending a session keeps a configuration serial, if the others' rows stay. -/
theorem Config.Serial.finish (hagree : ∀ r, Equivalence (agree r)) {c : Config Db Row ε α Op}
    (h : c.Serial agree S) {t : Nat} {db : Db} (hsame : ∀ r, ¬ c.Held t r → agree r c.db db) :
    (c.finish t db).Serial agree S where
  sessions := by
    intro u s hs
    obtain ⟨hut, hs⟩ := Config.sessions_finish_eq_some hs
    -- the session holds what it held, and none of these rows was the other's
    rw [Config.held_finish hut]
    refine (h.sessions u s hs).later hagree fun r hr => hsame r fun hr' => hut ?_
    exact Option.some.inj (hr.symm.trans hr')
  open_of_lock := by
    intro r u hr
    simp only [Config.finish] at hr ⊢
    split at hr
    · simp at hr
    · rename_i hne
      have hut : u ≠ t := fun heq => hne (heq ▸ hr)
      rw [Function.update_of_ne hut]
      exact h.open_of_lock r u hr

/-- Moving one session on keeps a configuration serial, if the session is serial there. -/
theorem Config.Serial.put {c : Config Db Row ε α Op} (h : c.Serial agree S) {t : Nat}
    {s' : Session Db Row ε α Op} (hs' : s'.Serial agree S (c.Held t) c.db) :
    (c.put t s').Serial agree S where
  sessions := by
    intro u s hs
    simp only [Config.put] at hs
    by_cases hut : u = t
    · subst hut
      rw [Function.update_self, Option.some.injEq] at hs
      exact hs ▸ hs'
    · rw [Function.update_of_ne hut] at hs
      exact h.sessions u s hs
  open_of_lock := by
    intro r u hr
    simp only [Config.put]
    by_cases hut : u = t
    · subst hut
      simp
    · rw [Function.update_of_ne hut]
      exact h.open_of_lock r u hr

/-- A granted lock keeps a configuration serial. -/
theorem Config.Serial.grant [DecidableEq Row] (hagree : ∀ r, Equivalence (agree r))
    {c : Config Db Row ε α Op} (h : c.Serial agree S) {t : Nat} {r : Row}
    (hfree : c.locks r = none ∨ c.locks r = some t) {s : Session Db Row ε α Op}
    (hs : c.sessions t = some s) {k : Txn Db Row ε α}
    (hprog : s.prog = .lock r k) :
    ((c.grant t r).put t { s with prog := k }).Serial agree S := by
  have hserial := h.sessions t s hs
  have hreads := hserial.reads
  rw [hprog] at hreads
  have hgranted : (c.grant t r).Serial agree S := by
    refine ⟨fun u s' hs' => ?_, fun x u hx => ?_⟩
    · by_cases hut : u = t
      · subst hut
        have hs'' := h.sessions u s' hs'
        have hle : ∀ x, c.Held u x → (c.grant u r).Held u x := fun x hx =>
          Config.held_grant.2 (Or.inr hx)
        -- with more rows held, it may read more and must agree on more
        refine ⟨?_, fun db₁ view hv x hx => hs''.frame db₁ view hv x fun hx' => hx (hle x hx'),
          fun held' hsub => hs''.congr held' fun x hx => hsub x (hle x hx),
          fun db' hsame => hs''.resumes db' fun x hx => hsame x (hle x hx)⟩
        exact hs''.reads.mono hagree hle
      · rw [Config.held_grant_of_ne hfree hut]
        exact h.sessions u s' hs'
    · simp only [Config.grant] at hx
      by_cases hxr : x = r
      · subst hxr
        rw [Function.update_self, Option.some.injEq] at hx
        rw [← hx]
        exact Option.isSome_iff_exists.2 ⟨s, hs⟩
      · rw [Function.update_of_ne hxr] at hx
        exact h.open_of_lock x u hx
  refine hgranted.put ?_
  have hbefore := hgranted.sessions t s hs
  have hsets : (fun x => x = r ∨ c.Held t x) = (c.grant t r).Held t :=
    funext fun x => propext Config.held_grant.symm
  refine ⟨hsets ▸ hreads, hbefore.frame, hbefore.congr, ?_⟩
  intro db' hsame view hview a out hout
  refine hbefore.resumes db' hsame view hview a out ?_
  rw [hprog]
  exact .lock hout

/-- A session that starts holds nothing, has written nothing and has everything to do. -/
theorem Config.Serial.start (hagree : ∀ r, Equivalence (agree r)) {c : Config Db Row ε α Op}
    (h : c.Serial agree S) {t : Nat} (hs : c.sessions t = none) {op : Op}
    (hop : (S.program op).LocksReads agree fun _ => False) :
    (c.put t ⟨op, c.db, S.program op, .ok⟩).Serial agree S := by
  have hnone : c.Held t = fun _ => False := by
    funext r
    refine eq_false fun hr => ?_
    have hopen := h.open_of_lock r t hr
    rw [hs] at hopen
    simp at hopen
  refine h.put ⟨?_, ?_, ?_, ?_⟩
  · rw [hnone]
    exact hop
  · intro db₁ view hview r _
    cases hview
    exact (hagree r).refl _
  · intro held' _ db₁ db₂ view₁ view₂ hsame h₁ h₂
    cases h₁
    cases h₂
    exact hsame
  · intro db' _ view hview a out hout
    cases hview
    exact hout

/-- A query keeps a configuration serial: from an agreeing state it reads the same. -/
theorem Config.Serial.query {c : Config Db Row ε α Op} (h : c.Serial agree S) {t : Nat}
    {s : Session Db Row ε α Op} (hs : c.sessions t = some s) {k : Db → Txn Db Row ε α}
    (hprog : s.prog = .query k) {view₀ : Db} (hview₀ : s.pending c.db = .ok view₀) :
    (c.put t { s with prog := k view₀ }).Serial agree S := by
  have hserial := h.sessions t s hs
  have hreads := hserial.reads
  have hresumes := hserial.resumes
  rw [hprog] at hreads hresumes
  refine h.put ⟨hreads.2 view₀, hserial.frame, hserial.congr, ?_⟩
  intro db' hsame view hview a out hout
  have hviews := hserial.congr (c.Held t) (fun _ hx => hx) c.db db' view₀ view hsame hview₀ hview
  rw [hreads.1 view₀ view hviews] at hout
  exact hresumes db' hsame view hview a out (.query hout)

/-- A flush keeps a configuration serial: its writes stay on rows the session holds, and are the
same from agreeing states. -/
theorem Config.Serial.flush (hagree : ∀ r, Equivalence (agree r)) {c : Config Db Row ε α Op}
    (h : c.Serial agree S) {t : Nat} {s : Session Db Row ε α Op} (hs : c.sessions t = some s)
    {f : Db → Except ε Db} {k : Txn Db Row ε α} (hprog : s.prog = .flush f k) :
    (c.put t { s with prog := k, pending := fun db => s.pending db >>= f }).Serial agree S := by
  have hserial := h.sessions t s hs
  have hreads := hserial.reads
  have hresumes := hserial.resumes
  rw [hprog] at hreads hresumes
  obtain ⟨hwrites, hrest⟩ := hreads
  have hflush : ∀ {db view'}, (s.pending db >>= f) = .ok view' →
      ∃ view, s.pending db = .ok view ∧ f view = .ok view' := by
    intro db view' hok
    simp only [Bind.bind, Except.bind] at hok
    split at hok
    · cases hok
    · rename_i view hview
      exact ⟨view, hview, hok⟩
  refine h.put ⟨hrest, ?_, ?_, ?_⟩
  · intro db₁ view' hok r hr
    obtain ⟨view, hview, hf⟩ := hflush hok
    exact (hagree r).trans (hserial.frame db₁ view hview r hr) (hwrites.frame view view' hf r hr)
  · intro held' hle db₁ db₂ view₁' view₂' hsame h₁ h₂ r hr
    obtain ⟨view₁, hview₁, hf₁⟩ := hflush h₁
    obtain ⟨view₂, hview₂, hf₂⟩ := hflush h₂
    have hviews := hserial.congr held' hle db₁ db₂ view₁ view₂ hsame hview₁ hview₂
    by_cases hheld : c.Held t r
    · exact hwrites.congr view₁ view₂ view₁' view₂' (fun x hx => hviews x (hle x hx)) hf₁ hf₂
        r hheld
    · -- a row that is not held is as it was, in both views
      exact (hagree r).trans ((hagree r).symm (hwrites.frame view₁ view₁' hf₁ r hheld))
        ((hagree r).trans (hviews r hr) (hwrites.frame view₂ view₂' hf₂ r hheld))
  · intro db' hsame view' hview' a out hout
    obtain ⟨view, hview, hf⟩ := hflush hview'
    exact hresumes db' hsame view hview a out (.flush hf hout)

/-- Every step keeps a configuration serial, if every operation locks what it reads and the writes
of other parts of the service touch no row. -/
theorem Config.Serial.next [DecidableEq Row] (hagree : ∀ r, Equivalence (agree r))
    (hprogram : ∀ op, (S.program op).LocksReads agree fun _ => False)
    (henv : ∀ e db r, agree r db (S.env e db)) {c c' : Config Db Row ε α Op} {l : Label Op Env}
    (h : c.Serial agree S) (hnext : S.next c l = some c') : c'.Serial agree S := by
  have hstay : ∀ t, (c.finish t c.db).Serial agree S := fun t =>
    h.finish hagree fun r _ => (hagree r).refl _
  cases l with
  | start t op =>
    cases hs : c.sessions t with
    | some s => simp [System.next, hs] at hnext
    | none =>
      simp only [System.next, hs, Option.some.injEq] at hnext
      subst hnext
      exact h.start hagree hs (hprogram op)
  | step t draw =>
    cases hs : c.sessions t with
    | none => simp [System.next, hs] at hnext
    | some s =>
      simp only [System.next, hs] at hnext
      have hserial := h.sessions t s hs
      have hreads := hserial.reads
      have hresumes := hserial.resumes
      unfold Config.advance at hnext
      cases hprog : s.prog with
      | pure a =>
        rw [hprog] at hnext
        simp only at hnext
        split at hnext
        · rename_i db hdb
          cases hnext
          -- a commit writes rows it has locked, so the other sessions do not see it
          exact h.finish hagree fun r hr => hserial.frame c.db db hdb r hr
        · cases hnext
          exact hstay t
      | raise e =>
        rw [hprog] at hnext
        cases hnext
        exact hstay t
      | utcnow k =>
        rw [hprog] at hnext hreads hresumes
        cases hnext
        exact h.put ⟨hreads _, hserial.frame, hserial.congr, fun db' hsame view hview a out hout =>
          hresumes db' hsame view hview a out (.utcnow _ hout)⟩
      | uuid4 k =>
        rw [hprog] at hnext hreads hresumes
        cases hnext
        exact h.put ⟨hreads _, hserial.frame, hserial.congr, fun db' hsame view hview a out hout =>
          hresumes db' hsame view hview a out (.uuid4 _ hout)⟩
      | query k =>
        rw [hprog] at hnext
        simp only at hnext
        split at hnext
        · rename_i view₀ hview₀
          cases hnext
          exact h.query hs hprog hview₀
        · cases hnext
          exact hstay t
      | lock r k =>
        rw [hprog] at hnext
        simp only at hnext
        split at hnext
        · rename_i hfree
          cases hnext
          exact h.grant hagree hfree hs hprog
        · cases hnext
      | flush f k =>
        rw [hprog] at hnext
        simp only at hnext
        split at hnext
        · cases hnext
          exact h.flush hagree hs hprog
        · cases hnext
          exact hstay t
  | abort t =>
    simp only [System.next, Option.map_eq_some_iff] at hnext
    obtain ⟨s, -, rfl⟩ := hnext
    exact hstay t
  | tick n =>
    simp only [System.next, Option.some.injEq] at hnext
    subst hnext
    exact ⟨h.sessions, h.open_of_lock⟩
  | env e =>
    simp only [System.next, Option.some.injEq] at hnext
    subst hnext
    exact ⟨fun t s hs => (h.sessions t s hs).later hagree fun r _ => henv e c.db r,
      h.open_of_lock⟩

end SmartLogistics.Library
