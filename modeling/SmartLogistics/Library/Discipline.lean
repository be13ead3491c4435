import SmartLogistics.Library.Transaction

/-!
# A rely-guarantee logic for row-locking transactions

A `Discipline` states what the sessions of a system promise each other: every committed state
satisfies `inv`, commits relate states by `grow`, and a commit keeps the rows whose locks it does
not hold (`same`). In return a session may rely on the rows it has locked. `Discipline.wp` is the
weakest precondition of a transaction body under that interference, with the usual rules (`wp_bind`,
`wp_mono`, `wp_select`, `wp_lockEach`, `wp_write`); `Discipline.Meets` is the obligation of an
operation.

The soundness theorem is `Config.Sound.next`: if every operation meets the discipline, each step of
each interleaving keeps `Config.Sound`, hence every run does (`sound_of_run`). A commit, a lock
request and a refused write of a sound configuration satisfy what the discipline states of them
(`Config.Sound.commit`, `Config.Sound.lockFact`, `Config.Sound.refusal`).
-/

set_option autoImplicit false

namespace SmartLogistics.Library

/-- What sessions promise each other, and what an operation delivers. -/
structure Discipline (Db Row ε α Op : Type) where
  /-- Every committed state satisfies it. -/
  inv : Db → Prop
  /-- Row `r` is unchanged, as far as its lock protects it. -/
  same : Row → Db → Db → Prop
  /-- How commits may change the state, locks aside. -/
  grow : Db → Db → Prop
  /-- Holds whenever an operation that holds the given rows asks for the lock on another row. -/
  lockFact : Op → (Row → Prop) → Row → Db → Prop
  /-- Holds of every error the database answers to a write. -/
  flushFact : Op → ε → Prop
  /-- What a commit does: the state the session was opened in, the rows held, the result, the clock,
  the states before and after. -/
  post : Op → Db → (Row → Prop) → α → Nat → Db → Db → Prop
  same_refl : ∀ r db, same r db db
  same_trans : ∀ {r a b c}, same r a b → same r b c → same r a c
  grow_refl : ∀ db, grow db db
  grow_trans : ∀ {a b c}, grow a b → grow b c → grow a c

/-- What an open session sees: the rows it holds, its flushed writes, the clock and the committed
state. -/
structure View (Db Row ε : Type) where
  held : Row → Prop
  pending : Db → Except ε Db
  now : Nat
  db : Db

namespace View

variable {Db Row ε : Type}

/-- The view after time passed and other sessions committed. -/
def later (v : View Db Row ε) (now : Nat) (db : Db) : View Db Row ε :=
  { v with now := now, db := db }

/-- The view with further rows locked. -/
def grantAll (v : View Db Row ε) (rows : List Row) : View Db Row ε :=
  { v with held := fun r => r ∈ rows ∨ v.held r }

/-- The view with one more flushed write. -/
def flushed (v : View Db Row ε) (f : Db → Except ε Db) : View Db Row ε :=
  { v with pending := fun db => v.pending db >>= f }

@[simp] theorem later_held (v : View Db Row ε) (n : Nat) (db : Db) : (v.later n db).held = v.held :=
  rfl

@[simp] theorem later_pending (v : View Db Row ε) (n : Nat) (db : Db) :
    (v.later n db).pending = v.pending := rfl

@[simp] theorem later_now (v : View Db Row ε) (n : Nat) (db : Db) : (v.later n db).now = n := rfl

@[simp] theorem later_db (v : View Db Row ε) (n : Nat) (db : Db) : (v.later n db).db = db := rfl

@[simp] theorem later_later (v : View Db Row ε) (n m : Nat) (db db' : Db) :
    (v.later n db).later m db' = v.later m db' := rfl

@[simp] theorem grantAll_held (v : View Db Row ε) (rows : List Row) (r : Row) :
    (v.grantAll rows).held r ↔ r ∈ rows ∨ v.held r := Iff.rfl

@[simp] theorem grantAll_pending (v : View Db Row ε) (rows : List Row) :
    (v.grantAll rows).pending = v.pending := rfl

@[simp] theorem grantAll_now (v : View Db Row ε) (rows : List Row) :
    (v.grantAll rows).now = v.now :=
  rfl

@[simp] theorem grantAll_db (v : View Db Row ε) (rows : List Row) : (v.grantAll rows).db = v.db :=
  rfl

@[simp] theorem flushed_held (v : View Db Row ε) (f : Db → Except ε Db) :
    (v.flushed f).held = v.held := rfl

@[simp] theorem flushed_now (v : View Db Row ε) (f : Db → Except ε Db) :
    (v.flushed f).now = v.now := rfl

@[simp] theorem flushed_db (v : View Db Row ε) (f : Db → Except ε Db) : (v.flushed f).db = v.db :=
  rfl

theorem grantAll_nil (v : View Db Row ε) : v.grantAll [] = v := by
  simp only [grantAll, List.not_mem_nil, false_or]

/-- What a flushed write adds to the pending ones. -/
theorem flushed_pending_eq_ok {v : View Db Row ε} {f : Db → Except ε Db} {db db' : Db} :
    (v.flushed f).pending db = .ok db' ↔ ∃ view, v.pending db = .ok view ∧ f view = .ok db' := by
  simp only [flushed, bind, Except.bind]
  cases v.pending db with
  | error e => simp
  | ok view => simp

/-- Locking rows one list after another locks them all. -/
theorem grantAll_grantAll (v : View Db Row ε) (rows rows' : List Row) :
    (v.grantAll rows).grantAll rows' = v.grantAll (rows ++ rows') := by
  simp only [grantAll, View.mk.injEq, and_true]
  funext r
  simp only [List.mem_append, eq_iff_iff]
  rw [← or_assoc, @or_comm (r ∈ rows')]

end View

namespace Discipline

variable {Db Row ε α Op : Type} (D : Discipline Db Row ε α Op)

/-- What a session may assume of the state a later statement of it sees. -/
structure Rely (v : View Db Row ε) (now : Nat) (db : Db) : Prop where
  clock : v.now ≤ now
  inv : D.inv db
  grow : D.grow v.db db
  same : ∀ r, v.held r → D.same r v.db db

/-- What a commit of a session that holds `held` must do. -/
structure Guar (held : Row → Prop) (db db' : Db) : Prop where
  inv : D.inv db'
  grow : D.grow db db'
  same : ∀ r, ¬ held r → D.same r db db'

theorem Rely.refl {v : View Db Row ε} (h : D.inv v.db) : D.Rely v v.now v.db where
  clock := Nat.le_refl _
  inv := h
  grow := D.grow_refl _
  same := fun r _ => D.same_refl r _

variable {D} in
theorem Rely.trans {v : View Db Row ε} {n m : Nat} {db db' : Db} (h : D.Rely v n db)
    (h' : D.Rely (v.later n db) m db') : D.Rely v m db' where
  clock := Nat.le_trans h.clock h'.clock
  inv := h'.inv
  grow := D.grow_trans h.grow h'.grow
  same := fun r hr => D.same_trans (h.same r hr) (h'.same r hr)

variable {D} in
/-- Writing does not change what a session may rely on. -/
theorem Rely.unflushed {v : View Db Row ε} {f : Db → Except ε Db} {n : Nat} {db : Db}
    (h : D.Rely (v.flushed f) n db) : D.Rely v n db :=
  ⟨h.clock, h.inv, h.grow, h.same⟩

variable {D} in
/-- Locking further rows lets a session rely on more. -/
theorem Rely.ungranted {v : View Db Row ε} {rows : List Row} {n : Nat} {db : Db}
    (h : D.Rely (v.grantAll rows) n db) : D.Rely v n db :=
  ⟨h.clock, h.inv, h.grow, fun r hr => h.same r (Or.inr hr)⟩

/-- View `w` is one of the session of `v`, later on. -/
structure Onward (v w : View Db Row ε) : Prop where
  held : ∀ r, v.held r → w.held r
  rely : D.Rely v w.now w.db

variable {D} in
theorem Rely.onward {v : View Db Row ε} {n : Nat} {db : Db} (h : D.Rely v n db) :
    D.Onward v (v.later n db) := ⟨fun _ hr => hr, h⟩

variable {D} in
/-- What a session may assume later, it may assume now. -/
theorem Onward.rely_of {v w : View Db Row ε} (h : D.Onward v w) {n : Nat} {db : Db}
    (hr : D.Rely w n db) : D.Rely v n db :=
  h.rely.trans ⟨hr.clock, hr.inv, hr.grow, fun r hv => hr.same r (h.held r hv)⟩

variable {D} in
theorem Onward.trans {v w x : View Db Row ε} (h : D.Onward v w) (h' : D.Onward w x) :
    D.Onward v x :=
  ⟨fun r hr => h'.held r (h.held r hr), h.rely_of h'.rely⟩

variable {D} in
theorem Onward.grantAll {v w : View Db Row ε} (h : D.Onward v w) (rows : List Row) :
    D.Onward v (w.grantAll rows) :=
  ⟨fun r hr => Or.inr (h.held r hr), h.rely⟩

variable {D} in
theorem Onward.flushed {v w : View Db Row ε} (h : D.Onward v w) (f : Db → Except ε Db) :
    D.Onward v (w.flushed f) :=
  ⟨h.held, h.rely⟩

variable {D} in
theorem Guar.trans {held : Row → Prop} {a b c : Db} (h : D.Guar held a b) (h' : D.Guar held b c) :
    D.Guar held a c where
  inv := h'.inv
  grow := D.grow_trans h.grow h'.grow
  same := fun r hr => D.same_trans (h.same r hr) (h'.same r hr)

/-- The weakest precondition of a body, under the interference the discipline allows. -/
def wp (op : Op) {β : Type} : Txn Db Row ε β → (β → View Db Row ε → Prop) → View Db Row ε → Prop
  | .pure b, Q, v => Q b v
  | .raise _, _, _ => True
  | .utcnow k, Q, v => ∀ n db, D.Rely v n db → wp op (k n) Q (v.later n db)
  | .uuid4 k, Q, v => ∀ i, wp op (k i) Q v
  | .query k, Q, v => ∀ n db, D.Rely v n db → ∀ view, v.pending db = .ok view →
      wp op (k view) Q (v.later n db)
  | .lock r k, Q, v => ∀ n db, D.Rely v n db →
      D.lockFact op v.held r db ∧ wp op k Q ((v.later n db).grantAll [r])
  | .flush f k, Q, v => ∀ n db, D.Rely v n db → ∀ view, v.pending db = .ok view →
      (∀ e, f view = .error e → D.flushFact op e) ∧
        ∀ view', f view = .ok view' → wp op k Q ((v.later n db).flushed f)

/-- The obligation at the end of a body that was opened in `opened` and returns `a`. -/
def Commits (op : Op) (opened : Db) (a : α) (v : View Db Row ε) : Prop :=
  ∀ n db, D.Rely v n db → ∀ db', v.pending db = .ok db' →
    D.Guar v.held db db' ∧ D.post op opened v.held a n db db'

/-- A body that was opened in `opened` meets the discipline from the view `v` on. -/
def Meets (op : Op) (opened : Db) (x : Txn Db Row ε α) (v : View Db Row ε) : Prop :=
  D.wp op x (D.Commits op opened) v

variable {D}

theorem Commits.later {op : Op} {opened : Db} {a : α} {v : View Db Row ε}
    (h : D.Commits op opened a v) {n : Nat} {db : Db} (hr : D.Rely v n db) :
    D.Commits op opened a (v.later n db) :=
  fun _ _ hr' => h _ _ (hr.trans hr')

section Rules

variable {op : Op} {β γ : Type}

theorem wp_mono {Q Q' : β → View Db Row ε → Prop} (hQ : ∀ b v, Q b v → Q' b v) :
    ∀ (x : Txn Db Row ε β) (v : View Db Row ε), D.wp op x Q v → D.wp op x Q' v := by
  intro x
  induction x with
  | pure b => exact fun v h => hQ b v h
  | raise e => exact fun _ _ => trivial
  | utcnow k ih => exact fun v h n db hr => ih n _ (h n db hr)
  | uuid4 k ih => exact fun v h i => ih i _ (h i)
  | query k ih => exact fun v h n db hr view hv => ih view _ (h n db hr view hv)
  | lock r k ih => exact fun v h n db hr => ⟨(h n db hr).1, ih _ (h n db hr).2⟩
  | flush f k ih =>
    exact fun v h n db hr view hv =>
      ⟨(h n db hr view hv).1, fun view' hv' => ih _ ((h n db hr view hv).2 view' hv')⟩

/-- The precondition of a sequence is the precondition of its first part, with the precondition of
the rest as postcondition. -/
theorem wp_bind {Q : γ → View Db Row ε → Prop} {f : β → Txn Db Row ε γ} :
    ∀ (x : Txn Db Row ε β) (v : View Db Row ε),
      D.wp op x (fun b => D.wp op (f b) Q) v → D.wp op (x.bind f) Q v := by
  intro x
  induction x with
  | pure b => exact fun v h => h
  | raise e => exact fun _ _ => trivial
  | utcnow k ih => exact fun v h n db hr => ih n _ (h n db hr)
  | uuid4 k ih => exact fun v h i => ih i _ (h i)
  | query k ih => exact fun v h n db hr view hv => ih view _ (h n db hr view hv)
  | lock r k ih => exact fun v h n db hr => ⟨(h n db hr).1, ih _ (h n db hr).2⟩
  | flush g k ih =>
    exact fun v h n db hr view hv =>
      ⟨(h n db hr view hv).1, fun view' hv' => ih _ ((h n db hr view hv).2 view' hv')⟩

/-- A precondition whose postcondition is stable is stable. -/
theorem wp_later {Q : β → View Db Row ε → Prop}
    (hQ : ∀ b v n db, D.Rely v n db → Q b v → Q b (v.later n db)) :
    ∀ (x : Txn Db Row ε β) (v : View Db Row ε) (n : Nat) (db : Db), D.Rely v n db →
      D.wp op x Q v → D.wp op x Q (v.later n db) := by
  intro x
  induction x with
  | pure b => exact fun v n db hr h => hQ b v n db hr h
  | raise e => exact fun _ _ _ _ _ => trivial
  | utcnow k ih => exact fun v n db hr h m db' hr' => h m db' (hr.trans hr')
  | uuid4 k ih => exact fun v n db hr h i => ih i v n db hr (h i)
  | query k ih => exact fun v n db hr h m db' hr' => h m db' (hr.trans hr')
  | lock r k ih => exact fun v n db hr h m db' hr' => h m db' (hr.trans hr')
  | flush f k ih => exact fun v n db hr h m db' hr' => h m db' (hr.trans hr')

/-- The view at the end of a body is a later one of the session. -/
theorem wp_onward {Q : β → View Db Row ε → Prop} :
    ∀ (x : Txn Db Row ε β) (v : View Db Row ε), D.inv v.db → D.wp op x Q v →
      D.wp op x (fun b w => Q b w ∧ D.Onward v w) v := by
  intro x
  induction x with
  | pure b => exact fun v hinv h => ⟨h, fun _ hr => hr, Rely.refl D hinv⟩
  | raise e => exact fun _ _ _ => trivial
  | utcnow k ih =>
    exact fun v _ h n db hr => wp_mono (fun _ _ ⟨hQ, ho⟩ => ⟨hQ, hr.onward.trans ho⟩) _ _
      (ih n _ hr.inv (h n db hr))
  | uuid4 k ih => exact fun v hinv h i => ih i v hinv (h i)
  | query k ih =>
    exact fun v _ h n db hr view hv =>
      wp_mono (fun _ _ ⟨hQ, ho⟩ => ⟨hQ, hr.onward.trans ho⟩) _ _
        (ih view _ hr.inv (h n db hr view hv))
  | lock r k ih =>
    exact fun v _ h n db hr => ⟨(h n db hr).1,
      wp_mono (fun _ _ ⟨hQ, ho⟩ => ⟨hQ, (hr.onward.grantAll [r]).trans ho⟩) _ _
        (ih ((v.later n db).grantAll [r]) hr.inv (h n db hr).2)⟩
  | flush f k ih =>
    exact fun v _ h n db hr view hv => ⟨(h n db hr view hv).1, fun view' hv' =>
      wp_mono (fun _ _ ⟨hQ, ho⟩ => ⟨hQ, (hr.onward.flushed f).trans ho⟩) _ _
        (ih ((v.later n db).flushed f) hr.inv ((h n db hr view hv).2 view' hv'))⟩

theorem Meets.later {opened : Db} {x : Txn Db Row ε α} {v : View Db Row ε}
    (h : D.Meets op opened x v) {n : Nat} {db : Db} (hr : D.Rely v n db) :
    D.Meets op opened x (v.later n db) :=
  wp_later (fun _ _ _ _ hr hc => hc.later hr) x v n db hr h

theorem wp_now {Q : Nat → View Db Row ε → Prop} {v : View Db Row ε}
    (h : ∀ n db, D.Rely v n db → Q n (v.later n db)) : D.wp op Txn.now Q v := h

theorem wp_freshId {Q : Nat → View Db Row ε → Prop} {v : View Db Row ε} (h : ∀ i, Q i v) :
    D.wp op Txn.freshId Q v := h

theorem wp_select_view {Q : β → View Db Row ε → Prop} {q : Db → β} {v : View Db Row ε}
    (h : ∀ n db, D.Rely v n db → ∀ view, v.pending db = .ok view → Q (q view) (v.later n db)) :
    D.wp op (Txn.select q) Q v := h

theorem wp_select {Q : β → View Db Row ε → Prop} {q : Db → β} {v : View Db Row ε}
    (hp : v.pending = .ok) (h : ∀ n db, D.Rely v n db → Q (q db) (v.later n db)) :
    D.wp op (Txn.select q) Q v := by
  intro n db hr view hview
  rw [hp] at hview
  cases hview
  exact h n db hr

theorem wp_ofExcept {Q : β → View Db Row ε → Prop} {x : Except ε β} {v : View Db Row ε}
    (h : ∀ b, x = .ok b → Q b v) : D.wp op (Txn.ofExcept x) Q v := by
  cases x with
  | ok b => exact h b rfl
  | error e => trivial

theorem wp_write {Q : Unit → View Db Row ε → Prop} {f : Db → Except ε Db} {v : View Db Row ε}
    (h : ∀ n db, D.Rely v n db → ∀ view, v.pending db = .ok view →
      (∀ e, f view = .error e → D.flushFact op e) ∧
        ∀ view', f view = .ok view' → Q () ((v.later n db).flushed f)) :
    D.wp op (Txn.write f) Q v := h

/-- The row loop of a locking read, when nothing need be known of the rows. -/
theorem wp_lockEach_any {κ ρ : Type} {row : κ → Row} {get : Db → κ → Option ρ}
    {Q : List ρ → View Db Row ε → Prop} :
    ∀ (ks : List κ) (v : View Db Row ε), D.inv v.db →
      (∀ (held : Row → Prop) k n db, D.Rely v n db → D.lockFact op held (row k) db) →
      (∀ n db, D.Rely v n db → ∀ rows, Q rows ((v.later n db).grantAll (ks.map row))) →
      D.wp op (Txn.lockEach row get ks) Q v := by
  intro ks
  induction ks generalizing Q with
  | nil =>
    intro v hinv _ hQ
    have h := hQ v.now v.db (Rely.refl D hinv) []
    rw [List.map_nil, View.grantAll_nil] at h
    exact h
  | cons k ks ih =>
    intro v hinv hfact hQ n db hr
    refine ⟨hfact _ k n db hr, ?_⟩
    intro m db' hr' view _
    have hweak : ∀ {p : Nat} {db₂ : Db},
        D.Rely (((v.later n db).grantAll [row k]).later m db') p db₂ → D.Rely v p db₂ :=
      fun h => (hr.trans hr'.ungranted).trans
        ⟨h.clock, h.inv, h.grow, fun r hr => h.same r (Or.inr hr)⟩
    apply wp_bind
    apply ih
    · exact hr'.inv
    · exact fun held k' p db₂ h₂ => hfact held k' p db₂ (hweak h₂)
    · intro p db₂ h₂ rows
      have h := hQ p db₂ (hweak h₂) ((get view k).toList ++ rows)
      rw [List.map_cons, ← List.singleton_append, ← View.grantAll_grantAll] at h
      exact h

/-- The row loop of a locking read. The rows read are those of every later view, because a row does
not change once it is locked. -/
theorem wp_lockEach_view {κ ρ : Type} {row : κ → Row} {get : Db → κ → Option ρ}
    {Q : List ρ → View Db Row ε → Prop} :
    ∀ (ks : List κ) (v : View Db Row ε),
      (∀ k ∈ ks, ∀ n db, D.Rely v n db → ∀ db', D.inv db' → D.grow db db' →
        D.same (row k) db db' → ∀ view view', v.pending db = .ok view → v.pending db' = .ok view' →
          get view k = get view' k) →
      (∀ pre k post, ks = pre ++ k :: post → ∀ n db, D.Rely v n db →
        D.lockFact op (v.grantAll (pre.map row)).held (row k) db) →
      D.inv v.db →
      (∀ n db, D.Rely v n db → ∀ rows,
        (∀ m db', D.Rely ((v.later n db).grantAll (ks.map row)) m db' → ∀ view,
          v.pending db' = .ok view → rows = ks.filterMap (get view)) →
        Q rows ((v.later n db).grantAll (ks.map row))) →
      D.wp op (Txn.lockEach row get ks) Q v := by
  intro ks
  induction ks generalizing Q with
  | nil =>
    intro v _ _ hinv hQ
    have h := hQ v.now v.db (Rely.refl D hinv) [] fun _ _ _ _ _ => rfl
    rw [List.map_nil, View.grantAll_nil] at h
    exact h
  | cons k ks ih =>
    intro v hstable hfact _ hQ n db hr
    refine ⟨by simpa only [List.map_nil, View.grantAll_nil] using hfact [] k ks rfl n db hr, ?_⟩
    intro m db' hr' view hview
    have hrv : D.Rely v m db' := hr.trans hr'.ungranted
    have hweak : ∀ {p : Nat} {db₂ : Db},
        D.Rely (((v.later n db).grantAll [row k]).later m db') p db₂ → D.Rely v p db₂ :=
      fun h => hrv.trans ⟨h.clock, h.inv, h.grow, fun r hr => h.same r (Or.inr hr)⟩
    have hgrant : ∀ (w : View Db Row ε) (rows : List Row),
        w.grantAll (row k :: rows) = (w.grantAll [row k]).grantAll rows := fun w rows => by
      rw [View.grantAll_grantAll, List.singleton_append]
    apply wp_bind
    apply ih
    · intro k' hk' p db₂ h₂
      exact hstable k' (List.mem_cons_of_mem _ hk') p db₂ (hweak h₂)
    · intro pre k' post hks p db₂ h₂
      have h := hfact (k :: pre) k' post (by rw [hks, List.cons_append]) p db₂ (hweak h₂)
      rw [List.map_cons, hgrant] at h
      exact h
    · exact hr'.inv
    · intro p db₂ h₂ rows hrows
      have h := hQ p db₂ (hweak h₂) ((get view k).toList ++ rows) fun q db₃ h₃ view₃ hview₃ => ?_
      · rw [List.map_cons, hgrant] at h
        exact h
      · rw [List.map_cons, hgrant] at h₃
        -- other sessions may not touch row `k` from its reading on
        have hget : get view k = get view₃ k :=
          hstable k List.mem_cons_self m db' hrv db₃ h₃.inv (D.grow_trans h₂.grow h₃.grow)
            (D.same_trans (h₂.same (row k) (Or.inl List.mem_cons_self))
              (h₃.same (row k) (Or.inr (Or.inl List.mem_cons_self)))) view view₃ hview hview₃
        rw [hrows q db₃ h₃ view₃ hview₃, hget, List.filterMap_cons]
        cases get view₃ k <;> rfl

/-- The row loop of a locking read of a session that has written nothing yet. -/
theorem wp_lockEach {κ ρ : Type} {row : κ → Row} {get : Db → κ → Option ρ}
    {Q : List ρ → View Db Row ε → Prop} (ks : List κ) (v : View Db Row ε) (hp : v.pending = .ok)
    (hstable : ∀ k ∈ ks, ∀ n db, D.Rely v n db → ∀ db', D.inv db' → D.grow db db' →
      D.same (row k) db db' → get db k = get db' k)
    (hfact : ∀ pre k post, ks = pre ++ k :: post → ∀ n db, D.Rely v n db →
      D.lockFact op (v.grantAll (pre.map row)).held (row k) db)
    (hinv : D.inv v.db)
    (hQ : ∀ n db, D.Rely v n db →
      Q (ks.filterMap (get db)) ((v.later n db).grantAll (ks.map row))) :
    D.wp op (Txn.lockEach row get ks) Q v := by
  refine wp_lockEach_view ks v (fun k hk n db hr db' hi hg hs view view' hv hv' => ?_) hfact hinv
    fun n db hr rows hrows => ?_
  · rw [hp] at hv hv'
    cases hv
    cases hv'
    exact hstable k hk n db hr db' hi hg hs
  · rw [hrows n db (Rely.refl D hr.inv) db (congrFun hp db)]
    exact hQ n db hr

end Rules

end Discipline

/-! ## Soundness over all interleavings -/

section Soundness

variable {Db Row ε α Op Env : Type}

/-- The view of session `t` at `s`. -/
def Config.view (c : Config Db Row ε α Op) (t : Nat) (s : Session Db Row ε α Op) :
    View Db Row ε :=
  ⟨c.Held t, s.pending, c.clock, c.db⟩

/-- A session keeps the discipline from the view `v` on: what is left of its body meets it, and so
does every error its flushed writes may still run into. -/
structure Session.Keeps (D : Discipline Db Row ε α Op) (s : Session Db Row ε α Op)
    (v : View Db Row ε) : Prop where
  meets : D.Meets s.op s.opened s.prog v
  refused : ∀ n db, D.Rely v n db → ∀ e, s.pending db = .error e → D.flushFact s.op e

theorem Session.Keeps.later {D : Discipline Db Row ε α Op} {s : Session Db Row ε α Op}
    {v : View Db Row ε} (h : s.Keeps D v) {n : Nat} {db : Db} (hr : D.Rely v n db) :
    s.Keeps D (v.later n db) where
  meets := h.meets.later hr
  refused := fun _ _ hr' => h.refused _ _ (hr.trans hr')

/-- A configuration in which the invariant holds and every open session keeps the discipline. -/
structure Config.Sound (D : Discipline Db Row ε α Op) (c : Config Db Row ε α Op) : Prop where
  inv : D.inv c.db
  keeps : ∀ t s, c.sessions t = some s → s.Keeps D (c.view t s)
  open_of_lock : ∀ r t, c.locks r = some t → (c.sessions t).isSome

variable {D : Discipline Db Row ε α Op}

theorem Config.sound_idle {db : Db} (h : D.inv db) :
    (Config.idle db : Config Db Row ε α Op).Sound D where
  inv := h
  keeps := fun t s hs => by simp [Config.idle] at hs
  open_of_lock := fun r t hr => by simp [Config.idle] at hr

/-- The commit of a sound configuration satisfies the postcondition of its operation. -/
theorem Config.Sound.commit {c : Config Db Row ε α Op} (h : c.Sound D) {t : Nat}
    {s : Session Db Row ε α Op} (hs : c.sessions t = some s) {a : α} (ha : s.prog = .pure a)
    {db : Db} (hdb : s.pending c.db = .ok db) :
    D.Guar (c.Held t) c.db db ∧ D.post s.op s.opened (c.Held t) a c.clock c.db db := by
  have hm := (h.keeps t s hs).meets
  rw [Discipline.Meets, ha] at hm
  exact hm c.clock c.db (Discipline.Rely.refl D h.inv) db hdb

/-- A lock request of a sound configuration satisfies the discipline's fact about it. -/
theorem Config.Sound.lockFact {c : Config Db Row ε α Op} (h : c.Sound D) {t : Nat}
    {s : Session Db Row ε α Op} (hs : c.sessions t = some s) {r : Row}
    {k : Txn Db Row ε α} (hk : s.prog = .lock r k) : D.lockFact s.op (c.Held t) r c.db := by
  have hm := (h.keeps t s hs).meets
  rw [Discipline.Meets, hk] at hm
  exact (hm c.clock c.db (Discipline.Rely.refl D h.inv)).1

/-- An error the database answers to a write of a sound configuration satisfies the discipline's
fact about it. -/
theorem Config.Sound.refusal {c : Config Db Row ε α Op} (h : c.Sound D) {t : Nat}
    {s : Session Db Row ε α Op} (hs : c.sessions t = some s) {e : ε}
    (he : s.outcome c.db = .error e) : D.flushFact s.op e := by
  have hrefl : D.Rely (c.view t s) c.clock c.db := Discipline.Rely.refl D h.inv
  cases hprog : s.prog with
  | flush f k =>
    have hm := (h.keeps t s hs).meets
    rw [Discipline.Meets, hprog] at hm
    simp only [Session.outcome, hprog, bind, Except.bind] at he
    split at he
    · rename_i e' hpend
      cases he
      exact (h.keeps t s hs).refused _ _ hrefl _ hpend
    · rename_i view hview
      exact (hm c.clock c.db hrefl view hview).1 e he
  | _ =>
    simp only [Session.outcome, hprog] at he
    exact (h.keeps t s hs).refused _ _ hrefl _ he

/-- Changing the committed state under the sessions' rely keeps a configuration sound, whichever
sessions and locks of it stay. -/
theorem Config.Sound.interfere {c c' : Config Db Row ε α Op} (h : c.Sound D) (hinv : D.inv c'.db)
    (hclock : c.clock ≤ c'.clock) (hgrow : D.grow c.db c'.db)
    (hlocks : ∀ r u, c'.locks r = some u ↔ c.locks r = some u ∧ (c'.sessions u).isSome)
    (hsessions : ∀ u s, c'.sessions u = some s → c.sessions u = some s)
    (hsame : ∀ r u, c'.locks r = some u → D.same r c.db c'.db) : c'.Sound D where
  inv := hinv
  keeps := by
    intro u s hs
    have hview : c'.view u s = (c.view u s).later c'.clock c'.db := by
      have hheld : c'.Held u = c.Held u := by
        funext r
        simp only [Config.Held, hlocks, hs, Option.isSome_some, and_true]
      simp only [Config.view, View.later, hheld]
    rw [hview]
    refine (h.keeps u s (hsessions u s hs)).later ⟨hclock, hinv, hgrow, fun r hr => ?_⟩
    exact hsame r u ((hlocks r u).2 ⟨hr, by rw [hs]; rfl⟩)
  open_of_lock := fun r u hr => ((hlocks r u).1 hr).2

/-- Ending a session keeps a configuration sound, if the state it leaves respects the others'
locks. -/
theorem Config.Sound.finish {c : Config Db Row ε α Op} (h : c.Sound D) {t : Nat} {db : Db}
    (hinv : D.inv db) (hgrow : D.grow c.db db)
    (hsame : ∀ r, ¬ c.Held t r → D.same r c.db db) : (c.finish t db).Sound D := by
  refine h.interfere hinv (Nat.le_refl _) hgrow ?_ ?_ ?_
  · intro r u
    simp only [Config.finish]
    by_cases hut : u = t
    · subst hut
      simp
    · rw [Function.update_of_ne hut]
      constructor
      · intro hr
        split at hr
        · simp at hr
        · exact ⟨hr, h.open_of_lock r u hr⟩
      · rintro ⟨hr, -⟩
        rw [if_neg (by rw [hr]; simpa using hut), hr]
  · exact fun u s hs => (Config.sessions_finish_eq_some hs).2
  · intro r u hr
    refine hsame r fun hheld => ?_
    simp only [Config.finish] at hr
    rw [if_pos (show c.locks r = some t from hheld)] at hr
    simp at hr

/-- Moving one session on keeps a configuration sound, if the session still keeps the discipline
from its new view. -/
theorem Config.Sound.put {c c' : Config Db Row ε α Op} (h : c.Sound D) {t : Nat}
    {s' : Session Db Row ε α Op} (hopen : c.sessions t = none → ∀ r, c'.locks r ≠ some t)
    (hdb : c'.db = c.db) (hclock : c'.clock = c.clock)
    (hsessions : c'.sessions = Function.update c.sessions t (some s'))
    (hlocks : ∀ r u, u ≠ t → (c'.locks r = some u ↔ c.locks r = some u))
    (hkeeps : s'.Keeps D (c'.view t s')) : c'.Sound D where
  inv := hdb ▸ h.inv
  keeps := by
    intro u s hs
    rw [hsessions] at hs
    by_cases hut : u = t
    · subst hut
      rw [Function.update_self, Option.some.injEq] at hs
      subst hs
      exact hkeeps
    · rw [Function.update_of_ne hut] at hs
      have hview : c'.view u s = c.view u s := by
        have hheld : c'.Held u = c.Held u := by
          funext r
          simp only [Config.Held, hlocks r u hut]
        simp only [Config.view, hheld, hdb, hclock]
      rw [hview]
      exact h.keeps u s hs
  open_of_lock := by
    intro r u hr
    rw [hsessions]
    by_cases hut : u = t
    · subst hut
      simp
    · rw [Function.update_of_ne hut]
      exact h.open_of_lock r u ((hlocks r u hut).1 hr)

variable [DecidableEq Row] {S : System Db Row ε α Op Env}

/-- A system all of whose operations meet the discipline, and whose other writes respect every
lock. -/
structure Discipline.Governs (D : Discipline Db Row ε α Op) (S : System Db Row ε α Op Env) :
    Prop where
  program : ∀ op now db, D.inv db →
    D.Meets op db (S.program op) ⟨fun _ => False, .ok, now, db⟩
  env : ∀ e db, D.inv db → D.Guar (fun _ => False) db (S.env e db)

/-- One statement of an open session keeps a configuration sound. -/
theorem Config.Sound.advance {c c' : Config Db Row ε α Op} (h : c.Sound D) {t draw : Nat}
    {s : Session Db Row ε α Op} (hs : c.sessions t = some s)
    (hnext : c.advance t draw s = some c') : c'.Sound D := by
  have hm := (h.keeps t s hs).meets
  have hrefl : D.Rely (c.view t s) c.clock c.db := Discipline.Rely.refl D h.inv
  have hstay : (c.finish t c.db).Sound D :=
    h.finish h.inv (D.grow_refl _) fun r _ => D.same_refl r _
  have hopen : ∀ {P : Prop}, c.sessions t = none → P := fun hnone => by
    rw [hs] at hnone
    cases hnone
  have hrefused := (h.keeps t s hs).refused
  unfold Discipline.Meets at hm
  unfold Config.advance at hnext
  cases hprog : s.prog with
  | pure a =>
    rw [hprog] at hnext
    simp only at hnext
    cases hdb : s.pending c.db with
    | ok db =>
      rw [hdb] at hnext
      cases hnext
      -- the discipline's promise for the commit is what the others rely on
      obtain ⟨hg, -⟩ := h.commit hs hprog hdb
      exact h.finish hg.inv hg.grow hg.same
    | error e =>
      rw [hdb] at hnext
      cases hnext
      exact hstay
  | raise e =>
    rw [hprog] at hnext
    cases hnext
    exact hstay
  | utcnow k =>
    rw [hprog] at hnext hm
    cases hnext
    exact h.put hopen rfl rfl rfl (fun _ _ _ => Iff.rfl) ⟨hm c.clock c.db hrefl, hrefused⟩
  | uuid4 k =>
    rw [hprog] at hnext hm
    cases hnext
    exact h.put hopen rfl rfl rfl (fun _ _ _ => Iff.rfl) ⟨hm draw, hrefused⟩
  | query k =>
    rw [hprog] at hnext hm
    simp only at hnext
    cases hdb : s.pending c.db with
    | ok view =>
      rw [hdb] at hnext
      cases hnext
      exact h.put hopen rfl rfl rfl (fun _ _ _ => Iff.rfl)
        ⟨hm c.clock c.db hrefl view hdb, hrefused⟩
    | error e =>
      rw [hdb] at hnext
      cases hnext
      exact hstay
  | lock r k =>
    rw [hprog] at hnext hm
    simp only at hnext
    split at hnext
    · -- a lock that is free, or the session's own, takes no row from another session
      rename_i hfree
      cases hnext
      refine h.put hopen rfl rfl rfl ?_ ?_
      · intro x u hu
        simp only [Config.put, Config.grant]
        by_cases hxr : x = r
        · subst hxr
          rw [Function.update_self]
          rcases hfree with hfree | hfree <;> simp [hfree, hu.symm]
        · rw [Function.update_of_ne hxr]
      · have hview : ((c.grant t r).put t { s with prog := k }).view t { s with prog := k } =
            ((c.view t s).later c.clock c.db).grantAll [r] := by
          simp only [Config.view, View.later, View.grantAll, Config.put, Config.grant,
            View.mk.injEq, and_true]
          funext x
          rw [List.mem_singleton]
          exact propext Config.held_grant
        rw [hview]
        exact ⟨(hm c.clock c.db hrefl).2, fun n db hr => hrefused n db hr.ungranted⟩
    · simp at hnext
  | flush f k =>
    rw [hprog] at hnext hm
    simp only at hnext
    cases hdb : s.pending c.db with
    | ok view =>
      have hflush := hm c.clock c.db hrefl view hdb
      simp only [hdb, bind, Except.bind] at hnext
      cases hf : f view with
      | ok view' =>
        rw [hf] at hnext
        cases hnext
        -- the write stays pending: an error it may still raise is one the rule allows
        refine h.put hopen rfl rfl rfl (fun _ _ _ => Iff.rfl) ⟨hflush.2 view' hf, ?_⟩
        intro n db hr e he
        have hr' : D.Rely (c.view t s) n db := hr.unflushed
        dsimp only at he
        split at he
        · rename_i e' hpend
          cases he
          exact hrefused n db hr' _ hpend
        · rename_i view₂ hview₂
          exact (hm n db hr' view₂ hview₂).1 e he
      | error e =>
        rw [hf] at hnext
        cases hnext
        exact hstay
    | error e =>
      simp only [hdb, bind, Except.bind] at hnext
      cases hnext
      exact hstay

/-- Every step of a governed system keeps a configuration sound. -/
theorem Config.Sound.next (hD : D.Governs S) {c c' : Config Db Row ε α Op} {l : Label Op Env}
    (h : c.Sound D) (hnext : S.next c l = some c') : c'.Sound D := by
  cases l with
  | start t op =>
    cases hs : c.sessions t with
    | some s => simp [System.next, hs] at hnext
    | none =>
      simp only [System.next, hs, Option.some.injEq] at hnext
      subst hnext
      have hfree : ∀ r, c.locks r ≠ some t := fun r hr => by
        have := h.open_of_lock r t hr
        rw [hs] at this
        simp at this
      refine h.put (fun _ => hfree) rfl rfl rfl (fun _ _ _ => Iff.rfl) ?_
      have hview : (c.put t ⟨op, c.db, S.program op, .ok⟩).view t
          ⟨op, c.db, S.program op, .ok⟩ = ⟨fun _ => False, .ok, c.clock, c.db⟩ := by
        simp only [Config.view, Config.put, View.mk.injEq, and_true]
        funext r
        simp only [Config.Held, hfree r]
      rw [hview]
      exact ⟨hD.program op c.clock c.db h.inv, fun n db _ e he => by cases he⟩
  | step t draw =>
    cases hs : c.sessions t with
    | none => simp [System.next, hs] at hnext
    | some s =>
      simp only [System.next, hs] at hnext
      exact h.advance hs hnext
  | abort t =>
    simp only [System.next, Option.map_eq_some_iff] at hnext
    obtain ⟨s, -, rfl⟩ := hnext
    exact h.finish h.inv (D.grow_refl _) fun r _ => D.same_refl r _
  | tick n =>
    simp only [System.next, Option.some.injEq] at hnext
    subst hnext
    exact h.interfere h.inv (Nat.le_add_right _ _) (D.grow_refl _)
      (fun r u => ⟨fun hr => ⟨hr, h.open_of_lock r u hr⟩, fun hr => hr.1⟩) (fun _ _ hs => hs)
      fun r _ _ => D.same_refl r _
  | env e =>
    simp only [System.next, Option.some.injEq] at hnext
    subst hnext
    have hg := hD.env e c.db h.inv
    exact h.interfere hg.inv (Nat.le_refl _) hg.grow
      (fun r u => ⟨fun hr => ⟨hr, h.open_of_lock r u hr⟩, fun hr => hr.1⟩) (fun _ _ hs => hs)
      fun r _ _ => hg.same r fun hf => hf

/-- Every run of a governed system from a sound configuration stays sound. -/
theorem sound_of_run (hD : D.Governs S) {c c' : Config Db Row ε α Op} (h : c.Sound D)
    (hrun : S.machine.Run c c') : c'.Sound D :=
  hrun.preserves (fun _ _ _ hc _ hnext => hc.next hD hnext) h

/-- Every step of a governed system moves the committed state forward. -/
theorem Config.Sound.grow_of_next (hD : D.Governs S) {c c' : Config Db Row ε α Op}
    {l : Label Op Env} (h : c.Sound D) (hnext : S.next c l = some c') : D.grow c.db c'.db := by
  rcases S.next_db hnext with hdb | ⟨t, draw, s, a, -, hs, hprog, hpending⟩ | ⟨e, -, hdb⟩
  · rw [hdb]
    exact D.grow_refl c.db
  · exact (h.commit hs hprog hpending).1.grow
  · rw [hdb]
    exact (hD.env e c.db h.inv).grow

theorem grow_of_run (hD : D.Governs S) {c c' : Config Db Row ε α Op} (h : c.Sound D)
    (hrun : S.machine.Run c c') : D.grow c.db c'.db := by
  induction hrun with
  | refl => exact D.grow_refl c.db
  | tail hrun hstep ih =>
    obtain ⟨l, -, hnext⟩ := hstep
    exact D.grow_trans ih ((sound_of_run hD h hrun).grow_of_next hD hnext)

/-! ## More about what commits do -/

/-- The discipline without its facts about lock requests and refused writes. -/
def Discipline.lax (D : Discipline Db Row ε α Op) : Discipline Db Row ε α Op :=
  { D with
    lockFact := fun _ _ _ _ => True
    flushFact := fun _ _ => True }

/-- The discipline that says more about what commits do. -/
def Discipline.withPost (D : Discipline Db Row ε α Op)
    (post : Op → Db → (Row → Prop) → α → Nat → Db → Db → Prop) : Discipline Db Row ε α Op :=
  { D with
    post := fun op opened held a now db db' =>
      D.post op opened held a now db db' ∧ post op opened held a now db db' }

omit [DecidableEq Row] in
theorem Discipline.Rely.lax {v : View Db Row ε} {now : Nat} {db : Db} (h : D.lax.Rely v now db) :
    D.Rely v now db := ⟨h.clock, h.inv, h.grow, h.same⟩

omit [DecidableEq Row] in
/-- What holds with the facts holds without. -/
theorem Discipline.wp_lax {op : Op} {β : Type} {Q : β → View Db Row ε → Prop}
    {x : Txn Db Row ε β} {v : View Db Row ε} (h : D.wp op x Q v) : D.lax.wp op x Q v := by
  induction x generalizing v with
  | pure b => exact h
  | raise e => trivial
  | utcnow k ih => exact fun n db hr => ih n (h n db hr.lax)
  | uuid4 k ih => exact fun i => ih i (h i)
  | query k ih => exact fun n db hr view hv => ih view (h n db hr.lax view hv)
  | lock r k ih => exact fun n db hr => ⟨trivial, ih (h n db hr.lax).2⟩
  | flush f k ih =>
    exact fun n db hr view hv =>
      ⟨fun _ _ => trivial, fun view' hv' => ih ((h n db hr.lax view hv).2 view' hv')⟩

omit [DecidableEq Row] in
/-- Two postconditions of one body, of which the second was shown without the facts. -/
theorem Discipline.wp_and {post : Op → Db → (Row → Prop) → α → Nat → Db → Db → Prop} {op : Op}
    {β : Type} {Q Q' : β → View Db Row ε → Prop} {x : Txn Db Row ε β} {v : View Db Row ε}
    (h : D.wp op x Q v) (h' : D.lax.wp op x Q' v) :
    (D.withPost post).wp op x (fun b w => Q b w ∧ Q' b w) v := by
  have hrely : ∀ {v : View Db Row ε} {n : Nat} {db : Db}, (D.withPost post).Rely v n db →
      D.Rely v n db ∧ D.lax.Rely v n db := fun hr =>
    ⟨⟨hr.clock, hr.inv, hr.grow, hr.same⟩, ⟨hr.clock, hr.inv, hr.grow, hr.same⟩⟩
  induction x generalizing v with
  | pure b => exact ⟨h, h'⟩
  | raise e => trivial
  | utcnow k ih => exact fun n db hr => ih n (h n db (hrely hr).1) (h' n db (hrely hr).2)
  | uuid4 k ih => exact fun i => ih i (h i) (h' i)
  | query k ih =>
    exact fun n db hr view hv =>
      ih view (h n db (hrely hr).1 view hv) (h' n db (hrely hr).2 view hv)
  | lock r k ih =>
    exact fun n db hr =>
      ⟨(h n db (hrely hr).1).1, ih (h n db (hrely hr).1).2 (h' n db (hrely hr).2).2⟩
  | flush f k ih =>
    exact fun n db hr view hv => ⟨(h n db (hrely hr).1 view hv).1, fun view' hv' =>
      ih ((h n db (hrely hr).1 view hv).2 view' hv') ((h' n db (hrely hr).2 view hv).2 view' hv')⟩

/-- The obligation at the end of a body, as far as the postcondition goes. -/
def Discipline.Posts (D : Discipline Db Row ε α Op)
    (post : Op → Db → (Row → Prop) → α → Nat → Db → Db → Prop) (op : Op) (opened : Db) (a : α)
    (v : View Db Row ε) : Prop :=
  ∀ n db, D.Rely v n db → ∀ db', v.pending db = .ok db' → post op opened v.held a n db db'

omit [DecidableEq Row] in
/-- A governed system whose commits do more than the discipline says. -/
theorem Discipline.Governs.withPost (hD : D.Governs S)
    {post : Op → Db → (Row → Prop) → α → Nat → Db → Db → Prop}
    (h : ∀ op now db, D.inv db →
      D.lax.wp op (S.program op) (D.Posts post op db) ⟨fun _ => False, .ok, now, db⟩) :
    (D.withPost post).Governs S where
  program := fun op now db hinv =>
    Discipline.wp_mono (fun a v ⟨hcommits, hposts⟩ n db hr db' hdb' => by
      have hr' : D.Rely v n db := ⟨hr.clock, hr.inv, hr.grow, hr.same⟩
      obtain ⟨hguar, hpost⟩ := hcommits n db hr' db' hdb'
      exact ⟨⟨hguar.inv, hguar.grow, hguar.same⟩, hpost, hposts n db hr' db' hdb'⟩) _ _
      (Discipline.wp_and (hD.program op now db hinv) (h op now db hinv))
  env := fun e db hinv => ⟨(hD.env e db hinv).inv, (hD.env e db hinv).grow, (hD.env e db hinv).same⟩

/-! ## Facts about locked rows -/

/-- Every locked row satisfies `P`, given its holder's operation and locks. -/
def Config.Guarded (P : Op → (Row → Prop) → Row → Db → Prop) (c : Config Db Row ε α Op) : Prop :=
  ∀ t s r, c.sessions t = some s → c.Held t r → P s.op (c.Held t) r c.db

omit [DecidableEq Row] in
theorem Config.guarded_idle {P : Op → (Row → Prop) → Row → Db → Prop} {db : Db} :
    (Config.idle db : Config Db Row ε α Op).Guarded P := fun t s r hs => by
  simp [Config.idle] at hs

/-- A fact that holds of every row when it is locked, that more locks do not falsify and that
commits keep, is kept by every step. -/
theorem Config.Guarded.next {P : Op → (Row → Prop) → Row → Db → Prop} (hD : D.Governs S)
    (hmono : ∀ op (held held' : Row → Prop) r db, (∀ x, held x → held' x) → P op held r db →
      P op held' r db)
    (hstable : ∀ op held r a b, D.inv a → D.inv b → D.grow a b → P op held r a → P op held r b)
    {c c' : Config Db Row ε α Op} {l : Label Op Env} (h : c.Guarded P) (hc : c.Sound D)
    (hnext : S.next c l = some c')
    (hlock : ∀ t draw s r k, l = .step t draw → c.sessions t = some s → s.prog = .lock r k →
      P s.op (c.Held t) r c.db) : c'.Guarded P := by
  have hinv' : D.inv c'.db := (hc.next hD hnext).inv
  -- ending a session leaves the other sessions with the locks they had
  have hfinish : ∀ {t : Nat} {db : Db}, D.inv db → D.grow c.db db →
      (c.finish t db).Guarded P := by
    intro t db hinv hgrow u s r hs hheld
    obtain ⟨hut, hs⟩ := Config.sessions_finish_eq_some hs
    rw [Config.held_finish hut] at hheld ⊢
    exact hstable _ _ _ _ _ hc.inv hinv hgrow (h u s r hs hheld)
  have hput : ∀ {t : Nat} {s s' : Session Db Row ε α Op}, c.sessions t = some s → s'.op = s.op →
      (c.put t s').Guarded P := by
    intro t s s' hs hop u x r hx' hheld
    by_cases hut : u = t
    · subst hut
      simp only [Config.put, Function.update_self, Option.some.injEq] at hx'
      subst hx'
      rw [hop]
      exact h u s r hs hheld
    · simp only [Config.put, Function.update_of_ne hut] at hx'
      exact h u x r hx' hheld
  have hstay : ∀ {t : Nat}, (c.finish t c.db).Guarded P :=
    hfinish hc.inv (D.grow_refl _)
  cases l with
  | start t op =>
    cases hs : c.sessions t with
    | some s => simp [System.next, hs] at hnext
    | none =>
      simp only [System.next, hs, Option.some.injEq] at hnext
      subst hnext
      intro u x r hx' hheld
      by_cases hut : u = t
      · subst hut
        have hopen := hc.open_of_lock r u hheld
        rw [hs] at hopen
        simp at hopen
      · simp only [Config.put, Function.update_of_ne hut] at hx'
        exact h u x r hx' hheld
  | step t draw =>
    cases hs : c.sessions t with
    | none => simp [System.next, hs] at hnext
    | some s =>
      simp only [System.next, hs] at hnext
      rcases Config.advance_cases hnext with ⟨a, db, hprog, hdb, rfl⟩ | rfl |
        ⟨r, k, hprog, hfree, rfl⟩ | ⟨s', hop, -, rfl⟩
      · obtain ⟨hg, -⟩ := hc.commit hs hprog hdb
        exact hfinish hg.inv hg.grow
      · exact hstay
      · intro u x q hx' hheld
        by_cases hut : u = t
        · subst hut
          simp only [Config.put, Function.update_self, Option.some.injEq] at hx'
          subst hx'
          -- the session holds what it held, and the new row
          have hmore : ∀ y, c.Held u y → ((c.grant u r).put u { s with prog := k }).Held u y :=
            fun y hy => Config.held_grant.2 (Or.inr hy)
          by_cases hqr : q = r
          · subst hqr
            exact hmono _ _ _ _ _ hmore (hlock u draw s q k rfl hs hprog)
          · refine hmono _ _ _ _ _ hmore (h u s q hs ?_)
            exact (Config.held_grant.1 hheld).resolve_left hqr
        · simp only [Config.put, Function.update_of_ne hut] at hx'
          have hsame : ((c.grant t r).put t { s with prog := k }).Held u = c.Held u :=
            Config.held_grant_of_ne hfree hut
          rw [hsame] at hheld ⊢
          exact h u x q hx' hheld
      · exact hput hs hop
  | abort t =>
    simp only [System.next, Option.map_eq_some_iff] at hnext
    obtain ⟨s, -, rfl⟩ := hnext
    exact hstay
  | tick n =>
    simp only [System.next, Option.some.injEq] at hnext
    subst hnext
    exact h
  | env e =>
    simp only [System.next, Option.some.injEq] at hnext
    subst hnext
    have hg := hD.env e c.db hc.inv
    intro u s r hs hheld
    exact hstable _ _ _ _ _ hc.inv hg.inv hg.grow (h u s r hs hheld)

end Soundness

end SmartLogistics.Library
