import SmartLogistics.Library.Transaction

/-!
# What a transaction has written when it returns

`Txn.Ends Q now sent x` is about a body `x` that is part of a transaction: the transaction has sent
the writes `sent` and has last read the clock at `now`. Whatever the queries of `x` see, if it
returns a value then `Q` holds of its last clock reading, of all writes sent by then, and of the
value. Sessions keep it as they move on (`Session.Ends.advance`), so `Q` holds of every commit
(`Session.Ends.result`).
-/

set_option autoImplicit false

namespace SmartLogistics.Library

variable {Db Row ε α β Op : Type}

namespace Txn

/-- If the body returns, `Q` holds of its last clock reading, the writes sent and its result. -/
def Ends (Q : Nat → (Db → Except ε Db) → α → Prop) :
    Nat → (Db → Except ε Db) → Txn Db Row ε α → Prop
  | now, sent, .pure a => Q now sent a
  | _, _, .raise _ => True
  | now, sent, .utcnow k => ∀ n, now ≤ n → (k n).Ends Q n sent
  | now, sent, .uuid4 k => ∀ i, (k i).Ends Q now sent
  | now, sent, .query k => ∀ view, (k view).Ends Q now sent
  | now, sent, .lock _ k => k.Ends Q now sent
  | now, sent, .flush f k => k.Ends Q now fun db => sent db >>= f

variable {Q : Nat → (Db → Except ε Db) → α → Prop} {now : Nat} {sent : Db → Except ε Db}

theorem Ends.mono {Q' : Nat → (Db → Except ε Db) → α → Prop} {x : Txn Db Row ε α}
    (h : x.Ends Q now sent) (hQ : ∀ n f a, now ≤ n → Q n f a → Q' n f a) : x.Ends Q' now sent := by
  induction x generalizing now sent with
  | pure a => exact hQ _ _ _ (Nat.le_refl _) h
  | raise e => trivial
  | utcnow k ih =>
    exact fun n hn => ih n (h n hn) fun m f a hm => hQ m f a (Nat.le_trans hn hm)
  | uuid4 k ih => exact fun i => ih i (h i) hQ
  | query k ih => exact fun view => ih view (h view) hQ
  | lock r k ih => exact ih h hQ
  | flush f k ih => exact ih h hQ

/-- Two bodies one after the other. -/
theorem Ends.bind {Q : Nat → (Db → Except ε Db) → β → Prop} {x : Txn Db Row ε α}
    {f : α → Txn Db Row ε β} (h : x.Ends (fun n g a => (f a).Ends Q n g) now sent) :
    (x.bind f).Ends Q now sent := by
  induction x generalizing now sent with
  | pure a => exact h
  | raise e => trivial
  | utcnow k ih => exact fun n hn => ih n (h n hn)
  | uuid4 k ih => exact fun i => ih i (h i)
  | query k ih => exact fun view => ih view (h view)
  | lock r k ih => exact ih h
  | flush g k ih => exact ih h

/-- A body that ends as it should whatever the body before it returns. -/
theorem Ends.of_bind {Q : Nat → (Db → Except ε Db) → β → Prop} (x : Txn Db Row ε α)
    {f : α → Txn Db Row ε β} (h : ∀ n g a, (f a).Ends Q n g) : (x.bind f).Ends Q now sent := by
  induction x generalizing now sent with
  | pure a => exact h now sent a
  | raise e => trivial
  | utcnow k ih => exact fun n _ => ih n
  | uuid4 k ih => exact fun i => ih i
  | query k ih => exact fun view => ih view
  | lock r k ih => exact ih
  | flush g k ih => exact ih

/-- One more write has been sent. -/
theorem sent_eq_ok {f : Db → Except ε Db} {db db' : Db} (h : (sent db >>= f) = .ok db') :
    ∃ mid, sent db = .ok mid ∧ f mid = .ok db' := by
  cases hsent : sent db with
  | error e =>
    rw [hsent] at h
    cases h
  | ok mid =>
    rw [hsent] at h
    exact ⟨mid, rfl, h⟩

end Txn

/-! ## Sessions -/

/-- What is left of the session ends in `Q`, and the clock was last read at `now`. -/
def Session.Ends (Q : Nat → (Db → Except ε Db) → α → Prop) (now : Nat)
    (s : Session Db Row ε α Op) : Prop :=
  s.prog.Ends Q now s.pending

variable {Q : Nat → (Db → Except ε Db) → α → Prop} {now : Nat} {s s' : Session Db Row ε α Op}

/-- The commit of a session. -/
theorem Session.Ends.result (h : s.Ends Q now) {a : α} (ha : s.prog = .pure a) :
    Q now s.pending a := by
  rw [Session.Ends, ha] at h
  exact h

/-- A session that takes a step still ends in `Q`; the clock it may have read is the present one. -/
theorem Session.Ends.advance [DecidableEq Row] {c c' : Config Db Row ε α Op} {t draw : Nat}
    (h : s.Ends Q now) (hnow : now ≤ c.clock) (hstep : c.advance t draw s = some c')
    (hs' : c'.sessions t = some s') : ∃ now', now' ≤ c.clock ∧ s'.Ends Q now' := by
  rw [Session.Ends] at h
  cases Config.proceeds_of_advance hstep hs' with
  | utcnow hprog =>
    rw [hprog] at h
    exact ⟨c.clock, Nat.le_refl _, h c.clock hnow⟩
  | uuid4 hprog =>
    rw [hprog] at h
    exact ⟨now, hnow, h draw⟩
  | query hprog hview =>
    rw [hprog] at h
    exact ⟨now, hnow, h _⟩
  | lock hprog =>
    rw [hprog] at h
    exact ⟨now, hnow, h⟩
  | flush hprog =>
    rw [hprog] at h
    exact ⟨now, hnow, h⟩

end SmartLogistics.Library
