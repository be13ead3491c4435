import SmartLogistics.Library.Discipline

/-!
# What one session delivers, from its start on

A discipline states of every commit what its operation promises, whenever the session was opened. A
promise about a moment, such as "all that was due when the session began", belongs to one session.
`Config.Following` says that the rest of the body of session `t` ends in such a promise. Each step
of a governed system keeps it (`Following.next`), its own statements by the weakest precondition and
the steps of the others by what the session may rely on; so a body that promises something when the
session is started has delivered it at its commit, however long that takes and whatever runs in
between (`post_of_started`).
-/

set_option autoImplicit false

namespace SmartLogistics.Library

variable {Db Row ε α Op Env : Type} {D : Discipline Db Row ε α Op}

theorem Discipline.Posts.later {post : Op → Db → (Row → Prop) → α → Nat → Db → Db → Prop} {op : Op}
    {opened : Db} {a : α} {v : View Db Row ε} (h : D.Posts post op opened a v) {n : Nat} {db : Db}
    (hr : D.Rely v n db) : D.Posts post op opened a (v.later n db) :=
  fun _ _ hr' => h _ _ (hr.trans hr')

/-- A system governed by a discipline is governed by it without the facts about lock requests and
refused writes. -/
theorem Discipline.Governs.lax [DecidableEq Row] {S : System Db Row ε α Op Env}
    (hD : D.Governs S) : D.lax.Governs S where
  program := fun op now db hinv => by
    refine Discipline.wp_mono (fun a v hcommits => ?_) _ _
      (Discipline.wp_lax (hD.program op now db hinv))
    intro n db' hr db'' hpending
    obtain ⟨hguar, hpost⟩ := hcommits n db' hr.lax db'' hpending
    exact ⟨⟨hguar.inv, hguar.grow, hguar.same⟩, hpost⟩
  env := fun e db hinv => ⟨(hD.env e db hinv).inv, (hD.env e db hinv).grow, (hD.env e db hinv).same⟩

/-- The session was opened in `opened` for `op`, and will have done `post` when it commits, as far
as it knows from the view `v`. -/
structure Session.Promises (D : Discipline Db Row ε α Op)
    (post : Op → Db → (Row → Prop) → α → Nat → Db → Db → Prop) (op : Op) (opened : Db)
    (s : Session Db Row ε α Op) (v : View Db Row ε) : Prop where
  op_eq : s.op = op
  opened_eq : s.opened = opened
  wp : D.wp op s.prog (D.Posts post op opened) v

/-- Session `t`, as long as it is open, promises `post`. -/
def Config.Following (D : Discipline Db Row ε α Op)
    (post : Op → Db → (Row → Prop) → α → Nat → Db → Db → Prop) (op : Op) (opened : Db) (t : Nat)
    (c : Config Db Row ε α Op) : Prop :=
  ∀ s, c.sessions t = some s → s.Promises D post op opened (c.view t s)

variable {post : Op → Db → (Row → Prop) → α → Nat → Db → Db → Prop} {op : Op} {opened : Db}
  {t : Nat} {c c' : Config Db Row ε α Op}

/-- What a followed session has done when it commits. -/
theorem Config.Following.commit (h : c.Following D post op opened t) (hinv : D.inv c.db)
    {s : Session Db Row ε α Op} (hs : c.sessions t = some s) {a : α} (hprog : s.prog = .pure a)
    {db : Db} (hpending : s.pending c.db = .ok db) :
    post op opened (c.Held t) a c.clock c.db db := by
  have hwp := (h s hs).wp
  rw [hprog] at hwp
  exact hwp c.clock c.db (.refl D hinv) db hpending

variable [DecidableEq Row] {S : System Db Row ε α Op Env}

/-- One statement of the followed session itself. -/
theorem Config.Following.advance (h : c.Following D post op opened t) (hinv : D.inv c.db)
    {draw : Nat} {s : Session Db Row ε α Op} (hs : c.sessions t = some s)
    (hnext : c.advance t draw s = some c') : c'.Following D post op opened t := by
  intro s' hs'
  obtain ⟨hop, hopened, hwp⟩ := h s hs
  have hrefl : D.Rely (c.view t s) c.clock c.db := .refl D hinv
  cases Config.proceeds_of_advance hnext hs' with
  | utcnow hprog =>
    rw [hprog] at hwp
    simp only [Config.advance, hprog, Option.some.injEq] at hnext
    subst hnext
    exact ⟨hop, hopened, hwp c.clock c.db hrefl⟩
  | uuid4 hprog =>
    rw [hprog] at hwp
    simp only [Config.advance, hprog, Option.some.injEq] at hnext
    subst hnext
    exact ⟨hop, hopened, hwp draw⟩
  | query hprog hview =>
    rw [hprog] at hwp
    simp only [Config.advance, hprog, hview, Option.some.injEq] at hnext
    subst hnext
    exact ⟨hop, hopened, hwp c.clock c.db hrefl _ hview⟩
  | @lock r k hprog =>
    rw [hprog] at hwp
    simp only [Config.advance, hprog] at hnext
    split at hnext
    · -- the lock is granted on the state that is committed now
      cases hnext
      have hview : ((c.grant t r).put t { s with prog := k }).view t { s with prog := k } =
          ((c.view t s).later c.clock c.db).grantAll [r] := by
        simp only [Config.view, View.later, View.grantAll, Config.put, Config.grant, View.mk.injEq,
          and_true]
        funext x
        rw [List.mem_singleton]
        exact propext Config.held_grant
      rw [hview]
      exact ⟨hop, hopened, (hwp c.clock c.db hrefl).2⟩
    · cases hnext
  | @flush f k hprog =>
    rw [hprog] at hwp
    simp only [Config.advance, hprog, bind, Except.bind] at hnext
    cases hview : s.pending c.db with
    -- a flush that fails ends the session, which is then not open
    | error e =>
      simp only [hview, Option.some.injEq] at hnext
      subst hnext
      exact absurd rfl (Config.sessions_finish_eq_some hs').1
    | ok view =>
      cases hf : f view with
      | error e =>
        simp only [hview, hf, Option.some.injEq] at hnext
        subst hnext
        exact absurd rfl (Config.sessions_finish_eq_some hs').1
      | ok view' =>
        simp only [hview, hf, Option.some.injEq] at hnext
        subst hnext
        exact ⟨hop, hopened, (hwp c.clock c.db hrefl view hview).2 view' hf⟩

/-- The label opens no session under the name `t`. -/
def Label.Spares (t : Nat) : Label Op Env → Prop
  | .start u _ => u ≠ t
  | _ => True

instance (l : Label Op Env) : Decidable (l.Spares t) := by
  unfold Label.Spares
  split <;> infer_instance

/-- A step of another session, or of none, leaves a session with the locks it had, and keeps the
rows it has locked. -/
theorem Config.Sound.rely_of_next (hD : D.Governs S) (hc : c.Sound D) {l : Label Op Env}
    (hnext : S.next c l = some c') {s : Session Db Row ε α Op} (hs : c'.sessions t = some s)
    (hstep : ∀ draw, l ≠ .step t draw) :
    c'.Held t = c.Held t ∧ D.Rely (c.view t s) c'.clock c'.db := by
  have hinv := (hc.next hD hnext).inv
  have hgrow := hc.grow_of_next hD hnext
  have hclock := S.clock_le_of_next hnext
  suffices h : c'.Held t = c.Held t ∧ ∀ r, c.Held t r → D.same r c.db c'.db from
    ⟨h.1, hclock, hinv, hgrow, h.2⟩
  cases l with
  | start u op =>
    simp only [System.next] at hnext
    split at hnext
    · cases hnext
      exact ⟨rfl, fun r _ => D.same_refl r _⟩
    · cases hnext
  | step u draw =>
    have htu : t ≠ u := fun heq => hstep draw (heq ▸ rfl)
    simp only [System.next] at hnext
    split at hnext
    · cases hnext
    rename_i s₀ hs₀
    rcases Config.advance_cases hnext with ⟨a, db, hprog, hpending, rfl⟩ | rfl |
      ⟨r, k, -, hfree, rfl⟩ | ⟨s', -, -, rfl⟩
    · refine ⟨Config.held_finish htu, fun r hr => (hc.commit hs₀ hprog hpending).1.same r ?_⟩
      -- a row has one holder
      exact fun hu => htu (Option.some.inj (hr.symm.trans hu))
    · exact ⟨Config.held_finish htu, fun r _ => D.same_refl r _⟩
    · exact ⟨Config.held_grant_of_ne hfree htu, fun r _ => D.same_refl r _⟩
    · exact ⟨rfl, fun r _ => D.same_refl r _⟩
  | abort u =>
    simp only [System.next, Option.map_eq_some_iff] at hnext
    obtain ⟨_, -, rfl⟩ := hnext
    exact ⟨Config.held_finish (Config.sessions_finish_eq_some hs).1, fun r _ => D.same_refl r _⟩
  | tick n =>
    simp only [System.next, Option.some.injEq] at hnext
    subst hnext
    exact ⟨rfl, fun r _ => D.same_refl r _⟩
  | env e =>
    simp only [System.next, Option.some.injEq] at hnext
    subst hnext
    exact ⟨rfl, fun r _ => (hD.env e c.db hc.inv).same r fun hr => hr⟩

/-- Every step keeps following a session, as long as no new session takes its name. -/
theorem Config.Following.next (hD : D.Governs S) (hc : c.Sound D)
    (h : c.Following D post op opened t) {l : Label Op Env} (hnext : S.next c l = some c')
    (hspares : l.Spares t) : c'.Following D post op opened t := by
  intro s' hs'
  rcases S.next_session_cases hnext hs' with ⟨_, heq, -⟩ | ⟨draw, s, -, hs, hadvance, -⟩ |
    ⟨hs, -, hstep⟩
  · subst heq
    exact absurd rfl hspares
  · exact h.advance hc.inv hs hadvance s' hs'
  · obtain ⟨hheld, hrely⟩ := hc.rely_of_next hD hnext hs' hstep
    have hview : c'.view t s' = (c.view t s').later c'.clock c'.db := by
      simp only [Config.view, View.later, hheld]
    obtain ⟨hop, hopened, hwp⟩ := h s' hs
    refine ⟨hop, hopened, ?_⟩
    rw [hview]
    exact Discipline.wp_later (fun _ _ _ _ hr hposts => hposts.later hr) _ _ _ _ hrely hwp

/-- A session that is started promises what its body does. -/
theorem Config.Sound.following_start (hc : c.Sound D)
    (hwp : D.wp op (S.program op) (D.Posts post op c.db) ⟨fun _ => False, .ok, c.clock, c.db⟩)
    (hnext : S.next c (.start t op) = some c') : c'.Following D post op c.db t := by
  intro s hs
  simp only [System.next] at hnext
  split at hnext
  · rename_i hnone
    cases hnext
    rcases update_eq_some hs with ⟨-, rfl⟩ | ⟨hne, -⟩
    · refine ⟨rfl, rfl, ?_⟩
      have hview : (c.put t ⟨op, c.db, S.program op, .ok⟩).view t ⟨op, c.db, S.program op, .ok⟩ =
          ⟨fun _ => False, .ok, c.clock, c.db⟩ := by
        simp only [Config.view, Config.put, View.mk.injEq, and_true]
        funext r
        -- only open sessions hold locks
        refine eq_false fun hr => ?_
        have hopen := hc.open_of_lock r t hr
        rw [hnone] at hopen
        cases hopen
      rw [hview]
      exact hwp
    · exact absurd rfl hne
  · cases hnext

/-- What a body promises when its session is started, it has done when the session answers, in every
run in between. -/
theorem post_of_started (hD : D.Governs S) (hc : c.Sound D)
    (hwp : D.wp op (S.program op) (D.Posts post op c.db) ⟨fun _ => False, .ok, c.clock, c.db⟩)
    (hstart : S.machine.next c (.start t op) = some c') {d d' : Config Db Row ε α Op} {draw : Nat}
    (hrun : S.machine.RunOf (fun _ l => l.Spares t) c' d)
    (hnext : S.machine.next d (.step t draw) = some d') {op' : Op} {a : α}
    (hanswer : d.delivered (.step t draw : Label Op Env) = some (op', a)) :
    post op c.db (d.Held t) a d.clock d.db d'.db := by
  have hopen : S.next c (.start t op) = some c' := hstart
  have hbegin : c'.Sound D ∧ c'.Following D post op c.db t :=
    ⟨hc.next hD hopen, hc.following_start hwp hopen⟩
  have hfollow : d.Sound D ∧ d.Following D post op c.db t := by
    refine hrun.preserves (I := fun e => e.Sound D ∧ e.Following D post op c.db t) ?_ hbegin
    exact fun e l e' he hl hstep => ⟨he.1.next hD hstep, he.2.next hD he.1 hstep hl⟩
  have hlast : S.next d (.step t draw) = some d' := hnext
  rcases S.delivered_cases hlast with ⟨hnone, -⟩ |
    ⟨u, draw', s, b, hl, hs, hprog, hpending, hdelivered⟩
  · rw [hanswer] at hnone
    cases hnone
  · cases hl
    rw [hanswer] at hdelivered
    cases hdelivered
    exact hfollow.2.commit hfollow.1.inv hs hprog hpending

/-- What the discipline states of a commit holds of the state in which the session was started. -/
theorem Discipline.Governs.post_of_started (hD : D.Governs S) (hc : c.Sound D)
    (hstart : S.machine.next c (.start t op) = some c') {d d' : Config Db Row ε α Op} {draw : Nat}
    (hrun : S.machine.RunOf (fun _ l => l.Spares t) c' d)
    (hnext : S.machine.next d (.step t draw) = some d') {op' : Op} {a : α}
    (hanswer : d.delivered (.step t draw : Label Op Env) = some (op', a)) :
    D.post op c.db (d.Held t) a d.clock d.db d'.db := by
  refine Library.post_of_started hD hc ?_ hstart hrun hnext hanswer
  exact Discipline.wp_mono (fun _ _ hcommits n db hr db' hpending =>
    (hcommits n db hr db' hpending).2) _ _ (hD.program op c.clock c.db hc.inv)

end SmartLogistics.Library
