import SmartLogistics.Identity.SessionProtocol

/-!
# Identity's transactions keep the session protocol

Each statement of a transaction has a rule: most leave the tokens alone (`Quiet`), `wp_revokeAll`
revokes what its snapshot showed (`Sweeps`), and `wp_issue` adds one token (`Issuing`). From the
rules, every operation meets `sessionProtocol` (`sessionProtocol_governs`).
-/

set_option autoImplicit false

namespace SmartLogistics.Identity

open SmartLogistics.Library SmartLogistics.Platform

variable {security : Security} {settings : Settings} {op : Operation}
  {v w x : View Db Row Failure} {f : RefreshToken → RefreshToken}

/-! ## What a session has written -/

/-- A session has only revoked tokens so far, in place. -/
structure Revising (v : View Db Row Failure) (f : RefreshToken → RefreshToken) : Prop where
  revises : Revises v.held f
  sends : ∀ db view, db.violated = none → v.pending db = .ok view →
    view.violated = none ∧ view.refreshTokens = db.refreshTokens.map f

theorem revising_of_pending (hp : v.pending = .ok) : Revising v id where
  revises := .id _
  sends := by
    intro db view hchecked hview
    rw [hp] at hview
    cases hview
    exact ⟨hchecked, (List.map_id _).symm⟩

theorem Revising.later (h : Revising v f) (n : Nat) (db : Db) : Revising (v.later n db) f :=
  ⟨h.revises, h.sends⟩

theorem Revising.grantAll (h : Revising v f) (rows : List Row) : Revising (v.grantAll rows) f :=
  ⟨h.revises.mono fun _ hr => Or.inr hr, h.sends⟩

/-- A flush that revokes locked tokens, or none. -/
theorem Revising.flushed (h : Revising v f) {g : Db → Except Failure Db}
    {f' : RefreshToken → RefreshToken} (hf' : Revises v.held f')
    (hg : ∀ view view', view.violated = none → g view = .ok view' →
      view'.violated = none ∧ view'.refreshTokens = view.refreshTokens.map f') :
    Revising (v.flushed g) (f' ∘ f) where
  revises := hf'.comp h.revises
  sends := by
    intro db view' hchecked hview'
    obtain ⟨view, hview, hgview⟩ := View.flushed_pending_eq_ok.1 hview'
    obtain ⟨hchecked', htokens⟩ := h.sends db view hchecked hview
    obtain ⟨hchecked'', htokens'⟩ := hg view view' hchecked' hgview
    exact ⟨hchecked'', by rw [htokens', htokens, List.map_map]⟩

/-- A flush that leaves the tokens alone. -/
theorem Revising.flushed_other (h : Revising v f) {g : Db → Except Failure Db}
    (hg : ∀ view view', view.violated = none → g view = .ok view' →
      view'.violated = none ∧ view'.refreshTokens = view.refreshTokens) :
    Revising (v.flushed g) f :=
  h.flushed (Revises.id v.held) fun view view' hc hv => by
    obtain ⟨hchecked, htokens⟩ := hg view view' hc hv
    exact ⟨hchecked, by rw [htokens, List.map_id]⟩

/-- The database accepted a write: the state is checked. -/
theorem checked_of_check {db db' : Db} (h : db.check = .ok db') :
    db'.violated = none ∧ db' = db := by
  obtain ⟨rfl, hchecked⟩ := Db.check_eq_ok.1 h
  exact ⟨hchecked, rfl⟩

/-- View `w` is one of the session of `v` later on, which did not touch the tokens meanwhile. -/
structure Quiet (security : Security) (v w : View Db Row Failure)
    (f : RefreshToken → RefreshToken) : Prop where
  onward : (sessionProtocol security).Onward v w
  revising : Revising w f
  held : ∀ id, w.held (.token id) → v.held (.token id)

theorem Quiet.trans (h : Quiet security v w f) (h' : Quiet security w x f) :
    Quiet security v x f :=
  ⟨h.onward.trans h'.onward, h'.revising, fun id hid => h.held id (h'.held id hid)⟩

theorem Revising.quiet (h : Revising v f) {n : Nat} {db : Db}
    (hr : (sessionProtocol security).Rely v n db) : Quiet security v (v.later n db) f :=
  ⟨hr.onward, h.later n db, fun _ hid => hid⟩

theorem Quiet.later (h : Quiet security v w f) {n : Nat} {db : Db}
    (hr : (sessionProtocol security).Rely w n db) : Quiet security v (w.later n db) f :=
  h.trans (h.revising.quiet hr)

theorem Quiet.flushed_other (h : Quiet security v w f) {g : Db → Except Failure Db}
    (hg : ∀ view view', view.violated = none → g view = .ok view' →
      view'.violated = none ∧ view'.refreshTokens = view.refreshTokens) :
    Quiet security v (w.flushed g) f :=
  ⟨h.onward.flushed g, h.revising.flushed_other hg, h.held⟩

/-- Locking a row that is no token. -/
theorem Quiet.grant (h : Quiet security v w f) {row : Row} (hrow : ∀ id, row ≠ .token id) :
    Quiet security v (w.grantAll [row]) f where
  onward := h.onward.grantAll _
  revising := h.revising.grantAll _
  held := by
    rintro id (hid | hid)
    · exact absurd (List.mem_singleton.1 hid).symm (hrow id)
    · exact h.held id hid

/-! ## Statements that leave the tokens alone -/

section Rules

variable {β : Type} (hv : Revising v f) (hinv : Linked v.db)
include hv

theorem wp_ask {q : Db → β} {Q : β → View Db Row Failure → Prop}
    (h : ∀ w view, Quiet security v w f → Linked w.db → Q (q view) w) :
    (sessionProtocol security).wp op (Txn.select q) Q v :=
  Discipline.wp_select_view fun _ _ hr view _ => h _ view (hv.quiet hr) hr.inv

theorem wp_clock {Q : Nat → View Db Row Failure → Prop}
    (h : ∀ n w, Quiet security v w f → Linked w.db → Q n w) :
    (sessionProtocol security).wp op Txn.now Q v :=
  Discipline.wp_now fun n _ hr => h n _ (hv.quiet hr) hr.inv

/-- A write that leaves the tokens alone. -/
theorem wp_put {g : Db → Except Failure Db} {Q : Unit → View Db Row Failure → Prop}
    (hg : ∀ view view', view.violated = none → g view = .ok view' →
      view'.violated = none ∧ view'.refreshTokens = view.refreshTokens)
    (h : ∀ w, Quiet security v w f → Linked w.db → Q () w) :
    (sessionProtocol security).wp op (Txn.write g) Q v :=
  Discipline.wp_write fun _ _ hr _ _ =>
    ⟨fun _ _ => trivial, fun _ _ => h _ ((hv.quiet hr).flushed_other hg) hr.inv⟩

theorem wp_emit {eventType : String} {user : User} {extra : EventExtra}
    {Q : Unit → View Db Row Failure → Prop}
    (h : ∀ w, Quiet security v w f → Linked w.db → Q () w) :
    (sessionProtocol security).wp op (emit eventType user extra) Q v := by
  refine wp_put hv (fun view view' hchecked hview => ?_) h
  cases hview
  exact ⟨hchecked, rfl⟩

/-- Locking a row that is no token. -/
theorem wp_hold {row : Row} (hrow : ∀ id, row ≠ .token id)
    {Q : Unit → View Db Row Failure → Prop}
    (h : ∀ w, Quiet security v w f → Linked w.db → Q () w) :
    (sessionProtocol security).wp op (Txn.lock row (.pure ())) Q v := fun _ _ hr =>
  ⟨trivial, h _ ((hv.quiet hr).grant hrow) hr.inv⟩

include hinv in
theorem quiet_self : Quiet security v v f :=
  ⟨(Discipline.Rely.refl (sessionProtocol security) hinv).onward, hv, fun _ hid => hid⟩

include hinv in
theorem wp_flushUser {loaded user : User} {Q : User → View Db Row Failure → Prop}
    (h : ∀ user' w, Quiet security v w f → Linked w.db → Q user' w) :
    (sessionProtocol security).wp op (flushUser loaded user) Q v := by
  unfold flushUser
  split
  · exact h user v (quiet_self hv hinv) hinv
  · apply Discipline.wp_bind
    refine wp_clock hv fun now w₁ hw₁ _ => ?_
    apply Discipline.wp_bind
    refine wp_hold hw₁.revising (fun _ => Row.noConfusion) fun w₂ hw₂ _ => ?_
    apply Discipline.wp_bind
    refine wp_put hw₂.revising (fun view view' _ hview => ?_) fun w₃ hw₃ hinv₃ => ?_
    · obtain ⟨hchecked, rfl⟩ := checked_of_check hview
      exact ⟨hchecked, rfl⟩
    · exact h _ w₃ ((hw₁.trans hw₂).trans hw₃) hinv₃

theorem wp_requireUser {userId : Nat} {Q : User → View Db Row Failure → Prop}
    (h : ∀ user w, Quiet security v w f → Linked w.db → user.id = userId → Q user w) :
    (sessionProtocol security).wp op (requireUser userId) Q v := by
  unfold requireUser
  apply Discipline.wp_bind
  refine wp_ask hv fun w view hw hinv => ?_
  split
  · trivial
  · rename_i user hfound
    exact h user w hw hinv (Table.mem_of_lookup (Option.eq_some_of_filter_eq_some hfound)).2

theorem wp_getCurrentUser {principal : Principal} {Q : User → View Db Row Failure → Prop}
    (h : ∀ user w, Quiet security v w f → Linked w.db → user.id = principal.userId → Q user w) :
    (sessionProtocol security).wp op (getCurrentUser principal) Q v := by
  unfold getCurrentUser
  apply Discipline.wp_bind
  refine wp_ask hv fun w view hw hinv => ?_
  split
  · trivial
  · rename_i user hfound
    have hget := Option.eq_some_of_filter_eq_some hfound
    exact h user w hw hinv (Table.mem_of_lookup (Option.eq_some_of_filter_eq_some hget)).2

omit hv in
theorem wp_requireAdmin {principal : Principal} {Q : Unit → View Db Row Failure → Prop}
    (h : Q () v) : (sessionProtocol security).wp op (requireAdmin principal) Q v :=
  Discipline.wp_ofExcept fun _ _ => h

end Rules

/-! ## Revoking a user's sessions -/

/-- From view `v` to view `w` the session revoked the tokens of a user: it locked all that its
statement saw open, in the state `mid`, and every row it locked meanwhile is now revoked. -/
structure Sweep (security : Security) (userId : Nat) (v w : View Db Row Failure)
    (f f' : RefreshToken → RefreshToken) : Prop where
  onward : (sessionProtocol security).Onward v w
  revising : Revising w f'
  keeps : ∀ t, (f t).isRevoked → (f' t).isRevoked
  mid : ∃ mid, Linked mid ∧ Grows v.db mid ∧ Grows mid w.db ∧
    ∀ t ∈ mid.refreshTokens, t.userId = userId → ¬ (f t).isRevoked → w.held (.token t.id)
  revoked : ∀ n db, (sessionProtocol security).Rely w n db → ∀ t ∈ db.refreshTokens,
    t.userId = userId → w.held (.token t.id) → ¬ v.held (.token t.id) → (f' t).isRevoked

/-- A session that has revoked tokens in place finds a row by its key as it finds the committed
one. -/
theorem Revising.lookup (h : Revising v f) {db view : Db} (hinv : Linked db)
    (hview : v.pending db = .ok view) (k : Nat) :
    Table.lookup RefreshToken.id view.refreshTokens k =
      (Table.lookup RefreshToken.id db.refreshTokens k).map f := by
  rw [(h.sends db view hinv.checked hview).2,
    Table.lookup_map fun t => (h.revises.grows t).id]

/-- A locked token is found again in every later state. -/
theorem lookup_of_same {a b : Db} (ha : Linked a) (hb : Linked b) {k : Nat}
    (hsame : Same (.token k) a b) (hk : ∃ t ∈ a.refreshTokens, t.id = k) :
    Table.lookup RefreshToken.id a.refreshTokens k =
      Table.lookup RefreshToken.id b.refreshTokens k := by
  obtain ⟨t, ht, rfl⟩ := hk
  rw [ha.unique.tokens.lookup_of_mem ht, hb.unique.tokens.lookup_of_mem (hsame t ht rfl)]

/-- A locking read of tokens by a session that has only revoked some: every later view shows the
rows as they were read. -/
theorem wp_selectTokens {p : RefreshToken → Bool} (hv : Revising v f)
    {Q : List RefreshToken → View Db Row Failure → Prop}
    (h : ∀ n db, (sessionProtocol security).Rely v n db → ∀ view, v.pending db = .ok view →
      ∀ m db', (sessionProtocol security).Rely (v.later n db) m db' → ∀ rows,
        (∀ q db'', (sessionProtocol security).Rely ((v.later m db').grantAll
            ((Table.keysWhere RefreshToken.id p view.refreshTokens).map Row.token)) q db'' →
          ∀ view'', v.pending db'' = .ok view'' →
            rows = (Table.keysWhere RefreshToken.id p view.refreshTokens).filterMap fun k =>
              (Table.lookup RefreshToken.id view''.refreshTokens k).filter p) →
        Q rows ((v.later m db').grantAll
          ((Table.keysWhere RefreshToken.id p view.refreshTokens).map Row.token))) :
    (sessionProtocol security).wp op
      (Table.selectForUpdate RefreshToken.id Row.token Db.refreshTokens p) Q v := by
  refine Discipline.wp_bind _ _ (Discipline.wp_select_view fun n db hr view hview => ?_)
  refine Discipline.wp_lockEach_view _ _ ?_ (fun _ _ _ _ _ _ _ => trivial) hr.inv
    (h n db hr view hview)
  intro k hk m db₁ hr₁ db₂ hinv₂ _ hsame view₁ view₂ hview₁ hview₂
  -- the row was in the snapshot, so it is in every later state
  have hfound : ∃ t ∈ db₁.refreshTokens, t.id = k := by
    obtain ⟨t, ht, -, rfl⟩ := Table.mem_keysWhere.1 hk
    rw [(hv.sends db view hr.inv.checked hview).2] at ht
    obtain ⟨t₀, ht₀, rfl⟩ := List.mem_map.1 ht
    obtain ⟨t₁, ht₁, hg⟩ := hr₁.grow t₀ ht₀
    exact ⟨t₁, ht₁, hg.id.trans (hv.revises.grows t₀).id.symm⟩
  have hlookup := lookup_of_same hr₁.inv hinv₂ hsame hfound
  rw [hv.lookup hr₁.inv hview₁, hv.lookup hinv₂ hview₂, hlookup]

/-- The rewrite of a revocation. -/
def revokeIds (ids : List Nat) (now : Nat) (t : RefreshToken) : RefreshToken :=
  if ids.contains t.id then t.revoke now else t

theorem isRevoked_revokeIds {ids : List Nat} {now : Nat} {t : RefreshToken} (h : t.isRevoked) :
    (revokeIds ids now t).isRevoked := by
  unfold revokeIds
  split
  · rfl
  · exact h

/-- `revokeAll` sweeps. -/
theorem wp_revokeAll {userId : Nat} (hv : Revising v f)
    {Q : Nat → View Db Row Failure → Prop}
    (h : ∀ count w f', Sweep security userId v w f f' → Linked w.db → Q count w) :
    (sessionProtocol security).wp op (revokeAll userId) Q v := by
  unfold revokeAll
  apply Discipline.wp_bind
  refine wp_clock hv fun now v₁ hv₁ _ => ?_
  apply Discipline.wp_bind
  refine wp_selectTokens hv₁.revising fun n₁ mid hr₁ seen hseen n₂ db₂ hr₂ rows hrows => ?_
  set keys := Table.keysWhere RefreshToken.id (isOpenFor userId) seen.refreshTokens
  apply Discipline.wp_bind
  refine Discipline.wp_write fun n₃ db₃ hr₃ view₃ hview₃ => ⟨fun _ _ => trivial, fun view₄ _ => ?_⟩
  have hrows₃ := hrows n₃ db₃ hr₃ view₃ hview₃
  have hmid := hv₁.revising.sends mid seen hr₁.inv.checked hseen
  -- the rows it revokes are among those it locked
  have hids : ∀ id, (rows.map (·.id)).contains id → id ∈ keys := by
    intro id hid
    rw [hrows₃] at hid
    obtain ⟨t, ht, rfl⟩ := List.mem_map.1 (List.contains_iff_mem.1 hid)
    obtain ⟨k, hk, hfilter⟩ := List.mem_filterMap.1 ht
    exact (Table.mem_of_lookup (Option.eq_some_of_filter_eq_some hfilter)).2 ▸ hk
  have hset : Revises (((v₁.later n₂ db₂).grantAll (keys.map Row.token)).later n₃ db₃).held
      (revokeIds (rows.map (·.id)) now) := by
    intro t
    unfold revokeIds
    split
    · rename_i hid
      exact Or.inr ⟨Or.inl (List.mem_map_of_mem (hids _ hid)), now, rfl⟩
    · exact Or.inl rfl
  have hrevising : Revising (((v₁.later n₂ db₂).grantAll (keys.map Row.token)).later n₃ db₃) f :=
    ((hv₁.revising.later n₂ db₂).grantAll _).later n₃ db₃
  refine h rows.length _ _ ⟨?_, hrevising.flushed hset fun view view' _ hview => ?_,
    fun t ht => isRevoked_revokeIds ht, ⟨mid, hr₁.inv, hv₁.onward.rely.grow.trans hr₁.grow,
    Grows.trans hr₂.grow hr₃.grow, ?_⟩, ?_⟩ hr₃.inv
  · have hlater : (sessionProtocol security).Onward v (v₁.later n₂ db₂) :=
      hv₁.onward.trans (hr₁.trans hr₂).onward
    exact ((hlater.grantAll _).trans hr₃.onward).flushed _
  · obtain ⟨hchecked, rfl⟩ := checked_of_check hview
    exact ⟨hchecked, rfl⟩
  · -- what the statement saw open, it selected
    intro t ht huser hopen
    refine Or.inl (List.mem_map_of_mem (Table.mem_keysWhere.2 ⟨f t, ?_, ?_, ?_⟩))
    · rw [hmid.2]
      exact List.mem_map_of_mem ht
    · have hnone : (f t).revokedAt.isNone = true := by
        simpa [RefreshToken.isRevoked, Option.isNone_iff_eq_none] using hopen
      rw [isOpenFor, (hv.revises.grows t).user, huser, hnone]
      simp
    · exact (hv.revises.grows t).id
  · -- a row that it locked and did not revoke was revoked already
    intro n₄ db₄ hr₄ t ht huser hheld hnot
    have hkey : t.id ∈ keys := by
      rcases hheld with hheld | hheld
      · obtain ⟨k, hk, heq⟩ := List.mem_map.1 hheld
        rwa [← Row.token.inj heq]
      · exact absurd (hv₁.held t.id hheld) hnot
    obtain ⟨t₀, ht₀, -, hid₀⟩ := Table.mem_keysWhere.1 hkey
    rw [hmid.2] at ht₀
    obtain ⟨t₁, ht₁, rfl⟩ := List.mem_map.1 ht₀
    obtain ⟨t₃, ht₃, hg₃⟩ := Grows.trans hr₂.grow hr₃.grow t₁ ht₁
    have hid₃ : t₃.id = t.id := (hg₃.id.trans (hv.revises.grows t₁).id.symm).trans hid₀
    have hmem : t₃ ∈ db₄.refreshTokens :=
      hr₄.same (.token t.id) (Or.inl (List.mem_map_of_mem hkey)) t₃ ht₃ hid₃
    obtain rfl := hr₄.inv.eq_of_id hmem ht hid₃
    by_cases hopen : (f t₃).isRevoked
    · exact isRevoked_revokeIds hopen
    · have hnone : (f t₃).revokedAt.isNone = true := by
        simpa [RefreshToken.isRevoked, Option.isNone_iff_eq_none] using hopen
      have hp : isOpenFor userId (f t₃) = true := by
        rw [isOpenFor, (hv.revises.grows t₃).user, huser, hnone]
        simp
      have hrow : f t₃ ∈ rows := by
        rw [hrows₃]
        refine List.mem_filterMap.2 ⟨t₃.id, hkey, ?_⟩
        rw [hv₁.revising.lookup hr₃.inv hview₃, hr₃.inv.unique.tokens.lookup_of_mem ht₃,
          Option.map_some, Option.filter_some, if_pos hp]
      have hcontains : (rows.map (·.id)).contains (f t₃).id = true :=
        List.contains_iff_mem.2 (List.mem_map_of_mem hrow)
      rw [Function.comp_apply, revokeIds, if_pos hcontains]
      rfl

/-- What a session does after it has swept leaves the sweep as it is. -/
theorem Sweep.quiet {userId : Nat} {f' : RefreshToken → RefreshToken}
    (h : Sweep security userId v w f f') (hq : Quiet security w x f') :
    Sweep security userId v x f f' where
  onward := h.onward.trans hq.onward
  revising := hq.revising
  keeps := h.keeps
  mid := by
    obtain ⟨mid, hmid, hbefore, hafter, hlocked⟩ := h.mid
    exact ⟨mid, hmid, hbefore, hafter.trans hq.onward.rely.grow, fun t ht huser hopen =>
      hq.onward.held _ (hlocked t ht huser hopen)⟩
  revoked := fun n db hr t ht huser hheld hnot =>
    h.revoked n db (hq.onward.rely_of hr) t ht huser (hq.held t.id hheld) hnot

/-- What a session did before it swept, if it locked no token, counts as part of the sweep. -/
theorem Quiet.sweep {userId : Nat} {f' : RefreshToken → RefreshToken}
    (hq : Quiet security v w f) (h : Sweep security userId w x f f') :
    Sweep security userId v x f f' where
  onward := hq.onward.trans h.onward
  revising := h.revising
  keeps := h.keeps
  mid := by
    obtain ⟨mid, hmid, hbefore, hafter, hlocked⟩ := h.mid
    exact ⟨mid, hmid, Grows.trans hq.onward.rely.grow hbefore, hafter, hlocked⟩
  revoked := fun n db hr t ht huser hheld hnot =>
    h.revoked n db hr t ht huser hheld fun hw => hnot (hq.held t.id hw)

/-! ## Commits -/

section Commits

variable {opened : Db} {answer : Outcome}

/-- The commit of a session that has only revoked tokens. -/
theorem commits_of_revising (hw : Revising w f) (hlogin : loginOf security (op, answer) = none)
    (hexchange : exchangeOf security (op, answer) = none)
    (hswept : ∀ n db, (sessionProtocol security).Rely w n db → ∀ db',
      db'.refreshTokens = db.refreshTokens.map f → ∀ userId, Revokes security db op answer userId →
        Swept (Presents security op) userId opened w.held db db') :
    (sessionProtocol security).Commits op opened answer w := by
  intro n db hr db' hdb'
  obtain ⟨hchecked, htokens⟩ := hw.sends db db' hr.inv.checked hdb'
  refine ⟨guar_of_revises hr.inv hchecked hw.revises htokens, ?_, ?_, fun _ _ =>
    ⟨f, hw.revises, htokens⟩, hswept n db hr db' htokens⟩
  · intro tokenHash h
    rw [hlogin] at h
    cases h
  · intro e h
    rw [hexchange] at h
    cases h

/-- A session that has swept and locked no other token swept the user's sessions. -/
theorem Sweep.swept {userId : Nat} {f' : RefreshToken → RefreshToken}
    (h : Sweep security userId v w f f') (hf : f = id) (hheld : ∀ id, ¬ v.held (.token id))
    {presented : RefreshToken → Prop} (hpresented : ∀ t, ¬ presented t) {n : Nat} {db db' : Db}
    (hr : (sessionProtocol security).Rely w n db)
    (htokens : db'.refreshTokens = db.refreshTokens.map f') :
    Swept presented userId v.db w.held db db' := by
  subst hf
  obtain ⟨mid, hmid, hbefore, hafter, hlocked⟩ := h.mid
  refine ⟨⟨mid, hmid, hbefore, hafter.trans hr.grow, hlocked, fun t _ hp =>
    absurd hp (hpresented t)⟩, ?_⟩
  intro t' ht' huser hlock
  rw [htokens] at ht'
  obtain ⟨t, ht, rfl⟩ := List.mem_map.1 ht'
  have hg := h.revising.revises.grows t
  rw [hg.user] at huser
  rw [hg.id] at hlock
  exact h.revoked n db hr t ht huser hlock (hheld t.id)

end Commits

end SmartLogistics.Identity
