import SmartLogistics.Identity.SessionSteps

/-!
# Every operation of Identity meets the session protocol

One theorem an operation, and `sessionProtocol_governs`: in every interleaving, every commit does to
the tokens what `Committed` states.
-/

set_option autoImplicit false

namespace SmartLogistics.Identity

open SmartLogistics.Library SmartLogistics.Platform

variable {security : Security} {settings : Settings} {op : Operation}
  {v w x : View Db Row Failure} {f : RefreshToken → RefreshToken}

/-! ## Issuing tokens -/

/-- A session has stored one token so far. -/
structure Issuing (w : View Db Row Failure) (s : RefreshToken) : Prop where
  sends : ∀ db view, db.violated = none → w.pending db = .ok view →
    view.violated = none ∧ view.refreshTokens = db.refreshTokens ++ [s]

theorem wp_issue {loaded user : User} {client : ClientInfo} (hv : Revising v id)
    {Q : IssuedTokens × RefreshToken × User → View Db Row Failure → Prop}
    (h : ∀ tokens s user' w, (sessionProtocol security).Onward v w → Linked w.db → Issuing w s →
      Fresh (security.hashToken tokens.refreshToken) user.id s → Q (tokens, s, user') w) :
    (sessionProtocol security).wp op (issue security settings loaded user client) Q v := by
  unfold issue
  apply Discipline.wp_bind
  refine wp_ask hv fun v₁ view hv₁ _ => ?_
  apply Discipline.wp_bind
  refine wp_clock hv₁.revising fun signedAt v₂ hv₂ _ => ?_
  apply Discipline.wp_bind
  refine Discipline.wp_freshId fun bytes => ?_
  apply Discipline.wp_bind
  refine Discipline.wp_freshId fun id => ?_
  apply Discipline.wp_bind
  refine wp_clock hv₂.revising fun now v₃ hv₃ hinv₃ => ?_
  apply Discipline.wp_bind
  refine wp_flushUser hv₃.revising hinv₃ fun user' v₄ hv₄ _ => ?_
  apply Discipline.wp_bind
  refine Discipline.wp_write fun n db hr view _ => ⟨fun _ _ => trivial, fun _ _ => ?_⟩
  have hquiet := ((hv₁.trans hv₂).trans hv₃).trans hv₄
  refine h _ _ _ _ ((hquiet.later hr).onward.flushed _) hr.inv ⟨fun db view hchecked hview => ?_⟩
    ⟨rfl, rfl, rfl, rfl⟩
  obtain ⟨mid, hmid, hinsert⟩ := View.flushed_pending_eq_ok.1 hview
  obtain ⟨-, htokens⟩ := hv₄.revising.sends db mid hchecked hmid
  obtain ⟨hchecked', rfl⟩ := checked_of_check hinsert
  refine ⟨hchecked', ?_⟩
  rw [Db.insertToken, htokens, List.map_id]

/-- The commit of a login. -/
theorem commits_of_issuing {email password : String} {client : ClientInfo} {opened : Db}
    {tokens : IssuedTokens} {user : UserRead} {userId : Nat} {s : RefreshToken} (hw : Issuing w s)
    (hs : Fresh (security.hashToken tokens.refreshToken) userId s) :
    (sessionProtocol security).Commits (.login email password client) opened
      (.loggedIn tokens user) w := by
  intro n db hr db' hdb'
  obtain ⟨hchecked, htokens⟩ := hw.sends db db' hr.inv.checked hdb'
  refine ⟨guar_of_issued hr.inv hchecked hs.replaced htokens, ?_, ?_, ?_, ?_⟩
  · intro tokenHash h
    cases h
    exact ⟨s, ⟨hs.hash, rfl, hs.revoked, hs.replaced⟩, htokens⟩
  · intro e h
    cases h
  · intro h
    cases h
  · intro userId h
    cases h

theorem meets_login {email password : String} {client : ClientInfo} (hv : Revising v id) :
    (sessionProtocol security).Meets (.login email password client) v.db
      (login security settings email password client) v := by
  unfold login
  apply Discipline.wp_bind
  refine wp_ask hv fun v₁ view hv₁ _ => ?_
  split
  · trivial
  rename_i loaded _
  apply Discipline.wp_bind
  refine wp_clock hv₁.revising fun now v₂ hv₂ _ => ?_
  split
  · trivial
  split
  · -- a failed attempt writes the user only
    apply Discipline.wp_bind
    refine wp_clock hv₂.revising fun now' v₃ hv₃ hinv₃ => ?_
    apply Discipline.wp_bind
    refine wp_flushUser hv₃.revising hinv₃ fun user v₄ hv₄ _ => ?_
    refine commits_of_revising hv₄.revising rfl rfl fun n db _ db' _ userId h => ?_
    cases h
  split
  · trivial
  apply Discipline.wp_bind
  refine wp_clock hv₂.revising fun now' v₃ hv₃ _ => ?_
  apply Discipline.wp_bind
  exact wp_issue hv₃.revising fun tokens s user w _ _ hw hs => commits_of_issuing hw hs

/-! ## Refresh -/

/-- The presented token: found by its hash and locked. -/
structure Found (security : Security) (rawToken : Nat) (w : View Db Row Failure)
    (stored : RefreshToken) : Prop where
  mem : stored ∈ w.db.refreshTokens
  hash : stored.tokenHash = security.hashToken rawToken
  held : w.held (.token stored.id)
  only : ∀ id, w.held (.token id) → id = stored.id

theorem Found.later {rawToken : Nat} {stored : RefreshToken} (h : Found security rawToken w stored)
    {n : Nat} {db : Db} (hr : (sessionProtocol security).Rely w n db) :
    stored ∈ db.refreshTokens :=
  hr.same (.token stored.id) h.held stored h.mem rfl

/-- Locking the presented token: at most one row has its hash. -/
theorem wp_lockToken {rawToken : Nat} (hp : v.pending = .ok) (hheld : ∀ id, ¬ v.held (.token id))
    {Q : Option RefreshToken → View Db Row Failure → Prop}
    (hnone : ∀ w, Q none w)
    (hsome : ∀ stored w, (sessionProtocol security).Onward v w → Linked w.db → w.pending = .ok →
      Found security rawToken w stored → Q (some stored) w) :
    (sessionProtocol security).wp op (lockToken (security.hashToken rawToken)) Q v := by
  have hv : Revising v id := revising_of_pending hp
  unfold lockToken
  apply Discipline.wp_bind
  refine wp_selectTokens hv fun n db hr view hview m db' hr' rows hrows => ?_
  rw [hp] at hview
  cases hview
  have hgot := hrows m db' (Discipline.Rely.refl (sessionProtocol security) hr'.inv) db'
    (congrFun hp db')
  cases hhead : rows.head? with
  | none =>
    exact hnone _
  | some stored =>
    have hmem : stored ∈ rows := List.mem_of_mem_head? hhead
    rw [hgot] at hmem
    obtain ⟨k, hk, hfilter⟩ := List.mem_filterMap.1 hmem
    obtain ⟨hstored, rfl⟩ := Table.mem_of_lookup (Option.eq_some_of_filter_eq_some hfilter)
    have hhash : stored.tokenHash = security.hashToken rawToken := by
      have hsat := (Option.filter_eq_some_iff.1 hfilter).2
      simpa [hasHash] using hsat
    refine hsome stored _ ((hr.trans hr').onward.grantAll _) hr'.inv hp
      ⟨hstored, hhash, Or.inl (List.mem_map_of_mem hk), ?_⟩
    rintro id (hid | hid)
    · -- the hash is unique, and rows keep it
      obtain ⟨k', hk', heq⟩ := List.mem_map.1 hid
      obtain rfl := Row.token.inj heq
      obtain ⟨t, ht, hsat, rfl⟩ := Table.mem_keysWhere.1 hk'
      obtain ⟨t', ht', hg⟩ := hr'.grow t ht
      have hthash : t'.tokenHash = stored.tokenHash := by
        rw [hg.hash, hhash]
        simpa [hasHash] using hsat
      rw [← hr'.inv.unique.hashes.eq_of_key ht' hstored hthash]
      exact hg.id.symm
    · exact absurd hid (hheld id)

/-- A refresh that detects a replay sweeps. -/
theorem commits_of_replay {rawToken : Nat} {client : ClientInfo} {stored : RefreshToken}
    {f' : RefreshToken → RefreshToken} (honward : (sessionProtocol security).Onward v w)
    (hfound : Found security rawToken w stored) (hrevoked : stored.isRevoked)
    (hsweep : Sweep security stored.userId w x id f') :
    (sessionProtocol security).Commits (.refresh rawToken client) v.db
      (.refused tokenReuseError) x := by
  refine commits_of_revising hsweep.revising rfl rfl fun n db hr db' htokens userId h => ?_
  cases h with
  | replay rawToken' client' error stored' found presented =>
    have hmem := hfound.later (hsweep.onward.rely_of hr)
    obtain rfl := hr.inv.unique.hashes.eq_of_key found hmem (presented.trans hfound.hash.symm)
    obtain ⟨mid, hmid, hbefore, hafter, hlocked⟩ := hsweep.mid
    refine ⟨⟨mid, hmid, Grows.trans honward.rely.grow hbefore, hafter.trans hr.grow, hlocked,
      fun t ht hp => ?_⟩, fun t' ht' huser hheld => ?_⟩
    · -- the presented token was revoked when it was locked
      obtain ⟨t', ht', hg⟩ := hbefore stored' hfound.mem
      have hhash : t.tokenHash = t'.tokenHash := by
        rw [hg.hash, hfound.hash]
        exact hp
      rw [hmid.unique.hashes.eq_of_key ht ht' hhash]
      exact hg.revoked hrevoked
    · rw [htokens] at ht'
      obtain ⟨t, ht, rfl⟩ := List.mem_map.1 ht'
      have hg := hsweep.revising.revises.grows t
      rw [hg.user] at huser
      rw [hg.id] at hheld
      by_cases hw : w.held (.token t.id)
      · rw [hr.inv.eq_of_id ht hmem (hfound.only t.id hw)]
        exact hsweep.keeps stored' hrevoked
      · exact hsweep.revoked n db hr t ht huser hheld hw

/-- The commit of an exchange. -/
theorem commits_of_rotate {rawToken now : Nat} {client : ClientInfo} {opened : Db}
    {stored s : RefreshToken} {tokens : IssuedTokens} (hfound : Found security rawToken v stored)
    (hopen : stored.revokedAt = none) (honward : (sessionProtocol security).Onward v w)
    (hw : Issuing w s) (hs : Fresh (security.hashToken tokens.refreshToken) stored.userId s) :
    (sessionProtocol security).Commits (.refresh rawToken client) opened (.refreshed tokens)
      (w.flushed fun db =>
        (db.writeTokens [stored.id] (RefreshToken.rotate now s.id)).check) := by
  intro n db hr db' hdb'
  have hrw : (sessionProtocol security).Rely w n db := hr.unflushed
  have hmem := hfound.later (honward.rely_of hrw)
  obtain ⟨view, hview, hwrite⟩ := View.flushed_pending_eq_ok.1 hdb'
  obtain ⟨hchecked, htokens⟩ := hw.sends db view hr.inv.checked hview
  obtain ⟨hchecked', rfl⟩ := checked_of_check hwrite
  -- the new row is not the presented one
  have hne : s.id ≠ stored.id := by
    have hkeyed := (Db.unique_of_violated hchecked).tokens
    rw [htokens, Table.Keyed, List.map_append, List.nodup_append] at hkeyed
    exact (hkeyed.2.2 _ (List.mem_map_of_mem hmem) _ (by simp)).symm
  have htokens' : (view.writeTokens [stored.id] (RefreshToken.rotate now s.id)).refreshTokens =
      db.refreshTokens.map (rotateTo stored s now) ++ [s] := by
    have hset : (fun row : RefreshToken => if [stored.id].contains row.id then
        RefreshToken.rotate now s.id row else row) = rotateTo stored s now := by
      funext row
      simp [rotateTo]
    rw [Db.writeTokens, hset, htokens, List.map_append, List.map_singleton, rotateTo_of_ne hne]
  refine ⟨guar_of_exchange hr.inv hchecked' hmem hopen (honward.held _ hfound.held) hs.replaced
    hs.user htokens', ?_, ?_, ?_, ?_⟩
  · intro tokenHash h
    cases h
  · intro e h
    cases h
    exact ⟨stored, s, now, hmem, hfound.hash, hopen, hs, htokens'⟩
  · intro _ h
    cases h
  · intro userId h
    cases h

theorem meets_refresh {rawToken : Nat} {client : ClientInfo} (hp : v.pending = .ok)
    (hheld : ∀ id, ¬ v.held (.token id)) :
    (sessionProtocol security).Meets (.refresh rawToken client) v.db
      (refresh security settings rawToken client) v := by
  unfold refresh
  apply Discipline.wp_bind
  refine wp_lockToken hp hheld (fun _ => trivial) fun stored w honward hinv hpw hfound => ?_
  have hw : Revising w id := revising_of_pending hpw
  dsimp only
  split
  · rename_i hrevoked
    apply Discipline.wp_bind
    exact wp_revokeAll hw fun _ x f' hsweep _ =>
      commits_of_replay honward hfound hrevoked hsweep
  · rename_i hopen
    have hnone : stored.revokedAt = none := by
      simpa [RefreshToken.isRevoked] using hopen
    apply Discipline.wp_bind
    refine wp_clock hw fun now w₁ hw₁ _ => ?_
    split
    · trivial
    apply Discipline.wp_bind
    refine wp_ask hw₁.revising fun w₂ view hw₂ _ => ?_
    split
    · trivial
    rename_i user hfilter
    have huser : user.id = stored.userId :=
      (Table.mem_of_lookup (Option.eq_some_of_filter_eq_some
        (Option.eq_some_of_filter_eq_some hfilter))).2
    apply Discipline.wp_bind
    refine wp_issue hw₂.revising fun tokens s _ w₃ hw₃ hinv₃ hissuing hs => ?_
    apply Discipline.wp_bind
    intro n₄ db₄ hr₄
    apply Discipline.wp_bind
    refine fun n₅ db₅ hr₅ => ⟨trivial, ?_⟩
    apply Discipline.wp_bind
    refine Discipline.wp_write fun n₆ db₆ hr₆ _ _ => ⟨fun _ _ => trivial, fun _ _ => ?_⟩
    have honward₃ := (hw₁.trans hw₂).onward.trans hw₃
    have honward₅ := (honward₃.trans (hr₄.trans hr₅).onward).grantAll [.token stored.id]
    have hissuing' : Issuing ((((w₃.later n₄ db₄).later n₅ db₅).grantAll
        [.token stored.id]).later n₆ db₆) s := ⟨hissuing.sends⟩
    exact commits_of_rotate hfound hnone (honward₅.trans hr₆.onward) hissuing' (huser ▸ hs)

/-! ## The other operations -/

/-- The operations that may store a token. -/
def Operation.issuesTokens : Operation → Bool
  | .login _ _ _ | .refresh _ _ => true
  | _ => false

theorem loginOf_of_not_issues (hop : op.issuesTokens = false) (answer : Outcome) :
    loginOf security (op, answer) = none := by
  cases op with
  | login email password client => cases hop
  | _ => rfl

theorem exchangeOf_of_not_issues (hop : op.issuesTokens = false) (answer : Outcome) :
    exchangeOf security (op, answer) = none := by
  cases op with
  | refresh rawToken client => cases hop
  | _ => rfl

theorem not_presents (hop : op.issuesTokens = false) (t : RefreshToken) :
    ¬ Presents security op t := by
  cases op with
  | refresh rawToken client => cases hop
  | _ => exact fun hp => hp

/-- An operation that neither issues tokens nor revokes a user's sessions may commit once it has
only revoked tokens. -/
theorem commits_of_quiet {opened : Db} {answer : Outcome} (hw : Revising w f)
    (hop : op.issuesTokens = false) (hnot : ∀ db userId, ¬ Revokes security db op answer userId) :
    (sessionProtocol security).Commits op opened answer w :=
  commits_of_revising hw (loginOf_of_not_issues hop answer) (exchangeOf_of_not_issues hop answer)
    fun _ db _ _ _ userId h => absurd h (hnot db userId)

theorem meets_logout {principal : Principal} {rawToken : Nat} (hv : Revising v id) :
    (sessionProtocol security).Meets (.logout principal (some rawToken)) v.db
      (logout security rawToken principal.userId) v := by
  have hcommits : ∀ {w : View Db Row Failure} {f : RefreshToken → RefreshToken}, Revising w f →
      (sessionProtocol security).Commits (.logout principal (some rawToken)) v.db
        (.message "Signed out.") w := fun hw =>
    commits_of_quiet hw rfl fun _ _ h => by cases h
  unfold logout
  apply Discipline.wp_bind
  refine wp_ask hv fun v₁ view hv₁ _ => ?_
  split
  · trivial
  rename_i stored _
  split
  · exact hcommits hv₁.revising
  apply Discipline.wp_bind
  refine wp_clock hv₁.revising fun now v₂ hv₂ _ => ?_
  apply Discipline.wp_bind
  refine fun n db hr => ⟨trivial, ?_⟩
  apply Discipline.wp_bind
  refine Discipline.wp_write fun m db' _ _ _ => ⟨fun _ _ => trivial, fun _ _ => ?_⟩
  have hsent := ((hv₂.revising.later n db).grantAll [.token stored.id]).later m db'
  refine hcommits (hsent.flushed (show Revises _ (revokeIds [stored.id] now) from fun t => ?_)
    fun view view' _ hview => ?_)
  · unfold revokeIds
    split
    · rename_i hid
      refine Or.inr ⟨Or.inl ?_, now, rfl⟩
      rw [List.mem_singleton.1 (List.contains_iff_mem.1 hid)]
      exact List.mem_singleton_self _
    · exact Or.inl rfl
  · obtain ⟨hchecked, rfl⟩ := checked_of_check hview
    exact ⟨hchecked, rfl⟩

/-- Revoking every session of the user is all that the operation does to tokens. -/
theorem commits_of_sweep {userId : Nat} {answer : Outcome} {f' : RefreshToken → RefreshToken}
    (hsweep : Sweep security userId v w id f') (hheld : ∀ id, ¬ v.held (.token id))
    (hop : op.issuesTokens = false) (honly : ∀ db u, Revokes security db op answer u → u = userId) :
    (sessionProtocol security).Commits op v.db answer w := by
  refine commits_of_revising hsweep.revising (loginOf_of_not_issues hop answer)
    (exchangeOf_of_not_issues hop answer) fun n db hr db' htokens u h => ?_
  rw [honly db u h]
  exact hsweep.swept rfl hheld (not_presents hop) hr htokens

theorem meets_logoutAll {principal : Principal} (hv : Revising v id)
    (hheld : ∀ id, ¬ v.held (.token id)) :
    (sessionProtocol security).Meets (.logout principal none) v.db (logoutAll principal.userId)
      v := by
  unfold logoutAll
  apply Discipline.wp_bind
  refine wp_revokeAll hv fun _ w f' hsweep _ => commits_of_sweep hsweep hheld rfl fun _ _ h => ?_
  cases h
  rfl

theorem meets_changeRole {principal : Principal} {userId : Nat} {payload : UserRoleUpdate}
    (hv : Revising v id) (hheld : ∀ id, ¬ v.held (.token id)) :
    (sessionProtocol security).Meets (.changeRole principal userId payload) v.db
      (changeRole userId payload principal.userId) v := by
  unfold changeRole
  apply Discipline.wp_bind
  refine wp_requireUser hv fun user v₁ hv₁ _ huser => ?_
  split
  · trivial
  apply Discipline.wp_bind
  refine wp_revokeAll hv₁.revising fun _ v₂ f' hsweep hinv₂ => ?_
  apply Discipline.wp_bind
  refine wp_flushUser hsweep.revising hinv₂ fun user' v₃ hv₃ _ => ?_
  apply Discipline.wp_bind
  refine wp_emit hv₃.revising fun v₄ hv₄ _ => ?_
  have hall := (hv₁.sweep hsweep).quiet (hv₃.trans hv₄)
  rw [huser] at hall
  refine commits_of_sweep hall hheld rfl fun _ _ h => ?_
  cases h
  rfl

theorem meets_changeStatus {principal : Principal} {userId : Nat} {payload : UserStatusUpdate}
    (hv : Revising v id) (hheld : ∀ id, ¬ v.held (.token id)) :
    (sessionProtocol security).Meets (.changeStatus principal userId payload) v.db
      (changeStatus userId payload principal.userId) v := by
  unfold changeStatus
  apply Discipline.wp_bind
  refine wp_requireUser hv fun user v₁ hv₁ hinv₁ huser => ?_
  split
  · trivial
  split
  · apply Discipline.wp_bind
    refine wp_revokeAll hv₁.revising fun _ v₂ f' hsweep hinv₂ => ?_
    apply Discipline.wp_bind
    refine wp_flushUser hsweep.revising hinv₂ fun user' v₃ hv₃ _ => ?_
    apply Discipline.wp_bind
    refine wp_emit hv₃.revising fun v₄ hv₄ _ => ?_
    have hall := (hv₁.sweep hsweep).quiet (hv₃.trans hv₄)
    rw [huser] at hall
    refine commits_of_sweep hall hheld rfl fun _ _ h => ?_
    cases h
    rfl
  · -- a reactivation leaves the sessions alone
    rename_i hactive
    apply Discipline.wp_bind
    refine wp_flushUser hv₁.revising hinv₁ fun user' v₃ hv₃ _ => ?_
    apply Discipline.wp_bind
    refine wp_emit hv₃.revising fun v₄ hv₄ _ => ?_
    refine commits_of_quiet hv₄.revising rfl fun _ _ h => ?_
    cases h with
    | changeStatus _ _ _ _ inactive => exact hactive inactive

theorem meets_changePassword {principal : Principal} {payload : PasswordChange}
    (hv : Revising v id) (hheld : ∀ id, ¬ v.held (.token id)) :
    (sessionProtocol security).Meets (.changePassword principal payload) v.db
      (do
        let user ← getCurrentUser principal
        changePassword security user payload) v := by
  apply Discipline.wp_bind
  refine wp_getCurrentUser hv fun user v₁ hv₁ _ huser => ?_
  unfold changePassword
  split
  · trivial
  split
  · trivial
  apply Discipline.wp_bind
  refine Discipline.wp_freshId fun salt => ?_
  apply Discipline.wp_bind
  refine wp_clock hv₁.revising fun now v₂ hv₂ _ => ?_
  apply Discipline.wp_bind
  refine wp_revokeAll hv₂.revising fun _ v₃ f' hsweep hinv₃ => ?_
  apply Discipline.wp_bind
  refine wp_flushUser hsweep.revising hinv₃ fun user' v₄ hv₄ _ => ?_
  have hall := ((hv₁.trans hv₂).sweep hsweep).quiet hv₄
  rw [huser] at hall
  refine commits_of_sweep hall hheld rfl fun _ _ h => ?_
  cases h
  rfl

theorem meets_delete {principal : Principal} {userId : Nat} (hv : Revising v id)
    (hheld : ∀ id, ¬ v.held (.token id)) :
    (sessionProtocol security).Meets (.deleteUser principal userId) v.db
      (delete userId principal.userId) v := by
  unfold delete
  apply Discipline.wp_bind
  refine wp_requireUser hv fun user v₁ hv₁ _ huser => ?_
  split
  · trivial
  apply Discipline.wp_bind
  refine wp_clock hv₁.revising fun now v₂ hv₂ _ => ?_
  apply Discipline.wp_bind
  refine wp_revokeAll hv₂.revising fun _ v₃ f' hsweep hinv₃ => ?_
  apply Discipline.wp_bind
  refine wp_flushUser hsweep.revising hinv₃ fun user' v₄ hv₄ _ => ?_
  apply Discipline.wp_bind
  refine wp_emit hv₄.revising fun v₅ hv₅ _ => ?_
  have hall := ((hv₁.trans hv₂).sweep hsweep).quiet (hv₄.trans hv₅)
  rw [huser] at hall
  refine commits_of_sweep hall hheld rfl fun _ _ h => ?_
  cases h
  rfl

/-- The writes of a profile update: the user and an event. -/
theorem wp_updateProfile {loaded : User} {payload : UserUpdate} (hv : Revising v id)
    (hinv : Linked v.db) {Q : Outcome → View Db Row Failure → Prop}
    (h : ∀ user w, Revising w id → Q (.user user) w) :
    (sessionProtocol security).wp op (updateProfile loaded payload) Q v := by
  unfold updateProfile
  split
  · trivial
  apply Discipline.wp_bind
  refine wp_flushUser hv hinv fun user v₁ hv₁ _ => ?_
  apply Discipline.wp_bind
  exact wp_emit hv₁.revising fun v₂ hv₂ _ => h user.read v₂ hv₂.revising

theorem wp_createUser {payload : UserCreate} (hv : Revising v id)
    {Q : Outcome → View Db Row Failure → Prop} (h : ∀ user w, Revising w id → Q (.user user) w) :
    (sessionProtocol security).wp op (createUser security payload) Q v := by
  unfold createUser
  apply Discipline.wp_bind
  refine Discipline.wp_freshId fun salt => ?_
  apply Discipline.wp_bind
  refine Discipline.wp_freshId fun id => ?_
  apply Discipline.wp_bind
  refine wp_clock hv fun now v₁ hv₁ _ => ?_
  apply Discipline.wp_bind
  refine wp_put hv₁.revising (fun view view' _ hview => ?_) fun v₂ hv₂ _ => ?_
  · obtain ⟨hchecked, rfl⟩ := checked_of_check hview
    exact ⟨hchecked, rfl⟩
  apply Discipline.wp_bind
  exact wp_emit hv₂.revising fun v₃ hv₃ _ => h _ v₃ hv₃.revising

theorem wp_restore {userId : Nat} (hv : Revising v id)
    {Q : Outcome → View Db Row Failure → Prop} (h : ∀ user w, Revising w id → Q (.user user) w) :
    (sessionProtocol security).wp op (restore userId) Q v := by
  unfold restore
  apply Discipline.wp_bind
  refine wp_ask hv fun v₁ view hv₁ hinv₁ => ?_
  split
  · trivial
  apply Discipline.wp_bind
  refine wp_flushUser hv₁.revising hinv₁ fun user v₂ hv₂ _ => ?_
  apply Discipline.wp_bind
  exact wp_emit hv₂.revising fun v₃ hv₃ _ => h user.read v₃ hv₃.revising

theorem wp_assignWarehouse {userId warehouseId : Nat} {reply : Except Failure Unit}
    (hv : Revising v id) {Q : Outcome → View Db Row Failure → Prop}
    (h : ∀ assignment w f, Revising w f → Q (.assignment assignment) w) :
    (sessionProtocol security).wp op (assignWarehouse userId warehouseId reply) Q v := by
  unfold assignWarehouse
  apply Discipline.wp_bind
  refine wp_requireUser hv fun user v₁ hv₁ _ _ => ?_
  split
  · trivial
  apply Discipline.wp_bind
  refine Discipline.wp_ofExcept fun _ _ => ?_
  apply Discipline.wp_bind
  refine Discipline.wp_freshId fun id => ?_
  apply Discipline.wp_bind
  refine wp_clock hv₁.revising fun now v₂ hv₂ _ => ?_
  apply Discipline.wp_bind
  refine wp_put hv₂.revising (fun view view' _ hview => ?_) fun v₃ hv₃ _ => ?_
  · obtain ⟨hchecked, rfl⟩ := checked_of_check hview
    exact ⟨hchecked, rfl⟩
  apply Discipline.wp_bind
  refine wp_revokeAll hv₃.revising fun _ v₄ f' hsweep _ => ?_
  apply Discipline.wp_bind
  exact wp_emit hsweep.revising fun v₅ hv₅ _ => h _ v₅ f' hv₅.revising

theorem wp_unassignWarehouse {userId warehouseId : Nat} (hv : Revising v id)
    {Q : Outcome → View Db Row Failure → Prop} (h : ∀ w f, Revising w f → Q .noContent w) :
    (sessionProtocol security).wp op (unassignWarehouse userId warehouseId) Q v := by
  unfold unassignWarehouse
  apply Discipline.wp_bind
  refine wp_requireUser hv fun user v₁ hv₁ _ _ => ?_
  apply Discipline.wp_bind
  refine wp_ask hv₁.revising fun v₂ view hv₂ _ => ?_
  split
  · trivial
  apply Discipline.wp_bind
  refine wp_revokeAll hv₂.revising fun _ v₃ f' hsweep _ => ?_
  apply Discipline.wp_bind
  refine wp_hold hsweep.revising (fun _ => Row.noConfusion) fun v₄ hv₄ _ => ?_
  apply Discipline.wp_bind
  refine wp_put hv₄.revising (fun view view' _ hview => ?_) fun v₅ hv₅ _ => ?_
  · obtain ⟨hchecked, rfl⟩ := checked_of_check hview
    exact ⟨hchecked, rfl⟩
  apply Discipline.wp_bind
  exact wp_emit hv₅.revising fun v₆ hv₆ _ => h v₆ f' hv₆.revising

/-- The loop of `on_warehouse_deleted` revokes, user after user. -/
theorem wp_removeScope {warehouseId : Nat} (userIds : List Nat) :
    ∀ {v : View Db Row Failure} {f : RefreshToken → RefreshToken}
      {Q : Unit → View Db Row Failure → Prop}, Revising v f →
      (∀ w f', Revising w f' → Q () w) →
      (sessionProtocol security).wp op (removeScope warehouseId userIds) Q v := by
  induction userIds with
  | nil => exact fun hv h => h _ _ hv
  | cons userId userIds ih =>
    intro v f Q hv h
    unfold removeScope
    apply Discipline.wp_bind
    refine wp_revokeAll hv fun _ v₁ f' hsweep _ => ?_
    apply Discipline.wp_bind
    refine wp_ask hsweep.revising fun v₂ view hv₂ _ => ?_
    split
    · exact ih hv₂.revising h
    · apply Discipline.wp_bind
      exact wp_emit hv₂.revising fun v₃ hv₃ _ => ih hv₃.revising h

theorem wp_process {eventId warehouseId : Nat} (hv : Revising v id)
    {Q : Outcome → View Db Row Failure → Prop}
    (h : ∀ handled w f, Revising w f → Q (.processed handled) w) :
    (sessionProtocol security).wp op (process eventId warehouseId) Q v := by
  unfold process
  apply Discipline.wp_bind
  refine wp_hold hv (fun _ => Row.noConfusion) fun v₁ hv₁ _ => ?_
  apply Discipline.wp_bind
  refine wp_ask hv₁.revising fun v₂ view hv₂ _ => ?_
  split
  · exact h false v₂ id hv₂.revising
  apply Discipline.wp_bind
  refine wp_put hv₂.revising (fun view view' _ hview => ?_) fun v₃ hv₃ hinv₃ => ?_
  · obtain ⟨hchecked, rfl⟩ := checked_of_check hview
    exact ⟨hchecked, rfl⟩
  apply Discipline.wp_bind
  unfold onWarehouseDeleted
  apply Discipline.wp_bind
  apply Discipline.wp_bind
  refine wp_ask hv₃.revising fun v₄ view hv₄ hinv₄ => ?_
  refine Discipline.wp_lockEach_any _ _ hinv₄ (fun _ _ _ _ _ => trivial) fun n db hr rows => ?_
  have hv₅ := (hv₄.later hr).revising.grantAll
    ((Table.keysWhere UserWarehouseAssignment.id (·.warehouseId == warehouseId)
      view.assignments).map Row.assignment)
  apply Discipline.wp_bind
  refine wp_put hv₅ (fun view view' _ hview => ?_) fun v₆ hv₆ _ => ?_
  · obtain ⟨hchecked, rfl⟩ := checked_of_check hview
    exact ⟨hchecked, rfl⟩
  exact wp_removeScope _ hv₆.revising fun w f' hw => h true w f' hw

/-! ## The system -/

/-- Seeding an account leaves the tokens alone. -/
theorem guar_seed {db : Db} (hinv : Linked db) (user : User) :
    (sessionProtocol security).Guar (fun _ => False) db (Db.seed user db) := by
  have hsame : (sessionProtocol security).Guar (fun _ => False) db db :=
    guar_of_revises hinv hinv.checked (.id _) (List.map_id _).symm
  unfold Db.seed
  split
  · rename_i db' hcheck
    obtain ⟨hchecked, rfl⟩ := checked_of_check hcheck
    exact guar_of_revises hinv hchecked (.id _) (List.map_id _).symm
  · exact hsame

/-- Every operation of Identity keeps the session protocol. -/
theorem sessionProtocol_governs (security : Security) (settings : Settings) :
    (sessionProtocol security).Governs (identity security settings) where
  program := by
    intro op now db hinv
    set v : View Db Row Failure := ⟨fun _ => False, .ok, now, db⟩
    have hv : Revising v id := revising_of_pending rfl
    have hheld : ∀ id, ¬ v.held (.token id) := fun _ h => h
    cases op with
    | login email password client => exact meets_login hv
    | refresh rawToken client => exact meets_refresh rfl hheld
    | logout principal rawToken =>
      cases rawToken with
      | none => exact meets_logoutAll hv hheld
      | some rawToken => exact meets_logout hv
    | sessions principal =>
      refine Discipline.wp_bind _ _ (wp_clock hv fun n v₁ hv₁ _ => ?_)
      refine Discipline.wp_bind _ _ (wp_ask hv₁.revising fun v₂ view hv₂ _ => ?_)
      exact commits_of_quiet hv₂.revising rfl fun _ _ h => by cases h
    | me principal =>
      refine Discipline.wp_bind _ _ (wp_getCurrentUser hv fun user v₁ hv₁ _ _ => ?_)
      exact commits_of_quiet hv₁.revising rfl fun _ _ h => by cases h
    | createUser principal payload =>
      refine Discipline.wp_bind _ _ (wp_requireAdmin (wp_createUser hv fun user w hw => ?_))
      exact commits_of_quiet hw rfl fun _ _ h => by cases h
    | listUsers principal filter =>
      refine Discipline.wp_bind _ _ (wp_requireAdmin ?_)
      refine Discipline.wp_bind _ _ (wp_ask hv fun v₁ view hv₁ _ => ?_)
      refine Discipline.wp_bind _ _ (wp_ask hv₁.revising fun v₂ view hv₂ _ => ?_)
      exact commits_of_quiet hv₂.revising rfl fun _ _ h => by cases h
    | updateMe principal payload =>
      refine Discipline.wp_bind _ _ (wp_getCurrentUser hv fun user v₁ hv₁ hinv₁ _ => ?_)
      refine wp_updateProfile hv₁.revising hinv₁ fun user w hw => ?_
      exact commits_of_quiet hw rfl fun _ _ h => by cases h
    | changePassword principal payload => exact meets_changePassword hv hheld
    | getUser principal userId =>
      refine Discipline.wp_bind _ _ (wp_requireAdmin ?_)
      refine Discipline.wp_bind _ _ (wp_requireUser hv fun user v₁ hv₁ _ _ => ?_)
      exact commits_of_quiet hv₁.revising rfl fun _ _ h => by cases h
    | updateUser principal userId payload =>
      refine Discipline.wp_bind _ _ (wp_requireAdmin ?_)
      refine Discipline.wp_bind _ _ (wp_requireUser hv fun user v₁ hv₁ hinv₁ _ => ?_)
      refine wp_updateProfile hv₁.revising hinv₁ fun user w hw => ?_
      exact commits_of_quiet hw rfl fun _ _ h => by cases h
    | changeRole principal userId payload =>
      exact Discipline.wp_bind _ _ (wp_requireAdmin (meets_changeRole hv hheld))
    | changeStatus principal userId payload =>
      exact Discipline.wp_bind _ _ (wp_requireAdmin (meets_changeStatus hv hheld))
    | restoreUser principal userId =>
      refine Discipline.wp_bind _ _ (wp_requireAdmin (wp_restore hv fun user w hw => ?_))
      exact commits_of_quiet hw rfl fun _ _ h => by cases h
    | deleteUser principal userId =>
      exact Discipline.wp_bind _ _ (wp_requireAdmin (meets_delete hv hheld))
    | listAssignments principal userId =>
      refine Discipline.wp_bind _ _ (wp_requireAdmin ?_)
      refine Discipline.wp_bind _ _ (wp_requireUser hv fun user v₁ hv₁ _ _ => ?_)
      refine Discipline.wp_bind _ _ (wp_ask hv₁.revising fun v₂ view hv₂ _ => ?_)
      exact commits_of_quiet hv₂.revising rfl fun _ _ h => by cases h
    | assignWarehouse principal userId warehouseId reply =>
      refine Discipline.wp_bind _ _ (wp_requireAdmin (wp_assignWarehouse hv fun a w f hw => ?_))
      exact commits_of_quiet hw rfl fun _ _ h => by cases h
    | unassignWarehouse principal userId warehouseId =>
      refine Discipline.wp_bind _ _ (wp_requireAdmin (wp_unassignWarehouse hv fun w f hw => ?_))
      exact commits_of_quiet hw rfl fun _ _ h => by cases h
    | process eventId warehouseId =>
      exact wp_process hv fun handled w f hw => commits_of_quiet hw rfl fun _ _ h => by cases h
  env := fun user _ hinv => guar_seed hinv user

end SmartLogistics.Identity
