import SmartLogistics.Identity.Powerless

/-!
# The alarm of a refresh

A refresh token that was exchanged and comes back has leaked, and `refresh` then revokes every
session of its user. It looks at `revoked_at`, though, which ten operations write, and not at
`replaced_by_id`, which only a rotation writes: the token of a session that was signed out raises
the same alarm (`not_alarmOnExchanged`). The alarm is right exactly where the presented token is not
one that was revoked without having been exchanged (`alarmOnExchanged_iff`).
-/

set_option autoImplicit false

namespace SmartLogistics.Identity

open SmartLogistics.Library SmartLogistics.Platform

variable {security : Security} {settings : Settings} {db db' : Db} {now ids ids' : Nat}

/-! ## What a refresh should do -/

/-- The refresh raises `TokenReuseError` and leaves no session of the token's user open. -/
def RaisesAlarm (security : Security) (settings : Settings) (db : Db) (rawToken : Nat)
    (client : ClientInfo) (now ids : Nat) : Prop :=
  ∃ db' ids', (refresh security settings rawToken client).runAlone now ids db =
      .ok (.refused tokenReuseError, db', ids') ∧
    ∀ r ∈ db.refreshTokens, r.tokenHash = security.hashToken rawToken →
      ∀ t ∈ db'.refreshTokens, t.userId = r.userId → t.isRevoked

/-- The refresh answers no tokens, and every other session that was open still is. -/
def RejectsOnly (security : Security) (settings : Settings) (db : Db) (rawToken : Nat)
    (client : ClientInfo) (now ids : Nat) : Prop :=
  (∀ tokens db' ids', (refresh security settings rawToken client).runAlone now ids db ≠
    .ok (.refreshed tokens, db', ids')) ∧
  ∀ t ∈ db.refreshTokens, t.tokenHash ≠ security.hashToken rawToken → ¬ t.isRevoked →
    t ∈ ((refresh security settings rawToken client).after now ids db).refreshTokens

/-- Only the replay of an exchanged token raises the alarm: that of a token with a replacement,
which are those a refresh exchanged. A token that was revoked otherwise is rejected, and no more. -/
structure AlarmOnExchanged (security : Security) (settings : Settings) (exchanged : Prop) (db : Db)
    (rawToken : Nat) (client : ClientInfo) (now ids : Nat) : Prop where
  alarm : RaisesAlarm security settings db rawToken client now ids ↔ exchanged
  stored : exchanged ↔ ∃ r ∈ db.refreshTokens, r.tokenHash = security.hashToken rawToken ∧
    r.replacedById ≠ none
  quiet : ∀ r ∈ db.refreshTokens, r.tokenHash = security.hashToken rawToken → r.isRevoked →
    r.replacedById = none → RejectsOnly security settings db rawToken client now ids

/-! ## A refresh that runs alone -/

/-- The locking read finds the token with the hash. -/
theorem runAlone_lockToken (h : Linked db) (tokenHash : Nat) :
    (lockToken tokenHash).runAlone now ids db =
      .ok (Table.lookup RefreshToken.tokenHash db.refreshTokens tokenHash, db, ids) := by
  have hfound : (Table.rowsWhere RefreshToken.id (hasHash tokenHash) db.refreshTokens).head? =
      Table.lookup RefreshToken.tokenHash db.refreshTokens tokenHash := by
    have hmem : ∀ r, r ∈ Table.rowsWhere RefreshToken.id (hasHash tokenHash) db.refreshTokens ↔
        r ∈ db.refreshTokens ∧ r.tokenHash = tokenHash := fun r => by
      rw [h.unique.tokens.mem_rowsWhere, hasHash, beq_iff_eq]
    cases hrows : Table.rowsWhere RefreshToken.id (hasHash tokenHash) db.refreshTokens with
    | nil =>
      cases hlookup : Table.lookup RefreshToken.tokenHash db.refreshTokens tokenHash with
      | none => rfl
      | some r =>
        have hr := (hmem r).2 (Table.mem_of_lookup hlookup)
        rw [hrows] at hr
        exact absurd hr List.not_mem_nil
    | cons r rows =>
      refine (h.unique.hashes.lookup_eq_some.2 ((hmem r).1 ?_)).symm
      rw [hrows]
      exact List.mem_cons_self
  unfold lockToken
  simp only [Txn.bind_eq]
  rw [Txn.runAlone_bind_of_ok (Txn.runAlone_selectForUpdate ..), hfound]
  rfl

/-- Every session of the user is revoked. -/
theorem isRevoked_of_revokeOpen (h : Linked db) {userId : Nat} {t : RefreshToken}
    (ht : t ∈ (db.revokeOpen userId now).refreshTokens) (huser : t.userId = userId) :
    t.isRevoked := by
  simp only [Db.revokeOpen, Db.writeTokens, List.mem_map] at ht
  obtain ⟨t₀, ht₀, rfl⟩ := ht
  split
  · rfl
  · rename_i hnot
    rw [if_neg hnot] at huser
    -- a row that the statement did not select is another user's, or it was revoked before
    by_contra hopen
    refine hnot (List.contains_iff_mem.2 (List.mem_map_of_mem ?_))
    refine h.unique.tokens.mem_rowsWhere.2 ⟨ht₀, ?_⟩
    simpa [isOpenFor, huser, RefreshToken.isRevoked] using hopen

/-- A refresh with a revoked token raises the alarm. -/
theorem refresh_of_revoked (h : Linked db) {rawToken : Nat} {client : ClientInfo} {r : RefreshToken}
    (hr : r ∈ db.refreshTokens) (hhash : r.tokenHash = security.hashToken rawToken)
    (hrevoked : r.isRevoked) :
    (refresh security settings rawToken client).runAlone now ids db =
      .ok (.refused tokenReuseError, db.revokeOpen r.userId now, ids) := by
  have hfound := h.unique.hashes.lookup_eq_some.2 ⟨hr, hhash⟩
  obtain ⟨count, hrun⟩ : ∃ count, (revokeAll r.userId).runAlone now ids db =
      .ok (count, db.revokeOpen r.userId now, ids) := runAlone_revokeAll r.userId h.checked
  unfold refresh
  simp only [Txn.bind_eq]
  rw [Txn.runAlone_bind_of_ok (runAlone_lockToken h _), hfound]
  simp only [hrevoked, if_true]
  rw [Txn.runAlone_bind_of_ok hrun]
  rfl

/-- A refresh that succeeds with an open token answers new tokens. -/
theorem refreshed_of_open (h : Linked db) {rawToken : Nat} {client : ClientInfo} {answer : Outcome}
    (hopen : ∀ r ∈ db.refreshTokens, r.tokenHash = security.hashToken rawToken → ¬ r.isRevoked)
    (hrun : (refresh security settings rawToken client).runAlone now ids db =
      .ok (answer, db', ids')) : ∃ tokens, answer = .refreshed tokens := by
  unfold refresh at hrun
  simp only [Txn.bind_eq] at hrun
  rw [Txn.runAlone_bind_of_ok (runAlone_lockToken h _)] at hrun
  cases hfound :
    Table.lookup RefreshToken.tokenHash db.refreshTokens (security.hashToken rawToken) with
  | none =>
    rw [hfound] at hrun
    cases hrun
  | some r =>
    obtain ⟨hr, hhash⟩ := Table.mem_of_lookup hfound
    rw [hfound] at hrun
    simp only [hopen r hr hhash] at hrun
    obtain ⟨now', db₁, ids₁, -, hrun⟩ := Txn.runAlone_bind_eq_ok hrun
    split at hrun
    · cases hrun
    obtain ⟨owner, db₂, ids₂, -, hrun⟩ := Txn.runAlone_bind_eq_ok hrun
    split at hrun
    · cases hrun
    -- the account is active: tokens are issued and the row is rewritten
    obtain ⟨issued, db₃, ids₃, -, hrun⟩ := Txn.runAlone_bind_eq_ok hrun
    obtain ⟨now'', db₄, ids₄, -, hrun⟩ := Txn.runAlone_bind_eq_ok hrun
    obtain ⟨-, db₅, ids₅, -, hrun⟩ := Txn.runAlone_bind_eq_ok hrun
    obtain ⟨-, db₆, ids₆, -, hrun⟩ := Txn.runAlone_bind_eq_ok hrun
    cases hrun
    exact ⟨issued.1, rfl⟩

/-- A refresh raises the alarm exactly where the presented token is revoked. -/
theorem raisesAlarm_iff (h : Linked db) {rawToken : Nat} {client : ClientInfo} :
    RaisesAlarm security settings db rawToken client now ids ↔ ∃ r ∈ db.refreshTokens,
      r.tokenHash = security.hashToken rawToken ∧ r.isRevoked := by
  constructor
  · rintro ⟨db', ids', hrun, -⟩
    by_contra hnone
    have hopen : ∀ r ∈ db.refreshTokens, r.tokenHash = security.hashToken rawToken →
        ¬ r.isRevoked := fun r hr hhash hrevoked => hnone ⟨r, hr, hhash, hrevoked⟩
    obtain ⟨tokens, htokens⟩ := refreshed_of_open h hopen hrun
    cases htokens
  · rintro ⟨r, hr, hhash, hrevoked⟩
    refine ⟨_, _, refresh_of_revoked h hr hhash hrevoked, fun r' hr' hhash' t ht huser => ?_⟩
    rw [h.unique.hashes.eq_of_key hr' hr (hhash'.trans hhash.symm)] at huser
    exact isRevoked_of_revokeOpen h ht huser

/-! ## The alarm over every history -/

/-- A token was exchanged if its row names a replacement. -/
theorem Recorded.exchanged_iff {past : List (Operation × Outcome)} (h : Recorded security db past)
    (hinv : Linked db) (tokenHash : Nat) :
    (∃ issued, (tokenHash, issued) ∈ past.filterMap (exchangeOf security)) ↔
      ∃ r ∈ db.refreshTokens, r.tokenHash = tokenHash ∧ r.replacedById ≠ none := by
  constructor
  · rintro ⟨issued, hmem⟩
    obtain ⟨r, s, ⟨hr, -, hnext⟩, hhash, -⟩ := (h.exchanges _ _).1 hmem
    exact ⟨r, hr, hhash, by rw [hnext]; exact Option.some_ne_none _⟩
  · rintro ⟨r, hr, hhash, hnext⟩
    obtain ⟨k, hk⟩ := Option.ne_none_iff_exists'.1 hnext
    obtain ⟨s, hs, hsid⟩ := hinv.succession.found r hr k hk
    exact ⟨s.tokenHash, (h.exchanges _ _).2 ⟨r, s, ⟨hr, hs, hsid ▸ hk⟩, hhash, rfl⟩⟩

/-- After every history, for every token presented: only the replay of an exchanged token raises the
alarm if and only if the token is not one that was revoked without having been exchanged. -/
theorem alarmOnExchanged_iff (security : Security) (settings : Settings)
    (ls : List (Label Operation User)) {c : IdentityConfig}
    (h : (identity security settings).machine.exec (.idle Db.empty) ls = some c) (rawToken : Nat)
    (client : ClientInfo) (now ids : Nat) :
    AlarmOnExchanged security settings
      (∃ issued, (security.hashToken rawToken, issued) ∈
        ((identity security settings).answers (.idle Db.empty) ls).filterMap (exchangeOf security))
      c.db rawToken client now ids ↔
    ∀ r ∈ c.db.refreshTokens, r.tokenHash = security.hashToken rawToken → r.isRevoked →
      r.replacedById ≠ none := by
  obtain ⟨hsound, hrecorded⟩ := chronicled_of_exec ls h
  have hinv : Linked c.db := hsound.inv
  have hstored := hrecorded.exchanged_iff hinv (security.hashToken rawToken)
  constructor
  · intro hproperty r hr hhash hrevoked
    have halarm : RaisesAlarm security settings c.db rawToken client now ids :=
      (raisesAlarm_iff hinv).2 ⟨r, hr, hhash, hrevoked⟩
    obtain ⟨r', hr', hhash', hnext⟩ := hproperty.stored.1 (hproperty.alarm.1 halarm)
    rwa [hinv.unique.hashes.eq_of_key hr hr' (hhash.trans hhash'.symm)]
  · intro hrotated
    refine ⟨?_, hstored, fun r hr hhash hrevoked hnone =>
      absurd hnone (hrotated r hr hhash hrevoked)⟩
    rw [raisesAlarm_iff hinv, hstored]
    constructor
    · rintro ⟨r, hr, hhash, hrevoked⟩
      exact ⟨r, hr, hhash, hrotated r hr hhash hrevoked⟩
    · rintro ⟨r, hr, hhash, hnext⟩
      exact ⟨r, hr, hhash, hinv.revoked r hr hnext⟩

/-! ## Signing out of one of two sessions -/

/-- The admin logs in twice, with tokens 50 and 60, and signs out of the first session. -/
def signedOutOfFirst : List (Label Operation User) :=
  loggedIn ++ session 0 (.login "admin@transfleet.com" "SmartLogistics!2026" sampleClient)
      [0, 0, 0, 0, 0, 60, 210, 0, 0, 0] ++
    session 0 (.logout sampleAdmin (some 50)) [0, 0, 0, 0, 0]

/-- The token that was signed out was never exchanged; presenting it revokes the other session. -/
theorem not_alarmOnExchanged : ∃ c,
    (identity sampleSecurity sampleSettings).machine.exec (.idle Db.empty) signedOutOfFirst =
      some c ∧
      (c.db.refreshTokens.filter (!·.isRevoked)).map (·.tokenHash) = [60] ∧
      ((refresh sampleSecurity sampleSettings 50 sampleClient).after c.clock 300
        c.db).refreshTokens.filter (!·.isRevoked) = [] ∧
      ¬ AlarmOnExchanged sampleSecurity sampleSettings
        (∃ issued, (50, issued) ∈ ((identity sampleSecurity sampleSettings).answers (.idle Db.empty)
          signedOutOfFirst).filterMap (exchangeOf sampleSecurity)) c.db 50 sampleClient
            c.clock 300 := by
  have hrun := exec_stateAfter signedOutOfFirst (by decide +kernel)
  refine ⟨stateAfter signedOutOfFirst, hrun, by decide +kernel, by decide +kernel,
    fun hproperty => ?_⟩
  have hexchanges : ((identity sampleSecurity sampleSettings).answers (.idle Db.empty)
      signedOutOfFirst).filterMap (exchangeOf sampleSecurity) = [] := by decide +kernel
  have hrevoked : (stateAfter signedOutOfFirst).db.refreshTokens.any
      (fun r => decide (r.tokenHash = 50 ∧ r.isRevoked)) = true := by decide +kernel
  obtain ⟨r, hr, hpresented⟩ := List.any_eq_true.1 hrevoked
  have hinv : Linked (stateAfter signedOutOfFirst).db := (chronicled_of_exec _ hrun).sound.inv
  obtain ⟨issued, hmem⟩ := hproperty.alarm.1
    ((raisesAlarm_iff hinv).2 ⟨r, hr, of_decide_eq_true hpresented⟩)
  rw [hexchanges] at hmem
  exact absurd hmem List.not_mem_nil

/-- A token that was exchanged and comes back. -/
theorem alarmOnExchanged_iff_replayed : ∃ c,
    (identity sampleSecurity sampleSettings).machine.exec (.idle Db.empty)
        (loggedIn ++ rotateToken 0 50 51 201 ++ [.step 0 0]) = some c ∧
      AlarmOnExchanged sampleSecurity sampleSettings
        (∃ issued, (50, issued) ∈ ((identity sampleSecurity sampleSettings).answers (.idle Db.empty)
          (loggedIn ++ rotateToken 0 50 51 201 ++ [.step 0 0])).filterMap
            (exchangeOf sampleSecurity))
        c.db 50 sampleClient c.clock 300 := by
  have hrun :=
    exec_stateAfter (loggedIn ++ rotateToken 0 50 51 201 ++ [.step 0 0]) (by decide +kernel)
  refine ⟨_, hrun,
    (alarmOnExchanged_iff sampleSecurity sampleSettings _ hrun 50 sampleClient _ 300).2
    fun r hr hhash _ => ?_⟩
  have hrotated :
    (stateAfter (loggedIn ++ rotateToken 0 50 51 201 ++ [.step 0 0])).db.refreshTokens.all
      (fun r => r.tokenHash != 50 || r.replacedById.isSome) = true := by decide +kernel
  have hrow := List.all_eq_true.1 hrotated r hr
  rw [show r.tokenHash = 50 from hhash] at hrow
  exact Option.isSome_iff_ne_none.1 (by simpa using hrow)

end SmartLogistics.Identity
