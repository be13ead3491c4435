import SmartLogistics.Identity.Rotation

/-!
# Revoking a user's sessions

`revokeAll` is one `UPDATE` over the rows its snapshot shows. A refresh that has locked one of them
commits its successor while the `UPDATE` waits, and the `UPDATE` then skips the old row and never
sees the new one: the session survives (`not_revoked_for_good`). Where none of the rows a revoking
transaction has locked was rotated under it (`Unrotated`), no token that descends from a session the
transaction found is ever exchanged again (`revoked_for_good`).
-/

set_option autoImplicit false

namespace SmartLogistics.Identity

open SmartLogistics.Library SmartLogistics.Platform

variable {security : Security} {settings : Settings}

/-- None of the token rows that session `t` has locked has been replaced, the token a refresh
presents apart. -/
def Unrotated (security : Security) (c : IdentityConfig) (t : Nat)
    (s : Session Db Row Failure Outcome Operation) : Prop :=
  ∀ r ∈ c.db.refreshTokens, c.Held t (.token r.id) → ¬ Presents security s.op r →
    r.replacedById = none

/-- Every token that descends from `r` is revoked. -/
def Dead (db : Db) (r : RefreshToken) : Prop := ∀ x, Descends db r x → x.isRevoked

/-- Descendants have the same owner. -/
theorem Linked.owner_of_descends {db : Db} (h : Linked db) {r x : RefreshToken}
    (hx : Descends db r x) : x.userId = r.userId := by
  induction hx with
  | refl => rfl
  | tail _ hlast ih => exact (h.owner _ _ hlast).trans ih

/-- A revocation that was not overtaken reaches every descendant of the tokens it found. -/
theorem dead_of_swept {presented : RefreshToken → Prop} {userId : Nat} {opened db db' : Db}
    {held : Row → Prop} (hinv' : Linked db')
    (hswept : Swept presented userId opened held db db') (hrevised : Revised held db db')
    (hhash : ∀ t t', t.tokenHash = t'.tokenHash → presented t → presented t')
    (hunrotated : ∀ r ∈ db.refreshTokens, held (.token r.id) → ¬ presented r →
      r.replacedById = none) {r₀ r : RefreshToken} (hr₀ : r₀ ∈ opened.refreshTokens)
    (huser : r₀.userId = userId) (hr : r ∈ db'.refreshTokens) (hid : r.id = r₀.id) :
    Dead db' r := by
  obtain ⟨⟨mid, hmid, hbefore, hafter, hlocked, hpresented⟩, hrevoked⟩ := hswept
  obtain ⟨f, hf, htokens⟩ := hrevised
  have hkept : ∀ t ∈ db.refreshTokens, f t ∈ db'.refreshTokens := fun t ht => by
    rw [htokens]
    exact List.mem_map_of_mem ht
  -- the row the transaction found when it was opened, in each of the later states
  obtain ⟨t₀, ht₀, hg₀⟩ := hbefore r₀ hr₀
  obtain ⟨t₁, ht₁, hg₁⟩ := hafter t₀ ht₀
  obtain rfl : r = f t₁ := hinv'.eq_of_id hr (hkept t₁ ht₁) (by
    rw [hid, (hf.grows t₁).id, hg₁.id, hg₀.id])
  have howner : ∀ x, Descends db' (f t₁) x → x.userId = userId := fun x hx => by
    rw [hinv'.owner_of_descends hx, (hf.grows t₁).user, hg₁.user, hg₀.user, huser]
  -- every descendant is the later version of a row that the statement's snapshot showed
  have hseen : ∀ x, Descends db' (f t₁) x → ∃ t ∈ mid.refreshTokens, ∃ t' ∈ db.refreshTokens,
      t.Grows t' ∧ x = f t' := by
    intro x hx
    induction hx with
    | refl => exact ⟨t₀, ht₀, t₁, ht₁, hg₁, rfl⟩
    | tail hdesc hlast ih =>
      obtain ⟨t, ht, t', ht', hg, rfl⟩ := ih
      obtain ⟨-, hz, hnext⟩ := hlast
      rw [hf.replaced] at hnext
      have hsame : t.replacedById = t'.replacedById := by
        rcases hg.replaced with hsame | ⟨-, hopen⟩
        · exact hsame.symm
        · -- the row was open in the snapshot, so it is locked, and it was not rotated since
          have huser' : t.userId = userId := by
            rw [← hg.user, ← (hf.grows t').user]
            exact howner _ hdesc
          have hheld := hlocked t ht huser' hopen
          rw [← hg.id] at hheld
          have hnot : ¬ presented t' := fun hp =>
            hopen (hpresented t ht (hhash t' t hg.hash hp))
          rw [hunrotated t' ht' hheld hnot] at hnext
          cases hnext
      obtain ⟨s, hs, hsid⟩ := hmid.succession.found t ht _ (hsame.trans hnext)
      obtain ⟨s', hs', hgs⟩ := hafter s hs
      refine ⟨s, hs, s', hs', hgs, hinv'.eq_of_id hz (hkept s' hs') ?_⟩
      rw [(hf.grows s').id, hgs.id, hsid]
  intro x hx
  obtain ⟨t, ht, t', ht', hg, rfl⟩ := hseen x hx
  by_cases hopen : t.isRevoked
  · exact (hf.grows t').revoked (hg.revoked hopen)
  · have huser' := howner _ hx
    have hheld := hlocked t ht (by rw [← hg.user, ← (hf.grows t').user, huser']) hopen
    rw [← hg.id, ← (hf.grows t').id] at hheld
    exact hrevoked (f t') (hkept t' ht') huser' hheld

/-- Revoked tokens get no new descendants. -/
theorem Dead.mono {a b : Db} (ha : Linked a) (hb : Linked b) (hgrow : Grows a b)
    {r r' : RefreshToken} (hr : r ∈ a.refreshTokens) (hr' : r' ∈ b.refreshTokens)
    (hid : r'.id = r.id) (h : Dead a r) : Dead b r' := by
  have hseen : ∀ x, Descends b r' x → ∃ y, Descends a r y ∧ y.Grows x := by
    intro x hx
    induction hx with
    | refl =>
      obtain ⟨t, ht, hg⟩ := hgrow r hr
      obtain rfl := hb.eq_of_id hr' ht (hid.trans hg.id.symm)
      exact ⟨r, .refl, hg⟩
    | tail _ hlast ih =>
      obtain ⟨y, hy, hg⟩ := ih
      obtain ⟨-, hz, hnext⟩ := hlast
      have hya := hy.mem hr
      rcases hg.replaced with hsame | ⟨-, hopen⟩
      · rw [hsame] at hnext
        obtain ⟨s, hs, hsid⟩ := ha.succession.found y hya _ hnext
        obtain ⟨s', hs', hgs⟩ := hgrow s hs
        obtain rfl := hb.eq_of_id hz hs' (hsid.symm.trans hgs.id.symm)
        exact ⟨s, hy.tail ⟨hya, hs, hsid ▸ hnext⟩, hgs⟩
      · exact absurd (h y hy) hopen
  intro x hx
  obtain ⟨y, hy, hg⟩ := hseen x hx
  exact hg.revoked (h y hy)

/-- No run from `c` on exchanges a token that descends from the row of `r₀`. -/
def NeverExchanged (security : Security) (settings : Settings) (c : IdentityConfig)
    (r₀ : RefreshToken) : Prop :=
  ∀ c₁ l c₂ e, (identity security settings).machine.Run c c₁ →
    (identity security settings).next c₁ l = some c₂ →
    (c₁.delivered l).bind (exchangeOf security) = some e →
    ∀ r x, r ∈ c₁.db.refreshTokens → r.id = r₀.id → Descends c₁.db r x → x.tokenHash ≠ e.1

/-- A dead token is never exchanged, and neither is any of its descendants. -/
theorem neverExchanged_of_dead {c : IdentityConfig} (hc : c.Sound (sessionProtocol security))
    {r₀ r : RefreshToken} (hr : r ∈ c.db.refreshTokens) (hid : r.id = r₀.id) (hdead : Dead c.db r) :
    NeverExchanged security settings c r₀ := by
  intro c₁ l c₂ e hrun hnext hexchange r₁ x hr₁ hid₁ hx heq
  have hD := sessionProtocol_governs security settings
  have hc₁ := sound_of_run hD hc hrun
  have hrevoked := hdead.mono hc.inv hc₁.inv (grow_of_run hD hc hrun) hr hr₁
    (hid₁.trans hid.symm) x hx
  rcases System.delivered_cases _ hnext with ⟨hnone, -⟩ | ⟨t, draw, s, a, -, hs, hprog, hpending,
    hsome⟩
  · rw [hnone] at hexchange
    cases hexchange
  · rw [hsome, Option.bind_some] at hexchange
    obtain ⟨p, s', now, hp, hphash, hopen, -⟩ :=
      (hc₁.commit hs hprog hpending).2.exchanged e hexchange
    -- an exchange needs an open token
    obtain rfl := hc₁.inv.unique.hashes.eq_of_key hp (hx.mem hr₁) (hphash.trans heq.symm)
    rw [RefreshToken.isRevoked, hopen] at hrevoked
    cases hrevoked

/-- Killing sessions kills them all, unless a rotation overtook it: once a transaction that revokes
a user's sessions has committed, no token that descends from one it found when it began is ever
exchanged. -/
theorem revoked_for_good (security : Security) (settings : Settings) {c c' : IdentityConfig}
    (t draw : Nat) {userId : Nat} {s : Session Db Row Failure Outcome Operation} {answer : Outcome}
    (hreach : (identity security settings).machine.Run (.idle Db.empty) c)
    (hs : c.sessions t = some s) (hanswer : s.result c.db = some answer)
    (hrevokes : Revokes security c.db s.op answer userId) (hunrotated : Unrotated security c t s)
    (hnext : (identity security settings).next c (.step t draw) = some c') :
    ∀ r₀ ∈ s.opened.refreshTokens, r₀.userId = userId →
      NeverExchanged security settings c' r₀ := by
  intro r₀ hr₀ huser
  have hD := sessionProtocol_governs security settings
  have hc : c.Sound (sessionProtocol security) :=
    sound_of_run hD (Config.sound_idle linked_empty) hreach
  have hc' := hc.next hD hnext
  obtain ⟨hprog, db', hdb'⟩ := Session.result_eq_some.1 hanswer
  obtain ⟨hguar, hcommit⟩ := hc.commit hs hprog hdb'
  obtain rfl : c'.db = db' := by
    simp only [System.next, hs, Config.advance, hprog, hdb', Option.some.injEq] at hnext
    rw [← hnext]
    rfl
  have hswept := hcommit.swept userId hrevokes
  have hrevised : Revised (c.Held t) c.db c'.db := by
    generalize hop : s.op = op at hrevokes hcommit
    refine hcommit.revised ?_ ?_
    · cases hrevokes <;> rfl
    · cases hrevokes <;> rfl
  obtain ⟨⟨mid, -, hbefore, hafter, -⟩, -⟩ := hswept
  obtain ⟨r₁, hr₁, hg₁⟩ := Grows.trans (Grows.trans hbefore hafter) hguar.grow r₀ hr₀
  refine neverExchanged_of_dead hc' hr₁ hg₁.id
    (dead_of_swept hc'.inv (hcommit.swept userId hrevokes) hrevised (fun x y hxy hp => ?_)
      hunrotated hr₀ huser hr₁ hg₁.id)
  generalize s.op = op at hp ⊢
  cases op with
  | refresh rawToken client => exact hxy.symm.trans hp
  | _ => exact hp

/-! ## Signing out everywhere -/

/-- The admin of the samples, as its access token describes it. -/
def sampleAdmin : Principal where
  userId := 1
  role := .admin
  warehouseIds := []

/-- The row of the login's token. -/
def sampleToken : RefreshToken where
  id := 200
  userId := 1
  tokenHash := 50
  expiresAt := 1209600
  revokedAt := none
  replacedById := none
  createdAt := 0
  userAgent := none
  ipAddress := none

/-- After the login, `logout_all` up to its commit. -/
def signedOut : List (Label Operation User) :=
  loggedIn ++ session 1 (.logout sampleAdmin none) [0, 0, 0, 0, 0]

/-- The state a run of the samples leaves. -/
def stateAfter (ls : List (Label Operation User)) : IdentityConfig :=
  ((identity sampleSecurity sampleSettings).machine.exec (.idle Db.empty) ls).getD (.idle Db.empty)

theorem exec_stateAfter (ls : List (Label Operation User))
    (h : ((identity sampleSecurity sampleSettings).machine.exec (.idle Db.empty) ls).isSome) :
    (identity sampleSecurity sampleSettings).machine.exec (.idle Db.empty) ls =
      some (stateAfter ls) := by
  obtain ⟨c, hc⟩ := Option.isSome_iff_exists.1 h
  rw [stateAfter, hc, Option.getD_some]

/-- A run goes on where its first part ended. -/
theorem exec_stateAfter_append (ls ls' : List (Label Operation User))
    (h : ((identity sampleSecurity sampleSettings).machine.exec (.idle Db.empty) ls).isSome)
    (h' : ((identity sampleSecurity sampleSettings).machine.exec (.idle Db.empty)
      (ls ++ ls')).isSome) :
    (identity sampleSecurity sampleSettings).machine.exec (stateAfter ls) ls' =
      some (stateAfter (ls ++ ls')) := by
  rw [← exec_stateAfter _ h', Machine.exec_append, exec_stateAfter _ h, Option.bind_some]

theorem revoked_for_good_after_logout :
    NeverExchanged sampleSecurity sampleSettings (stateAfter (signedOut ++ [.step 1 0]))
      sampleToken := by
  have hnext := exec_stateAfter_append signedOut [.step 1 0] (by decide) (by decide)
  rw [Machine.exec_singleton] at hnext
  refine revoked_for_good sampleSecurity sampleSettings 1 0
    (Machine.run_of_exec _ (exec_stateAfter signedOut (by decide))) rfl rfl
    (.logoutAll sampleAdmin _) ?_ hnext sampleToken (by decide) rfl
  intro r hr _ _
  rcases List.mem_cons.1 hr with rfl | hr
  · rfl
  · exact absurd hr List.not_mem_nil

/-- A refresh of token 50 has sent its successor 51 and not committed; `logout_all` selects token
50 and waits for it; the refresh commits; `logout_all` skips the row. -/
def overtaken : List (Label Operation User) :=
  loggedIn ++ rotateToken 0 50 51 201 ++ session 1 (.logout sampleAdmin none) [0, 0] ++
    [.step 0 0, .step 1 0, .step 1 0, .step 1 0]

/-- Killing sessions does not kill them all: token 51 descends from a session that `logout_all`
found, and is exchanged after it committed. -/
theorem not_revoked_for_good : ∃ c c' s answer,
    (identity sampleSecurity sampleSettings).machine.Run (.idle Db.empty) c ∧
      c.sessions 1 = some s ∧ s.result c.db = some answer ∧
      Revokes sampleSecurity c.db s.op answer sampleToken.userId ∧
      (identity sampleSecurity sampleSettings).next c (.step 1 0) = some c' ∧
      sampleToken ∈ s.opened.refreshTokens ∧
      ¬ NeverExchanged sampleSecurity sampleSettings c' sampleToken := by
  have hnext := exec_stateAfter_append overtaken [.step 1 0] (by decide +kernel) (by decide +kernel)
  rw [Machine.exec_singleton] at hnext
  -- the session of `logout_all`, before its commit
  have hop : ((stateAfter overtaken).sessions 1).map (·.op) = some (.logout sampleAdmin none) := rfl
  have hfound : ((stateAfter overtaken).sessions 1).any (fun s => decide
      (s.result (stateAfter overtaken).db = some (.message "Signed out of 0 session(s).") ∧
        sampleToken ∈ s.opened.refreshTokens)) = true := by decide +kernel
  obtain ⟨s, hs, hlogout⟩ := Option.map_eq_some_iff.1 hop
  rw [hs, Option.any_some, decide_eq_true_eq] at hfound
  have hrevokes : Revokes sampleSecurity (stateAfter overtaken).db s.op
      (.message "Signed out of 0 session(s).") sampleToken.userId := by
    rw [hlogout]
    exact .logoutAll sampleAdmin _
  have hreach := Machine.run_of_exec _ (exec_stateAfter overtaken (by decide +kernel))
  -- then token 51 is exchanged
  have hrun := exec_stateAfter_append (overtaken ++ [.step 1 0]) (rotateToken 2 51 52 202)
    (by decide +kernel) (by decide +kernel)
  have hlast := exec_stateAfter_append (overtaken ++ [.step 1 0] ++ rotateToken 2 51 52 202)
    [.step 2 0] (by decide +kernel) (by decide +kernel)
  rw [Machine.exec_singleton] at hlast
  have hexchange : ((stateAfter (overtaken ++ [.step 1 0] ++ rotateToken 2 51 52 202)).delivered
      (.step 2 0 : Label Operation User)).bind (exchangeOf sampleSecurity) = some (51, 52) := by
    decide +kernel
  have htokens :
      (stateAfter (overtaken ++ [.step 1 0] ++ rotateToken 2 51 52 202)).db.refreshTokens =
        [sampleToken.rotate 0 201, { sampleToken with id := 201, tokenHash := 51 }] := by
    decide +kernel
  generalize stateAfter (overtaken ++ [.step 1 0] ++ rotateToken 2 51 52 202 ++ [.step 2 0]) = c₂
    at hlast
  generalize stateAfter (overtaken ++ [.step 1 0] ++ rotateToken 2 51 52 202) = c₁
    at hrun hlast hexchange htokens
  generalize stateAfter (overtaken ++ [.step 1 0]) = c' at hnext hrun
  generalize stateAfter overtaken = c at hs hfound hrevokes hreach hnext
  refine ⟨c, c', s, _, hreach, hs, hfound.1, hrevokes, hnext, hfound.2, fun h => ?_⟩
  have hold : sampleToken.rotate 0 201 ∈ c₁.db.refreshTokens := by
    rw [htokens]
    exact List.mem_cons_self
  have hnew : { sampleToken with id := 201, tokenHash := 51 } ∈ c₁.db.refreshTokens := by
    rw [htokens]
    exact List.mem_cons_of_mem _ List.mem_cons_self
  exact h c₁ (.step 2 0) c₂ (51, 52) (Machine.run_of_exec _ hrun) hlast hexchange _ _ hold rfl
    (.tail .refl ⟨hold, hnew, rfl⟩) rfl

end SmartLogistics.Identity
