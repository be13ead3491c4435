import SmartLogistics.Identity.Obligations

/-!
# Refresh rotation is linear

`exchangeOf` reads the exchanges off the answers of a run. `Recorded` is the invariant that ties
them to the table: an exchange happened exactly where a row names its replacement (`Links`), and no
token was exchanged twice. `rotation_linear`: in every reachable state the tokens that descend from
a login form one chain through `replaced_by_id`, all but the last revoked (`LoginChain`).
-/

set_option autoImplicit false

namespace SmartLogistics.Identity

open SmartLogistics.Library SmartLogistics.Platform

variable {security : Security} {settings : Settings} {db db' : Db}

/-! ## Links between hashes -/

/-- The token with hash `h'` replaced the one with hash `h`. -/
def Links (db : Db) (h h' : Nat) : Prop :=
  ∃ r s, Rotated db r s ∧ r.tokenHash = h ∧ s.tokenHash = h'

theorem not_links_empty (h h' : Nat) : ¬ Links Db.empty h h' := by
  rintro ⟨r, s, ⟨hr, -⟩, -⟩
  exact absurd hr List.not_mem_nil

/-- Links are about the tokens only. -/
theorem links_congr (h : db'.refreshTokens = db.refreshTokens) (a b : Nat) :
    Links db' a b ↔ Links db a b := by
  unfold Links Rotated
  rw [h]

/-- Revoking tokens in place adds no link and removes none. -/
theorem links_of_revised {held : Row → Prop} (h : Revised held db db') (a b : Nat) :
    Links db' a b ↔ Links db a b := by
  obtain ⟨f, hf, htokens⟩ := h
  constructor
  · rintro ⟨r, s, ⟨hr, hs, hnext⟩, rfl, rfl⟩
    rw [htokens] at hr hs
    obtain ⟨r₀, hr₀, rfl⟩ := List.mem_map.1 hr
    obtain ⟨s₀, hs₀, rfl⟩ := List.mem_map.1 hs
    rw [hf.replaced, (hf.grows s₀).id] at hnext
    exact ⟨r₀, s₀, ⟨hr₀, hs₀, hnext⟩, (hf.grows r₀).hash.symm, (hf.grows s₀).hash.symm⟩
  · rintro ⟨r, s, ⟨hr, hs, hnext⟩, rfl, rfl⟩
    refine ⟨f r, f s, ⟨?_, ?_, ?_⟩, (hf.grows r).hash, (hf.grows s).hash⟩
    · rw [htokens]
      exact List.mem_map_of_mem hr
    · rw [htokens]
      exact List.mem_map_of_mem hs
    · rw [hf.replaced, (hf.grows s).id]
      exact hnext

/-- A token just stored is linked to no other. -/
theorem links_of_issued {tokenHash : Nat} (hinv : Linked db) (hinv' : Linked db')
    (h : Issued tokenHash db db') (a b : Nat) : Links db' a b ↔ Links db a b := by
  obtain ⟨s, hs, htokens⟩ := h
  have hmem : ∀ t, t ∈ db'.refreshTokens ↔ t ∈ db.refreshTokens ∨ t = s := by
    intro t
    rw [htokens, List.mem_append, List.mem_singleton]
  constructor
  · rintro ⟨r, x, ⟨hr, hx, hnext⟩, rfl, rfl⟩
    rcases (hmem r).1 hr with hr | rfl
    · obtain ⟨y, hy, hyid⟩ := hinv.succession.found r hr _ hnext
      obtain rfl := hinv'.eq_of_id ((hmem y).2 (Or.inl hy)) hx hyid
      exact ⟨r, y, ⟨hr, hy, hnext⟩, rfl, rfl⟩
    · rw [hs.replaced] at hnext
      cases hnext
  · rintro ⟨r, x, ⟨hr, hx, hnext⟩, rfl, rfl⟩
    exact ⟨r, x, ⟨(hmem r).2 (Or.inl hr), (hmem x).2 (Or.inl hx), hnext⟩, rfl, rfl⟩

/-- An exchange adds its link, of a token that had none. -/
theorem links_of_exchanged {presented issued : Nat} (hinv : Linked db) (hinv' : Linked db')
    (h : Exchanged presented issued db db') :
    (∀ a b, Links db' a b ↔ Links db a b ∨ a = presented ∧ b = issued) ∧
      ∀ b, ¬ Links db presented b := by
  obtain ⟨r, s, now, hr, hhash, hopen, hs, htokens⟩ := h
  have hnew : s ∈ db'.refreshTokens := by
    rw [htokens]
    exact List.mem_append_right _ List.mem_cons_self
  have hold : ∀ t ∈ db.refreshTokens, rotateTo r s now t ∈ db'.refreshTokens := by
    intro t ht
    rw [htokens]
    exact List.mem_append_left _ (List.mem_map_of_mem ht)
  -- a token with a successor is revoked, and this one was not
  have hopened : r.replacedById = none := by
    cases hnext : r.replacedById with
    | none => rfl
    | some k =>
      have hrevoked := hinv.revoked r hr (by rw [hnext]; exact Option.some_ne_none k)
      rw [RefreshToken.isRevoked, hopen] at hrevoked
      cases hrevoked
  have hother : ∀ t ∈ db.refreshTokens, t ≠ r → rotateTo r s now t = t := fun t ht hne =>
    rotateTo_of_ne fun hid => hne (hinv.eq_of_id ht hr hid)
  refine ⟨fun a b => ⟨?_, ?_⟩, ?_⟩
  · rintro ⟨t, x, ⟨ht, hx, hnext⟩, rfl, rfl⟩
    rw [htokens] at ht
    rcases List.mem_append.1 ht with ht | ht
    · obtain ⟨t₀, ht₀, rfl⟩ := List.mem_map.1 ht
      -- the presented token names the new one, every other row what it named
      by_cases hid : t₀ = r
      · subst hid
        rw [rotateTo_self] at hnext
        obtain rfl := hinv'.eq_of_id hnew hx (Option.some.inj hnext)
        exact Or.inr ⟨(rotateTo_tokenHash ..).trans hhash, hs.hash⟩
      · rw [hother t₀ ht₀ hid] at hnext ⊢
        obtain ⟨y, hy, hyid⟩ := hinv.succession.found t₀ ht₀ _ hnext
        obtain rfl := hinv'.eq_of_id (hold y hy) hx ((rotateTo_id ..).trans hyid)
        exact Or.inl ⟨t₀, y, ⟨ht₀, hy, hyid ▸ hnext⟩, rfl, (rotateTo_tokenHash ..).symm⟩
    · rw [List.mem_singleton.1 ht, hs.replaced] at hnext
      cases hnext
  · rintro (⟨t, x, ⟨ht, hx, hnext⟩, rfl, rfl⟩ | ⟨rfl, rfl⟩)
    · -- an old link stays, since the presented token had none
      have hne : t ≠ r := by
        rintro rfl
        rw [hopened] at hnext
        cases hnext
      refine ⟨t, rotateTo r s now x, ⟨?_, hold x hx, ?_⟩, rfl, rotateTo_tokenHash ..⟩
      · have hkept := hold t ht
        rwa [hother t ht hne] at hkept
      · rw [rotateTo_id]
        exact hnext
    · refine ⟨rotateTo r s now r, s, ⟨hold r hr, hnew, ?_⟩,
        (rotateTo_tokenHash ..).trans hhash, hs.hash⟩
      rw [rotateTo_self]
      rfl
  · rintro b ⟨t, x, ⟨ht, -, hnext⟩, hthash, -⟩
    rw [hinv.unique.hashes.eq_of_key ht hr (hthash.trans hhash.symm), hopened] at hnext
    cases hnext

/-! ## What was answered and what is stored -/

/-- The answers of a run and the table tell the same exchanges. -/
structure Recorded (security : Security) (db : Db) (past : List (Operation × Outcome)) : Prop where
  logins : ∀ tokenHash ∈ past.filterMap (loginOf security),
    ∃ r ∈ db.refreshTokens, r.tokenHash = tokenHash
  exchanges : ∀ h h', (h, h') ∈ past.filterMap (exchangeOf security) ↔ Links db h h'
  once : ((past.filterMap (exchangeOf security)).map Prod.fst).Nodup

theorem recorded_empty : Recorded security Db.empty [] where
  logins := fun _ h => absurd h List.not_mem_nil
  exchanges := fun h h' => iff_of_false List.not_mem_nil (not_links_empty h h')
  once := List.nodup_nil

/-- A commit keeps the record. -/
theorem Recorded.commit {past : List (Operation × Outcome)} (h : Recorded security db past)
    (hinv : Linked db) (hinv' : Linked db') (hgrow : Grows db db') {op : Operation} {opened : Db}
    {held : Row → Prop} {answer : Outcome}
    (hcommit : Committed security op opened held answer db db') :
    Recorded security db' (past ++ [(op, answer)]) := by
  have hold : ∀ tokenHash ∈ past.filterMap (loginOf security),
      ∃ r ∈ db'.refreshTokens, r.tokenHash = tokenHash := by
    intro tokenHash hmem
    obtain ⟨r, hr, rfl⟩ := h.logins tokenHash hmem
    obtain ⟨r', hr', hg⟩ := hgrow r hr
    exact ⟨r', hr', hg.hash⟩
  cases hlogin : loginOf security (op, answer) with
  | some tokenHash =>
    -- a login stores its token
    have hissued := hcommit.issued tokenHash hlogin
    have hexchange : exchangeOf security (op, answer) = none := by
      cases op with
      | login email password client => rfl
      | _ => cases hlogin
    have hlinks := links_of_issued hinv hinv' hissued
    obtain ⟨s, hs, htokens⟩ := hissued
    refine ⟨?_, ?_, ?_⟩
    · intro a ha
      rw [List.filterMap_append, List.mem_append] at ha
      rcases ha with ha | ha
      · exact hold a ha
      · simp only [List.filterMap_cons, hlogin, List.filterMap_nil, List.mem_singleton] at ha
        subst ha
        refine ⟨s, ?_, hs.hash⟩
        rw [htokens]
        exact List.mem_append_right _ List.mem_cons_self
    · intro a b
      rw [hlinks, ← h.exchanges]
      simp [hexchange]
    · simp [hexchange, h.once]
  | none =>
    have hlogins : ∀ tokenHash ∈ (past ++ [(op, answer)]).filterMap (loginOf security),
        ∃ r ∈ db'.refreshTokens, r.tokenHash = tokenHash := by
      intro a ha
      simp only [List.filterMap_append, List.filterMap_cons, hlogin, List.filterMap_nil,
        List.append_nil] at ha
      exact hold a ha
    cases hexchange : exchangeOf security (op, answer) with
    | some e =>
      -- a refresh adds the link of its exchange
      obtain ⟨hlinks, hfirst⟩ := links_of_exchanged hinv hinv' (hcommit.exchanged e hexchange)
      refine ⟨hlogins, ?_, ?_⟩
      · intro a b
        rw [hlinks, ← h.exchanges, List.filterMap_append, List.mem_append]
        simp only [List.filterMap_cons, hexchange, List.filterMap_nil, List.mem_singleton,
          Prod.ext_iff]
      · simp only [List.filterMap_append, List.filterMap_cons, hexchange, List.filterMap_nil,
          List.map_append, List.map_cons, List.map_nil]
        refine List.nodup_append.2 ⟨h.once, List.nodup_singleton _, fun a ha b hb => ?_⟩
        rintro rfl
        rw [List.mem_singleton] at hb
        obtain ⟨⟨x, y⟩, hxy, rfl⟩ := List.mem_map.1 ha
        exact hfirst y (hb ▸ (h.exchanges x y).1 hxy)
    | none =>
      have hlinks := links_of_revised (hcommit.revised hlogin hexchange)
      refine ⟨hlogins, ?_, ?_⟩
      · intro a b
        rw [hlinks, ← h.exchanges]
        simp [hexchange]
      · simp [hexchange, h.once]

/-- A write outside the transactions leaves the tokens alone. -/
theorem tokens_seed (user : User) (db : Db) :
    (Db.seed user db).refreshTokens = db.refreshTokens := by
  unfold Db.seed
  split
  · rename_i db' hcheck
    obtain ⟨-, rfl⟩ := checked_of_check hcheck
    rfl
  · rfl

theorem Recorded.congr {past : List (Operation × Outcome)} (h : Recorded security db past)
    (htokens : db'.refreshTokens = db.refreshTokens) : Recorded security db' past where
  logins := by
    rw [htokens]
    exact h.logins
  exchanges := fun a b => (h.exchanges a b).trans (links_congr htokens a b).symm
  once := h.once

/-- A configuration of Identity's transactions. -/
abbrev IdentityConfig := Config Db Row Failure Outcome Operation

/-- A sound configuration with the record of what was answered on the way to it. -/
structure Chronicled (security : Security) (c : IdentityConfig)
    (past : List (Operation × Outcome)) : Prop where
  sound : c.Sound (sessionProtocol security)
  recorded : Recorded security c.db past

theorem chronicled_of_exec (ls : List (Label Operation User)) {c : IdentityConfig}
    (h : (identity security settings).machine.exec (.idle Db.empty) ls = some c) :
    Chronicled security c ((identity security settings).answers (.idle Db.empty) ls) := by
  have hstart : Chronicled security (Config.idle Db.empty : IdentityConfig) [] :=
    ⟨Config.sound_idle linked_empty, recorded_empty⟩
  refine System.answers_preserves _ (fun c l c' past hc _ hnext => ?_) ls hstart h
  have hsound := hc.sound.next (sessionProtocol_governs security settings) hnext
  refine ⟨hsound, ?_⟩
  rcases System.delivered_cases _ hnext with ⟨hnone, hdb⟩ | ⟨t, draw, s, a, -, hs, hprog, hpending,
    hsome⟩
  · rw [hnone, Option.toList_none, List.append_nil]
    refine hc.recorded.congr ?_
    rcases hdb with hdb | ⟨user, -, hdb⟩
    · rw [hdb]
    · rw [hdb]
      exact tokens_seed user c.db
  · rw [hsome]
    obtain ⟨hguar, hcommit⟩ := hc.sound.commit hs hprog hpending
    exact hc.recorded.commit hc.sound.inv hsound.inv hguar.grow hcommit

/-! ## The chain of a login -/

/-- The tokens that descend from the login that answered the token with hash `tokenHash`, by the
exchanges of the run: one chain through `replaced_by_id`, of which the last at most is open. -/
structure LoginChain (db : Db) (exchanges : List (Nat × Nat)) (tokenHash : Nat)
    (chain : List RefreshToken) : Prop where
  head : chain.head?.map (·.tokenHash) = some tokenHash
  links : chain.IsChain fun t s => t.replacedById = some s.id
  nodup : chain.Nodup
  mem_iff : ∀ t, t ∈ chain ↔ t ∈ db.refreshTokens ∧
    Relation.ReflTransGen (fun h h' => (h, h') ∈ exchanges) tokenHash t.tokenHash
  revoked : ∀ t ∈ chain, chain.getLast? ≠ some t → t.isRevoked
  usable : chain.countP (fun t => !t.isRevoked) ≤ 1

/-- Descending by the exchanges of the run is descending in the table. -/
theorem Recorded.descends_iff {past : List (Operation × Outcome)} (h : Recorded security db past)
    (hinv : Linked db) {r t : RefreshToken} (hr : r ∈ db.refreshTokens) :
    Descends db r t ↔ t ∈ db.refreshTokens ∧ Relation.ReflTransGen
      (fun a b => (a, b) ∈ past.filterMap (exchangeOf security)) r.tokenHash t.tokenHash := by
  constructor
  · intro hdesc
    induction hdesc with
    | refl => exact ⟨hr, .refl⟩
    | tail _ hlast ih => exact ⟨hlast.2.1, ih.2.tail ((h.exchanges _ _).2 ⟨_, _, hlast, rfl, rfl⟩)⟩
  · rintro ⟨ht, hpath⟩
    generalize hend : t.tokenHash = last at hpath
    induction hpath generalizing t with
    | refl =>
      rw [hinv.unique.hashes.eq_of_key ht hr hend]
    | tail _ hlast ih =>
      obtain ⟨x, y, hrot, hx, hy⟩ := (h.exchanges _ _).1 hlast
      obtain rfl := hinv.unique.hashes.eq_of_key hrot.2.1 ht (hy.trans hend.symm)
      exact (ih hrot.1 hx).tail hrot

/-- Rotation is linear: along every run no token is exchanged twice, and the tokens that descend
from a login form a chain in which every token but the last is revoked. -/
theorem rotation_linear (security : Security) (settings : Settings)
    (ls : List (Label Operation User)) {c : IdentityConfig}
    (h : (identity security settings).machine.exec (.idle Db.empty) ls = some c) :
    let answered := (identity security settings).answers (.idle Db.empty) ls
    let exchanges := answered.filterMap (exchangeOf security)
    (exchanges.map Prod.fst).Nodup ∧
      ∀ tokenHash ∈ answered.filterMap (loginOf security),
        ∃ chain, LoginChain c.db exchanges tokenHash chain := by
  intro answered exchanges
  obtain ⟨hsound, hrecorded⟩ := chronicled_of_exec ls h
  refine ⟨hrecorded.once, fun tokenHash hlogin => ?_⟩
  obtain ⟨r, hr, rfl⟩ := hrecorded.logins tokenHash hlogin
  obtain ⟨line, hline⟩ := hsound.inv.succession.exists_line hr
  have hrevoked : ∀ t ∈ line, line.getLast? ≠ some t → t.isRevoked := fun t ht hlast =>
    hsound.inv.revoked t ((Table.Follows.mem ((hline.mem_iff t).1 ht)) hr)
      (hline.next_ne_none ht hlast)
  refine ⟨line, ⟨?_, hline.links.imp fun _ _ hlink => hlink.2.2, hline.nodup, fun t => ?_, hrevoked,
    hline.countP_le_one fun t ht hlast => ?_⟩⟩
  · rw [hline.head]
    rfl
  · rw [hline.mem_iff]
    exact hrecorded.descends_iff hsound.inv hr
  · rw [hrevoked t ht hlast]
    rfl

/-! ## A login and a refresh -/

/-- The labels of a session that runs `draws.length` statements. -/
def session (t : Nat) (op : Operation) (draws : List Nat) : List (Label Operation User) :=
  .start t op :: draws.map (.step t)

/-- Hashes that change nothing. -/
def sampleSecurity : Security where
  hashPassword := fun _ plain => plain
  verifyPassword := fun plain hash => plain == hash
  generateToken := fun bytes => bytes
  hashToken := fun token => token

/-- The default lifetimes and limits. -/
def sampleSettings : Settings where
  accessTokenTtl := 900
  refreshTokenTtl := 1209600
  maxFailedLoginAttempts := 5
  accountLockout := 900

/-- An ACTIVE user that has never logged in. -/
def sampleUser (id : Nat) (email : String) (role : UserRole) : User where
  id := id
  email := email
  fullName := "Sample User"
  phone := none
  passwordHash := "SmartLogistics!2026"
  passwordChangedAt := none
  role := role
  status := .active
  courierId := none
  failedLoginAttempts := 0
  lockedUntil := none
  lastLoginAt := none
  createdAt := 0
  updatedAt := 0
  deletedAt := none
  deletedBy := none

/-- A client that tells nothing of itself. -/
def sampleClient : ClientInfo := ⟨none, none⟩

/-- The admin account logs in; its refresh token is 50, in row 200. -/
def loggedIn : List (Label Operation User) :=
  .env (sampleUser 1 "admin@transfleet.com" .admin) ::
    session 0 (.login "admin@transfleet.com" "SmartLogistics!2026" sampleClient)
      [0, 0, 0, 0, 0, 50, 200, 0, 0, 0, 0, 0, 0]

/-- A refresh up to its commit: the new token is `bytes`, in row `id`. -/
def rotateToken (t rawToken bytes id : Nat) : List (Label Operation User) :=
  session t (.refresh rawToken sampleClient) [0, 0, 0, 0, 0, 0, 0, bytes, id, 0, 0, 0, 0, 0]

/-- Token 50 is exchanged for token 51. -/
def refreshedOnce : List (Label Operation User) :=
  loggedIn ++ rotateToken 0 50 51 201 ++ [.step 0 0]

theorem rotation_linear_after_refresh : ∃ c chain,
    (identity sampleSecurity sampleSettings).machine.exec (.idle Db.empty) refreshedOnce = some c ∧
      LoginChain c.db [(50, 51)] 50 chain := by
  obtain ⟨c, hc⟩ : ∃ c, (identity sampleSecurity sampleSettings).machine.exec (.idle Db.empty)
      refreshedOnce = some c := ⟨_, rfl⟩
  have hexchanges : ((identity sampleSecurity sampleSettings).answers (.idle Db.empty)
      refreshedOnce).filterMap (exchangeOf sampleSecurity) = [(50, 51)] := by decide
  have hlogin : 50 ∈ ((identity sampleSecurity sampleSettings).answers (.idle Db.empty)
      refreshedOnce).filterMap (loginOf sampleSecurity) := by decide
  obtain ⟨chain, hchain⟩ := (rotation_linear sampleSecurity sampleSettings refreshedOnce hc).2 50
    hlogin
  exact ⟨c, chain, hc, hexchanges ▸ hchain⟩

end SmartLogistics.Identity
