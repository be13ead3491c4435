import SmartLogistics.Library.Succession
import SmartLogistics.Identity.Users

/-!
# The protocol of refresh-token sessions

`sessionProtocol` is the discipline Identity's transactions keep on `refresh_tokens`: committed
states are `Linked`, a locked token row does not change under its holder, and tokens only move
forward (`Grows`). It states what each commit does to the table (`Committed`): a login appends a
token, a refresh replaces the presented one (`Exchanged`), and every other operation revokes rows in
place (`Revised`), all that its statement saw if it revokes a user's sessions (`Swept`).
-/

set_option autoImplicit false

namespace SmartLogistics.Identity

open SmartLogistics.Library SmartLogistics.Platform

/-! ## How tokens change -/

/-- How a token row may change over its life: once replaced it stays so, and a revoked token is not
replaced any more. -/
structure RefreshToken.Grows (t t' : RefreshToken) : Prop where
  id : t'.id = t.id
  user : t'.userId = t.userId
  hash : t'.tokenHash = t.tokenHash
  revoked : t.isRevoked → t'.isRevoked
  replaced : t'.replacedById = t.replacedById ∨ t.replacedById = none ∧ ¬ t.isRevoked

theorem RefreshToken.Grows.refl (t : RefreshToken) : t.Grows t :=
  ⟨rfl, rfl, rfl, fun h => h, Or.inl rfl⟩

theorem RefreshToken.Grows.trans {a b c : RefreshToken} (h : a.Grows b) (h' : b.Grows c) :
    a.Grows c where
  id := h'.id.trans h.id
  user := h'.user.trans h.user
  hash := h'.hash.trans h.hash
  revoked := fun hr => h'.revoked (h.revoked hr)
  replaced := by
    rcases h.replaced with hb | hb
    · rcases h'.replaced with hc | ⟨hnone, hopen⟩
      · exact Or.inl (hc.trans hb)
      · exact Or.inr ⟨hb.symm.trans hnone, fun hr => hopen (h.revoked hr)⟩
    · exact Or.inr hb

theorem RefreshToken.grows_revoke (t : RefreshToken) (now : Nat) : t.Grows (t.revoke now) :=
  ⟨rfl, rfl, rfl, fun _ => rfl, Or.inl rfl⟩

/-- How a commit may change the tokens. -/
def Grows (a b : Db) : Prop := ∀ t ∈ a.refreshTokens, ∃ t' ∈ b.refreshTokens, t.Grows t'

theorem Grows.refl (db : Db) : Grows db db := fun t ht => ⟨t, ht, .refl t⟩

theorem Grows.trans {a b c : Db} (h : Grows a b) (h' : Grows b c) : Grows a c := by
  intro t ht
  obtain ⟨t', ht', hg⟩ := h t ht
  obtain ⟨t'', ht'', hg'⟩ := h' t' ht'
  exact ⟨t'', ht'', hg.trans hg'⟩

/-- Row `r` is the same in both states, if it is a token. -/
def Same : Row → Db → Db → Prop
  | .token id, a, b => ∀ t ∈ a.refreshTokens, t.id = id → t ∈ b.refreshTokens
  | _, _, _ => True

theorem Same.refl : ∀ (r : Row) (db : Db), Same r db db
  | .token _, _ => fun _ ht _ => ht
  | .user _, _ | .assignment _, _ | .processed _, _ => trivial

theorem Same.trans : ∀ {r : Row} {a b c : Db}, Same r a b → Same r b c → Same r a c
  | .token _, _, _, _, h, h' => fun t ht hid => h' t (h t ht hid) hid
  | .user _, _, _, _, _, _ | .assignment _, _, _, _, _, _ | .processed _, _, _, _, _, _ => trivial

/-! ## Committed states -/

/-- Token `s` replaced token `t`. -/
abbrev Rotated (db : Db) : RefreshToken → RefreshToken → Prop :=
  Table.Replaced RefreshToken.id RefreshToken.replacedById db.refreshTokens

/-- Token `s` descends from token `t` by rotation. -/
abbrev Descends (db : Db) : RefreshToken → RefreshToken → Prop :=
  Table.Follows RefreshToken.id RefreshToken.replacedById db.refreshTokens

/-- The states between transactions. -/
structure Linked (db : Db) : Prop where
  checked : db.violated = none
  succession : Table.Succession RefreshToken.id RefreshToken.replacedById db.refreshTokens
  revoked : ∀ t ∈ db.refreshTokens, t.replacedById ≠ none → t.isRevoked
  owner : ∀ t s, Rotated db t s → s.userId = t.userId

theorem linked_empty : Linked Db.empty where
  checked := by decide
  succession := Table.succession_nil
  revoked := fun _ ht => absurd ht List.not_mem_nil
  owner := fun _ _ h => absurd h.1 List.not_mem_nil

theorem Linked.unique {db : Db} (h : Linked db) : db.Unique := Db.unique_of_violated h.checked

theorem Linked.eq_of_id {db : Db} (h : Linked db) {t t' : RefreshToken} (ht : t ∈ db.refreshTokens)
    (ht' : t' ∈ db.refreshTokens) (hid : t.id = t'.id) : t = t' :=
  h.unique.tokens.eq_of_key ht ht' hid

/-! ## What commits do -/

/-- A rewrite that revokes rows in place, and only rows that are locked. -/
def Revises (held : Row → Prop) (f : RefreshToken → RefreshToken) : Prop :=
  ∀ t, f t = t ∨ held (.token t.id) ∧ ∃ now, f t = t.revoke now

theorem Revises.id (held : Row → Prop) : Revises held id := fun _ => Or.inl rfl

theorem Revises.mono {held held' : Row → Prop} {f : RefreshToken → RefreshToken}
    (h : Revises held f) (hheld : ∀ r, held r → held' r) : Revises held' f :=
  fun t => (h t).imp_right fun ⟨hl, hn⟩ => ⟨hheld _ hl, hn⟩

theorem Revises.grows {held : Row → Prop} {f : RefreshToken → RefreshToken} (h : Revises held f)
    (t : RefreshToken) : t.Grows (f t) := by
  rcases h t with heq | ⟨-, now, heq⟩
  · rw [heq]
    exact .refl t
  · rw [heq]
    exact t.grows_revoke now

theorem Revises.replaced {held : Row → Prop} {f : RefreshToken → RefreshToken} (h : Revises held f)
    (t : RefreshToken) : (f t).replacedById = t.replacedById := by
  rcases h t with heq | ⟨-, now, heq⟩
  · rw [heq]
  · rw [heq]
    rfl

/-- Revising twice is revising. -/
theorem Revises.comp {held : Row → Prop} {f g : RefreshToken → RefreshToken} (hg : Revises held g)
    (hf : Revises held f) : Revises held (g ∘ f) := by
  intro t
  have hid : (f t).id = t.id := (hf.grows t).id
  rcases hg (f t) with hsame | ⟨hheld, now, hrevoked⟩
  · rw [Function.comp_apply, hsame]
    exact hf t
  · refine Or.inr ⟨hid ▸ hheld, now, ?_⟩
    rw [Function.comp_apply, hrevoked]
    rcases hf t with heq | ⟨-, _, heq⟩
    · rw [heq]
    · rw [heq]
      rfl

/-- Tokens were revoked in place. -/
def Revised (held : Row → Prop) (db db' : Db) : Prop :=
  ∃ f, Revises held f ∧ db'.refreshTokens = db.refreshTokens.map f

/-- A new token that has been neither revoked nor replaced. -/
structure Fresh (tokenHash userId : Nat) (s : RefreshToken) : Prop where
  hash : s.tokenHash = tokenHash
  user : s.userId = userId
  revoked : s.revokedAt = none
  replaced : s.replacedById = none

/-- A login stored a token with hash `tokenHash`. -/
def Issued (tokenHash : Nat) (db db' : Db) : Prop :=
  ∃ s, Fresh tokenHash s.userId s ∧ db'.refreshTokens = db.refreshTokens ++ [s]

/-- The rewrite of an exchange of token `r` for `s`. -/
def rotateTo (r s : RefreshToken) (now : Nat) (t : RefreshToken) : RefreshToken :=
  if t.id = r.id then t.rotate now s.id else t

/-- A refresh exchanged the token with hash `presented`, which was not revoked, for a new one. -/
def Exchanged (presented issued : Nat) (db db' : Db) : Prop :=
  ∃ r s now, r ∈ db.refreshTokens ∧ r.tokenHash = presented ∧ r.revokedAt = none ∧
    Fresh issued r.userId s ∧ db'.refreshTokens = db.refreshTokens.map (rotateTo r s now) ++ [s]

/-- The token a refresh presents. -/
def Presents (security : Security) : Operation → RefreshToken → Prop
  | .refresh rawToken _, t => t.tokenHash = security.hashToken rawToken
  | _, _ => False

/-- An operation that commits with the given answer in the state `db` revokes the sessions of a
user. -/
inductive Revokes (security : Security) (db : Db) : Operation → Outcome → Nat → Prop
  | logoutAll (principal : Principal) (answer : Outcome) :
      Revokes security db (.logout principal none) answer principal.userId
  | changePassword (principal : Principal) (payload : PasswordChange) (answer : Outcome) :
      Revokes security db (.changePassword principal payload) answer principal.userId
  | changeRole (principal : Principal) (userId : Nat) (payload : UserRoleUpdate)
      (answer : Outcome) : Revokes security db (.changeRole principal userId payload) answer userId
  | changeStatus (principal : Principal) (userId : Nat) (payload : UserStatusUpdate)
      (answer : Outcome) (inactive : payload.status ≠ .active) :
      Revokes security db (.changeStatus principal userId payload) answer userId
  | delete (principal : Principal) (userId : Nat) (answer : Outcome) :
      Revokes security db (.deleteUser principal userId) answer userId
  /-- A refresh detected a replay. -/
  | replay (rawToken : Nat) (client : ClientInfo) (error : DomainError) (stored : RefreshToken)
      (found : stored ∈ db.refreshTokens)
      (presented : stored.tokenHash = security.hashToken rawToken) :
      Revokes security db (.refresh rawToken client) (.refused error) stored.userId

/-- The transaction locked every token of the user that its statement saw open, in the state `mid`,
and leaves every token row it has locked revoked. -/
def Swept (presented : RefreshToken → Prop) (userId : Nat) (opened : Db) (held : Row → Prop)
    (db db' : Db) : Prop :=
  (∃ mid, Linked mid ∧ Grows opened mid ∧ Grows mid db ∧
    (∀ t ∈ mid.refreshTokens, t.userId = userId → ¬ t.isRevoked → held (.token t.id)) ∧
    ∀ t ∈ mid.refreshTokens, presented t → t.isRevoked) ∧
  ∀ t ∈ db'.refreshTokens, t.userId = userId → held (.token t.id) → t.isRevoked

/-- The hash of the token a login answers. -/
def loginOf (security : Security) : Operation × Outcome → Option Nat
  | (.login _ _ _, .loggedIn tokens _) => some (security.hashToken tokens.refreshToken)
  | _ => none

/-- The exchange a refresh answers: the hash of the presented token, and that of the new one. -/
def exchangeOf (security : Security) : Operation × Outcome → Option (Nat × Nat)
  | (.refresh rawToken _, .refreshed tokens) =>
    some (security.hashToken rawToken, security.hashToken tokens.refreshToken)
  | _ => none

/-- What a commit does to the tokens. -/
structure Committed (security : Security) (op : Operation) (opened : Db) (held : Row → Prop)
    (answer : Outcome) (db db' : Db) : Prop where
  issued : ∀ tokenHash, loginOf security (op, answer) = some tokenHash → Issued tokenHash db db'
  exchanged : ∀ e, exchangeOf security (op, answer) = some e → Exchanged e.1 e.2 db db'
  revised : loginOf security (op, answer) = none → exchangeOf security (op, answer) = none →
    Revised held db db'
  swept : ∀ userId, Revokes security db op answer userId →
    Swept (Presents security op) userId opened held db db'

/-- The discipline of Identity's transactions. -/
def sessionProtocol (security : Security) : Discipline Db Row Failure Outcome Operation where
  inv := Linked
  same := Same
  grow := Grows
  lockFact := fun _ _ _ _ => True
  flushFact := fun _ _ => True
  post := fun op opened held answer _ db db' => Committed security op opened held answer db db'
  same_refl := Same.refl
  same_trans := Same.trans
  grow_refl := Grows.refl
  grow_trans := Grows.trans

/-! ## The guarantee of each effect -/

section Guarantees

variable {security : Security} {held : Row → Prop} {db db' : Db}

/-- Revoking locked rows in place keeps the protocol. -/
theorem guar_of_revises (h : Linked db) (hchecked : db'.violated = none)
    {f : RefreshToken → RefreshToken} (hf : Revises held f)
    (htokens : db'.refreshTokens = db.refreshTokens.map f) :
    (sessionProtocol security).Guar held db db' where
  inv := by
    refine ⟨hchecked, ?_, ?_, ?_⟩
    · rw [htokens]
      exact h.succession.map (fun t _ => (hf.grows t).id) fun t _ => hf.replaced t
    · intro t ht hnone
      rw [htokens] at ht
      obtain ⟨t₀, ht₀, rfl⟩ := List.mem_map.1 ht
      rw [hf.replaced] at hnone
      exact (hf.grows t₀).revoked (h.revoked t₀ ht₀ hnone)
    · rintro t s ⟨ht, hs, hnext⟩
      rw [htokens] at ht hs
      obtain ⟨t₀, ht₀, rfl⟩ := List.mem_map.1 ht
      obtain ⟨s₀, hs₀, rfl⟩ := List.mem_map.1 hs
      rw [hf.replaced, (hf.grows s₀).id] at hnext
      rw [(hf.grows t₀).user, (hf.grows s₀).user]
      exact h.owner t₀ s₀ ⟨ht₀, hs₀, hnext⟩
  grow := by
    intro t ht
    refine ⟨f t, ?_, hf.grows t⟩
    rw [htokens]
    exact List.mem_map_of_mem ht
  same := by
    intro r hr
    cases r with
    | token id =>
      rintro t ht rfl
      rw [htokens]
      refine List.mem_map.2 ⟨t, ht, ?_⟩
      exact (hf t).resolve_right fun hheld => hr hheld.1
    | _ => trivial

/-- Storing a new token keeps the protocol. -/
theorem guar_of_issued (h : Linked db) (hchecked : db'.violated = none) {s : RefreshToken}
    (hs : s.replacedById = none) (htokens : db'.refreshTokens = db.refreshTokens ++ [s]) :
    (sessionProtocol security).Guar held db db' where
  inv := by
    have hkeyed := (Db.unique_of_violated hchecked).tokens
    rw [htokens, Table.Keyed, List.map_append, List.nodup_append] at hkeyed
    have hfresh : ∀ t ∈ db.refreshTokens, t.id ≠ s.id := fun t ht =>
      hkeyed.2.2 _ (List.mem_map_of_mem ht) _ (by simp)
    refine ⟨hchecked, ?_, ?_, ?_⟩
    · rw [htokens]
      exact h.succession.snoc hfresh hs
    · intro t ht hnone
      rw [htokens] at ht
      rcases List.mem_append.1 ht with ht | ht
      · exact h.revoked t ht hnone
      · rw [List.mem_singleton.1 ht] at hnone
        exact absurd hs hnone
    · rintro t x ⟨ht, hx, hnext⟩
      rw [htokens] at ht hx
      rcases List.mem_append.1 ht with ht | ht
      · -- the new row is nobody's successor
        obtain ⟨y, hy, hyid⟩ := h.succession.found t ht _ hnext
        rcases List.mem_append.1 hx with hx | hx
        · exact h.owner t x ⟨ht, hx, hnext⟩
        · rw [List.mem_singleton.1 hx] at hyid
          exact absurd hyid (hfresh y hy)
      · rw [List.mem_singleton.1 ht, hs] at hnext
        cases hnext
  grow := by
    intro t ht
    refine ⟨t, ?_, .refl t⟩
    rw [htokens]
    exact List.mem_append_left _ ht
  same := by
    intro r _
    cases r with
    | token id =>
      intro t ht _
      rw [htokens]
      exact List.mem_append_left _ ht
    | _ => trivial

@[simp] theorem rotateTo_id (r s : RefreshToken) (now : Nat) (t : RefreshToken) :
    (rotateTo r s now t).id = t.id := by
  unfold rotateTo
  split <;> rfl

@[simp] theorem rotateTo_userId (r s : RefreshToken) (now : Nat) (t : RefreshToken) :
    (rotateTo r s now t).userId = t.userId := by
  unfold rotateTo
  split <;> rfl

@[simp] theorem rotateTo_tokenHash (r s : RefreshToken) (now : Nat) (t : RefreshToken) :
    (rotateTo r s now t).tokenHash = t.tokenHash := by
  unfold rotateTo
  split <;> rfl

theorem rotateTo_self (r s : RefreshToken) (now : Nat) : rotateTo r s now r = r.rotate now s.id :=
  if_pos rfl

theorem rotateTo_of_ne {r s t : RefreshToken} {now : Nat} (h : t.id ≠ r.id) :
    rotateTo r s now t = t := if_neg h

/-- An exchange of a locked token keeps the protocol. -/
theorem guar_of_exchange (h : Linked db) (hchecked : db'.violated = none) {r s : RefreshToken}
    {now : Nat} (hr : r ∈ db.refreshTokens) (hopen : r.revokedAt = none)
    (hheld : held (.token r.id)) (hs : s.replacedById = none) (huser : s.userId = r.userId)
    (htokens : db'.refreshTokens = db.refreshTokens.map (rotateTo r s now) ++ [s]) :
    (sessionProtocol security).Guar held db db' where
  inv := by
    have hkeyed := (Db.unique_of_violated hchecked).tokens
    rw [htokens, Table.Keyed, List.map_append, List.nodup_append] at hkeyed
    have hfresh : ∀ t ∈ db.refreshTokens, t.id ≠ s.id := by
      intro t ht
      refine hkeyed.2.2 _ ?_ _ (by simp)
      rw [← rotateTo_id r s now t]
      exact List.mem_map_of_mem (List.mem_map_of_mem ht)
    have hother : ∀ t ∈ db.refreshTokens, t ≠ r → rotateTo r s now t = t := fun t ht hne =>
      rotateTo_of_ne fun hid => hne (h.eq_of_id ht hr hid)
    refine ⟨hchecked, ?_, ?_, ?_⟩
    · rw [htokens]
      refine h.succession.replace hr hfresh hs (fun t _ => rotateTo_id r s now t) ?_ ?_
      · rw [rotateTo_self]
        rfl
      · intro t ht hne
        rw [hother t ht hne]
    · intro t ht hnone
      rw [htokens] at ht
      rcases List.mem_append.1 ht with ht | ht
      · obtain ⟨t₀, ht₀, rfl⟩ := List.mem_map.1 ht
        by_cases hid : t₀ = r
        · rw [hid, rotateTo_self]
          rfl
        · rw [hother t₀ ht₀ hid] at hnone ⊢
          exact h.revoked t₀ ht₀ hnone
      · rw [List.mem_singleton.1 ht] at hnone
        exact absurd hs hnone
    · rintro t x ⟨ht, hx, hnext⟩
      rw [htokens] at ht hx
      rcases List.mem_append.1 ht with ht | ht
      · obtain ⟨t₀, ht₀, rfl⟩ := List.mem_map.1 ht
        rw [rotateTo_userId]
        by_cases hid : t₀ = r
        · -- the successor of the presented token is the new one
          rw [hid, rotateTo_self] at hnext
          have hxs : s.id = x.id := Option.some.inj hnext
          rcases List.mem_append.1 hx with hx | hx
          · obtain ⟨x₀, hx₀, rfl⟩ := List.mem_map.1 hx
            rw [rotateTo_id] at hxs
            exact absurd hxs.symm (hfresh x₀ hx₀)
          · rw [List.mem_singleton.1 hx, hid]
            exact huser
        · rw [hother t₀ ht₀ hid] at hnext
          rcases List.mem_append.1 hx with hx | hx
          · obtain ⟨x₀, hx₀, rfl⟩ := List.mem_map.1 hx
            rw [rotateTo_id] at hnext
            rw [rotateTo_userId]
            exact h.owner t₀ x₀ ⟨ht₀, hx₀, hnext⟩
          · obtain ⟨y, hy, hyid⟩ := h.succession.found t₀ ht₀ _ hnext
            rw [List.mem_singleton.1 hx] at hyid
            exact absurd hyid (hfresh y hy)
      · rw [List.mem_singleton.1 ht, hs] at hnext
        cases hnext
  grow := by
    intro t ht
    refine ⟨rotateTo r s now t, ?_, ?_⟩
    · rw [htokens]
      exact List.mem_append_left _ (List.mem_map_of_mem ht)
    · by_cases hid : t.id = r.id
      · -- the presented token was open, so it had not been replaced
        obtain rfl := h.eq_of_id ht hr hid
        rw [rotateTo_self]
        have hnone : t.replacedById = none := by
          cases hnext : t.replacedById with
          | none => rfl
          | some k =>
            have hrev := h.revoked t ht (by rw [hnext]; exact Option.some_ne_none k)
            rw [RefreshToken.isRevoked, hopen] at hrev
            cases hrev
        refine ⟨rfl, rfl, rfl, fun _ => rfl, Or.inr ⟨hnone, ?_⟩⟩
        rw [RefreshToken.isRevoked, hopen]
        exact Bool.false_ne_true
      · rw [rotateTo_of_ne hid]
        exact .refl t
  same := by
    intro row hrow
    cases row with
    | token id =>
      rintro t ht rfl
      rw [htokens]
      refine List.mem_append_left _ (List.mem_map.2 ⟨t, ht, ?_⟩)
      exact rotateTo_of_ne fun hid => hrow (hid ▸ hheld)
    | _ => trivial

end Guarantees

end SmartLogistics.Identity
