import SmartLogistics.Platform.Idempotency

/-!
# Leases

`claim` leases a key to a request: until the lease has lapsed or the key has expired, no other
request is granted the key. After that another one may take the claim over, but `record` and
`release` name the claim row by its id only, so the request that lost it can still complete it or
drop it.

An observer notes which call was granted each key last (`Leases`). `at_most_once_of_run`: along runs
in which each request that commits, or drops an unfinished claim row, does so within its lease or
before anyone else is granted its key (`InLease`), no effect is committed before the expiry of an
earlier effect of its key. `not_at_most_once_after_takeover`: a request whose lease was taken over
commits too.
-/

set_option autoImplicit false

namespace SmartLogistics.Platform

open SmartLogistics.Library IdempotentState

variable {Work Body : Type}

/-- The call that was granted a key last, by owner and key, and how long each call's claim is
leased. -/
structure Leases where
  holder : String → String → Option Nat
  leasedUntil : Nat → Nat

namespace Leases

/-- No row has been claimed. -/
def empty : Leases where
  holder := fun _ _ => none
  leasedUntil := fun _ => 0

/-- Call `t` is granted a claim that is leased until `until_`. -/
def grant (leases : Leases) (t : Nat) (claim : Claim) (until_ : Nat) : Leases where
  holder := fun owner key =>
    if claim.owner = owner ∧ claim.key = key then some t else leases.holder owner key
  leasedUntil := Function.update leases.leasedUntil t until_

/-- A call that has become granted by a step of its own has claimed its key with the clock reading
it had. -/
def observeCall (store : IdempotencyStore) (s s' : IdempotentState Work Body) (t : Nat)
    (leases : Leases) : Leases :=
  match (s.calls t).bind Call.now?, s'.calls t with
  | some now, some (.granted grant _) => leases.grant t grant.claim (now + store.lease)
  | _, _ => leases

/-- What a step that leads to `s'` shows of the leases. -/
def observe (store : IdempotencyStore) (s : IdempotentState Work Body) :
    IdempotentLabel Work Body → IdempotentState Work Body → Leases → Leases
  | .insert t, s', leases => leases.observeCall store s s' t
  | .select t, s', leases => leases.observeCall store s s' t
  | _, _, leases => leases

/-- The lease of call `t` has not lapsed and its key has not expired, or the call was granted the
key last. -/
def Has (leases : Leases) (clock t : Nat) (grant : Grant) : Prop :=
  clock < leases.leasedUntil t ∧ clock < grant.expiresAt ∨
    leases.holder grant.claim.owner grant.claim.key = some t

instance (leases : Leases) (clock t : Nat) (grant : Grant) :
    Decidable (leases.Has clock t grant) :=
  inferInstanceAs (Decidable (_ ∨ _))

end Leases

/-- The calls of a store with the observer of their leases. -/
def IdempotencyStore.leased (store : IdempotencyStore) :
    Machine (IdempotentState Work Body × Leases) (IdempotentLabel Work Body) :=
  store.idempotent.observed (Leases.observe store)

/-- A request that commits has its claim, and so has one that drops an unfinished claim row. -/
def InLease (x : IdempotentState Work Body × Leases) : IdempotentLabel Work Body → Prop
  | .commit t _ =>
    match x.1.calls t with
    | some (.recorded grant _ _ _ _) => x.2.Has x.1.clock t grant
    | _ => True
  | .release t =>
    match x.1.calls t with
    | some (.failed grant) => (∃ row ∈ x.1.keys, row.id = grant.claim.id ∧ row.completedAt = none) →
      x.2.Has x.1.clock t grant
    | _ => True
  | _ => True

instance (x : IdempotentState Work Body × Leases) (l : IdempotentLabel Work Body) :
    Decidable (InLease x l) := by
  unfold InLease
  split
  · split <;> infer_instance
  · split <;> infer_instance
  · infer_instance

/-! ## What the last holder of a key finds -/

/-- The claim row is as the call left it: leased to the call and incomplete, or completed by a call
that does not know; or the key has expired and has no row any more. -/
def Leases.Kept (leases : Leases) (s : IdempotentState Work Body) (t : Nat) (grant : Grant) :
    Prop :=
  (∃ row ∈ s.keys, row.id = grant.claim.id ∧ row.expiresAt = grant.expiresAt ∧
    (row.lockedUntil = some (leases.leasedUntil t) ∧ row.completedAt = none ∨
      row.completedAt ≠ none ∧ s.calls t = some (.failed grant))) ∨
  grant.expiresAt ≤ s.clock ∧
    ∀ row ∈ s.keys, row.isFor grant.claim.owner grant.claim.key = false

/-- The invariant of call `t` with its grant. -/
structure Leases.Holds (leases : Leases) (s : IdempotentState Work Body) (t : Nat)
    (grant : Grant) : Prop where
  /-- Within the lease nobody else is granted the key. -/
  last : s.clock < leases.leasedUntil t → s.clock < grant.expiresAt →
    leases.holder grant.claim.owner grant.claim.key = some t
  kept : leases.holder grant.claim.owner grant.claim.key = some t → leases.Kept s t grant

/-- The invariant of the runs. -/
structure Leased (x : IdempotentState Work Body × Leases) : Prop where
  claimed : Claimed x.1
  holds : ∀ t grant, (x.1.calls t).bind Call.grant? = some grant → x.2.Holds x.1 t grant

theorem leased_empty : Leased ((IdempotentState.empty, .empty) : IdempotentState Work Body × Leases)
    where
  claimed := claimed_empty
  holds := fun _ _ h => by cases h

theorem calls_setCall_of_ne {s : IdempotentState Work Body} {t u : Nat}
    {call : Option (Call Work Body)} (hut : u ≠ t) : (s.setCall t call).calls u = s.calls u :=
  Function.update_of_ne hut ..

theorem calls_setCall_self {s : IdempotentState Work Body} {t : Nat}
    {call : Option (Call Work Body)} : (s.setCall t call).calls t = call :=
  Function.update_self ..

section Steps

variable {store : IdempotencyStore} {s s' : IdempotentState Work Body} {leases leases' : Leases}
  {l : IdempotentLabel Work Body} {t u : Nat} {grant : Grant}

/-- A call that has its claim was granted the key last. -/
theorem Leased.holder (h : Leased (s, leases))
    (hgrant : (s.calls t).bind Call.grant? = some grant) (hhas : leases.Has s.clock t grant) :
    leases.holder grant.claim.owner grant.claim.key = some t := by
  rcases hhas with ⟨hlease, hlive⟩ | hholder
  · exact (h.holds t grant hgrant).last hlease hlive
  · exact hholder

/-- A commit within the lease finds the claim row there, and the key not completed. -/
theorem Leased.stillClaimed (h : Leased (s, leases)) (hok : InLease (s, leases) l) :
    StillClaimed s l := by
  cases l with
  | commit t lost =>
    simp only [StillClaimed]
    split
    · rename_i grant statusCode work body completedAt hcall
      simp only [InLease, hcall] at hok
      have hgrant : (s.calls t).bind Call.grant? = some grant := by rw [hcall]; rfl
      rcases (h.holds t grant hgrant).kept (h.holder hgrant hok) with
        ⟨row, hrow, hid, -, hstate⟩ | ⟨hexpired, hnone⟩
      · have hincomplete : row.completedAt = none := by
          rcases hstate with ⟨-, hincomplete⟩ | ⟨-, hfailed⟩
          · exact hincomplete
          · rw [hcall] at hfailed
            cases hfailed
        refine ⟨fun r hr hfor => Or.inl ?_, Or.inl ⟨row, hrow, hid⟩⟩
        -- the key has this row only
        have hmine := (h.claimed.granted t grant hgrant).2 row hrow hid
        rw [IdempotencyKey.isFor_iff] at hfor hmine
        have hsame : r = row := List.inj_on_of_nodup_map h.claimed.pairs hr hrow
          (Prod.ext (hfor.1.trans hmine.1.symm) (hfor.2.trans hmine.2.symm))
        exact hsame ▸ hincomplete
      · refine ⟨fun r hr hfor => ?_, Or.inr hexpired⟩
        rw [hnone r hr] at hfor
        cases hfor
    · trivial
  | _ => trivial

/-- The claim of a call is as it was if its row is, or if others have dropped rows of an expired
key only. -/
theorem Leases.Kept.carry (h : leases.Kept s t grant)
    (hlease : leases'.leasedUntil t = leases.leasedUntil t) (hclock : s.clock ≤ s'.clock)
    (hcall : ∀ g, s.calls t = some (.failed g) → s'.calls t = some (.failed g))
    (hkept : ∀ row ∈ s.keys, row.id = grant.claim.id → row.expiresAt = grant.expiresAt →
      row ∈ s'.keys ∨ grant.expiresAt ≤ s'.clock ∧
        ∀ row' ∈ s'.keys, row'.isFor grant.claim.owner grant.claim.key = false)
    (hnone : (∀ row ∈ s.keys, row.isFor grant.claim.owner grant.claim.key = false) →
      ∀ row' ∈ s'.keys, row'.isFor grant.claim.owner grant.claim.key = false) :
    leases'.Kept s' t grant := by
  rcases h with ⟨row, hrow, hid, hexpires, hstate⟩ | ⟨hexpired, hgone⟩
  · rcases hkept row hrow hid hexpires with hrow' | hgone
    · refine Or.inl ⟨row, hrow', hid, hexpires, ?_⟩
      rw [hlease]
      exact hstate.imp_right fun ⟨hdone, hfailed⟩ => ⟨hdone, hcall grant hfailed⟩
    · exact Or.inr hgone
  · exact Or.inr ⟨Nat.le_trans hexpired hclock, hnone hgone⟩

/-- A row stands for its own key only. -/
theorem Leased.isFor (h : Leased (s, leases)) (hgrant : (s.calls t).bind Call.grant? = some grant)
    {row : IdempotencyKey Body} (hrow : row ∈ s.keys) (hid : row.id = grant.claim.id) :
    row.isFor grant.claim.owner grant.claim.key = true :=
  (h.claimed.granted t grant hgrant).2 row hrow hid

/-! ## Steps that grant nothing -/

theorem Leases.observeCall_eq_self (h : ∀ now grant statusCode,
    (s.calls t).bind Call.now? = some now → s'.calls t ≠ some (.granted grant statusCode)) :
    leases.observeCall store s s' t = leases := by
  unfold observeCall
  split
  · rename_i now grant statusCode hnow hgranted
    exact absurd hgranted (h now grant statusCode hnow)
  · rfl

/-- A quiet step grants nothing. -/
theorem Quiet.observe {call : Option (Call Work Body)} (h : Quiet s s' t call) :
    leases.observe store s l s' = leases := by
  have hnone : ∀ u now grant statusCode, (s.calls u).bind Call.now? = some now →
      s'.calls u ≠ some (.granted grant statusCode) := by
    intro u now grant statusCode hnow hgranted
    -- the call would have had its grant while it was still claiming
    have hgrant : (s.calls u).bind Call.grant? = some grant := by
      rw [h.calls] at hgranted
      rcases update_option_eq_some hgranted with ⟨rfl, hcall⟩ | ⟨-, hcall⟩
      · exact h.grant grant (by rw [hcall]; rfl)
      · rw [hcall]
        rfl
    cases hcall : s.calls u with
    | none =>
      rw [hcall] at hnow
      cases hnow
    | some call =>
      rw [hcall] at hnow hgrant
      cases call with
      | claiming request started => cases hgrant
      | selecting request started => cases hgrant
      | _ => cases hnow
  cases l with
  | insert u => exact Leases.observeCall_eq_self (hnone u)
  | select u => exact Leases.observeCall_eq_self (hnone u)
  | _ => rfl

theorem Leased.next_quiet (h : Leased (s, leases)) {call : Option (Call Work Body)}
    (hq : Quiet s s' t call) {u : Nat} (hgrant : (s'.calls u).bind Call.grant? = some grant) :
    leases.Holds s' u grant := by
  have hbefore : (s.calls u).bind Call.grant? = some grant := by
    by_cases hut : u = t
    · subst hut
      rw [hq.calls, Function.update_self] at hgrant
      exact hq.grant grant hgrant
    · rwa [hq.calls, Function.update_of_ne hut] at hgrant
  have hholds := h.holds u grant hbefore
  refine ⟨fun hlease hlive => ?_, fun hholder => ?_⟩
  · rw [hq.clock] at hlease hlive
    exact hholds.last hlease hlive
  · refine (hholds.kept hholder).carry rfl (Nat.le_of_eq hq.clock.symm) (fun g hg => ?_)
      (fun row hrow _ _ => Or.inl ?_) fun hnone => ?_
    · by_cases hut : u = t
      · subst hut
        rw [hq.calls, Function.update_self, hq.failed g hg] at hgrant
        cases hgrant
      · rwa [hq.calls, Function.update_of_ne hut]
    · rwa [hq.keys]
    · rwa [hq.keys]

/-! ## Grants -/

/-- A grant to another call leaves a call what it has, if it is for another key or the call's claim
has lapsed. -/
theorem Leases.Holds.granted (h : leases.Holds s u grant) {claim : Claim} {until_ : Nat}
    (hut : u ≠ t) (hclock : s'.clock = s.clock)
    (hlapsed : claim.owner = grant.claim.owner ∧ claim.key = grant.claim.key →
      ¬ (s.clock < leases.leasedUntil u ∧ s.clock < grant.expiresAt))
    (hkept : ¬ (claim.owner = grant.claim.owner ∧ claim.key = grant.claim.key) →
      leases.Kept s u grant → (leases.grant t claim until_).Kept s' u grant) :
    (leases.grant t claim until_).Holds s' u grant := by
  have hlease : (leases.grant t claim until_).leasedUntil u = leases.leasedUntil u :=
    Function.update_of_ne hut _ _
  by_cases hkey : claim.owner = grant.claim.owner ∧ claim.key = grant.claim.key
  · refine ⟨fun hwithin hlive => ?_, fun hholder => ?_⟩
    · rw [hclock] at hwithin hlive
      rw [hlease] at hwithin
      exact absurd ⟨hwithin, hlive⟩ (hlapsed hkey)
    · simp only [Leases.grant, if_pos hkey, Option.some.injEq] at hholder
      exact absurd hholder.symm hut
  · have hholder : (leases.grant t claim until_).holder grant.claim.owner grant.claim.key =
        leases.holder grant.claim.owner grant.claim.key := if_neg hkey
    refine ⟨fun hwithin hlive => ?_, fun hlast => ?_⟩
    · rw [hclock] at hwithin hlive
      rw [hlease] at hwithin
      rw [hholder]
      exact h.last hwithin hlive
    · rw [hholder] at hlast
      exact hkept hkey (h.kept hlast)

/-- A claim that was just granted is kept. -/
theorem Leases.holds_grant (grant : Grant) {until_ : Nat} {row : IdempotencyKey Body}
    (hrow : row ∈ s'.keys) (hid : row.id = grant.claim.id)
    (hexpires : row.expiresAt = grant.expiresAt) (hlocked : row.lockedUntil = some until_)
    (hdone : row.completedAt = none) :
    (leases.grant t grant.claim until_).Holds s' t grant where
  last := fun _ _ => if_pos ⟨rfl, rfl⟩
  kept := fun _ => by
    refine Or.inl ⟨row, hrow, hid, hexpires, Or.inl ⟨?_, hdone⟩⟩
    have hleased : (leases.grant t grant.claim until_).leasedUntil t = until_ :=
      Function.update_self ..
    rw [hlocked, hleased]

theorem Leased.next_insert (h : Leased (s, leases)) {request : IdempotentRequest} {now : Nat}
    {keys : List (IdempotencyKey Body)}
    (hinsert : store.insertClaim request now s.nextId s.keys = some keys)
    (hs' : s' = { s with keys := keys, nextId := s.nextId + 1 }.setCall t
      (some (.granted ⟨⟨s.nextId, request.owner, request.key⟩, now + store.ttl⟩
        request.statusCode)))
    (hgrant : (s'.calls u).bind Call.grant? = some grant) :
    (leases.grant t ⟨s.nextId, request.owner, request.key⟩ (now + store.lease)).Holds s' u
      grant := by
  unfold IdempotencyStore.insertClaim at hinsert
  split at hinsert
  · cases hinsert
  rename_i hnone
  cases hinsert
  subst hs'
  by_cases hut : u = t
  · subst hut
    rw [calls_setCall_self] at hgrant
    cases hgrant
    exact Leases.holds_grant ⟨⟨s.nextId, request.owner, request.key⟩, now + store.ttl⟩
      (List.mem_append_right _ (List.mem_singleton_self _)) rfl rfl rfl rfl
  · rw [calls_setCall_of_ne hut] at hgrant
    refine (h.holds u grant hgrant).granted hut rfl (fun hkey ⟨hlease, hlive⟩ => ?_)
      fun hkey hkept => ?_
    · -- within the lease the key would have had a row
      rcases (h.holds u grant hgrant).kept ((h.holds u grant hgrant).last hlease hlive) with
        ⟨row, hrow, hid, -⟩ | ⟨hexpired, -⟩
      · have hfor := h.isFor hgrant hrow hid
        rw [← hkey.1, ← hkey.2] at hfor
        exact hnone (List.any_eq_true.2 ⟨row, hrow, hfor⟩)
      · exact absurd hlive (Nat.not_lt.2 hexpired)
    · refine hkept.carry (Function.update_of_ne hut _ _) (Nat.le_refl _) (fun g hg => ?_)
        (fun row hrow _ _ => Or.inl (List.mem_append_left _ hrow)) fun hgone row hrow => ?_
      · rwa [calls_setCall_of_ne hut]
      · rcases List.mem_append.1 hrow with hrow | hrow
        · exact hgone row hrow
        · rw [List.mem_singleton.1 hrow, Bool.eq_false_iff]
          exact fun hfor => hkey (IdempotencyKey.isFor_iff.1 hfor)

/-- A row that `claim` writes back is leased from then on and incomplete, and it had expired, or was
incomplete and not leased any more. -/
theorem claimRow_leases {request : IdempotentRequest} {now : Nat} {record row : IdempotencyKey Body}
    (h : store.claimRow request now record = .ok (.inr row)) :
    row.lockedUntil = some (now + store.lease) ∧ row.completedAt = none ∧
      (record.expiresAt ≤ now ∨ record.completedAt = none ∧
        ∀ until_, record.lockedUntil = some until_ → until_ ≤ now) := by
  unfold IdempotencyStore.claimRow at h
  split at h
  · rename_i hexpired
    cases h
    exact ⟨rfl, rfl, Or.inl hexpired⟩
  split at h
  · cases h
  split at h
  · cases h
  rename_i hincomplete
  split at h
  · cases h
  rename_i hlapsed
  cases h
  have hnone : record.completedAt = none := by
    simpa [IdempotencyKey.isComplete] using hincomplete
  refine ⟨rfl, hnone, Or.inr ⟨hnone, fun until_ huntil => ?_⟩⟩
  rw [huntil] at hlapsed
  simpa using hlapsed

theorem Leased.next_claim (h : Leased (s, leases)) {request : IdempotentRequest} {now : Nat}
    {record row : IdempotencyKey Body} (hnow : now ≤ s.clock)
    (hfind : s.keys.find? (IdempotencyKey.isFor request.owner request.key) = some record)
    (hrow : store.claimRow request now record = .ok (.inr row))
    (hs' : s' = { s with keys := writeKey row s.keys }.setCall t
      (some (.granted ⟨⟨record.id, request.owner, request.key⟩, row.expiresAt⟩
        request.statusCode)))
    (hgrant : (s'.calls u).bind Call.grant? = some grant) :
    (leases.grant t ⟨record.id, request.owner, request.key⟩ (now + store.lease)).Holds s' u
      grant := by
  have hrecord : record ∈ s.keys := List.mem_of_find?_eq_some hfind
  have hfor : record.isFor request.owner request.key = true := List.find?_some hfind
  obtain ⟨hid, howner, hkeyOf, -⟩ := claimRow_eq_claim hrow
  obtain ⟨hlocked, hdone, hfree⟩ := claimRow_leases hrow
  have hwritten : ∀ r, r.id ≠ record.id → (if r.id = row.id then row else r) = r :=
    fun r hr => if_neg (hid ▸ hr)
  subst hs'
  by_cases hut : u = t
  · subst hut
    rw [calls_setCall_self] at hgrant
    cases hgrant
    have hmem : row ∈ writeKey row s.keys := List.mem_map.2 ⟨record, hrecord, if_pos hid.symm⟩
    exact Leases.holds_grant ⟨⟨record.id, request.owner, request.key⟩, row.expiresAt⟩
      hmem hid rfl hlocked hdone
  · rw [calls_setCall_of_ne hut] at hgrant
    refine (h.holds u grant hgrant).granted hut rfl (fun hkey ⟨hlease, hlive⟩ => ?_)
      fun hkey hkept => ?_
    · -- within its lease the call's row is this one, and `claim` refuses it
      rcases (h.holds u grant hgrant).kept ((h.holds u grant hgrant).last hlease hlive) with
        ⟨mine, hmine, hmineId, hexpires, hstate⟩ | ⟨hexpired, -⟩
      · have hmineFor := IdempotencyKey.isFor_iff.1 (h.isFor hgrant hmine hmineId)
        have hrecordFor := IdempotencyKey.isFor_iff.1 hfor
        have hsame : mine = record := List.inj_on_of_nodup_map h.claimed.pairs hmine hrecord
          (Prod.ext (hmineFor.1.trans (hkey.1.symm.trans hrecordFor.1.symm))
            (hmineFor.2.trans (hkey.2.symm.trans hrecordFor.2.symm)))
        subst hsame
        rcases hfree with hexpired | ⟨hincomplete, hlapsed⟩
        · exact absurd hlive (Nat.not_lt.2 (hexpires ▸ hexpired.trans hnow))
        · rcases hstate with ⟨hleased, -⟩ | ⟨hcomplete, -⟩
          · exact absurd hlease (Nat.not_lt.2 ((hlapsed _ hleased).trans hnow))
          · exact hcomplete hincomplete
      · exact absurd hlive (Nat.not_lt.2 hexpired)
    · -- the claim is of another key's row
      have hother : ∀ r ∈ s.keys, r.isFor grant.claim.owner grant.claim.key = true →
          r.id ≠ record.id := by
        intro r hr hrFor hsame
        rw [h.claimed.ids.eq_of_key hr hrecord hsame] at hrFor
        have hrecordFor := IdempotencyKey.isFor_iff.1 hfor
        have hgrantFor := IdempotencyKey.isFor_iff.1 hrFor
        exact hkey ⟨hrecordFor.1.symm.trans hgrantFor.1, hrecordFor.2.symm.trans hgrantFor.2⟩
      refine hkept.carry (Function.update_of_ne hut _ _) (Nat.le_refl _) (fun g hg => ?_)
        (fun r hr hrId _ => Or.inl ?_) fun hgone r hr => ?_
      · rwa [calls_setCall_of_ne hut]
      · exact List.mem_map.2 ⟨r, hr, hwritten r (hother r hr (h.isFor hgrant hr hrId))⟩
      · obtain ⟨old, hold, rfl⟩ := List.mem_map.1 hr
        split
        · rename_i hsame
          have holdRecord := h.claimed.ids.eq_of_key hold hrecord (hsame.trans hid)
          have hgoneRecord := hgone record hrecord
          rwa [IdempotencyKey.isFor, howner, hkeyOf]
        · exact hgone old hold

/-! ## Steps that write a claim row -/

/-- A call that writes or drops its claim row, having been granted the key last, leaves the claims
of the others as they are. -/
theorem Leased.next_write (h : Leased (s, leases)) {mine : Grant} (hut : u ≠ t)
    (hmine : (s.calls t).bind Call.grant? = some mine)
    (hgrant : (s.calls u).bind Call.grant? = some grant) (hclock : s'.clock = s.clock)
    (hcall : s'.calls u = s.calls u)
    (hwrites : ∀ row ∈ s.keys, row ∈ s'.keys ∨ row.id = mine.claim.id ∧
      leases.holder mine.claim.owner mine.claim.key = some t)
    (hrows : ∀ row' ∈ s'.keys, ∃ row ∈ s.keys, row.owner = row'.owner ∧ row.key = row'.key) :
    leases.Holds s' u grant := by
  have hholds := h.holds u grant hgrant
  refine ⟨fun hlease hlive => ?_, fun hholder => ?_⟩
  · rw [hclock] at hlease hlive
    exact hholds.last hlease hlive
  · refine (hholds.kept hholder).carry rfl (Nat.le_of_eq hclock.symm) (fun g hg => hcall.trans hg)
      (fun row hrow hid _ => Or.inl ?_) fun hgone row' hrow' => ?_
    · rcases hwrites row hrow with hkept | ⟨hid', hlast⟩
      · exact hkept
      · -- both calls would have been granted the key last
        have hfor := IdempotencyKey.isFor_iff.1 (h.isFor hgrant hrow hid)
        have hfor' := IdempotencyKey.isFor_iff.1 (h.isFor hmine hrow hid')
        rw [← hfor'.1, ← hfor'.2, hfor.1, hfor.2, hholder] at hlast
        exact absurd (Option.some.inj hlast) hut
    · obtain ⟨row, hrow, howner, hkey⟩ := hrows row' hrow'
      have hnot := hgone row hrow
      rwa [IdempotencyKey.isFor, howner, hkey] at hnot

theorem Leased.next_commit (h : Leased (s, leases)) {lost : Bool} {mine : Grant}
    {statusCode completedAt : Nat} {work : Work} {body : Body}
    (hok : InLease (s, leases) (.commit t lost))
    (hcall : s.calls t = some (.recorded mine statusCode work body completedAt))
    (hs' : s' = ({ s with
      keys := recordResponse mine.claim statusCode body completedAt s.keys
      effects := s.effects ++ [s.effectOf t mine work] }.unlock t).setCall t
        (if lost then some (.failed mine) else none))
    (hgrant : (s'.calls u).bind Call.grant? = some grant) : leases.Holds s' u grant := by
  have hmine : (s.calls t).bind Call.grant? = some mine := by rw [hcall]; rfl
  simp only [InLease, hcall] at hok
  subst hs'
  by_cases hut : u = t
  · subst hut
    rw [calls_setCall_self] at hgrant
    cases lost with
    | false => cases hgrant
    | true =>
      cases hgrant
      -- the row is completed, and the call does not know
      have hholds := h.holds u grant hmine
      refine ⟨hholds.last, fun hholder => ?_⟩
      rcases hholds.kept hholder with ⟨row, hrow, hid, hexpires, -⟩ | ⟨hexpired, hgone⟩
      · refine Or.inl ⟨_, List.mem_map_of_mem hrow, ?_⟩
        rw [if_pos hid]
        exact ⟨hid, hexpires, Or.inr ⟨Option.some_ne_none _, Function.update_self ..⟩⟩
      · refine Or.inr ⟨hexpired, fun row' hrow' => ?_⟩
        obtain ⟨row, hrow, rfl⟩ := List.mem_map.1 hrow'
        have hnot := hgone row hrow
        split
        · exact hnot
        · exact hnot
  · rw [calls_setCall_of_ne hut] at hgrant
    refine h.next_write hut hmine hgrant rfl (calls_setCall_of_ne hut) (fun row hrow => ?_)
      fun row' hrow' => ?_
    · by_cases hid : row.id = mine.claim.id
      · exact Or.inr ⟨hid, h.holder hmine hok⟩
      · exact Or.inl (List.mem_map.2 ⟨row, hrow, if_neg hid⟩)
    · obtain ⟨row, hrow, rfl⟩ := List.mem_map.1 hrow'
      refine ⟨row, hrow, ?_⟩
      split <;> exact ⟨rfl, rfl⟩

theorem Leased.next_release (h : Leased (s, leases)) {mine : Grant}
    (hok : InLease (s, leases) (.release t)) (hcall : s.calls t = some (.failed mine))
    (hs' : s' = { s with keys := releaseClaim mine.claim s.keys }.setCall t none)
    (hgrant : (s'.calls u).bind Call.grant? = some grant) : leases.Holds s' u grant := by
  have hmine : (s.calls t).bind Call.grant? = some mine := by rw [hcall]; rfl
  simp only [InLease, hcall] at hok
  subst hs'
  by_cases hut : u = t
  · subst hut
    rw [calls_setCall_self] at hgrant
    cases hgrant
  · rw [calls_setCall_of_ne hut] at hgrant
    refine h.next_write hut hmine hgrant rfl (calls_setCall_of_ne hut) (fun row hrow => ?_)
      fun row' hrow' => ⟨row', List.mem_of_mem_filter hrow', rfl, rfl⟩
    by_cases hdropped : row.id = mine.claim.id ∧ row.completedAt = none
    · exact Or.inr ⟨hdropped.1, h.holder hmine (hok ⟨row, hrow, hdropped⟩)⟩
    · refine Or.inl (List.mem_filter.2 ⟨hrow, ?_⟩)
      rw [Bool.not_eq_true', Bool.eq_false_iff]
      simpa using hdropped

/-- A purge drops the rows of expired keys only. -/
theorem Leased.next_purge (h : Leased (s, leases))
    (hgrant : (s.calls u).bind Call.grant? = some grant) :
    leases.Holds { s with keys := purgeExpired s.clock s.keys } u grant := by
  have hholds := h.holds u grant hgrant
  refine ⟨hholds.last, fun hholder => ?_⟩
  refine (hholds.kept hholder).carry rfl (Nat.le_refl _) (fun g hg => hg)
    (fun row hrow hid hexpires => ?_)
    fun hgone row' hrow' => hgone row' (List.mem_of_mem_filter hrow')
  by_cases hlive : s.clock < row.expiresAt
  · exact Or.inl (List.mem_filter.2 ⟨hrow, by simpa using hlive⟩)
  · refine Or.inr ⟨hexpires ▸ Nat.le_of_not_lt hlive, fun row' hrow' => ?_⟩
    obtain ⟨hmem, hkept⟩ := List.mem_filter.1 hrow'
    rw [Bool.eq_false_iff]
    intro hfor
    -- the key has this row only, which is dropped
    rw [IdempotencyKey.isFor_iff] at hfor
    have hmine := IdempotencyKey.isFor_iff.1 (h.isFor hgrant hrow hid)
    have hsame : row' = row := List.inj_on_of_nodup_map h.claimed.pairs hmem hrow
      (Prod.ext (hfor.1.trans hmine.1.symm) (hfor.2.trans hmine.2.symm))
    rw [hsame] at hkept
    exact hlive (by simpa using hkept)

theorem Leased.next_tick (h : Leased (s, leases)) (n : Nat)
    (hgrant : (s.calls u).bind Call.grant? = some grant) :
    leases.Holds { s with clock := s.clock + n } u grant := by
  have hholds := h.holds u grant hgrant
  refine ⟨fun hlease hlive => ?_, fun hholder => ?_⟩
  · exact hholds.last (Nat.lt_of_le_of_lt (Nat.le_add_right _ _) hlease)
      (Nat.lt_of_le_of_lt (Nat.le_add_right _ _) hlive)
  · exact (hholds.kept hholder).carry rfl (Nat.le_add_right _ _) (fun g hg => hg)
      (fun row hrow _ _ => Or.inl hrow) fun hgone => hgone

/-- Every step keeps the invariant, if what it commits or drops is leased. -/
theorem Leased.next (h : Leased (s, leases)) (hok : InLease (s, leases) l)
    (hnext : store.next s l = some s') : Leased (s', leases.observe store s l s') := by
  refine ⟨h.claimed.next (h.stillClaimed hok) hnext, fun u grant hgrant => ?_⟩
  rcases store.next_cases hnext with ⟨t, call, hq⟩ |
    ⟨t, request, now, keys, rfl, hcall, hinsert, hs'⟩ |
    ⟨t, request, now, record, row, rfl, hcall, hfind, hrow, hs'⟩ |
    ⟨t, lost, mine, statusCode, work, body, completedAt, rfl, hcall, hs'⟩ |
    ⟨t, mine, rfl, hcall, hs'⟩ | ⟨rfl, rfl⟩ | ⟨n, rfl, rfl⟩
  · rw [hq.observe]
    exact h.next_quiet hq hgrant
  · have hobserve : leases.observe store s (.insert t) s' =
        leases.grant t ⟨s.nextId, request.owner, request.key⟩ (now + store.lease) := by
      subst hs'
      simp only [Leases.observe, Leases.observeCall, hcall, Option.bind_some, Call.now?, setCall,
        Function.update_self]
    rw [hobserve]
    exact h.next_insert hinsert hs' hgrant
  · have hobserve : leases.observe store s (.select t) s' =
        leases.grant t ⟨record.id, request.owner, request.key⟩ (now + store.lease) := by
      subst hs'
      simp only [Leases.observe, Leases.observeCall, hcall, Option.bind_some, Call.now?, setCall,
        Function.update_self]
    rw [hobserve]
    exact h.next_claim (h.claimed.past t now (by rw [hcall]; rfl)) hfind hrow hs' hgrant
  · exact h.next_commit hok hcall hs' hgrant
  · exact h.next_release hok hcall hs' hgrant
  · exact h.next_purge hgrant
  · exact h.next_tick n hgrant

end Steps

/-! ## Runs -/

/-- Along a run in which each request commits, or drops an unfinished claim row, within its lease or
before anyone else is granted its key, no effect is committed before the expiry of an earlier effect
of its key. -/
theorem at_most_once_of_run {store : IdempotencyStore} {s : IdempotentState Work Body}
    {leases : Leases}
    (h : store.leased.RunOf InLease (IdempotentState.empty, .empty) (s, leases)) :
    AtMostOnce s := by
  have hleased : Leased (s, leases) := by
    refine h.preserves (I := Leased) (fun x l y hx hok hnext => ?_) leased_empty
    obtain ⟨hnext, hnote⟩ := Machine.observed_next hnext
    have hy := Leased.next hx hok hnext
    rwa [← hnote] at hy
  exact hleased.claimed.once

/-- A call from its grant to its commit. -/
def finishCall (t work : Nat) : List (IdempotentLabel Nat String) :=
  [.act t (some (work, "body")), .record t, .commit t false]

/-- The pod of call 0 dies. Call 1 is refused within the lease of call 0, and call 2 takes the claim
over after it; its own lease has lapsed too when it commits, but nobody has been granted the key
since. Call 3 is answered with the stored response. -/
def orderlyTakeover : List (IdempotentLabel Nat String) :=
  [.start 0 createRequest, .insert 0, .die 0, .tick 30, .start 1 createRequest, .insert 1,
    .select 1, .tick 31, .start 2 createRequest, .insert 2, .select 2, .tick 90] ++
    finishCall 2 7 ++ [.start 3 createRequest, .insert 3, .select 3]

theorem at_most_once_after_orderly_takeover :
    ∃ (s : IdempotentState Nat String) (leases : Leases),
      IdempotencyStore.default.leased.RunOf InLease (IdempotentState.empty, .empty) (s, leases) ∧
      s.effects.map (fun e => (e.work, e.committedAt)) = [(7, 151)] ∧ AtMostOnce s := by
  have hrun : (IdempotencyStore.default.leased.execOf InLease
      ((IdempotentState.empty, .empty) : IdempotentState Nat String × Leases)
      orderlyTakeover).map (fun x => x.1.effects.map fun e => (e.work, e.committedAt)) =
        some [(7, 151)] := by
    decide +kernel
  obtain ⟨⟨s, leases⟩, hs, heffects⟩ := Option.map_eq_some_iff.1 hrun
  have hreach := Machine.runOf_of_execOf _ hs
  exact ⟨s, leases, hreach, heffects, at_most_once_of_run hreach⟩

/-- The first call is still running when its lease has lapsed; a second call takes the claim over
and commits, and then the first one commits. -/
def takeover : List (IdempotentLabel Nat String) :=
  [.start 0 createRequest, .insert 0, .tick 61, .start 1 createRequest, .insert 1, .select 1] ++
    finishCall 1 2 ++ finishCall 0 1

/-- Two executions of the action are committed a day before their key expires. -/
theorem not_at_most_once_after_takeover :
    ∃ s : IdempotentState Nat String,
      IdempotencyStore.default.idempotent.Run IdempotentState.empty s ∧
      s.effects.map (fun e => (e.work, e.committedAt, e.expiresAt)) =
        [(2, 61, 86400), (1, 61, 86400)] ∧ ¬ AtMostOnce s := by
  have hrun : (IdempotencyStore.default.idempotent.exec
      (IdempotentState.empty : IdempotentState Nat String) takeover).map
      (fun s => (s.effects.map (fun e => (e.work, e.committedAt, e.expiresAt)),
        decide (AtMostOnce s))) = some ([(2, 61, 86400), (1, 61, 86400)], false) := by
    decide +kernel
  obtain ⟨s, hs, heq⟩ := Option.map_eq_some_iff.1 hrun
  rw [Prod.mk.injEq, decide_eq_false_iff_not] at heq
  exact ⟨s, Machine.run_of_exec _ hs, heq.1, heq.2⟩

end SmartLogistics.Platform
