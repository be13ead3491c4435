import SmartLogistics.Library.Machine
import SmartLogistics.Library.Table
import SmartLogistics.Platform.Errors

/-!
# Replay-safe write requests

`IdempotencyStore` with its table `idempotency_keys`, statement by statement (`insertClaim`,
`claimRow`, `recordResponse`, `releaseClaim`, `purgeExpired`), and the machine of any number of
`run_idempotent` calls over it (`idempotent`). A call claims its key in a transaction of its own,
runs its action, stores the response and commits both together; after a failure it drops its claim.
Any call may be slow, fail or die between two steps.

`Claimed.next`: as long as each request that commits finds its claim row there and its key not
completed (`StillClaimed`), every effect's response is stored until it expires, and no effect is
committed before the expiry of an earlier effect of its key (`AtMostOnce`).
-/

set_option autoImplicit false

namespace SmartLogistics.Platform

open SmartLogistics.Library

/-! ## The table -/

/-- A claimed key and, once finished, the stored response. -/
structure IdempotencyKey (Body : Type) where
  id : Nat
  owner : String
  key : String
  endpoint : String
  requestHash : String
  responseStatus : Option Nat
  responseBody : Option Body
  lockedUntil : Option Nat
  completedAt : Option Nat
  expiresAt : Nat
  deriving DecidableEq, Repr

/-- `IdempotencyConflictError`: the same key was reused with a different request. -/
def idempotencyConflictError (message : String) : DomainError :=
  ⟨422, "idempotency_key_reuse", message⟩

/-- `RequestInProgressError`: an identical request is still being processed. -/
def requestInProgressError : DomainError :=
  ⟨409, "request_in_progress", "An identical request is still being processed. Retry shortly."⟩

/-- The row that a call has claimed, with its owner and key. -/
structure Claim where
  id : Nat
  owner : String
  key : String
  deriving DecidableEq, Repr

/-- The response that a call answers with again. -/
structure Replay (Body : Type) where
  statusCode : Nat
  body : Option Body
  deriving DecidableEq, Repr

/-- What a claim is asked for: `requestHash` is the hash of the request's body, and `statusCode` the
status its response will have. -/
structure IdempotentRequest where
  key : String
  owner : String
  endpoint : String
  requestHash : String
  statusCode : Nat
  deriving DecidableEq, Repr

/-- The store's two periods, in seconds: how long a key lives and how long a claim is leased. -/
structure IdempotencyStore where
  ttl : Nat
  lease : Nat

/-- The store with its default periods. -/
def IdempotencyStore.default : IdempotencyStore := ⟨24 * 60 * 60, 60⟩

variable {Body Work : Type}

namespace IdempotencyKey

/-- The response of the request is recorded. -/
def isComplete (record : IdempotencyKey Body) : Bool := record.completedAt.isSome

/-- The row is for this owner and key. -/
def isFor (owner key : String) (record : IdempotencyKey Body) : Bool :=
  record.owner == owner && record.key == key

end IdempotencyKey

namespace IdempotencyStore

variable (store : IdempotencyStore)

/-- `INSERT … ON CONFLICT DO NOTHING` of a claim: the new table, or `none` on a conflict. -/
def insertClaim (request : IdempotentRequest) (now id : Nat) (keys : List (IdempotencyKey Body)) :
    Option (List (IdempotencyKey Body)) :=
  if keys.any (IdempotencyKey.isFor request.owner request.key) then none
  else some (keys ++
    [{ id := id
       owner := request.owner
       key := request.key
       endpoint := request.endpoint
       requestHash := request.requestHash
       responseStatus := none
       responseBody := none
       lockedUntil := some (now + store.lease)
       completedAt := none
       expiresAt := now + store.ttl }])

/-- What `claim` makes of the row it locked: a claim with the row as it writes it back, the stored
response, or a refusal. -/
def claimRow (request : IdempotentRequest) (now : Nat) (record : IdempotencyKey Body) :
    Except DomainError (Replay Body ⊕ IdempotencyKey Body) :=
  if record.expiresAt ≤ now then
    -- expired: the key is free to be used afresh
    .ok (.inr { record with
      endpoint := request.endpoint
      requestHash := request.requestHash
      responseStatus := none
      responseBody := none
      completedAt := none
      lockedUntil := some (now + store.lease)
      expiresAt := now + store.ttl })
  else if record.endpoint != request.endpoint || record.requestHash != request.requestHash then
    .error (idempotencyConflictError
      "This Idempotency-Key was already used with a different request.")
  else if record.isComplete then
    .ok (.inl ⟨record.responseStatus.getD 200, record.responseBody⟩)
  else if record.lockedUntil.any fun until_ => decide (now < until_) then
    .error requestInProgressError
  else
    -- the pod holding the claim died without finishing: take it over
    .ok (.inr { record with lockedUntil := some (now + store.lease) })

end IdempotencyStore

/-- Write a locked row back. -/
def writeKey (row : IdempotencyKey Body) (keys : List (IdempotencyKey Body)) :
    List (IdempotencyKey Body) :=
  keys.map fun r => if r.id = row.id then row else r

/-- `record`: the response, stored in the claim row. -/
def recordResponse (claim : Claim) (statusCode : Nat) (body : Body) (now : Nat)
    (keys : List (IdempotencyKey Body)) : List (IdempotencyKey Body) :=
  keys.map fun r =>
    if r.id = claim.id then
      { r with
        responseStatus := some statusCode
        responseBody := some body
        completedAt := some now
        lockedUntil := none }
    else r

/-- `release`: drop an unfinished claim. -/
def releaseClaim (claim : Claim) (keys : List (IdempotencyKey Body)) :
    List (IdempotencyKey Body) :=
  keys.filter fun r => !(r.id == claim.id && r.completedAt.isNone)

/-- `purge_expired`: the rows past their expiry go. -/
def purgeExpired (now : Nat) (keys : List (IdempotencyKey Body)) : List (IdempotencyKey Body) :=
  keys.filter fun r => !decide (r.expiresAt ≤ now)

/-! ## Calls of `run_idempotent` -/

/-- A grant: the claim, and the expiry the key was given or had when it was claimed. -/
structure Grant where
  claim : Claim
  expiresAt : Nat
  deriving DecidableEq, Repr

/-- Where a call stands. `work` is what the action has flushed in the request's transaction. -/
inductive Call (Work Body : Type)
  /-- `claim` has read the clock and will insert. -/
  | claiming (request : IdempotentRequest) (now : Nat)
  /-- The insert met a conflict; `claim` will lock the row. -/
  | selecting (request : IdempotentRequest) (now : Nat)
  /-- The claim is granted; the action will run. -/
  | granted (grant : Grant) (statusCode : Nat)
  /-- The action has flushed. -/
  | acted (grant : Grant) (statusCode : Nat) (work : Work) (body : Body)
  /-- `record` has written the response; the commit is next. -/
  | recorded (grant : Grant) (statusCode : Nat) (work : Work) (body : Body) (completedAt : Nat)
  /-- Something raised and the session is rolled back; `release` is next. -/
  | failed (grant : Grant)

/-- The grant of a call that has one. -/
def Call.grant? : Call Work Body → Option Grant
  | .claiming _ _ => none
  | .selecting _ _ => none
  | .granted grant _ => some grant
  | .acted grant _ _ _ => some grant
  | .recorded grant _ _ _ _ => some grant
  | .failed grant => some grant

/-- The clock reading of a call that is still claiming. -/
def Call.now? : Call Work Body → Option Nat
  | .claiming _ now => some now
  | .selecting _ now => some now
  | _ => none

/-- An execution of an action whose effects are committed: when, and the expiry its key had. -/
structure Effect (Work : Type) where
  call : Nat
  work : Work
  owner : String
  key : String
  committedAt : Nat
  expiresAt : Nat
  deriving DecidableEq, Repr

/-- The clock, the table with its row locks, the open calls, and the effects committed so far. -/
structure IdempotentState (Work Body : Type) where
  clock : Nat
  nextId : Nat
  keys : List (IdempotencyKey Body)
  locks : Nat → Option Nat
  calls : Nat → Option (Call Work Body)
  effects : List (Effect Work)

/-- A scheduler choice. -/
inductive IdempotentLabel (Work Body : Type)
  | start (t : Nat) (request : IdempotentRequest)
  | insert (t : Nat)
  | select (t : Nat)
  /-- The action flushes its work and returns a body, or raises. -/
  | act (t : Nat) (result : Option (Work × Body))
  | record (t : Nat)
  /-- The commit; `lost` if the call sees an error although the database committed. -/
  | commit (t : Nat) (lost : Bool)
  /-- Something raises between the claim and the commit. -/
  | fail (t : Nat)
  | release (t : Nat)
  /-- The pod of the call dies. -/
  | die (t : Nat)
  | purge
  | tick (n : Nat)

namespace IdempotentState

/-- No row, and no call. -/
def empty : IdempotentState Work Body where
  clock := 0
  nextId := 0
  keys := []
  locks := fun _ => none
  calls := fun _ => none
  effects := []

/-- Another call has locked row `id`. -/
def blocked (s : IdempotentState Work Body) (t id : Nat) : Bool :=
  match s.locks id with
  | some u => u != t
  | none => false

/-- Call `t` set to `call`, or ended. -/
def setCall (s : IdempotentState Work Body) (t : Nat) (call : Option (Call Work Body)) :
    IdempotentState Work Body :=
  { s with calls := Function.update s.calls t call }

/-- The row locks of call `t` released. -/
def unlock (s : IdempotentState Work Body) (t : Nat) : IdempotentState Work Body :=
  { s with locks := fun id => if s.locks id = some t then none else s.locks id }

/-- The key's expiry when the call commits: that of the row `record` wrote, or, if it matched none,
the one the claim was granted. -/
def expiryOf (s : IdempotentState Work Body) (grant : Grant) : Nat :=
  ((Table.lookup IdempotencyKey.id s.keys grant.claim.id).map (·.expiresAt)).getD grant.expiresAt

/-- The effect call `t` commits now. -/
def effectOf (s : IdempotentState Work Body) (t : Nat) (grant : Grant) (work : Work) :
    Effect Work where
  call := t
  work := work
  owner := grant.claim.owner
  key := grant.claim.key
  committedAt := s.clock
  expiresAt := s.expiryOf grant

end IdempotentState

open IdempotentState

/-- One scheduler choice. A statement that needs a row another call has locked waits. -/
def IdempotencyStore.next (store : IdempotencyStore) (s : IdempotentState Work Body) :
    IdempotentLabel Work Body → Option (IdempotentState Work Body)
  | .start t request =>
    match s.calls t with
    | none => some (s.setCall t (some (.claiming request s.clock)))
    | some _ => none
  | .insert t =>
    match s.calls t with
    | some (.claiming request now) =>
      match store.insertClaim request now s.nextId s.keys with
      | some keys =>
        some ({ s with keys := keys, nextId := s.nextId + 1 }.setCall t
          (some (.granted ⟨⟨s.nextId, request.owner, request.key⟩, now + store.ttl⟩
            request.statusCode)))
      | none => some (s.setCall t (some (.selecting request now)))
    | _ => none
  | .select t =>
    match s.calls t with
    | some (.selecting request now) =>
      match s.keys.find? (IdempotencyKey.isFor request.owner request.key) with
      | none => some (s.setCall t none)
      | some record =>
        if s.blocked t record.id then none
        else
          match store.claimRow request now record with
          | .error _ => some (s.setCall t none)
          | .ok (.inl _) => some (s.setCall t none)
          | .ok (.inr row) =>
            some ({ s with keys := writeKey row s.keys }.setCall t
              (some (.granted ⟨⟨record.id, request.owner, request.key⟩, row.expiresAt⟩
                request.statusCode)))
    | _ => none
  | .act t result =>
    match s.calls t with
    | some (.granted grant statusCode) =>
      match result with
      | some (work, body) => some (s.setCall t (some (.acted grant statusCode work body)))
      | none => some (s.setCall t (some (.failed grant)))
    | _ => none
  | .record t =>
    match s.calls t with
    | some (.acted grant statusCode work body) =>
      if s.blocked t grant.claim.id then none
      else
        some ({ s with locks :=
            if s.keys.any fun r => r.id == grant.claim.id then
              Function.update s.locks grant.claim.id (some t)
            else s.locks }.setCall t (some (.recorded grant statusCode work body s.clock)))
    | _ => none
  | .commit t lost =>
    match s.calls t with
    | some (.recorded grant statusCode work body completedAt) =>
      some (({ s with
        keys := recordResponse grant.claim statusCode body completedAt s.keys
        effects := s.effects ++ [s.effectOf t grant work] }.unlock t).setCall t
          (if lost then some (.failed grant) else none))
    | _ => none
  | .fail t =>
    match s.calls t with
    | some (.granted grant _) => some (s.setCall t (some (.failed grant)))
    | some (.acted grant _ _ _) => some (s.setCall t (some (.failed grant)))
    | some (.recorded grant _ _ _ _) => some ((s.unlock t).setCall t (some (.failed grant)))
    | _ => none
  | .release t =>
    match s.calls t with
    | some (.failed grant) =>
      if s.keys.any (fun r => r.id == grant.claim.id && r.completedAt.isNone) &&
          s.blocked t grant.claim.id then none
      else some ({ s with keys := releaseClaim grant.claim s.keys }.setCall t none)
    | _ => none
  | .die t => (s.calls t).map fun _ => (s.unlock t).setCall t none
  | .purge =>
    if s.keys.any fun r => decide (r.expiresAt ≤ s.clock) && (s.locks r.id).isSome then none
    else some { s with keys := purgeExpired s.clock s.keys }
  | .tick n => some { s with clock := s.clock + n }

/-- All interleavings of the calls of a store. -/
def IdempotencyStore.idempotent (store : IdempotencyStore) :
    Machine (IdempotentState Work Body) (IdempotentLabel Work Body) := ⟨store.next⟩

/-! ## What a step can do -/

/-- What each step does, with its guards. -/
inductive IdempotencyStep (store : IdempotencyStore) (s : IdempotentState Work Body) :
    IdempotentLabel Work Body → IdempotentState Work Body → Prop
  | start {t : Nat} {request : IdempotentRequest} (hfree : s.calls t = none) :
      IdempotencyStep store s (.start t request) (s.setCall t (some (.claiming request s.clock)))
  | inserted {t now : Nat} {request : IdempotentRequest} {keys : List (IdempotencyKey Body)}
      (ht : s.calls t = some (.claiming request now))
      (hkeys : store.insertClaim request now s.nextId s.keys = some keys) :
      IdempotencyStep store s (.insert t)
        ({ s with keys := keys, nextId := s.nextId + 1 }.setCall t
          (some (.granted ⟨⟨s.nextId, request.owner, request.key⟩, now + store.ttl⟩
            request.statusCode)))
  | conflict {t now : Nat} {request : IdempotentRequest}
      (ht : s.calls t = some (.claiming request now))
      (hkeys : store.insertClaim request now s.nextId s.keys = none) :
      IdempotencyStep store s (.insert t) (s.setCall t (some (.selecting request now)))
  | missing {t now : Nat} {request : IdempotentRequest}
      (ht : s.calls t = some (.selecting request now))
      (hrow : s.keys.find? (IdempotencyKey.isFor request.owner request.key) = none) :
      IdempotencyStep store s (.select t) (s.setCall t none)
  | refused {t now : Nat} {request : IdempotentRequest} {record : IdempotencyKey Body}
      {error : DomainError} (ht : s.calls t = some (.selecting request now))
      (hrow : s.keys.find? (IdempotencyKey.isFor request.owner request.key) = some record)
      (hfree : s.blocked t record.id = false)
      (hclaim : store.claimRow request now record = .error error) :
      IdempotencyStep store s (.select t) (s.setCall t none)
  | replayed {t now : Nat} {request : IdempotentRequest} {record : IdempotencyKey Body}
      {replay : Replay Body} (ht : s.calls t = some (.selecting request now))
      (hrow : s.keys.find? (IdempotencyKey.isFor request.owner request.key) = some record)
      (hfree : s.blocked t record.id = false)
      (hclaim : store.claimRow request now record = .ok (.inl replay)) :
      IdempotencyStep store s (.select t) (s.setCall t none)
  | claimed {t now : Nat} {request : IdempotentRequest} {record row : IdempotencyKey Body}
      (ht : s.calls t = some (.selecting request now))
      (hrow : s.keys.find? (IdempotencyKey.isFor request.owner request.key) = some record)
      (hfree : s.blocked t record.id = false)
      (hclaim : store.claimRow request now record = .ok (.inr row)) :
      IdempotencyStep store s (.select t) ({ s with keys := writeKey row s.keys }.setCall t
        (some (.granted ⟨⟨record.id, request.owner, request.key⟩, row.expiresAt⟩
          request.statusCode)))
  | acted {t statusCode : Nat} {grant : Grant} {work : Work} {body : Body}
      (ht : s.calls t = some (.granted grant statusCode)) :
      IdempotencyStep store s (.act t (some (work, body)))
        (s.setCall t (some (.acted grant statusCode work body)))
  | raised {t statusCode : Nat} {grant : Grant}
    (ht : s.calls t = some (.granted grant statusCode)) :
      IdempotencyStep store s (.act t none) (s.setCall t (some (.failed grant)))
  | recorded {t statusCode : Nat} {grant : Grant} {work : Work} {body : Body}
      (ht : s.calls t = some (.acted grant statusCode work body))
      (hfree : s.blocked t grant.claim.id = false) : IdempotencyStep store s (.record t)
        ({ s with locks :=
          if s.keys.any fun r => r.id == grant.claim.id then
            Function.update s.locks grant.claim.id (some t)
          else s.locks }.setCall t (some (.recorded grant statusCode work body s.clock)))
  | committed {t statusCode completedAt : Nat} {lost : Bool} {grant : Grant} {work : Work}
      {body : Body} (ht : s.calls t = some (.recorded grant statusCode work body completedAt)) :
      IdempotencyStep store s (.commit t lost)
        (({ s with
          keys := recordResponse grant.claim statusCode body completedAt s.keys
          effects := s.effects ++ [s.effectOf t grant work] }.unlock t).setCall t
            (if lost then some (.failed grant) else none))
  | dropped {t : Nat} {call : Call Work Body} {grant : Grant} (ht : s.calls t = some call)
      (hcall : (∃ statusCode, call = .granted grant statusCode) ∨
        ∃ statusCode work body, call = .acted grant statusCode work body) :
      IdempotencyStep store s (.fail t) (s.setCall t (some (.failed grant)))
  | rolledBack {t statusCode completedAt : Nat} {grant : Grant} {work : Work} {body : Body}
      (ht : s.calls t = some (.recorded grant statusCode work body completedAt)) :
      IdempotencyStep store s (.fail t) ((s.unlock t).setCall t (some (.failed grant)))
  | released {t : Nat} {grant : Grant} (ht : s.calls t = some (.failed grant))
      (hfree : (s.keys.any (fun r => r.id == grant.claim.id && r.completedAt.isNone) &&
        s.blocked t grant.claim.id) = false) : IdempotencyStep store s (.release t)
        ({ s with keys := releaseClaim grant.claim s.keys }.setCall t none)
  | died {t : Nat} {call : Call Work Body} (ht : s.calls t = some call) :
      IdempotencyStep store s (.die t) ((s.unlock t).setCall t none)
  | purged (hfree : (s.keys.any fun r =>
        decide (r.expiresAt ≤ s.clock) && (s.locks r.id).isSome) = false) :
      IdempotencyStep store s .purge { s with keys := purgeExpired s.clock s.keys }
  | ticked {n : Nat} : IdempotencyStep store s (.tick n) { s with clock := s.clock + n }

theorem IdempotencyStore.step_of_next {store : IdempotencyStore} {s s' : IdempotentState Work Body}
    {l : IdempotentLabel Work Body} (h : store.next s l = some s') :
    IdempotencyStep store s l s' := by
  cases l with
  | start t request =>
    simp only [IdempotencyStore.next] at h
    split at h
    · rename_i hfree
      cases h
      exact .start hfree
    · cases h
  | insert t =>
    simp only [IdempotencyStore.next] at h
    split at h
    · rename_i request now ht
      split at h
      · rename_i keys hkeys
        cases h
        exact .inserted ht hkeys
      · rename_i hkeys
        cases h
        exact .conflict ht hkeys
    · cases h
  | select t =>
    simp only [IdempotencyStore.next] at h
    split at h
    · rename_i request now ht
      split at h
      · rename_i hrow
        cases h
        exact .missing ht hrow
      · rename_i record hrow
        split at h
        · cases h
        rename_i hfree
        rw [Bool.not_eq_true] at hfree
        split at h
        · rename_i error hclaim
          cases h
          exact .refused ht hrow hfree hclaim
        · rename_i replay hclaim
          cases h
          exact .replayed ht hrow hfree hclaim
        · rename_i row hclaim
          cases h
          exact .claimed ht hrow hfree hclaim
    · cases h
  | act t result =>
    simp only [IdempotencyStore.next] at h
    split at h
    · rename_i grant statusCode ht
      split at h
      · cases h
        exact .acted ht
      · cases h
        exact .raised ht
    · cases h
  | record t =>
    simp only [IdempotencyStore.next] at h
    split at h
    · rename_i grant statusCode work body ht
      split at h
      · cases h
      · rename_i hfree
        cases h
        exact .recorded ht (Bool.eq_false_iff.2 hfree)
    · cases h
  | commit t lost =>
    simp only [IdempotencyStore.next] at h
    split at h
    · rename_i grant statusCode work body completedAt ht
      cases h
      exact .committed ht
    · cases h
  | fail t =>
    simp only [IdempotencyStore.next] at h
    split at h
    · rename_i grant statusCode ht
      cases h
      exact .dropped ht (Or.inl ⟨statusCode, rfl⟩)
    · rename_i grant statusCode work body ht
      cases h
      exact .dropped ht (Or.inr ⟨statusCode, work, body, rfl⟩)
    · rename_i grant statusCode work body completedAt ht
      cases h
      exact .rolledBack ht
    · cases h
  | release t =>
    simp only [IdempotencyStore.next] at h
    split at h
    · rename_i grant ht
      split at h
      · cases h
      · rename_i hfree
        cases h
        exact .released ht (Bool.eq_false_iff.2 hfree)
    · cases h
  | die t =>
    simp only [IdempotencyStore.next, Option.map_eq_some_iff] at h
    obtain ⟨call, ht, rfl⟩ := h
    exact .died ht
  | purge =>
    simp only [IdempotencyStore.next] at h
    split at h
    · cases h
    · rename_i hfree
      cases h
      exact .purged (Bool.eq_false_iff.2 hfree)
  | tick n =>
    simp only [IdempotencyStore.next, Option.some.injEq] at h
    subst h
    exact .ticked

/-- A step that leaves the table alone: it moves one call on, which keeps the grant it has and takes
its clock reading from the clock. -/
structure Quiet (s s' : IdempotentState Work Body) (t : Nat) (call : Option (Call Work Body)) :
    Prop where
  clock : s'.clock = s.clock
  nextId : s'.nextId = s.nextId
  keys : s'.keys = s.keys
  effects : s'.effects = s.effects
  calls : s'.calls = Function.update s.calls t call
  grant : ∀ g, call.bind Call.grant? = some g → (s.calls t).bind Call.grant? = some g
  failed : ∀ g, s.calls t = some (.failed g) → call = none
  now : ∀ n, call.bind Call.now? = some n → n = s.clock ∨ (s.calls t).bind Call.now? = some n

/-- A call that ends leaves the table alone. -/
theorem quiet_end (s : IdempotentState Work Body) (t : Nat) : Quiet s (s.setCall t none) t none :=
  ⟨rfl, rfl, rfl, rfl, rfl, fun _ h => (nomatch h), fun _ _ => rfl, fun _ h => (nomatch h)⟩

/-- A step changes the table only by an insert, a claim of a row, a commit, a release or a purge. -/
theorem IdempotencyStore.next_cases {store : IdempotencyStore} {s s' : IdempotentState Work Body}
    {l : IdempotentLabel Work Body} (h : store.next s l = some s') :
    (∃ t call, Quiet s s' t call) ∨
    (∃ t request now keys, l = .insert t ∧ s.calls t = some (.claiming request now) ∧
      store.insertClaim request now s.nextId s.keys = some keys ∧
      s' = { s with keys := keys, nextId := s.nextId + 1 }.setCall t
        (some (.granted ⟨⟨s.nextId, request.owner, request.key⟩, now + store.ttl⟩
          request.statusCode))) ∨
    (∃ t request now record row, l = .select t ∧ s.calls t = some (.selecting request now) ∧
      s.keys.find? (IdempotencyKey.isFor request.owner request.key) = some record ∧
      store.claimRow request now record = .ok (.inr row) ∧
      s' = { s with keys := writeKey row s.keys }.setCall t
        (some (.granted ⟨⟨record.id, request.owner, request.key⟩, row.expiresAt⟩
          request.statusCode))) ∨
    (∃ t lost grant statusCode work body completedAt, l = .commit t lost ∧
      s.calls t = some (.recorded grant statusCode work body completedAt) ∧
      s' = ({ s with
        keys := recordResponse grant.claim statusCode body completedAt s.keys
        effects := s.effects ++ [s.effectOf t grant work] }.unlock t).setCall t
          (if lost then some (.failed grant) else none)) ∨
    (∃ t grant, l = .release t ∧ s.calls t = some (.failed grant) ∧
      s' = { s with keys := releaseClaim grant.claim s.keys }.setCall t none) ∨
    (l = .purge ∧ s' = { s with keys := purgeExpired s.clock s.keys }) ∨
    ∃ n, l = .tick n ∧ s' = { s with clock := s.clock + n } := by
  -- a call that moves on with its grant
  have hquiet : ∀ {t : Nat} {call : Call Work Body} {grant : Grant} {call' : Call Work Body}
      {s' : IdempotentState Work Body}, s.calls t = some call → call.grant? = some grant →
      (∀ g, call ≠ .failed g) → call'.grant? = some grant → call'.now? = none →
      s'.clock = s.clock → s'.nextId = s.nextId → s'.keys = s.keys → s'.effects = s.effects →
      s'.calls = Function.update s.calls t (some call') → Quiet s s' t (some call') := by
    intro t call grant call' s' ht hgrant hgoing hgrant' hnow hclock hid hkeys heffects hcalls
    refine ⟨hclock, hid, hkeys, heffects, hcalls, fun g hg => ?_, fun g hg => ?_, fun n hn => ?_⟩
    · rw [ht]
      exact hgrant.trans (hgrant'.symm.trans hg)
    · rw [ht] at hg
      exact absurd (Option.some.inj hg) (hgoing g)
    · exact absurd (hnow.symm.trans hn) (Option.some_ne_none n).symm
  cases store.step_of_next h with
  | @start t request hfree =>
    refine Or.inl ⟨t, some (.claiming request s.clock), rfl, rfl, rfl, rfl, rfl,
      fun _ h => (nomatch h), fun g hg => ?_, fun n hn => Or.inl (Option.some.inj hn).symm⟩
    rw [hfree] at hg
    cases hg
  | @inserted t now request keys ht hkeys =>
    exact Or.inr (Or.inl ⟨t, request, now, keys, rfl, ht, hkeys, rfl⟩)
  | @conflict t now request ht hkeys =>
    refine Or.inl ⟨t, some (.selecting request now), rfl, rfl, rfl, rfl, rfl,
      fun _ h => (nomatch h), fun g hg => ?_, fun n hn => Or.inr ?_⟩
    · rw [ht] at hg
      cases hg
    · rw [ht]
      exact hn
  | @missing t now request ht hrow => exact Or.inl ⟨t, none, quiet_end s t⟩
  | @refused t now request record error ht hrow hfree hclaim =>
    exact Or.inl ⟨t, none, quiet_end s t⟩
  | @replayed t now request record replay ht hrow hfree hclaim =>
    exact Or.inl ⟨t, none, quiet_end s t⟩
  | @claimed t now request record row ht hrow hfree hclaim =>
    exact Or.inr (Or.inr (Or.inl ⟨t, request, now, record, row, rfl, ht, hrow, hclaim, rfl⟩))
  | acted ht => exact Or.inl ⟨_, _, hquiet ht rfl nofun rfl rfl rfl rfl rfl rfl rfl⟩
  | raised ht => exact Or.inl ⟨_, _, hquiet ht rfl nofun rfl rfl rfl rfl rfl rfl rfl⟩
  | recorded ht hfree => exact Or.inl ⟨_, _, hquiet ht rfl nofun rfl rfl rfl rfl rfl rfl rfl⟩
  | @committed t statusCode completedAt lost grant work body ht =>
    exact Or.inr (Or.inr (Or.inr (Or.inl
      ⟨t, lost, grant, statusCode, work, body, completedAt, rfl, ht, rfl⟩)))
  | dropped ht hcall =>
    rcases hcall with ⟨_, rfl⟩ | ⟨_, _, _, rfl⟩
    · exact Or.inl ⟨_, _, hquiet ht rfl nofun rfl rfl rfl rfl rfl rfl rfl⟩
    · exact Or.inl ⟨_, _, hquiet ht rfl nofun rfl rfl rfl rfl rfl rfl rfl⟩
  | rolledBack ht => exact Or.inl ⟨_, _, hquiet ht rfl nofun rfl rfl rfl rfl rfl rfl rfl⟩
  | @released t grant ht hfree =>
    exact Or.inr (Or.inr (Or.inr (Or.inr (Or.inl ⟨t, grant, rfl, ht, rfl⟩))))
  | @died t call ht =>
    exact Or.inl ⟨t, none, rfl, rfl, rfl, rfl, rfl, fun _ h => (nomatch h), fun _ _ => rfl,
      fun _ h => (nomatch h)⟩
  | purged hfree => exact Or.inr (Or.inr (Or.inr (Or.inr (Or.inr (Or.inl ⟨rfl, rfl⟩)))))
  | @ticked n => exact Or.inr (Or.inr (Or.inr (Or.inr (Or.inr (Or.inr ⟨n, rfl, rfl⟩)))))

/-! ## At most one effect a key -/

/-- No effect is committed before the expiry of an earlier effect of its key. -/
def AtMostOnce (s : IdempotentState Work Body) : Prop :=
  s.effects.Pairwise fun e e' => e.owner = e'.owner → e.key = e'.key → e.expiresAt ≤ e'.committedAt

instance (s : IdempotentState Work Body) : Decidable (AtMostOnce s) :=
  inferInstanceAs (Decidable (List.Pairwise _ _))

/-- If the step is a commit, it finds the key not completed by another request, and its claim row
there; both up to expiry. -/
def StillClaimed (s : IdempotentState Work Body) : IdempotentLabel Work Body → Prop
  | .commit t _ =>
    match s.calls t with
    | some (.recorded grant _ _ _ _) =>
      (∀ row ∈ s.keys, row.isFor grant.claim.owner grant.claim.key = true →
        row.completedAt = none ∨ row.expiresAt ≤ s.clock) ∧
      ((∃ row ∈ s.keys, row.id = grant.claim.id) ∨ grant.expiresAt ≤ s.clock)
    | _ => True
  | _ => True

/-! ## What the table carries over -/

theorem IdempotencyKey.isFor_iff {owner key : String} {r : IdempotencyKey Body} :
    r.isFor owner key = true ↔ r.owner = owner ∧ r.key = key := by
  simp [IdempotencyKey.isFor]

/-- From one table to the next, ids and pairs stay unique, a row keeps its owner and key, and a
stored response stays until it expires. -/
structure Carries (clock nextId nextId' : Nat) (keys keys' : List (IdempotencyKey Body)) :
    Prop where
  ids : Table.Keyed IdempotencyKey.id keys'
  pairs : (keys'.map fun r => (r.owner, r.key)).Nodup
  fresh : ∀ row ∈ keys', row.id < nextId'
  owned : ∀ row' ∈ keys', nextId ≤ row'.id ∨
    ∃ row ∈ keys, row.id = row'.id ∧ row.owner = row'.owner ∧ row.key = row'.key
  kept : ∀ row ∈ keys, row.completedAt ≠ none → clock < row.expiresAt → ∃ row' ∈ keys',
    row'.isFor row.owner row.key = true ∧ row'.completedAt ≠ none ∧ row.expiresAt ≤ row'.expiresAt

section Tables

variable {keys : List (IdempotencyKey Body)} {clock nextId : Nat}

theorem carries_refl (hids : Table.Keyed IdempotencyKey.id keys)
    (hpairs : (keys.map fun r => (r.owner, r.key)).Nodup)
    (hfresh : ∀ row ∈ keys, row.id < nextId) : Carries clock nextId nextId keys keys where
  ids := hids
  pairs := hpairs
  fresh := hfresh
  owned := fun row hrow => Or.inr ⟨row, hrow, rfl, rfl, rfl⟩
  kept := fun row hrow hdone _ =>
    ⟨row, hrow, IdempotencyKey.isFor_iff.2 ⟨rfl, rfl⟩, hdone, Nat.le_refl _⟩

/-- An update of rows carries the table over, if it drops no stored response. -/
theorem carries_map {f : IdempotencyKey Body → IdempotencyKey Body}
    (hids : Table.Keyed IdempotencyKey.id keys)
    (hpairs : (keys.map fun r => (r.owner, r.key)).Nodup) (hfresh : ∀ row ∈ keys, row.id < nextId)
    (hf : ∀ row, (f row).id = row.id)
    (hfor : ∀ row ∈ keys, (f row).owner = row.owner ∧ (f row).key = row.key)
    (hkept : ∀ row ∈ keys, row.completedAt ≠ none → clock < row.expiresAt →
      (f row).completedAt ≠ none ∧ row.expiresAt ≤ (f row).expiresAt) :
    Carries clock nextId nextId keys (keys.map f) where
  ids := (Table.keyed_map hf).2 hids
  pairs := by
    have hsame : (keys.map f).map (fun r => (r.owner, r.key)) =
        keys.map fun r => (r.owner, r.key) := by
      rw [List.map_map]
      refine List.map_congr_left fun row hrow => ?_
      simp only [Function.comp_apply, (hfor row hrow).1, (hfor row hrow).2]
    rwa [hsame]
  fresh := by
    intro row' hrow'
    obtain ⟨row, hrow, rfl⟩ := List.mem_map.1 hrow'
    rw [hf]
    exact hfresh row hrow
  owned := by
    intro row' hrow'
    obtain ⟨row, hrow, rfl⟩ := List.mem_map.1 hrow'
    exact Or.inr ⟨row, hrow, (hf row).symm, (hfor row hrow).1.symm, (hfor row hrow).2.symm⟩
  kept := by
    intro row hrow hdone hlive
    exact ⟨f row, List.mem_map_of_mem hrow, IdempotencyKey.isFor_iff.2 (hfor row hrow),
      hkept row hrow hdone hlive⟩

/-- A delete of rows carries the table over, if it drops no stored response. -/
theorem carries_filter {p : IdempotencyKey Body → Bool} (hids : Table.Keyed IdempotencyKey.id keys)
    (hpairs : (keys.map fun r => (r.owner, r.key)).Nodup) (hfresh : ∀ row ∈ keys, row.id < nextId)
    (hkept : ∀ row ∈ keys, row.completedAt ≠ none → clock < row.expiresAt → p row = true) :
    Carries clock nextId nextId keys (keys.filter p) where
  ids := hids.sublist (List.filter_sublist.map IdempotencyKey.id)
  pairs := hpairs.sublist (List.filter_sublist.map _)
  fresh := fun row hrow => hfresh row (List.mem_of_mem_filter hrow)
  owned := fun row hrow => Or.inr ⟨row, List.mem_of_mem_filter hrow, rfl, rfl, rfl⟩
  kept := fun row hrow hdone hlive => ⟨row, List.mem_filter.2 ⟨hrow, hkept row hrow hdone hlive⟩,
    IdempotencyKey.isFor_iff.2 ⟨rfl, rfl⟩, hdone, Nat.le_refl _⟩

/-- A row after an insert was there before, or has the key asked for. -/
theorem mem_insertClaim {store : IdempotencyStore} {request : IdempotentRequest} {now : Nat}
    {keys' : List (IdempotencyKey Body)}
    (h : store.insertClaim request now nextId keys = some keys') {row : IdempotencyKey Body}
    (hrow : row ∈ keys') : row ∈ keys ∨ row.isFor request.owner request.key = true := by
  unfold IdempotencyStore.insertClaim at h
  split at h
  · cases h
  cases h
  rcases List.mem_append.1 hrow with hrow | hrow
  · exact Or.inl hrow
  · rw [List.mem_singleton.1 hrow]
    exact Or.inr (IdempotencyKey.isFor_iff.2 ⟨rfl, rfl⟩)

/-- An insert carries the table over. -/
theorem carries_insertClaim {store : IdempotencyStore} {request : IdempotentRequest} {now : Nat}
    {keys' : List (IdempotencyKey Body)} (hids : Table.Keyed IdempotencyKey.id keys)
    (hpairs : (keys.map fun r => (r.owner, r.key)).Nodup) (hfresh : ∀ row ∈ keys, row.id < nextId)
    (h : store.insertClaim request now nextId keys = some keys') :
    Carries clock nextId (nextId + 1) keys keys' := by
  unfold IdempotencyStore.insertClaim at h
  split at h
  · cases h
  rename_i hnone
  cases h
  constructor
  · rw [Table.Keyed, List.map_append, List.nodup_append]
    refine ⟨hids, List.nodup_singleton _, ?_⟩
    intro i hi j hj
    obtain ⟨row, hrow, rfl⟩ := List.mem_map.1 hi
    rw [List.mem_singleton.1 hj]
    exact Nat.ne_of_lt (hfresh row hrow)
  · rw [List.map_append, List.nodup_append]
    refine ⟨hpairs, List.nodup_singleton _, ?_⟩
    intro pair hpair pair' hpair' heq
    obtain ⟨row, hrow, rfl⟩ := List.mem_map.1 hpair
    rw [List.mem_singleton.1 hpair', Prod.mk.injEq] at heq
    -- the key had no row, or the insert would have met a conflict
    exact hnone (List.any_eq_true.2 ⟨row, hrow, IdempotencyKey.isFor_iff.2 heq⟩)
  · intro row hrow
    rcases List.mem_append.1 hrow with hrow | hrow
    · exact Nat.lt_succ_of_lt (hfresh row hrow)
    · rw [List.mem_singleton.1 hrow]
      exact Nat.lt_succ_self nextId
  · intro row hrow
    rcases List.mem_append.1 hrow with hrow | hrow
    · exact Or.inr ⟨row, hrow, rfl, rfl, rfl⟩
    · rw [List.mem_singleton.1 hrow]
      exact Or.inl (Nat.le_refl nextId)
  · intro row hrow hdone _
    exact ⟨row, List.mem_append_left _ hrow, IdempotencyKey.isFor_iff.2 ⟨rfl, rfl⟩, hdone,
      Nat.le_refl _⟩

/-- A row that `claim` writes back keeps its id, owner and key, and was incomplete or expired. -/
theorem claimRow_eq_claim {store : IdempotencyStore} {request : IdempotentRequest} {now : Nat}
    {record row : IdempotencyKey Body}
    (h : store.claimRow request now record = .ok (.inr row)) :
    row.id = record.id ∧ row.owner = record.owner ∧ row.key = record.key ∧
      (record.completedAt = none ∨ record.expiresAt ≤ now) := by
  unfold IdempotencyStore.claimRow at h
  split at h
  · rename_i hexpired
    cases h
    exact ⟨rfl, rfl, rfl, Or.inr hexpired⟩
  split at h
  · cases h
  split at h
  · cases h
  rename_i hincomplete
  split at h
  · cases h
  cases h
  refine ⟨rfl, rfl, rfl, Or.inl ?_⟩
  simpa [IdempotencyKey.isComplete] using hincomplete

theorem carries_claimRow {store : IdempotencyStore} {request : IdempotentRequest} {now : Nat}
    {record row : IdempotencyKey Body} (hids : Table.Keyed IdempotencyKey.id keys)
    (hpairs : (keys.map fun r => (r.owner, r.key)).Nodup) (hfresh : ∀ row ∈ keys, row.id < nextId)
    (hrecord : record ∈ keys) (hnow : now ≤ clock)
    (h : store.claimRow request now record = .ok (.inr row)) :
    Carries clock nextId nextId keys (writeKey row keys) := by
  obtain ⟨hid, howner, hkey, hfree⟩ := claimRow_eq_claim h
  have hthis : ∀ r ∈ keys, r.id = row.id → r = record := fun r hr heq =>
    hids.eq_of_key hr hrecord (heq.trans hid)
  refine carries_map hids hpairs hfresh (fun r => ?_) (fun r hr => ?_) (fun r hr hdone hlive => ?_)
  · split
    · rename_i heq
      exact heq.symm
    · rfl
  · split
    · rename_i heq
      rw [hthis r hr heq]
      exact ⟨howner, hkey⟩
    · exact ⟨rfl, rfl⟩
  · split
    · rename_i heq
      obtain rfl := hthis r hr heq
      -- the row stores no response, or one that has expired
      rcases hfree with hfree | hfree
      · exact absurd hfree hdone
      · omega
    · exact ⟨hdone, Nat.le_refl _⟩

theorem carries_recordResponse (hids : Table.Keyed IdempotencyKey.id keys)
    (hpairs : (keys.map fun r => (r.owner, r.key)).Nodup) (hfresh : ∀ row ∈ keys, row.id < nextId)
    (claim : Claim) (statusCode : Nat) (body : Body) (now : Nat) :
    Carries clock nextId nextId keys (recordResponse claim statusCode body now keys) := by
  refine carries_map hids hpairs hfresh (fun r => ?_) (fun r _ => ?_) (fun r _ hdone _ => ?_)
  · split <;> rfl
  · split <;> exact ⟨rfl, rfl⟩
  · split
    · exact ⟨Option.some_ne_none _, Nat.le_refl _⟩
    · exact ⟨hdone, Nat.le_refl _⟩

end Tables

/-! ## The invariant -/

/-- The table is keyed, claims name rows of their own key, and each effect's response is stored
until it expires. -/
structure Claimed (s : IdempotentState Work Body) : Prop where
  ids : Table.Keyed IdempotencyKey.id s.keys
  pairs : (s.keys.map fun r => (r.owner, r.key)).Nodup
  fresh : ∀ row ∈ s.keys, row.id < s.nextId
  granted : ∀ t g, (s.calls t).bind Call.grant? = some g → g.claim.id < s.nextId ∧
    ∀ row ∈ s.keys, row.id = g.claim.id → row.isFor g.claim.owner g.claim.key = true
  past : ∀ t n, (s.calls t).bind Call.now? = some n → n ≤ s.clock
  stored : ∀ e ∈ s.effects, s.clock < e.expiresAt → ∃ row ∈ s.keys,
    row.isFor e.owner e.key = true ∧ row.completedAt ≠ none ∧ e.expiresAt ≤ row.expiresAt
  once : AtMostOnce s

theorem claimed_empty : Claimed (IdempotentState.empty : IdempotentState Work Body) where
  ids := List.nodup_nil
  pairs := List.nodup_nil
  fresh := fun _ h => absurd h List.not_mem_nil
  granted := fun _ _ h => by cases h
  past := fun _ _ h => by cases h
  stored := fun _ h => absurd h List.not_mem_nil
  once := List.Pairwise.nil

variable {s s' : IdempotentState Work Body}

/-- A step that carries the table over and moves one call on keeps the invariant. -/
theorem Claimed.carry (h : Claimed s)
    (hk : Carries s.clock s.nextId s'.nextId s.keys s'.keys) (hn : s.nextId ≤ s'.nextId)
    (hclock : s'.clock = s.clock) (heffects : s'.effects = s.effects) {t : Nat}
    {call : Option (Call Work Body)} (hcalls : s'.calls = Function.update s.calls t call)
    (hgrant : ∀ g, call.bind Call.grant? = some g → (s.calls t).bind Call.grant? = some g ∨
      (g.claim.id < s'.nextId ∧ ∀ row ∈ s'.keys, row.id = g.claim.id →
        row.isFor g.claim.owner g.claim.key = true))
    (hnow : ∀ n, call.bind Call.now? = some n → n ≤ s.clock) : Claimed s' := by
  -- a grant of the state before still names rows of its key only
  have hold : ∀ u g, (s.calls u).bind Call.grant? = some g → g.claim.id < s'.nextId ∧
      ∀ row ∈ s'.keys, row.id = g.claim.id → row.isFor g.claim.owner g.claim.key = true := by
    intro u g hg
    obtain ⟨hlt, hfor⟩ := h.granted u g hg
    refine ⟨Nat.lt_of_lt_of_le hlt hn, fun row' hrow' hid => ?_⟩
    rcases hk.owned row' hrow' with hnew | ⟨row, hrow, hrid, howner, hkey⟩
    · omega
    · have hpair := IdempotencyKey.isFor_iff.1 (hfor row hrow (hrid.trans hid))
      exact IdempotencyKey.isFor_iff.2 ⟨howner.symm.trans hpair.1, hkey.symm.trans hpair.2⟩
  refine ⟨hk.ids, hk.pairs, hk.fresh, ?_, ?_, ?_, ?_⟩
  · intro u g hg
    rw [hcalls] at hg
    by_cases hut : u = t
    · subst hut
      rw [Function.update_self] at hg
      rcases hgrant g hg with hg | hg
      · exact hold u g hg
      · exact hg
    · rw [Function.update_of_ne hut] at hg
      exact hold u g hg
  · intro u n hn
    rw [hcalls] at hn
    rw [hclock]
    by_cases hut : u = t
    · subst hut
      rw [Function.update_self] at hn
      exact hnow n hn
    · rw [Function.update_of_ne hut] at hn
      exact h.past u n hn
  · intro e he hlive
    rw [heffects] at he
    rw [hclock] at hlive
    obtain ⟨row, hrow, hfor, hdone, hle⟩ := h.stored e he hlive
    obtain ⟨row', hrow', hfor', hdone', hle'⟩ := hk.kept row hrow hdone (by omega)
    rw [IdempotencyKey.isFor_iff] at hfor hfor'
    exact ⟨row', hrow', IdempotencyKey.isFor_iff.2 ⟨hfor'.1.trans hfor.1, hfor'.2.trans hfor.2⟩,
      hdone', hle.trans hle'⟩
  · rw [AtMostOnce, heffects]
    exact h.once

/-- Another effect keeps the invariant, if its response is stored and no earlier effect of its key
is unexpired. -/
theorem Claimed.commit (h : Claimed s) {e : Effect Work}
    (hstored : s.clock < e.expiresAt → ∃ row ∈ s.keys, row.isFor e.owner e.key = true ∧
      row.completedAt ≠ none ∧ e.expiresAt ≤ row.expiresAt)
    (honce : ∀ e' ∈ s.effects, e'.owner = e.owner → e'.key = e.key →
      e'.expiresAt ≤ e.committedAt) : Claimed { s with effects := s.effects ++ [e] } where
  ids := h.ids
  pairs := h.pairs
  fresh := h.fresh
  granted := h.granted
  past := h.past
  stored := by
    intro e' he' hlive
    rcases List.mem_append.1 he' with he' | he'
    · exact h.stored e' he' hlive
    · rw [List.mem_singleton.1 he'] at hlive ⊢
      exact hstored hlive
  once := by
    refine List.pairwise_append.2 ⟨h.once, List.pairwise_singleton _ _, ?_⟩
    intro e' he' e'' he'' howner hkey
    rw [List.mem_singleton.1 he''] at howner hkey ⊢
    exact honce e' he' howner hkey

/-- A commit that still has its claim keeps the invariant. -/
theorem Claimed.next_commit (h : Claimed s) {t : Nat} {lost : Bool} {grant : Grant}
    {statusCode : Nat} {work : Work} {body : Body} {completedAt : Nat}
    (hok : StillClaimed s (.commit t lost))
    (hcall : s.calls t = some (.recorded grant statusCode work body completedAt)) :
    Claimed (({ s with
      keys := recordResponse grant.claim statusCode body completedAt s.keys
      effects := s.effects ++ [s.effectOf t grant work] }.unlock t).setCall t
        (if lost then some (.failed grant) else none)) := by
  simp only [StillClaimed, hcall] at hok
  obtain ⟨hfree, hthere⟩ := hok
  have hgrant : (s.calls t).bind Call.grant? = some grant := by rw [hcall]; rfl
  -- first the response is stored, then the effect is added
  have hresponse : Claimed (({ s with
      keys := recordResponse grant.claim statusCode body completedAt s.keys }.unlock t).setCall t
        (if lost then some (.failed grant) else none)) := by
    have hk : Carries s.clock s.nextId s.nextId s.keys
        (recordResponse grant.claim statusCode body completedAt s.keys) :=
      carries_recordResponse h.ids h.pairs h.fresh grant.claim statusCode body completedAt
    refine h.carry hk (Nat.le_refl _) rfl rfl rfl (fun g hg => Or.inl ?_) fun n hn => ?_
    · cases lost with
      | false => cases hg
      | true => exact hgrant.trans hg
    · cases lost <;> cases hn
  refine hresponse.commit (fun hlive => ?_) fun e he howner hkey => ?_
  · -- the expiry is the claim row's, or that of a claim that has not expired and is still there
    have hrow : ∃ row ∈ s.keys, row.id = grant.claim.id := by
      rcases hthere with hrow | hexpired
      · exact hrow
      · by_contra hgone
        have hnone : Table.lookup IdempotencyKey.id s.keys grant.claim.id = none :=
          List.find?_eq_none.2 fun row hrow => by
            simpa using fun hid => hgone ⟨row, hrow, hid⟩
        have hexpiry : s.expiryOf grant = grant.expiresAt := by
          rw [IdempotentState.expiryOf, hnone]
          rfl
        exact absurd hexpired (Nat.not_le.2 (hexpiry ▸ hlive))
    obtain ⟨row, hrow, hid⟩ := hrow
    have hfor := (h.granted t grant hgrant).2 row hrow hid
    have hexpiry : s.expiryOf grant = row.expiresAt := by
      rw [IdempotentState.expiryOf, ← hid, h.ids.lookup_of_mem hrow]
      rfl
    refine ⟨_, List.mem_map_of_mem hrow, ?_⟩
    rw [if_pos hid]
    exact ⟨hfor, Option.some_ne_none _, Nat.le_of_eq hexpiry⟩
  · by_contra hlive
    obtain ⟨row, hrow, hfor, hdone, hle⟩ := h.stored e he (Nat.lt_of_not_le hlive)
    rw [howner, hkey] at hfor
    rcases hfree row hrow hfor with hnone | hexpired
    · exact hdone hnone
    · exact hlive (hle.trans hexpired)

/-- Every step keeps the invariant, if each commit still has its claim. -/
theorem Claimed.next {store : IdempotencyStore} {l : IdempotentLabel Work Body} (h : Claimed s)
    (hok : StillClaimed s l) (hnext : store.next s l = some s') : Claimed s' := by
  rcases store.next_cases hnext with ⟨t, call, hq⟩ |
    ⟨t, request, now, keys, -, hcall, hinsert, rfl⟩ |
    ⟨t, request, now, record, row, -, hcall, hfind, hrow, rfl⟩ |
    ⟨t, lost, grant, statusCode, work, body, completedAt, rfl, hcall, rfl⟩ |
    ⟨t, grant, -, hcall, rfl⟩ | ⟨-, rfl⟩ | ⟨n, -, rfl⟩
  · have hsame : Carries s.clock s.nextId s'.nextId s.keys s'.keys := by
      rw [hq.keys, hq.nextId]
      exact carries_refl h.ids h.pairs h.fresh
    refine h.carry hsame (Nat.le_of_eq hq.nextId.symm) hq.clock hq.effects hq.calls
      (fun g hg => Or.inl (hq.grant g hg)) fun n hn => ?_
    rcases hq.now n hn with rfl | hn
    · exact Nat.le_refl _
    · exact h.past t n hn
  · -- an insert: the new claim has an id that no row had
    have hk : Carries s.clock s.nextId (s.nextId + 1) s.keys keys :=
      carries_insertClaim h.ids h.pairs h.fresh hinsert
    refine h.carry hk (Nat.le_succ _) rfl rfl rfl (fun g hg => Or.inr ?_) (fun n hn => by cases hn)
    cases hg
    refine ⟨Nat.lt_succ_self _, fun r hr hid => ?_⟩
    rcases mem_insertClaim hinsert hr with hr | hr
    · exact absurd hid (Nat.ne_of_lt (h.fresh r hr))
    · exact hr
  · -- a claim of a row: it stores no response, or an expired one
    have hrecord : record ∈ s.keys := List.mem_of_find?_eq_some hfind
    have hnow : now ≤ s.clock := h.past t now (by rw [hcall]; rfl)
    have hk : Carries s.clock s.nextId s.nextId s.keys (writeKey row s.keys) :=
      carries_claimRow h.ids h.pairs h.fresh hrecord hnow hrow
    refine h.carry hk (Nat.le_refl _) rfl rfl rfl (fun g hg => Or.inr ?_) (fun n hn => by cases hn)
    cases hg
    refine ⟨h.fresh record hrecord, fun r hr hid => ?_⟩
    have hfor : record.isFor request.owner request.key = true := List.find?_some hfind
    rcases hk.owned r hr with hnew | ⟨r₀, hr₀, hid₀, howner, hkey⟩
    · have hlt := h.fresh record hrecord
      rw [hid] at hnew
      exact absurd hlt (Nat.not_lt.2 hnew)
    · obtain rfl := h.ids.eq_of_key hr₀ hrecord (hid₀.trans hid)
      rw [IdempotencyKey.isFor_iff] at hfor ⊢
      exact ⟨howner.symm.trans hfor.1, hkey.symm.trans hfor.2⟩
  · exact h.next_commit hok hcall
  · -- a release drops an incomplete row
    have hk : Carries s.clock s.nextId s.nextId s.keys (releaseClaim grant.claim s.keys) := by
      refine carries_filter h.ids h.pairs h.fresh fun r _ hdone _ => ?_
      obtain ⟨doneAt, hat⟩ := Option.ne_none_iff_exists'.1 hdone
      simp [hat]
    exact h.carry hk (Nat.le_refl _) rfl rfl rfl (fun g hg => by cases hg) fun n hn => by cases hn
  · -- a purge drops expired rows
    have hk : Carries s.clock s.nextId s.nextId s.keys (purgeExpired s.clock s.keys) := by
      refine carries_filter h.ids h.pairs h.fresh fun r _ _ hlive => ?_
      simpa using hlive
    refine h.carry hk (Nat.le_refl _) rfl rfl (Function.update_eq_self 0 s.calls).symm
      (fun g hg => Or.inl hg) fun n hn => h.past 0 n hn
  · -- time passes: fewer effects are unexpired
    refine ⟨h.ids, h.pairs, h.fresh, h.granted, fun t m hm => ?_, fun e he hlive => ?_, h.once⟩
    · exact Nat.le_add_right_of_le (h.past t m hm)
    · exact h.stored e he (Nat.lt_of_le_of_lt (Nat.le_add_right _ _) hlive)

/-- A request to create a user. -/
def createRequest : IdempotentRequest where
  key := "race"
  owner := "1"
  endpoint := "POST /api/v1/users"
  requestHash := "e3b0"
  statusCode := 201

end SmartLogistics.Platform
