import Mathlib.Data.List.Find
import SmartLogistics.Platform.Replays

/-!
# One owner's view of the idempotency store

What one owner sees of a state (`Watched.only`): the owner's calls, rows, locks, answers and
effects. A step of the owner is the same step in the view (`next_only`), and a step of another owner
leaves the view as it is, except for the ids it draws (`only_of_foreign`). So the steps of the other
owners can be left out of any run (`erase`, `exec_only`).

`replays_truthful` puts the two halves together. `not_truthful_after_expiry` is a run with a replay
that no execution of its request has recorded.
-/

set_option autoImplicit false

namespace SmartLogistics.Platform

open SmartLogistics.Library IdempotentState

variable {Work Body : Type}

/-! ## The view -/

/-- Whose call it is. -/
def Call.owner : Call Work Body → String
  | .claiming request _ => request.owner
  | .selecting request _ => request.owner
  | .granted grant _ => grant.claim.owner
  | .acted grant _ _ _ => grant.claim.owner
  | .recorded grant _ _ _ _ => grant.claim.owner
  | .failed grant => grant.claim.owner

namespace IdempotentState

/-- The call is the owner's. -/
def isOf (s : IdempotentState Work Body) (owner : String) (t : Nat) : Bool :=
  (s.calls t).any (·.owner == owner)

/-- The rows, locks, calls and effects of one owner. -/
def only (owner : String) (s : IdempotentState Work Body) : IdempotentState Work Body where
  clock := s.clock
  nextId := s.nextId
  keys := s.keys.filter (·.owner == owner)
  locks := fun id => (s.locks id).filter (s.isOf owner)
  calls := fun t => (s.calls t).filter (·.owner == owner)
  effects := s.effects.filter (·.owner == owner)

/-- The step is of another owner's call. -/
def foreign (s : IdempotentState Work Body) (owner : String) : IdempotentLabel Work Body → Bool
  | .start _ request => request.owner != owner
  | l => l.call?.any fun t => !s.isOf owner t

end IdempotentState

/-- What one owner sees of a watched state. -/
def Watched.only (owner : String) (s : Watched Work Body) : Watched Work Body where
  state := s.state.only owner
  requests := fun t => (s.requests t).filter (·.owner == owner)
  completions := s.completions.filter (·.request.owner == owner)
  answers := s.answers.filter (·.1.owner == owner)

/-- A step without what other owners do: of their steps only the ids they draw are left. -/
def eraseStep (store : IdempotencyStore) (owner : String) (s : Watched Work Body) :
    WatchedLabel Work Body → WatchedLabel Work Body
  | .draw n => .draw n
  | .store l =>
    if s.state.foreign owner l then
      .draw (((store.next s.state l).map (·.nextId)).getD 0 - s.state.nextId)
    else .store l

/-- A run without what other owners do. -/
def erase (store : IdempotencyStore) (owner : String) :
    Watched Work Body → List (WatchedLabel Work Body) → List (WatchedLabel Work Body)
  | _, [] => []
  | s, l :: ls => eraseStep store owner s l ::
      match store.watchedNext s l with
      | some s' => erase store owner s' ls
      | none => []

/-! ## The parts of the view -/

section View

variable {owner : String} {s : IdempotentState Work Body} {t : Nat}

theorem filter_congr_of_some {α : Type} {p q : α → Bool} {o : Option α}
    (h : ∀ a, o = some a → p a = q a) : o.filter p = o.filter q := by
  cases o with
  | none => rfl
  | some a => rw [Option.filter_some, Option.filter_some, h a rfl]

theorem isOf_setCall (call : Option (Call Work Body)) {u : Nat} (hut : u ≠ t) :
    (s.setCall t call).isOf owner u = s.isOf owner u := by
  simp only [isOf, setCall, Function.update_of_ne hut]

theorem filter_update (calls : Nat → Option (Call Work Body)) (call : Option (Call Work Body)) :
    (fun u => (Function.update calls t call u).filter (·.owner == owner)) =
      Function.update (fun u => (calls u).filter (·.owner == owner)) t
        (call.filter (·.owner == owner)) := by
  funext u
  by_cases hut : u = t
  · subst hut
    rw [Function.update_self, Function.update_self]
  · rw [Function.update_of_ne hut, Function.update_of_ne hut]

/-- The view of a state one of whose calls moves on, but for the locks. -/
theorem only_setCall_eq (call : Option (Call Work Body)) : (s.setCall t call).only owner =
    { (s.only owner).setCall t (call.filter (·.owner == owner)) with
      locks := fun id => (s.locks id).filter ((s.setCall t call).isOf owner) } := by
  simp only [only, setCall, IdempotentState.mk.injEq, true_and]
  exact ⟨filter_update s.calls call, trivial⟩

/-- A call that holds no lock moves on. -/
theorem only_setCall (hlocks : ∀ id, s.locks id ≠ some t) (call : Option (Call Work Body)) :
    (s.setCall t call).only owner = (s.only owner).setCall t (call.filter (·.owner == owner)) := by
  have hfilter : (fun id => (s.locks id).filter ((s.setCall t call).isOf owner)) =
      fun id => (s.locks id).filter (s.isOf owner) := by
    funext id
    exact filter_congr_of_some fun u hlock =>
      isOf_setCall call fun heq => hlocks id (heq ▸ hlock)
  rw [only_setCall_eq, hfilter]
  rfl

/-- The locks left when `t` releases its own, as the owner sees them. -/
theorem filter_unlock (call : Option (Call Work Body)) (id : Nat) :
    ((s.unlock t).locks id).filter (((s.unlock t).setCall t call).isOf owner) =
      ((s.only owner).unlock t).locks id := by
  have hview : ((s.only owner).unlock t).locks id =
      if (s.locks id).filter (s.isOf owner) = some t then none
      else (s.locks id).filter (s.isOf owner) := rfl
  have hstate : (s.unlock t).locks id = if s.locks id = some t then none else s.locks id := rfl
  rw [hview, hstate]
  cases hlock : s.locks id with
  | none => rfl
  | some u =>
    by_cases hut : u = t
    · -- the lock is released, in the state and in the view
      subst hut
      cases hof : s.isOf owner u <;> simp [Option.filter_some, hof]
    · have hother : ((s.unlock t).setCall t call).isOf owner u = s.isOf owner u :=
        isOf_setCall (s := s.unlock t) call hut
      rw [if_neg (by simpa using hut), Option.filter_some, Option.filter_some, hother]
      split
      · rw [if_neg (by simpa using hut)]
      · rfl

/-- A call moves on and its locks are released. -/
theorem only_unlock (call : Option (Call Work Body)) :
    ((s.unlock t).setCall t call).only owner =
      ((s.only owner).unlock t).setCall t (call.filter (·.owner == owner)) := by
  rw [only_setCall_eq, funext (filter_unlock call)]
  rfl

theorem only_calls_of_eq {call : Call Work Body} (ht : s.calls t = some call)
    (howner : call.owner = owner) : (s.only owner).calls t = some call := by
  simp [only, ht, howner]

theorem only_calls_of_ne {call : Call Work Body} (ht : s.calls t = some call)
    (howner : call.owner ≠ owner) : (s.only owner).calls t = none := by
  simp [only, ht, howner]

/-- A lock that is free, or the call's own, is so in the view. -/
theorem blocked_only {id : Nat} (hfree : s.blocked t id = false) :
    (s.only owner).blocked t id = false := by
  have hview : (s.only owner).locks id = (s.locks id).filter (s.isOf owner) := rfl
  unfold blocked at hfree ⊢
  rw [hview]
  cases hlock : s.locks id with
  | none => rfl
  | some u =>
    rw [hlock] at hfree
    rw [Option.filter_some]
    cases s.isOf owner u with
    | true => exact hfree
    | false => rfl

/-- A call of another owner that ends changes nothing in the view. -/
theorem setCall_none_eq {v : IdempotentState Work Body} (ht : v.calls t = none) :
    v.setCall t none = v := by
  have hcalls : Function.update v.calls t none = v.calls := by
    rw [← ht, Function.update_eq_self]
  simp only [setCall, hcalls]

theorem unlock_eq {v : IdempotentState Work Body} (hlocks : ∀ id, v.locks id ≠ some t) :
    v.unlock t = v := by
  have hsame : (fun id => if v.locks id = some t then none else v.locks id) = v.locks :=
    funext fun id => if_neg (hlocks id)
  simp only [unlock, hsame]

theorem only_locks_ne {call : Call Work Body} (ht : s.calls t = some call)
    (howner : call.owner ≠ owner) (id : Nat) : (s.only owner).locks id ≠ some t := by
  intro hlock
  have hof := (Option.filter_eq_some_iff.1 hlock).2
  simp [isOf, ht, howner] at hof

/-- Another owner's call that moves on is not seen. -/
theorem only_moved {call : Call Work Body} {next : Option (Call Work Body)}
    (ht : s.calls t = some call) (howner : call.owner ≠ owner) (hlocks : ∀ id, s.locks id ≠ some t)
    (hnext : ∀ c, next = some c → c.owner = call.owner) :
    (s.setCall t next).only owner = s.only owner := by
  have hgone : next.filter (·.owner == owner) = none :=
    Option.filter_eq_none_iff.2 fun c hc => by simpa [hnext c hc] using howner
  rw [only_setCall hlocks, hgone, setCall_none_eq (only_calls_of_ne ht howner)]

/-- Nor is another owner's call that releases its locks. -/
theorem only_released {call : Call Work Body} {next : Option (Call Work Body)}
    (ht : s.calls t = some call) (howner : call.owner ≠ owner)
    (hnext : ∀ c, next = some c → c.owner = call.owner) :
    ((s.unlock t).setCall t next).only owner = s.only owner := by
  have hgone : next.filter (·.owner == owner) = none :=
    Option.filter_eq_none_iff.2 fun c hc => by simpa [hnext c hc] using howner
  rw [only_unlock, hgone, unlock_eq (only_locks_ne ht howner),
    setCall_none_eq (only_calls_of_ne ht howner)]

theorem lock_of_free {id : Nat} (hfree : s.blocked t id = false) :
    s.locks id = none ∨ s.locks id = some t := by
  unfold blocked at hfree
  cases hlock : s.locks id with
  | none => exact Or.inl rfl
  | some u =>
    rw [hlock] at hfree
    exact Or.inr (by simpa using hfree)

/-- Another owner's call that locks a free row is not seen. -/
theorem only_locked {locks : Nat → Option Nat} {next : Call Work Body}
    (hfree : ∀ id, s.locks id ≠ some t)
    (hlocks : ∀ id, locks id = s.locks id ∨ locks id = some t ∧ s.locks id = none)
    (hnext : next.owner ≠ owner) (hgone : (s.only owner).calls t = none) :
    ({ s with locks := locks }.setCall t (some next)).only owner = s.only owner := by
  have hview : (fun id => (locks id).filter
      (({ s with locks := locks }.setCall t (some next)).isOf owner)) = (s.only owner).locks := by
    funext id
    rcases hlocks id with hsame | ⟨hnew, hold⟩
    · rw [hsame]
      exact filter_congr_of_some fun u hu =>
        isOf_setCall (s := { s with locks := locks }) (some next)
        fun heq => hfree id (heq ▸ hu)
    · have hof : ({ s with locks := locks }.setCall t (some next)).isOf owner t = false := by
        simp [isOf, setCall, hnext]
      have hnone : (s.only owner).locks id = none := by simp [only, hold]
      rw [hnew, hnone, Option.filter_some, if_neg (by rw [hof]; exact Bool.false_ne_true)]
  rw [only_setCall_eq, hview, Option.filter_some, if_neg (by simpa using hnext)]
  exact setCall_none_eq hgone

/-- The owner's own call that locks a free row locks it in the view. -/
theorem only_locked_own {next : Call Work Body} (id : Nat) (hlocks : ∀ id, s.locks id ≠ some t)
    (hnext : next.owner = owner) (found : Bool) :
    ({ s with locks := if found then Function.update s.locks id (some t) else s.locks }.setCall t
      (some next)).only owner =
    { s.only owner with locks :=
        if found then Function.update (s.only owner).locks id (some t)
        else (s.only owner).locks }.setCall t (some next) := by
  have hsame : ∀ locks : Nat → Option Nat, ∀ k, locks k = s.locks k → (locks k).filter
      (({ s with locks := locks }.setCall t (some next)).isOf owner) = (s.only owner).locks k :=
    fun locks k hk => by
      rw [hk]
      exact filter_congr_of_some fun u hu =>
        isOf_setCall (s := { s with locks := locks }) (some next)
        fun heq => hlocks k (heq ▸ hu)
  have hkept : (some next).filter (·.owner == owner) = some next := by simp [hnext]
  rw [only_setCall_eq, hkept]
  cases found with
  | false =>
    have hview := funext fun k => hsame s.locks k rfl
    exact congrArg (fun locks => { (s.only owner).setCall t (some next) with locks := locks }) hview
  | true =>
    have hview : (fun k => (Function.update s.locks id (some t) k).filter
        (({ s with locks := Function.update s.locks id (some t) }.setCall t (some next)).isOf
          owner)) =
        Function.update (s.only owner).locks id (some t) := by
      funext k
      by_cases hk : k = id
      · subst hk
        simp [Option.filter_some, isOf, setCall, hnext]
      · rw [hsame _ k (Function.update_of_ne hk ..), Function.update_of_ne hk]
    exact congrArg (fun locks => { (s.only owner).setCall t (some next) with locks := locks }) hview

/-- Rows and effects of other owners are not seen. -/
theorem only_rows (s : IdempotentState Work Body) {keys : List (IdempotencyKey Body)}
    {effects : List (Effect Work)} (n : Nat)
    (hkeys : keys.filter (·.owner == owner) = s.keys.filter (·.owner == owner))
    (heffects : effects.filter (·.owner == owner) = s.effects.filter (·.owner == owner)) :
    only owner { s with keys := keys, effects := effects, nextId := n } =
      { s.only owner with nextId := n } := by
  simp only [only, hkeys, heffects]
  rfl

end View

/-! ## The rows of the view -/

section Rows

variable {owner : String} {keys : List (IdempotencyKey Body)}

/-- What is done to each row alike is done so to the owner's rows. -/
theorem filter_map_own {f : IdempotencyKey Body → IdempotencyKey Body}
    (hf : ∀ row ∈ keys, (f row).owner = row.owner) :
    (keys.map f).filter (·.owner == owner) = (keys.filter (·.owner == owner)).map f := by
  rw [List.filter_map]
  congr 1
  refine List.filter_congr fun row hrow => ?_
  rw [Function.comp_apply, hf row hrow]

/-- Rows of other owners can be looked up or not. -/
theorem find?_own {key other : String} (howner : other = owner) :
    (keys.filter (·.owner == owner)).find? (IdempotencyKey.isFor other key) =
      keys.find? (IdempotencyKey.isFor other key) := by
  subst howner
  rw [List.find?_filter]
  refine List.find?_congr fun row _ => ?_
  by_cases hown : row.owner = other <;> simp [IdempotencyKey.isFor, hown, beq_eq_decide]

theorem any_isFor_own {key other : String} (howner : other = owner) :
    (keys.filter (·.owner == owner)).any (IdempotencyKey.isFor other key) =
      keys.any (IdempotencyKey.isFor other key) := by
  subst howner
  rw [List.any_filter]
  congr 1
  funext row
  simp only [IdempotencyKey.isFor]
  cases row.owner == other <;> rfl

variable (keys) in
theorem insertClaim_own {store : IdempotencyStore} {request : IdempotentRequest}
    (howner : request.owner = owner) (now id : Nat) :
    store.insertClaim request now id (keys.filter (·.owner == owner)) =
      (store.insertClaim request now id keys).map fun keys => keys.filter (·.owner == owner) := by
  unfold IdempotencyStore.insertClaim
  rw [any_isFor_own howner]
  split
  · rfl
  · simp [howner]

variable (owner keys) in
/-- An id that names the owner's rows only is looked up among them. -/
theorem lookup_own {id : Nat} (hnamed : ∀ row ∈ keys, row.id = id → row.owner = owner) :
    Table.lookup IdempotencyKey.id (keys.filter (·.owner == owner)) id =
      Table.lookup IdempotencyKey.id keys id := by
  unfold Table.lookup
  rw [List.find?_filter]
  refine List.find?_congr fun row hrow => ?_
  by_cases hid : row.id = id
  · simp [hid, hnamed row hrow hid]
  · simp [hid]

variable (owner keys) in
theorem any_id_own {id : Nat} (hnamed : ∀ row ∈ keys, row.id = id → row.owner = owner) :
    (keys.filter (·.owner == owner)).any (fun r => r.id == id) =
      keys.any fun r => r.id == id := by
  rw [List.any_filter, Bool.eq_iff_iff, List.any_eq_true, List.any_eq_true]
  constructor
  · rintro ⟨row, hrow, hboth⟩
    exact ⟨row, hrow, (Bool.and_eq_true _ _ ▸ hboth).2⟩
  · rintro ⟨row, hrow, hid⟩
    refine ⟨row, hrow, ?_⟩
    rw [hid, Bool.and_true, beq_iff_eq]
    exact hnamed row hrow (beq_iff_eq.1 hid)

/-- An id that names no row of the owner. -/
theorem ne_of_named {id : Nat} {other : String} (howner : other ≠ owner)
    (hnamed : ∀ row ∈ keys, row.id = id → row.owner = other) :
    ∀ row ∈ keys.filter (·.owner == owner), row.id ≠ id := by
  intro row hrow hid
  obtain ⟨hmem, hown⟩ := List.mem_filter.1 hrow
  exact howner ((hnamed row hmem hid).symm.trans (beq_iff_eq.1 hown))

theorem filter_writeKey {row : IdempotencyKey Body}
    (hrow : ∀ r ∈ keys, r.id = row.id → r.owner = row.owner) :
    (writeKey row keys).filter (·.owner == owner) =
      writeKey row (keys.filter (·.owner == owner)) := by
  refine filter_map_own fun r hr => ?_
  split
  · rename_i heq
    exact (hrow r hr heq).symm
  · rfl

theorem writeKey_eq {row : IdempotencyKey Body} (hgone : ∀ r ∈ keys, r.id ≠ row.id) :
    writeKey row keys = keys :=
  (List.map_congr_left fun r hr => if_neg (hgone r hr)).trans (List.map_id keys)

variable (owner keys) in
theorem filter_recordResponse (claim : Claim) (statusCode : Nat) (body : Body) (now : Nat) :
    (recordResponse claim statusCode body now keys).filter (·.owner == owner) =
      recordResponse claim statusCode body now (keys.filter (·.owner == owner)) :=
  filter_map_own fun r _ => by split <;> rfl

theorem recordResponse_eq {claim : Claim} {statusCode : Nat} {body : Body} {now : Nat}
    (hgone : ∀ r ∈ keys, r.id ≠ claim.id) :
    recordResponse claim statusCode body now keys = keys :=
  (List.map_congr_left fun r hr => if_neg (hgone r hr)).trans (List.map_id keys)

theorem filter_releaseClaim (claim : Claim) :
    (releaseClaim claim keys).filter (·.owner == owner) =
      releaseClaim claim (keys.filter (·.owner == owner)) := by
  rw [releaseClaim, releaseClaim, List.filter_filter, List.filter_filter]
  exact List.filter_congr fun r _ => Bool.and_comm _ _

theorem releaseClaim_eq {claim : Claim} (hgone : ∀ r ∈ keys, r.id ≠ claim.id) :
    releaseClaim claim keys = keys :=
  List.filter_eq_self.2 fun r hr => by simp [hgone r hr]

end Rows

/-! ## One step and the view -/

section Steps

variable {owner : String} {w : Watched Work Body} {t : Nat}

/-- The rows that a call's claim names are the call's owner's. -/
theorem Owned.named (h : Owned w) {call : Call Work Body} {grant : Grant}
    (ht : w.state.calls t = some call) (hgrant : call.grant? = some grant) :
    ∀ row ∈ w.state.keys, row.id = grant.claim.id → row.owner = grant.claim.owner := by
  intro row hrow hid
  have hgranted := h.granted t grant (by rw [ht]; exact hgrant)
  exact (IdempotencyKey.isFor_iff.1 (hgranted.named row hrow hid)).1

/-- A call that is not about to commit holds no lock. -/
theorem Owned.locks_ne (h : Owned w) (ht : (w.state.calls t).bind Call.recorded? = none)
    (id : Nat) :
    w.state.locks id ≠ some t :=
  fun hlock => h.ne_of_locked ht hlock rfl

/-- A step of another owner's call, seen by this owner. -/
theorem only_of_foreign {store : IdempotencyStore} {s' : IdempotentState Work Body}
    {l : IdempotentLabel Work Body} (h : Owned w) (hforeign : w.state.foreign owner l = true)
    (hstep : IdempotencyStep store w.state l s') :
    s'.only owner = { w.state.only owner with nextId := s'.nextId } := by
  have hother : ∀ {u : Nat} {call : Call Work Body}, w.state.calls u = some call →
      (!w.state.isOf owner u) = true → call.owner ≠ owner := by
    intro u call hu hof
    simpa [isOf, hu] using hof
  -- the view keeps neither the call nor the rows of its owner; only a drawn id shows
  cases hstep with
  | @start t request hfree =>
    have hne : request.owner ≠ owner := bne_iff_ne.1 hforeign
    have hlocks := h.locks_ne (t := t) (by rw [hfree]; rfl)
    have hnone : (w.state.only owner).calls t = none := by simp [only, hfree]
    rw [only_setCall hlocks, Option.filter_some, if_neg (by simpa [Call.owner] using hne),
      setCall_none_eq hnone]
    rfl
  | @inserted t now request keys ht hkeys =>
    have hne : request.owner ≠ owner := hother ht hforeign
    have hrows : keys.filter (·.owner == owner) = w.state.keys.filter (·.owner == owner) := by
      unfold IdempotencyStore.insertClaim at hkeys
      split at hkeys
      · cases hkeys
      · cases hkeys
        simp [hne]
    rw [only_moved (s := { w.state with keys := keys, nextId := w.state.nextId + 1 }) ht hne
      (h.locks_ne (by rw [ht]; rfl)) fun c hc => by cases hc; rfl]
    exact only_rows w.state _ hrows rfl
  | conflict ht hkeys =>
    exact only_moved ht (hother ht hforeign) (h.locks_ne (by rw [ht]; rfl))
      fun c hc => by cases hc; rfl
  | missing ht hrow =>
    exact only_moved ht (hother ht hforeign) (h.locks_ne (by rw [ht]; rfl))
      (fun c hc => by cases hc)
  | refused ht hrow hfree hclaim =>
    exact only_moved ht (hother ht hforeign) (h.locks_ne (by rw [ht]; rfl))
      (fun c hc => by cases hc)
  | replayed ht hrow hfree hclaim =>
    exact only_moved ht (hother ht hforeign) (h.locks_ne (by rw [ht]; rfl))
      (fun c hc => by cases hc)
  | @claimed t now request record row ht hrow hfree hclaim =>
    have hne : request.owner ≠ owner := hother ht hforeign
    obtain ⟨hid, howner, -, -⟩ := claimRow_eq_claim hclaim
    have hfor := (IdempotencyKey.isFor_iff.1 (List.find?_some hrow)).1
    -- the row it takes over is its own owner's
    have hnamed : ∀ r ∈ w.state.keys, r.id = row.id → r.owner = request.owner := by
      intro r hr heq
      rw [h.ids.eq_of_key hr (List.mem_of_find?_eq_some hrow) (heq.trans hid), hfor]
    have hrows : (writeKey row w.state.keys).filter (·.owner == owner) =
        w.state.keys.filter (·.owner == owner) := by
      rw [filter_writeKey fun r hr heq => (hnamed r hr heq).trans (howner.trans hfor).symm]
      exact writeKey_eq (ne_of_named hne hnamed)
    rw [only_moved (s := { w.state with keys := writeKey row w.state.keys }) ht hne
      (h.locks_ne (by rw [ht]; rfl)) fun c hc => by cases hc; rfl]
    exact only_rows w.state _ hrows rfl
  | acted ht =>
    exact only_moved ht (hother ht hforeign) (h.locks_ne (by rw [ht]; rfl))
      fun c hc => by cases hc; rfl
  | raised ht =>
    exact only_moved ht (hother ht hforeign) (h.locks_ne (by rw [ht]; rfl))
      fun c hc => by cases hc; rfl
  | @recorded t statusCode grant work body ht hfree =>
    have hne : grant.claim.owner ≠ owner := hother ht hforeign
    have hlocks := h.locks_ne (t := t) (by rw [ht]; rfl)
    refine only_locked hlocks (fun id => ?_)
      (show (Call.recorded grant statusCode work body _).owner ≠ owner from hne)
      (only_calls_of_ne ht hne)
    by_cases hany : (w.state.keys.any fun r => r.id == grant.claim.id) = true
    · rw [if_pos hany]
      by_cases hid : id = grant.claim.id
      · subst hid
        rw [Function.update_self]
        exact Or.inr ⟨rfl, (lock_of_free hfree).resolve_right (hlocks _)⟩
      · exact Or.inl (Function.update_of_ne hid ..)
    · rw [if_neg hany]
      exact Or.inl rfl
  | @committed t statusCode completedAt lost grant work body ht =>
    have hne : grant.claim.owner ≠ owner := hother ht hforeign
    have hrows : (recordResponse grant.claim statusCode body completedAt w.state.keys).filter
        (·.owner == owner) = w.state.keys.filter (·.owner == owner) := by
      rw [filter_recordResponse]
      exact recordResponse_eq (ne_of_named hne (h.named ht rfl))
    rw [only_released (s := { w.state with
        keys := recordResponse grant.claim statusCode body completedAt w.state.keys
        effects := w.state.effects ++ [w.state.effectOf t grant work] }) ht hne
      fun c hc => by cases lost <;> cases hc; rfl]
    exact only_rows w.state _ hrows (by simp [effectOf, hne])
  | @dropped t call grant ht hcall =>
    have hne := hother ht hforeign
    rcases hcall with ⟨_, rfl⟩ | ⟨_, _, _, rfl⟩
    · exact only_moved ht hne (h.locks_ne (by rw [ht]; rfl)) fun c hc => by cases hc; rfl
    · exact only_moved ht hne (h.locks_ne (by rw [ht]; rfl)) fun c hc => by cases hc; rfl
  | rolledBack ht =>
    exact only_released ht (hother ht hforeign) fun c hc => by cases hc; rfl
  | @released t grant ht hfree =>
    have hne : grant.claim.owner ≠ owner := hother ht hforeign
    have hrows : (releaseClaim grant.claim w.state.keys).filter (·.owner == owner) =
        w.state.keys.filter (·.owner == owner) := by
      rw [filter_releaseClaim]
      exact releaseClaim_eq (ne_of_named hne (h.named ht rfl))
    rw [only_moved (s := { w.state with keys := releaseClaim grant.claim w.state.keys }) ht hne
      (h.locks_ne (by rw [ht]; rfl)) fun c hc => by cases hc]
    exact only_rows w.state _ hrows rfl
  | died ht => exact only_released ht (hother ht hforeign) fun c hc => by cases hc
  | purged hfree => cases hforeign
  | ticked => cases hforeign

/-! ### The owner's writes in the view -/

/-- A claim of the owner takes over a row. -/
theorem only_writeKey {request : IdempotentRequest} {now : Nat} {record row : IdempotencyKey Body}
    {store : IdempotencyStore} (h : Owned w)
    (hrow : w.state.keys.find? (IdempotencyKey.isFor request.owner request.key) = some record)
    (hclaim : store.claimRow request now record = .ok (.inr row)) :
    only owner { w.state with keys := writeKey row w.state.keys } =
      { w.state.only owner with
        keys := writeKey row (w.state.keys.filter (·.owner == owner)) } := by
  obtain ⟨hid, hsame, -, -⟩ := claimRow_eq_claim hclaim
  have hrows : (writeKey row w.state.keys).filter (·.owner == owner) =
      writeKey row (w.state.keys.filter (·.owner == owner)) := filter_writeKey fun r hr heq => by
    rw [h.ids.eq_of_key hr (List.mem_of_find?_eq_some hrow) (heq.trans hid), hsame]
  rw [← hrows]
  rfl

/-- A call of the owner commits. -/
theorem only_commit {statusCode completedAt : Nat} {grant : Grant} {work : Work} {body : Body}
    (h : Owned w)
    (ht : w.state.calls t = some (.recorded grant statusCode work body completedAt))
    (howner : grant.claim.owner = owner) :
    only owner { w.state with
      keys := recordResponse grant.claim statusCode body completedAt w.state.keys
      effects := w.state.effects ++ [w.state.effectOf t grant work] } =
      { w.state.only owner with
        keys := recordResponse grant.claim statusCode body completedAt (w.state.only owner).keys
        effects := (w.state.only owner).effects ++
          [(w.state.only owner).effectOf t grant work] } := by
  have hexpiry : (w.state.only owner).effectOf t grant work = w.state.effectOf t grant work := by
    have hlookup := lookup_own owner w.state.keys
      fun row hrow hid => (h.named ht rfl row hrow hid).trans howner
    simp only [effectOf, expiryOf, only, hlookup]
  have heffects : (w.state.effects ++ [w.state.effectOf t grant work]).filter
      (·.owner == owner) = (w.state.only owner).effects ++ [w.state.effectOf t grant work] := by
    simp [only, effectOf, howner]
  have hrows := filter_recordResponse owner w.state.keys grant.claim statusCode body completedAt
  rw [hexpiry]
  simp only [only, hrows, heffects]
  rfl

/-- A claim is released. -/
theorem only_releaseClaim (s : IdempotentState Work Body) (claim : Claim) :
    only owner { s with keys := releaseClaim claim s.keys } =
      { s.only owner with keys := releaseClaim claim (s.only owner).keys } := by
  simp only [only, filter_releaseClaim]
  rfl

/-- Expired rows are purged. -/
theorem only_purgeExpired (s : IdempotentState Work Body) :
    only owner { s with keys := purgeExpired s.clock s.keys } =
      { s.only owner with keys := purgeExpired s.clock (s.only owner).keys } := by
  have hrows : (purgeExpired s.clock s.keys).filter (·.owner == owner) =
      purgeExpired s.clock (s.keys.filter (·.owner == owner)) := by
    rw [purgeExpired, purgeExpired, List.filter_filter, List.filter_filter]
    exact List.filter_congr fun r _ => Bool.and_comm _ _
  simp only [only, hrows]
  rfl

/-- A step of the owner's own call, or of none, is the same step in the view. -/
theorem step_only {store : IdempotencyStore} {s' : IdempotentState Work Body}
    {l : IdempotentLabel Work Body} (h : Owned w) (hown : w.state.foreign owner l = false)
    (hstep : IdempotencyStep store w.state l s') :
    IdempotencyStep store (w.state.only owner) l (s'.only owner) := by
  have hmine : ∀ {u : Nat} {call : Call Work Body}, w.state.calls u = some call →
      (!w.state.isOf owner u) = false → call.owner = owner := by
    intro u call hu hof
    simpa [isOf, hu] using hof
  have hkept : ∀ call : Call Work Body, call.owner = owner →
      (some call).filter (·.owner == owner) = some call := fun call hcall => by simp [hcall]
  -- what the statement reads, a row of the owner or a lock on one, is in the view
  cases hstep with
  | @start t request hfree =>
    have howner : request.owner = owner := by simpa [foreign] using hown
    have hnone : (w.state.only owner).calls t = none := by simp [only, hfree]
    rw [only_setCall (h.locks_ne (by rw [hfree]; rfl)), hkept (.claiming request _) howner]
    exact .start hnone
  | @inserted t now request keys ht hkeys =>
    have howner : request.owner = owner := hmine ht hown
    have hinsert : store.insertClaim request now w.state.nextId
        (w.state.keys.filter (·.owner == owner)) = some (keys.filter (·.owner == owner)) := by
      rw [insertClaim_own _ howner, hkeys]
      rfl
    rw [only_setCall (s := { w.state with keys := keys, nextId := w.state.nextId + 1 })
      (h.locks_ne (by rw [ht]; rfl)), hkept (.granted ⟨⟨_, request.owner, _⟩, _⟩ _) howner]
    exact .inserted (only_calls_of_eq ht howner) hinsert
  | @conflict t now request ht hkeys =>
    have howner : request.owner = owner := hmine ht hown
    have hinsert : store.insertClaim request now w.state.nextId
        (w.state.keys.filter (·.owner == owner)) = none := by
      rw [insertClaim_own _ howner, hkeys]
      rfl
    rw [only_setCall (h.locks_ne (by rw [ht]; rfl)), hkept (.selecting request now) howner]
    exact .conflict (only_calls_of_eq ht howner) hinsert
  | @missing t now request ht hrow =>
    have howner : request.owner = owner := hmine ht hown
    rw [only_setCall (h.locks_ne (by rw [ht]; rfl))]
    exact .missing (only_calls_of_eq ht howner) ((find?_own howner).trans hrow)
  | @refused t now request record error ht hrow hfree hclaim =>
    have howner : request.owner = owner := hmine ht hown
    rw [only_setCall (h.locks_ne (by rw [ht]; rfl))]
    exact .refused (only_calls_of_eq ht howner) ((find?_own howner).trans hrow) (blocked_only hfree)
      hclaim
  | @replayed t now request record replay ht hrow hfree hclaim =>
    have howner : request.owner = owner := hmine ht hown
    rw [only_setCall (h.locks_ne (by rw [ht]; rfl))]
    exact .replayed (only_calls_of_eq ht howner) ((find?_own howner).trans hrow)
      (blocked_only hfree)
      hclaim
  | @claimed t now request record row ht hrow hfree hclaim =>
    have howner : request.owner = owner := hmine ht hown
    rw [only_setCall (s := { w.state with keys := writeKey row w.state.keys })
      (h.locks_ne (by rw [ht]; rfl)), hkept (.granted ⟨⟨_, request.owner, _⟩, _⟩ _) howner,
      only_writeKey h hrow hclaim]
    exact .claimed (only_calls_of_eq ht howner) ((find?_own howner).trans hrow) (blocked_only hfree)
      hclaim
  | @acted t statusCode grant work body ht =>
    have howner : grant.claim.owner = owner := hmine ht hown
    rw [only_setCall (h.locks_ne (by rw [ht]; rfl)), hkept (.acted grant _ _ _) howner]
    exact .acted (only_calls_of_eq ht howner)
  | @raised t statusCode grant ht =>
    have howner : grant.claim.owner = owner := hmine ht hown
    rw [only_setCall (h.locks_ne (by rw [ht]; rfl)), hkept (.failed grant) howner]
    exact .raised (only_calls_of_eq ht howner)
  | @recorded t statusCode grant work body ht hfree =>
    have howner : grant.claim.owner = owner := hmine ht hown
    have hsame := any_id_own owner w.state.keys
      fun row hrow hid => (h.named ht rfl row hrow hid).trans howner
    have hview := only_locked_own grant.claim.id (h.locks_ne (by rw [ht]; rfl))
      (show (Call.recorded grant statusCode work body w.state.clock).owner = owner from howner)
      (w.state.keys.any fun r => r.id == grant.claim.id)
    rw [hview, ← hsame]
    exact .recorded (only_calls_of_eq ht howner) (blocked_only hfree)
  | @committed t statusCode completedAt lost grant work body ht =>
    have howner : grant.claim.owner = owner := hmine ht hown
    have hnext : (if lost then some (Call.failed grant) else none).filter
        (fun call : Call Work Body => call.owner == owner) =
        if lost then some (.failed grant) else none := by
      cases lost with
      | true => exact hkept (.failed grant) howner
      | false => rfl
    rw [only_unlock, hnext, only_commit h ht howner]
    exact .committed (only_calls_of_eq ht howner)
  | @dropped t call grant ht hcall =>
    have howner := hmine ht hown
    rcases hcall with ⟨statusCode, rfl⟩ | ⟨statusCode, work, body, rfl⟩
    · rw [only_setCall (h.locks_ne (by rw [ht]; rfl)), hkept (.failed grant) howner]
      exact .dropped (only_calls_of_eq ht howner) (Or.inl ⟨_, rfl⟩)
    · rw [only_setCall (h.locks_ne (by rw [ht]; rfl)), hkept (.failed grant) howner]
      exact .dropped (only_calls_of_eq ht howner) (Or.inr ⟨_, _, _, rfl⟩)
  | @rolledBack t statusCode completedAt grant work body ht =>
    have howner : grant.claim.owner = owner := hmine ht hown
    rw [only_unlock, hkept (.failed grant) howner]
    exact .rolledBack (only_calls_of_eq ht howner)
  | @released t grant ht hfree =>
    have howner : grant.claim.owner = owner := hmine ht hown
    rw [only_setCall (s := { w.state with keys := releaseClaim grant.claim w.state.keys })
      (h.locks_ne (by rw [ht]; rfl)), only_releaseClaim]
    refine .released (only_calls_of_eq ht howner) ?_
    rw [Bool.and_eq_false_iff] at hfree ⊢
    refine hfree.imp (fun hnone => ?_) blocked_only
    exact List.any_eq_false.2 fun r hr => List.any_eq_false.1 hnone r (List.mem_of_mem_filter hr)
  | died ht =>
    have howner := hmine ht hown
    rw [only_unlock]
    exact .died (only_calls_of_eq ht howner)
  | purged hfree =>
    rw [only_purgeExpired]
    refine .purged (List.any_eq_false.2 fun r hr hlocked => ?_)
    obtain ⟨hexpired, hlock⟩ := Bool.and_eq_true_iff.1 hlocked
    refine List.any_eq_false.1 hfree r (List.mem_of_mem_filter hr) ?_
    refine Bool.and_eq_true_iff.2 ⟨hexpired, ?_⟩
    obtain ⟨u, hu⟩ := Option.isSome_iff_exists.1 hlock
    exact Option.isSome_iff_exists.2 ⟨u, Option.eq_some_of_filter_eq_some hu⟩
  | ticked => exact .ticked

end Steps

/-! ## Runs and the view -/

theorem IdempotencyStore.next_of_step {store : IdempotencyStore} {s s' : IdempotentState Work Body}
    {l : IdempotentLabel Work Body} (h : IdempotencyStep store s l s') :
    store.next s l = some s' := by
  cases h with
  | dropped ht hcall =>
    rcases hcall with ⟨_, rfl⟩ | ⟨_, _, _, rfl⟩ <;> simp [IdempotencyStore.next, ht]
  | released ht hfree => simp [IdempotencyStore.next, ht, hfree]
  | purged hfree => simp [IdempotencyStore.next, hfree]
  | _ => simp [IdempotencyStore.next, *]

section Runs

variable {owner : String} {w : Watched Work Body}

/-- Whoever makes a call asks for it. -/
theorem Owned.asked_by (h : Owned w) {t : Nat} {call : Call Work Body}
    (ht : w.state.calls t = some call) :
    ∃ request, w.requests t = some request ∧ request.owner = call.owner := by
  have hgrant : ∀ grant, call.grant? = some grant →
      ∃ request, w.requests t = some request ∧ request.owner = grant.claim.owner := by
    intro grant hgrant
    obtain ⟨request, hrequest, howner, -⟩ := (h.granted t grant (by rw [ht]; exact hgrant)).request
    exact ⟨request, hrequest, howner.symm⟩
  cases call with
  | claiming request now => exact ⟨request, h.asks t request (by rw [ht]; rfl), rfl⟩
  | selecting request now => exact ⟨request, h.asks t request (by rw [ht]; rfl), rfl⟩
  | granted grant statusCode => exact hgrant grant rfl
  | acted grant statusCode work body => exact hgrant grant rfl
  | recorded grant statusCode work body completedAt => exact hgrant grant rfl
  | failed grant => exact hgrant grant rfl

/-- The requests of the view are those of the calls of the view. -/
theorem Owned.only_requests (h : Owned w) (t : Nat) : (w.only owner).requests t =
    ((w.state.only owner).calls t).bind fun _ => w.requests t := by
  have hview : (w.only owner).requests t = (w.requests t).filter (·.owner == owner) := rfl
  have hcalls : (w.state.only owner).calls t =
      (w.state.calls t).filter (·.owner == owner) := rfl
  rw [hview, hcalls]
  cases hcall : w.state.calls t with
  | none =>
    have hnone : w.requests t = none := by
      by_contra hne
      exact h.opened t hne hcall
    rw [hnone]
    rfl
  | some call =>
    obtain ⟨request, hrequest, howner⟩ := h.asked_by hcall
    rw [hrequest, Option.filter_some, Option.filter_some, howner]
    split <;> rfl

variable {store : IdempotencyStore} {s' : IdempotentState Work Body}
  {l : IdempotentLabel Work Body}

/-- What the open calls ask for after a step that starts none of them. -/
theorem asked_of_open {calls : Nat → Option (Call Work Body)} {u : Nat} {call : Call Work Body}
    (hcall : calls u = some call) (hstart : ∀ t request, l = .start t request → u ≠ t) :
    w.asked calls l u = w.requests u := by
  cases l with
  | start t request => simp [Watched.asked, hcall, hstart t request rfl]
  | _ => simp [Watched.asked, hcall]

/-- What is answered is answered to the call's owner. -/
theorem answer_owner {request : IdempotentRequest} {answer : ClaimAnswer Body}
    (h : store.answer w.state l = some (request, answer)) :
    ∃ t call, l.call? = some t ∧ w.state.calls t = some call ∧ call.owner = request.owner ∧
      w.state.foreign owner l = !w.state.isOf owner t := by
  cases l with
  | insert t =>
    simp only [IdempotencyStore.answer] at h
    split at h
    · rename_i asked now ht
      obtain ⟨keys, -, heq⟩ := Option.map_eq_some_iff.1 h
      cases heq
      exact ⟨t, _, rfl, ht, rfl, rfl⟩
    · cases h
  | select t =>
    simp only [IdempotencyStore.answer] at h
    split at h
    · rename_i asked now ht
      refine ⟨t, _, rfl, ht, ?_, rfl⟩
      split at h
      · cases h
        rfl
      · split at h <;> cases h <;> rfl
    · cases h
  | _ => cases h

/-- What is committed is committed by the request's owner. -/
theorem Owned.completion_owner (h : Owned w) {done : Completion Body}
    (hdone : w.completion l = some done) :
    ∃ t call, l.call? = some t ∧ w.state.calls t = some call ∧ call.owner = done.request.owner ∧
      w.state.foreign owner l = !w.state.isOf owner t := by
  cases l with
  | commit t lost =>
    simp only [Watched.completion] at hdone
    split at hdone
    · rename_i grant statusCode work body completedAt request ht hrequest
      cases hdone
      obtain ⟨asked, hasked, howner⟩ := h.asked_by ht
      cases hrequest.symm.trans hasked
      exact ⟨t, _, rfl, ht, howner.symm, rfl⟩
    · cases hdone
  | _ => cases hdone

/-- The owner's call is in the view what it is. -/
theorem only_calls_own {t : Nat} (hown : w.state.isOf owner t = true ∨ w.state.calls t = none) :
    (w.state.only owner).calls t = w.state.calls t := by
  cases hcall : w.state.calls t with
  | none => simp [only, hcall]
  | some call =>
    refine only_calls_of_eq hcall ?_
    simpa [isOf, hcall] using hown

/-- A step of the owner's is watched alike in the view. -/
theorem observe_only (h : Owned w) (hown : w.state.foreign owner l = false)
    (hstep : IdempotencyStep store w.state l s') :
    (w.observe store l s').only owner = (w.only owner).observe store l (s'.only owner) := by
  have h' : Owned (w.observe store l s') := h.next hstep
  have hmine : ∀ {u : Nat} {call : Call Work Body}, w.state.calls u = some call →
      (!w.state.isOf owner u) = false → call.owner = owner := by
    intro u call hu hof
    simpa [isOf, hu] using hof
  have hsame : ∀ t, w.state.foreign owner l = (!w.state.isOf owner t) →
      (w.state.only owner).calls t = w.state.calls t := fun t heq =>
    only_calls_own (Or.inl (by simpa using heq.symm.trans hown))
  -- what is noted of the step, the requests, the completions and the answers, in the view
  have hrequests : ((w.observe store l s').only owner).requests =
      (w.only owner).asked (s'.only owner).calls l := by
    funext u
    have hview : (w.observe store l s').state = s' := rfl
    rw [h'.only_requests u, hview]
    cases hcall : (s'.only owner).calls u with
    | none => rw [asked_eq_none l hcall, Option.bind_none]
    | some call =>
      obtain ⟨hcall', hcallowner⟩ := Option.filter_eq_some_iff.1 hcall
      obtain ⟨request, hrequest, howner⟩ := h'.asked_by (t := u) hcall'
      have hasked : (w.observe store l s').requests u = w.asked s'.calls l u := rfl
      rw [Option.bind_some, hasked]
      have hstays : w.asked s'.calls l u = w.requests u →
          (w.only owner).requests u = w.requests u := by
        intro heq
        have hview : (w.only owner).requests u = (w.requests u).filter (·.owner == owner) := rfl
        rw [hview, ← heq, ← hasked, hrequest, Option.filter_some, howner, if_pos hcallowner]
      by_cases hstart : ∃ asked, l = .start u asked
      · obtain ⟨asked, rfl⟩ := hstart
        simp [Watched.asked, hcall, hcall']
      · have hne : ∀ t asked, l = .start t asked → u ≠ t := fun t asked hl heq =>
          hstart ⟨asked, heq ▸ hl⟩
        have heq := asked_of_open (w := w) hcall' hne
        rw [asked_of_open hcall hne, hstays heq, heq]
  have hcompletions : ((w.completion l).toList).filter (·.request.owner == owner) =
      ((w.only owner).completion l).toList := by
    cases l with
    | commit t lost =>
      have hview : (w.only owner).state.calls t = w.state.calls t := hsame t rfl
      have hasks : (w.only owner).requests t = (w.requests t).filter (·.owner == owner) := rfl
      simp only [Watched.completion, hview, hasks]
      cases hcall : w.state.calls t with
      | none => rfl
      | some call =>
        obtain ⟨request, hrequest, howner⟩ := h.asked_by hcall
        have hown' : request.owner = owner := howner.trans (hmine hcall hown)
        have hkept : (some request).filter (·.owner == owner) = some request := by simp [hown']
        rw [hrequest, hkept]
        cases call <;> simp [hown']
    | _ => rfl
  have hanswers : ((store.answer w.state l).toList).filter (·.1.owner == owner) =
      (store.answer (w.state.only owner) l).toList := by
    have hkeys : (w.state.only owner).keys = w.state.keys.filter (·.owner == owner) := rfl
    cases l with
    | insert t =>
      simp only [IdempotencyStore.answer, hsame t rfl, hkeys]
      cases hcall : w.state.calls t with
      | none => rfl
      | some call =>
        cases call with
        | claiming request now =>
          have howner : request.owner = owner := hmine hcall hown
          have hinsert : store.insertClaim request now w.state.nextId _ = _ :=
            insertClaim_own w.state.keys howner now w.state.nextId
          simp only [show (w.state.only owner).nextId = w.state.nextId from rfl, hinsert]
          cases store.insertClaim request now w.state.nextId w.state.keys <;> simp [howner]
        | _ => rfl
    | select t =>
      simp only [IdempotencyStore.answer, hsame t rfl, hkeys]
      cases hcall : w.state.calls t with
      | none => rfl
      | some call =>
        cases call with
        | selecting request now =>
          have howner : request.owner = owner := hmine hcall hown
          simp only [find?_own howner]
          split
          · simp [howner]
          · split <;> simp [howner]
        | _ => rfl
    | _ => rfl
  have hview : (w.observe store l s').only owner = {
      state := s'.only owner
      requests := ((w.observe store l s').only owner).requests
      completions := (w.only owner).completions ++
        ((w.completion l).toList).filter (·.request.owner == owner)
      answers := (w.only owner).answers ++
        ((store.answer w.state l).toList).filter (·.1.owner == owner) } := by
    simp [Watched.only, Watched.observe]
  rw [hview, hrequests, hcompletions, hanswers]
  rfl

/-- A step of another owner is not watched in the view. -/
theorem observe_of_foreign (h : Owned w) (hforeign : w.state.foreign owner l = true)
    (hstep : IdempotencyStep store w.state l s') :
    (w.observe store l s').only owner =
      { w.only owner with state := { w.state.only owner with nextId := s'.nextId } } := by
  have h' : Owned (w.observe store l s') := h.next hstep
  have hstate := only_of_foreign h hforeign hstep
  have hother : ∀ t call, w.state.calls t = some call →
      w.state.foreign owner l = (!w.state.isOf owner t) → (call.owner == owner) = false := by
    intro t call hcall heq
    have hof := heq.symm.trans hforeign
    simpa [isOf, hcall] using hof
  have hrequests : ((w.observe store l s').only owner).requests = (w.only owner).requests := by
    funext u
    have hcalls : (s'.only owner).calls = (w.state.only owner).calls := by rw [hstate]
    rw [h'.only_requests u, h.only_requests u]
    have hview : ((w.observe store l s').state.only owner).calls = (w.state.only owner).calls :=
      hcalls
    rw [hview]
    cases hcall : (w.state.only owner).calls u with
    | none => rfl
    | some call =>
      have hcall' := (Option.filter_eq_some_iff.1 (hcalls ▸ hcall)).1
      refine asked_of_open hcall' fun t request heq hut => ?_
      -- a call that starts was not open
      subst heq hut
      cases hstep with
      | start hfree =>
        rw [show (w.state.only owner).calls u =
          (w.state.calls u).filter (·.owner == owner) from rfl,
          hfree] at hcall
        cases hcall
  have hcompletions : ((w.completion l).toList).filter (·.request.owner == owner) = [] := by
    refine List.filter_eq_nil_iff.2 fun done hdone => ?_
    obtain ⟨t, call, -, hcall, howner, heq⟩ := h.completion_owner (Option.mem_toList.1 hdone)
    rw [← howner, hother t call hcall heq]
    exact Bool.false_ne_true
  have hanswers : ((store.answer w.state l).toList).filter (·.1.owner == owner) = [] := by
    refine List.filter_eq_nil_iff.2 fun answer hanswer => ?_
    obtain ⟨t, call, -, hcall, howner, heq⟩ := answer_owner (Option.mem_toList.1 hanswer)
    rw [← howner, hother t call hcall heq]
    exact Bool.false_ne_true
  have hview : (w.observe store l s').only owner = {
      state := s'.only owner
      requests := ((w.observe store l s').only owner).requests
      completions := (w.only owner).completions ++
        ((w.completion l).toList).filter (·.request.owner == owner)
      answers := (w.only owner).answers ++
        ((store.answer w.state l).toList).filter (·.1.owner == owner) } := by
    simp [Watched.only, Watched.observe]
  rw [hview, hrequests, hcompletions, hanswers, hstate, List.append_nil, List.append_nil]

/-- Ids are only drawn. -/
theorem IdempotencyStep.nextId_le {s : IdempotentState Work Body}
    (h : IdempotencyStep store s l s') : s.nextId ≤ s'.nextId := by
  cases h with
  | inserted ht hkeys => exact Nat.le_succ _
  | _ => exact Nat.le_refl _

variable (owner) in
/-- A step without what the other owners do leads to the view of the state it leads to. -/
theorem next_only {l : WatchedLabel Work Body} {w' : Watched Work Body} (h : Owned w)
    (hnext : store.watched.next w l = some w') :
    store.watched.next (w.only owner) (eraseStep store owner w l) = some (w'.only owner) := by
  cases l with
  | draw n =>
    cases hnext
    rfl
  | store l =>
    obtain ⟨s', hstate, rfl⟩ := Option.map_eq_some_iff.1 hnext
    have hstep := store.step_of_next hstate
    have herase : eraseStep store owner w (.store l) = if w.state.foreign owner l then
        .draw (((store.next w.state l).map (·.nextId)).getD 0 - w.state.nextId) else .store l := rfl
    rw [herase]
    by_cases hforeign : w.state.foreign owner l = true
    · rw [if_pos hforeign, hstate, observe_of_foreign h hforeign hstep]
      have hdrawn : w.state.nextId + (s'.nextId - w.state.nextId) = s'.nextId :=
        Nat.add_sub_cancel' hstep.nextId_le
      simp only [IdempotencyStore.watched, IdempotencyStore.watchedNext, Watched.skip, Watched.only,
        only, Option.map_some, Option.getD_some, hdrawn]
    · rw [if_neg hforeign, observe_only h (Bool.eq_false_iff.2 hforeign) hstep]
      have hview := IdempotencyStore.next_of_step
        (step_only h (Bool.eq_false_iff.2 hforeign) hstep)
      exact congrArg (Option.map ((w.only owner).observe store l)) hview

/-- A run without what the other owners do leads to the view of the state the run leads to. -/
theorem exec_only (ls : List (WatchedLabel Work Body)) {w w' : Watched Work Body} (h : Owned w)
    (hrun : store.watched.exec w ls = some w') :
    store.watched.exec (w.only owner) (erase store owner w ls) = some (w'.only owner) := by
  induction ls generalizing w with
  | nil =>
    cases hrun
    rfl
  | cons l ls ih =>
    obtain ⟨m, hm, hrest⟩ := Option.bind_eq_some_iff.1 ((if_pos trivial).symm.trans hrun)
    have hstep := next_only owner h hm
    have hwatched : store.watchedNext w l = some m := hm
    have herase : erase store owner w (l :: ls) =
        eraseStep store owner w l :: erase store owner m ls := by
      rw [erase, hwatched]
    rw [herase, Machine.exec, Machine.execOf, if_pos trivial, hstep]
    exact ih (owned_next h hm) hrest

end Runs

/-! ## Both halves -/

/-- Along runs in which each response is recorded on a row of its request, every replay is the
response of a committed execution of its request; and in every run the steps of the other owners can
be left out. -/
theorem replays_truthful (store : IdempotencyStore) :
    (∀ s : Watched Work Body, store.watched.RunOf KeepsRequest .empty s → Truthful s) ∧
    ∀ (owner : String) (ls : List (WatchedLabel Work Body)) (s : Watched Work Body),
      store.watched.exec .empty ls = some s →
      store.watched.exec .empty (erase store owner .empty ls) = some (s.only owner) := by
  constructor
  · intro s hrun
    have hstep : ∀ (s : Watched Work Body) l s', Honest s → KeepsRequest s l →
        store.watched.next s l = some s' → Honest s' := fun _ _ _ h hok hnext => h.next hok hnext
    exact (hrun.preserves hstep honest_empty).truthful
  · intro owner ls s hrun
    exact exec_only ls owned_empty hrun

/-! ## Two runs -/

/-- Two owners use one key; the first one's retry is answered with the stored response. -/
def twoOwners : List (WatchedLabel Nat String) :=
  ([.start 0 createRequest, .insert 0, .start 1 { createRequest with owner := "2" }, .insert 1,
    .act 0 (some (7, "first")), .record 0, .commit 0 false, .start 2 createRequest, .insert 2,
    .select 2] : List (IdempotentLabel Nat String)).map .store

/-- The retry's replay is truthful, and the first owner sees the same run without the second one. -/
theorem replays_truthful_for_two_owners :
    ∃ s : Watched Nat String, IdempotencyStore.default.watched.exec .empty twoOwners = some s ∧
      s.answers.getLast? = some (createRequest, .replayed ⟨201, some "first"⟩) ∧ Truthful s ∧
      IdempotencyStore.default.watched.exec .empty
        (erase IdempotencyStore.default "1" .empty twoOwners) = some (s.only "1") := by
  have hrun : (IdempotencyStore.default.watched.execOf KeepsRequest .empty twoOwners).map
      (fun s => s.answers.getLast?) =
        some (some (createRequest, .replayed ⟨201, some "first"⟩)) := by
    decide +kernel
  obtain ⟨s, hs, hanswer⟩ := Option.map_eq_some_iff.1 hrun
  have hexec := Machine.exec_of_execOf _ hs
  exact ⟨s, hexec, hanswer,
    (replays_truthful IdempotencyStore.default).1 s (Machine.runOf_of_execOf _ hs),
    (replays_truthful IdempotencyStore.default).2 "1" twoOwners s hexec⟩

/-- Every step of a call is taken within `limit` seconds of the call's start. -/
def within (limit : Nat) : Nat → (Nat → Nat) → List (IdempotentLabel Nat String) → Bool
  | _, _, [] => true
  | clock, started, .tick n :: ls => within limit (clock + n) started ls
  | clock, started, .start t _ :: ls => within limit clock (Function.update started t clock) ls
  | clock, started, l :: ls =>
    (l.call?.all fun t => decide (clock ≤ started t + limit)) && within limit clock started ls

/-- Another request under the key of `createRequest`. -/
def otherRequest : IdempotentRequest := { createRequest with requestHash := "9a4f" }

/-- The first pod dies with its claim, and a second call takes the claim over shortly before the key
expires. It is still running when a third call uses the expired key for another request, and
commits; a retry of the third call comes next. -/
def afterExpiry : List (IdempotentLabel Nat String) :=
  [.start 0 createRequest, .insert 0, .die 0, .tick 86390, .start 1 createRequest, .insert 1,
    .select 1, .act 1 (some (1, "first")), .tick 20, .start 2 otherRequest, .insert 2, .select 2,
    .record 1, .commit 1 false, .start 3 otherRequest, .insert 3, .select 3]

/-- The retry is answered with the response to another request. -/
theorem not_truthful_after_expiry :
    within IdempotencyStore.default.ttl 0 (fun _ => 0) afterExpiry = true ∧
    ∃ s : Watched Nat String, IdempotencyStore.default.watched.Run .empty s ∧
      IdempotencyStore.default.watched.exec .empty (afterExpiry.map .store) = some s ∧
      (otherRequest, .replayed ⟨201, some "first"⟩) ∈ s.answers ∧
      s.completions.map (·.request) = [createRequest] ∧ ¬ Truthful s := by
  have hrun : (IdempotencyStore.default.watched.exec .empty (afterExpiry.map .store)).map
      (fun s => (s.answers.getLast?, s.completions.map (·.request))) =
        some (some (otherRequest, .replayed ⟨201, some "first"⟩), [createRequest]) := by
    decide +kernel
  obtain ⟨s, hs, heq⟩ := Option.map_eq_some_iff.1 hrun
  obtain ⟨hanswer, hrequests⟩ := Prod.mk.inj heq
  have hmem := List.mem_of_getLast? hanswer
  refine ⟨by decide +kernel, s, Machine.run_of_exec _ hs, hs, hmem, hrequests, fun htruthful => ?_⟩
  obtain ⟨done, hdone, -, -, -, hhash, -⟩ := htruthful _ _ hmem
  have hrequest : done.request ∈ [createRequest] := hrequests ▸ List.mem_map_of_mem hdone
  rw [List.mem_singleton.1 hrequest] at hhash
  exact absurd hhash (by decide)

end SmartLogistics.Platform
