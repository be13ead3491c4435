import Mathlib.Logic.Function.Basic
import SmartLogistics.Library.History

/-!
# The signing keys of a token verifier

A `TokenVerifier` keeps the keys it has fetched from Identity. A token whose key id is not among
them, or that comes when they are stale, makes it refresh them: behind a lock, and not when it has
fetched them lately. `Verifier.machine` interleaves the calls of `verify` at their awaits.

Tokens with unknown key ids may fetch every ten seconds. `spaced_iff`: they do not fetch more often
(`Spaced`) exactly in the runs in which none of them starts a fetch within ten seconds after the
start of one that has failed, for a fetch that fails leaves `_fetched_at` as it was.
-/

set_option autoImplicit false

namespace SmartLogistics.Platform

open SmartLogistics.Library

variable {Key : Type}

/-! ## The machine -/

/-- Who asks for a refresh: a token that comes with a key id, forced if that is unknown, or the
start of the service. -/
inductive Refresh
  | verify (kid : Option String) (force : Bool)
  | warmUp
  deriving DecidableEq

namespace Refresh

/-- The argument `force` of `_refresh`. -/
def force : Refresh → Bool
  | .verify _ force => force
  | .warmUp => true

/-- It is asked for by a token with an unknown key id. -/
def forUnknownKid : Refresh → Bool
  | .verify _ force => force
  | .warmUp => false

end Refresh

/-- A fetch in progress, by the call that holds the lock. -/
structure Fetch where
  call : Nat
  refresh : Refresh
  started : Nat

/-- What shows of the fetches. -/
inductive FetchSignal
  | started (refresh : Refresh) (time : Nat)
  /-- The fetch that was started then has failed. -/
  | failed (refresh : Refresh) (time : Nat)
  deriving DecidableEq

/-- The errors of a verification, as far as its key goes. -/
inductive KeyError
  /-- `AuthenticationError("Token was signed with an unknown key.")`. -/
  | unknownKey
  /-- `UpstreamUnavailableError("Could not load signing keys.")`. -/
  | unavailable
  /-- An answer that is not the JSON of a key set. -/
  | unreadable
  deriving DecidableEq

/-- A verifier and the calls that use it; times are in milliseconds. -/
structure Verifier (Key : Type) where
  cacheSeconds : Int
  staticKey : Option Key
  /-- The monotonic clock. -/
  now : Nat
  keys : List (String × Key)
  fetchedAt : Nat
  /-- How many calls there were; they are numbered in this order. -/
  begun : Nat
  /-- The calls that wait for the lock. -/
  waiting : Nat → Option Refresh
  /-- The lock is held while a fetch is awaited. -/
  fetching : Option Fetch
  /-- What `_key_for` returned or raised. -/
  answers : Nat → Option (Except KeyError Key)
  /-- The fetches, oldest first. -/
  log : List FetchSignal

/-- A scheduler choice. -/
inductive VerifierStep (Key : Type)
  | tick (elapsed : Nat)
  | warmUp
  | verify (kid : Option String)
  /-- A call gets the lock. -/
  | acquire (call : Nat)
  /-- The fetch answers with these keys. -/
  | loaded (keys : List (String × Key))
  /-- The fetch raises an `HTTPError`. -/
  | failed
  /-- The answer cannot be read. -/
  | unreadable

namespace Verifier

/-- A verifier that has fetched nothing. -/
def initial (cacheSeconds : Int) (staticKey : Option Key) (now : Nat) : Verifier Key where
  cacheSeconds := cacheSeconds
  staticKey := staticKey
  now := now
  keys := []
  fetchedAt := 0
  begun := 0
  waiting := fun _ => none
  fetching := none
  answers := fun _ => none
  log := []

/-- How long ago the keys were fetched. -/
def age (s : Verifier Key) : Int := (s.now : Int) - s.fetchedAt

/-- `self._keys.get(kid)`. -/
def key (s : Verifier Key) (kid : Option String) : Option Key :=
  kid.bind fun kid => s.keys.lookup kid

/-- The end of `_key_for`. -/
def keyFor (s : Verifier Key) (kid : Option String) : Except KeyError Key :=
  match s.key kid with
  | some key => .ok key
  | none => .error .unknownKey

/-- A call is answered. -/
def answer (s : Verifier Key) (call : Nat) (result : Except KeyError Key) : Verifier Key :=
  { s with answers := Function.update s.answers call (some result) }

/-- `_refresh` has returned to the call. -/
def resume (s : Verifier Key) (call : Nat) : Refresh → Verifier Key
  | .verify kid _ => s.answer call (s.keyFor kid)
  | .warmUp => s

/-- `_refresh` begins: the call waits for the lock. -/
def enqueue (s : Verifier Key) (refresh : Refresh) : Verifier Key :=
  { s with
    begun := s.begun + 1
    waiting := Function.update s.waiting s.begun (some refresh) }

/-- The keys are young enough for the refresh. -/
def young (s : Verifier Key) (refresh : Refresh) : Bool :=
  decide (s.age < if refresh.force then 10000 else s.cacheSeconds * 1000)

/-- The fetch in progress has failed. -/
def fetchFailed (s : Verifier Key) (fetch : Fetch) : Verifier Key :=
  { s with
    fetching := none
    log := s.log ++ [.failed fetch.refresh fetch.started] }

/-- The step of a verifier, if it can be taken. -/
def next (s : Verifier Key) : VerifierStep Key → Option (Verifier Key)
  | .tick elapsed => some { s with now := s.now + elapsed }
  | .warmUp => if s.staticKey.isSome then some s else some (s.enqueue .warmUp)
  | .verify kid =>
    match s.staticKey with
    | some key => some ({ s with begun := s.begun + 1 }.answer s.begun (.ok key))
    | none =>
      if (s.key kid).isNone || decide (s.cacheSeconds * 1000 < s.age) then
        some (s.enqueue (.verify kid (s.key kid).isNone))
      else some ({ s with begun := s.begun + 1 }.answer s.begun (s.keyFor kid))
  | .acquire call =>
    match s.fetching, s.waiting call with
    | none, some refresh =>
      let s := { s with waiting := Function.update s.waiting call none }
      -- another call may have refreshed the keys while this one waited
      if s.young refresh then some (s.resume call refresh)
      else some { s with
        fetching := some ⟨call, refresh, s.now⟩
        log := s.log ++ [.started refresh s.now] }
    | _, _ => none
  | .loaded keys =>
    s.fetching.map fun fetch =>
      { s with
        keys := keys
        fetchedAt := s.now
        fetching := none }.resume fetch.call fetch.refresh
  | .failed =>
    s.fetching.map fun fetch =>
      -- go on with the keys we have
      if s.keys.isEmpty then (s.fetchFailed fetch).answer fetch.call (.error .unavailable)
      else (s.fetchFailed fetch).resume fetch.call fetch.refresh
  | .unreadable =>
    s.fetching.map fun fetch =>
      (s.fetchFailed fetch).answer fetch.call (.error .unreadable)

/-- All interleavings of the calls of a verifier. -/
def machine (Key : Type) : Machine (Verifier Key) (VerifierStep Key) where
  next := next

/-- The step starts a fetch for a token with an unknown key id. -/
def StartsFetch (s : Verifier Key) (l : VerifierStep Key) : Prop :=
  ∃ call refresh, l = .acquire call ∧ s.fetching = none ∧ s.waiting call = some refresh ∧
    refresh.forUnknownKid = true ∧ s.young refresh = false

/-- No token with an unknown key id starts a fetch within ten seconds after the start of one that
has failed. -/
def NoRecentFailure (s : Verifier Key) (l : VerifierStep Key) : Prop :=
  s.StartsFetch l → ∀ refresh time, .failed refresh time ∈ s.log →
    refresh.forUnknownKid = true → time + 10000 ≤ s.now

end Verifier

/-- Tokens with unknown key ids start their fetches ten seconds apart. -/
def Spaced (log : List FetchSignal) : Prop :=
  Throughout (fun before signal => ∀ refresh time, signal = .started refresh time →
    refresh.forUnknownKid = true → ∀ refresh' time', .started refresh' time' ∈ before →
      refresh'.forUnknownKid = true → time' + 10000 ≤ time) log

/-! ## What a run keeps -/

namespace Verifier

variable {s s' : Verifier Key} {l : VerifierStep Key}

/-- A fetch that was started has succeeded no later than the last one that did, or has failed, or is
in progress. -/
structure Dated (s : Verifier Key) : Prop where
  clock : s.fetchedAt ≤ s.now
  ended : ∀ refresh time, .started refresh time ∈ s.log → time ≤ s.fetchedAt ∨
    .failed refresh time ∈ s.log ∨
      ∃ fetch, s.fetching = some fetch ∧ fetch.refresh = refresh ∧ fetch.started = time
  failed : ∀ refresh time, .failed refresh time ∈ s.log → .started refresh time ∈ s.log
  current : ∀ fetch, s.fetching = some fetch →
    .started fetch.refresh fetch.started ∈ s.log ∧ fetch.started ≤ s.now

theorem dated_initial (cacheSeconds : Int) (staticKey : Option Key) (now : Nat) :
    (initial cacheSeconds staticKey now).Dated where
  clock := Nat.zero_le now
  ended := fun _ _ h => absurd h List.not_mem_nil
  failed := fun _ _ h => absurd h List.not_mem_nil
  current := fun _ h => nomatch h

theorem Dated.answer (h : s.Dated) (call : Nat) (result : Except KeyError Key) :
    (s.answer call result).Dated :=
  ⟨h.clock, h.ended, h.failed, h.current⟩

theorem Dated.resume (h : s.Dated) (call : Nat) (refresh : Refresh) :
    (s.resume call refresh).Dated := by
  cases refresh with
  | verify kid force => exact h.answer call _
  | warmUp => exact h

@[simp] theorem resume_log (s : Verifier Key) (call : Nat) (refresh : Refresh) :
    (s.resume call refresh).log = s.log := by
  cases refresh with
  | verify kid force => rfl
  | warmUp => rfl

/-- The calls that wait do not matter. -/
theorem Dated.waits (h : s.Dated) (begun : Nat) (waiting : Nat → Option Refresh) :
    { s with
      begun := begun
      waiting := waiting }.Dated :=
  ⟨h.clock, h.ended, h.failed, h.current⟩

/-- A fetch is started when none is in progress. -/
theorem Dated.start (h : s.Dated) (hidle : s.fetching = none) (call : Nat) (refresh : Refresh) :
    { s with
      fetching := some ⟨call, refresh, s.now⟩
      log := s.log ++ [FetchSignal.started refresh s.now] }.Dated := by
  constructor
  · exact h.clock
  · intro refresh' time hstarted
    rcases List.mem_append.1 hstarted with hbefore | hnew
    · rcases h.ended refresh' time hbefore with hold | hfailed | ⟨fetch, hfetch, -⟩
      · exact Or.inl hold
      · exact Or.inr (Or.inl (List.mem_append_left _ hfailed))
      · rw [hidle] at hfetch
        cases hfetch
    · cases List.mem_singleton.1 hnew
      exact Or.inr (Or.inr ⟨_, rfl, rfl, rfl⟩)
  · intro refresh' time hfailed
    rcases List.mem_append.1 hfailed with hbefore | hnew
    · exact List.mem_append_left _ (h.failed refresh' time hbefore)
    · cases List.mem_singleton.1 hnew
  · intro fetch hfetch
    cases hfetch
    exact ⟨List.mem_append_right _ (List.mem_singleton_self _), Nat.le_refl _⟩

/-- The fetch in progress succeeds. -/
theorem Dated.load (h : s.Dated) (keys : List (String × Key)) :
    { s with
      keys := keys
      fetchedAt := s.now
      fetching := none }.Dated := by
  constructor
  · exact Nat.le_refl s.now
  · intro refresh time hstarted
    rcases h.ended refresh time hstarted with hold | hfailed | ⟨fetch, hfetch, -, rfl⟩
    · exact Or.inl (Nat.le_trans hold h.clock)
    · exact Or.inr (Or.inl hfailed)
    · exact Or.inl (h.current fetch hfetch).2
  · exact h.failed
  · intro fetch hfetch
    cases hfetch

/-- The fetch in progress fails. -/
theorem Dated.fail (h : s.Dated) {fetch : Fetch} (hfetch : s.fetching = some fetch) :
    (s.fetchFailed fetch).Dated := by
  constructor
  · exact h.clock
  · intro refresh time hstarted
    rcases List.mem_append.1 hstarted with hbefore | hnew
    · rcases h.ended refresh time hbefore with hold | hfailed | ⟨fetch', hfetch', rfl, rfl⟩
      · exact Or.inl hold
      · exact Or.inr (Or.inl (List.mem_append_left _ hfailed))
      · rw [hfetch] at hfetch'
        cases hfetch'
        exact Or.inr (Or.inl (List.mem_append_right _ (List.mem_singleton_self _)))
    · cases List.mem_singleton.1 hnew
  · intro refresh time hfailed
    rcases List.mem_append.1 hfailed with hbefore | hnew
    · exact List.mem_append_left _ (h.failed refresh time hbefore)
    · cases List.mem_singleton.1 hnew
      exact List.mem_append_left _ (h.current fetch hfetch).1
  · intro fetch' hfetch'
    cases hfetch'

/-- A failure is not counted. -/
theorem spaced_fail (s : Verifier Key) (fetch : Fetch) :
    Spaced (s.fetchFailed fetch).log ↔ Spaced s.log := by
  unfold Spaced fetchFailed
  rw [throughout_concat]
  refine and_iff_left ?_
  intro refresh time hstarted
  cases hstarted

/-- A fetch may be started if those that failed are ten seconds old: the others are as old as the
keys. -/
theorem spaced_start (h : s.Dated) (hidle : s.fetching = none) {refresh : Refresh}
    (hold : s.young refresh = false) :
    Spaced (s.log ++ [.started refresh s.now]) ↔ Spaced s.log ∧
      (refresh.forUnknownKid = true → ∀ refresh' time, .failed refresh' time ∈ s.log →
        refresh'.forUnknownKid = true → time + 10000 ≤ s.now) := by
  unfold Spaced
  rw [throughout_concat]
  refine and_congr_right fun _ => ?_
  constructor
  · intro hspaced hunknown refresh' time hfailed hunknown'
    exact hspaced refresh s.now rfl hunknown refresh' time (h.failed _ _ hfailed) hunknown'
  · intro hfailures refresh' time hstarted hunknown refresh'' time' hstarted' hunknown''
    cases hstarted
    rcases h.ended refresh'' time' hstarted' with hbefore | hfailed | ⟨fetch, hfetch, -⟩
    · -- the keys are ten seconds old
      have hforce : refresh.force = true := by
        cases refresh with
        | verify kid force => exact hunknown
        | warmUp => rfl
      rw [young, hforce, if_pos rfl, decide_eq_false_iff_not, age] at hold
      omega
    · exact hfailures hunknown refresh'' time' hfailed hunknown''
    · rw [hidle] at hfetch
      cases hfetch

/-- What each step keeps, and under which condition it keeps the promise. -/
theorem step (h : s.Dated) (hnext : (machine Key).next s l = some s') :
    s'.Dated ∧ (Spaced s'.log ↔ Spaced s.log ∧ s.NoRecentFailure l) := by
  -- only a call that gets the lock starts a fetch
  have hother : (∀ call, l ≠ .acquire call) → s.NoRecentFailure l := by
    rintro hne ⟨call, refresh, rfl, -⟩
    exact absurd rfl (hne call)
  cases l with
  | tick elapsed =>
    cases hnext
    refine ⟨⟨Nat.le_add_right_of_le h.clock, h.ended, h.failed, fun fetch hfetch => ?_⟩,
      (and_iff_left (hother (by rintro _ ⟨⟩))).symm⟩
    obtain ⟨hstarted, hbefore⟩ := h.current fetch hfetch
    exact ⟨hstarted, Nat.le_add_right_of_le hbefore⟩
  | warmUp =>
    simp only [machine, next] at hnext
    split at hnext
    · cases hnext
      exact ⟨h, (and_iff_left (hother (by rintro _ ⟨⟩))).symm⟩
    · cases hnext
      exact ⟨h.waits _ _, (and_iff_left (hother (by rintro _ ⟨⟩))).symm⟩
  | verify kid =>
    have hkept : s'.Dated ∧ s'.log = s.log := by
      simp only [machine, next] at hnext
      split at hnext
      · cases hnext
        exact ⟨(h.waits (s.begun + 1) s.waiting).answer _ _, rfl⟩
      · split at hnext
        · cases hnext
          exact ⟨h.waits _ _, rfl⟩
        · cases hnext
          exact ⟨(h.waits (s.begun + 1) s.waiting).answer _ _, rfl⟩
    rw [hkept.2]
    exact ⟨hkept.1, (and_iff_left (hother (by rintro _ ⟨⟩))).symm⟩
  | acquire call =>
    simp only [machine, next] at hnext
    split at hnext
    · rename_i refresh hidle hwaiting
      have hwaits := h.waits s.begun (Function.update s.waiting call none)
      split at hnext
      · rename_i hyoung
        cases hnext
        refine ⟨hwaits.resume call refresh, ?_⟩
        rw [resume_log]
        refine (and_iff_left ?_).symm
        rintro ⟨call', refresh', ⟨⟩, -, hwaiting', -, hold⟩
        rw [hwaiting] at hwaiting'
        cases hwaiting'
        exact absurd (hold.symm.trans hyoung) Bool.false_ne_true
      · rename_i hold
        rw [Bool.not_eq_true] at hold
        cases hnext
        refine ⟨hwaits.start hidle call refresh, ?_⟩
        refine (spaced_start hwaits hidle hold).trans (and_congr_right fun _ => ?_)
        constructor
        · rintro hfailures ⟨call', refresh', ⟨⟩, -, hwaiting', hunknown, -⟩
          rw [hwaiting] at hwaiting'
          cases hwaiting'
          exact hfailures hunknown
        · intro hrecent hunknown
          exact hrecent ⟨call, refresh, rfl, hidle, hwaiting, hunknown, hold⟩
    · cases hnext
  | loaded keys =>
    simp only [machine, next, Option.map_eq_some_iff] at hnext
    obtain ⟨fetch, hfetch, rfl⟩ := hnext
    rw [resume_log]
    exact ⟨(h.load keys).resume fetch.call fetch.refresh,
      (and_iff_left (hother (by rintro _ ⟨⟩))).symm⟩
  | failed =>
    simp only [machine, next, Option.map_eq_some_iff] at hnext
    obtain ⟨fetch, hfetch, rfl⟩ := hnext
    have hfail := h.fail hfetch
    split
    · exact ⟨hfail.answer _ _, (spaced_fail s fetch).trans
        (and_iff_left (hother (by rintro _ ⟨⟩))).symm⟩
    · rw [resume_log]
      exact ⟨hfail.resume _ _, (spaced_fail s fetch).trans
        (and_iff_left (hother (by rintro _ ⟨⟩))).symm⟩
  | unreadable =>
    simp only [machine, next, Option.map_eq_some_iff] at hnext
    obtain ⟨fetch, hfetch, rfl⟩ := hnext
    exact ⟨(h.fail hfetch).answer _ _, (spaced_fail s fetch).trans
      (and_iff_left (hother (by rintro _ ⟨⟩))).symm⟩

/-- Tokens with unknown key ids start their fetches ten seconds apart exactly in the runs in which
none of them starts one within ten seconds after the start of one that has failed. -/
theorem spaced_iff (cacheSeconds : Int) (staticKey : Option Key) (now : Nat) {s : Verifier Key}
    (h : (machine Key).Run (initial cacheSeconds staticKey now) s) :
    Spaced s.log ↔
      (machine Key).RunOf NoRecentFailure (initial cacheSeconds staticKey now) s :=
  h.iff_runOf (fun _ _ _ => step) (dated_initial cacheSeconds staticKey now) throughout_nil

/-- The key set rotates: a token with a key id that was not fetched is answered from a second fetch,
and one that comes less than ten seconds later is refused without a fetch. -/
theorem spaced_rotation : ∃ s, (machine Nat).exec (initial 3600 none 60000)
      [.verify (some "a"), .acquire 0, .loaded [("a", 1)], .tick 10000, .verify (some "b"),
        .acquire 1, .loaded [("a", 1), ("b", 2)], .tick 9999, .verify (some "c"), .acquire 2] =
      some s ∧
    [s.answers 0, s.answers 1, s.answers 2] =
      [some (.ok 1), some (.ok 2), some (.error .unknownKey)] ∧
    (Spaced s.log ↔ (machine Nat).RunOf NoRecentFailure (initial 3600 none 60000) s) :=
  ⟨_, rfl, rfl, spaced_iff 3600 none 60000 (Machine.run_of_exec
    [.verify (some "a"), .acquire 0, .loaded [("a", 1)], .tick 10000, .verify (some "b"),
      .acquire 1, .loaded [("a", 1), ("b", 2)], .tick 9999, .verify (some "c"), .acquire 2] rfl)⟩

/-- While Identity answers with errors each token with an unknown key id fetches at once. -/
theorem not_spaced_when_failing : ∃ s, (machine Nat).exec (initial 3600 none 60000)
      [.verify (some "a"), .acquire 0, .failed, .verify (some "b"), .acquire 1] = some s ∧
    ¬ Spaced s.log := by
  refine ⟨_, rfl, fun h => ?_⟩
  have hapart :=
    h [.started (.verify (some "a") true) 60000, .failed (.verify (some "a") true) 60000]
    (.started (.verify (some "b") true) 60000) [] rfl _ _ rfl rfl (.verify (some "a") true) 60000
    List.mem_cons_self rfl
  omega

end Verifier

end SmartLogistics.Platform
