import SmartLogistics.Platform.SigningKeys

/-!
# Keys that Identity no longer serves

A verifier goes on with the keys it has until they are stale. `retired_of_run`: once Identity has
taken a key out of its key set, no call is answered with it after `cache_seconds` (or the ten
seconds between forced fetches, if these are longer), whatever the calls and their order; only a
call whose own fetch fails may still be, for `_refresh` keeps the keys it cannot renew.
-/

set_option autoImplicit false

namespace SmartLogistics.Platform

open SmartLogistics.Library

variable {Key : Type}

namespace Verifier

variable {s s₀ s' : Verifier Key} {l : VerifierStep Key} {key : Key}

/-- The verifier holds the key, under some key id. -/
def Holds (s : Verifier Key) (key : Key) : Prop := key ∈ s.keys.map (·.2)

/-- No key set that the step fetches has the key in it. -/
def Retired (key : Key) (_ : Verifier Key) (l : VerifierStep Key) : Prop :=
  ∀ keys, l = .loaded keys → key ∉ keys.map (·.2)

/-- How old the keys may be when a call is answered from them, in milliseconds. -/
def lifetime (cacheSeconds : Int) : Int := max (cacheSeconds * 1000) 10000

/-! ## Answers -/

theorem holds_of_keyFor {kid : Option String} (h : s.keyFor kid = .ok key) : s.Holds key := by
  simp only [keyFor] at h
  split at h
  · rename_i found hfound
    cases h
    obtain ⟨kid, -, hlookup⟩ := Option.bind_eq_some_iff.1 hfound
    obtain ⟨before, after, hkeys, -⟩ := List.lookup_eq_some_iff.1 hlookup
    rw [Holds, hkeys, List.map_append, List.map_cons]
    exact List.mem_append_right _ List.mem_cons_self
  · cases h

/-- An answer is written for one call. -/
theorem answers_answer {call asked : Nat} {result : Except KeyError Key}
    (h : (s.answer asked result).answers call = some (.ok key)) :
    s.answers call = some (.ok key) ∨ call = asked ∧ result = .ok key := by
  simp only [answer] at h
  by_cases hcall : call = asked
  · rw [hcall, Function.update_self, Option.some.injEq] at h
    exact Or.inr ⟨hcall, h⟩
  · rw [Function.update_of_ne hcall] at h
    exact Or.inl h

theorem answers_resume {call asked : Nat} {refresh : Refresh}
    (h : (s.resume asked refresh).answers call = some (.ok key)) :
    s.answers call = some (.ok key) ∨ call = asked ∧ s.Holds key := by
  cases refresh with
  | verify kid force => exact (answers_answer h).imp_right fun hnew =>
      ⟨hnew.1, holds_of_keyFor hnew.2⟩
  | warmUp => exact Or.inl h

theorem age_le_of_young {refresh : Refresh} (h : s.young refresh = true) :
    s.age ≤ lifetime s.cacheSeconds := by
  have hlt := of_decide_eq_true h
  unfold lifetime
  split at hlt
  · omega
  · omega

/-- Where a new answer comes from: from keys that are young enough, from a fetch, or from keys that
the call's own fetch could not renew. -/
theorem answered (hstatic : s.staticKey = none) (hnext : (machine Key).next s l = some s')
    {call : Nat} (hnew : s'.answers call = some (.ok key))
    (hold : s.answers call ≠ some (.ok key)) :
    s.Holds key ∧ s.age ≤ lifetime s.cacheSeconds ∨
      (∃ keys, l = .loaded keys ∧ key ∈ keys.map (·.2)) ∨
      l = .failed ∧ ∃ fetch, s.fetching = some fetch ∧ fetch.call = call := by
  cases l with
  | tick elapsed =>
    cases hnext
    exact absurd hnew hold
  | warmUp =>
    simp only [machine, next, hstatic, Option.isSome_none, Bool.false_eq_true, if_false] at hnext
    cases hnext
    exact absurd hnew hold
  | verify kid =>
    simp only [machine, next, hstatic] at hnext
    split at hnext
    · cases hnext
      exact absurd hnew hold
    · rename_i hfresh
      cases hnext
      rw [Bool.or_eq_true, not_or, decide_eq_true_eq] at hfresh
      -- the key is in the key set, which is not stale
      have hage : s.age ≤ lifetime s.cacheSeconds := by
        unfold lifetime
        omega
      rcases answers_answer hnew with hkept | ⟨-, hkey⟩
      · exact absurd hkept hold
      · exact Or.inl ⟨holds_of_keyFor hkey, hage⟩
  | acquire asked =>
    simp only [machine, next] at hnext
    split at hnext
    · -- another call has fetched meanwhile
      split at hnext
      · rename_i hyoung
        cases hnext
        rcases answers_resume hnew with hkept | ⟨-, hkey⟩
        · exact absurd hkept hold
        · exact Or.inl ⟨hkey, age_le_of_young hyoung⟩
      · cases hnext
        exact absurd hnew hold
    · cases hnext
  | loaded keys =>
    simp only [machine, next, Option.map_eq_some_iff] at hnext
    obtain ⟨fetch, -, rfl⟩ := hnext
    rcases answers_resume hnew with hkept | ⟨-, hkey⟩
    · exact absurd hkept hold
    · exact Or.inr (Or.inl ⟨keys, rfl, hkey⟩)
  | failed =>
    simp only [machine, next, Option.map_eq_some_iff] at hnext
    obtain ⟨fetch, hfetch, rfl⟩ := hnext
    have hcall : call = fetch.call := by
      split at hnew
      · exact ((answers_answer hnew).resolve_left hold).1
      · exact ((answers_resume hnew).resolve_left hold).1
    exact Or.inr (Or.inr ⟨rfl, fetch, hfetch, hcall.symm⟩)
  | unreadable =>
    simp only [machine, next, Option.map_eq_some_iff] at hnext
    obtain ⟨fetch, -, rfl⟩ := hnext
    cases ((answers_answer hnew).resolve_left hold).2

/-! ## Since a key was retired -/

/-- What a step leaves of the settings and the keys. -/
structure Passes (s s' : Verifier Key) (l : VerifierStep Key) : Prop where
  static : s'.staticKey = s.staticKey
  cache : s'.cacheSeconds = s.cacheSeconds
  keys : s'.keys = s.keys ∧ s'.fetchedAt = s.fetchedAt ∨ l = .loaded s'.keys

theorem Passes.answer (h : Passes s s' l) (call : Nat) (result : Except KeyError Key) :
    Passes s (s'.answer call result) l :=
  ⟨h.static, h.cache, h.keys⟩

theorem Passes.resume (h : Passes s s' l) (call : Nat) (refresh : Refresh) :
    Passes s (s'.resume call refresh) l := by
  cases refresh with
  | verify kid force => exact h.answer call _
  | warmUp => exact h

/-- Only a fetch that succeeds changes the keys. -/
theorem passes_of_next (hnext : (machine Key).next s l = some s') : Passes s s' l := by
  cases l with
  | tick elapsed =>
    cases hnext
    exact ⟨rfl, rfl, Or.inl ⟨rfl, rfl⟩⟩
  | warmUp =>
    simp only [machine, next] at hnext
    split at hnext
    · cases hnext
      exact ⟨rfl, rfl, Or.inl ⟨rfl, rfl⟩⟩
    · cases hnext
      exact ⟨rfl, rfl, Or.inl ⟨rfl, rfl⟩⟩
  | verify kid =>
    simp only [machine, next] at hnext
    split at hnext
    · cases hnext
      exact ⟨rfl, rfl, Or.inl ⟨rfl, rfl⟩⟩
    · split at hnext
      · cases hnext
        exact ⟨rfl, rfl, Or.inl ⟨rfl, rfl⟩⟩
      · cases hnext
        exact ⟨rfl, rfl, Or.inl ⟨rfl, rfl⟩⟩
  | acquire call =>
    simp only [machine, next] at hnext
    split at hnext
    · split at hnext
      · cases hnext
        refine Passes.resume ?_ _ _
        exact ⟨rfl, rfl, Or.inl ⟨rfl, rfl⟩⟩
      · cases hnext
        exact ⟨rfl, rfl, Or.inl ⟨rfl, rfl⟩⟩
    · cases hnext
  | loaded keys =>
    simp only [machine, next, Option.map_eq_some_iff] at hnext
    obtain ⟨fetch, -, rfl⟩ := hnext
    -- the one step that may change the keys
    have hloaded : Passes s { s with
        keys := keys
        fetchedAt := s.now
        fetching := none } (.loaded keys) := ⟨rfl, rfl, Or.inr rfl⟩
    cases hrefresh : fetch.refresh with
    | verify kid force => exact hloaded.answer _ _
    | warmUp => exact hloaded
  | failed =>
    simp only [machine, next, Option.map_eq_some_iff] at hnext
    obtain ⟨fetch, -, rfl⟩ := hnext
    have hfail : Passes s (s.fetchFailed fetch) .failed :=
      ⟨rfl, rfl, Or.inl ⟨rfl, rfl⟩⟩
    split
    · exact hfail.answer _ _
    · exact hfail.resume _ _
  | unreadable =>
    simp only [machine, next, Option.map_eq_some_iff] at hnext
    obtain ⟨fetch, -, rfl⟩ := hnext
    have hfail : Passes s (s.fetchFailed fetch) .unreadable :=
      ⟨rfl, rfl, Or.inl ⟨rfl, rfl⟩⟩
    exact hfail.answer _ _

/-- What has changed since the state `s₀`, if no key set fetched since then has the key in it. -/
structure Since (key : Key) (s₀ s : Verifier Key) : Prop where
  static : s.staticKey = s₀.staticKey
  cache : s.cacheSeconds = s₀.cacheSeconds
  /-- The key is not held, or from a fetch before. -/
  old : s.Holds key → s.fetchedAt ≤ s₀.now

theorem Since.next (h : Since key s₀ s) (hretired : Retired key s l)
    (hnext : (machine Key).next s l = some s') : Since key s₀ s' := by
  have hpasses := passes_of_next hnext
  refine ⟨hpasses.static.trans h.static, hpasses.cache.trans h.cache, fun hheld => ?_⟩
  rcases hpasses.keys with ⟨hkeys, hfetched⟩ | hloaded
  · rw [Holds, hkeys] at hheld
    rw [hfetched]
    exact h.old hheld
  · exact absurd hheld (hretired _ hloaded)

/-- The settings of a verifier are those it was made with, and its keys are not from the future. -/
theorem settings_of_run {cacheSeconds : Int} {staticKey : Option Key} {now : Nat}
    (h : (machine Key).Run (initial cacheSeconds staticKey now) s) :
    s.staticKey = staticKey ∧ s.cacheSeconds = cacheSeconds ∧ s.Dated :=
  h.preserves (I := fun s => s.staticKey = staticKey ∧ s.cacheSeconds = cacheSeconds ∧ s.Dated)
    (fun _ _ _ hs _ hnext => ⟨(passes_of_next hnext).static.trans hs.1,
      (passes_of_next hnext).cache.trans hs.2.1, (step hs.2.2 hnext).1⟩)
    ⟨rfl, rfl, dated_initial cacheSeconds staticKey now⟩

/-- Once Identity has retired a key, no call is answered with it after the lifetime of the keys, but
for a call whose own fetch fails. -/
theorem retired_of_run {cacheSeconds : Int} {now : Nat}
    (h₀ : (machine Key).Run (initial cacheSeconds none now) s₀)
    (h : (machine Key).RunOf (Retired key) s₀ s) (hretired : Retired key s l)
    (hnext : (machine Key).next s l = some s') {call : Nat}
    (hnew : s'.answers call = some (.ok key)) (hold : s.answers call ≠ some (.ok key)) :
    (s.now : Int) ≤ s₀.now + lifetime cacheSeconds ∨
      l = .failed ∧ ∃ fetch, s.fetching = some fetch ∧ fetch.call = call := by
  obtain ⟨hstatic, hcache, hdated⟩ := settings_of_run h₀
  have hsince : Since key s₀ s :=
    h.preserves (fun _ _ _ hs hok hnext => hs.next hok hnext)
      ⟨rfl, rfl, fun _ => hdated.clock⟩
  rcases answered (hsince.static.trans hstatic) hnext hnew hold with
    ⟨hheld, hage⟩ | ⟨keys, rfl, hkey⟩ | hfailed
  · -- the keys are from before the key was retired
    have hfetched := hsince.old hheld
    rw [hsince.cache, hcache, age] at hage
    left
    omega
  · exact absurd hkey (hretired keys rfl)
  · exact Or.inr hfailed

/-- Twenty seconds after its last fetch the verifier still serves the key. -/
theorem retired_within_lifetime : ∃ s₀ s s' : Verifier Nat,
    (machine Nat).exec (initial 20 none 60000)
      [.verify (some "a"), .acquire 0, .loaded [("a", 1)]] = some s₀ ∧
    (machine Nat).exec s₀ [.tick 20000] = some s ∧
    (machine Nat).next s (.verify (some "a")) = some s' ∧ s'.answers 1 = some (.ok 1) ∧
    (s.now : Int) ≤ s₀.now + lifetime 20 := by
  have h₀ : (machine Nat).Run (initial 20 none 60000) _ :=
    Machine.run_of_exec [.verify (some "a"), .acquire 0, .loaded [("a", 1)]] rfl
  refine ⟨_, _, _, rfl, rfl, rfl, rfl, ?_⟩
  refine Or.resolve_right (retired_of_run h₀
    (Relation.ReflTransGen.single ⟨.tick 20000, ?_, rfl⟩) ?_
    (rfl : (machine Nat).next _ (.verify (some "a")) = some _)
    (rfl : answers _ 1 = some (.ok 1)) ?_) ?_
  · rintro keys ⟨⟩
  · rintro keys ⟨⟩
  · rintro ⟨⟩
  · rintro ⟨⟨⟩, -⟩

end Verifier

end SmartLogistics.Platform
