import Mathlib.Algebra.Group.Nat.Defs
import Mathlib.Logic.Function.Basic
import SmartLogistics.Library.History
import SmartLogistics.Platform.Http

/-!
# Calls of another service that overlap

The calls of one `ServiceClient` share its breaker. A call looks at the breaker when it starts, and
never again: between its attempts it sleeps, and then sends the next one. `Traffic.machine`
interleaves such calls at their awaits, and logs the attempts that are sent and the outcomes that
are recorded.

By the log, a service whose recorded attempts have failed for long enough is left alone for
`reset_after` (`FailingSince`), and recovers then (`Recovering`); an attempt that is sent while it
recovers is a probe. `oneProbe_iff`: no attempt is sent while the outcome of another call's probe is
not recorded (`OneProbe`) exactly in the runs in which meanwhile no call starts, unless the service
has failed again less than `reset_after` ago, and none that has slept goes on (`AwaitsProbe`).
-/

set_option autoImplicit false

namespace SmartLogistics.Platform

open SmartLogistics.Library

/-! ## The machine -/

/-- What a call awaits. -/
inductive Awaits
  /-- The response to an attempt. -/
  | response
  /-- The end of its sleep. -/
  | sleep (deadline : Nat)
  deriving DecidableEq

/-- A call of `request` in progress, at one of its attempts. -/
structure Calling where
  attempt : Nat
  attempts : Nat
  awaits : Awaits

/-- What an observer of the calls sees: an attempt of a call is sent, with the clock then, or its
outcome is recorded. -/
inductive Signal
  | sent (call time : Nat)
  | recorded (call : Nat) (met : Attempt)

/-- The calls that share a breaker; times are in milliseconds. -/
structure Traffic where
  now : Nat
  breaker : CircuitBreaker
  /-- How many calls got past the breaker; they are numbered in this order. -/
  begun : Nat
  calling : Nat → Option Calling
  /-- What was seen, oldest first. -/
  log : List Signal

/-- What can happen next: time passes, a call starts, an attempt ends, or a call goes on after its
sleep. -/
inductive TrafficStep
  | tick (elapsed : Nat)
  | start (mayRetry : Bool)
  | outcome (call : Nat) (outcome : Transport)
  | wake (call : Nat)

namespace Traffic

/-- No call has started yet. -/
def initial (threshold resetAfter : Nat) : Traffic where
  now := 0
  breaker := .new threshold resetAfter
  begun := 0
  calling := fun _ => none
  log := []

/-- An attempt of a call is sent. -/
def send (s : Traffic) (call attempt attempts : Nat) : Traffic :=
  { s with
    calling := Function.update s.calling call (some ⟨attempt, attempts, .response⟩)
    log := s.log ++ [.sent call s.now] }

/-- The outcome of an attempt is recorded; the call sleeps if it failed and has attempts left. -/
def record (s : Traffic) (call attempt attempts : Nat) (met : Attempt) : Traffic :=
  { s with
    breaker := s.breaker.record met
    calling := Function.update s.calling call
      (if met.failed && decide (attempt < attempts) then
        some ⟨attempt, attempts, .sleep (s.now + 100 * 2 ^ (attempt - 1))⟩
      else none)
    log := s.log ++ [.recorded call met] }

/-- One step of the calls. -/
def next (retries : Nat) (s : Traffic) : TrafficStep → Option Traffic
  | .tick elapsed => some { s with now := s.now + elapsed }
  | .start mayRetry =>
    -- with the breaker open the call raises at once
    if s.breaker.isOpen s.now then some s
    else some { s.send s.begun 1 (1 + if mayRetry then retries else 0) with begun := s.begun + 1 }
  | .outcome call outcome =>
    match s.calling call with
    | some ⟨attempt, attempts, .response⟩ =>
      some (s.record call attempt attempts ⟨outcome, s.now⟩)
    | _ => none
  | .wake call =>
    match s.calling call with
    | some ⟨attempt, attempts, .sleep deadline⟩ =>
      if deadline ≤ s.now then some (s.send call (attempt + 1) attempts) else none
    | _ => none

/-- The interleavings of the calls. -/
def machine (retries : Nat) : Machine Traffic TrafficStep where
  next := next retries

end Traffic

/-! ## What is promised -/

/-- The outcome that a signal records. -/
def Signal.met? : Signal → Option Attempt
  | .sent _ _ => none
  | .recorded _ met => some met

/-- The recorded outcomes, in their order. -/
def outcomes (log : List Signal) : List Attempt := log.filterMap Signal.met?

/-- The last of at least `threshold` trailing failures is `resetAfter` ago: the service may have
recovered, which one call is to find out. -/
def Recovering (threshold resetAfter : Nat) (log : List Attempt) (now : Nat) : Prop :=
  threshold ≤ (log.rtakeWhile Attempt.failed).length ∧
    ∃ last, (log.rtakeWhile Attempt.failed).getLast? = some last ∧ resetAfter ≤ now - last.time

section Probes

variable (threshold resetAfter : Nat)

/-- The call sends an attempt while the service recovers. -/
def Probes (call : Nat) (before : List Signal) (signal : Signal) : Prop :=
  ∃ time, signal = .sent call time ∧ Recovering threshold resetAfter (outcomes before) time

/-- The call has sent a probe, and no outcome of the call was recorded since. -/
def ProbeOut (log : List Signal) (call : Nat) : Prop :=
  Since (Probes threshold resetAfter call) (fun signal => ∀ met, signal ≠ .recorded call met) log

/-- From a probe until its outcome is recorded no other call sends an attempt. -/
def OneProbe (log : List Signal) : Prop :=
  Throughout (fun before signal => ∀ call time, signal = .sent call time →
    ∀ other, ProbeOut threshold resetAfter before other → other = call) log

/-- While a probe is out no call starts, unless the service has failed again less than `resetAfter`
ago, and no other call that has slept goes on. -/
def AwaitsProbe (s : Traffic) : TrafficStep → Prop
  | .start _ => ∀ call, ProbeOut threshold resetAfter s.log call →
      FailingSince threshold resetAfter (outcomes s.log) s.now
  | .wake call => ∀ other, ProbeOut threshold resetAfter s.log other → other = call
  | _ => True

end Probes

/-! ## What a run keeps -/

namespace Traffic

/-- The breaker counts the outcomes of the log, and a call whose probe is out awaits its
response. -/
structure Tracks (threshold resetAfter : Nat) (s : Traffic) : Prop where
  config : s.breaker.threshold = threshold ∧ s.breaker.resetAfter = resetAfter
  counts : s.breaker.Counts (outcomes s.log)
  fresh : ∀ call, s.begun ≤ call → s.calling call = none
  out : ∀ call, ProbeOut threshold resetAfter s.log call →
    ∃ calling, s.calling call = some calling ∧ calling.awaits = .response

variable {retries threshold resetAfter : Nat} {s s' : Traffic} {l : TrafficStep}

theorem tracks_initial : (initial threshold resetAfter).Tracks threshold resetAfter where
  config := ⟨rfl, rfl⟩
  counts := CircuitBreaker.counts_new threshold resetAfter
  fresh := fun _ _ => rfl
  out := fun _ hout => absurd hout not_since_nil

/-- The breaker is open while the service is left alone. -/
theorem Tracks.isOpen_iff (h : s.Tracks threshold resetAfter) :
    s.breaker.isOpen s.now = true ↔ FailingSince threshold resetAfter (outcomes s.log) s.now := by
  rw [h.counts.isOpen_iff, h.config.1, h.config.2]

theorem outcomes_sent (log : List Signal) (call time : Nat) :
    outcomes (log ++ [.sent call time]) = outcomes log := by
  simp only [outcomes, List.filterMap_append]
  exact List.append_nil _

theorem outcomes_recorded (log : List Signal) (call : Nat) (met : Attempt) :
    outcomes (log ++ [.recorded call met]) = outcomes log ++ [met] := by
  simp only [outcomes, List.filterMap_append]
  rfl

/-- A call sends an attempt. -/
theorem Tracks.send (h : s.Tracks threshold resetAfter) (call attempt attempts begun : Nat)
    (hbegun : s.begun ≤ begun) (hcall : call < begun) :
    { s.send call attempt attempts with begun := begun }.Tracks threshold resetAfter where
  config := h.config
  counts := by
    have hlog : outcomes (s.log ++ [.sent call s.now]) = outcomes s.log := outcomes_sent ..
    exact hlog ▸ h.counts
  fresh := by
    intro other hother
    rw [← h.fresh other (Nat.le_trans hbegun hother)]
    exact Function.update_of_ne (Nat.ne_of_gt (Nat.lt_of_lt_of_le hcall hother)) ..
  out := by
    intro other hout
    by_cases hother : other = call
    · subst hother
      exact ⟨_, Function.update_self .., rfl⟩
    · rcases since_concat.1 hout with ⟨time, hsent, -⟩ | ⟨hbefore, -⟩
      · cases hsent
        exact absurd rfl hother
      · obtain ⟨calling, hcalling, hawaits⟩ := h.out other hbefore
        exact ⟨calling, (Function.update_of_ne hother ..).trans hcalling, hawaits⟩

/-- The outcome of an attempt is recorded. -/
theorem Tracks.record (h : s.Tracks threshold resetAfter) {call : Nat}
    (hcall : s.calling call ≠ none) (attempt attempts : Nat) (met : Attempt) :
    (s.record call attempt attempts met).Tracks threshold resetAfter where
  config := by
    obtain ⟨hthreshold, hreset⟩ := s.breaker.record_config met
    exact ⟨hthreshold.trans h.config.1, hreset.trans h.config.2⟩
  counts := by
    have hlog : outcomes (s.log ++ [.recorded call met]) = outcomes s.log ++ [met] :=
      outcomes_recorded ..
    exact hlog ▸ h.counts.record met
  fresh := by
    intro other hother
    have hne : other ≠ call := fun heq => hcall (heq ▸ h.fresh other hother)
    exact (Function.update_of_ne hne ..).trans (h.fresh other hother)
  out := by
    intro other hout
    rcases since_concat.1 hout with ⟨time, hsent, -⟩ | ⟨hbefore, hother⟩
    · cases hsent
    · have hne : other ≠ call := fun heq => hother met (heq ▸ rfl)
      obtain ⟨calling, hcalling, hawaits⟩ := h.out other hbefore
      exact ⟨calling, (Function.update_of_ne hne ..).trans hcalling, hawaits⟩

/-- An attempt may be sent if no other call's probe is out. -/
theorem oneProbe_sent {log : List Signal} {call time : Nat} :
    OneProbe threshold resetAfter (log ++ [.sent call time]) ↔
      OneProbe threshold resetAfter log ∧
        ∀ other, ProbeOut threshold resetAfter log other → other = call := by
  unfold OneProbe
  rw [throughout_concat]
  refine and_congr_right fun _ => ?_
  constructor
  · intro h
    exact h call time rfl
  · rintro h _ _ hsent
    cases hsent
    exact h

theorem oneProbe_recorded {log : List Signal} {call : Nat} {met : Attempt} :
    OneProbe threshold resetAfter (log ++ [.recorded call met]) ↔
      OneProbe threshold resetAfter log := by
  unfold OneProbe
  rw [throughout_concat]
  refine and_iff_left ?_
  intro _ _ hsent
  cases hsent

/-- What each step keeps, and under which condition it keeps the promise. -/
theorem step (h : s.Tracks threshold resetAfter) (hnext : (machine retries).next s l = some s') :
    s'.Tracks threshold resetAfter ∧ (OneProbe threshold resetAfter s'.log ↔
      OneProbe threshold resetAfter s.log ∧ AwaitsProbe threshold resetAfter s l) := by
  cases l with
  | tick elapsed =>
    cases hnext
    exact ⟨⟨h.config, h.counts, h.fresh, h.out⟩, (and_iff_left trivial).symm⟩
  | start mayRetry =>
    simp only [machine, next] at hnext
    split at hnext
    · rename_i hopen
      cases hnext
      exact ⟨h, (and_iff_left fun _ _ => h.isOpen_iff.1 hopen).symm⟩
    · rename_i hclosed
      cases hnext
      refine ⟨h.send _ _ _ _ (Nat.le_succ _) (Nat.lt_succ_self _), ?_⟩
      refine oneProbe_sent.trans (and_congr_right fun _ => ?_)
      constructor
      · intro hnone call hout
        -- the new call has no probe out
        obtain ⟨calling, hcalling, -⟩ := h.out call hout
        rw [hnone call hout, h.fresh _ (Nat.le_refl _)] at hcalling
        cases hcalling
      · intro hfailing call hout
        exact absurd (h.isOpen_iff.2 (hfailing call hout)) hclosed
  | outcome call outcome =>
    simp only [machine, next] at hnext
    split at hnext
    · rename_i attempt attempts hcalling
      cases hnext
      refine ⟨h.record (fun hnone => ?_) _ _ _, ?_⟩
      · rw [hnone] at hcalling
        cases hcalling
      · exact oneProbe_recorded.trans (and_iff_left trivial).symm
    · cases hnext
  | wake call =>
    simp only [machine, next] at hnext
    split at hnext
    · rename_i attempt attempts deadline hcalling
      split at hnext
      · cases hnext
        refine ⟨h.send _ _ _ s.begun (Nat.le_refl _) ?_, oneProbe_sent⟩
        refine Nat.lt_of_not_le fun hbegun => ?_
        rw [h.fresh call hbegun] at hcalling
        cases hcalling
      · cases hnext
    · cases hnext

/-- Half-open lets one probe through exactly in the runs in which, while a probe is out, no call
starts unless the service has failed again less than `reset_after` ago, and no other call that has
slept goes on. -/
theorem oneProbe_iff (retries threshold resetAfter : Nat) {s : Traffic}
    (h : (machine retries).Run (initial threshold resetAfter) s) :
    OneProbe threshold resetAfter s.log ↔
      (machine retries).RunOf (AwaitsProbe threshold resetAfter) (initial threshold resetAfter) s :=
  h.iff_runOf (fun _ _ _ => step) tracks_initial throughout_nil

/-- Calls that start one after another. -/
def startAll (calls : Nat) : List TrafficStep := List.replicate calls (.start false)

/-- Six calls start; five of them meet transport errors, and thirty seconds pass. -/
def outage : List TrafficStep :=
  startAll 6 ++ (List.range 5).map (fun call => .outcome call .error) ++ [.tick 30000]

/-- The answer 200. -/
def ok : Transport := .answer ⟨200, none, .valueError, [], fun _ hvalue => nomatch hvalue⟩

/-- Call 6 probes. Meanwhile call 5 meets an error, so the call that starts next is refused; the one
that starts when the probe has been answered is not. -/
def recovery : List TrafficStep :=
  outage ++ [.start true, .outcome 5 .error, .start true, .outcome 6 ok, .start true]

/-- An attempt that was sent, with its time, or the call whose outcome was recorded. -/
def summary : Signal → Nat × Option Nat
  | .sent call time => (call, some time)
  | .recorded call _ => (call, none)

theorem oneProbe_recovering : ∃ s,
    (machine 2).exec (initial 5 30000) recovery = some s ∧
    (s.log.drop 11).map summary = [(6, some 30000), (5, none), (6, none), (7, some 30000)] ∧
    (OneProbe 5 30000 s.log ↔ (machine 2).RunOf (AwaitsProbe 5 30000) (initial 5 30000) s) :=
  ⟨_, rfl, by decide, oneProbe_iff 2 5 30000 (Machine.run_of_exec recovery rfl)⟩

/-- Two calls that start when the service recovers both reach the network. -/
theorem not_oneProbe_stampede : ∃ s,
    (machine 2).exec (initial 5 30000) (outage ++ [.start true, .start true]) = some s ∧
      ¬ OneProbe 5 30000 s.log := by
  refine ⟨_, rfl, fun h => ?_⟩
  let failed : Attempt := ⟨.error, 0⟩
  let before : List Signal := (List.range 6).map (fun call => .sent call 0) ++
    (List.range 5).map fun call => .recorded call failed
  have hout : ProbeOut 5 30000 (before ++ [.sent 6 30000]) 6 :=
    ⟨before, .sent 6 30000, [], rfl, ⟨30000, rfl, by decide, failed, rfl, by decide⟩,
      fun signal hsignal => absurd hsignal List.not_mem_nil⟩
  -- the last attempt is sent meanwhile
  exact absurd (h (before ++ [.sent 6 30000]) (.sent 7 30000) [] rfl 7 30000 rfl 6 hout) (by decide)

end Traffic

end SmartLogistics.Platform
