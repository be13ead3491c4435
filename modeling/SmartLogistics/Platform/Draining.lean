import SmartLogistics.Platform.Outbox

/-!
# One execution of a relay, and the drained outbox

What `run_once` does when no other execution is open, as a function of the rows (`runOnce`): it
sends the first `batch_size` pending rows by `seq`, up to the first that the publisher refuses, and
writes down how each send went. The statements of an execution compute exactly this
(`run_of_runOnce`). An execution whose sends succeed takes the batch off the pending rows
(`pending_runOnce`), so as many of them as there are batches (`runTimes`) publish every pending
event, each once and in order of `seq` (`drained_of_run`).
-/

set_option autoImplicit false

namespace SmartLogistics.Platform

open SmartLogistics.Library RelayState

variable {Payload : Type}

/-! ## An execution as a function -/

/-- The unpublished rows, in order of `seq`. -/
def pending (rows : List (OutboxEvent Payload)) : List (OutboxEvent Payload) :=
  Table.rowsWhere OutboxEvent.seq OutboxEvent.isPending rows

/-- The sends of a batch: what reaches the broker, and the marks on the rows. -/
def sendEach (answer : OutboxEvent Payload → Sent) (now : Nat) :
    List (OutboxEvent Payload) → List Publication × List (Nat × Mark)
  | [] => ([], [])
  | row :: todo =>
    match answer row with
    | .ok =>
      let rest := sendEach answer now todo
      (row.publication :: rest.1, (row.seq, .sent now) :: rest.2)
    | .failed error => ([], [(row.seq, Mark.failed (row.attempts + 1) (errorText error))])
    | .unconfirmed error =>
      ([row.publication], [(row.seq, Mark.failed (row.attempts + 1) (errorText error))])

/-- `run_once`, with what the publisher answers for each row. -/
def runOnce (batchSize : Nat) (answer : OutboxEvent Payload → Sent) (s : RelayState Payload) :
    RelayState Payload :=
  let sent := sendEach answer s.clock ((pending s.rows).take batchSize)
  { s with
    rows := applyMarks sent.2 s.rows
    log := s.log ++ sent.1 }

/-! ## The statements of an execution -/

/-- The state while execution `t` is open with the locks `locks`. -/
def RelayState.during (s : RelayState Payload) (t : Nat) (locks : Nat → Option Nat)
    (relay : Relay Payload) : RelayState Payload :=
  { s with
    locks := locks
    relays := Function.update s.relays t (some relay) }

@[simp] theorem RelayState.during_relays (s : RelayState Payload) (t : Nat)
    (locks : Nat → Option Nat) (relay : Relay Payload) :
    (s.during t locks relay).relays t = some relay := Function.update_self ..

theorem RelayState.setRelay_during (s : RelayState Payload) (t : Nat) (locks : Nat → Option Nat)
    (relay relay' : Relay Payload) :
    (s.during t locks relay).setRelay t (some relay') = s.during t locks relay' := by
  simp [RelayState.during, RelayState.setRelay]

/-- No other execution has a lock. -/
def OwnedBy (t : Nat) (locks : Nat → Option Nat) : Prop :=
  ∀ seq, locks seq = none ∨ locks seq = some t

theorem OwnedBy.update {t : Nat} {locks : Nat → Option Nat} (h : OwnedBy t locks) (seq : Nat) :
    OwnedBy t (Function.update locks seq (some t)) := by
  intro seq'
  by_cases hseq : seq' = seq
  · rw [hseq, Function.update_self]
    exact Or.inr rfl
  · rw [Function.update_of_ne hseq]
    exact h seq'

theorem OwnedBy.skips {s : RelayState Payload} {t : Nat} {locks : Nat → Option Nat}
    (h : OwnedBy t locks) (relay : Relay Payload) (seq : Nat) :
    (s.during t locks relay).skips t seq = false := by
  have hlock : (s.during t locks relay).locks seq = locks seq := rfl
  rw [RelayState.skips, hlock]
  rcases h seq with hnone | hown
  · rw [hnone]
  · simp [hown]

/-- The end of an execution gives back every lock. -/
theorem RelayState.endRelay_during {s : RelayState Payload} {t : Nat} {locks : Nat → Option Nat}
    (hlocks : ∀ seq, s.locks seq = none) (howned : OwnedBy t locks) (ht : s.relays t = none)
    (relay : Relay Payload) : (s.during t locks relay).endRelay t = s := by
  have hfreed : (fun seq => if locks seq = some t then none else locks seq) = s.locks := by
    funext seq
    rw [hlocks seq]
    rcases howned seq with hnone | hown
    · rw [hnone, ite_self]
    · rw [hown, if_pos rfl]
  have hrelays : Function.update (Function.update s.relays t (some relay)) t none = s.relays := by
    rw [Function.update_idem, ← ht, Function.update_eq_self]
  calc (s.during t locks relay).endRelay t
      = { s with
          locks := fun seq => if locks seq = some t then none else locks seq
          relays := Function.update (Function.update s.relays t (some relay)) t none } := rfl
    _ = s := by rw [hfreed, hrelays]

section Execution

variable (batchSize : Nat) {s : RelayState Payload} {t : Nat}

/-- The rows of a snapshot, in the version that a claim returns. -/
def claimed (rows : List (OutboxEvent Payload)) (todo : List Nat) : List (OutboxEvent Payload) :=
  todo.filterMap fun seq => (Table.lookup OutboxEvent.seq rows seq).filter OutboxEvent.isPending

/-- The claim of a batch, one row after the other. -/
theorem run_of_claims (todo : List Nat) (batch : List (OutboxEvent Payload))
    {locks : Nat → Option Nat} (hlocks : OwnedBy t locks)
    (hrows : ∀ seq ∈ todo, ∃ row,
      (Table.lookup OutboxEvent.seq s.rows seq).filter OutboxEvent.isPending = some row) :
    ∃ locks', OwnedBy t locks' ∧ (relays batchSize).Run (s.during t locks (.claiming todo batch))
      (s.during t locks'
        (.sending (batch ++ (claimed s.rows todo).take (batchSize - batch.length)) [])) := by
  induction todo generalizing batch locks with
  | nil =>
    refine ⟨locks, hlocks, Machine.run_of_next (l := .claim t) ?_⟩
    simp [relays, relayNext, claimed, setRelay_during]
  | cons seq todo ih =>
    by_cases hfull : batchSize ≤ batch.length
    · -- the batch is full
      refine ⟨locks, hlocks, Machine.run_of_next (l := .claim t) ?_⟩
      have hzero : batchSize - batch.length = 0 := by omega
      simp [relays, relayNext, hfull, setRelay_during, hzero]
    · -- the row is pending and nobody else's, so it is locked and joins the batch
      obtain ⟨row, hrow⟩ := hrows seq List.mem_cons_self
      obtain ⟨locks', hlocks', hrun⟩ := ih (batch ++ [row]) (hlocks.update seq)
        fun seq' h => hrows seq' (List.mem_cons_of_mem _ h)
      refine ⟨locks', hlocks', ?_⟩
      have hstep : (relays batchSize).next (s.during t locks (.claiming (seq :: todo) batch))
          (.claim t) = some (s.during t (Function.update locks seq (some t))
            (.claiming todo (batch ++ [row]))) := by
        have hskip := hlocks.skips (s := s) (.claiming (seq :: todo) batch) seq
        have hread : (Table.lookup OutboxEvent.seq
            (s.during t locks (.claiming (seq :: todo) batch)).rows seq).filter
              OutboxEvent.isPending = some row := hrow
        simp only [relays, relayNext, during_relays, hfull, if_false, hskip, Bool.false_eq_true,
          hread, Option.toList_some]
        simp [RelayState.during, RelayState.setRelay]
      have htake : batch ++ (claimed s.rows (seq :: todo)).take (batchSize - batch.length) =
          batch ++ [row] ++
            (claimed s.rows todo).take (batchSize - (batch ++ [row]).length) := by
        have hleft : batchSize - batch.length = (batchSize - (batch ++ [row]).length) + 1 := by
          rw [List.length_append, List.length_singleton]
          omega
        have hclaimed : claimed s.rows (seq :: todo) = row :: claimed s.rows todo := by
          simp [claimed, hrow]
        rw [hclaimed, hleft, List.take_succ_cons, List.append_assoc]
        rfl
      rw [htake]
      exact (Machine.run_of_next hstep).trans hrun

/-- The sends of a batch, up to the first that fails. -/
theorem run_of_sends (answer : OutboxEvent Payload → Sent) (batch : List (OutboxEvent Payload))
    (marks : List (Nat × Mark)) (log : List Publication) (locks : Nat → Option Nat) :
    ∃ relay, (relay = .sending [] (marks ++ (sendEach answer s.clock batch).2) ∨
        relay = .stopped (marks ++ (sendEach answer s.clock batch).2)) ∧
      (relays batchSize).Run ({ s with log := log }.during t locks (.sending batch marks))
        ({ s with log := log ++ (sendEach answer s.clock batch).1 }.during t locks relay) := by
  induction batch generalizing marks log with
  | nil =>
    refine ⟨.sending [] marks, Or.inl (by simp [sendEach]), ?_⟩
    simp only [sendEach, List.append_nil]
    exact Relation.ReflTransGen.refl
  | cons row todo ih =>
    cases hanswer : answer row with
    | ok =>
      obtain ⟨relay, hrelay, hrun⟩ := ih (marks ++ [(row.seq, Mark.sent s.clock)])
        (log ++ [row.publication])
      refine ⟨relay, ?_, ?_⟩
      · simpa [sendEach, hanswer] using hrelay
      · have hstep : (relays batchSize).next
            ({ s with log := log }.during t locks (.sending (row :: todo) marks))
            (.send t .ok) = some ({ s with log := log ++ [row.publication] }.during t locks
              (.sending todo (marks ++ [(row.seq, Mark.sent s.clock)]))) := by
          simp [relays, relayNext, RelayState.during, RelayState.setRelay]
        have hlog : log ++ (sendEach answer s.clock (row :: todo)).1 =
            log ++ [row.publication] ++ (sendEach answer s.clock todo).1 := by
          simp [sendEach, hanswer]
        rw [hlog]
        exact (Machine.run_of_next hstep).trans hrun
    | failed error =>
      -- nothing more is sent
      refine ⟨.stopped (marks ++ [(row.seq, Mark.failed (row.attempts + 1) (errorText error))]),
        Or.inr (by simp [sendEach, hanswer]), Machine.run_of_next (l := .send t (.failed error)) ?_⟩
      simp [relays, relayNext, RelayState.during, RelayState.setRelay, sendEach, hanswer]
    | unconfirmed error =>
      refine ⟨.stopped (marks ++ [(row.seq, Mark.failed (row.attempts + 1) (errorText error))]),
        Or.inr (by simp [sendEach, hanswer]),
        Machine.run_of_next (l := .send t (.unconfirmed error)) ?_⟩
      simp [relays, relayNext, RelayState.during, RelayState.setRelay, sendEach, hanswer]

/-- The statements of an execution, from the read to the commit, compute `runOnce`. -/
theorem run_of_runOnce (hkeyed : Table.Keyed OutboxEvent.seq s.rows)
    (hlocks : ∀ seq, s.locks seq = none) (ht : s.relays t = none)
    (answer : OutboxEvent Payload → Sent) :
    (relays batchSize).Run s (runOnce batchSize answer s) := by
  let todo := Table.keysWhere OutboxEvent.seq OutboxEvent.isPending s.rows
  have hrows : ∀ seq ∈ todo, ∃ row,
      (Table.lookup OutboxEvent.seq s.rows seq).filter OutboxEvent.isPending = some row := by
    intro seq hseq
    obtain ⟨row, hrow, hpending, rfl⟩ := Table.mem_keysWhere.1 hseq
    exact ⟨row, by rw [hkeyed.lookup_of_mem hrow, Option.filter_some, if_pos hpending]⟩
  have hstart : (relays batchSize).Run s (s.during t s.locks (.claiming todo [])) :=
    Machine.run_of_next (l := .start t) (by simp [relays, relayNext, ht]; rfl)
  obtain ⟨locks, howned, hclaims⟩ := run_of_claims batchSize todo []
    (fun seq => Or.inl (hlocks seq)) hrows
  obtain ⟨relay, hrelay, hsends⟩ := run_of_sends batchSize (s := s) (t := t) answer
    ((pending s.rows).take batchSize) [] s.log locks
  have hcommit : (relays batchSize).Run
      ({ s with log := s.log ++
          (sendEach answer s.clock ((pending s.rows).take batchSize)).1 }.during t locks relay)
      (runOnce batchSize answer s) := by
    refine Machine.run_of_next (l := .commit t) ?_
    have hend := RelayState.endRelay_during (s := runOnce batchSize answer s) hlocks howned ht relay
    rcases hrelay with rfl | rfl
    · simp only [relays, relayNext, during_relays, List.nil_append]
      exact congrArg some hend
    · simp only [relays, relayNext, during_relays, List.nil_append]
      exact congrArg some hend
  exact ((hstart.trans hclaims).trans hsends).trans hcommit

end Execution

/-! ## Executions that succeed -/

/-- What a relay can rely on between its executions: the rows are keyed, and every row lock belongs
to an open execution. -/
structure Tidy (s : RelayState Payload) : Prop where
  keyed : Table.Keyed OutboxEvent.seq s.rows
  open_of_lock : ∀ seq t, s.locks seq = some t → s.relays t ≠ none

theorem tidy_empty : Tidy (RelayState.empty : RelayState Payload) :=
  ⟨List.nodup_nil, fun _ _ h => by cases h⟩

/-- Moving an open execution on keeps the bookkeeping. -/
theorem Tidy.setRelay {s : RelayState Payload} (h : Tidy s) (t : Nat) (relay : Relay Payload) :
    Tidy (s.setRelay t (some relay)) := by
  refine ⟨h.keyed, fun seq u hlock => ?_⟩
  by_cases hut : u = t
  · simp [RelayState.setRelay, hut]
  · simpa [RelayState.setRelay, Function.update_of_ne hut] using h.open_of_lock seq u hlock

theorem Tidy.endRelay {s : RelayState Payload} (h : Tidy s) (t : Nat) : Tidy (s.endRelay t) := by
  refine ⟨h.keyed, fun seq u hlock => ?_⟩
  simp only [RelayState.endRelay] at hlock ⊢
  split at hlock
  · cases hlock
  · rename_i hown
    have hut : u ≠ t := by
      rintro rfl
      exact hown hlock
    rw [Function.update_of_ne hut]
    exact h.open_of_lock seq u hlock

theorem seq_mark (row : OutboxEvent Payload) (mark : Mark) : (row.mark mark).seq = row.seq := by
  cases mark with
  | sent publishedAt => rfl
  | failed attempts lastError => rfl

theorem Tidy.next {batchSize : Nat} {s s' : RelayState Payload} {l : RelayLabel Payload}
    (h : Tidy s) (hnext : relayNext batchSize s l = some s') : Tidy s' := by
  cases relayStep_of_next hnext with
  | @commitEvent row hpending hseq hkey =>
    refine ⟨?_, h.open_of_lock⟩
    rw [Table.Keyed, List.map_append, List.nodup_append]
    refine ⟨h.keyed, List.nodup_singleton _, ?_⟩
    intro i hi j hj
    obtain ⟨r, hr, rfl⟩ := List.mem_map.1 hi
    rw [List.mem_singleton.1 hj]
    exact hseq r hr
  | start hfree => exact h.setRelay ..
  | claimed ht hend => exact h.setRelay ..
  | skip ht => exact h.setRelay ..
  | @lock t seq todo batch ht hfree =>
    refine ⟨h.keyed, fun seq' u hlock => ?_⟩
    simp only [RelayState.setRelay] at hlock ⊢
    by_cases hut : u = t
    · simp [hut]
    · -- another execution's lock was there before
      rw [Function.update_of_ne hut]
      by_cases hseq : seq' = seq
      · rw [hseq, Function.update_self] at hlock
        cases hlock
        exact absurd rfl hut
      · rw [Function.update_of_ne hseq] at hlock
        exact h.open_of_lock seq' u hlock
  | @sent t row todo marks ht =>
    have hsent : Tidy { s with log := s.log ++ [row.publication] } := ⟨h.keyed, h.open_of_lock⟩
    exact hsent.setRelay ..
  | failed ht => exact h.setRelay ..
  | @unconfirmed t row todo marks error ht =>
    have hsent : Tidy { s with log := s.log ++ [row.publication] } := ⟨h.keyed, h.open_of_lock⟩
    exact hsent.setRelay ..
  | @commit t relay marks ht hmarks =>
    refine Tidy.endRelay (s := { s with rows := applyMarks marks s.rows }) ⟨?_, h.open_of_lock⟩ t
    exact (Table.keyed_map fun r =>
      elim_mark (P := fun r' => r'.seq = r.seq) marks rfl fun mark => seq_mark r mark).2 h.keyed
  | crash ht => exact h.endRelay _
  | tick => exact ⟨h.keyed, h.open_of_lock⟩

theorem Tidy.locks_eq_none {s : RelayState Payload} (h : Tidy s)
    (hidle : ∀ t, s.relays t = none) (seq : Nat) : s.locks seq = none := by
  cases hlock : s.locks seq with
  | none => rfl
  | some t => exact absurd (hidle t) (h.open_of_lock seq t hlock)

/-- A batch that the publisher accepts is published whole. -/
theorem sendEach_ok (now : Nat) (batch : List (OutboxEvent Payload)) :
    sendEach (fun _ => .ok) now batch =
      (batch.map (·.publication), batch.map fun row => (row.seq, Mark.sent now)) := by
  induction batch with
  | nil => rfl
  | cons row todo ih => simp only [sendEach, ih, List.map_cons]

theorem pairwise_pending {rows : List (OutboxEvent Payload)}
    (h : Table.Keyed OutboxEvent.seq rows) :
    (pending rows).Pairwise fun a b => a.seq < b.seq := by
  have hsub : ((pending rows).map OutboxEvent.seq).Sublist
      (Table.keysWhere OutboxEvent.seq OutboxEvent.isPending rows) :=
    Table.map_filterMap_lookup_sublist OutboxEvent.isPending rows _
  exact List.pairwise_map.1 ((h.pairwise_keysWhere _).sublist hsub)

/-- The marks of a sent batch leave the other rows as they were. -/
theorem elim_sent (batch : List (OutboxEvent Payload)) (now : Nat) (row : OutboxEvent Payload) :
    ((batch.map fun r => (r.seq, Mark.sent now)).lookup row.seq).elim row row.mark =
      if row.seq ∈ batch.map (·.seq) then { row with publishedAt := some now } else row := by
  induction batch with
  | nil => rfl
  | cons r todo ih =>
    by_cases hseq : row.seq = r.seq
    · simp [hseq, OutboxEvent.mark]
    · have hne : (row.seq == r.seq) = false := beq_false_of_ne hseq
      simpa [List.lookup_cons, hne, hseq] using ih

/-- An execution whose sends succeed takes its batch off the pending rows. -/
theorem pending_runOnce {batchSize : Nat} {s : RelayState Payload}
    (hkeyed : Table.Keyed OutboxEvent.seq s.rows) :
    pending (runOnce batchSize (fun _ => .ok) s).rows = (pending s.rows).drop batchSize := by
  have hkeyed' : Table.Keyed OutboxEvent.seq (runOnce batchSize (fun _ => .ok) s).rows :=
    (Table.keyed_map fun r => elim_mark (P := fun r' => r'.seq = r.seq) _ rfl
      fun mark => seq_mark r mark).2 hkeyed
  have hsorted := pairwise_pending hkeyed
  have hrows : (runOnce batchSize (fun _ => .ok) s).rows = s.rows.map fun row =>
      if row.seq ∈ ((pending s.rows).take batchSize).map (·.seq) then
        { row with publishedAt := some s.clock } else row := by
    simp only [runOnce, sendEach_ok, applyMarks, elim_sent]
  -- both lists are in order of `seq`, so it is enough that they have the same rows
  have hmem : ∀ row, row ∈ pending (runOnce batchSize (fun _ => .ok) s).rows ↔
      row ∈ (pending s.rows).drop batchSize := by
    intro row
    have hsplit : ∀ r, r ∈ pending s.rows ↔ r ∈ (pending s.rows).take batchSize ∨
        r ∈ (pending s.rows).drop batchSize := by
      intro r
      rw [← List.mem_append, List.take_append_drop]
    rw [pending, hkeyed'.mem_rowsWhere, hrows, List.mem_map]
    constructor
    · rintro ⟨⟨r, hr, rfl⟩, hpending⟩
      split at hpending
      · cases hpending
      · rename_i hout
        rw [if_neg hout]
        exact ((hsplit r).1 (hkeyed.mem_rowsWhere.2 ⟨hr, hpending⟩)).resolve_left
          fun htake => hout (List.mem_map_of_mem htake)
    · intro hdrop
      obtain ⟨hrow, hpending⟩ := hkeyed.mem_rowsWhere.1 ((hsplit row).2 (Or.inr hdrop))
      -- the rows of the batch are before it
      have hout : row.seq ∉ ((pending s.rows).take batchSize).map (·.seq) := by
        intro htake
        obtain ⟨r, hr, heq⟩ := List.mem_map.1 htake
        rw [← List.take_append_drop batchSize (pending s.rows), List.pairwise_append] at hsorted
        have hlt := hsorted.2.2 r hr row hdrop
        omega
      exact ⟨⟨row, hrow, if_neg hout⟩, hpending⟩
  have hdrop := hsorted.sublist (List.drop_sublist batchSize (pending s.rows))
  refine List.Perm.eq_of_pairwise (fun a b _ _ hlt hgt => absurd hlt (Nat.lt_asymm hgt))
    (pairwise_pending hkeyed') hdrop ((List.perm_ext_iff_of_nodup ?_ ?_).2 hmem)
  · exact hkeyed'.nodup_rowsWhere _
  · exact (hkeyed.nodup_rowsWhere _).sublist (List.drop_sublist batchSize (pending s.rows))

/-- `run_once` again and again, each time to its end, with sends that succeed. -/
def runTimes (batchSize : Nat) : Nat → RelayState Payload → RelayState Payload
  | 0, s => s
  | k + 1, s => runOnce batchSize (fun _ => .ok) (runTimes batchSize k s)

section Executions

variable (batchSize : Nat) {s : RelayState Payload}

/-- An execution changes neither the locks nor the executions that are open. -/
theorem runTimes_idle (k : Nat) : (runTimes batchSize k s).locks = s.locks ∧
    (runTimes batchSize k s).relays = s.relays := by
  induction k with
  | zero => exact ⟨rfl, rfl⟩
  | succ k ih => exact ih

theorem keyed_runTimes (hkeyed : Table.Keyed OutboxEvent.seq s.rows) (k : Nat) :
    Table.Keyed OutboxEvent.seq (runTimes batchSize k s).rows := by
  induction k with
  | zero => exact hkeyed
  | succ k ih =>
    exact (Table.keyed_map fun r => elim_mark (P := fun r' => r'.seq = r.seq) _ rfl
      fun mark => seq_mark r mark).2 ih

/-- Each of the executions is run by its statements. -/
theorem run_of_runTimes (hkeyed : Table.Keyed OutboxEvent.seq s.rows)
    (hlocks : ∀ seq, s.locks seq = none) (hidle : ∀ t, s.relays t = none) (k : Nat) :
    (relays batchSize).Run (runTimes batchSize k s) (runTimes batchSize (k + 1) s) := by
  obtain ⟨hsame, hopen⟩ := runTimes_idle batchSize (s := s) k
  refine run_of_runOnce batchSize (t := 0) (keyed_runTimes batchSize hkeyed k) ?_ ?_ fun _ => .ok
  · rw [hsame]
    exact hlocks
  · rw [hopen]
    exact hidle 0

/-- `k` executions take `k` batches off the pending rows. -/
theorem pending_runTimes (hkeyed : Table.Keyed OutboxEvent.seq s.rows) (k : Nat) :
    pending (runTimes batchSize k s).rows = (pending s.rows).drop (k * batchSize) := by
  induction k with
  | zero => rw [Nat.zero_mul, List.drop_zero]; rfl
  | succ k ih =>
    have hkeyed' := keyed_runTimes batchSize hkeyed k
    rw [runTimes, pending_runOnce hkeyed', ih, List.drop_drop, Nat.add_mul, Nat.one_mul]

/-- They send the events of these batches, in their order. -/
theorem log_runTimes (hkeyed : Table.Keyed OutboxEvent.seq s.rows) (k : Nat) :
    (runTimes batchSize k s).log =
      s.log ++ ((pending s.rows).take (k * batchSize)).map (·.publication) := by
  induction k with
  | zero => rw [Nat.zero_mul, List.take_zero, List.map_nil, List.append_nil]; rfl
  | succ k ih =>
    have hone : (runTimes batchSize (k + 1) s).log = (runTimes batchSize k s).log ++
        ((pending (runTimes batchSize k s).rows).take batchSize).map (·.publication) := by
      simp only [runTimes, runOnce, sendEach_ok]
    rw [hone, ih, pending_runTimes batchSize hkeyed k, List.append_assoc, ← List.map_append,
      ← List.take_add, Nat.add_mul, Nat.one_mul]

end Executions

/-- From every reachable state in which no execution is open, `run_once` drains the outbox if its
sends succeed: run alone as often as there are batches, statement by statement, it leaves no pending
event, and publishes each of those there were once, in order of `seq`. -/
theorem drained_of_run {batchSize : Nat} {s : RelayState Payload}
    (hs : (relays batchSize).Run RelayState.empty s) (hidle : ∀ t, s.relays t = none) :
    (∀ k, (relays batchSize).Run (runTimes batchSize k s) (runTimes batchSize (k + 1) s) ∧
      ∀ t, (runTimes batchSize k s).relays t = none) ∧
    (∀ k, (pending s.rows).length ≤ k * batchSize →
      pending (runTimes batchSize k s).rows = [] ∧
      (runTimes batchSize k s).log = s.log ++ (pending s.rows).map (·.publication)) ∧
    (pending s.rows).Pairwise (fun a b => a.seq < b.seq) := by
  have htidy : Tidy s := hs.preserves (fun _ _ _ h _ hnext => h.next hnext) tidy_empty
  refine ⟨fun k => ⟨?_, fun t => ?_⟩, fun k hk => ⟨?_, ?_⟩, pairwise_pending htidy.keyed⟩
  · exact run_of_runTimes batchSize htidy.keyed (htidy.locks_eq_none hidle) hidle k
  · rw [(runTimes_idle batchSize k).2]
    exact hidle t
  · rw [pending_runTimes batchSize htidy.keyed, List.drop_of_length_le hk]
  · rw [log_runTimes batchSize htidy.keyed, List.take_of_length_le hk]

/-- Two events of a shipment and a relay that takes one row at a time: two executions drain them. -/
theorem drained_one_by_one :
    ∃ s : RelayState Unit, (relays 1).exec RelayState.empty [commitSample 1, commitSample 2] =
        some s ∧ pending (runTimes 1 2 s).rows = [] ∧
      (runTimes 1 2 s).log = [⟨"a", 1⟩, ⟨"a", 2⟩] := by
  let row (seq : Nat) : OutboxEvent Unit :=
    addEvent "shipment.events" "shipment.status_changed" "a" "shipment" () none seq seq 0
  let s : RelayState Unit := { RelayState.empty with rows := [row 1, row 2] }
  have hexec : (relays 1).exec (RelayState.empty : RelayState Unit)
      [commitSample 1, commitSample 2] = some s := by rfl
  have hpending : (pending s.rows).map (·.publication) = [⟨"a", 1⟩, ⟨"a", 2⟩] := by
    decide +kernel
  have htwo : (pending s.rows).length ≤ 2 * 1 := by decide +kernel
  obtain ⟨hdrained, hlog⟩ :=
    (drained_of_run (Machine.run_of_exec _ hexec) (fun _ => rfl)).2.1 2 htwo
  exact ⟨s, hexec, hdrained, by rw [hlog, hpending]; rfl⟩

end SmartLogistics.Platform
