import SmartLogistics.Platform.Delivery

/-!
# The outbox loses nothing and marks nothing unsent

`Relayed` is the invariant of the relays: an execution has locked the rows it has claimed, has sent
what it is about to mark, and stops at the first message the broker refuses.

`reliable`: in every reachable state each event of a committed transaction has one row and no other
event has one; a row is marked only after its own message was sent; no execution sends after a
failure, and each returns how many rows it has marked.
-/

set_option autoImplicit false

namespace SmartLogistics.Platform

open SmartLogistics.Library RelayState

variable {Payload : Type}

/-! ## The invariant -/

/-- The broker has acknowledged the message. -/
def Mark.isSent : Mark → Bool
  | .sent _ => true
  | .failed _ _ => false

/-- The execution has locked the row, which is as it claimed it. -/
def HeldRow (s : Delivery Payload) (t : Nat) (x : OutboxEvent Payload) : Prop :=
  x ∈ s.outbox.rows ∧ x.publishedAt = none ∧ s.outbox.locks x.seq = some t

/-- The marks are for claimed rows, and those marked as published were sent. -/
def MarksOk (s : Delivery Payload) (t : Nat) (marks : List (Nat × Mark)) : Prop :=
  (marks.map Prod.fst).Nodup ∧ ∀ mark ∈ marks, ∃ x, HeldRow s t x ∧ x.seq = mark.1 ∧
    (mark.2.isSent = true → x.message ∈ s.sends)

/-- What holds of an open execution. -/
def ExecutionOk (s : Delivery Payload) (t : Nat) : Relay Payload → Prop
  | .claiming todo batch => (batch.map (·.seq) ++ todo).Nodup ∧ (∀ x ∈ batch, HeldRow s t x) ∧
    s.executions t = ⟨0, []⟩
  | .sending todo marks => (marks.map Prod.fst ++ todo.map (·.seq)).Nodup ∧
    (∀ x ∈ todo, HeldRow s t x) ∧ MarksOk s t marks ∧
    (s.executions t).published = marks.countP (·.2.isSent) ∧
    ∀ attempt ∈ (s.executions t).attempts, attempt.2 = true
  | .stopped marks => MarksOk s t marks ∧
    (s.executions t).published = marks.countP (·.2.isSent) ∧
    StopsAtFailure (s.executions t).attempts

/-- The invariant of the relays. -/
structure Relayed (s : Delivery Payload) : Prop where
  published : ∀ row ∈ s.outbox.rows, row.publishedAt ≠ none → row.message ∈ s.sends
  locked : ∀ seq t, s.outbox.locks seq = some t → s.outbox.relays t ≠ none
  executions : ∀ t relay, s.outbox.relays t = some relay → ExecutionOk s t relay
  ended : ∀ run ∈ s.ended, StopsAtFailure run.attempts ∧
    ∀ n, run.returned = some n → n = run.marked

theorem relayed_empty : Relayed (.empty : Delivery Payload) where
  published := fun _ h => absurd h List.not_mem_nil
  locked := fun _ _ h => nomatch h
  executions := fun _ _ h => nomatch h
  ended := fun _ h => absurd h List.not_mem_nil

theorem stopsAtFailure_of_all {attempts : List (OutboxEvent Payload × Bool)}
    (h : ∀ attempt ∈ attempts, attempt.2 = true) : StopsAtFailure attempts :=
  fun attempt hattempt => h attempt ((List.dropLast_sublist _).subset hattempt)

/-- The send after successful ones may fail. -/
theorem stopsAtFailure_snoc {attempts : List (OutboxEvent Payload × Bool)}
    (h : ∀ attempt ∈ attempts, attempt.2 = true) (attempt : OutboxEvent Payload × Bool) :
    StopsAtFailure (attempts ++ [attempt]) := by
  rw [StopsAtFailure, List.dropLast_concat]
  exact h

theorem StopsAtFailure.of_execution {s : Delivery Payload} {t : Nat} {relay : Relay Payload}
    (h : ExecutionOk s t relay) : StopsAtFailure (s.executions t).attempts := by
  cases relay with
  | claiming todo batch =>
    rw [h.2.2]
    exact stopsAtFailure_of_all fun _ hmem => absurd hmem List.not_mem_nil
  | sending todo marks => exact stopsAtFailure_of_all h.2.2.2.2
  | stopped marks => exact h.2.2

section Executions

variable {s s' : Delivery Payload} {t : Nat}

theorem MarksOk.mono {marks : List (Nat × Mark)} (h : MarksOk s t marks)
    (hclaimed : ∀ x, HeldRow s t x → HeldRow s' t x) (hsends : ∀ m ∈ s.sends, m ∈ s'.sends) :
    MarksOk s' t marks := by
  refine ⟨h.1, fun mark hmark => ?_⟩
  obtain ⟨x, hx, hseq, hsent⟩ := h.2 mark hmark
  exact ⟨x, hclaimed x hx, hseq, fun hmarked => hsends _ (hsent hmarked)⟩

/-- An execution stays as it is while its claimed rows do. -/
theorem ExecutionOk.mono {relay : Relay Payload} (h : ExecutionOk s t relay)
    (hclaimed : ∀ x, HeldRow s t x → HeldRow s' t x) (hsends : ∀ m ∈ s.sends, m ∈ s'.sends)
    (hexecution : s'.executions t = s.executions t) : ExecutionOk s' t relay := by
  cases relay with
  | claiming todo batch =>
    exact ⟨h.1, fun x hx => hclaimed x (h.2.1 x hx), hexecution.trans h.2.2⟩
  | sending todo marks =>
    obtain ⟨hnodup, htodo, hmarks, hpublished, hall⟩ := h
    rw [ExecutionOk, hexecution]
    exact ⟨hnodup, fun x hx => hclaimed x (htodo x hx), hmarks.mono hclaimed hsends, hpublished,
      hall⟩
  | stopped marks =>
    rw [ExecutionOk, hexecution]
    exact ⟨h.1.mono hclaimed hsends, h.2⟩

theorem MarksOk.snoc {marks : List (Nat × Mark)} (h : MarksOk s t marks) {x : OutboxEvent Payload}
    (hx : HeldRow s t x) (hnew : x.seq ∉ marks.map Prod.fst) {mark : Mark}
    (hsent : mark.isSent = true → x.message ∈ s.sends) :
      MarksOk s t (marks ++ [(x.seq, mark)]) := by
  refine ⟨?_, fun m hm => ?_⟩
  · rw [List.map_append, List.nodup_append']
    refine ⟨h.1, List.nodup_singleton _, fun seq hseq hlast => hnew ?_⟩
    have heq : seq = x.seq := List.mem_singleton.1 hlast
    exact heq ▸ hseq
  · rcases List.mem_append.1 hm with hm | hm
    · exact h.2 m hm
    · rw [List.mem_singleton.1 hm]
      exact ⟨x, hx, rfl, hsent⟩

/-! ### The commit of an execution -/

theorem mem_of_lookup {marks : List (Nat × Mark)} {seq : Nat} {mark : Mark}
    (h : marks.lookup seq = some mark) : (seq, mark) ∈ marks := by
  obtain ⟨before, after, rfl, -⟩ := List.lookup_eq_some_iff.1 h
  exact List.mem_append_right _ List.mem_cons_self

/-- The mark of a row is the one there is for it. -/
theorem MarksOk.lookup {marks : List (Nat × Mark)} (h : MarksOk s t marks) {mark : Nat × Mark}
    (hmark : mark ∈ marks) : marks.lookup mark.1 = some mark.2 := by
  cases hl : marks.lookup mark.1 with
  | none =>
    have hne := List.lookup_eq_none_iff.1 hl mark hmark
    simp at hne
  | some mark' =>
    have hsame := List.inj_on_of_nodup_map h.1 (mem_of_lookup hl) hmark rfl
    rw [← hsame]

/-- A row that another execution has claimed is not marked. -/
theorem MarksOk.claimed {marks : List (Nat × Mark)} (h : MarksOk s t marks) {u : Nat}
    (hut : u ≠ t) {x : OutboxEvent Payload}
    (hx : HeldRow s u x) : x ∈ applyMarks marks s.outbox.rows := by
  refine List.mem_map.2 ⟨x, hx.1, ?_⟩
  cases hl : marks.lookup x.seq with
  | none => rfl
  | some mark =>
    obtain ⟨y, hy, hseq, -⟩ := h.2 _ (mem_of_lookup hl)
    have hlock := hy.2.2
    rw [hseq, hx.2.2] at hlock
    exact absurd (Option.some.inj hlock) hut

theorem mark_isPending (row : OutboxEvent Payload) (mark : Mark) :
    (row.mark mark).isPending = (!mark.isSent && row.isPending) := by
  cases mark <;> rfl

/-- The commit marks one row for each send that succeeded. -/
theorem MarksOk.newlyMarked_eq {marks : List (Nat × Mark)} (h : MarksOk s t marks)
    (hkeyed : Table.Keyed OutboxEvent.seq s.outbox.rows) :
    newlyMarked s.outbox.rows (applyMarks marks s.outbox.rows) = marks.countP (·.2.isSent) := by
  have hmark : ∀ r : OutboxEvent Payload, ((marks.lookup r.seq).elim r r.mark).seq = r.seq := by
    intro r
    exact elim_mark (P := fun r' => r'.seq = r.seq) marks rfl fun mark => by cases mark <;> rfl
  -- the rows that are newly marked and the marks of successful sends have the same keys
  have hperm : ((s.outbox.rows.filter fun r => r.isPending &&
      (applyMarks marks s.outbox.rows).any fun r' => r'.seq == r.seq && !r'.isPending).map
        OutboxEvent.seq).Perm ((marks.filter (·.2.isSent)).map Prod.fst) := by
    refine (List.perm_ext_iff_of_nodup (hkeyed.sublist (List.filter_sublist.map _))
      (h.1.sublist (List.filter_sublist.map _))).2 fun seq => ?_
    simp only [List.mem_map, List.mem_filter, Bool.and_eq_true, List.any_eq_true, beq_iff_eq,
      Bool.not_eq_true']
    constructor
    · rintro ⟨r, ⟨hr, hpending, r', hr', hseq, hpublished⟩, rfl⟩
      obtain ⟨r'', hr'', rfl⟩ := List.mem_map.1 hr'
      rw [hmark] at hseq
      obtain rfl := hkeyed.eq_of_key hr'' hr hseq
      cases hl : marks.lookup r''.seq with
      | none =>
        rw [hl, Option.elim_none, hpending] at hpublished
        cases hpublished
      | some mark =>
        rw [hl, Option.elim_some, mark_isPending, hpending, Bool.and_true] at hpublished
        exact ⟨(r''.seq, mark), ⟨mem_of_lookup hl, by simpa using hpublished⟩, rfl⟩
    · rintro ⟨mark, ⟨hmem, hsent⟩, rfl⟩
      obtain ⟨x, ⟨hx, hpending, -⟩, hseq, -⟩ := h.2 mark hmem
      have hl := h.lookup hmem
      refine ⟨x, ⟨hx, by rw [OutboxEvent.isPending, hpending]; rfl, _, List.mem_map_of_mem hx,
        hmark x, ?_⟩, hseq⟩
      rw [hseq, hl, Option.elim_some, mark_isPending, hsent]
      rfl
  have hlength := hperm.length_eq
  rw [List.length_map, List.length_map] at hlength
  rw [newlyMarked, List.countP_eq_length_filter, List.countP_eq_length_filter, hlength]

/-! ### Steps -/

/-- One execution moves on, and leaves the rows as they are. -/
theorem Relayed.move (h : Relayed s) {relay : Relay Payload}
    (hrows : s'.outbox.rows = s.outbox.rows)
    (hrelays : s'.outbox.relays = Function.update s.outbox.relays t (some relay))
    (hlocks : ∀ u ≠ t, ∀ seq, s'.outbox.locks seq = some u ↔ s.outbox.locks seq = some u)
    (hsends : ∀ m ∈ s.sends, m ∈ s'.sends)
    (hexecutions : ∀ u ≠ t, s'.executions u = s.executions u) (hended : s'.ended = s.ended)
    (hok : ExecutionOk s' t relay) : Relayed s' := by
  refine ⟨fun row hrow hne => ?_, fun seq u hlock => ?_, fun u relay' hu => ?_, ?_⟩
  · rw [hrows] at hrow
    exact hsends _ (h.published row hrow hne)
  · rw [hrelays]
    by_cases hut : u = t
    · subst hut
      simp
    · rw [Function.update_of_ne hut]
      exact h.locked seq u ((hlocks u hut seq).1 hlock)
  · rw [hrelays] at hu
    rcases update_eq_some hu with ⟨rfl, rfl⟩ | ⟨hut, hold⟩
    · exact hok
    · refine (h.executions u relay' hold).mono (fun x hx => ?_) hsends (hexecutions u hut)
      exact ⟨hrows ▸ hx.1, hx.2.1, (hlocks u hut x.seq).2 hx.2.2⟩
  · rw [hended]
    exact h.ended

/-- One execution ends, and leaves alone the rows that others have claimed. -/
theorem Relayed.finish (h : Relayed s)
    (hrelays : s'.outbox.relays = Function.update s.outbox.relays t none)
    (hlocks : s'.outbox.locks = fun seq =>
      if s.outbox.locks seq = some t then none else s.outbox.locks seq)
    (hclaimed : ∀ u ≠ t, ∀ x, HeldRow s u x → x ∈ s'.outbox.rows)
    (hpublished : ∀ row ∈ s'.outbox.rows, row.publishedAt ≠ none → row.message ∈ s.sends)
    (hsends : s'.sends = s.sends) (hexecutions : s'.executions = s.executions)
    (hended : ∀ run ∈ s'.ended, StopsAtFailure run.attempts ∧
      ∀ n, run.returned = some n → n = run.marked) : Relayed s' := by
  have hkept : ∀ u ≠ t, ∀ seq, s.outbox.locks seq = some u → s'.outbox.locks seq = some u := by
    intro u hut seq hlock
    simp only [hlocks, hlock]
    exact if_neg fun heq => hut (Option.some.inj heq)
  refine ⟨fun row hrow hne => hsends ▸ hpublished row hrow hne, fun seq u hlock => ?_,
    fun u relay hu => ?_, hended⟩
  · simp only [hlocks] at hlock
    split at hlock
    · cases hlock
    · rename_i hnot
      have hut : u ≠ t := fun heq => hnot (heq ▸ hlock)
      rw [hrelays, Function.update_of_ne hut]
      exact h.locked seq u hlock
  · rw [hrelays] at hu
    rcases update_option_eq_some hu with ⟨-, hnone⟩ | ⟨hut, hold⟩
    · cases hnone
    · refine (h.executions u relay hold).mono (fun x hx => ?_) (fun m hm => hsends ▸ hm)
        (congrFun hexecutions u)
      exact ⟨hclaimed u hut x hx, hx.2.1, hkept u hut x.seq hx.2.2⟩

/-- A send that succeeds is counted, and its row marked. -/
theorem ExecutionOk.sent {row : OutboxEvent Payload} {todo : List (OutboxEvent Payload)}
    {marks : List (Nat × Mark)} (h : ExecutionOk s t (.sending (row :: todo) marks))
    {publishedAt : Nat} (hrows : s'.outbox.rows = s.outbox.rows)
    (hlocks : s'.outbox.locks = s.outbox.locks) (hsends : s'.sends = s.sends ++ [row.message])
    (hexecution : s'.executions = Function.update s.executions t
      ⟨(s.executions t).published + 1, (s.executions t).attempts ++ [(row, true)]⟩) :
    ExecutionOk s' t (.sending todo (marks ++ [(row.seq, .sent publishedAt)])) := by
  obtain ⟨hnodup, htodo, hmarks, hpublished, hall⟩ := h
  have hclaimed : ∀ x, HeldRow s t x → HeldRow s' t x := by
    intro x hx
    rwa [HeldRow, hrows, hlocks]
  have hnew : row.seq ∉ marks.map Prod.fst := fun hmem =>
    (List.nodup_append'.1 hnodup).2.2 hmem List.mem_cons_self
  have hmono : MarksOk s' t marks :=
    hmarks.mono hclaimed fun m hm => hsends ▸ List.mem_append_left _ hm
  refine ⟨?_, fun x hx => hclaimed x (htodo x (List.mem_cons_of_mem _ hx)),
    hmono.snoc (hclaimed row (htodo row List.mem_cons_self)) hnew
      fun _ => hsends ▸ List.mem_append_right _ List.mem_cons_self, ?_, ?_⟩
  · simpa using hnodup
  · rw [hexecution, Function.update_self, List.countP_append, hpublished]
    rfl
  · rw [hexecution, Function.update_self]
    intro attempt hattempt
    rcases List.mem_append.1 hattempt with hattempt | hattempt
    · exact hall attempt hattempt
    · rw [List.mem_singleton.1 hattempt]

/-- A failed send stops the execution. -/
theorem ExecutionOk.stopped {row : OutboxEvent Payload} {todo : List (OutboxEvent Payload)}
    {marks : List (Nat × Mark)} (h : ExecutionOk s t (.sending (row :: todo) marks))
    {attempts : Nat} {lastError : String} (hrows : s'.outbox.rows = s.outbox.rows)
    (hlocks : s'.outbox.locks = s.outbox.locks) (hsends : s'.sends = s.sends)
    (hexecution : s'.executions = Function.update s.executions t
      ⟨(s.executions t).published, (s.executions t).attempts ++ [(row, false)]⟩) :
    ExecutionOk s' t (.stopped (marks ++ [(row.seq, .failed attempts lastError)])) := by
  obtain ⟨hnodup, htodo, hmarks, hpublished, hall⟩ := h
  have hclaimed : ∀ x, HeldRow s t x → HeldRow s' t x := by
    intro x hx
    rwa [HeldRow, hrows, hlocks]
  have hnew : row.seq ∉ marks.map Prod.fst := fun hmem =>
    (List.nodup_append'.1 hnodup).2.2 hmem List.mem_cons_self
  refine ⟨?_, ?_, ?_⟩
  · exact (hmarks.mono hclaimed fun m hm => hsends ▸ hm).snoc
      (hclaimed row (htodo row List.mem_cons_self)) hnew fun hsent => nomatch hsent
  · rw [hexecution, Function.update_self, List.countP_append, hpublished]
    rfl
  · rw [hexecution, Function.update_self]
    exact stopsAtFailure_snoc hall _

/-- A row that is locked while it is pending is claimed by the execution that has locked it. -/
theorem Relayed.lock (h : Relayed s) {seq : Nat} {todo : List Nat}
    {batch : List (OutboxEvent Payload)}
    (ht : s.outbox.relays t = some (.claiming (seq :: todo) batch))
    (hfree : s.outbox.skips t seq = false) :
    Relayed (s.observe
      ({ s.outbox with locks := Function.update s.outbox.locks seq (some t) }.setRelay t
        (some (.claiming todo (batch ++ ((Table.lookup OutboxEvent.seq s.outbox.rows seq).filter
          OutboxEvent.isPending).toList)))) (.claim t)) := by
  obtain ⟨hnodup, hbatch, hexecution⟩ := h.executions t _ ht
  -- the lock was free, so no other execution has it
  have hlocks : ∀ u ≠ t, ∀ key,
      Function.update s.outbox.locks seq (some t) key = some u ↔ s.outbox.locks key = some u := by
    intro u hut key
    by_cases hkey : key = seq
    · subst hkey
      rw [Function.update_self]
      constructor
      · exact fun heq => absurd (Option.some.inj heq).symm hut
      · intro hlock
        simp only [RelayState.skips, hlock, bne_eq_false_iff_eq] at hfree
        exact absurd hfree hut
    · rw [Function.update_of_ne hkey]
  have hmine : ∀ key, s.outbox.locks key = some t →
      Function.update s.outbox.locks seq (some t) key = some t := by
    intro key hlock
    by_cases hkey : key = seq
    · rw [hkey, Function.update_self]
    · rw [Function.update_of_ne hkey, hlock]
  refine h.move rfl rfl hlocks (fun _ hm => hm) (fun _ _ => rfl) rfl ⟨?_, ?_, hexecution⟩
  · cases hrow : (Table.lookup OutboxEvent.seq s.outbox.rows seq).filter
      OutboxEvent.isPending with
    | none =>
      rw [Option.toList_none, List.append_nil]
      exact hnodup.sublist ((List.sublist_cons_self seq todo).append_left _)
    | some row =>
      have hseq := (Table.mem_of_lookup (Option.eq_some_of_filter_eq_some hrow)).2
      rw [Option.toList_some, List.map_append, List.append_assoc, List.map_singleton, hseq]
      exact hnodup
  · intro x hx
    rcases List.mem_append.1 hx with hx | hx
    · obtain ⟨hmem, hpending, hlock⟩ := hbatch x hx
      exact ⟨hmem, hpending, hmine _ hlock⟩
    · obtain ⟨hlookup, hpending⟩ := Option.filter_eq_some_iff.1 (Option.mem_toList.1 hx)
      obtain ⟨hmem, hseq⟩ := Table.mem_of_lookup hlookup
      refine ⟨hmem, Option.isNone_iff_eq_none.1 hpending, ?_⟩
      exact (congrArg _ hseq).trans (Function.update_self ..)

/-- The commit of an execution marks what it has sent, on rows no other execution has claimed. -/
theorem Relayed.commit (h : Relayed s) (hkeyed : Table.Keyed OutboxEvent.seq s.outbox.rows)
    {relay : Relay Payload} {marks : List (Nat × Mark)} (ht : s.outbox.relays t = some relay)
    (hmarks : relay = .sending [] marks ∨ relay = .stopped marks) :
    Relayed (s.observe ({ s.outbox with rows := applyMarks marks s.outbox.rows }.endRelay t)
      (.commit t)) := by
  have hok := h.executions t _ ht
  have hstops := StopsAtFailure.of_execution hok
  obtain ⟨hmarksOk, hpublished⟩ : MarksOk s t marks ∧
      (s.executions t).published = marks.countP (·.2.isSent) := by
    rcases hmarks with rfl | rfl
    · exact ⟨hok.2.2.1, hok.2.2.2.1⟩
    · exact ⟨hok.1, hok.2.1⟩
  refine h.finish rfl rfl (fun u hut x hx => hmarksOk.claimed hut hx) (fun row hrow hne => ?_) rfl
    rfl fun run hrun => ?_
  · obtain ⟨r, hr, rfl⟩ := List.mem_map.1 hrow
    cases hl : marks.lookup r.seq with
    | none =>
      rw [hl] at hne
      exact h.published r hr hne
    | some mark =>
      obtain ⟨x, hx, hseq, hsent⟩ := hmarksOk.2 _ (mem_of_lookup hl)
      obtain rfl := hkeyed.eq_of_key hx.1 hr hseq
      cases mark with
      | sent publishedAt => exact hsent rfl
      | failed attempts lastError =>
        rw [hl] at hne
        exact absurd hx.2.1 hne
  · rcases List.mem_append.1 hrun with hrun | hrun
    · exact h.ended run hrun
    · rw [List.mem_singleton.1 hrun]
      refine ⟨hstops, fun n hn => ?_⟩
      cases hn
      exact hpublished.trans (hmarksOk.newlyMarked_eq hkeyed).symm

/-- What a relay does keeps the invariant of the relays. -/
theorem Relayed.relay {batchSize : Nat} {l : RelayLabel Payload} {outbox : RelayState Payload}
    (h : Relayed s) (hkeyed : Table.Keyed OutboxEvent.seq s.outbox.rows)
    (hl : ∀ row, l ≠ .commitEvent row) (hstep : RelayStep batchSize s.outbox l outbox) :
    Relayed (s.observe outbox l) := by
  cases hstep with
  | @commitEvent row hpending hseq hkey => exact absurd rfl (hl row)
  | @start t hfree =>
    refine h.move rfl rfl (fun _ _ _ => Iff.rfl) (fun _ hm => hm)
      (fun u hut => Function.update_of_ne hut ..) rfl ⟨?_, ?_, ?_⟩
    · exact (hkeyed.pairwise_keysWhere _).imp fun hlt => Nat.ne_of_lt hlt
    · exact fun x hx => absurd hx List.not_mem_nil
    · exact Function.update_self ..
  | @claimed t todo batch ht hend =>
    obtain ⟨hnodup, hbatch, hexecution⟩ := h.executions t _ ht
    refine h.move rfl rfl (fun _ _ _ => Iff.rfl) (fun _ hm => hm) (fun _ _ => rfl) rfl
      ⟨hnodup.of_append_left, hbatch, ⟨List.nodup_nil, fun _ hm => absurd hm List.not_mem_nil⟩,
        ?_, ?_⟩
    · exact congrArg Execution.published hexecution
    · intro attempt hattempt
      have hnone : (s.executions t).attempts = [] := congrArg Execution.attempts hexecution
      exact absurd (hnone ▸ hattempt) List.not_mem_nil
  | @skip t seq todo batch ht =>
    obtain ⟨hnodup, hbatch, hexecution⟩ := h.executions t _ ht
    exact h.move rfl rfl (fun _ _ _ => Iff.rfl) (fun _ hm => hm) (fun _ _ => rfl) rfl
      ⟨hnodup.sublist ((List.sublist_cons_self seq todo).append_left _), hbatch, hexecution⟩
  | @lock t seq todo batch ht hfree => exact h.lock ht hfree
  | @sent t row todo marks ht =>
    simp only [Delivery.observe, ht]
    exact h.move rfl rfl (fun _ _ _ => Iff.rfl) (fun _ hm => List.mem_append_left _ hm)
      (fun u hut => Function.update_of_ne hut ..) rfl ((h.executions t _ ht).sent rfl rfl rfl rfl)
  | @failed t row todo marks error ht =>
    simp only [Delivery.observe, ht]
    exact h.move rfl rfl (fun _ _ _ => Iff.rfl) (fun _ hm => hm)
      (fun u hut => Function.update_of_ne hut ..) rfl
        ((h.executions t _ ht).stopped rfl rfl rfl rfl)
  | @unconfirmed t row todo marks error ht =>
    simp only [Delivery.observe, ht]
    exact h.move rfl rfl (fun _ _ _ => Iff.rfl) (fun _ hm => hm)
      (fun u hut => Function.update_of_ne hut ..) rfl
        ((h.executions t _ ht).stopped rfl rfl rfl rfl)
  | @commit t relay marks ht hmarks => exact h.commit hkeyed ht hmarks
  | @crash t relay ht =>
    refine h.finish rfl rfl (fun _ _ _ hx => hx.1) h.published rfl rfl fun run hrun => ?_
    rcases List.mem_append.1 hrun with hrun | hrun
    · exact h.ended run hrun
    · rw [List.mem_singleton.1 hrun]
      exact ⟨StopsAtFailure.of_execution (h.executions t _ ht), fun _ hn => nomatch hn⟩
  | tick => exact ⟨h.published, h.locked, fun u relay hu =>
      (h.executions u relay hu).mono (fun _ hx => hx) (fun _ hm => hm) rfl, h.ended⟩

end Executions

/-! ## Runs -/

/-- A step of a transaction keeps the invariant of the relays; what it commits is pending. -/
theorem Relayed.writer {s s' : Delivery Payload} (h : Relayed s) {rows : List (OutboxEvent Payload)}
    (hrows : s'.outbox.rows = s.outbox.rows ++ rows)
    (hpending : ∀ row ∈ rows, row.publishedAt = none)
    (hlocks : s'.outbox.locks = s.outbox.locks) (hrelays : s'.outbox.relays = s.outbox.relays)
    (hexecutions : s'.executions = s.executions) (hsends : s'.sends = s.sends)
    (hended : s'.ended = s.ended) : Relayed s' := by
  refine ⟨fun row hrow hne => ?_, ?_, fun t relay ht => ?_, hended ▸ h.ended⟩
  · rw [hrows] at hrow
    rcases List.mem_append.1 hrow with hrow | hrow
    · exact hsends ▸ h.published row hrow hne
    · exact absurd (hpending row hrow) hne
  · rw [hlocks, hrelays]
    exact h.locked
  · rw [hrelays] at ht
    refine (h.executions t relay ht).mono (fun x hx => ?_) (fun m hm => hsends ▸ hm)
      (congrFun hexecutions t)
    rw [HeldRow, hrows, hlocks]
    exact ⟨List.mem_append_left _ hx.1, hx.2⟩

theorem carries_mark {row : OutboxEvent Payload} {event : NewEvent Payload} (h : row.Carries event)
    (mark : Mark) : (row.mark mark).Carries event := by
  rw [OutboxEvent.Carries] at h ⊢
  cases mark <;> rw [h] <;> rfl

/-- What a relay does keeps the invariant of the transactions. -/
theorem Written.relay {s : Delivery Payload} {batchSize : Nat} {l : RelayLabel Payload}
    {outbox : RelayState Payload} (h : Written s) (hl : ∀ row, l ≠ .commitEvent row)
    (hstep : RelayStep batchSize s.outbox l outbox) : Written (s.observe outbox l) := by
  -- the rows stay as they are, or are marked
  obtain ⟨f, hf, hid, hseq, hcarries⟩ : ∃ f : OutboxEvent Payload → OutboxEvent Payload,
      outbox.rows = s.outbox.rows.map f ∧ (∀ row, (f row).eventId = row.eventId) ∧
      (∀ row, (f row).seq = row.seq) ∧
      ∀ row event, row.Carries event → (f row).Carries event := by
    cases hstep with
    | @commitEvent row hpending hseq hkey => exact absurd rfl (hl row)
    | @commit t relay marks ht hmarks =>
      refine ⟨fun row => (marks.lookup row.seq).elim row row.mark, rfl, fun row => ?_,
        fun row => ?_, fun row event hrow => ?_⟩
      · exact elim_mark (P := fun r => r.eventId = row.eventId) marks rfl
          fun mark => by cases mark <;> rfl
      · exact elim_mark (P := fun r => r.seq = row.seq) marks rfl
          fun mark => by cases mark <;> rfl
      · exact elim_mark (P := fun r => r.Carries event) marks hrow fun mark =>
          carries_mark hrow mark
    | _ => exact ⟨id, (List.map_id _).symm, fun _ => rfl, fun _ => rfl, fun _ _ h => h⟩
  have hobserve : (s.observe outbox l).outbox = outbox ∧
      (s.observe outbox l).writers = s.writers ∧ (s.observe outbox l).added = s.added ∧
      (s.observe outbox l).nextSeq = s.nextSeq ∧ (s.observe outbox l).nextId = s.nextId := by
    cases l with
    | send t answer =>
      simp only [Delivery.observe]
      split <;> exact ⟨rfl, rfl, rfl, rfl, rfl⟩
    | _ => exact ⟨rfl, rfl, rfl, rfl, rfl⟩
  obtain ⟨houtbox, hwriters, hadded, hnextSeq, hnextId⟩ := hobserve
  exact h.congr ((congrArg RelayState.rows houtbox).trans hf) hid hseq hcarries hwriters hadded
    hnextSeq hnextId

/-- Every step keeps both invariants. -/
theorem written_next {batchSize : Nat} {s s' : Delivery Payload} {l : DeliveryLabel Payload}
    (h : Written s ∧ Relayed s) (hnext : deliveryNext batchSize s l = some s') :
    Written s' ∧ Relayed s' := by
  obtain ⟨hwritten, hrelayed⟩ := h
  -- to the relays a transaction's step only appends pending rows, mostly none
  have hnil : s.outbox.rows = s.outbox.rows ++ [] := (List.append_nil _).symm
  have hnone : ∀ row ∈ ([] : List (OutboxEvent Payload)), row.publishedAt = none :=
    fun _ h => absurd h List.not_mem_nil
  cases l with
  | begin t =>
    simp only [deliveryNext] at hnext
    split at hnext
    · rename_i ht
      cases hnext
      exact ⟨hwritten.begin ht, hrelayed.writer hnil hnone rfl rfl rfl rfl rfl⟩
    · cases hnext
  | add t topic eventType key producer payload traceparent =>
    simp only [deliveryNext] at hnext
    split at hnext
    · rename_i writer ht
      cases hnext
      exact ⟨hwritten.add ht rfl, hrelayed.writer hnil hnone rfl rfl rfl rfl rfl⟩
    · cases hnext
  | insert t =>
    simp only [deliveryNext] at hnext
    split at hnext
    · rename_i event staged inserted ht
      cases hnext
      exact ⟨hwritten.insert ht, hrelayed.writer hnil hnone rfl rfl rfl rfl rfl⟩
    · cases hnext
  | commit t =>
    simp only [deliveryNext] at hnext
    split at hnext
    · rename_i inserted ht
      cases hnext
      refine ⟨hwritten.settle ht (Or.inl ⟨rfl, rfl, rfl⟩),
        hrelayed.writer rfl (fun row hrow => ?_) rfl rfl rfl rfl rfl⟩
      obtain ⟨event, seq, rfl, -⟩ := (hwritten.writers t _ ht).inserted row hrow
      rfl
    · cases hnext
  | rollback t =>
    simp only [deliveryNext] at hnext
    split at hnext
    · rename_i writer ht
      cases hnext
      have hsettled := hwritten.settle ht (Or.inr ⟨rfl, rfl⟩)
      rw [List.append_nil] at hsettled
      exact ⟨hsettled, hrelayed.writer hnil hnone rfl rfl rfl rfl rfl⟩
    · cases hnext
  | relay l =>
    simp only [deliveryNext] at hnext
    split at hnext
    · cases hnext
    · rename_i hl
      obtain ⟨outbox, houtbox, rfl⟩ := Option.map_eq_some_iff.1 hnext
      have hstep := relayStep_of_next houtbox
      exact ⟨hwritten.relay hl hstep, hrelayed.relay hwritten.keyed hl hstep⟩

/-- A row that has its id once is all there is of it. -/
theorem filter_eq_singleton {rows : List (OutboxEvent Payload)}
    (hnodup : (rows.map (·.eventId)).Nodup) {row : OutboxEvent Payload} (hrow : row ∈ rows) :
    rows.filter (·.eventId == row.eventId) = [row] := by
  induction rows with
  | nil => exact absurd hrow List.not_mem_nil
  | cons r rows ih =>
    rw [List.map_cons, List.nodup_cons] at hnodup
    obtain ⟨hr, hnodup⟩ := hnodup
    rcases List.mem_cons.1 hrow with rfl | hmem
    · have hnone : rows.filter (·.eventId == row.eventId) = [] := by
        rw [List.filter_eq_nil_iff]
        intro r hmem heq
        exact hr (beq_iff_eq.1 heq ▸ List.mem_map_of_mem hmem)
      rw [List.filter_cons, if_pos (beq_self_eq_true _), hnone]
    · have hne : ¬ (r.eventId == row.eventId) = true := fun heq =>
        hr (beq_iff_eq.1 heq ▸ List.mem_map_of_mem hmem)
      rw [List.filter_cons, if_neg hne, ih hnodup hmem]

/-- The outbox is reliable, however transactions, relays, failures and crashes interleave. -/
theorem reliable {batchSize : Nat} {s : Delivery Payload}
    (h : (delivery batchSize).Run .empty s) : Reliable s := by
  have hstep : ∀ (s : Delivery Payload) l s', Written s ∧ Relayed s → True →
      (delivery batchSize).next s l = some s' → Written s' ∧ Relayed s' :=
    fun _ _ _ hs _ hnext => written_next hs hnext
  obtain ⟨hwritten, hrelayed⟩ := h.preserves hstep ⟨written_empty, relayed_empty⟩
  refine ⟨fun id event hadd => ?_, fun id event hadd => ?_, hrelayed.published,
    fun row hrow hunsent => ⟨?_, hrelayed.locked row.seq⟩, fun run hrun =>
      (hrelayed.ended run hrun).1,
    fun t ht => ?_, fun run hrun => (hrelayed.ended run hrun).2⟩
  · obtain ⟨row, hrow, rfl⟩ := hwritten.complete id event hadd
    obtain ⟨event', hcarries, hadd'⟩ := hwritten.carried row hrow
    rw [hadd] at hadd'
    cases hadd'
    exact ⟨row, filter_eq_singleton hwritten.nodup hrow, hcarries⟩
  · rw [List.filter_eq_nil_iff]
    intro row hrow hid
    obtain ⟨event', -, hadd'⟩ := hwritten.carried row hrow
    rw [beq_iff_eq.1 hid, hadd] at hadd'
    cases hadd'
  · refine Table.mem_keysWhere.2 ⟨row, hrow, ?_, rfl⟩
    rw [OutboxEvent.isPending, Option.isNone_iff_eq_none]
    by_contra hne
    exact hunsent (hrelayed.published row hrow hne)
  · obtain ⟨relay, hrelay⟩ := Option.ne_none_iff_exists'.1 ht
    exact StopsAtFailure.of_execution (hrelayed.executions t relay hrelay)

/-- Transaction `t` adds one event of a shipment. -/
def addSample (t : Nat) : DeliveryLabel Unit :=
  .add t "shipment.events" "shipment.created" "a" "shipment" () none

/-- Two events are committed and one is rolled back; the first execution of `run_once` fails at its
second row, and the second one crashes after its send. -/
def deliveredSample : List (DeliveryLabel Unit) :=
  [.begin 0, addSample 0, addSample 0, .insert 0, .begin 1, addSample 1, .insert 1, .insert 0,
    .rollback 1, .commit 0] ++
  ([.start 0, .claim 0, .claim 0, .claim 0, .send 0 .ok, .send 0 (.failed "broker down"), .commit 0,
    .start 0, .claim 0, .claim 0, .send 0 .ok, .crash 0].map .relay)

theorem reliable_after_crash : ∃ s : Delivery Unit, (delivery 100).Run .empty s ∧
    s.outbox.rows.map (fun row => (row.seq, row.isPending)) = [(1, false), (3, true)] ∧
    s.ended.map (fun run => run.returned) = [some 1, none] ∧ Reliable s := by
  have hrun : ((delivery 100).exec (.empty : Delivery Unit) deliveredSample).map
      (fun s => (s.outbox.rows.map fun row => (row.seq, row.isPending),
        s.ended.map fun run => run.returned)) =
      some ([(1, false), (3, true)], [some 1, none]) := by
    decide +kernel
  obtain ⟨s, hs, hfacts⟩ := Option.map_eq_some_iff.1 hrun
  obtain ⟨hrows, hended⟩ := Prod.mk.inj hfacts
  have hreach := Machine.run_of_exec _ hs
  exact ⟨s, hreach, hrows, hended, reliable hreach⟩

end SmartLogistics.Platform
