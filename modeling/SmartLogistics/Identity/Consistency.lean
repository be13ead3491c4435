import SmartLogistics.Identity.Scopes

/-!
# When operator scopes are consistent

`Consistent` is the invariant of the two services: every assignment is of a pair that should be one,
unless a deletion of its warehouse has still to be handled, and what a request has read stands while
the steps are timely. Each kind of step keeps it.

`scopes_consistent`: along runs in which an assignment commits only if its warehouse was not
deleted for good since Warehouse answered and no deletion event of it waits to be handled, and an
unassignment deletes the row that is still the pair's, a state with nothing in flight has exactly
the assignments that were made, not taken back, and not followed by a deletion of the warehouse. The
code checks neither (`not_scopes_consistent`).
-/

set_option autoImplicit false

namespace SmartLogistics.Identity

open SmartLogistics.Library SmartLogistics.Platform SmartLogistics.Warehouse

variable {security : Security} {settings : Settings}

/-! ## The invariant -/

section Invariant

variable {Detail : Type} {s : ScopeState Detail} {scope : List (Nat × Nat)}

/-- The row ids a transaction has in its hands. -/
def ScopeRequest.ids : ScopeRequest → List Nat
  | .asking .. | .answered .. | .claimed .. => []
  | .inserted assignment _ | .found assignment => [assignment.id]
  | .removed _ _ ids => ids

/-- The event a handler has recorded. -/
def ScopeRequest.event : ScopeRequest → Option (Nat × Nat)
  | .claimed warehouseId n | .removed warehouseId n _ => some (warehouseId, n)
  | _ => none

/-- The warehouse that Warehouse has answered with, and how many events it had then. -/
def ScopeRequest.answer : ScopeRequest → Option (Nat × Nat)
  | .answered _ warehouseId seen => some (warehouseId, seen)
  | .inserted assignment seen => some (assignment.warehouseId, seen)
  | _ => none

/-- The warehouse was not deleted when it had `seen` events: it is not, unless a deletion has
committed since. -/
structure Stood (s : ScopeState Detail) (warehouseId seen : Nat) : Prop where
  past : ∀ n : Nat, (s.warehouse.events warehouseId)[n]? = none → seen ≤ n
  stands : NotDeletedSince s warehouseId seen → ¬ IsDeleted s.warehouse warehouseId

/-- What holds of an open transaction, by where it stands. -/
structure ScopeRequest.Valid (s : ScopeState Detail) (t : Nat) (r : ScopeRequest) : Prop where
  waiting : ∀ e, r.event = some e → Waiting s e.1 e.2 ∧ s.locks (eventId e.1 e.2) = some t
  found : ∀ assignment, r = .found assignment →
    ∀ row ∈ s.db.assignments, row.id = assignment.id → row = assignment
  removed : ∀ warehouseId n ids, r = .removed warehouseId n ids →
    ∀ row ∈ s.db.assignments, row.id ∈ ids ↔ row.warehouseId = warehouseId
  answered : ∀ answer, r.answer = some answer → Stood s answer.1 answer.2

/-- The scopes, as far as handled events can have brought them about, and what open transactions
rely on. -/
structure Consistent (s : ScopeState Detail) (scope : List (Nat × Nat)) : Prop where
  marked : Marked s.warehouse
  checked : s.db.violated = none
  /-- A handled event has been published. -/
  handled : ∀ w n, eventId w n ∈ s.db.processedEvents → (s.warehouse.events w)[n]? ≠ none
  assigned : ∀ u w, (u, w) ∈ scope → ∃ row ∈ s.db.assignments, row.userId = u ∧ row.warehouseId = w
  /-- A row too many waits for the deletion of its warehouse to be handled. -/
  stale : ∀ row ∈ s.db.assignments, (row.userId, row.warehouseId) ∉ scope →
    ∃ n, Waiting s row.warehouseId n
  waiting : ∀ u w n, Waiting s w n → (u, w) ∉ scope
  standing : ∀ u w, (u, w) ∈ scope → ¬ IsDeleted s.warehouse w
  /-- Ids are drawn once. -/
  rows : ∀ row ∈ s.db.assignments, row.id < s.drawn
  bound : ∀ t r, s.requests t = some r → ∀ id ∈ r.ids, id < s.drawn
  own : ∀ t assignment seen, s.requests t = some (.inserted assignment seen) →
    (∀ row ∈ s.db.assignments, row.id ≠ assignment.id) ∧
      ∀ u r, s.requests u = some r → assignment.id ∈ r.ids → u = t
  requests : ∀ t r, s.requests t = some r → r.Valid s t

theorem consistent_empty : Consistent (ScopeState.empty : ScopeState Detail) [] where
  marked := marked_empty
  checked := (by decide : Db.empty.violated = none)
  handled := fun _ _ h => absurd h List.not_mem_nil
  assigned := fun _ _ h => absurd h List.not_mem_nil
  stale := fun _ h => absurd h List.not_mem_nil
  waiting := fun _ _ _ _ h => absurd h List.not_mem_nil
  standing := fun _ _ h => absurd h List.not_mem_nil
  rows := fun _ h => absurd h List.not_mem_nil
  bound := fun _ _ h => nomatch h
  own := fun _ _ _ h => nomatch h
  requests := fun _ _ h => nomatch h

/-- The rows are one for each pair. -/
theorem pair_unique {db : Db} (h : db.violated = none) {row row' : UserWarehouseAssignment}
    (hrow : row ∈ db.assignments) (hrow' : row' ∈ db.assignments)
    (hkey : row.id = row'.id ∨ (row.userId = row'.userId ∧ row.warehouseId = row'.warehouseId)) :
    row = row' := by
  rw [Db.violated_eq_none] at h
  simp only [Db.constraints, Db.uniqueKeys, Db.referencesUser, List.forall_mem_cons,
    decide_eq_true_eq] at h
  obtain ⟨-, -, -, -, -, hids, hpairs, -⟩ := h
  rcases hkey with hid | ⟨huser, hwarehouse⟩
  · exact List.inj_on_of_nodup_map hids hrow hrow' hid
  · exact List.inj_on_of_nodup_map hpairs hrow hrow' (Prod.ext huser hwarehouse)

/-- Only Warehouse counts for what it has answered. -/
theorem stood_of_warehouse {s' : ScopeState Detail} {warehouseId seen : Nat}
    (hsame : s'.warehouse = s.warehouse) (h : Stood s warehouseId seen) :
    Stood s' warehouseId seen := by
  refine ⟨fun n => ?_, fun hnone => ?_⟩
  · rw [hsame]
    exact h.past n
  · rw [NotDeletedSince, hsame] at hnone
    rw [hsame]
    exact h.stands hnone

/-- What holds of an open transaction survives steps that add no row it has in its hands or has to
delete. -/
theorem ScopeRequest.Valid.mono {s' : ScopeState Detail} {t : Nat} {r : ScopeRequest}
    (h : r.Valid s t)
    (hrows : ∀ row ∈ s'.db.assignments, row ∈ s.db.assignments ∨
      row.id ∉ r.ids ∧ ∀ e, r.event = some e → row.warehouseId ≠ e.1)
    (hwaiting : ∀ e, r.event = some e → Waiting s e.1 e.2 → Waiting s' e.1 e.2)
    (hlocks : ∀ e, s.locks e = some t → s'.locks e = some t)
    (hstood : ∀ answer : Nat × Nat, Stood s answer.1 answer.2 → Stood s' answer.1 answer.2) :
    r.Valid s' t where
  waiting := fun e he => ⟨hwaiting e he (h.waiting e he).1, hlocks _ (h.waiting e he).2⟩
  found := by
    rintro assignment rfl row hrow hid
    rcases hrows row hrow with hold | ⟨hnew, -⟩
    · exact h.found assignment rfl row hold hid
    · exact absurd hid fun heq => hnew (by rw [heq]; exact List.mem_singleton_self _)
  removed := by
    rintro warehouseId n ids rfl row hrow
    rcases hrows row hrow with hold | ⟨hnew, hother⟩
    · exact h.removed warehouseId n ids rfl row hold
    · exact iff_of_false hnew (hother (warehouseId, n) rfl)
  answered := fun answer hanswer => hstood answer (h.answered answer hanswer)

/-- A transaction moves on, and nothing is committed. -/
theorem Consistent.put (h : Consistent s scope) {t drawn : Nat} {locks : Nat → Option Nat}
    {r : ScopeRequest} (hdrawn : s.drawn ≤ drawn)
    (hlocks : ∀ e u, u ≠ t → s.locks e = some u → locks e = some u)
    (hbound : ∀ id ∈ r.ids, id < drawn)
    (hnew : ∀ assignment seen, r = .inserted assignment seen →
      (∀ row ∈ s.db.assignments, row.id ≠ assignment.id) ∧
        ∀ u r', u ≠ t → s.requests u = some r' → assignment.id ∉ r'.ids)
    (hold : ∀ u assignment seen, u ≠ t → s.requests u = some (.inserted assignment seen) →
      assignment.id ∉ r.ids)
    (hvalid : r.Valid { s with locks := locks } t) :
    Consistent ({ s with drawn := drawn, locks := locks }.put t r) scope where
  marked := h.marked
  checked := h.checked
  handled := h.handled
  assigned := h.assigned
  stale := h.stale
  waiting := h.waiting
  standing := h.standing
  rows := fun row hrow => Nat.lt_of_lt_of_le (h.rows row hrow) hdrawn
  bound := by
    intro u r' hr'
    rcases update_eq_some hr' with ⟨rfl, rfl⟩ | ⟨-, hr'⟩
    · exact hbound
    · exact fun id hid => Nat.lt_of_lt_of_le (h.bound u r' hr' id hid) hdrawn
  own := by
    intro u assignment seen hu
    rcases update_eq_some hu with ⟨rfl, rfl⟩ | ⟨hut, hopen⟩
    · -- the row just drawn is in no other hands
      obtain ⟨hrows, hothers⟩ := hnew assignment seen rfl
      refine ⟨hrows, fun u' r' hr' hid => ?_⟩
      rcases update_eq_some hr' with ⟨rfl, -⟩ | ⟨hne, hr'⟩
      · rfl
      · exact absurd hid (hothers u' r' hne hr')
    · obtain ⟨hrows, hothers⟩ := h.own u assignment seen hopen
      refine ⟨hrows, fun u' r' hr' hid => ?_⟩
      rcases update_eq_some hr' with ⟨rfl, rfl⟩ | ⟨-, hr'⟩
      · exact absurd hid (hold u assignment seen hut hopen)
      · exact hothers u' r' hr' hid
  requests := by
    intro u r' hr'
    rcases update_eq_some hr' with ⟨rfl, rfl⟩ | ⟨hut, hr'⟩
    · exact ⟨hvalid.waiting, hvalid.found, hvalid.removed,
        fun answer hanswer => stood_of_warehouse (s := { s with locks := locks }) rfl
          (hvalid.answered answer hanswer)⟩
    · exact (h.requests u r' hr').mono (fun row hrow => Or.inl hrow) (fun _ _ he => he)
        (fun e he => hlocks e u hut he) fun _ => stood_of_warehouse rfl

/-- A transaction ends with `db` committed, which has the rows of `s` that it did not delete, and at
most one more, of a warehouse no deletion of which waits. -/
theorem Consistent.finish (h : Consistent s scope) {t : Nat} {db : Db} {scope' : List (Nat × Nat)}
    (hchecked : db.violated = none)
    (hprocessed : ∀ w n, eventId w n ∈ db.processedEvents → eventId w n ∈ s.db.processedEvents ∨
      Waiting s w n ∧ s.locks (eventId w n) = some t)
    (hassigned :
      ∀ u w, (u, w) ∈ scope' → ∃ row ∈ db.assignments, row.userId = u ∧ row.warehouseId = w)
    (hstale : ∀ row ∈ db.assignments, (row.userId, row.warehouseId) ∉ scope' →
      ∃ n, Waiting s row.warehouseId n ∧ eventId row.warehouseId n ∉ db.processedEvents)
    (hscope : ∀ u w, (u, w) ∈ scope' → (u, w) ∈ scope ∨
      ¬ IsDeleted s.warehouse w ∧ ∀ n, ¬ Waiting s w n)
    (hrows : ∀ row ∈ db.assignments, row ∈ s.db.assignments ∨
      (∃ seen, s.requests t = some (.inserted row seen)) ∧ ∀ n, ¬ Waiting s row.warehouseId n)
    (hevents : ∀ e ∈ s.db.processedEvents, e ∈ db.processedEvents) :
    Consistent (s.finish t db) scope' := by
  have hstill : ∀ {w n}, Waiting (s.finish t db) w n → Waiting s w n := fun ⟨hdeletion, hnot⟩ =>
    ⟨hdeletion, fun he => hnot (hevents _ he)⟩
  have hopen : ∀ {u r}, (s.finish t db).requests u = some r → u ≠ t ∧ s.requests u = some r := by
    intro u r hr
    rcases update_option_eq_some hr with ⟨-, hnone⟩ | hr
    · cases hnone
    · exact hr
  refine ⟨h.marked, hchecked, ?_, hassigned, ?_, ?_, ?_, ?_, ?_, ?_, ?_⟩
  · intro w n he (hnone : (s.warehouse.events w)[n]? = none)
    rcases hprocessed w n he with he | ⟨⟨hdeletion, -⟩, -⟩
    · exact h.handled w n he hnone
    · rw [Deletion, hnone] at hdeletion
      cases hdeletion
  · intro row hrow hout
    obtain ⟨n, ⟨hdeletion, -⟩, hnot⟩ := hstale row hrow hout
    exact ⟨n, hdeletion, hnot⟩
  · intro u w n hwaiting hin
    rcases hscope u w hin with hin | ⟨-, hnone⟩
    · exact h.waiting u w n (hstill hwaiting) hin
    · exact hnone n (hstill hwaiting)
  · intro u w hin
    rcases hscope u w hin with hin | ⟨hlive, -⟩
    · exact h.standing u w hin
    · exact hlive
  · intro row hrow
    rcases hrows row hrow with hold | ⟨⟨seen, hnew⟩, -⟩
    · exact h.rows row hold
    · exact h.bound t _ hnew row.id (List.mem_singleton_self _)
  · exact fun u r hr => h.bound u r (hopen hr).2
  · intro u assignment seen hu
    obtain ⟨hut, hu⟩ := hopen hu
    obtain ⟨hother, hothers⟩ := h.own u assignment seen hu
    refine ⟨fun row hrow hid => ?_, fun u' r' hr' => hothers u' r' (hopen hr').2⟩
    rcases hrows row hrow with hold | ⟨⟨_, hnew⟩, -⟩
    · exact hother row hold hid
    · exact hut (hothers t _ hnew (by rw [← hid]; exact List.mem_singleton_self _)).symm
  · intro u r hr
    obtain ⟨hut, hr⟩ := hopen hr
    have hvalid := h.requests u r hr
    refine hvalid.mono (fun row hrow => ?_) (fun e he hwaiting => ⟨hwaiting.1, fun hin => ?_⟩) ?_
      fun _ => stood_of_warehouse rfl
    · -- the new row's id was drawn for it, and nobody is handling a deletion of its warehouse
      rcases hrows row hrow with hold | ⟨⟨seen, hnew⟩, hnone⟩
      · exact Or.inl hold
      · refine Or.inr ⟨fun hid => hut ((h.own t row seen hnew).2 u r hr hid), fun e he heq => ?_⟩
        exact hnone e.2 (heq ▸ (hvalid.waiting e he).1)
    · rcases hprocessed e.1 e.2 hin with hold | ⟨-, hlock⟩
      · exact hwaiting.2 hold
      · -- the event is this handler's
        rw [(hvalid.waiting e he).2] at hlock
        exact hut (Option.some.inj hlock)
    · intro e he
      simp only [ScopeState.finish, he]
      exact if_neg fun heq => hut (Option.some.inj heq)

/-- A step of Warehouse. -/
theorem Consistent.warehouse [DecidableEq Detail] (h : Consistent s scope)
    {l : WarehouseLabel Detail} {warehouse : WarehouseState Detail}
    (hnext : warehouseNext s.warehouse l = some warehouse) :
    Consistent { s with warehouse := warehouse } (track s scope (.warehouse l)) := by
  obtain ⟨hmarked, hstep⟩ := h.marked.next hnext
  have hscope : ∀ u w, (u, w) ∈ track s scope (.warehouse l) ↔
      (u, w) ∈ scope ∧ deletedBy s.warehouse l ≠ some w := by
    intro u w
    simp only [track]
    cases deletedBy s.warehouse l with
    | none => simp
    | some w' =>
      rw [List.mem_filter, decide_eq_true_eq, ne_eq, ne_eq, Option.some.injEq, eq_comm]
  have hdeletion : ∀ {w n}, Deletion s.warehouse w n → Deletion warehouse w n := by
    intro w n hd
    obtain ⟨event, hevent, htype⟩ := Option.map_eq_some_iff.1 hd
    rw [Deletion, hstep.kept w n event hevent, Option.map_some, htype]
  refine ⟨hmarked, h.checked, ?_, ?_, ?_, ?_, ?_, h.rows, h.bound, h.own, ?_⟩
  · intro w n he
    obtain ⟨event, hevent⟩ := Option.ne_none_iff_exists'.1 (h.handled w n he)
    simp only [hstep.kept w n event hevent, ne_eq, reduceCtorEq, not_false_eq_true]
  · exact fun u w hin => h.assigned u w ((hscope u w).1 hin).1
  · intro row hrow hout
    by_cases hin : (row.userId, row.warehouseId) ∈ scope
    · -- the pair was dropped, so its warehouse has just been deleted
      have hdeleted : deletedBy s.warehouse l = some row.warehouseId := by
        by_contra hne
        exact hout ((hscope _ _).2 ⟨hin, hne⟩)
      obtain ⟨n, hn, hnone⟩ := hstep.appended _ hdeleted
      exact ⟨n, hn, fun he => h.handled _ n he hnone⟩
    · obtain ⟨n, hn, hnot⟩ := h.stale row hrow hin
      exact ⟨n, hdeletion hn, hnot⟩
  · rintro u w n ⟨hn, hnot⟩ hin
    obtain ⟨hin, hne⟩ := (hscope u w).1 hin
    rcases hstep.announced w n hn with hold | hdeleted
    · exact h.waiting u w n ⟨hold, hnot⟩ hin
    · exact hne hdeleted
  · intro u w hin hd
    obtain ⟨hin, hne⟩ := (hscope u w).1 hin
    rcases hstep.marked w hd with hold | hdeleted
    · exact h.standing u w hin hold
    · exact hne hdeleted
  · intro t r hr
    refine (h.requests t r hr).mono (fun row hrow => Or.inl hrow)
      (fun e _ hwaiting => ⟨hdeletion hwaiting.1, hwaiting.2⟩) (fun _ he => he)
      fun answer hstood => ⟨fun n hnone => ?_, fun hsince hd => ?_⟩
    · -- events stay where they are
      refine hstood.past n (Option.eq_none_iff_forall_ne_some.2 fun event hevent => ?_)
      cases (hstep.kept _ n event hevent).symm.trans hnone
    · rcases hstep.marked _ hd with hold | hdeleted
      · exact hstood.stands (fun n hle hn => hsince n hle (hdeletion hn)) hold
      · obtain ⟨n, hn, hnone⟩ := hstep.appended _ hdeleted
        exact hsince n (hstood.past n hnone) hn

/-- A request that leaves the scopes alone. -/
theorem Consistent.aside (h : Consistent s scope) {db : Db} (haside : Aside s.db db) :
    Consistent { s with db := db } scope := by
  obtain ⟨hassignments, hprocessed, hchecked⟩ := haside
  refine ⟨h.marked, hchecked h.checked, ?_, ?_, ?_, ?_, h.standing, ?_, h.bound, ?_, ?_⟩
  · exact fun w n he => h.handled w n (hprocessed ▸ he)
  · exact fun u w hin => hassignments ▸ h.assigned u w hin
  · intro row hrow hout
    obtain ⟨n, hn, hnot⟩ := h.stale row (hassignments ▸ hrow) hout
    exact ⟨n, hn, hprocessed ▸ hnot⟩
  · exact fun u w n hwaiting => h.waiting u w n ⟨hwaiting.1, hprocessed ▸ hwaiting.2⟩
  · exact fun row hrow => h.rows row (hassignments ▸ hrow)
  · exact fun t assignment seen ht => hassignments ▸ h.own t assignment seen ht
  · intro t r hr
    exact (h.requests t r hr).mono (fun row hrow => Or.inl (hassignments ▸ hrow))
      (fun e _ hwaiting => ⟨hwaiting.1, hprocessed ▸ hwaiting.2⟩) (fun _ he => he)
      fun _ => stood_of_warehouse rfl

/-- A transaction is rolled back. -/
theorem Consistent.abort (h : Consistent s scope) (t : Nat) : Consistent (s.finish t s.db) scope :=
  h.finish h.checked (fun _ _ he => Or.inl he) h.assigned
    (fun row hrow hout => (h.stale row hrow hout).imp fun _ hn => ⟨hn, hn.2⟩)
    (fun _ _ hin => Or.inl hin) (fun _ hrow => Or.inl hrow) fun _ he => he

/-- An assignment commits while its warehouse has not been deleted for good since Warehouse
answered, and no deletion of it waits. -/
theorem Consistent.assign (h : Consistent s scope) {t seen : Nat}
    {assignment : UserWarehouseAssignment}
    (ht : s.requests t = some (.inserted assignment seen))
    (hchecked : (s.db.insertAssignment assignment).violated = none)
    (hsince : NotDeletedSince s assignment.warehouseId seen ∨
      ¬ IsDeleted s.warehouse assignment.warehouseId)
    (hnone : ∀ n, ¬ Waiting s assignment.warehouseId n) :
    Consistent (s.finish t (s.db.insertAssignment assignment))
      ((assignment.userId, assignment.warehouseId) :: scope) := by
  -- Warehouse has answered that it stands
  have hlive : ¬ IsDeleted s.warehouse assignment.warehouseId :=
    hsince.elim ((h.requests t _ ht).answered _ rfl).stands id
  refine h.finish hchecked (fun _ _ he => Or.inl he) ?_ ?_ ?_ ?_ fun _ he => he
  · intro u w hin
    rcases List.mem_cons.1 hin with heq | hin
    · obtain ⟨rfl, rfl⟩ := Prod.mk.inj heq
      exact ⟨assignment, List.mem_append_right _ (List.mem_singleton_self _), rfl, rfl⟩
    · obtain ⟨row, hrow, hpair⟩ := h.assigned u w hin
      exact ⟨row, List.mem_append_left _ hrow, hpair⟩
  · intro row hrow hout
    rcases List.mem_append.1 hrow with hrow | hrow
    · exact (h.stale row hrow fun hin => hout (List.mem_cons_of_mem _ hin)).imp fun _ hn =>
        ⟨hn, hn.2⟩
    · rw [List.mem_singleton.1 hrow] at hout
      exact absurd List.mem_cons_self hout
  · intro u w hin
    rcases List.mem_cons.1 hin with heq | hin
    · obtain ⟨rfl, rfl⟩ := Prod.mk.inj heq
      exact Or.inr ⟨hlive, hnone⟩
    · exact Or.inl hin
  · intro row hrow
    rcases List.mem_append.1 hrow with hrow | hrow
    · exact Or.inl hrow
    · rw [List.mem_singleton.1 hrow]
      exact Or.inr ⟨⟨seen, ht⟩, hnone⟩

/-- An unassignment deletes the row of its pair. -/
theorem Consistent.unassign (h : Consistent s scope) {t : Nat}
    {assignment : UserWarehouseAssignment}
    (ht : s.requests t = some (.found assignment))
    (hpair : ∀ row ∈ s.db.assignments, row.userId = assignment.userId →
      row.warehouseId = assignment.warehouseId → row.id = assignment.id) :
    Consistent (s.finish t (s.db.deleteAssignments [assignment.id]))
      (scope.filter (· ≠ (assignment.userId, assignment.warehouseId))) := by
  have hkept : ∀ row, row ∈ (s.db.deleteAssignments [assignment.id]).assignments ↔
      row ∈ s.db.assignments ∧ row.id ≠ assignment.id := by
    intro row
    simp [Db.deleteAssignments, List.mem_filter]
  refine h.finish (Db.violated_deleteAssignments h.checked _) (fun _ _ he => Or.inl he) ?_ ?_ ?_ ?_
    fun _ he => he
  · intro u w hin
    obtain ⟨hin, hne⟩ := List.mem_filter.1 hin
    obtain ⟨row, hrow, rfl, rfl⟩ := h.assigned u w hin
    refine ⟨row, (hkept row).2 ⟨hrow, fun hid => ?_⟩, rfl, rfl⟩
    -- the row with the id is the one that was read
    obtain rfl := (h.requests t _ ht).found assignment rfl row hrow hid
    simp at hne
  · intro row hrow hout
    obtain ⟨hrow, hid⟩ := (hkept row).1 hrow
    refine (h.stale row hrow fun hin => hout ?_).imp fun _ hn => ⟨hn, hn.2⟩
    refine List.mem_filter.2 ⟨hin, ?_⟩
    simp only [ne_eq, Prod.mk.injEq, decide_eq_true_eq]
    rintro ⟨huser, hwarehouse⟩
    exact hid (hpair row hrow huser hwarehouse)
  · exact fun u w hin => Or.inl (List.mem_filter.1 hin).1
  · exact fun row hrow => Or.inl ((hkept row).1 hrow).1

/-- The handler of a deletion commits: every row of the warehouse is gone. -/
theorem Consistent.handle (h : Consistent s scope) {t w n : Nat} {ids : List Nat}
    (ht : s.requests t = some (.removed w n ids))
    (hchecked : ((s.db.insertProcessed (eventId w n)).deleteAssignments ids).violated = none) :
    Consistent (s.finish t ((s.db.insertProcessed (eventId w n)).deleteAssignments ids)) scope := by
  have hvalid := h.requests t _ ht
  obtain ⟨hwaiting, hlock⟩ := hvalid.waiting (w, n) rfl
  -- the ids it has read are those of the warehouse's rows still
  have hkept : ∀ row,
      row ∈ ((s.db.insertProcessed (eventId w n)).deleteAssignments ids).assignments ↔
        row ∈ s.db.assignments ∧ row.warehouseId ≠ w := by
    intro row
    rw [ne_eq, Db.deleteAssignments, List.mem_filter]
    constructor
    · rintro ⟨hrow, hid⟩
      refine ⟨hrow, fun hw => ?_⟩
      simp [(hvalid.removed w n ids rfl row hrow).2 hw] at hid
    · rintro ⟨hrow, hw⟩
      refine ⟨hrow, ?_⟩
      have hid : row.id ∉ ids := fun hid => hw ((hvalid.removed w n ids rfl row hrow).1 hid)
      simpa using hid
  have hevent : ∀ w' n', eventId w' n' ∈ (s.db.insertProcessed (eventId w n)).processedEvents ↔
      eventId w' n' ∈ s.db.processedEvents ∨ w' = w ∧ n' = n := by
    intro w' n'
    rw [Db.insertProcessed, List.mem_append, List.mem_singleton, eventId, eventId, Nat.pair_eq_pair]
  refine h.finish hchecked ?_ ?_ ?_ ?_ ?_ ?_
  · intro w' n' he
    rcases (hevent w' n').1 he with he | ⟨rfl, rfl⟩
    · exact Or.inl he
    · exact Or.inr ⟨hwaiting, hlock⟩
  · intro u w' hin
    obtain ⟨row, hrow, rfl, rfl⟩ := h.assigned u w' hin
    -- a pair of the warehouse is in no scope while its event waits
    refine ⟨row, (hkept row).2 ⟨hrow, fun hw => ?_⟩, rfl, rfl⟩
    exact h.waiting _ _ n (hw ▸ hwaiting) hin
  · intro row hrow hout
    obtain ⟨hrow, hw⟩ := (hkept row).1 hrow
    obtain ⟨n', hn'⟩ := h.stale row hrow hout
    refine ⟨n', hn', fun he => ?_⟩
    rcases (hevent _ _).1 he with he | ⟨hw', -⟩
    · exact hn'.2 he
    · exact hw hw'
  · exact fun u w' hin => Or.inl hin
  · exact fun row hrow => Or.inl ((hkept row).1 hrow).1
  · exact fun e he => List.mem_append_left _ he

theorem aside_seed (user : User) (db : Db) : Aside db (db.seed user) := by
  rw [Db.seed]
  split
  · rename_i db' hdb'
    obtain ⟨hchecked, rfl⟩ := checked_of_check hdb'
    exact ⟨rfl, rfl, fun _ => hchecked⟩
  · exact ⟨rfl, rfl, id⟩

/-- A transaction that has no row in its hands moves on. -/
theorem Consistent.put_empty (h : Consistent s scope) {t : Nat} {r : ScopeRequest}
    (hids : r.ids = []) (hevent : r.event = none)
    (hanswer : ∀ answer, r.answer = some answer → Stood s answer.1 answer.2) :
    Consistent (s.put t r) scope := by
  refine h.put (Nat.le_refl _) (fun _ _ _ he => he) ?_ ?_ ?_ ?_
  · rw [hids]
    exact fun id hid => absurd hid List.not_mem_nil
  · rintro assignment seen rfl
    cases hids
  · rw [hids]
    exact fun u assignment _ _ _ => List.not_mem_nil
  · refine ⟨fun e he => ?_, ?_, ?_, fun answer h => stood_of_warehouse rfl (hanswer answer h)⟩
    · rw [hevent] at he
      cases he
    · rintro assignment rfl
      cases hids
    · rintro w n ids rfl
      cases hevent

variable [DecidableEq Detail]

section Steps

variable {s' : ScopeState Detail} {t : Nat}

/-- `assign_warehouse` reads the user. -/
theorem Consistent.next_assign (h : Consistent s scope) {userId warehouseId : Nat}
    (hnext : scopeNext security settings s (.assign t userId warehouseId) = some s') :
    Consistent s' scope := by
  simp only [scopeNext] at hnext
  split at hnext
  · split at hnext
    · cases hnext
      exact h.put_empty rfl rfl nofun
    · cases hnext
  · cases hnext

/-- Warehouse answers with a warehouse that is not deleted. -/
theorem Consistent.next_ask (h : Consistent s scope)
    (hnext : scopeNext security settings s (.ask t) = some s') : Consistent s' scope := by
  simp only [scopeNext] at hnext
  split at hnext
  · rename_i userId warehouseId ht
    split at hnext
    · rename_i row hrow
      split at hnext
      · rename_i hlive
        cases hnext
        refine h.put_empty rfl rfl fun answer hanswer => ?_
        cases hanswer
        refine ⟨fun n => List.getElem?_eq_none_iff.1, fun _ hdeleted => ?_⟩
        simp [IsDeleted, hrow, hlive] at hdeleted
      · cases hnext
    · cases hnext
  · cases hnext

/-- The row of an assignment is flushed, with an id that is new to everyone. -/
theorem Consistent.next_insert (h : Consistent s scope)
    (hnext : scopeNext security settings s (.insert t) = some s') : Consistent s' scope := by
  simp only [scopeNext] at hnext
  split at hnext
  · rename_i userId warehouseId seen ht
    split at hnext
    · cases hnext
      refine h.put (Nat.le_succ _) (fun _ _ _ he => he) ?_ ?_ ?_ ⟨nofun, nofun, nofun, ?_⟩
      · exact fun id hid => List.mem_singleton.1 hid ▸ Nat.lt_succ_self _
      · rintro assignment _ heq
        cases heq
        exact ⟨fun row hrow => Nat.ne_of_lt (h.rows row hrow),
          fun u r' _ hr' hid => Nat.lt_irrefl _ (h.bound u r' hr' _ hid)⟩
      · intro u assignment _ _ hu hid
        have hlt := h.bound u _ hu assignment.id (List.mem_singleton_self _)
        rw [List.mem_singleton.1 hid] at hlt
        exact Nat.lt_irrefl _ hlt
      · intro answer hanswer
        cases hanswer
        exact stood_of_warehouse rfl ((h.requests t _ ht).answered _ rfl)
    · cases hnext
  · cases hnext

/-- `unassign_warehouse` reads the row of the pair. -/
theorem Consistent.next_unassign (h : Consistent s scope) {userId warehouseId : Nat}
    (hnext : scopeNext security settings s (.unassign t userId warehouseId) = some s') :
    Consistent s' scope := by
  simp only [scopeNext] at hnext
  split at hnext
  · rename_i user assignment ht huser hfound
    cases hnext
    have hmem : assignment ∈ s.db.assignments := List.mem_of_find?_eq_some hfound
    refine h.put (Nat.le_refl _) (fun _ _ _ he => he) ?_ nofun ?_ ⟨nofun, ?_, nofun, nofun⟩
    · exact fun id hid => List.mem_singleton.1 hid ▸ h.rows assignment hmem
    · intro u assignment' seen _ hu hid
      exact (h.own u assignment' seen hu).1 assignment hmem (List.mem_singleton.1 hid).symm
    · rintro assignment' heq row hrow hid
      cases heq
      exact pair_unique h.checked hrow hmem (Or.inl hid)
  · cases hnext

/-- A handler records an event that has not been handled, and locks its id. -/
theorem Consistent.next_deliver (h : Consistent s scope) {warehouseId n : Nat}
    (hnext : scopeNext security settings s (.deliver t warehouseId n) = some s') :
    Consistent s' scope := by
  simp only [scopeNext] at hnext
  split at hnext
  · cases hnext
    exact h
  · rename_i hnew
    split at hnext
    · rename_i ht hfree
      split at hnext
      · rename_i hdeletion
        cases hnext
        refine h.put (Nat.le_refl _) ?_ (fun id hid => absurd hid List.not_mem_nil) nofun
          (fun _ _ _ _ _ => List.not_mem_nil) ⟨?_, nofun, nofun, nofun⟩
        · intro e u _ he
          have hne : e ≠ eventId warehouseId n := by
            rintro rfl
            rw [hfree] at he
            cases he
          simp only [Function.update_of_ne hne, he]
        · intro e he
          cases he
          exact ⟨⟨hdeletion, by simpa using hnew⟩, Function.update_self ..⟩
      · cases hnext
    · cases hnext

/-- The handler selects the rows of its warehouse. -/
theorem Consistent.next_remove (h : Consistent s scope)
    (hnext : scopeNext security settings s (.remove t) = some s') : Consistent s' scope := by
  simp only [scopeNext] at hnext
  split at hnext
  · rename_i warehouseId n ht
    cases hnext
    have hids : ∀ {id}, id ∈ (s.db.assignments.filter (·.warehouseId == warehouseId)).map (·.id) ↔
        ∃ row ∈ s.db.assignments, row.warehouseId = warehouseId ∧ row.id = id := by
      intro id
      simp [List.mem_filter, and_assoc]
    refine h.put (Nat.le_refl _) (fun _ _ _ he => he) ?_ nofun ?_ ⟨?_, nofun, ?_, nofun⟩
    · intro id hid
      obtain ⟨row, hrow, -, rfl⟩ := hids.1 hid
      exact h.rows row hrow
    · intro u assignment seen _ hu hid
      obtain ⟨row, hrow, -, heq⟩ := hids.1 hid
      exact (h.own u assignment seen hu).1 row hrow heq
    · exact fun e he => (h.requests t _ ht).waiting e he
    · rintro w n' ids heq row hrow
      cases heq
      constructor
      · intro hid
        obtain ⟨row', hrow', hw, heq⟩ := hids.1 hid
        rw [← pair_unique h.checked hrow' hrow (Or.inl heq), hw]
      · exact fun hw => hids.2 ⟨row, hrow, hw, rfl⟩
  · cases hnext

/-- A transaction commits, timely. -/
theorem Consistent.next_commit (h : Consistent s scope) (htimely : Timely s (.commit t))
    (hnext : scopeNext security settings s (.commit t) = some s') :
    Consistent s' (track s scope (.commit t)) := by
  simp only [scopeNext] at hnext
  simp only [Timely] at htimely
  split at hnext
  · rename_i assignment seen ht
    split at hnext
    · rename_i hchecked
      cases hnext
      rw [ht] at htimely
      simp only [track, ht]
      exact h.assign ht hchecked htimely.1 htimely.2
    · cases hnext
  · rename_i assignment ht
    cases hnext
    rw [ht] at htimely
    simp only [track, ht]
    exact h.unassign ht htimely
  · rename_i warehouseId n ids ht
    split at hnext
    · rename_i hchecked
      cases hnext
      simp only [track, ht]
      exact h.handle ht hchecked
    · cases hnext
  · cases hnext

/-- Each timely step keeps the scopes consistent. -/
theorem Consistent.next (h : Consistent s scope) {l : ScopeLabel Detail}
    (htimely : Timely s l) (hnext : scopeNext security settings s l = some s') :
    Consistent s' (track s scope l) := by
  cases l with
  | warehouse l =>
    obtain ⟨warehouse, hwarehouse, rfl⟩ := Option.map_eq_some_iff.1 hnext
    exact h.warehouse hwarehouse
  | seed user =>
    cases hnext
    exact h.aside (aside_seed user s.db)
  | request op now ids =>
    simp only [scopeNext] at hnext
    split at hnext
    · cases hnext
    · rename_i hop
      cases hnext
      exact h.aside ((keepsAside_serve (Bool.eq_false_iff.2 hop)).after frame_aside trivial)
  | assign t userId warehouseId => exact h.next_assign hnext
  | ask t => exact h.next_ask hnext
  | insert t => exact h.next_insert hnext
  | unassign t userId warehouseId => exact h.next_unassign hnext
  | deliver t warehouseId n => exact h.next_deliver hnext
  | remove t => exact h.next_remove hnext
  | commit t => exact h.next_commit htimely hnext
  | abort t =>
    obtain ⟨r, -, rfl⟩ := Option.map_eq_some_iff.1 hnext
    exact h.abort t

end Steps

end Invariant

/-- Operator scopes and warehouses stay consistent, if the steps are timely: with nothing in flight,
the assignments are the pairs assigned, not unassigned since, and whose warehouse was not deleted
since, and none refers to a deleted warehouse. -/
theorem scopes_consistent {Detail : Type} [DecidableEq Detail] (security : Security)
    (settings : Settings) {s : ScopeState Detail} {scope : List (Nat × Nat)}
    (hrun : (scopes security settings).RunOf (fun m l => Timely m.1 l) (.empty, []) (s, scope))
    (hquiet : Quiescent s) :
    (∀ u w, (∃ row ∈ s.db.assignments, row.userId = u ∧ row.warehouseId = w) ↔ (u, w) ∈ scope) ∧
      ∀ row ∈ s.db.assignments, ¬ IsDeleted s.warehouse row.warehouseId := by
  have h : Consistent s scope := by
    refine hrun.preserves (I := fun m => Consistent m.1 m.2) (fun m l m' hm htimely hnext => ?_)
      consistent_empty
    obtain ⟨s', hs', rfl⟩ := Option.map_eq_some_iff.1 hnext
    exact hm.next htimely hs'
  have hscope : ∀ row ∈ s.db.assignments, (row.userId, row.warehouseId) ∈ scope := by
    intro row hrow
    by_contra hout
    obtain ⟨n, hn⟩ := h.stale row hrow hout
    exact hquiet.events _ n hn
  refine ⟨fun u w => ⟨?_, h.assigned u w⟩, fun row hrow => h.standing _ _ (hscope row hrow)⟩
  rintro ⟨row, hrow, rfl, rfl⟩
  exact hscope row hrow

/-! ## Three runs -/

/-- Warehouse 0 and operator 5. -/
def depot : List (ScopeLabel Unit) :=
  [.seed (sampleUser 5 "operator@transfleet.com" .warehouseOperator),
    .warehouse (.create 0 0 ⟨"KHI-01", "Karachi", "Karachi", fun _ => none⟩), .warehouse (.flush 0),
    .warehouse (.commit 0)]

/-- A write to the warehouse, from its reading to its commit. -/
def writeDepot (op : WarehouseOp Unit) : List (ScopeLabel Unit) :=
  [.warehouse (.load 0 0 ⟨1, .admin, [], none⟩ op), .warehouse (.set 0), .warehouse (.flush 0),
    .warehouse (.update 0), .warehouse (.commit 0)]

/-- The operator is assigned to the warehouse, up to the commit. -/
def assignDepot : List (ScopeLabel Unit) := [.assign 0 5 0, .ask 0, .insert 0]

/-- The deletion, which is event 1 of the warehouse, is handled. -/
def handleDeletion : List (ScopeLabel Unit) := [.deliver 1 0 1, .remove 1, .commit 1]

/-- The deletion is handled before the warehouse is restored and the operator assigned again. -/
def reassigned : List (ScopeLabel Unit) :=
  depot ++ assignDepot ++ [.commit 0] ++ writeDepot .delete ++ handleDeletion ++
    writeDepot .restore ++ assignDepot ++ [.commit 0]

/-- The deletion is handled between the answer to the existence check and the commit. -/
def overlooked : List (ScopeLabel Unit) :=
  depot ++ assignDepot ++ writeDepot .delete ++ handleDeletion ++ [.commit 0]

/-- The deletion is handled after the warehouse has been restored and the operator assigned. -/
def delayed : List (ScopeLabel Unit) :=
  depot ++ writeDepot .delete ++ writeDepot .restore ++ assignDepot ++ [.commit 0] ++ handleDeletion

/-- Where a run of the samples ends. -/
def endOf (ls : List (ScopeLabel Unit)) : ScopeState Unit × List (Nat × Nat) :=
  ((scopes sampleSecurity sampleSettings).exec (.empty, []) ls).getD (.empty, [])

theorem run_endOf (ls : List (ScopeLabel Unit))
    (h : ((scopes sampleSecurity sampleSettings).exec (.empty, []) ls).isSome) :
    (scopes sampleSecurity sampleSettings).Run (.empty, []) (endOf ls) := by
  obtain ⟨m, hm⟩ := Option.isSome_iff_exists.1 h
  rw [endOf, hm]
  exact Machine.run_of_exec ls hm

/-- The samples use transactions 0 and 1, writer 0 and warehouse 0. -/
theorem quiescent_of {s : ScopeState Unit}
    (h : s.requests 0 = none ∧ s.requests 1 = none ∧ s.warehouse.writers 0 = none ∧
      ∀ n, ¬ Waiting s 0 n)
    (hrequests : ∀ t, s.requests (t + 2) = none)
    (hwriters : ∀ t, s.warehouse.writers (t + 1) = none)
    (hevents : ∀ w, s.warehouse.events (w + 1) = []) : Quiescent s where
  requests
    | 0 => h.1
    | 1 => h.2.1
    | t + 2 => hrequests t
  writers
    | 0 => h.2.2.1
    | t + 1 => hwriters t
  events
    | 0 => h.2.2.2
    | w + 1 => fun n hn => by
      have hdeletion := hn.1
      rw [Deletion, hevents] at hdeletion
      cases hdeletion

theorem scopes_consistent_after_restore :
    ∃ row ∈ (endOf reassigned).1.db.assignments, row.userId = 5 ∧ row.warehouseId = 0 := by
  obtain ⟨m, hm⟩ : ∃ m, (scopes sampleSecurity sampleSettings).execOf (fun m l => Timely m.1 l)
      (.empty, []) reassigned = some m := Option.isSome_iff_exists.1 (by decide +kernel)
  have hend : endOf reassigned = m := by rw [endOf, Machine.exec_of_execOf _ hm, Option.getD_some]
  have hrun := Machine.runOf_of_execOf _ hm
  rw [← hend] at hrun
  have hquiet : Quiescent (endOf reassigned).1 :=
    quiescent_of (by decide +kernel) (fun _ => rfl) (fun _ => rfl) fun _ => rfl
  exact ((scopes_consistent sampleSecurity sampleSettings hrun hquiet).1 5 0).2 (by decide +kernel)

/-- The scopes are not consistent: an assignment can outlive its warehouse, if the deletion is
handled between the existence check and the commit; and an assignment made after a restore can be
lost to the event of the earlier deletion. -/
theorem not_scopes_consistent :
    (∃ (s : ScopeState Unit) (scope : List (Nat × Nat)),
      (scopes sampleSecurity sampleSettings).Run (.empty, []) (s, scope) ∧ Quiescent s ∧
        ∃ row ∈ s.db.assignments, IsDeleted s.warehouse row.warehouseId) ∧
    ∃ (s : ScopeState Unit) (scope : List (Nat × Nat)),
      (scopes sampleSecurity sampleSettings).Run (.empty, []) (s, scope) ∧ Quiescent s ∧
        (5, 0) ∈ scope ∧ ¬ ∃ row ∈ s.db.assignments, row.userId = 5 ∧ row.warehouseId = 0 := by
  constructor
  · refine ⟨(endOf overlooked).1, (endOf overlooked).2,
      run_endOf overlooked (by decide +kernel), ?_,
      by decide +kernel⟩
    exact quiescent_of (by decide +kernel) (fun _ => rfl) (fun _ => rfl) fun _ => rfl
  · refine ⟨(endOf delayed).1, (endOf delayed).2, run_endOf delayed (by decide +kernel), ?_,
      by decide +kernel, by decide +kernel⟩
    exact quiescent_of (by decide +kernel) (fun _ => rfl) (fun _ => rfl) fun _ => rfl

end SmartLogistics.Identity
