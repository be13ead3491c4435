import SmartLogistics.Identity.Rotation
import SmartLogistics.Identity.Writes
import SmartLogistics.Warehouse.Deletions
import Mathlib.Data.Nat.Pairing

/-!
# Operator scopes and the warehouses they refer to

Warehouse and Identity side by side: the writers of a warehouse, the transactions of
`assign_warehouse` (which asks Warehouse before it inserts), `unassign_warehouse` and
`on_warehouse_deleted`, the other requests of Identity, and the delivery of each `warehouse.deleted`
event at any time and any number of times.

`scopes` runs them beside the scopes as they should be (`track`), and `Timely` is the condition on
its steps under which the two agree once nothing is in flight (`Quiescent`).
-/

set_option autoImplicit false

namespace SmartLogistics.Identity

open SmartLogistics.Library SmartLogistics.Platform SmartLogistics.Warehouse

variable {security : Security} {settings : Settings}

/-! ## Requests that leave the scopes alone -/

/-- Neither assignments nor handled events are different, and the constraints still hold. -/
structure Aside (db db' : Db) : Prop where
  assignments : db'.assignments = db.assignments
  processedEvents : db'.processedEvents = db.processedEvents
  checked : db.violated = none → db'.violated = none

theorem frame_aside : Frame (fun _ => True) Aside where
  refl := fun _ => ⟨rfl, rfl, id⟩
  trans := fun h h' => ⟨h'.assignments.trans h.assignments,
    h'.processedEvents.trans h.processedEvents, fun hc => h'.checked (h.checked hc)⟩
  keeps := fun _ h => h

section Aside

/-- No write of the body touches assignments or handled events. -/
abbrev KeepsAside {α : Type} (x : IdentityTxn α) : Prop := x.Frames (fun _ => True) Aside

/-- The writes of a request that writes no assignments. -/
theorem accepts_aside {op : Operation} (hop : op.writesScopes = false) : Accepts op Aside where
  sends := by
    intro g hg db hchecked
    cases hg with
    | writeUser loaded user hrole => exact ⟨rfl, rfl, fun _ => hchecked⟩
    | insertUser user => exact ⟨rfl, rfl, fun _ => hchecked⟩
    | writeTokens ids set => exact ⟨rfl, rfl, fun _ => hchecked⟩
    | insertToken token => exact ⟨rfl, rfl, fun _ => hchecked⟩
    | insertAssignment assignment h =>
      cases op with
      | assignWarehouse => cases hop
      | _ => cases h
    | deleteAssignments ids h =>
      rw [h] at hop
      cases hop
    | insertProcessed eventId h =>
      rw [h] at hop
      cases hop
  stage := fun _ _ => ⟨rfl, rfl, id⟩

/-- Every other request leaves the scopes alone. -/
theorem keepsAside_serve {op : Operation} (hop : op.writesScopes = false) :
    KeepsAside (serve security settings op) :=
  (accepts_aside hop).serve

end Aside

/-! ## The two services -/

/-- Where a transaction that writes assignments stands. The sessions it revokes and the event it
stages are those of `assignWarehouse`, `unassignWarehouse` and `onWarehouseDeleted`; nothing here
reads them. -/
inductive ScopeRequest
  /-- `assign_warehouse` has read the user. -/
  | asking (userId warehouseId : Nat)
  /-- The Warehouse service has answered with the warehouse, which had `seen` events then (for
  specifications only). -/
  | answered (userId warehouseId seen : Nat)
  /-- The row is flushed. -/
  | inserted (assignment : UserWarehouseAssignment) (seen : Nat)
  /-- `unassign_warehouse` has read the row, which it deletes by its id. -/
  | found (assignment : UserWarehouseAssignment)
  /-- The consumer has recorded the event of a deletion. -/
  | claimed (warehouseId n : Nat)
  /-- Its `DELETE` has selected the rows `ids`. -/
  | removed (warehouseId n : Nat) (ids : List Nat)

/-- The id of event `n` of a warehouse. -/
def eventId (warehouseId n : Nat) : Nat := Nat.pair warehouseId n

/-- Warehouse's state, Identity's database, how many row ids have been drawn, the open handlers of
events, and the open transactions. -/
structure ScopeState (Detail : Type) where
  warehouse : WarehouseState Detail
  db : Db
  drawn : Nat
  locks : Nat → Option Nat
  requests : Nat → Option ScopeRequest

/-- A scheduler choice. -/
inductive ScopeLabel (Detail : Type)
  /-- A step of Warehouse. -/
  | warehouse (l : WarehouseLabel Detail)
  /-- The seeding script adds an account. -/
  | seed (user : User)
  /-- Another request of Identity. -/
  | request (op : Operation) (now ids : Nat)
  | assign (t userId warehouseId : Nat)
  /-- `GET /warehouses/{id}` of an assignment. -/
  | ask (t : Nat)
  | insert (t : Nat)
  | unassign (t userId warehouseId : Nat)
  /-- Event `n` of a warehouse reaches Identity. -/
  | deliver (t warehouseId n : Nat)
  /-- The handler's `DELETE`. -/
  | remove (t : Nat)
  | commit (t : Nat)
  /-- The transaction is rolled back: its request fails, or its pod dies. -/
  | abort (t : Nat)

namespace ScopeState

variable {Detail : Type}

/-- No warehouse, no assignment, nothing open. -/
def empty : ScopeState Detail where
  warehouse := .empty
  db := Db.empty
  drawn := 0
  locks := fun _ => none
  requests := fun _ => none

/-- A transaction set to `r`. -/
def put (s : ScopeState Detail) (t : Nat) (r : ScopeRequest) : ScopeState Detail :=
  { s with requests := Function.update s.requests t (some r) }

/-- Transaction `t` ended with the committed state `db`. -/
def finish (s : ScopeState Detail) (t : Nat) (db : Db) : ScopeState Detail :=
  { s with
    db := db
    locks := fun e => if s.locks e = some t then none else s.locks e
    requests := Function.update s.requests t none }

end ScopeState

section

variable {Detail : Type} [DecidableEq Detail] (security : Security) (settings : Settings)

/-- One scheduler choice. -/
def scopeNext (s : ScopeState Detail) : ScopeLabel Detail → Option (ScopeState Detail)
  | .warehouse l => (warehouseNext s.warehouse l).map fun warehouse =>
    { s with warehouse := warehouse }
  | .seed user => some { s with db := s.db.seed user }
  | .request op now ids =>
    if op.writesScopes then none
    else some { s with db := (serve security settings op).after now ids s.db }
  | .assign t userId warehouseId =>
    match s.requests t, getUser userId false s.db with
    | none, some user =>
      if user.role = .warehouseOperator then some (s.put t (.asking user.id warehouseId)) else none
    | _, _ => none
  | .ask t =>
    match s.requests t with
    | some (.asking userId warehouseId) =>
      match s.warehouse.rows warehouseId with
      | some row =>
        if row.deletedAt = none then
          some (s.put t (.answered userId warehouseId (s.warehouse.events warehouseId).length))
        else none
      | none => none
    | _ => none
  | .insert t =>
    match s.requests t with
    | some (.answered userId warehouseId seen) =>
      let assignment : UserWarehouseAssignment :=
        { id := s.drawn
          userId := userId
          warehouseId := warehouseId
          createdAt := s.warehouse.clock }
      if (s.db.insertAssignment assignment).violated = none then
        some ({ s with drawn := s.drawn + 1 }.put t (.inserted assignment seen))
      else none
    | _ => none
  | .unassign t userId warehouseId =>
    match s.requests t, getUser userId false s.db, findAssignment userId warehouseId s.db with
    | none, some _, some assignment => some (s.put t (.found assignment))
    | _, _, _ => none
  | .deliver t warehouseId n =>
    if s.db.processedEvents.contains (eventId warehouseId n) then some s
    else
      -- the insert of the event's id waits for another handler of the event
      match s.requests t, s.locks (eventId warehouseId n) with
      | none, none =>
        if Deletion s.warehouse warehouseId n then
          some ({ s with locks := Function.update s.locks (eventId warehouseId n) (some t) }.put t
            (.claimed warehouseId n))
        else none
      | _, _ => none
  | .remove t =>
    match s.requests t with
    | some (.claimed warehouseId n) =>
      some (s.put t (.removed warehouseId n
        ((s.db.assignments.filter (·.warehouseId == warehouseId)).map (·.id))))
    | _ => none
  | .commit t =>
    match s.requests t with
    | some (.inserted assignment _) =>
      let db := s.db.insertAssignment assignment
      if db.violated = none then some (s.finish t db) else none
    | some (.found assignment) => some (s.finish t (s.db.deleteAssignments [assignment.id]))
    | some (.removed warehouseId n ids) =>
      let db := (s.db.insertProcessed (eventId warehouseId n)).deleteAssignments ids
      if db.violated = none then some (s.finish t db) else none
    | _ => none
  | .abort t => (s.requests t).map fun _ => s.finish t s.db

end

/-! ## What the scopes should be -/

section

variable {Detail : Type}

/-- The pairs assigned, not unassigned since, and whose warehouse was not deleted since, after one
more step. -/
def track (s : ScopeState Detail) (scope : List (Nat × Nat)) : ScopeLabel Detail → List (Nat × Nat)
  | .warehouse l =>
    match deletedBy s.warehouse l with
    | some warehouseId => scope.filter (·.2 ≠ warehouseId)
    | none => scope
  | .commit t =>
    match s.requests t with
    | some (.inserted assignment _) => (assignment.userId, assignment.warehouseId) :: scope
    | some (.found assignment) =>
      scope.filter (· ≠ (assignment.userId, assignment.warehouseId))
    | _ => scope
  | _ => scope

/-- Deletion `n` of a warehouse has not been handled. -/
def Waiting (s : ScopeState Detail) (warehouseId n : Nat) : Prop :=
  Deletion s.warehouse warehouseId n ∧ eventId warehouseId n ∉ s.db.processedEvents

/-- No deletion of the warehouse has committed since it had `seen` events. -/
def NotDeletedSince (s : ScopeState Detail) (warehouseId seen : Nat) : Prop :=
  ∀ n, seen ≤ n → ¬ Deletion s.warehouse warehouseId n

/-- If the step commits an assignment, no deletion of the warehouse has committed since Warehouse
answered, or the warehouse was restored, and no deletion of it waits to be handled; if it commits an
unassignment, the row it deletes is that of the pair, if there is one. -/
def Timely (s : ScopeState Detail) : ScopeLabel Detail → Prop
  | .commit t =>
    match s.requests t with
    | some (.inserted assignment seen) => (NotDeletedSince s assignment.warehouseId seen ∨
        ¬ IsDeleted s.warehouse assignment.warehouseId) ∧
      ∀ n, ¬ Waiting s assignment.warehouseId n
    | some (.found assignment) => ∀ row ∈ s.db.assignments, row.userId = assignment.userId →
      row.warehouseId = assignment.warehouseId → row.id = assignment.id
    | _ => True
  | _ => True

instance (s : ScopeState Detail) (warehouseId n : Nat) : Decidable (Waiting s warehouseId n) :=
  inferInstanceAs (Decidable (_ ∧ _))

/-- Deletions are events that there are. -/
theorem lt_of_deletion {s : ScopeState Detail} {warehouseId n : Nat}
    (h : Deletion s.warehouse warehouseId n) : n < (s.warehouse.events warehouseId).length := by
  by_contra hge
  rw [Deletion, List.getElem?_eq_none (Nat.le_of_not_lt hge)] at h
  cases h

theorem forall_not_waiting {s : ScopeState Detail} {warehouseId : Nat} :
    (∀ n < (s.warehouse.events warehouseId).length, ¬ Waiting s warehouseId n) ↔
      ∀ n, ¬ Waiting s warehouseId n :=
  ⟨fun h n hn => h n (lt_of_deletion hn.1) hn, fun h n _ => h n⟩

theorem forall_not_deletion {s : ScopeState Detail} {warehouseId seen : Nat} :
    (∀ n < (s.warehouse.events warehouseId).length, seen ≤ n →
      ¬ Deletion s.warehouse warehouseId n) ↔ NotDeletedSince s warehouseId seen :=
  ⟨fun h n hle hn => h n (lt_of_deletion hn) hle hn, fun h n _ => h n⟩

instance (s : ScopeState Detail) (warehouseId : Nat) :
    Decidable (∀ n, ¬ Waiting s warehouseId n) :=
  decidable_of_iff _ forall_not_waiting

instance (s : ScopeState Detail) (warehouseId seen : Nat) :
    Decidable (NotDeletedSince s warehouseId seen) :=
  decidable_of_iff _ forall_not_deletion

instance (s : ScopeState Detail) (l : ScopeLabel Detail) : Decidable (Timely s l) := by
  unfold Timely
  split
  · split <;> infer_instance
  · infer_instance

/-- No event and no request is in flight. -/
structure Quiescent (s : ScopeState Detail) : Prop where
  requests : ∀ t, s.requests t = none
  writers : ∀ t, s.warehouse.writers t = none
  events : ∀ warehouseId n, ¬ Waiting s warehouseId n

/-- Both services with the scopes as they should be. -/
def scopes [DecidableEq Detail] (security : Security) (settings : Settings) :
    Machine (ScopeState Detail × List (Nat × Nat)) (ScopeLabel Detail) :=
  ⟨fun m l => (scopeNext security settings m.1 l).map fun s => (s, track m.1 m.2 l)⟩

end

end SmartLogistics.Identity
