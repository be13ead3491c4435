import SmartLogistics.Library.Frame
import SmartLogistics.Identity.SessionSteps

/-!
# The writes of Identity's operations

`Sends` lists the writes an operation may send to the database: which operations insert or delete
assignments, and which set a role. A relation on states that these writes and the staged events
respect (`Accepts`) frames the whole operation (`Accepts.serve`), so it holds between the states
before and after each of its commits.
-/

set_option autoImplicit false

namespace SmartLogistics.Identity

open SmartLogistics.Library SmartLogistics.Platform

/-- The request or event writes assignments or handled events. -/
def Operation.writesScopes : Operation → Bool
  | .assignWarehouse .. | .unassignWarehouse .. | .process .. => true
  | _ => false

/-- The user an operation gives a warehouse to. -/
def Operation.assigns : Operation → Option Nat
  | .assignWarehouse _ userId _ _ => some userId
  | _ => none

/-- The user whose role an operation sets, and the role. -/
def Operation.setsRole : Operation → Option (Nat × UserRole)
  | .changeRole _ userId payload => some (userId, payload.role)
  | _ => none

/-- The writes an operation sends. -/
inductive Sends (op : Operation) : (Db → Db) → Prop
  | writeUser (loaded user : User)
      (hrole : user.role = loaded.role ∨ op.setsRole = some (loaded.id, user.role)) :
      Sends op (Db.writeUser loaded user)
  | insertUser (user : User) : Sends op (Db.insertUser user)
  | writeTokens (ids : List Nat) (set : RefreshToken → RefreshToken) :
      Sends op (Db.writeTokens ids set)
  | insertToken (token : RefreshToken) : Sends op (Db.insertToken token)
  | insertAssignment (assignment : UserWarehouseAssignment)
      (h : op.assigns = some assignment.userId) : Sends op (Db.insertAssignment assignment)
  | deleteAssignments (ids : List Nat) (h : op.writesScopes = true) :
      Sends op (Db.deleteAssignments ids)
  | insertProcessed (eventId : Nat) (h : op.writesScopes = true) :
      Sends op (Db.insertProcessed eventId)

/-- The relation respects the writes of the operation that the constraints accept, and staged
events. -/
structure Accepts (op : Operation) (P : Db → Db → Prop) : Prop where
  sends : ∀ {g : Db → Db}, Sends op g → ∀ db, (g db).violated = none → P db (g db)
  stage : ∀ events db, P db (Db.stage events db)

namespace Accepts

variable {security : Security} {settings : Settings} {op : Operation} {P : Db → Db → Prop}
  {α β : Type}

/-- The body respects the relation. -/
abbrev Within (P : Db → Db → Prop) (x : IdentityTxn α) : Prop := x.Frames (fun _ => True) P

theorem write (h : Accepts op P) {g : Db → Db} (hg : Sends op g) :
    Within P (Txn.write fun db => (g db).check) := by
  refine Txn.frames_write fun db db' hdb' => ?_
  obtain ⟨hchecked, rfl⟩ := checked_of_check hdb'
  exact h.sends hg db hchecked

theorem emit (h : Accepts op P) (eventType : String) (user : User) (extra : EventExtra) :
    Within P (emit eventType user extra) := by
  refine Txn.frames_write fun db db' hdb' => ?_
  cases hdb'
  exact h.stage _ db

theorem within_lock (row : Row) : Within P (Txn.lock row (.pure ()) : IdentityTxn Unit) := trivial

theorem within_now : Within P (Txn.now : IdentityTxn Nat) := fun _ => trivial

theorem within_freshId : Within P (Txn.freshId : IdentityTxn Nat) := fun _ => trivial

theorem revokeAll (h : Accepts op P) (userId : Nat) : Within P (revokeAll userId) := by
  refine within_now.bind fun now => ?_
  refine Txn.Frames.bind (Txn.frames_selectForUpdate _ _ _ _) fun rows => ?_
  exact Txn.Frames.bind (h.write (.writeTokens _ _)) fun _ => trivial

/-- A flush that leaves the role alone, or sets the one the operation sets. -/
theorem flushUser (h : Accepts op P) {loaded user : User}
    (hrole : user.role = loaded.role ∨ op.setsRole = some (loaded.id, user.role)) :
    Within P (flushUser loaded user) := by
  rw [Identity.flushUser]
  split
  · trivial
  · refine within_now.bind fun now => Txn.Frames.bind (within_lock _) fun _ => ?_
    exact Txn.Frames.bind (h.write (.writeUser _ _ hrole)) fun _ => trivial

theorem issue (h : Accepts op P) {loaded user : User} (hrole : user.role = loaded.role)
    (client : ClientInfo) : Within P (issue security settings loaded user client) := by
  refine Txn.Frames.bind (Txn.frames_select _) fun warehouseIds => within_now.bind
    fun signedAt => ?_
  refine within_freshId.bind fun bytes => within_freshId.bind fun id => ?_
  refine within_now.bind fun now => Txn.Frames.bind (h.flushUser (Or.inl hrole)) fun flushed => ?_
  exact Txn.Frames.bind (h.write (.insertToken _)) fun _ => trivial

theorem registerFailedAttempt_role (now : Nat) (user : User) :
    (registerFailedAttempt settings now user).role = user.role := by
  unfold registerFailedAttempt
  split
  · rfl
  · rfl

theorem login (h : Accepts op P) (email password : String) (client : ClientInfo) :
    Within P (login security settings email password client) := by
  refine Txn.Frames.bind (Txn.frames_select _) fun found => ?_
  cases found with
  | none => trivial
  | some loaded =>
    refine within_now.bind fun now => ?_
    split
    · trivial
    · split
      · refine within_now.bind fun now => ?_
        exact Txn.Frames.bind (h.flushUser (Or.inl (registerFailedAttempt_role now loaded)))
          fun _ => trivial
      · split
        · trivial
        · refine within_now.bind fun _ => Txn.Frames.bind (h.issue ?_ client) fun _ => trivial
          rfl

theorem refresh (h : Accepts op P) (rawToken : Nat) (client : ClientInfo) :
    Within P (refresh security settings rawToken client) := by
  refine Txn.Frames.bind (Txn.Frames.bind (Txn.frames_selectForUpdate _ _ _ _) fun _ => trivial)
    fun found => ?_
  cases found with
  | none => trivial
  | some stored =>
    simp only
    split
    · exact Txn.Frames.bind (h.revokeAll _) fun _ => trivial
    · refine within_now.bind fun now => ?_
      split
      · trivial
      · refine Txn.Frames.bind (Txn.frames_select _) fun owner => ?_
        cases owner.filter (·.isActive) with
        | none => trivial
        | some user =>
          refine Txn.Frames.bind (h.issue (Eq.refl user.role) client) fun issued => ?_
          refine within_now.bind fun now => Txn.Frames.bind (within_lock _) fun _ => ?_
          exact Txn.Frames.bind (h.write (.writeTokens _ _)) fun _ => trivial

theorem logout (h : Accepts op P) (rawToken userId : Nat) :
    Within P (logout security rawToken userId) := by
  refine Txn.Frames.bind (Txn.frames_select _) fun found => ?_
  cases found.filter (·.userId == userId) with
  | none => trivial
  | some stored =>
    simp only
    split
    · trivial
    · refine within_now.bind fun now => Txn.Frames.bind (within_lock _) fun _ => ?_
      exact Txn.Frames.bind (h.write (.writeTokens _ _)) fun _ => trivial

/-- The user a lookup finds has the id it was asked for. -/
theorem id_of_getUser {userId : Nat} {includeDeleted : Bool} {db : Db} {user : User}
    (h : getUser userId includeDeleted db = some user) : user.id = userId :=
  (Table.mem_of_lookup (Option.filter_eq_some_iff.1 h).1).2

theorem within_requireUser_bind {userId : Nat} {f : User → IdentityTxn β}
    (hf : ∀ user, user.id = userId → Within P (f user)) :
    Within P ((requireUser userId).bind f) := by
  intro db _
  cases huser : getUser userId false db with
  | none =>
    simp only [Txn.bind, huser]
    trivial
  | some user =>
    simp only [Txn.bind, huser]
    exact hf user (id_of_getUser huser)

theorem within_getCurrentUser (principal : Principal) : Within P (getCurrentUser principal) := by
  refine Txn.Frames.bind (Txn.frames_select _) fun found => ?_
  cases found.filter (·.isActive) with
  | none => trivial
  | some user => trivial

theorem createUser (h : Accepts op P) (payload : UserCreate) :
    Within P (createUser security payload) := by
  refine within_freshId.bind fun salt => within_freshId.bind fun id => ?_
  refine within_now.bind fun now => ?_
  refine Txn.Frames.bind (h.write (.insertUser _)) fun _ => ?_
  exact Txn.Frames.bind (h.emit _ _ _) fun _ => trivial

/-- A flush, an event, and an answer. -/
theorem flush_emit (h : Accepts op P) {loaded user : User}
    (hrole : user.role = loaded.role ∨ op.setsRole = some (loaded.id, user.role))
    (eventType : String) (extra : EventExtra) (answer : User → β) :
    Within P ((Identity.flushUser loaded user).bind fun user =>
      (Identity.emit eventType user extra).bind fun _ => .pure (answer user)) :=
  Txn.Frames.bind (h.flushUser hrole) fun _ => Txn.Frames.bind (h.emit _ _ _) fun _ => trivial

theorem updateProfile (h : Accepts op P) (loaded : User) (payload : UserUpdate) :
    Within P (updateProfile loaded payload) := by
  rw [Identity.updateProfile]
  split
  · trivial
  · refine h.flush_emit (Or.inl ?_) _ _ _
    rfl

theorem changeRole (h : Accepts op P) {userId : Nat} {payload : UserRoleUpdate}
    (hop : op.setsRole = some (userId, payload.role)) (actorId : Nat) :
    Within P (changeRole userId payload actorId) := by
  refine within_requireUser_bind fun loaded hid => ?_
  split
  · trivial
  · refine Txn.Frames.bind (h.revokeAll _) fun _ => h.flush_emit (Or.inr ?_) _ _ _
    rw [hop, hid]

theorem changeStatus (h : Accepts op P) (userId actorId : Nat) (payload : UserStatusUpdate) :
    Within P (changeStatus userId payload actorId) := by
  refine within_requireUser_bind fun loaded _ => ?_
  split
  · trivial
  · split
    · refine Txn.Frames.bind (h.revokeAll _) fun _ => h.flush_emit (Or.inl ?_) _ _ _
      rfl
    · refine h.flush_emit (Or.inl ?_) _ _ _
      rfl

theorem changePassword (h : Accepts op P) (loaded : User) (payload : PasswordChange) :
    Within P (changePassword security loaded payload) := by
  rw [Identity.changePassword]
  split
  · trivial
  · split
    · trivial
    · refine within_freshId.bind fun salt => within_now.bind fun now => ?_
      refine Txn.Frames.bind (h.revokeAll _) fun _ => ?_
      refine Txn.Frames.bind (h.flushUser (Or.inl ?_)) fun _ => trivial
      rfl

theorem delete (h : Accepts op P) (userId actorId : Nat) : Within P (delete userId actorId) := by
  refine within_requireUser_bind fun loaded _ => ?_
  split
  · trivial
  · refine within_now.bind fun now => Txn.Frames.bind (h.revokeAll _) fun _ => ?_
    refine h.flush_emit (Or.inl ?_) _ _ fun _ => _
    rfl

theorem restore (h : Accepts op P) (userId : Nat) : Within P (restore userId) := by
  refine Txn.Frames.bind (Txn.frames_select _) fun found => ?_
  cases found with
  | none => trivial
  | some loaded =>
    refine h.flush_emit (Or.inl ?_) _ _ _
    rfl

theorem assignWarehouse (h : Accepts op P) {userId : Nat} (hop : op.assigns = some userId)
    (warehouseId : Nat) (answer : Except Failure Unit) :
    Within P (assignWarehouse userId warehouseId answer) := by
  refine within_requireUser_bind fun user hid => ?_
  split
  · trivial
  · refine Txn.Frames.bind (Txn.frames_ofExcept _) fun _ => within_freshId.bind fun id => ?_
    refine within_now.bind fun now => ?_
    refine Txn.Frames.bind (h.write (.insertAssignment _ ?_)) fun _ => ?_
    · rw [hop, hid]
    · refine Txn.Frames.bind (h.revokeAll _) fun _ => ?_
      exact Txn.Frames.bind (h.emit _ _ _) fun _ => trivial

theorem unassignWarehouse (h : Accepts op P) (hop : op.writesScopes = true)
    (userId warehouseId : Nat) : Within P (unassignWarehouse userId warehouseId) := by
  refine within_requireUser_bind fun user _ => Txn.Frames.bind (Txn.frames_select _) fun found => ?_
  cases found with
  | none => trivial
  | some assignment =>
    refine Txn.Frames.bind (h.revokeAll _) fun _ => Txn.Frames.bind (within_lock _) fun _ => ?_
    refine Txn.Frames.bind (h.write (.deleteAssignments _ hop)) fun _ => ?_
    exact Txn.Frames.bind (h.emit _ _ _) fun _ => trivial

theorem removeScope (h : Accepts op P) (warehouseId : Nat) (userIds : List Nat) :
    Within P (removeScope warehouseId userIds) := by
  induction userIds with
  | nil => trivial
  | cons userId userIds ih =>
    refine Txn.Frames.bind (h.revokeAll _) fun _ =>
      Txn.Frames.bind (Txn.frames_select _) fun found => ?_
    cases found with
    | none => exact ih
    | some user => exact Txn.Frames.bind (h.emit _ _ _) fun _ => ih

theorem process (h : Accepts op P) (hop : op.writesScopes = true) (eventId warehouseId : Nat) :
    Within P (process eventId warehouseId) := by
  refine Txn.Frames.bind (within_lock _) fun _ =>
    Txn.Frames.bind (Txn.frames_select _) fun found => ?_
  split
  · trivial
  · refine Txn.Frames.bind (h.write (.insertProcessed _ hop)) fun _ => ?_
    refine Txn.Frames.bind ?_ fun _ => trivial
    refine Txn.Frames.bind (Txn.frames_selectForUpdate _ _ _ _) fun rows => ?_
    exact Txn.Frames.bind (h.write (.deleteAssignments _ hop)) fun _ => h.removeScope _ _

/-- Every operation respects what its writes respect. -/
theorem serve (h : Accepts op P) : Within P (serve security settings op) := by
  have hadmin : ∀ principal {f : Unit → IdentityTxn Outcome}, (∀ u, Within P (f u)) →
      Within P ((requireAdmin principal).bind f) :=
    fun principal f hf => Txn.Frames.bind (Txn.frames_ofExcept _) hf
  cases op with
  | login email password client => exact h.login _ _ _
  | refresh rawToken client => exact h.refresh _ _
  | logout principal rawToken =>
    cases rawToken with
    | none => exact Txn.Frames.bind (h.revokeAll _) fun _ => trivial
    | some rawToken => exact h.logout _ _
  | sessions principal =>
    exact within_now.bind fun _ => Txn.Frames.bind (Txn.frames_select _) fun _ => trivial
  | me principal => exact Txn.Frames.bind (within_getCurrentUser _) fun _ => trivial
  | createUser principal payload => exact hadmin _ fun _ => h.createUser _
  | listUsers principal filter =>
    exact hadmin _ fun _ => Txn.Frames.bind (Txn.frames_select _) fun _ =>
      Txn.Frames.bind (Txn.frames_select _) fun _ => trivial
  | updateMe principal payload =>
    exact Txn.Frames.bind (within_getCurrentUser _) fun _ => h.updateProfile _ _
  | changePassword principal payload =>
    exact Txn.Frames.bind (within_getCurrentUser _) fun _ => h.changePassword _ _
  | getUser principal userId =>
    exact hadmin _ fun _ => within_requireUser_bind fun _ _ => trivial
  | updateUser principal userId payload =>
    exact hadmin _ fun _ => within_requireUser_bind fun _ _ => h.updateProfile _ _
  | changeRole principal userId payload => exact hadmin _ fun _ => h.changeRole rfl _
  | changeStatus principal userId payload => exact hadmin _ fun _ => h.changeStatus _ _ _
  | restoreUser principal userId => exact hadmin _ fun _ => h.restore _
  | deleteUser principal userId => exact hadmin _ fun _ => h.delete _ _
  | listAssignments principal userId =>
    exact hadmin _ fun _ => within_requireUser_bind fun _ _ =>
      Txn.Frames.bind (Txn.frames_select _) fun _ => trivial
  | assignWarehouse principal userId warehouseId answer =>
    exact hadmin _ fun _ => h.assignWarehouse rfl _ _
  | unassignWarehouse principal userId warehouseId =>
    exact hadmin _ fun _ => h.unassignWarehouse rfl _ _
  | process eventId warehouseId => exact h.process rfl _ _

end Accepts

end SmartLogistics.Identity
