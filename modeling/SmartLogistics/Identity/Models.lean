import SmartLogistics.Library.Table
import SmartLogistics.Platform.Auth

/-!
# Identity's tables

The rows of Identity's database, its table constraints (`Db.constraints`, enforced by `Db.check` at
every flush), and the writes a flush sends. An `UPDATE` of a user writes the columns of the
in-memory object that differ from what was loaded (`User.writeChanged`); refresh tokens are
rewritten by id.
-/

set_option autoImplicit false

namespace SmartLogistics.Identity

open SmartLogistics.Library SmartLogistics.Platform

/-- Where an account stands. -/
inductive UserStatus
  | pendingActivation
  | active
  | suspended
  | deactivated
  deriving DecidableEq, Repr

/-- A row of `users`. -/
structure User where
  id : Nat
  email : String
  fullName : String
  phone : Option String
  passwordHash : String
  passwordChangedAt : Option Nat
  role : UserRole
  status : UserStatus
  courierId : Option Nat
  failedLoginAttempts : Nat
  lockedUntil : Option Nat
  lastLoginAt : Option Nat
  createdAt : Nat
  updatedAt : Nat
  deletedAt : Option Nat
  deletedBy : Option Nat
  deriving DecidableEq, Repr

/-- The account is ACTIVE and not deleted. -/
def User.isActive (user : User) : Bool := user.status == .active && user.deletedAt.isNone

/-- A refresh-token session. Only the hash of the token is stored. -/
structure RefreshToken where
  id : Nat
  userId : Nat
  tokenHash : Nat
  expiresAt : Nat
  revokedAt : Option Nat
  replacedById : Option Nat
  createdAt : Nat
  userAgent : Option String
  ipAddress : Option String
  deriving DecidableEq, Repr

/-- The token has been revoked, by a rotation, a logout or an alarm. -/
def RefreshToken.isRevoked (token : RefreshToken) : Bool := token.revokedAt.isSome

/-- Which warehouses an operator may act on. -/
structure UserWarehouseAssignment where
  id : Nat
  userId : Nat
  warehouseId : Nat
  createdAt : Nat
  deriving DecidableEq, Repr

/-- What an event adds to the public profile. -/
inductive EventExtra
  | none
  | roleChanged (previousRole : UserRole) (reason : Option String) (actorId : Nat)
  | statusChanged (previousStatus : UserStatus) (reason : Option String) (actorId : Nat)
  | deleted (actorId : Nat)
  | addedWarehouse (warehouseId : Nat)
  | removedWarehouse (warehouseId : Nat)
  deriving DecidableEq, Repr

/-- The public profile: credentials and lockout state never leave Identity. -/
structure UserPayload where
  id : Nat
  email : String
  fullName : String
  phone : Option String
  role : UserRole
  status : UserStatus
  courierId : Option Nat
  deleted : Bool
  extra : EventExtra
  deriving DecidableEq, Repr

/-- An event staged in the outbox. -/
structure UserEvent where
  topic : String
  eventType : String
  key : Nat
  payload : UserPayload
  producer : String
  deriving DecidableEq, Repr

/-- Identity's database; `processedEvents` are the ids of the events its consumer has handled. -/
structure Db where
  users : List User
  refreshTokens : List RefreshToken
  assignments : List UserWarehouseAssignment
  processedEvents : List Nat
  outbox : List UserEvent
  deriving DecidableEq, Repr

/-- The database after its migrations. -/
def Db.empty : Db := ⟨[], [], [], [], []⟩

/-- The rows transactions lock. -/
inductive Row
  | user (id : Nat)
  | token (id : Nat)
  | assignment (id : Nat)
  | processed (eventId : Nat)
  deriving DecidableEq, Repr

/-! ## Constraints -/

namespace Db

/-- A unique constraint on the keys of one table. -/
def uniqueKeys {κ : Type} [DecidableEq κ] (constraintName : String) (keys : Db → List κ) :
    IntegrityError × (Db → Bool) :=
  (⟨.uniqueViolation, constraintName⟩, fun db => decide (keys db).Nodup)

/-- A foreign key to `users`. -/
def referencesUser (constraintName : String) (keys : Db → List Nat) :
    IntegrityError × (Db → Bool) :=
  (⟨.foreignKeyViolation, constraintName⟩, fun db =>
    (keys db).all fun id => (db.users.map (·.id)).contains id)

/-- The table constraints, with the violation each one reports. -/
def constraints : List (IntegrityError × (Db → Bool)) :=
  [uniqueKeys "pk_users" fun db => db.users.map (·.id),
   uniqueKeys "ix_users_email" fun db => db.users.map (·.email),
   uniqueKeys "uq_users_courier_id" fun db => db.users.filterMap (·.courierId),
   uniqueKeys "pk_refresh_tokens" fun db => db.refreshTokens.map (·.id),
   uniqueKeys "uq_refresh_tokens_token_hash" fun db => db.refreshTokens.map (·.tokenHash),
   uniqueKeys "pk_user_warehouse_assignments" fun db => db.assignments.map (·.id),
   uniqueKeys "uq_user_warehouse_assignment" fun db =>
    db.assignments.map fun a => (a.userId, a.warehouseId),
   uniqueKeys "pk_processed_events" fun db => db.processedEvents,
   referencesUser "fk_refresh_tokens_user_id_users" fun db => db.refreshTokens.map (·.userId),
   referencesUser "fk_user_warehouse_assignments_user_id_users" fun db =>
    db.assignments.map (·.userId)]

/-- The first constraint a state violates. -/
def violated (db : Db) : Option IntegrityError := (constraints.find? fun c => !c.2 db).map (·.1)

/-- What the database answers to a write that leaves the state `db`. -/
def check (db : Db) : Except Failure Db :=
  match db.violated with
  | none => .ok db
  | some error => .error (.integrity error)

end Db

/-! ## Writes -/

/-- The `UPDATE` of a flush: it writes to the row the columns that differ from what was loaded, and
`updated_at`. -/
def User.writeChanged (loaded user row : User) : User :=
  { row with
    fullName := if loaded.fullName = user.fullName then row.fullName else user.fullName
    phone := if loaded.phone = user.phone then row.phone else user.phone
    passwordHash :=
      if loaded.passwordHash = user.passwordHash then row.passwordHash else user.passwordHash
    passwordChangedAt :=
      if loaded.passwordChangedAt = user.passwordChangedAt then row.passwordChangedAt
      else user.passwordChangedAt
    role := if loaded.role = user.role then row.role else user.role
    status := if loaded.status = user.status then row.status else user.status
    failedLoginAttempts :=
      if loaded.failedLoginAttempts = user.failedLoginAttempts then row.failedLoginAttempts
      else user.failedLoginAttempts
    lockedUntil :=
      if loaded.lockedUntil = user.lockedUntil then row.lockedUntil else user.lockedUntil
    lastLoginAt :=
      if loaded.lastLoginAt = user.lastLoginAt then row.lastLoginAt else user.lastLoginAt
    deletedAt := if loaded.deletedAt = user.deletedAt then row.deletedAt else user.deletedAt
    deletedBy := if loaded.deletedBy = user.deletedBy then row.deletedBy else user.deletedBy
    updatedAt := user.updatedAt }

namespace Db

/-- `UPDATE users` of the row that was loaded. -/
def writeUser (loaded user : User) (db : Db) : Db :=
  { db with users := db.users.map fun row =>
      if row.id = loaded.id then loaded.writeChanged user row else row }

/-- A user is added. -/
def insertUser (user : User) (db : Db) : Db := { db with users := db.users ++ [user] }

/-- `UPDATE refresh_tokens` of the rows `ids` with the changed columns `set`. -/
def writeTokens (ids : List Nat) (set : RefreshToken → RefreshToken) (db : Db) : Db :=
  { db with refreshTokens := db.refreshTokens.map fun row =>
      if ids.contains row.id then set row else row }

/-- A refresh token is added. -/
def insertToken (token : RefreshToken) (db : Db) : Db :=
  { db with refreshTokens := db.refreshTokens ++ [token] }

/-- An assignment is added. -/
def insertAssignment (assignment : UserWarehouseAssignment) (db : Db) : Db :=
  { db with assignments := db.assignments ++ [assignment] }

/-- `DELETE FROM user_warehouse_assignments` of the rows `ids`. -/
def deleteAssignments (ids : List Nat) (db : Db) : Db :=
  { db with assignments := db.assignments.filter fun row => !ids.contains row.id }

/-- An event is recorded as handled. -/
def insertProcessed (eventId : Nat) (db : Db) : Db :=
  { db with processedEvents := db.processedEvents ++ [eventId] }

/-- The staged events, written with the rest of the transaction. -/
def stage (events : List UserEvent) (db : Db) : Db := { db with outbox := db.outbox ++ events }

/-! ## What a checked state satisfies -/

theorem check_eq_ok {db db' : Db} : db.check = .ok db' ↔ db' = db ∧ db.violated = none := by
  unfold check
  constructor
  · intro h
    split at h
    · rename_i hnone
      cases h
      exact ⟨rfl, hnone⟩
    · cases h
  · rintro ⟨rfl, hnone⟩
    rw [hnone]

theorem violated_eq_none {db : Db} : db.violated = none ↔ ∀ c ∈ constraints, c.2 db = true := by
  rw [violated, Option.map_eq_none_iff, List.find?_eq_none]
  simp

@[simp] theorem violated_stage (events : List UserEvent) (db : Db) :
    (db.stage events).violated = db.violated := rfl

/-- The keys a checked state keeps unique. -/
structure Unique (db : Db) : Prop where
  users : Table.Keyed User.id db.users
  emails : (db.users.map (·.email)).Nodup
  tokens : Table.Keyed RefreshToken.id db.refreshTokens
  hashes : Table.Keyed RefreshToken.tokenHash db.refreshTokens
  assignments : Table.Keyed UserWarehouseAssignment.id db.assignments

theorem unique_of_violated {db : Db} (h : db.violated = none) : db.Unique := by
  rw [violated_eq_none] at h
  simp only [constraints, uniqueKeys, referencesUser, List.forall_mem_cons, decide_eq_true_eq] at h
  obtain ⟨husers, hemails, -, htokens, hhashes, hassignments, -⟩ := h
  exact ⟨husers, hemails, htokens, hhashes, hassignments⟩

/-! ## Which writes the constraints accept -/

/-- The constraints read the keys of the rows only. -/
theorem violated_congr {db db' : Db} (hids : db'.users.map (·.id) = db.users.map (·.id))
    (hemails : db'.users.map (·.email) = db.users.map (·.email))
    (hcouriers : db'.users.filterMap (·.courierId) = db.users.filterMap (·.courierId))
    (htokens : db'.refreshTokens.map (·.id) = db.refreshTokens.map (·.id))
    (hhashes : db'.refreshTokens.map (·.tokenHash) = db.refreshTokens.map (·.tokenHash))
    (howners : db'.refreshTokens.map (·.userId) = db.refreshTokens.map (·.userId))
    (hassignments : db'.assignments = db.assignments)
    (hprocessed : db'.processedEvents = db.processedEvents) : db'.violated = db.violated := by
  simp only [violated, constraints, uniqueKeys, referencesUser, List.find?_cons, List.find?_nil,
    hids, hemails, hcouriers, htokens, hhashes, howners, hassignments, hprocessed]

/-- An update of tokens that keeps their keys. -/
theorem violated_writeTokens (db : Db) (ids : List Nat) {set : RefreshToken → RefreshToken}
    (hset : ∀ t, (set t).id = t.id ∧ (set t).tokenHash = t.tokenHash ∧ (set t).userId = t.userId) :
    (db.writeTokens ids set).violated = db.violated := by
  have hkeys : ∀ {β : Type} (key : RefreshToken → β), (∀ t, key (set t) = key t) →
      ((db.writeTokens ids set).refreshTokens.map key) = db.refreshTokens.map key := by
    intro β key hkey
    simp only [writeTokens, List.map_map]
    refine List.map_congr_left fun t _ => ?_
    by_cases ht : t.id ∈ ids <;> simp [ht, hkey]
  exact violated_congr rfl rfl rfl (hkeys _ fun t => (hset t).1) (hkeys _ fun t => (hset t).2.1)
    (hkeys _ fun t => (hset t).2.2) rfl rfl

/-- An update of a user keeps the keys. -/
theorem violated_writeUser (db : Db) (loaded user : User) :
    (db.writeUser loaded user).violated = db.violated := by
  have hkeys :
    ∀ {β : Type} (key : User → β), (∀ row, key (loaded.writeChanged user row) = key row) →
      (db.writeUser loaded user).users.map key = db.users.map key := by
    intro β key hkey
    simp only [writeUser, List.map_map]
    refine List.map_congr_left fun row _ => ?_
    by_cases hrow : row.id = loaded.id <;> simp [hrow, hkey]
  refine violated_congr (hkeys _ fun _ => rfl) (hkeys _ fun _ => rfl) ?_ rfl rfl rfl rfl rfl
  have hcouriers := congrArg (List.filterMap id) (hkeys (·.courierId) fun _ => rfl)
  simpa only [List.filterMap_map, Function.id_comp] using hcouriers

theorem nodup_snoc {β : Type} {l : List β} {b : β} : (l ++ [b]).Nodup ↔ b ∉ l ∧ l.Nodup :=
  (List.perm_append_singleton b l).nodup_iff.trans List.nodup_cons

/-- A new account is refused for a key that is taken, and for nothing else. -/
theorem violated_insertUser {db : Db} (h : db.violated = none) {user : User}
    (hcourier : user.courierId = none) : (db.insertUser user).violated = none ↔
      user.id ∉ db.users.map (·.id) ∧ user.email ∉ db.users.map (·.email) := by
  rw [violated_eq_none] at h ⊢
  simp only [constraints, uniqueKeys, referencesUser, List.forall_mem_cons, decide_eq_true_eq,
    insertUser, List.map_append, List.map_cons, List.map_nil, List.filterMap_append,
    List.filterMap_cons, List.filterMap_nil, hcourier, List.append_nil, List.all_eq_true,
    List.contains_iff_mem, nodup_snoc] at h ⊢
  obtain ⟨hids, hemails, hcouriers, htokens, hhashes, hassignments, hpairs, hprocessed, howners,
    hscoped, -⟩ := h
  constructor
  · rintro ⟨⟨hid, -⟩, ⟨hemail, -⟩, -⟩
    exact ⟨hid, hemail⟩
  · rintro ⟨hid, hemail⟩
    exact ⟨⟨hid, hids⟩, ⟨hemail, hemails⟩, hcouriers, htokens, hhashes, hassignments, hpairs,
      hprocessed, fun id hmem => List.mem_append_left _ (howners id hmem),
      fun id hmem => List.mem_append_left _ (hscoped id hmem), by simp⟩

/-- A new assignment of an existing user is refused for a key that is taken, and for nothing
else. -/
theorem violated_insertAssignment {db : Db} (h : db.violated = none)
    {assignment : UserWarehouseAssignment} (huser : assignment.userId ∈ db.users.map (·.id)) :
    (db.insertAssignment assignment).violated = none ↔
      assignment.id ∉ db.assignments.map (·.id) ∧
        (assignment.userId, assignment.warehouseId) ∉
          db.assignments.map fun a => (a.userId, a.warehouseId) := by
  rw [violated_eq_none] at h ⊢
  simp only [constraints, uniqueKeys, referencesUser, List.forall_mem_cons, decide_eq_true_eq,
    insertAssignment, List.map_append, List.map_cons, List.map_nil, List.all_eq_true,
    List.contains_iff_mem, nodup_snoc] at h ⊢
  obtain ⟨hids, hemails, hcouriers, htokens, hhashes, hassignments, hpairs, hprocessed, howners,
    hscoped, -⟩ := h
  constructor
  · rintro ⟨-, -, -, -, -, ⟨hid, -⟩, ⟨hpair, -⟩, -⟩
    exact ⟨hid, hpair⟩
  · rintro ⟨hid, hpair⟩
    refine ⟨hids, hemails, hcouriers, htokens, hhashes, ⟨hid, hassignments⟩, ⟨hpair, hpairs⟩,
      hprocessed, howners, fun id hmem => ?_, by simp⟩
    rcases List.mem_append.1 hmem with hmem | hmem
    · exact hscoped id hmem
    · rw [List.mem_singleton.1 hmem]
      exact huser

theorem violated_deleteAssignments {db : Db} (h : db.violated = none) (ids : List Nat) :
    (db.deleteAssignments ids).violated = none := by
  rw [violated_eq_none] at h ⊢
  simp only [constraints, uniqueKeys, referencesUser, List.forall_mem_cons, decide_eq_true_eq,
    deleteAssignments, List.all_eq_true, List.contains_iff_mem] at h ⊢
  obtain ⟨hids, hemails, hcouriers, htokens, hhashes, hassignments, hpairs, hprocessed, howners,
    hscoped, -⟩ := h
  refine ⟨hids, hemails, hcouriers, htokens, hhashes, hassignments.sublist
    (List.filter_sublist.map _), hpairs.sublist (List.filter_sublist.map _), hprocessed, howners,
    fun id hmem => hscoped id ((List.filter_sublist.map _).subset hmem), by simp⟩

end Db

end SmartLogistics.Identity
