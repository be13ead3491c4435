import SmartLogistics.Identity.Sessions

/-!
# User management, and Identity as a system

The transactions of `UserService` and of the `warehouse.deleted` consumer, and the endpoints with
their gates: `AdminPrincipal` reads the token only, `get_current_user` reads the account. `identity`
is the system of all of them over Identity's database. The Warehouse service's answer to the
existence check of an assignment is part of the request (`assignWarehouse`).
-/

set_option autoImplicit false

namespace SmartLogistics.Identity

open SmartLogistics.Library SmartLogistics.Platform

/-! ## Requests -/

/-- The body of `POST /users`. -/
structure UserCreate where
  email : String
  fullName : String
  phone : Option String
  password : String
  role : UserRole

/-- The body of a profile update; `none` where a field is not set. -/
structure UserUpdate where
  fullName : Option (Option String)
  phone : Option (Option String)

/-- The body of a change of role. -/
structure UserRoleUpdate where
  role : UserRole
  reason : Option String

/-- The body of a change of status. -/
structure UserStatusUpdate where
  status : UserStatus
  reason : Option String

/-- The body of a change of password. -/
structure PasswordChange where
  currentPassword : String
  newPassword : String

/-- The query of the user list. -/
structure UserFilter where
  role : Option UserRole
  status : Option UserStatus
  /-- The `ILIKE` condition of `search` on name and email. -/
  search : Option (String → Bool)
  limit : Nat
  offset : Nat

/-! ## Events -/

/-- The payload of an event: the user as it is, and what the event adds. -/
def userPayload (user : User) (extra : EventExtra) : UserPayload where
  id := user.id
  email := user.email
  fullName := user.fullName
  phone := user.phone
  role := user.role
  status := user.status
  courierId := user.courierId
  deleted := user.deletedAt.isSome
  extra := extra

/-- An event of Identity, keyed by the user. -/
def userEvent (eventType : String) (user : User) (extra : EventExtra) : UserEvent where
  topic := "identity.events"
  eventType := eventType
  key := user.id
  payload := userPayload user extra
  producer := "identity"

/-- An event is staged with the writes of the request. -/
def emit (eventType : String) (user : User) (extra : EventExtra) : IdentityTxn Unit :=
  Txn.write fun db => .ok (db.stage [userEvent eventType user extra])

/-! ## The service -/

/-- `UserService.get` -/
def requireUser (userId : Nat) : IdentityTxn User := do
  let found ← Txn.select (getUser userId false)
  match found with
  | none => Txn.raise (.domain (notFoundError "User not found."))
  | some user => return user

/-- The users that are not deleted and meet the filters, the latest first. -/
def listUsers (filter : UserFilter) (db : Db) : List User :=
  (db.users.filter fun user =>
    user.deletedAt.isNone && filter.role.all (· == user.role) &&
      filter.status.all (· == user.status) &&
      filter.search.all fun ilike => ilike user.fullName || ilike user.email).insertionSort
    fun a b => b.createdAt ≤ a.createdAt

/-- The row a create request inserts. -/
def newUser (security : Security) (payload : UserCreate) (id salt now : Nat) : User where
  id := id
  email := payload.email
  fullName := payload.fullName
  phone := payload.phone
  passwordHash := security.hashPassword salt payload.password
  passwordChangedAt := some now
  role := payload.role
  status := .active
  courierId := none
  failedLoginAttempts := 0
  lockedUntil := none
  lastLoginAt := none
  createdAt := now
  updatedAt := now
  deletedAt := none
  deletedBy := none

/-- `UserService.create`: the id and the salt are fresh; the e-mail address is left to its unique
constraint. -/
def createUser (security : Security) (payload : UserCreate) : IdentityTxn Outcome := do
  let salt ← Txn.freshId
  let id ← Txn.freshId
  let now ← Txn.now
  let user := newUser security payload id salt now
  Txn.write fun db => (db.insertUser user).check
  emit "user.created" user .none
  return .user user.read

/-- The assignments of a profile update. -/
def User.update (payload : UserUpdate) (user : User) : User :=
  { user with
    fullName := (payload.fullName.getD (some user.fullName)).getD user.fullName
    phone := payload.phone.getD user.phone }

/-- `UserService.update_profile`: the name may be changed but not cleared. -/
def updateProfile (loaded : User) (payload : UserUpdate) : IdentityTxn Outcome :=
  if payload.fullName = some none then
    Txn.raise (.domain (conflictError "full_name cannot be cleared."))
  else do
    let user ← flushUser loaded (loaded.update payload)
    emit "user.updated" user .none
    return .user user.read

/-- `UserService.change_role`: not one's own; the user's sessions are revoked. -/
def changeRole (userId : Nat) (payload : UserRoleUpdate) (actorId : Nat) : IdentityTxn Outcome := do
  let loaded ← requireUser userId
  if loaded.id = actorId then
    Txn.raise (.domain (permissionDeniedError "You cannot change your own role."))
  else
    let _ ← revokeAll loaded.id
    let user ← flushUser loaded { loaded with role := payload.role }
    emit "user.role_changed" user (.roleChanged loaded.role payload.reason actorId)
    return .user user.read

/-- `UserService.change_status`: not one's own; unless the user becomes ACTIVE, its sessions are
revoked. -/
def changeStatus (userId : Nat) (payload : UserStatusUpdate) (actorId : Nat) :
    IdentityTxn Outcome := do
  let loaded ← requireUser userId
  if loaded.id = actorId then
    Txn.raise (.domain (permissionDeniedError "You cannot change your own status."))
  else
    if payload.status ≠ .active then
      let _ ← revokeAll loaded.id
    let user ← flushUser loaded { loaded with status := payload.status }
    emit "user.status_changed" user (.statusChanged loaded.status payload.reason actorId)
    return .user user.read

/-- `UserService.change_password`: the current password is checked, the new one must differ, and
every session is revoked. -/
def changePassword (security : Security) (loaded : User) (payload : PasswordChange) :
    IdentityTxn Outcome :=
  if !security.verifyPassword payload.currentPassword loaded.passwordHash then
    Txn.raise (.domain (permissionDeniedError "Current password is incorrect."))
  else if security.verifyPassword payload.newPassword loaded.passwordHash then
    Txn.raise (.domain (conflictError "New password must differ from the current one."))
  else do
    let salt ← Txn.freshId
    let now ← Txn.now
    let _ ← revokeAll loaded.id
    let _ ← flushUser loaded
      { loaded with
        passwordHash := security.hashPassword salt payload.newPassword
        passwordChangedAt := some now }
    return .message "Password changed. Other sessions have been signed out."

/-- `UserService.delete`: a soft delete, not of one's own account, that revokes every session. -/
def delete (userId actorId : Nat) : IdentityTxn Outcome := do
  let loaded ← requireUser userId
  if loaded.id = actorId then
    Txn.raise (.domain (permissionDeniedError "You cannot delete your own account."))
  else
    let now ← Txn.now
    let _ ← revokeAll loaded.id
    let user ← flushUser loaded
      { loaded with
        status := .deactivated
        deletedAt := some now
        deletedBy := some actorId }
    emit "user.deleted" user (.deleted actorId)
    return .noContent

/-- The assignments of a restore. -/
def User.restore (user : User) : User :=
  { user with
    deletedAt := none
    deletedBy := none
    status := .active }

/-- `UserService.restore`: whatever it was before, the user is not deleted and ACTIVE. -/
def restore (userId : Nat) : IdentityTxn Outcome := do
  let found ← Txn.select (getUser userId true)
  match found with
  | none => Txn.raise (.domain (notFoundError "User not found."))
  | some loaded =>
    let user ← flushUser loaded loaded.restore
    emit "user.restored" user .none
    return .user user.read

/-! ## Warehouse scoping -/

/-- `answer` is what the Warehouse service answers when it is asked for the warehouse. -/
def assignWarehouse (userId warehouseId : Nat) (answer : Except Failure Unit) :
    IdentityTxn Outcome := do
  let user ← requireUser userId
  if user.role ≠ .warehouseOperator then
    Txn.raise (.domain (conflictError "Only warehouse operators are scoped to warehouses."))
  else
    Txn.ofExcept answer
    let id ← Txn.freshId
    let now ← Txn.now
    let assignment : UserWarehouseAssignment :=
      { id := id
        userId := user.id
        warehouseId := warehouseId
        createdAt := now }
    Txn.write fun db => (db.insertAssignment assignment).check
    let _ ← revokeAll user.id
    emit "user.scope_changed" user (.addedWarehouse warehouseId)
    return .assignment assignment

/-- The assignment of a user to a warehouse, if there is one. -/
def findAssignment (userId warehouseId : Nat) (db : Db) : Option UserWarehouseAssignment :=
  db.assignments.find? fun a => a.userId == userId && a.warehouseId == warehouseId

/-- `UserService.unassign_warehouse`: the assignment found is deleted by its id, and the user's
sessions are revoked. -/
def unassignWarehouse (userId warehouseId : Nat) : IdentityTxn Outcome := do
  let user ← requireUser userId
  let found ← Txn.select (findAssignment userId warehouseId)
  match found with
  | none => Txn.raise (.domain (notFoundError "Assignment not found."))
  | some assignment =>
    let _ ← revokeAll user.id
    Txn.lock (.assignment assignment.id) (.pure ())
    Txn.write fun db => (db.deleteAssignments [assignment.id]).check
    emit "user.scope_changed" user (.removedWarehouse warehouseId)
    return .noContent

/-- The assignments of a user, the oldest first. -/
def listForUser (userId : Nat) (db : Db) : List UserWarehouseAssignment :=
  (db.assignments.filter (·.userId == userId)).insertionSort fun a b => a.createdAt ≤ b.createdAt

/-- The loop of `on_warehouse_deleted` over the affected users. -/
def removeScope (warehouseId : Nat) : List Nat → IdentityTxn Unit
  | [] => return ()
  | userId :: userIds => do
    let _ ← revokeAll userId
    let found ← Txn.select (getUser userId true)
    match found with
    | none => removeScope warehouseId userIds
    | some user =>
      emit "user.scope_changed" user (.removedWarehouse warehouseId)
      removeScope warehouseId userIds

/-- Operators lose a deleted warehouse, and their sessions. -/
def onWarehouseDeleted (warehouseId : Nat) : IdentityTxn Unit := do
  let rows ← Table.selectForUpdate UserWarehouseAssignment.id Row.assignment Db.assignments
    (·.warehouseId == warehouseId)
  Txn.write fun db => (db.deleteAssignments (rows.map (·.id))).check
  removeScope warehouseId (rows.map (·.userId)).dedup

/-- `EventProcessor.process` of a `warehouse.deleted` event: its id is recorded with the handler's
writes, and a duplicate is skipped. -/
def process (eventId warehouseId : Nat) : IdentityTxn Outcome := do
  -- the insert waits for another transaction that inserts the same key, then sees what it left
  Txn.lock (.processed eventId) (.pure ())
  let duplicate ← Txn.select fun db => db.processedEvents.contains eventId
  if duplicate then return .processed false
  else
    Txn.write fun db => (db.insertProcessed eventId).check
    onWarehouseDeleted warehouseId
    return .processed true

/-! ## Endpoints -/

/-- The requests Identity serves, and the events it consumes. -/
inductive Operation
  | login (email password : String) (client : ClientInfo)
  | refresh (rawToken : Nat) (client : ClientInfo)
  | logout (principal : Principal) (rawToken : Option Nat)
  | sessions (principal : Principal)
  | me (principal : Principal)
  | createUser (principal : Principal) (payload : UserCreate)
  | listUsers (principal : Principal) (filter : UserFilter)
  | updateMe (principal : Principal) (payload : UserUpdate)
  | changePassword (principal : Principal) (payload : PasswordChange)
  | getUser (principal : Principal) (userId : Nat)
  | updateUser (principal : Principal) (userId : Nat) (payload : UserUpdate)
  | changeRole (principal : Principal) (userId : Nat) (payload : UserRoleUpdate)
  | changeStatus (principal : Principal) (userId : Nat) (payload : UserStatusUpdate)
  | restoreUser (principal : Principal) (userId : Nat)
  | deleteUser (principal : Principal) (userId : Nat)
  | listAssignments (principal : Principal) (userId : Nat)
  | assignWarehouse (principal : Principal) (userId warehouseId : Nat)
      (answer : Except Failure Unit)
  | unassignWarehouse (principal : Principal) (userId warehouseId : Nat)
  | process (eventId warehouseId : Nat)

/-- `AdminPrincipal`: the role the token carries. -/
def requireAdmin (principal : Principal) : IdentityTxn Unit :=
  Txn.ofExcept ((principal.require [.admin]).mapError .domain)

/-- `get_current_user`: the account itself. -/
def getCurrentUser (principal : Principal) : IdentityTxn User := do
  let found ← Txn.select (getUser principal.userId false)
  match found.filter (·.isActive) with
  | none => Txn.raise (.domain (authenticationError "Account is not active."))
  | some user => return user

/-- The endpoints. -/
def serve (security : Security) (settings : Settings) : Operation → IdentityTxn Outcome
  | .login email password client => login security settings email password client
  | .refresh rawToken client => refresh security settings rawToken client
  | .logout principal none => logoutAll principal.userId
  | .logout principal (some rawToken) => logout security rawToken principal.userId
  | .sessions principal => do
    let now ← Txn.now
    let rows ← Txn.select (listActive principal.userId now)
    return .sessions (rows.map (·.read))
  | .me principal => do
    let user ← getCurrentUser principal
    return .user user.read
  | .createUser principal payload => do
    requireAdmin principal
    createUser security payload
  | .listUsers principal filter => do
    requireAdmin principal
    let total ← Txn.select fun db => (listUsers filter db).length
    let rows ← Txn.select (listUsers filter)
    return .users (((rows.drop filter.offset).take filter.limit).map (·.read)) total filter.limit
      filter.offset
  | .updateMe principal payload => do
    -- `update_profile` gets the object of the gate from the session's identity map
    let user ← getCurrentUser principal
    updateProfile user payload
  | .changePassword principal payload => do
    let user ← getCurrentUser principal
    changePassword security user payload
  | .getUser principal userId => do
    requireAdmin principal
    let user ← requireUser userId
    return .user user.read
  | .updateUser principal userId payload => do
    requireAdmin principal
    let user ← requireUser userId
    updateProfile user payload
  | .changeRole principal userId payload => do
    requireAdmin principal
    changeRole userId payload principal.userId
  | .changeStatus principal userId payload => do
    requireAdmin principal
    changeStatus userId payload principal.userId
  | .restoreUser principal userId => do
    requireAdmin principal
    restore userId
  | .deleteUser principal userId => do
    requireAdmin principal
    delete userId principal.userId
  | .listAssignments principal userId => do
    requireAdmin principal
    let _ ← requireUser userId
    let rows ← Txn.select (listForUser userId)
    return .assignments rows
  | .assignWarehouse principal userId warehouseId answer => do
    requireAdmin principal
    assignWarehouse userId warehouseId answer
  | .unassignWarehouse principal userId warehouseId => do
    requireAdmin principal
    unassignWarehouse userId warehouseId
  | .process eventId warehouseId => process eventId warehouseId

/-- The seeding script: it adds an account unless the constraints refuse it. -/
def Db.seed (user : User) (db : Db) : Db :=
  match (db.insertUser user).check with
  | .ok db' => db'
  | .error _ => db

/-- Identity's transactions; the accounts of a new deployment come from the seeding script. -/
def identity (security : Security) (settings : Settings) :
    System Db Row Failure Outcome Operation User where
  program := serve security settings
  env := Db.seed

end SmartLogistics.Identity
