import SmartLogistics.Identity.Models

/-!
# Login, refresh rotation and logout

The repositories of Identity and the transactions of `AuthService`, statement by statement. A
refresh reads the presented token `FOR UPDATE`, so two refreshes with one token serialise;
`revokeAll` is one `UPDATE` over the rows its snapshot shows. Signing, hashing and the random bytes
of a token are parameters (`Security`).
-/

set_option autoImplicit false

namespace SmartLogistics.Identity

open SmartLogistics.Library SmartLogistics.Platform

/-- A transaction body of Identity. -/
abbrev IdentityTxn := Txn Db Row Failure

/-- Password and token hashing. An opaque token is the number its characters spell. -/
structure Security where
  /-- `hash_password`, with its random salt. -/
  hashPassword : Nat → String → String
  verifyPassword : String → String → Bool
  /-- `generate_token`, from its random bytes. -/
  generateToken : Nat → Nat
  hashToken : Nat → Nat

/-- The settings the services read; durations in seconds. -/
structure Settings where
  accessTokenTtl : Nat
  refreshTokenTtl : Nat
  maxFailedLoginAttempts : Nat
  accountLockout : Nat

/-! ## Errors -/

/-- `AuthenticationError`: the credentials or the token are no good. -/
def authenticationError (message : String) : DomainError := ⟨401, "authentication_failed", message⟩

/-- `AccountLockedError`: too many logins have failed. -/
def accountLockedError (message : String) : DomainError := ⟨401, "account_locked", message⟩

/-- `AccountInactiveError`: the account is not active. -/
def accountInactiveError (message : String) : DomainError := ⟨401, "account_inactive", message⟩

/-- `TokenReuseError`: a rotated refresh token was replayed. -/
def tokenReuseError : DomainError :=
  ⟨401, "refresh_token_reused", "A rotated refresh token was replayed; every session was revoked."⟩

/-! ## Answers -/

/-- The claims of a signed access token. -/
structure AccessToken where
  sub : Nat
  role : UserRole
  name : String
  warehouseIds : List Nat
  courierId : Option Nat
  iat : Nat
  exp : Nat
  deriving DecidableEq, Repr

/-- The caller a verified access token stands for. -/
def AccessToken.principal (token : AccessToken) : Principal where
  userId := token.sub
  role := token.role
  warehouseIds := token.warehouseIds
  courierId := token.courierId

/-- The tokens that a login or a refresh answers with. -/
structure IssuedTokens where
  accessToken : AccessToken
  refreshToken : Nat
  expiresIn : Nat
  deriving DecidableEq, Repr

/-- What the API shows of a user. -/
structure UserRead where
  id : Nat
  email : String
  fullName : String
  phone : Option String
  role : UserRole
  status : UserStatus
  courierId : Option Nat
  lastLoginAt : Option Nat
  createdAt : Nat
  updatedAt : Nat
  deriving DecidableEq, Repr

/-- A user as the API shows it. -/
def User.read (user : User) : UserRead where
  id := user.id
  email := user.email
  fullName := user.fullName
  phone := user.phone
  role := user.role
  status := user.status
  courierId := user.courierId
  lastLoginAt := user.lastLoginAt
  createdAt := user.createdAt
  updatedAt := user.updatedAt

/-- What the API shows of a session, which is a refresh token. -/
structure SessionRead where
  id : Nat
  createdAt : Nat
  expiresAt : Nat
  userAgent : Option String
  ipAddress : Option String
  deriving DecidableEq, Repr

/-- A refresh token as the API shows it. -/
def RefreshToken.read (token : RefreshToken) : SessionRead where
  id := token.id
  createdAt := token.createdAt
  expiresAt := token.expiresAt
  userAgent := token.userAgent
  ipAddress := token.ipAddress

/-- What an operation that committed answers. -/
inductive Outcome
  | loggedIn (tokens : IssuedTokens) (user : UserRead)
  | refreshed (tokens : IssuedTokens)
  /-- The transaction committed, then the request raised. -/
  | refused (error : DomainError)
  | message (text : String)
  | sessions (rows : List SessionRead)
  | user (user : UserRead)
  | users (items : List UserRead) (total limit offset : Nat)
  | assignment (assignment : UserWarehouseAssignment)
  | assignments (rows : List UserWarehouseAssignment)
  | noContent
  | processed (handled : Bool)
  deriving DecidableEq, Repr

/-! ## Repositories -/

/-- `UserRepository.get`: a soft-deleted user is not found. -/
def getUser (userId : Nat) (includeDeleted : Bool) (db : Db) : Option User :=
  (Table.lookup User.id db.users userId).filter fun user =>
    user.deletedAt.isNone || includeDeleted

/-- `email` is lower case, as the request schema leaves it. -/
def getByEmail (email : String) (db : Db) : Option User :=
  db.users.find? fun user => user.email == email && user.deletedAt.isNone

/-- The token was stored under this hash. -/
def hasHash (tokenHash : Nat) (token : RefreshToken) : Bool := token.tokenHash == tokenHash

/-- A token that `revoke_all` selects. -/
def isOpenFor (userId : Nat) (token : RefreshToken) : Bool :=
  token.userId == userId && token.revokedAt.isNone

/-- The sessions of a user that are open and have not expired, the latest first. -/
def listActive (userId now : Nat) (db : Db) : List RefreshToken :=
  (db.refreshTokens.filter fun token =>
    isOpenFor userId token && now < token.expiresAt).insertionSort
    fun a b => b.createdAt ≤ a.createdAt

/-- The warehouses a user is assigned to, in order. -/
def warehouseIdsFor (userId : Nat) (db : Db) : List Nat :=
  ((db.assignments.filter (·.userId == userId)).map (·.warehouseId)).insertionSort (· ≤ ·)

/-- The changed column of a revocation. -/
def RefreshToken.revoke (now : Nat) (token : RefreshToken) : RefreshToken :=
  { token with revokedAt := some now }

/-- `UPDATE refresh_tokens SET revoked_at … WHERE user_id = … AND revoked_at IS NULL`: how many rows
it revoked. -/
def revokeAll (userId : Nat) : IdentityTxn Nat := do
  let now ← Txn.now
  let rows ← Table.selectForUpdate RefreshToken.id Row.token Db.refreshTokens (isOpenFor userId)
  Txn.write fun db => (db.writeTokens (rows.map (·.id)) (RefreshToken.revoke now)).check
  return rows.length

/-- Flush the changes of an in-memory user, if there are any: the object afterwards. -/
def flushUser (loaded user : User) : IdentityTxn User :=
  if user = loaded then return user
  else do
    let now ← Txn.now
    Txn.lock (.user loaded.id) (.pure ())
    Txn.write fun db => (db.writeUser loaded { user with updatedAt := now }).check
    return { user with updatedAt := now }

/-! ## The service -/

/-- The user agent and address of a request. -/
structure ClientInfo where
  userAgent : Option String
  ipAddress : Option String
  deriving DecidableEq, Repr

/-- `(user_agent or "")[:255] or None` -/
def ClientInfo.storedAgent (client : ClientInfo) : Option String :=
  let text := String.ofList ((client.userAgent.getD "").toList.take 255)
  if text = "" then none else some text

/-- The row `_issue` adds. -/
def newRefreshToken (settings : Settings) (userId id tokenHash now : Nat) (client : ClientInfo) :
    RefreshToken where
  id := id
  userId := userId
  tokenHash := tokenHash
  expiresAt := now + settings.refreshTokenTtl
  revokedAt := none
  replacedById := none
  createdAt := now
  userAgent := client.storedAgent
  ipAddress := client.ipAddress

/-- The claims of an access token: who the user is now, and when the token expires. -/
def signAccessToken (settings : Settings) (user : User) (warehouseIds : List Nat) (now : Nat) :
    AccessToken where
  sub := user.id
  role := user.role
  name := user.fullName
  warehouseIds := warehouseIds
  courierId := user.courierId
  iat := now
  exp := now + settings.accessTokenTtl

section

variable (security : Security) (settings : Settings)

/-- `_issue`: sign an access token and store a refresh token; its flush also sends the changes of
`user`. The answer, the row stored and the user after the flush. -/
def issue (loaded user : User) (client : ClientInfo) :
    IdentityTxn (IssuedTokens × RefreshToken × User) := do
  let warehouseIds ← Txn.select fun db =>
    if user.role = .warehouseOperator then warehouseIdsFor user.id db else []
  let signedAt ← Txn.now
  let bytes ← Txn.freshId
  let rawRefresh := security.generateToken bytes
  let id ← Txn.freshId
  let now ← Txn.now
  let stored := newRefreshToken settings user.id id (security.hashToken rawRefresh) now client
  let user ← flushUser loaded user
  Txn.write fun db => (db.insertToken stored).check
  return ({ accessToken := signAccessToken settings user warehouseIds signedAt
            refreshToken := rawRefresh
            expiresIn := settings.accessTokenTtl }, stored, user)

/-- A failed login is counted; at the limit the account is locked and the count starts again. -/
def registerFailedAttempt (now : Nat) (user : User) : User :=
  if settings.maxFailedLoginAttempts ≤ user.failedLoginAttempts + 1 then
    { user with
      lockedUntil := some (now + settings.accountLockout)
      failedLoginAttempts := 0 }
  else { user with failedLoginAttempts := user.failedLoginAttempts + 1 }

/-- `AuthService.login`: the lock is checked first, then the password, then the account; a wrong
password is counted and committed before the request is refused. -/
def login (email password : String) (client : ClientInfo) : IdentityTxn Outcome := do
  let found ← Txn.select (getByEmail email)
  match found with
  | none => Txn.raise (.domain (authenticationError "Incorrect email or password."))
  | some loaded =>
    let now ← Txn.now
    if loaded.lockedUntil.any (now < ·) then
      Txn.raise (.domain (accountLockedError "Account is temporarily locked. Try again later."))
    else if !security.verifyPassword password loaded.passwordHash then
      -- the failed attempt persists: it is committed before the request raises
      let now ← Txn.now
      let _ ← flushUser loaded (registerFailedAttempt settings now loaded)
      return .refused (authenticationError "Incorrect email or password.")
    else if !loaded.isActive then
      Txn.raise (.domain (accountInactiveError "Account is not active."))
    else
      let now ← Txn.now
      let (tokens, _, user) ← issue security settings loaded
        { loaded with
          failedLoginAttempts := 0
          lockedUntil := none
          lastLoginAt := some now } client
      return .loggedIn tokens user.read

/-- The changed columns of a rotated token. -/
def RefreshToken.rotate (now replacementId : Nat) (token : RefreshToken) : RefreshToken :=
  { token with
    revokedAt := some now
    replacedById := some replacementId }

/-- `get_by_token(…, for_update=True)` -/
def lockToken (tokenHash : Nat) : IdentityTxn (Option RefreshToken) := do
  let rows ← Table.selectForUpdate RefreshToken.id Row.token Db.refreshTokens (hasHash tokenHash)
  return rows.head?

/-- `AuthService.refresh`: a token is exchanged for a new one, and a revoked one revokes every
session of its user. -/
def refresh (rawToken : Nat) (client : ClientInfo) : IdentityTxn Outcome := do
  let found ← lockToken (security.hashToken rawToken)
  match found with
  | none => Txn.raise (.domain (authenticationError "Refresh token is invalid."))
  | some stored =>
    if stored.isRevoked then
      -- a rotated token came back: every session goes, and that is committed
      let _ ← revokeAll stored.userId
      return .refused tokenReuseError
    else
      let now ← Txn.now
      if stored.expiresAt ≤ now then
        Txn.raise (.domain (authenticationError "Refresh token has expired."))
      else
        let owner ← Txn.select (getUser stored.userId false)
        match owner.filter (·.isActive) with
        | none => Txn.raise (.domain (accountInactiveError "Account is not active."))
        | some user =>
          let (tokens, replacement, _) ← issue security settings user user client
          let now ← Txn.now
          Txn.lock (.token stored.id) (.pure ())
          Txn.write fun db =>
            (db.writeTokens [stored.id] (RefreshToken.rotate now replacement.id)).check
          return .refreshed tokens

/-- `AuthService.logout`: the caller's own token is revoked, if it is not yet. -/
def logout (rawToken userId : Nat) : IdentityTxn Outcome := do
  let found ← Txn.select fun db =>
    db.refreshTokens.find? (hasHash (security.hashToken rawToken))
  match found.filter (·.userId == userId) with
  | none => Txn.raise (.domain (authenticationError "Refresh token is invalid."))
  | some stored =>
    if stored.isRevoked then return .message "Signed out."
    else
      let now ← Txn.now
      Txn.lock (.token stored.id) (.pure ())
      Txn.write fun db => (db.writeTokens [stored.id] (RefreshToken.revoke now)).check
      return .message "Signed out."

/-- `AuthService.logout_all`: every session of the caller is revoked. -/
def logoutAll (userId : Nat) : IdentityTxn Outcome := do
  let count ← revokeAll userId
  return .message ("Signed out of " ++ toString count ++ " session(s).")

end

end SmartLogistics.Identity
