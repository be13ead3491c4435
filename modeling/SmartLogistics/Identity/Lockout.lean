import SmartLogistics.Library.Endings
import SmartLogistics.Identity.Powerless

/-!
# The lockout of an account

A failed login reads the account without a lock, counts in memory and writes the counter back after
the password check; the failure that reaches `max_failed_login_attempts` locks the account. Two
logins that read the same count write the same one, and a failure is forgotten (`not_counted`).

`Watch` keeps account of the logins from the outside. `lockout_of_run`: along runs in which no
failed login is committed over a higher count than it read (`counts`), every failure counts.
-/

set_option autoImplicit false

namespace SmartLogistics.Identity

open SmartLogistics.Library SmartLogistics.Platform

variable {security : Security} {settings : Settings}

/-! ## Writes of the counters -/

/-- An `UPDATE` of the row that was loaded, if one was sent: its counters are written if they were
changed, and no other row is. -/
def Written (loaded user : User) (db db' : Db) : Prop :=
  ∃ rewrite : User → User, db'.users = db.users.map rewrite ∧ ∀ row,
    (rewrite row).id = row.id ∧ (rewrite row).email = row.email ∧
    (row.id ≠ loaded.id → rewrite row = row) ∧
    (row.id = loaded.id → (rewrite row).failedLoginAttempts =
      if loaded.failedLoginAttempts = user.failedLoginAttempts then row.failedLoginAttempts
      else user.failedLoginAttempts) ∧
    (row.id = loaded.id → (rewrite row).lockedUntil =
      if loaded.lockedUntil = user.lockedUntil then row.lockedUntil else user.lockedUntil)

theorem written_writeUser (loaded user : User) (db : Db) :
    Written loaded user db (db.writeUser loaded user) := by
  refine ⟨fun row => if row.id = loaded.id then loaded.writeChanged user row else row, rfl,
    fun row => ?_⟩
  by_cases h : row.id = loaded.id
  · simp [h, User.writeChanged]
  · simp [h]

/-- Nothing was sent for an object that did not change. -/
theorem written_self (loaded : User) {db db' : Db} (h : db'.users = db.users) :
    Written loaded loaded db db' :=
  ⟨id, h.trans (List.map_id _).symm, fun _ => ⟨rfl, rfl, fun _ => rfl, fun _ => (if_pos rfl).symm,
    fun _ => (if_pos rfl).symm⟩⟩

/-- The users are there still, with their counters. -/
def Spares (db db' : Db) : Prop :=
  ∀ user ∈ db.users, ∃ user' ∈ db'.users, user'.id = user.id ∧ user'.email = user.email ∧
    user'.failedLoginAttempts = user.failedLoginAttempts ∧ user'.lockedUntil = user.lockedUntil

theorem spares_of_users {db db' : Db} (h : db'.users = db.users) : Spares db db' :=
  fun user huser => ⟨user, h ▸ huser, rfl, rfl, rfl, rfl⟩

theorem frame_spares : Frame (fun _ => True) Spares where
  refl := fun _ => spares_of_users rfl
  trans := by
    intro a b c hab hbc user huser
    obtain ⟨user₁, h₁, hid₁, hemail₁, hcount₁, hlock₁⟩ := hab user huser
    obtain ⟨user₂, h₂, hid₂, hemail₂, hcount₂, hlock₂⟩ := hbc user₁ h₁
    exact ⟨user₂, h₂, hid₂.trans hid₁, hemail₂.trans hemail₁, hcount₂.trans hcount₁,
      hlock₂.trans hlock₁⟩
  keeps := fun _ _ => trivial

/-- An `UPDATE` that changes neither counter. -/
theorem Written.spares {loaded user : User} {db db' : Db} (h : Written loaded user db db')
    (hcount : user.failedLoginAttempts = loaded.failedLoginAttempts)
    (hlock : user.lockedUntil = loaded.lockedUntil) : Spares db db' := by
  obtain ⟨rewrite, husers, hrewrite⟩ := h
  intro row hrow
  obtain ⟨hid, hemail, hother, hcounter, huntil⟩ := hrewrite row
  refine ⟨rewrite row, husers ▸ List.mem_map_of_mem hrow, hid, hemail, ?_⟩
  by_cases heq : row.id = loaded.id
  · rw [hcounter heq, huntil heq, if_pos hcount.symm, if_pos hlock.symm]
    exact ⟨rfl, rfl⟩
  · rw [hother heq]
    exact ⟨rfl, rfl⟩

/-! ## What the other operations leave alone -/

section Frames

variable {I : Db → Prop}

theorem spares_flushUser {loaded user : User}
    (hcount : user.failedLoginAttempts = loaded.failedLoginAttempts)
    (hlock : user.lockedUntil = loaded.lockedUntil) :
    (flushUser loaded user).Frames I Spares := by
  unfold flushUser
  split
  · trivial
  · refine Txn.Frames.bind (fun _ => trivial) fun now => ?_
    refine Txn.Frames.bind (x := Txn.lock _ (.pure ())) trivial fun _ => ?_
    refine Txn.Frames.bind (Txn.frames_write fun db db' hdb' => ?_) fun _ => trivial
    obtain ⟨rfl, -⟩ := Db.check_eq_ok.1 hdb'
    exact (written_writeUser loaded { user with updatedAt := now } db).spares hcount hlock

/-- A checked write of another table. -/
theorem spares_checked {g : Db → Db} (hg : ∀ db, (g db).users = db.users) :
    (Txn.write (fun db => (g db).check) : IdentityTxn Unit).Frames I Spares := by
  refine Txn.frames_write fun db db' hdb' => ?_
  obtain ⟨rfl, -⟩ := Db.check_eq_ok.1 hdb'
  exact spares_of_users (hg db)

theorem spares_emit (eventType : String) (user : User) (extra : EventExtra) :
    (emit eventType user extra).Frames I Spares :=
  Txn.frames_write fun _ _ hdb' => by
    cases hdb'
    exact spares_of_users rfl

theorem spares_revokeAll (userId : Nat) : (revokeAll userId).Frames I Spares := by
  refine Txn.Frames.bind (fun _ => trivial) fun now => ?_
  refine Txn.Frames.bind (Txn.frames_selectForUpdate _ _ _ _) fun rows => ?_
  exact Txn.Frames.bind (spares_checked fun _ => rfl) fun _ => trivial

theorem spares_requireUser {userId : Nat} {f : User → IdentityTxn Outcome}
    (hf : ∀ user, (f user).Frames I Spares) : ((requireUser userId).bind f).Frames I Spares := by
  refine Txn.Frames.bind ?_ hf
  refine (Txn.frames_select _).bind fun found => ?_
  cases found <;> trivial

theorem spares_getCurrentUser {principal : Principal} {f : User → IdentityTxn Outcome}
    (hf : ∀ user, (f user).Frames I Spares) :
    ((getCurrentUser principal).bind f).Frames I Spares := by
  refine Txn.Frames.bind ?_ hf
  refine (Txn.frames_select _).bind fun found => ?_
  cases found.filter (·.isActive) <;> trivial

/-- A flush of a user whose counters are as they were loaded, and its event. -/
theorem spares_flush_emit {loaded user : User} {eventType : String} {extra : EventExtra}
    {answer : User → Outcome} (hcount : user.failedLoginAttempts = loaded.failedLoginAttempts)
    (hlock : user.lockedUntil = loaded.lockedUntil) :
    ((flushUser loaded user).bind fun user =>
      (emit eventType user extra).bind fun _ => .pure (answer user)).Frames I Spares :=
  (spares_flushUser hcount hlock).bind fun _ => (spares_emit _ _ _).bind fun _ => trivial

theorem spares_issue (user : User) (client : ClientInfo) :
    (issue security settings user user client).Frames I Spares := by
  refine (Txn.frames_select _).bind fun _ => Txn.Frames.bind (fun _ => trivial) fun _ => ?_
  refine Txn.Frames.bind (fun _ => trivial) fun _ => Txn.Frames.bind (fun _ => trivial) fun _ => ?_
  refine Txn.Frames.bind (fun _ => trivial) fun _ => (spares_flushUser rfl rfl).bind fun _ => ?_
  exact Txn.Frames.bind (spares_checked fun _ => rfl) fun _ => trivial

theorem spares_refresh (rawToken : Nat) (client : ClientInfo) :
    (refresh security settings rawToken client).Frames I Spares := by
  refine Txn.Frames.bind ((Txn.frames_selectForUpdate _ _ _ _).bind fun _ => trivial)
    fun found => ?_
  cases found with
  | none => trivial
  | some stored =>
    simp only
    split
    · exact (spares_revokeAll _).bind fun _ => trivial
    · refine Txn.Frames.bind (fun _ => trivial) fun now => ?_
      split
      · trivial
      · refine (Txn.frames_select _).bind fun owner => ?_
        cases owner.filter (·.isActive) with
        | none => trivial
        | some user =>
          refine (spares_issue user client).bind fun _ => ?_
          refine Txn.Frames.bind (fun _ => trivial) fun _ => ?_
          refine Txn.Frames.bind (x := Txn.lock _ (.pure ())) trivial fun _ => ?_
          exact Txn.Frames.bind (spares_checked fun _ => rfl) fun _ => trivial

theorem spares_logout (rawToken userId : Nat) :
    (logout security rawToken userId).Frames I Spares := by
  refine (Txn.frames_select _).bind fun found => ?_
  cases found.filter (·.userId == userId) with
  | none => trivial
  | some stored =>
    simp only
    split
    · trivial
    · refine Txn.Frames.bind (fun _ => trivial) fun now => ?_
      refine Txn.Frames.bind (x := Txn.lock _ (.pure ())) trivial fun _ => ?_
      exact Txn.Frames.bind (spares_checked fun _ => rfl) fun _ => trivial

theorem spares_createUser (payload : UserCreate) :
    (createUser security payload).Frames I Spares := by
  refine Txn.Frames.bind (fun _ => trivial) fun _ => Txn.Frames.bind (fun _ => trivial) fun _ => ?_
  refine Txn.Frames.bind (fun _ => trivial) fun _ => ?_
  refine Txn.Frames.bind (Txn.frames_write fun db db' hdb' => ?_) fun _ =>
    (spares_emit _ _ _).bind fun _ => trivial
  obtain ⟨rfl, -⟩ := Db.check_eq_ok.1 hdb'
  exact fun row hrow => ⟨row, List.mem_append_left _ hrow, rfl, rfl, rfl, rfl⟩

theorem spares_updateProfile (loaded : User) (payload : UserUpdate) :
    (updateProfile loaded payload).Frames I Spares := by
  unfold updateProfile
  split
  · trivial
  · exact spares_flush_emit rfl rfl

theorem spares_changePassword (loaded : User) (payload : PasswordChange) :
    (changePassword security loaded payload).Frames I Spares := by
  unfold changePassword
  split
  · trivial
  split
  · trivial
  refine Txn.Frames.bind (fun _ => trivial) fun _ => Txn.Frames.bind (fun _ => trivial) fun _ => ?_
  exact (spares_revokeAll _).bind fun _ =>
    Txn.Frames.bind (spares_flushUser rfl rfl) fun _ => trivial

theorem spares_removeScope (warehouseId : Nat) (userIds : List Nat) :
    (removeScope warehouseId userIds).Frames I Spares := by
  induction userIds with
  | nil => trivial
  | cons userId userIds ih =>
    refine (spares_revokeAll userId).bind fun _ => (Txn.frames_select _).bind fun found => ?_
    cases found with
    | none => exact ih
    | some user => exact (spares_emit _ _ _).bind fun _ => ih

theorem spares_process (eventId warehouseId : Nat) :
    (process eventId warehouseId).Frames I Spares := by
  refine Txn.Frames.bind (x := Txn.lock _ (.pure ())) trivial fun _ => ?_
  refine (Txn.frames_select _).bind fun duplicate => ?_
  cases duplicate with
  | true => trivial
  | false =>
    refine Txn.Frames.bind (spares_checked fun _ => rfl) fun _ =>
      Txn.Frames.bind ?_ fun _ => trivial
    refine (Txn.frames_selectForUpdate _ _ _ _).bind fun rows => ?_
    exact Txn.Frames.bind (spares_checked fun _ => rfl) fun _ => spares_removeScope _ _

/-- The account an operation logs in to. -/
def Operation.account : Operation → Option String
  | .login email _ _ => some email
  | _ => none

/-- Only logins write the counters. -/
theorem spares_serve {op : Operation} (hop : op.account = none) :
    (serve security settings op).Frames I Spares := by
  have hadmin : ∀ {principal : Principal} {f : Unit → IdentityTxn Outcome},
      (f ()).Frames I Spares → ((requireAdmin principal).bind f).Frames I Spares :=
    fun hf => (Txn.frames_ofExcept _).bind fun _ => hf
  cases op with
  | login => cases hop
  | refresh rawToken client => exact spares_refresh _ _
  | logout principal rawToken =>
    cases rawToken with
    | none => exact (spares_revokeAll _).bind fun _ => trivial
    | some rawToken => exact spares_logout _ _
  | sessions principal =>
    exact Txn.Frames.bind (fun _ => trivial) fun now => (Txn.frames_select _).bind fun _ => trivial
  | me principal => exact spares_getCurrentUser fun _ => trivial
  | createUser principal payload => exact hadmin (spares_createUser _)
  | listUsers principal filter =>
    exact hadmin ((Txn.frames_select _).bind fun _ => (Txn.frames_select _).bind fun _ => trivial)
  | updateMe principal payload => exact spares_getCurrentUser fun _ => spares_updateProfile _ _
  | changePassword principal payload =>
    exact spares_getCurrentUser fun _ => spares_changePassword _ _
  | getUser principal userId => exact hadmin (spares_requireUser fun _ => trivial)
  | updateUser principal userId payload =>
    exact hadmin (spares_requireUser fun _ => spares_updateProfile _ _)
  | changeRole principal userId payload =>
    refine hadmin (spares_requireUser fun loaded => ?_)
    split
    · trivial
    · exact (spares_revokeAll _).bind fun _ => spares_flush_emit rfl rfl
  | changeStatus principal userId payload =>
    refine hadmin (spares_requireUser fun loaded => ?_)
    split
    · trivial
    split
    · exact (spares_revokeAll _).bind fun _ => spares_flush_emit rfl rfl
    · exact spares_flush_emit rfl rfl
  | restoreUser principal userId =>
    refine hadmin ((Txn.frames_select _).bind fun found => ?_)
    cases found with
    | none => trivial
    | some loaded => exact spares_flush_emit rfl rfl
  | deleteUser principal userId =>
    refine hadmin (spares_requireUser fun loaded => ?_)
    split
    · trivial
    · refine Txn.Frames.bind (fun _ => trivial) fun now => ?_
      exact (spares_revokeAll _).bind fun _ => spares_flush_emit rfl rfl
  | listAssignments principal userId =>
    exact hadmin (spares_requireUser fun _ => (Txn.frames_select _).bind fun _ => trivial)
  | assignWarehouse principal userId warehouseId answer =>
    refine hadmin (spares_requireUser fun user => ?_)
    split
    · trivial
    refine (Txn.frames_ofExcept _).bind fun _ => Txn.Frames.bind (fun _ => trivial) fun _ => ?_
    refine Txn.Frames.bind (fun _ => trivial) fun _ => ?_
    refine Txn.Frames.bind (spares_checked fun _ => rfl) fun _ =>
      (spares_revokeAll _).bind fun _ => ?_
    exact (spares_emit _ _ _).bind fun _ => trivial
  | unassignWarehouse principal userId warehouseId =>
    refine hadmin (spares_requireUser fun user => (Txn.frames_select _).bind fun found => ?_)
    cases found with
    | none => trivial
    | some assignment =>
      refine (spares_revokeAll _).bind fun _ => ?_
      refine Txn.Frames.bind (x := Txn.lock _ (.pure ())) trivial fun _ => ?_
      exact Txn.Frames.bind (spares_checked fun _ => rfl) fun _ =>
        (spares_emit _ _ _).bind fun _ => trivial
  | process eventId warehouseId => exact spares_process _ _

end Frames

/-! ## What a login writes -/

/-- What a login that found `found` at `since` has written when it returns. -/
inductive LoginEnds (settings : Settings) (found : Option User) (since now : Nat)
    (sent : Db → Except Failure Db) : Outcome → Prop
  | failed {loaded : User} {at' : Nat} {error : DomainError} (hfound : found = some loaded)
      (hsince : since ≤ at') (hnow : at' ≤ now) (hopen : ∀ u, loaded.lockedUntil = some u → u ≤ at')
      (hwritten : ∀ db db', sent db = .ok db' →
        Written loaded (registerFailedAttempt settings at' loaded) db db') :
      LoginEnds settings found since now sent (.refused error)
  | loggedIn {loaded : User} {lastLogin : Nat} {tokens : IssuedTokens} {user : UserRead}
      (hfound : found = some loaded) (hwritten : ∀ db db', sent db = .ok db' →
        Written loaded
          { loaded with
            failedLoginAttempts := 0
            lockedUntil := none
            lastLoginAt := some lastLogin } db db') :
      LoginEnds settings found since now sent (.loggedIn tokens user)

theorem ends_flushUser (loaded user : User) (now : Nat) :
    (flushUser loaded user).Ends (fun n sent _ => now ≤ n ∧ ∀ db db', sent db = .ok db' →
      Written loaded user db db') now .ok := by
  unfold flushUser
  split
  · rename_i heq
    subst heq
    refine ⟨Nat.le_refl _, fun db db' hdb' => ?_⟩
    cases hdb'
    exact written_self user rfl
  · intro n hn
    refine ⟨hn, fun db db' hdb' => ?_⟩
    obtain ⟨rfl, -⟩ := Db.check_eq_ok.1 hdb'
    exact written_writeUser loaded { user with updatedAt := n } db

/-- The writes of `_issue` to `users` are those of the flush. -/
theorem ends_issue (loaded user : User) (client : ClientInfo) (now : Nat) :
    (issue security settings loaded user client).Ends (fun _ sent _ => ∀ db db',
      sent db = .ok db' → Written loaded user db db') now .ok := by
  refine Txn.Ends.bind fun _ => Txn.Ends.bind fun _ _ => Txn.Ends.bind fun _ => ?_
  refine Txn.Ends.bind fun _ => Txn.Ends.bind fun n _ => ?_
  refine Txn.Ends.bind ((ends_flushUser loaded user n).mono fun _ sent _ _ hflush => ?_)
  intro db db' hdb'
  obtain ⟨mid, hmid, hinsert⟩ := Txn.sent_eq_ok hdb'
  obtain ⟨rfl, -⟩ := Db.check_eq_ok.1 hinsert
  exact hflush.2 db mid hmid

/-- A login reads the account, and then ends as `LoginEnds` says. -/
theorem ends_login (email password : String) (client : ClientInfo) :
    ∃ read, login security settings email password client = .query read ∧ ∀ db now,
      (read db).Ends (LoginEnds settings (getByEmail email db) now) now .ok := by
  refine ⟨_, rfl, fun db now => ?_⟩
  dsimp only [Txn.bind]
  generalize getByEmail email db = found
  cases found with
  | none => trivial
  | some loaded =>
    refine Txn.Ends.bind fun checked hchecked => ?_
    change Txn.Ends _ checked _ (ite _ _ _)
    split
    · trivial
    rename_i hunlocked
    split
    · refine Txn.Ends.bind fun at' hat => ?_
      refine Txn.Ends.bind ((ends_flushUser loaded _ at').mono fun n sent _ _ hflush => ?_)
      refine .failed rfl (hchecked.trans hat) hflush.1 (fun u hu => ?_) hflush.2
      -- the check of `locked_until` has passed, at an earlier reading of the clock
      have hle : u ≤ checked := by simpa [hu] using hunlocked
      exact hle.trans hat
    split
    · trivial
    · refine Txn.Ends.bind fun lastLogin _ => ?_
      exact Txn.Ends.bind ((ends_issue loaded _ client lastLogin).mono fun _ _ _ _ hissue =>
        .loggedIn rfl hissue)

/-! ## Watching an account from outside -/

/-- An account of the logins: what each open login found and when, and, for one email, the failed
logins committed since the last success or lock, and the last lock: when the login that set it read
the account, and when it was committed. -/
structure Watch where
  found : Nat → Option (Option User × Nat)
  failures : Nat
  lock : Option (Nat × Nat)

/-- Before the first step. -/
def Watch.start : Watch := ⟨fun _ => none, 0, none⟩

/-- A failed login leaves the counter at zero if it locks the account, and above zero otherwise. -/
def Db.isLocked (email : String) (db : Db) : Bool :=
  db.users.any fun user => user.email == email && user.failedLoginAttempts == 0

/-- A login of the account was committed at `committed`; `locked` says whether it locked it. -/
def Watch.ends (w : Watch) (since committed : Nat) (locked : Bool) : Outcome → Watch
  | .refused _ =>
    if locked then { w with failures := 0, lock := some (since, committed) }
    else { w with failures := w.failures + 1 }
  | .loggedIn _ _ => { w with failures := 0, lock := none }
  | _ => w

/-- Session `t` takes a step: a login reads the account it is for, and later it may commit. -/
def Watch.step (email : String) (w : Watch) (c c' : IdentityConfig) (t : Nat)
    (s : Session Db Row Failure Outcome Operation) (account : String) : Watch :=
  match w.found t with
  | none =>
    { w with found := Function.update w.found t (some (getByEmail account c.db, c.clock)) }
  | some (_, since) =>
    if account = email then
      match s.result c.db with
      | some outcome => w.ends since c.clock (c'.db.isLocked email) outcome
      | none => w
    else w

/-- One scheduler choice, seen from outside. -/
def Watch.observe (email : String) (w : Watch) (c c' : IdentityConfig) :
    Label Operation User → Watch
  | .start t _ => { w with found := Function.update w.found t none }
  | .step t _ =>
    match c.sessions t with
    | none => w
    | some s =>
      match s.op.account with
      | none => w
      | some account => w.step email c c' t s account
  | _ => w

/-- Identity, with a watch over the logins of `email`. -/
def watched (security : Security) (settings : Settings) (email : String) :
    Machine (IdentityConfig × Watch) (Label Operation User) where
  next := fun (c, w) l =>
    ((identity security settings).next c l).map fun c' => (c', w.observe email c c' l)

/-- A failed login of the account is committed only if the counter is not above the one it read. -/
def counts (email : String) : IdentityConfig × Watch → Label Operation User → Bool
  | (c, w), .step t _ =>
    match c.sessions t, w.found t with
    | some s, some (some loaded, _) =>
      match s.result c.db with
      | some (.refused _) => s.op.account != some email || c.db.users.all fun user =>
          user.email != email || decide (user.failedLoginAttempts ≤ loaded.failedLoginAttempts)
      | _ => true
    | _, _ => true
  | _, _ => true

/-! ## What a lockout is -/

/-- A login in the state `db` whose clock reads less than `until'` is refused at the first look at
the account. -/
def RefusedUntil (until' : Nat) (db : Db) (x : IdentityTxn Outcome) : Prop :=
  ∃ read, x = .query read ∧ ∃ check, read db = .utcnow check ∧ ∀ now < until',
    check now = .raise (.domain
      (accountLockedError "Account is temporarily locked. Try again later."))

/-- No failed login is forgotten: there are never `max_failed_login_attempts` of them since the last
success or lock, a lock lies `account_lockout_minutes` after the clock that the login which set it
has read, and an account that is locked refuses logins whatever checks their passwords. -/
structure Lockout (settings : Settings) (email : String) (c : IdentityConfig) (w : Watch) :
    Prop where
  counted : w.failures = 0 ∨ w.failures < settings.maxFailedLoginAttempts
  locked : ∀ since committed, w.lock = some (since, committed) → ∃ user ∈ c.db.users,
    user.email = email ∧ ∃ at', since ≤ at' ∧ at' ≤ committed ∧
      (settings.accountLockout = 0 ∨ user.lockedUntil = some (at' + settings.accountLockout))
  refused : ∀ user ∈ c.db.users, user.email = email → user.deletedAt = none →
    ∀ until', user.lockedUntil = some until' → ∀ security password client,
      RefusedUntil until' c.db (login security settings email password client)

/-! ## The invariant -/

/-- The rows of the account are there still, with their counters. -/
def SparesAccount (email : String) (db db' : Db) : Prop :=
  ∀ user ∈ db.users, user.email = email → ∃ user' ∈ db'.users, user'.email = email ∧
    user'.failedLoginAttempts = user.failedLoginAttempts ∧ user'.lockedUntil = user.lockedUntil

/-- The users are there still. -/
def Stay (db db' : Db) : Prop :=
  ∀ user ∈ db.users, ∃ user' ∈ db'.users, user'.id = user.id ∧ user'.email = user.email

theorem Spares.account {db db' : Db} (h : Spares db db') (email : String) :
    SparesAccount email db db' := by
  intro user huser hemail
  obtain ⟨user', huser', -, hemail', hcounters⟩ := h user huser
  exact ⟨user', huser', hemail'.trans hemail, hcounters⟩

theorem Spares.stay {db db' : Db} (h : Spares db db') : Stay db db' := by
  intro user huser
  obtain ⟨user', huser', hid, hemail, -⟩ := h user huser
  exact ⟨user', huser', hid, hemail⟩

theorem Written.stay {loaded user : User} {db db' : Db} (h : Written loaded user db db') :
    Stay db db' := by
  obtain ⟨rewrite, husers, hrewrite⟩ := h
  exact fun row hrow => ⟨rewrite row, husers ▸ List.mem_map_of_mem hrow, (hrewrite row).1,
    (hrewrite row).2.1⟩

/-- An `UPDATE` of another account. -/
theorem Written.account {loaded user : User} {db db' : Db} (h : Written loaded user db db')
    {email : String} (hother : ∀ row ∈ db.users, row.email = email → row.id ≠ loaded.id) :
    SparesAccount email db db' := by
  obtain ⟨rewrite, husers, hrewrite⟩ := h
  intro row hrow hemail
  refine ⟨row, ?_, hemail, rfl, rfl⟩
  rw [husers]
  exact List.mem_map.2 ⟨row, hrow, (hrewrite row).2.2.1 (hother row hrow hemail)⟩

/-- What the watch knows of the committed state. -/
structure Counted (settings : Settings) (email : String) (db : Db) (w : Watch) : Prop where
  counted : w.failures = 0 ∨ w.failures < settings.maxFailedLoginAttempts
  enough : ∀ user ∈ db.users, user.email = email → w.failures ≤ user.failedLoginAttempts
  known : w.failures ≠ 0 → ∃ user ∈ db.users, user.email = email
  locked : ∀ since committed, w.lock = some (since, committed) → ∃ user ∈ db.users,
    user.email = email ∧ ∃ at', since ≤ at' ∧ at' ≤ committed ∧
      (settings.accountLockout = 0 ∨ user.lockedUntil = some (at' + settings.accountLockout))

/-- What the watch knows of an open login of `account`: it has not begun, or it ends as what it
found says. -/
def LoginFollows (settings : Settings) (db : Db) (clock : Nat)
    (found : Option (Option User × Nat)) (account : String)
    (s : Session Db Row Failure Outcome Operation) : Prop :=
  match found with
  | none => s.pending = .ok ∧ ∃ read, s.prog = .query read ∧ ∀ db now,
      (read db).Ends (LoginEnds settings (getByEmail account db) now) now .ok
  | some (user, since) =>
    (∀ u, user = some u → u.email = account ∧
      ∃ row ∈ db.users, row.id = u.id ∧ row.email = u.email) ∧
      ∃ now ≤ clock, s.Ends (LoginEnds settings user since) now

/-- The invariant of the watch. -/
structure Watching (security : Security) (settings : Settings) (email : String)
    (c : IdentityConfig) (w : Watch) : Prop where
  sound : c.Sound (sessionProtocol security)
  framed : System.Framed (fun _ => True) Spares (fun op => op.account = none) c
  counts : Counted settings email c.db w
  logins : ∀ t s account, c.sessions t = some s → s.op.account = some account →
    LoginFollows settings c.db c.clock (w.found t) account s

/-- Two rows of one account are one. -/
theorem Linked.eq_of_email {db : Db} (h : Linked db) {user user' : User} (huser : user ∈ db.users)
    (huser' : user' ∈ db.users) (hemail : user.email = user'.email) : user = user' :=
  List.inj_on_of_nodup_map h.unique.emails huser huser' hemail

/-- Commits that spare the account keep what the watch knows. -/
theorem Counted.spares {email : String} {db db' : Db} {w : Watch} (h : Counted settings email db w)
    (hinv' : Linked db') (hspares : SparesAccount email db db') : Counted settings email db' w where
  counted := h.counted
  enough := by
    intro user' huser' hemail'
    by_cases hnone : w.failures = 0
    · rw [hnone]
      exact Nat.zero_le _
    · obtain ⟨user, huser, hemail⟩ := h.known hnone
      obtain ⟨kept, hkept, hkeptEmail, hcount, -⟩ := hspares user huser hemail
      rw [hinv'.eq_of_email huser' hkept (hemail'.trans hkeptEmail.symm), hcount]
      exact h.enough user huser hemail
  known := by
    intro hsome
    obtain ⟨user, huser, hemail⟩ := h.known hsome
    obtain ⟨kept, hkept, hkeptEmail, -⟩ := hspares user huser hemail
    exact ⟨kept, hkept, hkeptEmail⟩
  locked := by
    intro since committed hlock
    obtain ⟨user, huser, hemail, at', hsince, hcommitted, hat⟩ := h.locked since committed hlock
    obtain ⟨kept, hkept, hkeptEmail, -, huntil⟩ := hspares user huser hemail
    refine ⟨kept, hkept, hkeptEmail, at', hsince, hcommitted, ?_⟩
    rw [huntil]
    exact hat

/-- A successful login of the account. -/
theorem Counted.loggedIn {email : String} {db : Db} {w : Watch} :
    Counted settings email db { w with failures := 0, lock := none } where
  counted := Or.inl rfl
  enough := fun _ _ _ => Nat.zero_le _
  known := fun h => absurd rfl h
  locked := fun _ _ h => nomatch h

/-- The row of the account after the `UPDATE` of a login, which is all there is of the account. -/
theorem Written.row {loaded user : User} {db db' : Db} (h : Written loaded user db db')
    (hinv : Linked db) {row : User} (hrow : row ∈ db.users) (hid : row.id = loaded.id) :
    ∃ row' ∈ db'.users, row'.email = row.email ∧
      (row'.failedLoginAttempts = if loaded.failedLoginAttempts = user.failedLoginAttempts then
        row.failedLoginAttempts else user.failedLoginAttempts) ∧
      (row'.lockedUntil = if loaded.lockedUntil = user.lockedUntil then row.lockedUntil
        else user.lockedUntil) ∧
      ∀ other ∈ db'.users, other.email = row.email → other = row' := by
  obtain ⟨rewrite, husers, hrewrite⟩ := h
  obtain ⟨-, hemail, -, hcount, huntil⟩ := hrewrite row
  refine ⟨rewrite row, husers ▸ List.mem_map_of_mem hrow, hemail, hcount hid, huntil hid, ?_⟩
  intro other hother hsame
  rw [husers] at hother
  obtain ⟨row₀, hrow₀, rfl⟩ := List.mem_map.1 hother
  rw [hinv.eq_of_email hrow₀ hrow ((hrewrite row₀).2.1.symm.trans hsame)]

/-- A failed login of the account, over a counter that is not above the one it read. -/
theorem Counted.refused {email : String} {db db' : Db} {w : Watch} (h : Counted settings email db w)
    (hinv : Linked db) {loaded row : User} {since at' committed : Nat} {error : DomainError}
    (hrow : row ∈ db.users) (hid : row.id = loaded.id) (hemail : row.email = email)
    (hsince : since ≤ at') (hcommitted : at' ≤ committed)
    (hopen : ∀ u, loaded.lockedUntil = some u → u ≤ at')
    (hcounts : row.failedLoginAttempts ≤ loaded.failedLoginAttempts)
    (hwritten : Written loaded (registerFailedAttempt settings at' loaded) db db') :
    Counted settings email db' (w.ends since committed (db'.isLocked email) (.refused error)) := by
  obtain ⟨row', hrow', hemail', hcount, huntil, honly⟩ := hwritten.row hinv hrow hid
  have honly' : ∀ other ∈ db'.users, other.email = email → other = row' := fun other ho he =>
    honly other ho (he.trans hemail.symm)
  have hlocked : db'.isLocked email = (row'.failedLoginAttempts == 0) := by
    rw [Bool.eq_iff_iff, Db.isLocked, List.any_eq_true]
    constructor
    · rintro ⟨other, hother, hboth⟩
      rw [Bool.and_eq_true, beq_iff_eq] at hboth
      rw [← honly' other hother hboth.1]
      exact hboth.2
    · intro hzero
      exact ⟨row', hrow', by rw [Bool.and_eq_true, beq_iff_eq]; exact ⟨hemail'.trans hemail, hzero⟩⟩
  have henough : w.failures ≤ row.failedLoginAttempts := h.enough row hrow hemail
  unfold registerFailedAttempt at hcount huntil
  by_cases hmax : settings.maxFailedLoginAttempts ≤ loaded.failedLoginAttempts + 1
  · -- the login locks the account
    rw [if_pos hmax] at hcount huntil
    simp only at hcount huntil
    have hzero : row'.failedLoginAttempts = 0 := by
      rw [hcount]
      split <;> omega
    rw [hlocked, hzero]
    refine ⟨Or.inl rfl, fun _ _ _ => Nat.zero_le _, fun hne => absurd rfl hne, ?_⟩
    rintro _ _ ⟨⟩
    refine ⟨row', hrow', hemail'.trans hemail, at', hsince, hcommitted, ?_⟩
    rw [huntil]
    split
    · rename_i hsame
      have := hopen _ hsame
      exact Or.inl (by omega)
    · exact Or.inr rfl
  · -- the login counts
    rw [if_neg hmax] at hcount huntil
    simp only [if_true] at hcount huntil
    have hcount : row'.failedLoginAttempts = loaded.failedLoginAttempts + 1 := by
      rw [hcount, if_neg (by omega)]
    have hopened : db'.isLocked email = false := by
      rw [hlocked, hcount]
      rfl
    rw [hopened]
    refine ⟨Or.inr ?_, ?_, fun _ => ⟨row', hrow', hemail'.trans hemail⟩, ?_⟩
    · change w.failures + 1 < _
      omega
    · intro other hother he
      rw [honly' other hother he, hcount]
      change w.failures + 1 ≤ _
      omega
    · intro since' committed' hlock
      obtain ⟨user, huser, he, at₀, hs, hc, hat⟩ := h.locked since' committed' hlock
      rw [hinv.eq_of_email huser hrow (he.trans hemail.symm)] at hat
      exact ⟨row', hrow', hemail'.trans hemail, at₀, hs, hc, huntil ▸ hat⟩

/-! ## Steps -/

section Steps

variable {email : String} {c c' : IdentityConfig} {w : Watch}

theorem Watch.found_ends (w : Watch) (since committed : Nat) (locked : Bool) (outcome : Outcome) :
    (w.ends since committed locked outcome).found = w.found := by
  cases outcome with
  | refused error => cases locked <;> rfl
  | _ => rfl

/-- What a login found is recorded at its first step. -/
theorem Watch.found_step_first {t : Nat} (hw : w.found t = none)
    (s : Session Db Row Failure Outcome Operation) (account : String) :
    (w.step email c c' t s account).found =
      Function.update w.found t (some (getByEmail account c.db, c.clock)) := by
  simp only [Watch.step, hw]

theorem Watch.found_step {t : Nat} {seen : Option User × Nat} (hw : w.found t = some seen)
    (s : Session Db Row Failure Outcome Operation) (account : String) :
    (w.step email c c' t s account).found = w.found := by
  simp only [Watch.step, hw]
  split
  · split
    · exact w.found_ends ..
    · rfl
  · rfl

/-- What the other logins found stays recorded. -/
theorem Watch.found_observe {l : Label Operation User} {u : Nat}
    (hstart : ∀ op, l ≠ .start u op) (hstep : ∀ draw, l ≠ .step u draw) :
    (w.observe email c c' l).found u = w.found u := by
  cases l with
  | start t op => exact Function.update_of_ne (fun heq => hstart op (by rw [heq])) _ _
  | step t draw =>
    have hne : u ≠ t := fun heq => hstep draw (by rw [heq])
    simp only [Watch.observe]
    split
    · rfl
    split
    · rfl
    · cases hw : w.found t with
      | none =>
        rw [Watch.found_step_first hw]
        exact Function.update_of_ne hne _ _
      | some seen => rw [Watch.found_step hw]
  | _ => rfl

theorem spares_seed (user : User) (db : Db) : Spares db (Db.seed user db) := by
  unfold Db.seed
  split
  · rename_i db' hcheck
    obtain ⟨rfl, -⟩ := Db.check_eq_ok.1 hcheck
    exact fun row hrow => ⟨row, List.mem_append_left _ hrow, rfl, rfl, rfl, rfl⟩
  · exact spares_of_users rfl

/-- A login that returns has begun, and has written what it found. -/
theorem Watching.ends (h : Watching security settings email c w) {t : Nat} {account : String}
    {s : Session Db Row Failure Outcome Operation} {a : Outcome} (hs : c.sessions t = some s)
    (haccount : s.op.account = some account) (hprog : s.prog = .pure a) :
    ∃ found since now, w.found t = some (found, since) ∧ now ≤ c.clock ∧
      (∀ u, found = some u → u.email = account ∧
        ∃ row ∈ c.db.users, row.id = u.id ∧ row.email = u.email) ∧
      LoginEnds settings found since now s.pending a := by
  have hfollows := h.logins t s account hs haccount
  unfold LoginFollows at hfollows
  split at hfollows
  · obtain ⟨-, read, hread, -⟩ := hfollows
    rw [hprog] at hread
    cases hread
  · rename_i found since hfound
    obtain ⟨hrow, now, hnow, hends⟩ := hfollows
    exact ⟨found, since, now, hfound, hnow, hrow, hends.result hprog⟩

theorem LoginEnds.written {found : Option User} {since now : Nat} {sent : Db → Except Failure Db}
    {a : Outcome} (h : LoginEnds settings found since now sent a) {db db' : Db}
    (hsent : sent db = .ok db') :
    ∃ loaded user, found = some loaded ∧ Written loaded user db db' := by
  cases h with
  | failed hfound _ _ _ hwritten => exact ⟨_, _, hfound, hwritten db db' hsent⟩
  | loggedIn hfound hwritten => exact ⟨_, _, hfound, hwritten db db' hsent⟩

/-- Users are never removed. -/
theorem Watching.stay (h : Watching security settings email c w) {l : Label Operation User}
    (hnext : (identity security settings).next c l = some c') : Stay c.db c'.db := by
  rcases System.next_db _ hnext with hdb | ⟨t, draw, s, a, rfl, hs, hprog, hpending⟩ |
    ⟨user, -, hdb⟩
  · exact (spares_of_users (by rw [hdb])).stay
  · cases haccount : s.op.account with
    | none => exact (h.framed.step frame_spares hs haccount hnext).stay
    | some account =>
      obtain ⟨_, _, _, -, -, -, hends⟩ := h.ends hs haccount hprog
      obtain ⟨_, _, -, hwritten⟩ := hends.written hpending
      exact hwritten.stay
  · exact hdb ▸ (spares_seed user c.db).stay

/-- A step that commits no login of the account. -/
theorem Watching.spares (h : Watching security settings email c w) {l : Label Operation User}
    (hnext : (identity security settings).next c l = some c')
    (hother : ∀ t draw s a, l = .step t draw → c.sessions t = some s → s.prog = .pure a →
      s.op.account ≠ some email) : SparesAccount email c.db c'.db := by
  rcases System.next_db _ hnext with hdb | ⟨t, draw, s, a, rfl, hs, hprog, hpending⟩ |
    ⟨user, -, hdb⟩
  · exact (spares_of_users (by rw [hdb])).account email
  · cases haccount : s.op.account with
    | none => exact (h.framed.step frame_spares hs haccount hnext).account email
    | some account =>
      obtain ⟨found, since, now, -, -, hfound, hends⟩ := h.ends hs haccount hprog
      obtain ⟨loaded, user, hloaded, hwritten⟩ := hends.written hpending
      obtain ⟨hemail, read, hread, hid, hsame⟩ := hfound loaded hloaded
      have hne : account ≠ email := fun heq => hother t draw s a rfl hs hprog (heq ▸ haccount)
      refine hwritten.account fun row hrow hrowEmail hrowId => hne ?_
      rw [h.sound.inv.unique.users.eq_of_key hrow hread (hrowId.trans hid.symm), hsame, hemail]
        at hrowEmail
      exact hrowEmail
  · exact hdb ▸ (spares_seed user c.db).account email

/-- The watch of a step that commits no login of the account. -/
theorem Watch.observe_of_not {l : Label Operation User}
    (hother : ∀ t draw s a, l = .step t draw → c.sessions t = some s → s.prog = .pure a →
      s.op.account ≠ some email) :
    (w.observe email c c' l).failures = w.failures ∧ (w.observe email c c' l).lock = w.lock := by
  cases l with
  | step t draw =>
    simp only [Watch.observe]
    split
    · exact ⟨rfl, rfl⟩
    rename_i s hs
    split
    · exact ⟨rfl, rfl⟩
    rename_i account haccount
    unfold Watch.step
    split
    · exact ⟨rfl, rfl⟩
    split
    · rename_i heq
      subst heq
      split
      · rename_i outcome hresult
        obtain ⟨hprog, -⟩ := Session.result_eq_some.1 hresult
        exact absurd haccount (hother t draw s outcome rfl hs hprog)
      · exact ⟨rfl, rfl⟩
    · exact ⟨rfl, rfl⟩
  | _ => exact ⟨rfl, rfl⟩

theorem le_of_counts {t draw : Nat} (h : counts email (c, w) (.step t draw) = true)
    {s : Session Db Row Failure Outcome Operation} (hs : c.sessions t = some s)
    (haccount : s.op.account = some email) {error : DomainError}
    (hresult : s.result c.db = some (.refused error)) {loaded : User} {since : Nat}
    (hfound : w.found t = some (some loaded, since)) {user : User} (huser : user ∈ c.db.users)
    (hemail : user.email = email) : user.failedLoginAttempts ≤ loaded.failedLoginAttempts := by
  simp only [counts, hs, hfound, hresult, haccount, bne_self_eq_false, Bool.false_or] at h
  have hrow := List.all_eq_true.1 h user huser
  simpa only [hemail, bne_self_eq_false, Bool.false_or, decide_eq_true_eq] using hrow

/-- The watch knows what it should after every step that counts. -/
theorem Watching.counted (h : Watching security settings email c w) {l : Label Operation User}
    (hcounts : Identity.counts email (c, w) l = true) (hinv' : Linked c'.db)
    (hnext : (identity security settings).next c l = some c') :
    Counted settings email c'.db (w.observe email c c' l) := by
  by_cases hlogin : ∃ t draw s a, l = .step t draw ∧ c.sessions t = some s ∧ s.prog = .pure a ∧
      s.op.account = some email
  · obtain ⟨t, draw, s, a, rfl, hs, hprog, haccount⟩ := hlogin
    obtain ⟨found, since, now, hw, hnow, hfound, hends⟩ := h.ends hs haccount hprog
    have hobserve : w.observe email c c' (.step t draw) = match s.result c.db with
        | some outcome => w.ends since c.clock (c'.db.isLocked email) outcome
        | none => w := by
      simp only [Watch.observe, hs, haccount, Watch.step, hw, if_true]
    rw [hobserve]
    simp only [System.next, hs] at hnext
    rcases (Config.advance_result hnext).2.2 with ⟨b, hresult, hb, hpending, -⟩ | ⟨hnone, hdb, -⟩
    · rw [hresult]
      obtain rfl : a = b := Txn.pure.inj (hprog.symm.trans hb)
      cases hends with
      | @failed loaded at' error hloaded hsince hat hopen hwritten =>
        obtain ⟨hemail, row, hrow, hid, hsame⟩ := hfound loaded hloaded
        refine h.counts.refused h.sound.inv hrow hid (hsame.trans hemail) hsince (hat.trans hnow)
          hopen ?_ (hwritten _ _ hpending)
        exact le_of_counts hcounts hs haccount hresult (hw.trans (by rw [hloaded])) hrow
          (hsame.trans hemail)
      | loggedIn hloaded hwritten => exact Counted.loggedIn
    · -- the commit was refused
      rw [hnone, hdb]
      exact h.counts
  · have hother : ∀ t draw s a, l = .step t draw → c.sessions t = some s → s.prog = .pure a →
        s.op.account ≠ some email := fun t draw s a hl hs hprog haccount =>
      hlogin ⟨t, draw, s, a, hl, hs, hprog, haccount⟩
    obtain ⟨hfailures, hlock⟩ : (w.observe email c c' l).failures = w.failures ∧
        (w.observe email c c' l).lock = w.lock := Watch.observe_of_not hother
    have hspared := h.counts.spares hinv' (h.spares hnext hother)
    exact ⟨hfailures ▸ hspared.counted, hfailures ▸ hspared.enough, hfailures ▸ hspared.known,
      hlock ▸ hspared.locked⟩

/-- What the watch knows of an open login stays true while other sessions go on. -/
theorem LoginFollows.mono {db db' : Db} {clock clock' : Nat}
    {found : Option (Option User × Nat)} {account : String}
    {s : Session Db Row Failure Outcome Operation}
    (h : LoginFollows settings db clock found account s) (hstay : Stay db db')
    (hclock : clock ≤ clock') : LoginFollows settings db' clock' found account s := by
  cases found with
  | none => exact h
  | some seen =>
    obtain ⟨hrow, now, hnow, hends⟩ := h
    refine ⟨fun u hu => ?_, now, hnow.trans hclock, hends⟩
    obtain ⟨hemail, row, hmem, hid, hsame⟩ := hrow u hu
    obtain ⟨row', hmem', hid', hsame'⟩ := hstay row hmem
    exact ⟨hemail, row', hmem', hid'.trans hid, hsame'.trans hsame⟩

/-- The first step of a login, which reads the account. -/
theorem loginFollows_first (account : String) {read : Db → IdentityTxn Outcome}
    (hread : ∀ db now, (read db).Ends (LoginEnds settings (getByEmail account db) now) now .ok)
    {s : Session Db Row Failure Outcome Operation} (hpending : s.pending = .ok)
    (hprog : s.prog = read c.db) :
    LoginFollows settings c.db c.clock (some (getByEmail account c.db, c.clock)) account s := by
  refine ⟨fun user huser => ?_, c.clock, Nat.le_refl _, ?_⟩
  · have hmem : user ∈ c.db.users := List.mem_of_find?_eq_some huser
    have hsome := List.find?_some huser
    rw [Bool.and_eq_true, beq_iff_eq] at hsome
    exact ⟨hsome.1, user, hmem, rfl, rfl⟩
  · rw [Session.Ends, hprog, hpending]
    exact hread c.db c.clock

/-- What the watch knows of the open logins after a step. -/
theorem Watching.follows (h : Watching security settings email c w) {l : Label Operation User}
    (hnext : (identity security settings).next c l = some c') {u : Nat}
    {s' : Session Db Row Failure Outcome Operation} {account : String}
    (hs' : c'.sessions u = some s') (haccount : s'.op.account = some account) :
    LoginFollows settings c'.db c'.clock ((w.observe email c c' l).found u) account s' := by
  rcases System.next_session_cases _ hnext hs' with ⟨op, rfl, rfl⟩ |
    ⟨draw, s, rfl, hs, hstep, hop⟩ | ⟨hs, hstart, hother⟩
  · -- the login has just been opened
    have hnone : (w.observe email c c' (.start u op)).found u = none := Function.update_self ..
    rw [hnone]
    cases op with
    | login email' password client =>
      cases haccount
      exact ⟨rfl, ends_login account password client⟩
    | _ => cases haccount
  · -- the login takes a step
    rw [hop] at haccount
    have hfollows := h.logins u s account hs haccount
    have hobserve : (w.observe email c c' (.step u draw)) = w.step email c c' u s account := by
      simp only [Watch.observe, hs, haccount]
    rw [hobserve]
    cases hfound : w.found u with
    | none =>
      rw [hfound] at hfollows
      obtain ⟨hpending, read, hprog, hread⟩ := hfollows
      simp only [Config.advance, hprog, hpending, Option.some.injEq] at hstep
      subst hstep
      simp only [Config.put, Function.update_self, Option.some.injEq] at hs'
      subst hs'
      rw [Watch.found_step_first hfound, Function.update_self]
      exact loginFollows_first account hread rfl rfl
    | some seen =>
      rw [hfound] at hfollows
      rw [Watch.found_step hfound, hfound]
      obtain ⟨hrow, now, hnow, hends⟩ := hfollows
      obtain ⟨now', hnow', hends'⟩ := hends.advance hnow hstep hs'
      have hkept : LoginFollows settings c.db c.clock (some seen) account s' :=
        ⟨hrow, now', hnow', hends'⟩
      exact hkept.mono (h.stay hnext) (System.clock_le_of_next _ hnext)
  · rw [Watch.found_observe hstart hother]
    exact (h.logins u s' account hs haccount).mono (h.stay hnext) (System.clock_le_of_next _ hnext)

theorem Watching.next (h : Watching security settings email c w) {l : Label Operation User}
    (hcounts : Identity.counts email (c, w) l = true)
    (hnext : (identity security settings).next c l = some c') :
    Watching security settings email c' (w.observe email c c' l) := by
  have hsound := h.sound.next (sessionProtocol_governs security settings) hnext
  exact ⟨hsound, h.framed.next frame_spares (fun op hop => spares_serve hop) trivial hnext,
    h.counted hcounts hsound.inv hnext, fun _ _ _ hs haccount => h.follows hnext hs haccount⟩

end Steps

theorem watching_start (email : String) :
    Watching security settings email (.idle Db.empty) .start where
  sound := Config.sound_idle linked_empty
  framed := fun _ _ hs => nomatch hs
  counts :=
    { counted := Or.inl rfl
      enough := fun _ huser => absurd huser List.not_mem_nil
      known := fun hne => absurd rfl hne
      locked := fun _ _ hlock => nomatch hlock }
  logins := fun _ _ _ hs => nomatch hs

/-- An account that is locked refuses logins. -/
theorem refusedUntil_of_locked {db : Db} (h : Linked db) {user : User} (huser : user ∈ db.users)
    (hdeleted : user.deletedAt = none) {until' : Nat} (huntil : user.lockedUntil = some until')
    (security : Security) (settings : Settings) (password : String) (client : ClientInfo) :
    RefusedUntil until' db (login security settings user.email password client) := by
  have hfound : getByEmail user.email db = some user := by
    cases hget : getByEmail user.email db with
    | none =>
      have hnot := List.find?_eq_none.1 hget user huser
      simp [hdeleted] at hnot
    | some found =>
      have hsome := List.find?_some hget
      rw [Bool.and_eq_true, beq_iff_eq] at hsome
      rw [h.eq_of_email (List.mem_of_find?_eq_some hget) huser hsome.1]
  refine ⟨_, rfl, ?_⟩
  dsimp only [Txn.bind]
  rw [hfound]
  refine ⟨_, rfl, fun now hnow => ?_⟩
  have hlocked : user.lockedUntil.any (now < ·) = true := by
    rw [huntil]
    exact decide_eq_true hnow
  change (if user.lockedUntil.any (now < ·) then _ else _) = _
  rw [if_pos hlocked]

/-- No failed login is forgotten, in any state of any run in which each failed login of the account
is committed over a counter that is not above the one it read. -/
theorem lockout_of_run (security : Security) (settings : Settings) (email : String)
    {c : IdentityConfig} {w : Watch}
    (h : (watched security settings email).RunOf (fun x l => counts email x l = true)
      (.idle Db.empty, .start) (c, w)) : Lockout settings email c w := by
  have hstep : ∀ (x : IdentityConfig × Watch) l y, Watching security settings email x.1 x.2 →
      counts email x l = true → (watched security settings email).next x l = some y →
      Watching security settings email y.1 y.2 := by
    rintro ⟨c, w⟩ l y hx hcounts hnext
    obtain ⟨c', hc', rfl⟩ := Option.map_eq_some_iff.1 hnext
    exact hx.next hcounts hc'
  have hwatching := h.preserves hstep (watching_start email)
  refine ⟨hwatching.counts.counted, hwatching.counts.locked, ?_⟩
  rintro user huser rfl hdeleted until' huntil security' password client
  exact refusedUntil_of_locked hwatching.sound.inv huser hdeleted huntil security' settings password
    client

/-- Login `t` with a wrong password, up to its commit. -/
def wrongPassword (t : Nat) : List (Label Operation User) :=
  session t (.login "admin@transfleet.com" "12345" sampleClient) [0, 0, 0, 0, 0, 0, 0]

/-- An admin's account is seeded. -/
def adminAccount : Label Operation User :=
  .env (sampleUser 1 "admin@transfleet.com" .admin)

/-- Identity, with the logins to this account watched. -/
abbrev watchedAdmin : Machine (IdentityConfig × Watch) (Label Operation User) :=
  watched sampleSecurity sampleSettings "admin@transfleet.com"

/-- What a run shows: the failures since the last lock, the last lock, and the state of the lock. -/
def lockState (x : IdentityConfig × Watch) : Nat × Option (Nat × Nat) × List (Option Nat) :=
  (x.2.failures, x.2.lock, x.1.db.users.map (·.lockedUntil))

/-- Five failures in turn lock the account. -/
theorem lockout_in_turn : ∃ c w,
    watchedAdmin.RunOf (fun x l => counts "admin@transfleet.com" x l = true)
      (.idle Db.empty, .start) (c, w) ∧ lockState (c, w) = (0, some (7, 7), [some 907]) ∧
    Lockout sampleSettings "admin@transfleet.com" c w := by
  have hrun : (watchedAdmin.execOf (fun x l => counts "admin@transfleet.com" x l = true)
      (.idle Db.empty, .start) (adminAccount :: .tick 7 :: (wrongPassword 0 ++ wrongPassword 1 ++
        wrongPassword 2 ++ wrongPassword 3 ++ wrongPassword 4))).map lockState =
      some (0, some (7, 7), [some 907]) := by
    decide +kernel
  obtain ⟨⟨c, w⟩, hc, hstate⟩ := Option.map_eq_some_iff.1 hrun
  have hrunOf := Machine.runOf_of_execOf _ hc
  exact ⟨c, w, hrunOf, hstate, lockout_of_run sampleSecurity sampleSettings _ hrunOf⟩

/-- Five failures of which the first two overlap: both read the counter before either is
committed. -/
def overlapping : List (Label Operation User) :=
  adminAccount :: [.start 0 (.login "admin@transfleet.com" "12345" sampleClient), .step 0 0] ++
    wrongPassword 1 ++ List.replicate 6 (.step 0 0) ++ wrongPassword 2 ++ wrongPassword 3 ++
    wrongPassword 4

/-- Five failed logins have been committed, and the account is not locked. -/
theorem not_counted : ∃ c w, watchedAdmin.Run (.idle Db.empty, .start) (c, w) ∧
    lockState (c, w) = (5, none, [none]) ∧
    ¬ Lockout sampleSettings "admin@transfleet.com" c w := by
  have hrun : (watchedAdmin.exec (.idle Db.empty, .start) overlapping).map lockState =
      some (5, none, [none]) := by
    decide +kernel
  obtain ⟨⟨c, w⟩, hc, hstate⟩ := Option.map_eq_some_iff.1 hrun
  refine ⟨c, w, Machine.run_of_exec _ hc, hstate, fun hlockout => ?_⟩
  have hfailures : w.failures = 5 := congrArg Prod.fst hstate
  have hmax : sampleSettings.maxFailedLoginAttempts = 5 := rfl
  have := hlockout.counted
  omega

end SmartLogistics.Identity
