import SmartLogistics.Library.Frame
import SmartLogistics.Identity.Revocation

/-!
# What an inactive account can still do

`get_current_user` reads the account, and refuses one that is suspended, deactivated, pending or
soft-deleted. `AdminPrincipal` reads the role of the token only, so an inactive account with an
unexpired admin token still writes through the eight endpoints it guards: it can even restore itself
(`not_powerless`). `powerless` says exactly which requests of an inactive account change a user or
an assignment.
-/

set_option autoImplicit false

namespace SmartLogistics.Identity

open SmartLogistics.Library SmartLogistics.Platform

variable {security : Security} {settings : Settings}

/-- The caller of a request that carries an access token. -/
def Operation.caller : Operation → Option Principal
  | .login .. | .refresh .. | .process .. => none
  | .logout principal _ | .sessions principal | .me principal | .createUser principal _
  | .listUsers principal _ | .updateMe principal _ | .changePassword principal _
  | .getUser principal _ | .updateUser principal _ _ | .changeRole principal _ _
  | .changeStatus principal _ _ | .restoreUser principal _ | .deleteUser principal _
  | .listAssignments principal _ | .assignWarehouse principal _ _ _
  | .unassignWarehouse principal _ _ => some principal

/-- The endpoints that write behind `AdminPrincipal`. -/
def Operation.adminWrite : Operation → Bool
  | .createUser .. | .updateUser .. | .changeRole .. | .changeStatus .. | .restoreUser ..
  | .deleteUser .. | .assignWarehouse .. | .unassignWarehouse .. => true
  | _ => false

/-- The request of an admin has something to write in the state `db`, where the ids it draws start
at `ids`. -/
def Effective (ids : Nat) (db : Db) : Operation → Prop
  | .createUser _ payload =>
    payload.email ∉ db.users.map (·.email) ∧ ids + 1 ∉ db.users.map (·.id)
  | .updateUser _ userId payload => ∃ user, getUser userId false db = some user ∧
    payload.fullName ≠ some none ∧ user.update payload ≠ user
  | .changeRole principal userId payload => ∃ user, getUser userId false db = some user ∧
    user.id ≠ principal.userId ∧ payload.role ≠ user.role
  | .changeStatus principal userId payload => ∃ user, getUser userId false db = some user ∧
    user.id ≠ principal.userId ∧ payload.status ≠ user.status
  | .restoreUser _ userId => ∃ user, getUser userId true db = some user ∧ user.restore ≠ user
  | .deleteUser principal userId => ∃ user, getUser userId false db = some user ∧
    user.id ≠ principal.userId
  | .assignWarehouse _ userId warehouseId answer => ∃ user, getUser userId false db = some user ∧
    user.role = .warehouseOperator ∧ answer = .ok () ∧ ids ∉ db.assignments.map (·.id) ∧
      findAssignment userId warehouseId db = none
  | .unassignWarehouse _ userId warehouseId => ∃ user, getUser userId false db = some user ∧
    findAssignment userId warehouseId db ≠ none
  | _ => False

/-- `users` has no active account `userId`: it is suspended, deactivated, pending or
soft-deleted. -/
def Inactive (userId : Nat) (db : Db) : Prop :=
  ∀ user ∈ db.users, user.id = userId → user.isActive = false

instance (userId : Nat) (db : Db) : Decidable (Inactive userId db) :=
  inferInstanceAs (Decidable (∀ user ∈ db.users, _))

/-- No user row and no warehouse assignment is different. -/
structure Unchanged (db db' : Db) : Prop where
  users : db'.users = db.users
  assignments : db'.assignments = db.assignments

theorem Unchanged.refl (db : Db) : Unchanged db db := ⟨rfl, rfl⟩

theorem frame_unchanged (userId : Nat) : Frame (Inactive userId) Unchanged where
  refl := .refl
  trans := fun h h' => ⟨h'.users.trans h.users, h'.assignments.trans h.assignments⟩
  keeps := by
    intro a b h hinactive
    rw [Inactive, h.users]
    exact hinactive

/-! ## The gates -/

section Gates

variable {I : Db → Prop}

/-- The role gate refuses whoever is no admin. -/
theorem requireAdmin_of_ne {principal : Principal} (h : principal.role ≠ .admin) :
    ∃ error, requireAdmin principal = .raise error := by
  obtain ⟨error, hrefused⟩ : ∃ error, principal.require [.admin] = .error error :=
    ⟨_, if_neg (by simpa using h)⟩
  exact ⟨.domain error, by rw [requireAdmin, hrefused]; rfl⟩

theorem requireAdmin_of_eq {principal : Principal} (h : principal.role = .admin) :
    requireAdmin principal = .pure () := by
  have hpassed : principal.require [.admin] = .ok () := if_pos (by simp [h])
  rw [requireAdmin, hpassed]
  rfl

/-- The account gate refuses an inactive account, whatever comes after it. -/
theorem frames_getCurrentUser {principal : Principal} {P : Db → Db → Prop}
    {f : User → IdentityTxn Outcome} :
    ((getCurrentUser principal).bind f).Frames (Inactive principal.userId) P := by
  intro db hinactive
  cases hfound : (getUser principal.userId false db).filter (·.isActive) with
  | none =>
    simp only [Txn.bind, hfound]
    trivial
  | some user =>
    have hactive : user.isActive = true := by
      simpa using (Option.filter_eq_some_iff.1 hfound).2
    have hget := Option.eq_some_of_filter_eq_some
      (Option.eq_some_of_filter_eq_some hfound)
    obtain ⟨hmem, hid⟩ := Table.mem_of_lookup hget
    rw [hinactive user hmem hid] at hactive
    cases hactive

theorem frames_revokeAll (userId : Nat) : (revokeAll userId).Frames I Unchanged := by
  refine Txn.Frames.bind (fun _ => trivial) fun now => ?_
  refine Txn.Frames.bind (Txn.frames_selectForUpdate _ _ _ _) fun rows => ?_
  refine Txn.Frames.bind (Txn.frames_write fun db db' hdb' => ?_) fun _ => trivial
  obtain ⟨rfl, -⟩ := Db.check_eq_ok.1 hdb'
  exact ⟨rfl, rfl⟩

theorem frames_logout (rawToken userId : Nat) :
    (logout security rawToken userId).Frames I Unchanged := by
  refine Txn.Frames.bind (Txn.frames_select _) fun found => ?_
  cases found.filter (·.userId == userId) with
  | none => trivial
  | some stored =>
    simp only
    split
    · trivial
    · refine Txn.Frames.bind (fun _ => trivial) fun now => ?_
      refine Txn.Frames.bind (x := Txn.lock _ (.pure ())) trivial fun _ => ?_
      refine Txn.Frames.bind (Txn.frames_write fun db db' hdb' => ?_) fun _ => trivial
      obtain ⟨rfl, -⟩ := Db.check_eq_ok.1 hdb'
      exact ⟨rfl, rfl⟩

/-- The requests of an inactive account write no user and no assignment, those apart that only an
admin token opens. -/
theorem frames_serve {op : Operation} {principal : Principal} (hcaller : op.caller = some principal)
    (hgate : ¬ (principal.role = .admin ∧ op.adminWrite)) :
    (serve security settings op).Frames (Inactive principal.userId) Unchanged := by
  have hshut : op.adminWrite = true → ∀ f : Unit → IdentityTxn Outcome,
      ((requireAdmin principal).bind f).Frames (Inactive principal.userId) Unchanged := by
    intro hop f
    obtain ⟨error, herror⟩ := requireAdmin_of_ne fun hrole => hgate ⟨hrole, hop⟩
    rw [herror]
    trivial
  cases op with
  | login | refresh | process => cases hcaller
  | logout _ rawToken =>
    cases hcaller
    cases rawToken with
    | none => exact (frames_revokeAll _).bind fun _ => trivial
    | some rawToken => exact frames_logout _ _
  | sessions =>
    cases hcaller
    exact Txn.Frames.bind (fun _ => trivial) fun now => (Txn.frames_select _).bind fun _ => trivial
  | me | updateMe | changePassword =>
    cases hcaller
    exact frames_getCurrentUser
  | listUsers =>
    cases hcaller
    exact (Txn.frames_ofExcept _).bind fun _ => (Txn.frames_select _).bind fun _ =>
      (Txn.frames_select _).bind fun _ => trivial
  | getUser _ userId =>
    cases hcaller
    refine (Txn.frames_ofExcept _).bind fun _ => Txn.Frames.bind ?_ fun _ => trivial
    refine (Txn.frames_select _).bind fun found => ?_
    cases found <;> trivial
  | listAssignments _ userId =>
    cases hcaller
    refine (Txn.frames_ofExcept _).bind fun _ => Txn.Frames.bind ?_ fun _ =>
      (Txn.frames_select _).bind fun _ => trivial
    refine (Txn.frames_select _).bind fun found => ?_
    cases found <;> trivial
  | createUser | updateUser | changeRole | changeStatus | restoreUser | deleteUser
    | assignWarehouse | unassignWarehouse =>
    cases hcaller
    exact hshut rfl _

end Gates

/-! ## The statements of a request that runs alone -/

section Alone

variable {base db : Db} {now ids : Nat}

theorem commit_requireUser_none {β : Type} {userId : Nat} {f : User → IdentityTxn β}
    (h : getUser userId false db = none) :
    ((requireUser userId).bind f).commit base now ids db = base := by
  refine Txn.commit_bind_error (e := .domain (notFoundError "User not found.")) ?_
  rw [requireUser, Txn.bind_eq, Txn.runAlone_select_bind, h]
  rfl

theorem commit_requireUser_some {β : Type} {userId : Nat} {user : User} {f : User → IdentityTxn β}
    (h : getUser userId false db = some user) :
    ((requireUser userId).bind f).commit base now ids db = (f user).commit base now ids db := by
  refine Txn.commit_bind ?_
  rw [requireUser, Txn.bind_eq, Txn.runAlone_select_bind, h]
  rfl

/-- A checked write that breaks no constraint. -/
theorem commit_checked {β : Type} {g : Db → Db} {f : Unit → IdentityTxn β}
    (h : (g db).violated = none) :
    ((Txn.write fun db => (g db).check).bind f).commit base now ids db =
      (f ()).commit base now ids (g db) :=
  Txn.commit_write (Db.check_eq_ok.2 ⟨rfl, h⟩)

/-- A checked write that breaks one. -/
theorem commit_refused {β : Type} {g : Db → Db} {f : Unit → IdentityTxn β}
    (h : (g db).violated ≠ none) :
    ((Txn.write fun db => (g db).check).bind f).commit base now ids db = base := by
  obtain ⟨error, herror⟩ := Option.ne_none_iff_exists'.1 h
  refine Txn.commit_write_error (e := .integrity error) ?_
  rw [Db.check, herror]

/-- The state after an `UPDATE` that revokes the open sessions of a user. -/
def Db.revokeOpen (userId now : Nat) (db : Db) : Db :=
  db.writeTokens ((Table.rowsWhere RefreshToken.id (isOpenFor userId) db.refreshTokens).map (·.id))
    (RefreshToken.revoke now)

theorem Db.violated_revokeOpen (userId now : Nat) (db : Db) :
    (db.revokeOpen userId now).violated = db.violated :=
  Db.violated_writeTokens db _ fun _ => ⟨rfl, rfl, rfl⟩

/-- Revoking the sessions of a user, run alone. -/
theorem runAlone_revokeAll (userId : Nat) (h : db.violated = none) : ∃ count,
    (revokeAll userId).runAlone now ids db = .ok (count, db.revokeOpen userId now, ids) := by
  refine ⟨(Table.rowsWhere RefreshToken.id (isOpenFor userId) db.refreshTokens).length, ?_⟩
  have hcheck : (db.revokeOpen userId now).check = .ok _ :=
    Db.check_eq_ok.2 ⟨rfl, (Db.violated_revokeOpen userId now db).trans h⟩
  simp only [revokeAll, Txn.bind_eq, Txn.runAlone_bind, Txn.now, Txn.runAlone,
    Txn.runAlone_selectForUpdate, Except.bind, Txn.write, Txn.pure_eq]
  rw [Db.revokeOpen] at hcheck
  rw [hcheck]
  rfl

/-- Revoking sessions touches no user and no assignment. -/
theorem commit_revokeAll {β : Type} {userId : Nat} {f : Nat → IdentityTxn β}
    (h : db.violated = none) : ∃ count db', Unchanged db db' ∧ db'.violated = none ∧
      ((revokeAll userId).bind f).commit base now ids db = (f count).commit base now ids db' := by
  obtain ⟨count, hrun⟩ := runAlone_revokeAll userId h
  exact ⟨count, db.revokeOpen userId now, ⟨rfl, rfl⟩, (Db.violated_revokeOpen ..).trans h,
    Txn.commit_bind hrun⟩

/-- A user in memory that differs from what was loaded in columns a flush writes. -/
structure User.Edited (loaded user : User) : Prop where
  id : user.id = loaded.id
  email : user.email = loaded.email
  courierId : user.courierId = loaded.courierId
  createdAt : user.createdAt = loaded.createdAt
  updatedAt : user.updatedAt = loaded.updatedAt

/-- On the row that was loaded, the `UPDATE` writes the whole object. -/
theorem User.Edited.writeChanged {loaded user : User} (h : loaded.Edited user) :
    loaded.writeChanged { user with updatedAt := now } loaded = { user with updatedAt := now } := by
  obtain ⟨hid, hemail, hcourier, hcreated, -⟩ := h
  have hcolumn : ∀ {β : Type} [DecidableEq β] (x y : β), (if x = y then x else y) = y :=
    fun x y => by split <;> simp_all
  simp only [User.writeChanged, hcolumn, ← hid, ← hemail, ← hcourier, ← hcreated]

/-- A flush sends an `UPDATE` exactly when something changed, and then the row is different. -/
theorem unchanged_flushUser {β : Type} {loaded user : User} {f : User → IdentityTxn β}
    (hf : ∀ user' db', Unchanged db' ((f user').commit base now ids db'))
    (hbase : Unchanged base db)
    (hchecked : db.violated = none) (hloaded : loaded ∈ db.users) (h : loaded.Edited user) :
    Unchanged base (((flushUser loaded user).bind f).commit base now ids db) ↔ user = loaded := by
  have hframe := frame_unchanged loaded.id
  by_cases heq : user = loaded
  · rw [flushUser, if_pos heq]
    exact iff_of_true (hframe.trans hbase (hf user db)) heq
  · refine iff_of_false (fun hsame => ?_) heq
    have hcheck : (db.writeUser loaded { user with updatedAt := now }).check = .ok _ :=
      Db.check_eq_ok.2 ⟨rfl, (Db.violated_writeUser ..).trans hchecked⟩
    have hrun : (flushUser loaded user).runAlone now ids db =
        .ok ({ user with updatedAt := now }, db.writeUser loaded { user with updatedAt := now },
          ids) := by
      rw [flushUser, if_neg heq]
      simp only [Txn.bind_eq, Txn.runAlone_bind, Txn.now, Txn.runAlone, Except.bind, Txn.write,
        hcheck, Txn.pure_eq]
    rw [Txn.commit_bind hrun] at hsame
    have husers := (hf { user with updatedAt := now }
      (db.writeUser loaded { user with updatedAt := now })).users
    rw [hsame.users, ← hbase.users] at husers
    -- the row that was loaded is rewritten to something else
    have hrow := List.map_eq_map_iff.1 (husers.symm.trans (List.map_id _).symm) loaded hloaded
    simp only [if_true, h.writeChanged, id_eq] at hrow
    have hupdated : now = loaded.updatedAt := congrArg User.updatedAt hrow
    rw [hupdated, ← h.updatedAt] at hrow
    exact heq hrow

end Alone

/-! ## The admin requests -/

section Requests

variable {db : Db} {now ids : Nat} (hchecked : db.violated = none)
include hchecked

omit hchecked in
theorem getUser_eq_some {userId : Nat} {includeDeleted : Bool} {user : User}
    (h : getUser userId includeDeleted db = some user) : user ∈ db.users ∧ user.id = userId :=
  Table.mem_of_lookup (Option.eq_some_of_filter_eq_some h)

/-- After a flush a request stages an event and answers. -/
theorem unchanged_flush_emit {base : Db} {loaded user : User} {eventType : String}
    {extra : EventExtra} {answer : User → Outcome} (hbase : Unchanged base db)
    (hloaded : loaded ∈ db.users) (h : loaded.Edited user) :
    Unchanged base (((flushUser loaded user).bind fun user =>
      (emit eventType user extra).bind fun _ => .pure (answer user)).commit base now ids db) ↔
        user = loaded :=
  unchanged_flushUser (fun _ _ => ⟨rfl, rfl⟩) hbase hchecked hloaded h

theorem createUser_unchanged (payload : UserCreate) :
    Unchanged db ((createUser security payload).after now ids db) ↔
      ¬ (payload.email ∉ db.users.map (·.email) ∧ ids + 1 ∉ db.users.map (·.id)) := by
  let user := newUser security payload (ids + 1) ids now
  have hnew : (db.insertUser user).violated = none ↔ _ := Db.violated_insertUser hchecked rfl
  -- the salt and the id have been drawn, and the clock read
  change Unchanged db (((Txn.write fun db => (db.insertUser user).check).bind fun _ =>
    (emit "user.created" user .none).bind fun _ => .pure (Outcome.user user.read)).commit db now
      (ids + 2) db) ↔ _
  by_cases hviolated : (db.insertUser user).violated = none
  · obtain ⟨hid, hemail⟩ := hnew.1 hviolated
    rw [commit_checked hviolated]
    refine iff_of_false (fun hsame => ?_) (not_not_intro ⟨hemail, hid⟩)
    have husers : db.users ++ [user] = db.users := hsame.users
    exact absurd (congrArg List.length husers) (by simp)
  · rw [commit_refused hviolated]
    exact iff_of_true (.refl db) fun hfree => hviolated (hnew.2 ⟨hfree.2, hfree.1⟩)

omit hchecked in
/-- A request that begins with `requireUser` does nothing where there is no such user. -/
theorem unchanged_requireUser {userId : Nat} {f : User → IdentityTxn Outcome} {E : User → Prop}
    (h : ∀ user, getUser userId false db = some user →
      (Unchanged db ((f user).commit db now ids db) ↔ ¬ E user)) :
    Unchanged db (((requireUser userId).bind f).after now ids db) ↔
      ¬ ∃ user, getUser userId false db = some user ∧ E user := by
  rw [Txn.after]
  cases hfound : getUser userId false db with
  | none =>
    rw [commit_requireUser_none hfound]
    exact iff_of_true (.refl db) (by rintro ⟨user, hsome, -⟩; cases hsome)
  | some user =>
    rw [commit_requireUser_some hfound, h user hfound]
    simp

/-- The sessions of the user go, then the row is flushed. -/
theorem unchanged_revoke_flush {loaded user : User} {eventType : String} {extra : EventExtra}
    {answer : User → Outcome} (hloaded : loaded ∈ db.users) (h : loaded.Edited user) :
    Unchanged db (((revokeAll loaded.id).bind fun _ => (flushUser loaded user).bind fun user =>
      (emit eventType user extra).bind fun _ => .pure (answer user)).commit db now ids db) ↔
        user = loaded := by
  obtain ⟨count, db', hsame, hchecked', hcommit⟩ := commit_revokeAll hchecked
  rw [hcommit]
  exact unchanged_flush_emit hchecked' hsame (hsame.users ▸ hloaded) h

theorem updateUser_unchanged (userId : Nat) (payload : UserUpdate) :
    Unchanged db
      (((requireUser userId).bind fun user => updateProfile user payload).after now ids db)
      ↔ ¬ ∃ user, getUser userId false db = some user ∧
        payload.fullName ≠ some none ∧ user.update payload ≠ user := by
  refine unchanged_requireUser fun user hfound => ?_
  have hmem := (getUser_eq_some hfound).1
  rw [updateProfile]
  by_cases hname : payload.fullName = some none
  · rw [if_pos hname]
    exact iff_of_true (.refl db) fun h => h.1 hname
  · rw [if_neg hname]
    have hedited : user.Edited (user.update payload) := ⟨rfl, rfl, rfl, rfl, rfl⟩
    refine (unchanged_flush_emit hchecked (.refl db) hmem hedited).trans ?_
    simp [hname]

theorem changeRole_unchanged (userId actorId : Nat) (payload : UserRoleUpdate) :
    Unchanged db ((changeRole userId payload actorId).after now ids db) ↔
      ¬ ∃ user, getUser userId false db = some user ∧
        user.id ≠ actorId ∧ payload.role ≠ user.role := by
  refine unchanged_requireUser fun user hfound => ?_
  have hmem := (getUser_eq_some hfound).1
  by_cases hself : user.id = actorId
  · rw [if_pos hself]
    exact iff_of_true (.refl db) fun h => h.1 hself
  · rw [if_neg hself]
    have hedited : user.Edited { user with role := payload.role } := ⟨rfl, rfl, rfl, rfl, rfl⟩
    refine (unchanged_revoke_flush hchecked hmem hedited).trans ?_
    have hrow : { user with role := payload.role } = user ↔ payload.role = user.role :=
      ⟨fun h => congrArg User.role h, fun h => by rw [h]⟩
    simp [hself, hrow]

theorem changeStatus_unchanged (userId actorId : Nat) (payload : UserStatusUpdate) :
    Unchanged db ((changeStatus userId payload actorId).after now ids db) ↔
      ¬ ∃ user, getUser userId false db = some user ∧
        user.id ≠ actorId ∧ payload.status ≠ user.status := by
  refine unchanged_requireUser fun user hfound => ?_
  have hmem := (getUser_eq_some hfound).1
  by_cases hself : user.id = actorId
  · rw [if_pos hself]
    exact iff_of_true (.refl db) fun h => h.1 hself
  · rw [if_neg hself]
    have hedited : user.Edited { user with status := payload.status } := ⟨rfl, rfl, rfl, rfl, rfl⟩
    have hrow : { user with status := payload.status } = user ↔ payload.status = user.status :=
      ⟨fun h => congrArg User.status h, fun h => by rw [h]⟩
    have hnot : payload.status = user.status ↔
        ¬ (user.id ≠ actorId ∧ payload.status ≠ user.status) := by simp [hself]
    by_cases hactive : payload.status = .active
    · rw [if_neg (not_not_intro hactive)]
      exact (unchanged_flush_emit hchecked (.refl db) hmem hedited).trans (hrow.trans hnot)
    · rw [if_pos hactive]
      exact (unchanged_revoke_flush hchecked hmem hedited).trans (hrow.trans hnot)

theorem deleteUser_unchanged (userId actorId : Nat) :
    Unchanged db ((delete userId actorId).after now ids db) ↔
      ¬ ∃ user, getUser userId false db = some user ∧ user.id ≠ actorId := by
  refine unchanged_requireUser fun user hfound => ?_
  have hmem := (getUser_eq_some hfound).1
  by_cases hself : user.id = actorId
  · rw [if_pos hself]
    exact iff_of_true (.refl db) fun h => h hself
  · rw [if_neg hself]
    have hedited : user.Edited
        { user with status := .deactivated, deletedAt := some now, deletedBy := some actorId } :=
      ⟨rfl, rfl, rfl, rfl, rfl⟩
    -- the row was not deleted, or it would not have been found
    have hlive : user.deletedAt = none := by
      simpa using (Option.filter_eq_some_iff.1 hfound).2
    refine iff_of_false (fun hsame => ?_) (not_not_intro hself)
    have hrow := (unchanged_revoke_flush hchecked hmem hedited).1 hsame
    rw [← congrArg User.deletedAt hrow] at hlive
    cases hlive

theorem restoreUser_unchanged (userId : Nat) :
    Unchanged db ((restore userId).after now ids db) ↔
      ¬ ∃ user, getUser userId true db = some user ∧ user.restore ≠ user := by
  rw [Txn.after]
  cases hfound : getUser userId true db with
  | none =>
    have hrun : (restore userId).commit db now ids db = db := by
      simp only [restore, Txn.bind_eq, Txn.select, Txn.bind, Txn.commit, Txn.runAlone, hfound]
    rw [hrun]
    exact iff_of_true (.refl db) (by rintro ⟨user, hsome, -⟩; cases hsome)
  | some user =>
    have hrun : (restore userId).commit db now ids db =
        ((flushUser user user.restore).bind fun user =>
          (emit "user.restored" user .none).bind fun _ => .pure (Outcome.user user.read)).commit db
            now ids db := by
      simp only [restore, Txn.bind_eq, Txn.select, Txn.bind, Txn.commit, Txn.runAlone, hfound]
      rfl
    rw [hrun]
    have hedited : user.Edited user.restore := ⟨rfl, rfl, rfl, rfl, rfl⟩
    refine (unchanged_flush_emit hchecked (.refl db) (getUser_eq_some hfound).1 hedited).trans ?_
    simp

omit hchecked in
/-- A pair is assigned if its row is found. -/
theorem findAssignment_eq_none {userId warehouseId : Nat} :
    findAssignment userId warehouseId db = none ↔
      (userId, warehouseId) ∉ db.assignments.map fun a => (a.userId, a.warehouseId) := by
  simp [findAssignment]

theorem assignWarehouse_unchanged (userId warehouseId : Nat) (answer : Except Failure Unit) :
    Unchanged db ((assignWarehouse userId warehouseId answer).after now ids db) ↔
      ¬ ∃ user, getUser userId false db = some user ∧ user.role = .warehouseOperator ∧
        answer = .ok () ∧ ids ∉ db.assignments.map (·.id) ∧
          findAssignment userId warehouseId db = none := by
  refine unchanged_requireUser fun user hfound => ?_
  obtain ⟨hmem, rfl⟩ := getUser_eq_some hfound
  by_cases hrole : user.role = .warehouseOperator
  · rw [if_neg (not_not_intro hrole)]
    cases answer with
    | error failure => exact iff_of_true (.refl db) (by rintro ⟨-, hanswer, -⟩; cases hanswer)
    | ok answered =>
      let assignment : UserWarehouseAssignment :=
        { id := ids, userId := user.id, warehouseId := warehouseId, createdAt := now }
      have hnew : (db.insertAssignment assignment).violated = none ↔ _ :=
        Db.violated_insertAssignment hchecked (List.mem_map_of_mem hmem)
      -- the Warehouse service has answered, the id has been drawn, and the clock read
      change Unchanged db
        (((Txn.write fun db => (db.insertAssignment assignment).check).bind fun _ =>
        (revokeAll user.id).bind fun _ => (emit "user.scope_changed" user
          (.addedWarehouse warehouseId)).bind fun _ => .pure (Outcome.assignment assignment)).commit
            db now (ids + 1) db) ↔ _
      by_cases hviolated : (db.insertAssignment assignment).violated = none
      · obtain ⟨hid, hpair⟩ := hnew.1 hviolated
        rw [commit_checked hviolated]
        obtain ⟨count, db', hsame', -, hcommit⟩ := commit_revokeAll hviolated
        rw [hcommit]
        refine iff_of_false (fun hsame => ?_)
          (not_not_intro ⟨hrole, rfl, hid, findAssignment_eq_none.2 hpair⟩)
        have hassigned : db'.assignments = db.assignments := hsame.assignments
        have hgrown : db'.assignments = db.assignments ++ [assignment] := hsame'.assignments
        exact absurd (congrArg List.length (hgrown.symm.trans hassigned)) (by simp)
      · rw [commit_refused hviolated]
        exact iff_of_true (.refl db) fun hfree =>
          hviolated (hnew.2 ⟨hfree.2.2.1, findAssignment_eq_none.1 hfree.2.2.2⟩)
  · rw [if_pos hrole]
    exact iff_of_true (.refl db) fun h => hrole h.1

theorem unassignWarehouse_unchanged (userId warehouseId : Nat) :
    Unchanged db ((unassignWarehouse userId warehouseId).after now ids db) ↔
      ¬ ∃ user, getUser userId false db = some user ∧
        findAssignment userId warehouseId db ≠ none := by
  refine unchanged_requireUser fun user hfound => ?_
  rw [Txn.bind_eq, Txn.commit_select]
  cases hassigned : findAssignment userId warehouseId db with
  | none => exact iff_of_true (.refl db) (not_not_intro rfl)
  | some assignment =>
    refine iff_of_false (fun hsame => ?_) (not_not_intro (Option.some_ne_none _))
    simp only [Txn.bind_eq] at hsame
    obtain ⟨count, db', hsame', hchecked', hcommit⟩ := commit_revokeAll hchecked
    rw [hcommit] at hsame
    -- its row is locked
    change Unchanged db (((Txn.write fun db => (db.deleteAssignments [assignment.id]).check).bind
      fun _ => (emit "user.scope_changed" user (.removedWarehouse warehouseId)).bind fun _ =>
        .pure Outcome.noContent).commit db now ids db') at hsame
    rw [commit_checked (Db.violated_deleteAssignments hchecked' _)] at hsame
    have hkept : db'.assignments.filter (fun row => !([assignment.id].contains row.id)) =
      db.assignments := hsame.assignments
    rw [hsame'.assignments] at hkept
    have hmem : assignment ∈ db.assignments := List.mem_of_find?_eq_some hassigned
    rw [← hkept, List.mem_filter] at hmem
    simp at hmem

/-- Behind the role gate, an admin request changes something exactly when it has something to
write. -/
theorem serve_unchanged {op : Operation} {principal : Principal}
    (hcaller : op.caller = some principal)
    (hrole : principal.role = .admin) (hop : op.adminWrite) :
    Unchanged db ((serve security settings op).after now ids db) ↔ ¬ Effective ids db op := by
  have hgate : ∀ f : Unit → IdentityTxn Outcome, (requireAdmin principal).bind f = f () := by
    intro f
    rw [requireAdmin_of_eq hrole]
    rfl
  cases op with
  | createUser =>
    cases hcaller
    simp only [serve, Txn.bind_eq, hgate]
    exact createUser_unchanged hchecked _
  | updateUser =>
    cases hcaller
    simp only [serve, Txn.bind_eq, hgate]
    exact updateUser_unchanged hchecked _ _
  | changeRole =>
    cases hcaller
    simp only [serve, Txn.bind_eq, hgate]
    exact changeRole_unchanged hchecked _ _ _
  | changeStatus =>
    cases hcaller
    simp only [serve, Txn.bind_eq, hgate]
    exact changeStatus_unchanged hchecked _ _ _
  | restoreUser =>
    cases hcaller
    simp only [serve, Txn.bind_eq, hgate]
    exact restoreUser_unchanged hchecked _
  | deleteUser =>
    cases hcaller
    simp only [serve, Txn.bind_eq, hgate]
    exact deleteUser_unchanged hchecked _ _
  | assignWarehouse =>
    cases hcaller
    simp only [serve, Txn.bind_eq, hgate]
    exact assignWarehouse_unchanged hchecked _ _ _
  | unassignWarehouse =>
    cases hcaller
    simp only [serve, Txn.bind_eq, hgate]
    exact unassignWarehouse_unchanged hchecked _ _
  | _ => cases hop

end Requests

/-! ## Inactive accounts -/

/-- An inactive account is powerless, unless its token carries the admin role and the request is one
of those that only the role guards: run alone in any reachable state, a request of the account
changes a user or an assignment exactly when it is such a request and has something to write; and as
long as the account stays inactive, no interleaving lets any other request of it change one. -/
theorem powerless (security : Security) (settings : Settings) {c : IdentityConfig}
    (hreach : (identity security settings).machine.Run (.idle Db.empty) c) (principal : Principal)
    (hinactive : Inactive principal.userId c.db) :
    (∀ op now ids, op.caller = some principal →
      (Unchanged c.db ((serve security settings op).after now ids c.db) ↔
        ¬ (principal.role = .admin ∧ op.adminWrite ∧ Effective ids c.db op))) ∧
    ((∀ t s, c.sessions t = some s → s.op.caller ≠ some principal) →
      ∀ c₁, (identity security settings).machine.RunOf
        (fun m _ => Inactive principal.userId m.db) c c₁ →
      ∀ t draw s c₂, c₁.sessions t = some s → s.op.caller = some principal →
        ¬ (principal.role = .admin ∧ s.op.adminWrite) →
        (identity security settings).next c₁ (.step t draw) = some c₂ → Unchanged c₁.db c₂.db) := by
  have hc : c.Sound (sessionProtocol security) :=
    sound_of_run (sessionProtocol_governs security settings) (Config.sound_idle linked_empty) hreach
  have hframe := frame_unchanged principal.userId
  refine ⟨fun op now ids hcaller => ?_, fun hfree c₁ hrun t draw s c₂ hs hcaller hgate hnext => ?_⟩
  · by_cases hgate : principal.role = .admin ∧ op.adminWrite
    · rw [serve_unchanged hc.inv.checked hcaller hgate.1 hgate.2]
      simp [hgate]
    · refine iff_of_true ((frames_serve hcaller hgate).after hframe hinactive) fun h => hgate ?_
      exact ⟨h.1, h.2.1⟩
  · -- the sessions of the account that were opened since
    let theirs := fun op : Operation =>
      op.caller = some principal ∧ ¬ (principal.role = .admin ∧ op.adminWrite)
    have hopened : System.Framed (Inactive principal.userId) Unchanged theirs c :=
      fun t s hs hop => absurd hop.1 (hfree t s hs)
    have hframed := System.framed_of_run hframe
      (fun op (hop : theirs op) => frames_serve hop.1 hop.2) hopened hrun
    exact hframed.step hframe hs ⟨hcaller, hgate⟩ hnext

/-! ## A suspended admin -/

/-- The admin of the samples has logged in; another admin suspends it. -/
def suspendedAdmin : List (Label Operation User) :=
  loggedIn ++ .env (sampleUser 2 "ops@transfleet.com" .admin) ::
    session 1 (.changeStatus { sampleAdmin with userId := 2 } 1 ⟨.suspended, none⟩)
      [0, 0, 0, 0, 0, 0, 0, 0, 0, 0, 0]

theorem powerless_after_suspension :
    Unchanged (stateAfter suspendedAdmin).db
      ((serve sampleSecurity sampleSettings (.deleteUser sampleAdmin 1)).after 0 300
        (stateAfter suspendedAdmin).db) ∧
    ¬ Unchanged (stateAfter suspendedAdmin).db
      ((serve sampleSecurity sampleSettings (.deleteUser sampleAdmin 2)).after 0 300
        (stateAfter suspendedAdmin).db) := by
  have hpowerless := (powerless sampleSecurity sampleSettings
    (Machine.run_of_exec _ (exec_stateAfter suspendedAdmin (by decide +kernel))) sampleAdmin
    (by decide +kernel)).1
  constructor
  · refine (hpowerless (.deleteUser sampleAdmin 1) 0 300 rfl).2 ?_
    rintro ⟨-, -, user, hfound, hother⟩
    exact hother (getUser_eq_some hfound).2
  · intro hsame
    obtain ⟨user, hfound⟩ := Option.isSome_iff_exists.1
      (by decide +kernel : (getUser 2 false (stateAfter suspendedAdmin).db).isSome)
    refine (hpowerless (.deleteUser sampleAdmin 2) 0 300 rfl).1 hsame ⟨rfl, rfl, user, hfound, ?_⟩
    rw [(getUser_eq_some hfound).2]
    decide

/-- An inactive account is not powerless: the suspended admin restores itself with the access token
of its login. -/
theorem not_powerless : ∃ c tokens user,
    (identity sampleSecurity sampleSettings).machine.exec (.idle Db.empty) suspendedAdmin = some c ∧
      Outcome.loggedIn tokens user ∈ ((identity sampleSecurity sampleSettings).answers
        (.idle Db.empty) suspendedAdmin).map (·.2) ∧
      c.clock < tokens.accessToken.exp ∧ Inactive tokens.accessToken.sub c.db ∧
      ¬ Unchanged c.db ((serve sampleSecurity sampleSettings
        (.restoreUser tokens.accessToken.principal tokens.accessToken.sub)).after c.clock 300
          c.db) := by
  have hrun := exec_stateAfter suspendedAdmin (by decide +kernel)
  let token : AccessToken :=
    { sub := 1, role := .admin, name := "Sample User", warehouseIds := [], courierId := none,
      iat := 0, exp := 900 }
  let user := { sampleUser 1 "admin@transfleet.com" .admin with lastLoginAt := some 0 }
  have hrestored : ((serve sampleSecurity sampleSettings (.restoreUser token.principal 1)).after
      (stateAfter suspendedAdmin).clock 300 (stateAfter suspendedAdmin).db).users ≠
        (stateAfter suspendedAdmin).db.users := by decide +kernel
  exact ⟨stateAfter suspendedAdmin, ⟨token, 50, 900⟩, user.read, hrun, by decide +kernel,
    by decide +kernel, by decide +kernel, fun hsame => hrestored hsame.users⟩

end SmartLogistics.Identity
