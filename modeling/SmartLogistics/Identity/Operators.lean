import SmartLogistics.Identity.Rotation
import SmartLogistics.Identity.Writes

/-!
# Scopes are for warehouse operators

`assign_warehouse` gives warehouses to operators only, but it reads the role without a lock before
it inserts the row, and `change_role` leaves the rows of a user who is an operator no more.

An observer notes for each session whether the role that it has read is out of date (`RoleRead`).
`operatorsOnly_of_run`: along runs in which a role other than operator is only committed for users
without assignments, and no `assign_warehouse` commits after such a role was committed for the user
it has read (`RolesHeld`), every assignment is of an operator, and no other user has any
(`OperatorsOnly`). `change_role` looks at no assignment (`not_operatorsOnly_after_change_role`).
-/

set_option autoImplicit false

namespace SmartLogistics.Identity

open SmartLogistics.Library SmartLogistics.Platform

/-- Every assignment is of a warehouse operator; so no other user has any. -/
structure OperatorsOnly (db : Db) : Prop where
  rows : ∀ a ∈ db.assignments,
    ∃ user ∈ db.users, user.id = a.userId ∧ user.role = .warehouseOperator
  others : ∀ user ∈ db.users, user.role ≠ .warehouseOperator →
    ∀ a ∈ db.assignments, a.userId ≠ user.id

/-- The user who is an operator no more when the operation commits. -/
def Operation.demotes (op : Operation) : Option Nat :=
  op.setsRole.bind fun (userId, role) => if role = .warehouseOperator then none else some userId

/-- What a session knows of the role of its user: it has not run a statement yet, or nobody has
made the user something else than an operator since its first statement, or somebody has. -/
inductive RoleRead
  | unread
  | current
  | outdated
  deriving DecidableEq

/-- The user whom a step makes something else than an operator, by a commit. -/
def demoted (c : Config Db Row Failure Outcome Operation) (l : Label Operation User) : Option Nat :=
  (c.delivered l).bind fun answered => answered.1.demotes

/-- The observer of the role reads. -/
def observeRoles (c : Config Db Row Failure Outcome Operation) (l : Label Operation User)
    (_ : Config Db Row Failure Outcome Operation) (reads : Nat → RoleRead) : Nat → RoleRead :=
  match l with
  | .start t _ => Function.update reads t .unread
  | .step t _ => fun u =>
    if u = t then if reads u = .unread then .current else reads u
    else if reads u = .current ∧ (demoted c l).isSome ∧
        ((c.sessions u).bind fun s => s.op.assigns) = demoted c l then .outdated
    else reads u
  | _ => reads

/-- Identity with the observer of the role reads. -/
def roleReads (security : Security) (settings : Settings) :
    Machine (Config Db Row Failure Outcome Operation × (Nat → RoleRead)) (Label Operation User) :=
  (identity security settings).machine.observed observeRoles

/-- A commit that makes a user something else than an operator finds no assignments of the user, and
one that gives a user a warehouse finds the role as it has read it. -/
def rolesHeld (x : Config Db Row Failure Outcome Operation × (Nat → RoleRead)) :
    Label Operation User → Bool
  | l@(.step t _) =>
    (demoted x.1 l).all (fun userId => x.1.db.assignments.all (·.userId != userId)) &&
    (x.1.delivered l).all fun answered => answered.1.assigns.isNone || x.2 t == .current
  | _ => true

/-- The condition on a step. -/
abbrev RolesHeld (x : Config Db Row Failure Outcome Operation × (Nat → RoleRead))
    (l : Label Operation User) : Prop :=
  rolesHeld x l = true

/-! ## What an operation does to roles and assignments -/

/-- Users keep their roles, except for the one that is set, and assignments are only made for the
user they are for. -/
structure RoleStep (op : Operation) (db db' : Db) : Prop where
  users : ∀ user ∈ db.users, ∃ user' ∈ db'.users, user'.id = user.id ∧
    (user'.role = user.role ∨ op.setsRole = some (user.id, user'.role))
  assignments : ∀ a ∈ db'.assignments, a ∈ db.assignments ∨ op.assigns = some a.userId
  checked : db.violated = none → db'.violated = none

theorem RoleStep.refl (op : Operation) (db : Db) : RoleStep op db db where
  users := fun user huser => ⟨user, huser, rfl, Or.inl rfl⟩
  assignments := fun _ ha => Or.inl ha
  checked := id

theorem RoleStep.trans {op : Operation} {a b c : Db} (h : RoleStep op a b) (h' : RoleStep op b c) :
    RoleStep op a c where
  users := by
    intro user huser
    obtain ⟨user', huser', hid, hrole⟩ := h.users user huser
    obtain ⟨user'', huser'', hid', hrole'⟩ := h'.users user' huser'
    refine ⟨user'', huser'', hid'.trans hid, ?_⟩
    rcases hrole' with hsame | hset
    · rcases hrole with hsame' | hset'
      · exact Or.inl (hsame.trans hsame')
      · exact Or.inr (hsame ▸ hset')
    · exact Or.inr (hid ▸ hset)
  assignments := by
    intro row hrow
    rcases h'.assignments row hrow with hrow' | hassigns
    · exact h.assignments row hrow'
    · exact Or.inr hassigns
  checked := fun ha => h'.checked (h.checked ha)

theorem frame_roleStep (op : Operation) : Frame (fun _ => True) (RoleStep op) where
  refl := RoleStep.refl op
  trans := RoleStep.trans
  keeps := fun _ h => h

/-- The writes an operation sends. -/
theorem accepts_roleStep (op : Operation) : Accepts op (RoleStep op) where
  sends := by
    intro g hg db hchecked
    cases hg with
    | writeUser loaded user hrole =>
      refine ⟨fun row hrow => ⟨_, List.mem_map_of_mem hrow, ?_⟩, fun _ ha => Or.inl ha,
        fun _ => hchecked⟩
      by_cases hid : row.id = loaded.id
      · rw [if_pos hid]
        refine ⟨rfl, ?_⟩
        by_cases hsame : loaded.role = user.role
        · -- the column is not written
          exact Or.inl (if_pos hsame)
        · have hset := hrole.resolve_left fun h => hsame h.symm
          have hwritten : (loaded.writeChanged user row).role = user.role := if_neg hsame
          rw [hwritten, hid]
          exact Or.inr hset
      · rw [if_neg hid]
        exact ⟨rfl, Or.inl rfl⟩
    | insertUser user =>
      refine ⟨fun row hrow => ⟨row, List.mem_append_left _ hrow, rfl, Or.inl rfl⟩,
        fun _ ha => Or.inl ha, fun _ => hchecked⟩
    | writeTokens ids set =>
      exact ⟨(RoleStep.refl op db).users, fun _ ha => Or.inl ha, fun _ => hchecked⟩
    | insertToken token =>
      exact ⟨(RoleStep.refl op db).users, fun _ ha => Or.inl ha, fun _ => hchecked⟩
    | insertAssignment assignment hassigns =>
      refine ⟨(RoleStep.refl op db).users, fun a ha => ?_, fun _ => hchecked⟩
      rcases List.mem_append.1 ha with ha | ha
      · exact Or.inl ha
      · rw [List.mem_singleton.1 ha]
        exact Or.inr hassigns
    | deleteAssignments ids _ =>
      exact ⟨(RoleStep.refl op db).users, fun _ ha => Or.inl (List.mem_filter.1 ha).1,
        fun _ => hchecked⟩
    | insertProcessed eventId _ =>
      exact ⟨(RoleStep.refl op db).users, fun _ ha => Or.inl ha, fun _ => hchecked⟩
  stage := fun _ db =>
    ⟨(RoleStep.refl op db).users, fun _ ha => Or.inl ha, fun hchecked => hchecked⟩

/-! ## What a run keeps -/

variable {security : Security} {settings : Settings}
  {c c' : Config Db Row Failure Outcome Operation}

/-- The assignments are those of operators, and the constraints hold. -/
structure Scoped (db : Db) : Prop where
  rows : ∀ a ∈ db.assignments,
    ∃ user ∈ db.users, user.id = a.userId ∧ user.role = .warehouseOperator
  checked : db.violated = none

/-- Ids are unique, so the owner of an assignment is the operator it was made for. -/
theorem Scoped.operatorsOnly {db : Db} (h : Scoped db) : OperatorsOnly db where
  rows := h.rows
  others := by
    intro user huser hrole a ha howner
    obtain ⟨operator, hoperator, hid, hoperates⟩ := h.rows a ha
    have hsame := (Db.unique_of_violated h.checked).users.eq_of_key hoperator huser
      (hid.trans howner)
    rw [hsame] at hoperates
    exact hrole hoperates

theorem scoped_empty : Scoped Db.empty where
  rows := fun _ ha => absurd ha List.not_mem_nil
  checked := rfl

/-- The user is an operator. -/
def Operates (db : Db) (userId : Nat) : Prop :=
  ∃ user ∈ db.users, user.id = userId ∧ user.role = .warehouseOperator

/-- A user stays an operator unless the operation sets another role. -/
theorem Operates.of_roleStep {db db' : Db} {op : Operation} {userId : Nat}
    (h : Operates db userId) (hstep : RoleStep op db db') :
    Operates db' userId ∨ op.demotes = some userId := by
  obtain ⟨user, huser, rfl, hoperates⟩ := h
  obtain ⟨user', huser', hid, hrole | hset⟩ := hstep.users user huser
  · exact Or.inl ⟨user', huser', hid, hrole.trans hoperates⟩
  · by_cases hrole : user'.role = .warehouseOperator
    · exact Or.inl ⟨user', huser', hid, hrole⟩
    · refine Or.inr ?_
      simp only [Operation.demotes, hset, Option.bind_some, if_neg hrole]

/-- A commit keeps the assignments those of operators, if the user it makes something else has none
and the user it gives a warehouse to is an operator. -/
theorem Scoped.commit {db db' : Db} {op : Operation} (h : Scoped db)
    (hdemotes : ∀ userId, op.demotes = some userId → ∀ a ∈ db.assignments, a.userId ≠ userId)
    (hassigns : ∀ userId, op.assigns = some userId → Operates db userId)
    (hstep : RoleStep op db db') : Scoped db' where
  rows := by
    intro a ha
    rcases hstep.assignments a ha with hold | hnew
    · rcases Operates.of_roleStep (h.rows a hold) hstep with hkept | hdemoted
      · exact hkept
      · exact absurd rfl (hdemotes a.userId hdemoted a hold)
    · rcases (hassigns a.userId hnew).of_roleStep hstep with hkept | hdemoted
      · exact hkept
      · -- no operation does both
        cases op with
        | assignWarehouse => cases hdemoted
        | _ => cases hnew
  checked := hstep.checked h.checked

/-- An added account leaves the others. -/
theorem Operates.seed {db : Db} {userId : Nat} (h : Operates db userId) (user : User) :
    Operates (db.seed user) userId := by
  obtain ⟨operator, hoperator, hid, hoperates⟩ := h
  unfold Db.seed
  split
  · rename_i db' hcheck
    obtain ⟨-, rfl⟩ := checked_of_check hcheck
    exact ⟨operator, List.mem_append_left _ hoperator, hid, hoperates⟩
  · exact ⟨operator, hoperator, hid, hoperates⟩

/-- The seeding script adds users without assignments. -/
theorem Scoped.seed {db : Db} (h : Scoped db) (user : User) : Scoped (db.seed user) := by
  have hassignments : (db.seed user).assignments = db.assignments ∧
      (db.seed user).violated = none := by
    unfold Db.seed
    split
    · rename_i db' hcheck
      obtain ⟨hchecked, rfl⟩ := checked_of_check hcheck
      exact ⟨rfl, hchecked⟩
    · exact ⟨rfl, h.checked⟩
  refine ⟨fun a ha => ?_, hassignments.2⟩
  rw [hassignments.1] at ha
  exact Operates.seed (h.rows a ha) user

/-- A session that gives a warehouse to the user has not run a statement yet, or it has read that
the user is an operator, who still is one if the read is current, or it has found an error. -/
structure ReadsRole (db : Db) (read : RoleRead) (s : Session Db Row Failure Outcome Operation)
    (security : Security) (settings : Settings) (userId : Nat) : Prop where
  unread : read = .unread → s.prog = serve security settings s.op ∧ s.pending = .ok
  current : read = .current → Operates db userId ∨ ∃ e, s.prog = .raise e

/-- The committed state is scoped, every session does to roles and assignments what its operation
may, and those that give warehouses have read the role. -/
structure Governed (security : Security) (settings : Settings)
    (x : Config Db Row Failure Outcome Operation × (Nat → RoleRead)) : Prop where
  db : Scoped x.1.db
  sessions : ∀ op, System.Framed (fun _ => True) (RoleStep op) (· = op) x.1
  reads : ∀ t s userId, x.1.sessions t = some s → s.op.assigns = some userId →
    ReadsRole x.1.db (x.2 t) s security settings userId

theorem governed_idle {reads : Nat → RoleRead} :
    Governed security settings (.idle Db.empty, reads) where
  db := scoped_empty
  sessions := fun _ _ _ hs => nomatch hs
  reads := fun _ _ _ hs => nomatch hs

/-- A request that gives a warehouse is refused at once, or it first reads the user and raises
unless it finds an operator. -/
theorem assignWarehouse_reads (principal : Principal) (userId warehouseId : Nat)
    (answer : Except Failure Unit) :
    (∃ e, serve security settings (.assignWarehouse principal userId warehouseId answer) =
      .raise e) ∨
    ∃ k, serve security settings (.assignWarehouse principal userId warehouseId answer) =
      .query k ∧ ∀ db, Operates db userId ∨ ∃ e, k db = .raise e := by
  simp only [serve, requireAdmin, Txn.bind_eq]
  cases (principal.require [.admin]).mapError Failure.domain with
  | error e => exact Or.inl ⟨e, rfl⟩
  | ok _ =>
    refine Or.inr ⟨_, rfl, fun db => ?_⟩
    cases huser : getUser userId false db with
    | none => exact Or.inr ⟨.domain (notFoundError "User not found."), by simp [Txn.bind, huser]⟩
    | some user =>
      have hmem := Table.mem_of_lookup (Option.filter_eq_some_iff.1 huser).1
      by_cases hrole : user.role = .warehouseOperator
      · exact Or.inl ⟨user, hmem.1, hmem.2, hrole⟩
      · refine Or.inr ⟨.domain (conflictError
          "Only warehouse operators are scoped to warehouses."), ?_⟩
        simp [Txn.bind, huser, hrole]

/-- After its first statement a session that gives a warehouse has found an operator, or raises. -/
theorem operates_of_proceeds {clock draw userId : Nat} {db : Db}
    {s s' : Session Db Row Failure Outcome Operation} (h : Config.Proceeds clock db draw s s')
    (hprog : s.prog = serve security settings s.op) (hpending : s.pending = .ok)
    (hassigns : s.op.assigns = some userId) : Operates db userId ∨ ∃ e, s'.prog = .raise e := by
  cases hop : s.op with
  | assignWarehouse principal _ warehouseId answer =>
    rw [hop] at hassigns hprog
    cases hassigns
    rcases assignWarehouse_reads principal userId warehouseId answer with
      ⟨e, hraise⟩ | ⟨k, hquery, hreads⟩
    · exact (h.not_raise (hprog.trans hraise)).elim
    · obtain ⟨view, hview, rfl⟩ := h.of_query (hprog.trans hquery)
      rw [hpending, Except.ok.injEq] at hview
      subst hview
      exact hreads db
  | _ =>
    rw [hop] at hassigns
    cases hassigns

section Steps

variable {x y : Config Db Row Failure Outcome Operation × (Nat → RoleRead)}
  {l : Label Operation User}

/-- The database of a session that stays open is as it was. -/
theorem db_of_advance {t draw : Nat} {s s' : Session Db Row Failure Outcome Operation}
    (h : c.advance t draw s = some c') (hs' : c'.sessions t = some s') : c'.db = c.db := by
  rcases (Config.advance_result h).2.2 with ⟨a, -, -, -, hnone⟩ | ⟨-, hdb, -⟩
  · rw [hnone] at hs'
    cases hs'
  · exact hdb

/-- A step that another session takes leaves what a session knows, unless it makes the user of a
current one something else than an operator. -/
theorem observeRoles_other {reads : Nat → RoleRead} {u : Nat} (hstart : ∀ op, l ≠ .start u op)
    (hstep : ∀ draw, l ≠ .step u draw) :
    (observeRoles c l c' reads u = reads u ∧
      (reads u = .current → ∀ s userId, c.sessions u = some s → s.op.assigns = some userId →
        demoted c l ≠ some userId)) ∨
    observeRoles c l c' reads u = .outdated := by
  cases l with
  | start t op =>
    have hut : u ≠ t := fun heq => hstart op (heq ▸ rfl)
    exact Or.inl ⟨Function.update_of_ne hut .., fun _ _ _ _ _ h => (nomatch h)⟩
  | step t draw =>
    have hut : u ≠ t := fun heq => hstep draw (heq ▸ rfl)
    simp only [observeRoles, if_neg hut]
    split
    · exact Or.inr rfl
    · -- a commit of another role for the user it is about would have made its read outdated
      rename_i hnot
      refine Or.inl ⟨rfl, fun hcurrent s userId hs hassigns hdemoted => hnot ⟨hcurrent, ?_, ?_⟩⟩
      · rw [hdemoted]
        rfl
      · rw [hs, Option.bind_some, hassigns, hdemoted]
  | _ => exact Or.inl ⟨rfl, fun _ _ _ _ _ h => (nomatch h)⟩

/-- An operator stays one unless the step commits another role. -/
theorem Governed.operates {reads : Nat → RoleRead}
    (h : Governed security settings (c, reads))
    (hnext : (identity security settings).next c l = some c') {userId : Nat}
    (hoperates : Operates c.db userId) :
    Operates c'.db userId ∨ demoted c l = some userId := by
  rcases System.delivered_cases _ hnext with ⟨-, hsame | ⟨user, rfl, hdb⟩⟩ |
    ⟨t, draw, s, a, rfl, hs, -, hpending, hdelivered⟩
  · exact Or.inl (hsame ▸ hoperates)
  · rw [hdb]
    exact Or.inl (hoperates.seed user)
  · rcases hoperates.of_roleStep ((h.sessions s.op t s hs rfl).pending _ _ hpending) with
      hkept | hdemotes
    · exact Or.inl hkept
    · exact Or.inr (by rw [demoted, hdelivered, Option.bind_some, hdemotes])

/-- The committed state stays scoped if the commits find the roles they need. -/
theorem Governed.scoped {reads : Nat → RoleRead} (h : Governed security settings (c, reads))
    (hok : RolesHeld (c, reads) l) (hnext : (identity security settings).next c l = some c') :
    Scoped c'.db := by
  rcases System.delivered_cases _ hnext with ⟨-, hsame | ⟨user, rfl, hdb⟩⟩ |
    ⟨t, draw, s, a, rfl, hs, hprog, hpending, hdelivered⟩
  · rw [hsame]
    exact h.db
  · rw [hdb]
    exact h.db.seed user
  · simp only [RolesHeld, rolesHeld, demoted, hdelivered, Option.bind_some, Option.all_some,
      Bool.and_eq_true, Bool.or_eq_true, beq_iff_eq, Option.isNone_iff_eq_none] at hok
    refine h.db.commit (fun userId hdemotes a ha => ?_) (fun userId hassigns => ?_)
      ((h.sessions s.op t s hs rfl).pending _ _ hpending)
    · rw [hdemotes, Option.all_some, List.all_eq_true] at hok
      exact bne_iff_ne.1 (hok.1 a ha)
    · -- the role it has read is current, and it has not raised
      have hcurrent := hok.2.resolve_left fun hnone => by
        rw [hassigns] at hnone
        cases hnone
      rcases (h.reads t s userId hs hassigns).current hcurrent with hoperates | ⟨e, hraise⟩
      · exact hoperates
      · cases hprog.symm.trans hraise

/-- The session that takes a step reads the role with its first statement. -/
theorem ReadsRole.advance {t draw userId : Nat} {reads : Nat → RoleRead}
    {s s' : Session Db Row Failure Outcome Operation}
    (h : ReadsRole c.db (reads t) s security settings userId)
    (hassigns : s.op.assigns = some userId)
    (hadvance : c.advance t draw s = some c') (hs' : c'.sessions t = some s') :
    ReadsRole c'.db (observeRoles c (.step t draw) c' reads t) s' security settings userId := by
  have hproceeds := Config.proceeds_of_advance hadvance hs'
  rw [db_of_advance hadvance hs']
  simp only [observeRoles, if_true]
  by_cases hunread : reads t = .unread
  · -- its first statement: it goes on only with the role of an operator
    rw [if_pos hunread]
    obtain ⟨hprog, hpending⟩ := h.unread hunread
    exact ⟨nofun,
      fun _ => operates_of_proceeds hproceeds hprog hpending hassigns⟩
  · rw [if_neg hunread]
    refine ⟨fun hread => absurd hread hunread, fun hcurrent => Or.inl ?_⟩
    rcases h.current hcurrent with hoperates | ⟨e, hraise⟩
    · exact hoperates
    · exact (hproceeds.not_raise hraise).elim

/-- Every step keeps the invariant, if the commits find the roles they need. -/
theorem Governed.next (h : Governed security settings x) (hok : RolesHeld x l)
    (hnext : (identity security settings).next x.1 l = some y.1)
    (hnote : y.2 = observeRoles x.1 l y.1 x.2) : Governed security settings y where
  db := Governed.scoped h hok hnext
  sessions := by
    intro op
    refine System.Framed.next (frame_roleStep op) ?_ (h.sessions op) trivial hnext
    rintro _ rfl
    exact (accepts_roleStep _).serve
  reads := by
    intro u s' userId hs' hassigns
    rw [hnote]
    rcases System.next_session_cases _ hnext hs' with ⟨op, rfl, rfl⟩ |
      ⟨draw, s, rfl, hs, hadvance, hop⟩ | ⟨hs, hstart, hstep⟩
    · have hunread : observeRoles x.1 (.start u op) y.1 x.2 u = .unread := Function.update_self ..
      rw [hunread]
      exact ⟨fun _ => ⟨rfl, rfl⟩, nofun⟩
    · rw [hop] at hassigns
      exact (h.reads u s userId hs hassigns).advance hassigns hadvance hs'
    · have hreads := h.reads u s' userId hs hassigns
      have hother : (observeRoles x.1 l y.1 x.2 u = x.2 u ∧ _) ∨
          observeRoles x.1 l y.1 x.2 u = .outdated := observeRoles_other hstart hstep
      rcases hother with ⟨hsame, hheld⟩ | houtdated
      · rw [hsame]
        refine ⟨hreads.unread, fun hcurrent => ?_⟩
        rcases hreads.current hcurrent with hoperates | hraise
        · exact Or.inl ((Governed.operates h hnext hoperates).resolve_right
            (hheld hcurrent s' userId hs hassigns))
        · exact Or.inr hraise
      · rw [houtdated]
        exact ⟨nofun, nofun⟩

end Steps

/-- Along runs in which a role other than operator is only committed for users without assignments,
and no `assign_warehouse` commits after such a role was committed for the user it has read, the
assignments are those of operators. -/
theorem operatorsOnly_of_run (security : Security) (settings : Settings)
    {c : Config Db Row Failure Outcome Operation} {reads : Nat → RoleRead}
    (h : (roleReads security settings).RunOf RolesHeld
      (.idle Db.empty, fun _ => .unread) (c, reads)) :
    OperatorsOnly c.db := by
  have hgoverned : Governed security settings (c, reads) := by
    refine h.preserves (I := Governed security settings) (fun x l y hx hok hnext => ?_)
      governed_idle
    obtain ⟨hnext, hnote⟩ := Machine.observed_next hnext
    exact hx.next hok hnext hnote
  exact hgoverned.db.operatorsOnly

/-! ## An operator who becomes a courier -/

/-- An admin. -/
def rolesAdmin : Principal where
  userId := 1
  role := .admin
  warehouseIds := []

/-- An admin and an operator, who is given warehouse 7. -/
def assigned : List (Label Operation User) :=
  [.env (sampleUser 1 "admin@transfleet.com" .admin),
    .env (sampleUser 2 "operator@transfleet.com" .warehouseOperator)] ++
  session 0 (.assignWarehouse rolesAdmin 2 7 (.ok ())) [0, 30, 0, 0, 0, 0, 0, 0, 0]

/-- Warehouse 7 is taken back from the operator. -/
def takenBack : List (Label Operation User) :=
  session 0 (.unassignWarehouse rolesAdmin 2 7) [0, 0, 0, 0, 0, 0, 0, 0, 0]

/-- The operator becomes a courier. -/
def becomesCourier : List (Label Operation User) :=
  session 0 (.changeRole rolesAdmin 2 ⟨.courier, none⟩) [0, 0, 0, 0, 0, 0, 0, 0, 0]

/-- The rows of `user_warehouse_assignments` as user and warehouse, and the roles of the users. -/
def scopesAndRoles (c : Config Db Row Failure Outcome Operation) :
    List (Nat × Nat) × List UserRole :=
  (c.db.assignments.map fun a => (a.userId, a.warehouseId), c.db.users.map (·.role))

/-- An operator who has lost the warehouse becomes a courier. -/
theorem operatorsOnly_after_unassign : ∃ c reads,
    (roleReads sampleSecurity sampleSettings).RunOf RolesHeld
      (.idle Db.empty, fun _ => .unread) (c, reads) ∧
    scopesAndRoles c = ([], [.admin, .courier]) ∧ OperatorsOnly c.db := by
  have hrun : ((roleReads sampleSecurity sampleSettings).execOf RolesHeld
      (.idle Db.empty, fun _ => .unread) (assigned ++ takenBack ++ becomesCourier)).map
        (fun x => scopesAndRoles x.1) = some ([], [.admin, .courier]) := by
    decide
  obtain ⟨⟨c, reads⟩, hc, hroles⟩ := Option.map_eq_some_iff.1 hrun
  have hreach := Machine.runOf_of_execOf _ hc
  exact ⟨c, reads, hreach, hroles, operatorsOnly_of_run sampleSecurity sampleSettings hreach⟩

/-- One who has not keeps it as a courier. -/
theorem not_operatorsOnly_after_change_role : ∃ c,
    (identity sampleSecurity sampleSettings).machine.exec (.idle Db.empty)
      (assigned ++ becomesCourier) = some c ∧ ¬ OperatorsOnly c.db := by
  obtain ⟨c, hc⟩ : ∃ c, (identity sampleSecurity sampleSettings).machine.exec (.idle Db.empty)
      (assigned ++ becomesCourier) = some c := Option.isSome_iff_exists.1 (by decide)
  have hroles : ((identity sampleSecurity sampleSettings).machine.exec (.idle Db.empty)
      (assigned ++ becomesCourier)).map scopesAndRoles =
        some ([(2, 7)], [.admin, .courier]) := by decide
  rw [hc, Option.map_some, Option.some.injEq] at hroles
  refine ⟨c, hc, fun h => ?_⟩
  obtain ⟨hassignments, husers⟩ := Prod.mk.inj hroles
  obtain ⟨a, ha, -⟩ := List.mem_map.1 (hassignments ▸ List.mem_singleton_self (2, 7))
  obtain ⟨user, huser, -, hoperates⟩ := h.rows a ha
  have hrole := List.mem_map_of_mem (f := fun user : User => user.role) huser
  rw [husers, hoperates] at hrole
  exact absurd hrole (by decide)

end SmartLogistics.Identity
