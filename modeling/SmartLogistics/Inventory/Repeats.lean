import SmartLogistics.Inventory.Runs
import SmartLogistics.Library.Endings

/-!
# What a reserve answers for

The first statement of a reserve looks for reservations of its shipment (`checked`): if there are
none it goes on to a new hold, otherwise it answers with the rows it found (`replayed`). `Stage`
says how far an open reserve has come, and `stage_of_reachable` that every open reserve of a
reachable configuration is at one of these stages.

`reserve_backed_iff`: the answer stands for HELD or COMMITTED rows, one a line and at the requested
warehouse (`Backed`), exactly if the rows its shipment has for these SKUs are not RELEASED and are
at one warehouse (`Standing`). `not_backed_after_release`: a reserve that is repeated after the
release of its shipment answers with RELEASED rows.
-/

set_option autoImplicit false

namespace SmartLogistics.Inventory

open SmartLogistics.Library SmartLogistics.Platform SmartLogistics.Warehouse

variable {unconfirmedHold : Nat} {request : ReservationRequest}

/-! ## The stages of a reserve -/

/-- The answer comes with a new hold. -/
def Outcome.IsNew (a : Outcome) : Prop := ∃ answer, a = .reserved answer true

/-- The rows are what the request asks for, as a replay compares them. -/
def ReservationRequest.Matches (request : ReservationRequest)
    (existing : List InventoryReservation) : Prop :=
  ((request.lines.map fun line => (line.skuId, line.quantity)).all
      (existing.map fun r => (r.skuId, r.quantity)).contains &&
    (existing.map fun r => (r.skuId, r.quantity)).all
      (request.lines.map fun line => (line.skuId, line.quantity)).contains) = true ∧
  firstWarehouse existing = request.warehouseId

/-- What is left of a reserve that has found reservations of its shipment. -/
def replayed (request : ReservationRequest) (existing : List InventoryReservation) :
    InventoryTxn Outcome :=
  (replay request existing).bind fun answer => .pure (.reserved answer false)

/-- What is left of a reserve whose check sees the state `db`. -/
def checked (unconfirmedHold : Nat) (request : ReservationRequest) (db : Db) :
    InventoryTxn Outcome :=
  match program unconfirmedHold (.reserve request) with
  | .query k => k db
  | body => body

theorem program_reserve (unconfirmedHold : Nat) (request : ReservationRequest) :
    program unconfirmedHold (.reserve request) = .query (checked unconfirmedHold request) := rfl

/-- A check that finds rows leaves the replay. -/
theorem checked_of_ne_nil {db : Db} (h : forShipment request.shipmentId db ≠ []) :
    checked unconfirmedHold request db = replayed request (forShipment request.shipmentId db) := by
  have hsome : (!(forShipment request.shipmentId db).isEmpty) = true := by
    rwa [Bool.not_eq_true', List.isEmpty_eq_false_iff]
  simp only [checked, program, reserve, Txn.bind_eq, Txn.select, Txn.bind, hsome, if_true]
  exact Txn.bind_bind ..

/-- A check that finds no rows leaves a body that answers with a new hold. -/
theorem checked_of_eq_nil {db : Db} (h : forShipment request.shipmentId db = []) {now : Nat}
    {sent : Db → Except Failure Db} :
    (checked unconfirmedHold request db).Ends (fun _ _ a => a.IsNew) now sent := by
  simp only [checked, program, reserve, Txn.bind_eq, Txn.select, Txn.bind, h, List.isEmpty_nil,
    Bool.not_true, Bool.false_eq_true, if_false]
  intro _
  simp only [Txn.bind_bind]
  -- the body ends in `return (answer, true)`, whatever its statements see
  refine Txn.Ends.of_bind _ fun _ _ _ _ => ?_
  simp only [Txn.bind_bind]
  iterate 10 refine Txn.Ends.of_bind _ fun _ _ _ => ?_
  exact ⟨_, rfl⟩

/-- One statement of a replay: it is refused, or it reads the SKUs and makes its answer of them. -/
theorem advance_replayed {c c' : Config Db Row Failure Outcome Operation} {t draw : Nat}
    {s : Session Db Row Failure Outcome Operation} {existing : List InventoryReservation}
    (hprog : s.prog = replayed request existing) (hpending : s.pending = .ok)
    (hstep : c.advance t draw s = some c') :
    ¬ request.Matches existing ∧ c' = c.finish t c.db ∨
    request.Matches existing ∧
      ((∃ answer, result request.shipmentId request.warehouseId existing
          (loadSkusAny (existing.map (·.skuId)) c.db) = .ok answer ∧
        c' = c.put t { s with prog := .pure (.reserved answer false) }) ∨
      ∃ e, result request.shipmentId request.warehouseId existing
          (loadSkusAny (existing.map (·.skuId)) c.db) = .error e ∧
        c' = c.put t { s with prog := .raise e }) := by
  unfold replayed replay at hprog
  dsimp only at hprog
  split at hprog
  · rename_i hdiffers
    refine Or.inl ⟨fun hmatches => ?_, ?_⟩
    · rw [hmatches.1, hmatches.2] at hdiffers
      simp at hdiffers
    · simp only [Txn.bind] at hprog
      simp only [Config.advance, hprog, Option.some.injEq] at hstep
      exact hstep.symm
  · rename_i hsame
    refine Or.inr ⟨?_, ?_⟩
    · simpa [ReservationRequest.Matches] using hsame
    · simp only [Txn.bind_eq, Txn.select, Txn.bind] at hprog
      simp only [Config.advance, hprog, hpending, Option.some.injEq] at hstep
      subst hstep
      cases result request.shipmentId request.warehouseId existing
          (loadSkusAny (existing.map (·.skuId)) c.db) with
      | ok answer => exact Or.inl ⟨answer, rfl, by rw [hpending]; rfl⟩
      | error e => exact Or.inr ⟨e, rfl, by rw [hpending]; rfl⟩

/-- A replay reads before it answers. -/
theorem replayed_ne_pure {existing : List InventoryReservation} {a : Outcome} :
    replayed request existing ≠ .pure a := by
  intro h
  unfold replayed replay at h
  dsimp only at h
  split at h
  · cases h
  · cases h

/-- An open reserve that answers with rows of its shipment or may still find some; `P` is what is
known of the state in which it found them. -/
inductive Repeating (unconfirmedHold : Nat) (request : ReservationRequest) (P : Db → Prop)
    (s : Session Db Row Failure Outcome Operation) : Prop
  /-- It has not looked for reservations of its shipment. -/
  | unchecked (hprog : s.prog = program unconfirmedHold (.reserve request))
      (hpending : s.pending = .ok)
  /-- It found some. -/
  | found (seen : Db) (hseen : P seen) (hsome : forShipment request.shipmentId seen ≠ [])
      (hpending : s.pending = .ok)
      (hprog : s.prog = replayed request (forShipment request.shipmentId seen))
  /-- It answers with the rows it found. -/
  | answered (seen : Db) (hseen : P seen) (hsome : forShipment request.shipmentId seen ≠ [])
      (hpending : s.pending = .ok)
      (hmatches : request.Matches (forShipment request.shipmentId seen))
      (hprog : ∃ answer, s.prog = .pure (.reserved answer false))

theorem Repeating.mono {P P' : Db → Prop} {s : Session Db Row Failure Outcome Operation}
    (h : Repeating unconfirmedHold request P s) (hP : ∀ seen, P seen → P' seen) :
    Repeating unconfirmedHold request P' s := by
  cases h with
  | unchecked hprog hpending => exact .unchecked hprog hpending
  | found seen hseen hsome hpending hprog => exact .found seen (hP seen hseen) hsome hpending hprog
  | answered seen hseen hsome hpending hmatches hprog =>
    exact .answered seen (hP seen hseen) hsome hpending hmatches hprog

/-- Such a reserve does not commit a new hold next. -/
theorem Repeating.not_isNew {P : Db → Prop} {s : Session Db Row Failure Outcome Operation}
    (h : Repeating unconfirmedHold request P s) {a : Outcome} (ha : s.prog = .pure a) :
    ¬ a.IsNew := by
  rintro ⟨answer, rfl⟩
  cases h with
  | unchecked hprog =>
    rw [hprog, program_reserve] at ha
    cases ha
  | found seen _ _ _ hprog => exact replayed_ne_pure (hprog.symm.trans ha)
  | answered seen _ _ _ _ hprog =>
    obtain ⟨answer', hprog⟩ := hprog
    rw [hprog] at ha
    cases ha

/-- Such a reserve stays one until it finds no row, or cannot name the SKU of one. -/
theorem Repeating.advance {P : Db → Prop} {c c' : Config Db Row Failure Outcome Operation}
    {t draw : Nat} {s s' : Session Db Row Failure Outcome Operation} (hP : P c.db)
    (h : Repeating unconfirmedHold request P s) (hstep : c.advance t draw s = some c')
    (hs' : c'.sessions t = some s') :
    Repeating unconfirmedHold request P s' ∨
    (forShipment request.shipmentId c.db = [] ∧ s'.Ends (fun _ _ a => a.IsNew) c.clock) ∨
    ∃ e seen, s'.prog = .raise e ∧ P seen ∧
      result request.shipmentId request.warehouseId (forShipment request.shipmentId seen)
        (loadSkusAny ((forShipment request.shipmentId seen).map (·.skuId)) c.db) = .error e := by
  have hput : ∀ s₁ : Session Db Row Failure Outcome Operation,
      c' = c.put t s₁ → s' = s₁ := by
    rintro s₁ rfl
    simpa [Config.put] using hs'.symm
  have hfinish : ∀ db, c' ≠ c.finish t db := by
    rintro db rfl
    simp [Config.finish] at hs'
  cases h with
  | unchecked hprog hpending =>
    rw [program_reserve] at hprog
    simp only [Config.advance, hprog, hpending, Option.some.injEq] at hstep
    obtain rfl := hput _ hstep.symm
    by_cases hnone : forShipment request.shipmentId c.db = []
    · exact Or.inr (Or.inl ⟨hnone, checked_of_eq_nil hnone⟩)
    · exact Or.inl (.found c.db hP hnone rfl (checked_of_ne_nil hnone))
  | found seen hseen hsome hpending hprog =>
    rcases advance_replayed hprog hpending hstep with ⟨-, heq⟩ |
      ⟨hmatches, ⟨answer, -, heq⟩ | ⟨e, herror, heq⟩⟩
    · exact absurd heq (hfinish _)
    · obtain rfl := hput _ heq
      exact Or.inl (.answered seen hseen hsome hpending hmatches ⟨answer, rfl⟩)
    · obtain rfl := hput _ heq
      exact Or.inr (Or.inr ⟨e, seen, rfl, hseen, herror⟩)
  | answered seen _ _ hpending _ hprog =>
    obtain ⟨answer, hprog⟩ := hprog
    simp only [Config.advance, hprog, hpending, Option.some.injEq] at hstep
    exact absurd hstep.symm (hfinish _)

/-- How far an open reserve has come, in a configuration with the state `db` and the clock at
`clock`. -/
inductive Stage (unconfirmedHold : Nat) (request : ReservationRequest) (db : Db) (clock : Nat)
    (s : Session Db Row Failure Outcome Operation) : Prop
  | repeating
    (h : Repeating unconfirmedHold request (fun seen => Consistent seen ∧ Grows seen db) s)
  /-- It found no row, and will answer with a new hold. -/
  | first (now : Nat) (hnow : now ≤ clock) (h : s.Ends (fun _ _ a => a.IsNew) now)
  /-- It fails. -/
  | refused (e : Failure) (hprog : s.prog = .raise e)

/-- Every open reserve is at one of the stages. -/
def Staged (unconfirmedHold : Nat) (c : Config Db Row Failure Outcome Operation) : Prop :=
  ∀ t s request, c.sessions t = some s → s.op = .reserve request →
    Stage unconfirmedHold request c.db c.clock s

/-- A stage holds on while other sessions work. -/
theorem Stage.later {db db' : Db} {clock clock' : Nat}
    {s : Session Db Row Failure Outcome Operation} (h : Stage unconfirmedHold request db clock s)
    (hgrow : Grows db db') (hclock : clock ≤ clock') :
    Stage unconfirmedHold request db' clock' s := by
  cases h with
  | repeating h =>
    exact .repeating (h.mono fun seen ⟨hinv, hgrow'⟩ => ⟨hinv, hgrow'.trans hgrow⟩)
  | first now hnow h => exact .first now (Nat.le_trans hnow hclock) h
  | refused e hprog => exact .refused e hprog

/-- A reserve that takes a step and stays open comes to one of the stages. -/
theorem Stage.advance {c c' : Config Db Row Failure Outcome Operation} {t draw : Nat}
    {s s' : Session Db Row Failure Outcome Operation} (hinv : Consistent c.db)
    (h : Stage unconfirmedHold request c.db c.clock s) (hstep : c.advance t draw s = some c')
    (hs' : c'.sessions t = some s') : Stage unconfirmedHold request c.db c.clock s' := by
  cases h with
  | repeating h =>
    rcases h.advance ⟨hinv, .refl _⟩ hstep hs' with h' | ⟨-, h'⟩ | ⟨e, seen, hprog, -, -⟩
    · exact .repeating h'
    · exact .first c.clock (Nat.le_refl _) h'
    · exact .refused e hprog
  | first now hnow h =>
    obtain ⟨now', hnow', h'⟩ := h.advance hnow hstep hs'
    exact .first now' hnow' h'
  | refused e hprog =>
    simp only [Config.advance, hprog, Option.some.injEq] at hstep
    subst hstep
    simp [Config.finish] at hs'

/-- Every step keeps open reserves at one of the stages. -/
theorem Staged.next {c c' : Config Db Row Failure Outcome Operation}
    {l : Label Operation Environment} (h : Staged unconfirmedHold c)
    (hc : c.Sound (protocol unconfirmedHold))
    (hnext : (inventory unconfirmedHold).next c l = some c') : Staged unconfirmedHold c' := by
  intro u s' request hs' hop
  have hgrow : Grows c.db c'.db := hc.grow_of_next (protocol_governs unconfirmedHold) hnext
  have hclock : c.clock ≤ c'.clock := (inventory unconfirmedHold).clock_le_of_next hnext
  rcases (inventory unconfirmedHold).next_session_cases hnext hs' with ⟨op, -, rfl⟩ |
    ⟨draw, s, -, hs, hstep, hsop⟩ | ⟨hs, -, -⟩
  · obtain rfl : op = .reserve request := hop
    exact .repeating (.unchecked rfl rfl)
  · have hstage := h u s request hs (hsop.symm.trans hop)
    exact (hstage.advance hc.inv hstep hs').later hgrow hclock
  · exact (h u s' request hs hop).later hgrow hclock

theorem staged_of_reachable {c : Config Db Row Failure Outcome Operation}
    (h : Reachable unconfirmedHold c) : Staged unconfirmedHold c := by
  have hstep : ∀ (c : Config Db Row Failure Outcome Operation) l c',
      c.Sound (protocol unconfirmedHold) ∧ Staged unconfirmedHold c → True →
      (inventory unconfirmedHold).next c l = some c' →
      c'.Sound (protocol unconfirmedHold) ∧ Staged unconfirmedHold c' :=
    fun _ _ _ ⟨hc, hstaged⟩ _ hnext =>
      ⟨hc.next (protocol_governs unconfirmedHold) hnext, hstaged.next hc hnext⟩
  have hidle : Staged unconfirmedHold (.idle .empty) := fun t s request hs => by
    simp [Config.idle] at hs
  exact (Machine.RunOf.preserves hstep h (And.intro (Config.sound_idle consistent_empty) hidle)).2

/-! ## Returned reservations -/

/-- Every requested line is backed by a reservation that is HELD or COMMITTED. -/
def Backed (request : ReservationRequest) (db : Db) : Prop :=
  ∀ line ∈ request.lines, ∃ r ∈ db.reservations, r.shipmentId = request.shipmentId ∧
    r.warehouseId = request.warehouseId ∧ r.skuId = line.skuId ∧ r.quantity = line.quantity ∧
    (r.status = .held ∨ r.status = .committed)

/-- The row is a reservation of the shipment for a requested SKU. -/
def ReservationRequest.Concerns (request : ReservationRequest) (r : InventoryReservation) : Prop :=
  r.shipmentId = request.shipmentId ∧ r.skuId ∈ request.lines.map (·.skuId)

/-- The rows the shipment has for the requested SKUs are at one warehouse, and not RELEASED. -/
structure Standing (request : ReservationRequest) (db : Db) : Prop where
  unreleased : ∀ r ∈ db.reservations, request.Concerns r → r.status ≠ .released
  together : ∀ r ∈ db.reservations, ∀ r' ∈ db.reservations, request.Concerns r →
    request.Concerns r' → r.warehouseId = r'.warehouseId

/-- A shipment has one row a SKU. -/
theorem Consistent.eq_of_line {db : Db} (h : Consistent db) {r r' : InventoryReservation}
    (hr : r ∈ db.reservations) (hr' : r' ∈ db.reservations) (hship : r.shipmentId = r'.shipmentId)
    (hsku : r.skuId = r'.skuId) : r = r' :=
  List.inj_on_of_nodup_map h.lines hr hr' (Prod.ext hship hsku)

/-- What backs every line is all that the shipment has for the requested SKUs. -/
theorem Backed.standing {db : Db} (hinv : Consistent db) (h : Backed request db) :
    Standing request db := by
  have hrow : ∀ r ∈ db.reservations, request.Concerns r →
      r.warehouseId = request.warehouseId ∧ (r.status = .held ∨ r.status = .committed) := by
    rintro r hr ⟨hship, hsku⟩
    obtain ⟨line, hline, hsku⟩ := List.mem_map.1 hsku
    obtain ⟨r', hr', hship', hwarehouse, hsku', -, hstatus⟩ := h line hline
    obtain rfl := hinv.eq_of_line hr hr' (hship.trans hship'.symm) (hsku.symm.trans hsku'.symm)
    exact ⟨hwarehouse, hstatus⟩
  constructor
  · intro r hr hconcerns hreleased
    rcases (hrow r hr hconcerns).2 with hstatus | hstatus
    · rw [hreleased] at hstatus
      cases hstatus
    · rw [hreleased] at hstatus
      cases hstatus
  · intro r hr r' hr' hconcerns hconcerns'
    rw [(hrow r hr hconcerns).1, (hrow r' hr' hconcerns').1]

/-- The rows a replay found, as they stand later: one a line, and one of them at the warehouse. -/
theorem rows_of_matches {seen db : Db} (hinv : Consistent seen) (hgrow : Grows seen db)
    (hsome : forShipment request.shipmentId seen ≠ [])
    (h : request.Matches (forShipment request.shipmentId seen)) :
    (∀ line ∈ request.lines, ∃ r ∈ db.reservations, r.shipmentId = request.shipmentId ∧
      r.skuId = line.skuId ∧ r.quantity = line.quantity) ∧
    ∃ r ∈ db.reservations, request.Concerns r ∧ r.warehouseId = request.warehouseId := by
  have hperm := perm_of_replay hinv h.1
  have hlater : ∀ r ∈ forShipment request.shipmentId seen, ∃ r' ∈ db.reservations,
      r.Grows r' ∧ r'.shipmentId = request.shipmentId := by
    intro r hr
    obtain ⟨hmem, hship⟩ := List.mem_filter.1 hr
    obtain ⟨r', hr', hg⟩ := hgrow.reservations r hmem
    exact ⟨r', hr', hg, hg.shipment.trans (beq_iff_eq.1 hship)⟩
  constructor
  · intro line hline
    have hpair := hperm.mem_iff.2 (List.mem_map_of_mem hline)
    obtain ⟨r, hr, heq⟩ := List.mem_map.1 hpair
    obtain ⟨r', hr', hg, hship⟩ := hlater r hr
    rw [Prod.mk.injEq] at heq
    exact ⟨r', hr', hship, hg.sku.trans heq.1, hg.quantity.trans heq.2⟩
  · obtain ⟨r, rest, hrows⟩ := List.exists_cons_of_ne_nil hsome
    have hr : r ∈ forShipment request.shipmentId seen := hrows ▸ List.mem_cons_self
    obtain ⟨r', hr', hg, hship⟩ := hlater r hr
    have hpair := hperm.mem_iff.1 (List.mem_map_of_mem hr)
    obtain ⟨line, hline, heq⟩ := List.mem_map.1 hpair
    rw [Prod.mk.injEq] at heq
    refine ⟨r', hr', ⟨hship, List.mem_map.2 ⟨line, hline, heq.1.trans hg.sku.symm⟩⟩, ?_⟩
    rw [hg.warehouse, ← h.2, firstWarehouse, hrows]
    rfl

/-- Before a new hold is committed, its shipment has no row for its SKUs. -/
theorem not_concerns_of_new {opened : Db} {held : Row → Prop} {answer : ReservationResult}
    {clock : Nat} {db db' : Db} (hinv' : Consistent db')
    (h : Committed unconfirmedHold (.reserve request) opened held (.reserved answer true) clock db
      db') : Backed request db' ∧ ∀ r ∈ db.reservations, ¬ request.Concerns r := by
  obtain ⟨-, cutoff, now, expired, time, holds, -, -, -, hlapsed, hholds, hlines, rfl⟩ := h
  constructor
  · intro line hline
    have hpair : (line.skuId, line.quantity) ∈ holds.map fun h => (h.skuId, h.quantity) :=
      hlines ▸ List.mem_map_of_mem hline
    obtain ⟨r, hr, heq⟩ := List.mem_map.1 hpair
    rw [Prod.mk.injEq] at heq
    exact ⟨r, List.mem_append_right _ hr, (hholds r hr).shipment, (hholds r hr).warehouse, heq.1,
      heq.2, Or.inl (hholds r hr).status⟩
  · rintro r hr ⟨hship, hsku⟩
    -- the row would share its unique key with the new hold on the SKU
    obtain ⟨line, hline, hsku⟩ := List.mem_map.1 hsku
    have hpair : (line.skuId, line.quantity) ∈ holds.map fun h => (h.skuId, h.quantity) :=
      hlines ▸ List.mem_map_of_mem hline
    obtain ⟨x, hx, heq⟩ := List.mem_map.1 hpair
    rw [Prod.mk.injEq] at heq
    have hkept : (r.shipmentId, r.skuId) ∈ (db.expireRows expired now).reservations.map
        fun r => (r.shipmentId, r.skuId) := by
      refine List.mem_map.2 ⟨_, Db.mem_writeReservations.2 ⟨r, hr, rfl⟩, ?_⟩
      split <;> rfl
    have hnodup : (((db.expireRows expired now).reservations ++ holds).map
        fun r => (r.shipmentId, r.skuId)).Nodup := hinv'.lines
    rw [List.map_append] at hnodup
    exact (List.nodup_append.1 hnodup).2.2 _ hkept _ (List.mem_map_of_mem hx)
      (Prod.ext (hship.trans (hholds x hx).shipment.symm) (hsku.symm.trans heq.1.symm))

/-- A reserve that answers leaves every requested line backed exactly if the rows its shipment had
for these SKUs, if any, are not RELEASED and at one warehouse. -/
theorem reserve_backed_iff {c c' : Config Db Row Failure Outcome Operation}
    {l : Label Operation Environment} {answer : ReservationResult} {created : Bool}
    (h : Reachable unconfirmedHold c) (hnext : (inventory unconfirmedHold).next c l = some c')
    (hanswer : c.delivered l = some (.reserve request, .reserved answer created)) :
    Backed request c'.db ↔ Standing request c.db := by
  have hc := sound_of_reachable h
  rcases (inventory unconfirmedHold).delivered_cases hnext with ⟨hnone, -⟩ |
    ⟨t, draw, s, a, -, hs, hprog, hpending, hsome⟩
  · rw [hnone] at hanswer
    cases hanswer
  rw [hsome, Option.some.injEq, Prod.mk.injEq] at hanswer
  obtain ⟨hop, rfl⟩ := hanswer
  obtain ⟨hguar, hpost⟩ := hc.commit hs hprog hpending
  have hpost : Committed unconfirmedHold (.reserve request) s.opened (c.Held t)
      (.reserved answer created) c.clock c.db c'.db := hop ▸ hpost
  cases created with
  | true =>
    obtain ⟨hbacked, hnone⟩ := not_concerns_of_new hguar.inv hpost
    exact ⟨fun _ => ⟨fun r hr hrow => absurd hrow (hnone r hr),
      fun r hr _ _ hrow => absurd hrow (hnone r hr)⟩, fun _ => hbacked⟩
  | false =>
    obtain ⟨-, -, heq⟩ := hpost
    rw [heq]
    refine ⟨fun hbacked => hbacked.standing hc.inv, fun hstanding line hline => ?_⟩
    -- the session answers with rows that a replay compared in an earlier state
    rcases staged_of_reachable h t s request hs hop with hrepeating | ⟨now, _, hends⟩ |
      ⟨e, hprog'⟩
    · cases hrepeating with
      | unchecked hprog' =>
        rw [hprog', program_reserve] at hprog
        cases hprog
      | found seen _ _ _ hprog' =>
        exact absurd (hprog'.symm.trans hprog) replayed_ne_pure
      | answered seen hseen hsome _ hmatches _ =>
        obtain ⟨hinv, hgrow⟩ := hseen
        obtain ⟨hlines, x, hx, hconcerns, hwarehouse⟩ := rows_of_matches hinv hgrow hsome hmatches
        obtain ⟨r, hr, hship, hsku, hquantity⟩ := hlines line hline
        have hrow : request.Concerns r := ⟨hship, List.mem_map.2 ⟨line, hline, hsku.symm⟩⟩
        refine ⟨r, hr, hship, (hstanding.together r hr x hx hrow hconcerns).trans hwarehouse, hsku,
          hquantity, ?_⟩
        have hstatus := hstanding.unreleased r hr hrow
        cases hcase : r.status with
        | held => exact Or.inl rfl
        | committed => exact Or.inr rfl
        | released => exact absurd hcase hstatus
    · obtain ⟨_, hnew⟩ := hends.result hprog
      cases hnew
    · rw [hprog'] at hprog
      cases hprog

instance (request : ReservationRequest) (db : Db) : Decidable (Backed request db) := by
  unfold Backed
  infer_instance

/-- The answer a step gives to a reserve: its status, if the hold is new, and if every line is
backed after the step. -/
def replies (c : Config Db Row Failure Outcome Operation) (l : Label Operation Environment) :
    Option (ReservationStatus × Bool × Bool) :=
  match c.delivered l, (inventory 30).next c l with
  | some (.reserve request, .reserved answer created), some c' =>
    some (answer.status, created, decide (Backed request c'.db))
  | _, _ => none

theorem replies_eq_some {c : Config Db Row Failure Outcome Operation}
    {l : Label Operation Environment} {status : ReservationStatus} {created backed : Bool}
    (h : replies c l = some (status, created, backed)) :
    ∃ request answer c', c.delivered l = some (.reserve request, .reserved answer created) ∧
      (inventory 30).next c l = some c' ∧ answer.status = status ∧
      (Backed request c'.db ↔ backed = true) := by
  simp only [replies] at h
  split at h
  · rename_i request answer created c' hdelivered hnext
    simp only [Option.some.injEq, Prod.mk.injEq] at h
    obtain ⟨hstatus, rfl, hbacked⟩ := h
    exact ⟨request, answer, c', hdelivered, hnext, hstatus, by rw [← hbacked, decide_eq_true_eq]⟩
  · cases h

/-- A hold on two items that is reserved, dispatched and asked for again. -/
def askedAgain : List (Label Operation Environment) :=
  stocked ++
    session 0 (reserveBoth 50) [0, 0, 0, 0, 0, 0, 0, 0, 0, 0, 0, 0, 31, 32, 0, 0, 0] ++
    session 1 (.commit 50 none) (.replicate 21 0) ++ session 2 (reserveBoth 50) [0, 0]

theorem reserve_backed_when_asked_again : ∃ c request answer c', Reachable 30 c ∧
    (inventory 30).next c (.step 2 0) = some c' ∧
    c.delivered (.step 2 0 : Label Operation Environment) =
      some (.reserve request, .reserved answer false) ∧
    Backed request c'.db ∧ Standing request c.db := by
  have hrun : ((inventory 30).machine.exec (.idle .empty) askedAgain).bind
      (fun c => replies c (.step 2 0)) = some (.committed, false, true) := by
    decide +kernel
  obtain ⟨c, hc, hreplies⟩ := Option.bind_eq_some_iff.1 hrun
  obtain ⟨request, answer, c', hanswer, hnext, -, hbacked⟩ := replies_eq_some hreplies
  have hreach : Reachable 30 c := Machine.run_of_exec _ hc
  exact ⟨c, request, answer, c', hreach, hnext, hanswer, hbacked.2 rfl,
    (reserve_backed_iff hreach hnext hanswer).1 (hbacked.2 rfl)⟩

/-- A hold that is released and then asked for again. -/
def askedAfterRelease : List (Label Operation Environment) :=
  stocked ++
    session 0 (reserveBoth 50) [0, 0, 0, 0, 0, 0, 0, 0, 0, 0, 0, 0, 31, 32, 0, 0, 0] ++
    session 1 (.release 50 "cancelled") (.replicate 20 0) ++ session 2 (reserveBoth 50) [0, 0]

/-- The reserve answers, with RELEASED rows, and holds nothing. -/
theorem not_backed_after_release : ∃ c request answer c', Reachable 30 c ∧
    (inventory 30).next c (.step 2 0) = some c' ∧
    c.delivered (.step 2 0 : Label Operation Environment) =
      some (.reserve request, .reserved answer false) ∧
    answer.status = .released ∧ ¬ Backed request c'.db := by
  have hrun : ((inventory 30).machine.exec (.idle .empty) askedAfterRelease).bind
      (fun c => replies c (.step 2 0)) = some (.released, false, false) := by
    decide +kernel
  obtain ⟨c, hc, hreplies⟩ := Option.bind_eq_some_iff.1 hrun
  obtain ⟨request, answer, c', hanswer, hnext, hstatus, hbacked⟩ := replies_eq_some hreplies
  exact ⟨c, request, answer, c', Machine.run_of_exec _ hc, hnext, hanswer, hstatus,
    fun h => absurd (hbacked.1 h) Bool.false_ne_true⟩

end SmartLogistics.Inventory
