import SmartLogistics.Inventory.Repeats
import SmartLogistics.Inventory.HoldLife

/-!
# Overlapping reserves of one shipment

A reserve looks for reservations of its shipment before it locks anything, and does not look again.
`Record` is what an observer notes of a run: which open reserves have looked, and which requests
were granted a new hold.

`idempotent_of_run`: as long as no new hold is committed while another open reserve of its shipment
has already looked (`unraced`), the rows of a shipment are the lines of the one request that was
granted, and a reserve that asks for the same lines does not fail (`Idempotent`).
`not_idempotent_when_raced`: two overlapping reserves of one shipment mix their lines, if these
differ, and one of them fails, if they are the same.
-/

set_option autoImplicit false

namespace SmartLogistics.Inventory

open SmartLogistics.Library SmartLogistics.Platform SmartLogistics.Warehouse

variable {unconfirmedHold : Nat}

/-! ## The lines of a shipment -/

/-- What a reservation holds, and where. -/
def InventoryReservation.line (r : InventoryReservation) : Nat × Nat × Int :=
  (r.warehouseId, r.skuId, r.quantity)

/-- The reservations a request asks for. -/
def ReservationRequest.rows (request : ReservationRequest) : List (Nat × Nat × Int) :=
  request.lines.map fun line => (request.warehouseId, line.skuId, line.quantity)

/-- The lines of a shipment's reservations. -/
def linesOf (shipmentId : Nat) (db : Db) : List (Nat × Nat × Int) :=
  (forShipment shipmentId db).map InventoryReservation.line

theorem linesOf_eq_nil {shipmentId : Nat} {db : Db} :
    linesOf shipmentId db = [] ↔ forShipment shipmentId db = [] :=
  List.map_eq_nil_iff

theorem linesOf_congr {shipmentId : Nat} {db db' : Db} (h : db'.reservations = db.reservations) :
    linesOf shipmentId db' = linesOf shipmentId db := by
  rw [linesOf, linesOf, forShipment, forShipment, h]

/-- Rows that move on keep their lines, and new rows add theirs. -/
theorem linesOf_append {db db' : Db} {f : InventoryReservation → InventoryReservation}
    {new : List InventoryReservation} (hrows : db'.reservations = db.reservations.map f ++ new)
    (hf : ∀ r ∈ db.reservations, r.Grows (f r)) (shipmentId : Nat) :
    linesOf shipmentId db' = linesOf shipmentId db ++
      (new.filter (·.shipmentId == shipmentId)).map InventoryReservation.line := by
  have hfilter : db.reservations.filter ((·.shipmentId == shipmentId) ∘ f) =
      db.reservations.filter (·.shipmentId == shipmentId) :=
    List.filter_congr fun r hr => by rw [Function.comp_apply, (hf r hr).shipment]
  rw [linesOf, linesOf, forShipment, forShipment, hrows, List.filter_append, List.map_append,
    List.filter_map, hfilter, List.map_map]
  refine congrArg (· ++ _) (List.map_congr_left fun r hr => ?_)
  have hgrows := hf r (List.mem_of_mem_filter hr)
  simp only [Function.comp_apply, InventoryReservation.line, hgrows.warehouse, hgrows.sku,
    hgrows.quantity]

/-- A commit leaves the lines of every shipment alone, unless it grants a request a new hold. -/
theorem linesOf_commit {op : Operation} {opened db db' : Db} {held : Row → Prop} {a : Outcome}
    {clock : Nat} (hinv : Consistent db)
    (h : Committed unconfirmedHold op opened held a clock db db') :
    (¬ a.IsNew ∧ ∀ shipmentId, linesOf shipmentId db' = linesOf shipmentId db) ∨
    ∃ request answer, op = .reserve request ∧ a = .reserved answer true ∧ ∀ shipmentId,
      linesOf shipmentId db' = linesOf shipmentId db ++
        if request.shipmentId = shipmentId then request.rows else [] := by
  by_cases hop : ∃ request, op = .reserve request
  · obtain ⟨request, rfl⟩ := hop
    cases a with
    | item item => exact h.elim
    | count n => exact h.elim
    | reserved answer created =>
      cases created with
      | false =>
        -- a replay
        refine Or.inl ⟨?_, fun shipmentId => linesOf_congr (congrArg Db.reservations h.2.2)⟩
        rintro ⟨_, hnew⟩
        cases hnew
      | true =>
        obtain ⟨-, cutoff, now, expired, time, holds, -, -, -, hlapsed, hholds, hlines, rfl⟩ := h
        refine Or.inr ⟨request, answer, rfl, rfl, fun shipmentId => ?_⟩
        have hreservations : (((db.expireRows expired now).holdRows holds).stage
            [emitStockEvent "stock.reserved" request.shipmentId request.warehouseId holds
              none]).reservations = db.reservations.map (fun r =>
                if (expired.map InventoryReservation.id).contains r.id then
                  r.release "Unconfirmed hold expired" now else r) ++ holds := rfl
        -- the rows it sweeps keep their lines, and the new ones are the request's
        rw [linesOf_append hreservations (fun r hr => grows_of_selected hlapsed.toSelected
          hinv.reservations (keepsLine_release _ _) (fun _ => rfl) (fun _ => rfl) hr)]
        refine congrArg (_ ++ ·) ?_
        split
        · rename_i heq
          have hall : holds.filter (·.shipmentId == shipmentId) = holds :=
            List.filter_eq_self.2 fun r hr => by rw [(hholds r hr).shipment, heq, beq_self_eq_true]
          have hrows : holds.map InventoryReservation.line =
              (holds.map fun h => (h.skuId, h.quantity)).map (Prod.mk request.warehouseId) := by
            rw [List.map_map]
            refine List.map_congr_left fun r hr => ?_
            simp only [InventoryReservation.line, Function.comp_apply, (hholds r hr).warehouse]
          rw [hall, hrows, hlines, List.map_map]
          rfl
        · rename_i hne
          rw [List.filter_eq_nil_iff.2 fun r hr => by
            rw [(hholds r hr).shipment, beq_iff_eq]
            exact hne]
          rfl
  · -- other operations add no rows
    have hnew : ¬ a.IsNew := by
      rintro ⟨answer, rfl⟩
      cases op with
      | reserve request => exact hop ⟨request, rfl⟩
      | _ => exact h.elim
    refine Or.inl ⟨hnew, fun shipmentId => ?_⟩
    obtain ⟨f, new, holds, rows, heffect⟩ := effect_of_commit hinv h
    have hnone : new = [] := List.eq_nil_iff_forall_not_mem.2 fun r hr => by
      obtain ⟨request, heq, -⟩ := (heffect.added r hr).request
      exact hop ⟨request, heq⟩
    rw [linesOf_append heffect.reservations (fun r hr => (heffect.old r hr).grows), hnone]
    exact List.append_nil _

/-! ## Watching reserves -/

/-- The open reserves that have looked for reservations, each with its shipment, and the requests
that were granted a new hold. -/
structure Record where
  looked : List (Nat × Nat)
  granted : List ReservationRequest

/-- Nothing recorded. -/
def Record.start : Record := ⟨[], []⟩

/-- The request that a step grants a new hold. -/
def grantedBy (c : Config Db Row Failure Outcome Operation) (l : Label Operation Environment) :
    Option ReservationRequest :=
  match c.delivered l with
  | some (.reserve request, .reserved _ true) => some request
  | _ => none

/-- Session `t` has ended, or starts anew. -/
def Record.drop (t : Nat) (record : Record) : Record :=
  { record with looked := record.looked.filter (·.1 != t) }

/-- Session `t` has made a statement; the first one of a reserve looks for reservations. -/
def Record.look (t : Nat) (record : Record) :
    Option (Session Db Row Failure Outcome Operation) → Record
  | some { op := .reserve request, .. } =>
    { record with looked := (t, request.shipmentId) :: record.looked }
  | _ => record.drop t

/-- What the observer notes of a step. -/
def Record.observe (record : Record) (c c' : Config Db Row Failure Outcome Operation) :
    Label Operation Environment → Record
  | .step t draw =>
    { record.look t (c'.sessions t) with
      granted := record.granted ++ (grantedBy c (.step t draw)).toList }
  | .start t _ => record.drop t
  | .abort t => record.drop t
  | .tick _ => record
  | .env _ => record

/-- Every reservation names a SKU of the catalog: the foreign key of `inventory_reservations`. -/
def Db.KnowsSkus (db : Db) : Prop := ∀ r ∈ db.reservations, r.skuId ∈ db.skus.map (·.id)

instance (db : Db) : Decidable db.KnowsSkus :=
  inferInstanceAs (Decidable (∀ r ∈ db.reservations, r.skuId ∈ db.skus.map (·.id)))

/-- Inventory with the foreign key to the catalog, and an observer. -/
def observed (unconfirmedHold : Nat) :
    Machine (Config Db Row Failure Outcome Operation × Record) (Label Operation Environment) where
  next x l := ((inventory unconfirmedHold).next x.1 l).bind fun c' =>
    if c'.db.KnowsSkus then some (c', x.2.observe x.1 c' l) else none

/-- If the step grants a new hold, no other open reserve of the shipment has looked. -/
def unraced (x : Config Db Row Failure Outcome Operation × Record) :
    Label Operation Environment → Bool
  | .step t draw => (grantedBy x.1 (.step t draw)).all fun request =>
      x.2.looked.all fun p => p.1 == t || p.2 != request.shipmentId
  | _ => true

/-! ## Idempotence -/

/-- The next statement of the session fails. -/
def Fails (s : Session Db Row Failure Outcome Operation) (db : Db) : Prop :=
  (∃ e, s.prog = .raise e) ∨ ∃ e, s.outcome db = .error e

/-- The rows of a shipment are the lines of the one request that was granted. -/
def Recorded (db : Db) (granted : List ReservationRequest) : Prop := ∀ shipmentId,
  (linesOf shipmentId db = [] ∧ granted.filter (·.shipmentId == shipmentId) = []) ∨
  ∃ request, granted.filter (·.shipmentId == shipmentId) = [request] ∧
    (linesOf shipmentId db).Perm request.rows

/-- Reserves of one shipment come to one hold, and a repeated request returns it. -/
structure Idempotent (c : Config Db Row Failure Outcome Operation) (record : Record) : Prop where
  single : Recorded c.db record.granted
  repeated : ∀ t s request granted, c.sessions t = some s → s.op = .reserve request →
    granted ∈ record.granted → request.shipmentId = granted.shipmentId →
    request.rows.Perm granted.rows → ¬ Fails s c.db ∧ ∀ a, s.result c.db = some a →
      ∃ answer, a = .reserved answer false ∧ answer.Answers granted

/-! ## Replays of a recorded hold -/

/-- Rows with the lines of the request are what a replay compares it with. -/
theorem matches_of_rows {request : ReservationRequest} {db : Db}
    (hsome : forShipment request.shipmentId db ≠ [])
    (h : (linesOf request.shipmentId db).Perm request.rows) :
    request.Matches (forShipment request.shipmentId db) := by
  have hpairs : ((forShipment request.shipmentId db).map fun r => (r.skuId, r.quantity)).Perm
      (request.lines.map fun line => (line.skuId, line.quantity)) := by
    have hmap := h.map Prod.snd
    rw [linesOf, ReservationRequest.rows, List.map_map, List.map_map] at hmap
    exact hmap
  constructor
  · simp only [Bool.and_eq_true, List.all_eq_true, List.contains_eq_mem, decide_eq_true_eq]
    exact ⟨fun p hp => hpairs.mem_iff.2 hp, fun p hp => hpairs.mem_iff.1 hp⟩
  · obtain ⟨r, rest, hrows⟩ := List.exists_cons_of_ne_nil hsome
    have hmem : r.line ∈ linesOf request.shipmentId db := by
      rw [linesOf, hrows]
      exact List.mem_cons_self
    obtain ⟨line, -, heq⟩ := List.mem_map.1 (h.mem_iff.1 hmem)
    rw [firstWarehouse, hrows]
    exact (Prod.ext_iff.1 heq).1.symm

/-- A replay of a request that matches goes on to read the SKUs. -/
theorem replayed_of_matches {request : ReservationRequest} {existing : List InventoryReservation}
    (h : request.Matches existing) : ∃ k, replayed request existing = .query k := by
  unfold replayed replay
  dsimp only
  rw [if_neg]
  · exact ⟨_, rfl⟩
  · rw [h.1, h.2]
    simp

/-- A replay can name the SKUs of rows that are still there. -/
theorem result_of_knowsSkus {seen db : Db} (hgrow : Grows seen db) (hknown : db.KnowsSkus)
    (shipmentId warehouseId : Nat) :
    ∃ answer, result shipmentId warehouseId (forShipment shipmentId seen)
      (loadSkusAny ((forShipment shipmentId seen).map (·.skuId)) db) = .ok answer := by
  refine result_of_skus fun r hr => ?_
  obtain ⟨r', hr', hg⟩ := hgrow.reservations r (List.mem_of_mem_filter hr)
  obtain ⟨sku, hsku, hid⟩ := List.mem_map.1 (hknown r' hr')
  refine ⟨sku, List.mem_filter.2 ⟨hsku, ?_⟩, hid.trans hg.sku⟩
  rw [List.contains_iff_mem, hid, hg.sku]
  exact List.mem_map_of_mem hr

/-! ## What a run keeps -/

variable {c c' : Config Db Row Failure Outcome Operation} {record : Record}
  {l : Label Operation Environment}

/-- What is known of the state in which a reserve of the shipment found rows. -/
def Same.Lines (shipmentId : Nat) (db seen : Db) : Prop :=
  Consistent seen ∧ Grows seen db ∧ linesOf shipmentId seen = linesOf shipmentId db

/-- What holds along runs without races. -/
structure Exclusive (unconfirmedHold : Nat) (c : Config Db Row Failure Outcome Operation)
    (record : Record) : Prop where
  sound : c.Sound (protocol unconfirmedHold)
  known : c.db.KnowsSkus
  recorded : Recorded c.db record.granted
  waiting : ∀ t s request, c.sessions t = some s → s.op = .reserve request →
    (t, request.shipmentId) ∉ record.looked →
      s.prog = program unconfirmedHold (.reserve request) ∧ s.pending = .ok
  repeating : ∀ t s request, c.sessions t = some s → s.op = .reserve request →
    linesOf request.shipmentId c.db ≠ [] →
      Repeating unconfirmedHold request (Same.Lines request.shipmentId c.db) s

/-- A step leaves the lines of every shipment alone, or it is the commit of a new hold. -/
theorem linesOf_next (hc : c.Sound (protocol unconfirmedHold))
    (hnext : (inventory unconfirmedHold).next c l = some c') :
    (grantedBy c l = none ∧ ∀ shipmentId, linesOf shipmentId c'.db = linesOf shipmentId c.db) ∨
    ∃ t draw s request answer, l = .step t draw ∧ c.sessions t = some s ∧
      s.op = .reserve request ∧ s.prog = .pure (.reserved answer true) ∧
      grantedBy c l = some request ∧ ∀ shipmentId, linesOf shipmentId c'.db =
        linesOf shipmentId c.db ++
          if request.shipmentId = shipmentId then request.rows else [] := by
  rcases (inventory unconfirmedHold).delivered_cases hnext with ⟨hnone, hdb | ⟨e, -, hdb⟩⟩ |
    ⟨t, draw, s, a, hl, hs, hprog, hpending, hsome⟩
  · refine Or.inl ⟨?_, fun shipmentId => by rw [hdb]⟩
    rw [grantedBy, hnone]
  · refine Or.inl ⟨?_, fun shipmentId => linesOf_congr ?_⟩
    · rw [grantedBy, hnone]
    · rw [hdb]
      cases e <;> rfl
  · obtain ⟨-, hpost⟩ := hc.commit hs hprog hpending
    rcases linesOf_commit hc.inv hpost with ⟨hold, hsame⟩ | ⟨request, answer, hop, rfl, hmore⟩
    · refine Or.inl ⟨?_, hsame⟩
      unfold grantedBy
      rw [hsome]
      split
      · rename_i request answer heq
        rw [Option.some.injEq, Prod.mk.injEq] at heq
        exact absurd ⟨answer, heq.2⟩ hold
      · rfl
    · refine Or.inr ⟨t, draw, s, request, answer, hl, hs, hop, hprog, ?_, hmore⟩
      rw [grantedBy, hsome, hop]

theorem granted_observe (record : Record) (c c' : Config Db Row Failure Outcome Operation)
    (l : Label Operation Environment) :
    (record.observe c c' l).granted = record.granted ++ (grantedBy c l).toList := by
  cases l with
  | step t draw => rfl
  | _ => exact (List.append_nil _).symm

/-- A reserve of the observer's list stays on it until its session ends. -/
theorem mem_looked_observe {u shipmentId : Nat} (h : (u, shipmentId) ∈ record.looked)
    (hstart : ∀ op, l ≠ .start u op) (hstep : ∀ draw, l ≠ .step u draw) (habort : l ≠ .abort u) :
    (u, shipmentId) ∈ (record.observe c c' l).looked := by
  have hdrop : ∀ t, u ≠ t → (u, shipmentId) ∈ (record.drop t).looked := fun t hut =>
    List.mem_filter.2 ⟨h, bne_iff_ne.2 hut⟩
  cases l with
  | step t draw =>
    have hut : u ≠ t := fun heq => hstep draw (heq ▸ rfl)
    simp only [Record.observe, Record.look]
    split
    · exact List.mem_cons_of_mem _ h
    · exact hdrop t hut
  | start t op => exact hdrop t fun heq => hstart op (heq ▸ rfl)
  | abort t => exact hdrop t fun heq => habort (heq ▸ rfl)
  | tick n => exact h
  | env e => exact h

/-- A reserve that has made a statement is on the observer's list. -/
theorem mem_looked_of_step {t draw : Nat} {s' : Session Db Row Failure Outcome Operation}
    {request : ReservationRequest} (hs' : c'.sessions t = some s')
    (hop : s'.op = .reserve request) :
    (t, request.shipmentId) ∈ (record.observe c c' (.step t draw)).looked := by
  obtain ⟨op, opened, prog, pending⟩ := s'
  obtain rfl : op = .reserve request := hop
  simp only [Record.observe, hs', Record.look]
  exact List.mem_cons_self

theorem ReservationRequest.rows_ne_nil (request : ReservationRequest) : request.rows ≠ [] :=
  fun h => request.lines_ne_nil (List.map_eq_nil_iff.1 h)

/-- A reserve commits a new hold only for a shipment without reservations. -/
theorem Exclusive.none_of_granted (h : Exclusive unconfirmedHold c record) {t : Nat}
    {s : Session Db Row Failure Outcome Operation} {request : ReservationRequest}
    {answer : ReservationResult} (hs : c.sessions t = some s) (hop : s.op = .reserve request)
    (hprog : s.prog = .pure (.reserved answer true)) : linesOf request.shipmentId c.db = [] := by
  by_contra hsome
  exact (h.repeating t s request hs hop hsome).not_isNew hprog ⟨answer, rfl⟩

theorem Exclusive.recorded_next (h : Exclusive unconfirmedHold c record)
    (hnext : (inventory unconfirmedHold).next c l = some c') :
    Recorded c'.db (record.observe c c' l).granted := by
  intro shipmentId
  rw [granted_observe]
  rcases linesOf_next h.sound hnext with ⟨hnone, hsame⟩ |
    ⟨t, draw, s, request, answer, -, hs, hop, hprog, hgranted, hmore⟩
  · rw [hnone, Option.toList_none, List.append_nil, hsame]
    exact h.recorded shipmentId
  rw [hgranted, Option.toList_some, hmore, List.filter_append]
  by_cases heq : request.shipmentId = shipmentId
  · -- the shipment had no rows, so no request of it was granted before
    have hempty := h.none_of_granted hs hop hprog
    rw [heq] at hempty
    rw [hempty, if_pos heq, List.nil_append]
    rcases h.recorded shipmentId with ⟨-, hnone⟩ | ⟨earlier, -, hperm⟩
    · refine Or.inr ⟨request, ?_, List.Perm.refl _⟩
      rw [hnone, List.nil_append, List.filter_singleton, heq, beq_self_eq_true]
      rfl
    · rw [hempty] at hperm
      exact absurd hperm.symm.eq_nil earlier.rows_ne_nil
  · rw [if_neg heq, List.append_nil, List.filter_singleton, beq_false_of_ne heq]
    simp only [cond_false, List.append_nil]
    exact h.recorded shipmentId

theorem Exclusive.waiting_next (h : Exclusive unconfirmedHold c record)
    (hnext : (inventory unconfirmedHold).next c l = some c') {u : Nat}
    {s' : Session Db Row Failure Outcome Operation} {request : ReservationRequest}
    (hs' : c'.sessions u = some s') (hop : s'.op = .reserve request)
    (hlooked : (u, request.shipmentId) ∉ (record.observe c c' l).looked) :
    s'.prog = program unconfirmedHold (.reserve request) ∧ s'.pending = .ok := by
  rcases (inventory unconfirmedHold).next_session_cases hnext hs' with ⟨op, -, rfl⟩ |
    ⟨draw, s, rfl, -, -, -⟩ | ⟨hs, hstart, hstep⟩
  · obtain rfl : op = .reserve request := hop
    exact ⟨rfl, rfl⟩
  · exact absurd (mem_looked_of_step hs' hop) hlooked
  · refine h.waiting u s' request hs hop fun hmem => hlooked ?_
    refine mem_looked_observe hmem hstart hstep ?_
    rintro rfl
    simp only [System.next, hs, Option.map_some, Option.some.injEq] at hnext
    subst hnext
    simp [Config.finish] at hs'

theorem Exclusive.repeating_next (h : Exclusive unconfirmedHold c record)
    (hok : unraced (c, record) l = true)
    (hnext : (inventory unconfirmedHold).next c l = some c') {u : Nat}
    {s' : Session Db Row Failure Outcome Operation} {request : ReservationRequest}
    (hs' : c'.sessions u = some s') (hop : s'.op = .reserve request)
    (hsome : linesOf request.shipmentId c'.db ≠ []) :
    Repeating unconfirmedHold request (Same.Lines request.shipmentId c'.db) s' := by
  have hgrow : Grows c.db c'.db := h.sound.grow_of_next (protocol_governs unconfirmedHold) hnext
  have hlater : linesOf request.shipmentId c'.db = linesOf request.shipmentId c.db →
      ∀ seen, Same.Lines request.shipmentId c.db seen → Same.Lines request.shipmentId c'.db seen :=
    fun heq seen ⟨hinv, hgrow', hlines⟩ => ⟨hinv, hgrow'.trans hgrow, hlines.trans heq.symm⟩
  rcases (inventory unconfirmedHold).next_session_cases hnext hs' with ⟨op, -, rfl⟩ |
    ⟨draw, s, rfl, hs, hstep, hsop⟩ | ⟨hs, -, hstep⟩
  · obtain rfl : op = .reserve request := hop
    exact .unchecked rfl rfl
  · -- the reserve's own step, which commits nothing
    have hdb : c'.db = c.db := by
      rcases (Config.advance_result hstep).2.2 with ⟨_, -, -, -, hnone⟩ | ⟨-, hdb, -⟩
      · rw [hnone] at hs'
        cases hs'
      · exact hdb
    rw [hdb] at hsome ⊢
    have hrepeating := h.repeating u s request hs (hsop.symm.trans hop) hsome
    rcases hrepeating.advance ⟨h.sound.inv, .refl _, rfl⟩ hstep hs' with h' | ⟨hnone, -⟩ |
      ⟨e, seen, -, ⟨-, hgrow', -⟩, herror⟩
    · exact h'
    · exact absurd (linesOf_eq_nil.2 hnone) hsome
    · obtain ⟨answer, hanswer⟩ := result_of_knowsSkus hgrow' h.known request.shipmentId
        request.warehouseId
      rw [hanswer] at herror
      cases herror
  · rcases linesOf_next h.sound hnext with ⟨-, hsame⟩ |
      ⟨t, draw, s, granted, answer, rfl, ht, htop, hprog, hgranted, hmore⟩
    · rw [hsame] at hsome
      exact (h.repeating u s' request hs hop hsome).mono (hlater (hsame _))
    by_cases heq : granted.shipmentId = request.shipmentId
    · -- the step is a grant for the shipment, so this reserve has not looked
      refine .unchecked ?_ ?_
      all_goals
        have hnot : (u, request.shipmentId) ∉ record.looked := by
          intro hmem
          simp only [unraced, hgranted, Option.all_some, List.all_eq_true, Bool.or_eq_true,
            beq_iff_eq, bne_iff_ne] at hok
          rcases hok _ hmem with hut | hne
          · exact hstep draw (congrArg (Label.step · draw) hut.symm)
          · exact hne heq.symm
      · exact (h.waiting u s' request hs hop hnot).1
      · exact (h.waiting u s' request hs hop hnot).2
    · have hsame : linesOf request.shipmentId c'.db = linesOf request.shipmentId c.db := by
        rw [hmore, if_neg heq, List.append_nil]
      rw [hsame] at hsome
      exact (h.repeating u s' request hs hop hsome).mono (hlater hsame)

/-- A session that has written nothing and queries or returns next does not fail. -/
theorem not_fails_of_quiet {s : Session Db Row Failure Outcome Operation} {db : Db}
    (hpending : s.pending = .ok) (hprog : (∃ k, s.prog = .query k) ∨ ∃ a, s.prog = .pure a) :
    ¬ Fails s db := by
  rintro (⟨e, hraise⟩ | ⟨e, herror⟩)
  · rcases hprog with ⟨k, hprog⟩ | ⟨a, hprog⟩
    · rw [hprog] at hraise
      cases hraise
    · rw [hprog] at hraise
      cases hraise
  · rcases hprog with ⟨k, hprog⟩ | ⟨a, hprog⟩
    · rw [Session.outcome, hprog, hpending] at herror
      cases herror
    · rw [Session.outcome, hprog, hpending] at herror
      cases herror

/-- Every unraced step keeps it. -/
theorem Exclusive.next (h : Exclusive unconfirmedHold c record)
    (hok : unraced (c, record) l = true)
    (hnext : (inventory unconfirmedHold).next c l = some c') (hknown : c'.db.KnowsSkus) :
    Exclusive unconfirmedHold c' (record.observe c c' l) where
  sound := h.sound.next (protocol_governs unconfirmedHold) hnext
  known := hknown
  recorded := h.recorded_next hnext
  waiting := fun _ _ _ => h.waiting_next hnext
  repeating := fun _ _ _ => h.repeating_next hok hnext

theorem exclusive_start (unconfirmedHold : Nat) :
    Exclusive unconfirmedHold (.idle .empty) .start where
  sound := Config.sound_idle consistent_empty
  known := fun r hr => absurd hr List.not_mem_nil
  recorded := fun _ => Or.inl ⟨rfl, rfl⟩
  waiting := fun t s _ hs => by simp [Config.idle] at hs
  repeating := fun t s _ hs => by simp [Config.idle] at hs

/-- A reserve with the lines of a granted request does not fail, and returns its hold. -/
theorem Exclusive.repeated (h : Exclusive unconfirmedHold c record) {t : Nat}
    {s : Session Db Row Failure Outcome Operation} {request granted : ReservationRequest}
    (hs : c.sessions t = some s) (hop : s.op = .reserve request)
    (hgranted : granted ∈ record.granted)
    (hship : request.shipmentId = granted.shipmentId) (hrows : request.rows.Perm granted.rows) :
    ¬ Fails s c.db ∧ ∀ a, s.result c.db = some a →
      ∃ answer, a = .reserved answer false ∧ answer.Answers granted := by
  -- only the one granted request has rows, and they are its lines
  have hlines : (linesOf request.shipmentId c.db).Perm request.rows := by
    have hmem : granted ∈ record.granted.filter (·.shipmentId == request.shipmentId) :=
      List.mem_filter.2 ⟨hgranted, beq_iff_eq.2 hship.symm⟩
    rcases h.recorded request.shipmentId with ⟨-, hnone⟩ | ⟨one, hone, hperm⟩
    · rw [hnone] at hmem
      exact absurd hmem List.not_mem_nil
    · rw [hone, List.mem_singleton] at hmem
      subst hmem
      exact hperm.trans hrows.symm
  have hsome : linesOf request.shipmentId c.db ≠ [] := fun hnil => by
    rw [hnil] at hlines
    exact request.rows_ne_nil hlines.symm.eq_nil
  -- how far it has come
  cases h.repeating t s request hs hop hsome with
  | unchecked hprog hpending =>
    rw [program_reserve] at hprog
    refine ⟨not_fails_of_quiet hpending (Or.inl ⟨_, hprog⟩), fun a ha => ?_⟩
    rw [(Session.result_eq_some.1 ha).1] at hprog
    cases hprog
  | found seen hseen hfound hpending hprog =>
    obtain ⟨-, -, heq⟩ := hseen
    obtain ⟨k, hk⟩ := replayed_of_matches (matches_of_rows hfound (heq ▸ hlines))
    rw [hk] at hprog
    refine ⟨not_fails_of_quiet hpending (Or.inl ⟨_, hprog⟩), fun a ha => ?_⟩
    rw [(Session.result_eq_some.1 ha).1] at hprog
    cases hprog
  | answered seen _ _ hpending _ hprog =>
    obtain ⟨answer, hprog⟩ := hprog
    refine ⟨not_fails_of_quiet hpending (Or.inr ⟨_, hprog⟩), fun a ha => ?_⟩
    obtain ⟨ha, db', hdb'⟩ := Session.result_eq_some.1 ha
    rw [hprog, Txn.pure.injEq] at ha
    subst ha
    obtain ⟨-, hpost⟩ := h.sound.commit hs hprog hdb'
    have hpost : Committed unconfirmedHold (.reserve request) s.opened (c.Held t)
        (.reserved answer false) c.clock c.db db' := hop ▸ hpost
    obtain ⟨⟨hid, hanswered⟩, -, -⟩ := hpost
    refine ⟨answer, rfl, hid.trans hship, hanswered.trans ?_⟩
    have hpairs := hrows.map Prod.snd
    rwa [ReservationRequest.rows, ReservationRequest.rows, List.map_map, List.map_map] at hpairs

/-- Along every run in which no new hold is committed while another open reserve of its shipment has
already looked for one, the rows of a shipment are the lines of the one request that was granted,
and a reserve with these lines returns them. -/
theorem idempotent_of_run {c : Config Db Row Failure Outcome Operation} {record : Record}
    (h : (observed unconfirmedHold).RunOf (fun x l => unraced x l = true)
      (.idle .empty, .start) (c, record)) : Idempotent c record := by
  have hstep : ∀ (x : Config Db Row Failure Outcome Operation × Record) l y,
      Exclusive unconfirmedHold x.1 x.2 → unraced x l = true →
      (observed unconfirmedHold).next x l = some y → Exclusive unconfirmedHold y.1 y.2 := by
    rintro ⟨c, record⟩ l y hx hok hnext
    obtain ⟨c', hc', hkept⟩ := Option.bind_eq_some_iff.1 hnext
    split at hkept
    · rename_i hknown
      cases hkept
      exact hx.next hok hc' hknown
    · cases hkept
  have hexclusive := h.preserves hstep (exclusive_start unconfirmedHold)
  exact ⟨hexclusive.recorded, fun t s request granted hs hop hgranted hship hrows =>
    hexclusive.repeated hs hop hgranted hship hrows⟩

/-- The shipments of the granted requests, and the lines of shipment 50. -/
def holdOf50 (x : Config Db Row Failure Outcome Operation × Record) :
    List Nat × List (Nat × Nat × Int) :=
  (x.2.granted.map (·.shipmentId), linesOf 50 x.1.db)

/-- A reserve and, after it, a repeated one that is about to answer. -/
theorem idempotent_in_turn : ∃ c record,
    (observed 30).RunOf (fun x l => unraced x l = true) (.idle .empty, .start) (c, record) ∧
    holdOf50 (c, record) = ([50], [(7, 1, 1)]) ∧ Idempotent c record := by
  have hrun : ((observed 30).execOf (fun x l => unraced x l = true) (.idle .empty, .start)
      (stocked ++ session 0 (reserveOne 50 1) (.replicate 14 31) ++
        session 1 (reserveOne 50 1) [0, 0])).map holdOf50 = some ([50], [(7, 1, 1)]) := by
    decide +kernel
  obtain ⟨⟨c, record⟩, hc, hhold⟩ := Option.map_eq_some_iff.1 hrun
  have hrunOf := Machine.runOf_of_execOf _ hc
  exact ⟨c, record, hrunOf, hhold, idempotent_of_run hrunOf⟩

/-- Both reserves of shipment 50 look before one of them is granted its hold. -/
def overlappingReserves (skuId skuId' : Nat) (n : Nat) : List (Label Operation Environment) :=
  stocked ++ session 0 (reserveOne 50 skuId) [0] ++
    session 1 (reserveOne 50 skuId') (.replicate 14 32) ++ List.replicate n (.step 0 31)

/-- Session `t` reserves what a granted request of the same shipment asked for, and fails. -/
def repeatFails (t : Nat) (x : Config Db Row Failure Outcome Operation × Record) : Bool :=
  match x.1.sessions t with
  | some { op := .reserve request, prog := .flush f _, pending := pending, .. } =>
    x.2.granted.any (fun granted =>
      request.shipmentId == granted.shipmentId && decide (request.rows = granted.rows)) &&
    match pending x.1.db >>= f with
    | .ok _ => false
    | .error _ => true
  | _ => false

theorem not_idempotent_of_repeatFails {t : Nat}
    {x : Config Db Row Failure Outcome Operation × Record} (h : repeatFails t x = true) :
    ¬ Idempotent x.1 x.2 := by
  intro hidempotent
  unfold repeatFails at h
  split at h
  · rename_i request opened f k pending hs
    simp only [Bool.and_eq_true, List.any_eq_true, beq_iff_eq, decide_eq_true_eq] at h
    obtain ⟨⟨granted, hgranted, hship, hrows⟩, herror⟩ := h
    split at herror
    · cases herror
    · rename_i e he
      refine (hidempotent.repeated t _ request granted hs rfl hgranted hship
        (hrows ▸ List.Perm.refl _)).1 (Or.inr ⟨e, ?_⟩)
      exact he
  · cases h

/-- Overlapping reserves of one shipment: lines of both, if they differ, and a failure of the second
one, if they are the same. -/
theorem not_idempotent_when_raced :
    (∃ c record, (observed 30).Run (.idle .empty, .start) (c, record) ∧
      holdOf50 (c, record) = ([50, 50], [(7, 2, 1), (7, 1, 1)]) ∧ ¬ Idempotent c record) ∧
    ∃ c record, (observed 30).Run (.idle .empty, .start) (c, record) ∧
      holdOf50 (c, record) = ([50], [(7, 1, 1)]) ∧ ¬ Idempotent c record := by
  constructor
  · have hrun : ((observed 30).exec (.idle .empty, .start) (overlappingReserves 1 2 13)).map
        holdOf50 = some ([50, 50], [(7, 2, 1), (7, 1, 1)]) := by
      decide +kernel
    obtain ⟨⟨c, record⟩, hc, hhold⟩ := Option.map_eq_some_iff.1 hrun
    refine ⟨c, record, Machine.run_of_exec _ hc, hhold, fun hidempotent => ?_⟩
    -- two requests were granted
    have hgranted : record.granted.map (·.shipmentId) = [50, 50] := congrArg Prod.fst hhold
    have hall : record.granted.filter (·.shipmentId == 50) = record.granted := by
      refine List.filter_eq_self.2 fun request hmem => ?_
      have hid := List.mem_map_of_mem (f := (·.shipmentId)) hmem
      rw [hgranted] at hid
      simpa using hid
    have hlength : record.granted.length = 2 := by simpa using congrArg List.length hgranted
    rcases hidempotent.single 50 with ⟨-, hnone⟩ | ⟨request, hone, -⟩
    · rw [hall] at hnone
      rw [hnone] at hlength
      cases hlength
    · rw [hall] at hone
      rw [hone] at hlength
      cases hlength
  · have hrun : ((observed 30).exec (.idle .empty, .start) (overlappingReserves 1 1 10)).map
        (fun x => (holdOf50 x, repeatFails 0 x)) = some (([50], [(7, 1, 1)]), true) := by
      decide +kernel
    obtain ⟨⟨c, record⟩, hc, hstate⟩ := Option.map_eq_some_iff.1 hrun
    rw [Prod.mk.injEq] at hstate
    exact ⟨c, record, Machine.run_of_exec _ hc, hstate.1, not_idempotent_of_repeatFails hstate.2⟩

end SmartLogistics.Inventory
