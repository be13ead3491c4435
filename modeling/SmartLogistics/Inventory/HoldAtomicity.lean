import SmartLogistics.Inventory.Runs

/-!
# Holds that live and end as one

`Whole`: the reservations of one shipment have one status, and its HELD ones agree on being
confirmed. The lazy reclaim inside a reserve works item by item, and a late second reserve adds rows
to a shipment that has some, so Inventory keeps `Whole` only along runs in which each commit covers
the holds it rewrites (`CoversHolds`).

`whole_of_run`: along such a run the state is `Whole`, and a commit dispatches every line of its
shipment (`Dispatched`). `not_whole_after_lazy_reclaim`: a reserve of another shipment reclaims one
of two lapsed holds, and a late commit takes the other one only.
-/

set_option autoImplicit false

namespace SmartLogistics.Inventory

open SmartLogistics.Library SmartLogistics.Platform SmartLogistics.Warehouse

variable {unconfirmedHold : Nat}

/-- The reservations of a shipment stand as one hold. -/
structure Whole (db : Db) : Prop where
  status : ∀ r ∈ db.reservations, ∀ r' ∈ db.reservations, r.shipmentId = r'.shipmentId →
    r.status = r'.status
  confirmed : ∀ r ∈ db.reservations, ∀ r' ∈ db.reservations, r.shipmentId = r'.shipmentId →
    r.status = .held → r.confirmedAt.isSome = r'.confirmedAt.isSome

/-- What a commit that returns `n` leaves of its shipment: every row COMMITTED, and the quantity of
every row off its item, unless a commit before this one dispatched the shipment. -/
structure Dispatched (shipmentId n : Nat) (db db' : Db) : Prop where
  committed : ∀ r ∈ db'.reservations, r.shipmentId = shipmentId → r.status = .committed
  repeated : n = 0 → db' = db
  on_hand : n ≠ 0 → ∀ i ∈ db.items, ∃ i' ∈ db'.items, i'.id = i.id ∧
    i'.onHandQty = i.onHandQty - qtyOn (forShipment shipmentId db) i.id

/-! ## Commits that cover their holds -/

/-- The commit of the operation rewrites the row, if it has locked it. -/
def Operation.rewrites : Operation → InventoryReservation → Bool
  | .confirm _, r => r.status == .held && r.confirmedAt.isNone
  | .commit _ _, r => r.status == .held
  | .release _ _, r => r.status == .held
  | .reserve _, r => r.status == .held && r.confirmedAt.isNone
  | .releaseExpired _, r => r.status == .held && r.confirmedAt.isNone
  | .openPosition _ _, _ => false
  | .adjust _ _ _, _ => false

/-- Session `t`, about to commit `op`, has locked every HELD row of each shipment it rewrites a row
of. -/
def LocksAll (c : Config Db Row Failure Outcome Operation) (t : Nat) (op : Operation) : Prop :=
  ∀ r ∈ c.db.reservations, c.locks (.reservation r.id) = some t → op.rewrites r = true →
    ∀ r' ∈ c.db.reservations, r'.shipmentId = r.shipmentId → r'.status = .held →
      c.locks (.reservation r'.id) = some t

/-- A new hold joins rows of its shipment only while these are unconfirmed holds that its own
transaction does not reclaim. -/
def JoinsHeld (c : Config Db Row Failure Outcome Operation) (t : Nat) : Operation → Outcome → Prop
  | .reserve request, .reserved _ true =>
    ∀ r ∈ c.db.reservations, r.shipmentId = request.shipmentId →
      r.status = .held ∧ r.confirmedAt = none ∧ c.locks (.reservation r.id) ≠ some t
  | _, _ => True

instance (c : Config Db Row Failure Outcome Operation) (t : Nat) (op : Operation) :
    Decidable (LocksAll c t op) := by
  unfold LocksAll
  infer_instance

instance (c : Config Db Row Failure Outcome Operation) (t : Nat) (op : Operation) (a : Outcome) :
    Decidable (JoinsHeld c t op a) := by
  unfold JoinsHeld
  split <;> infer_instance

/-- If the step is a commit that the database accepts, it covers the holds it rewrites. -/
def CoversHolds (c : Config Db Row Failure Outcome Operation) :
    Label Operation Environment → Prop
  | .step t _ =>
    match c.sessions t with
    | some s =>
      match s.prog, s.pending c.db with
      | .pure a, .ok _ => LocksAll c t s.op ∧ JoinsHeld c t s.op a
      | _, _ => True
    | none => True
  | _ => True

/-- A condition on a commit that the database accepts is computed from the answer. -/
def decidableIfAccepted (rest : InventoryTxn Outcome) (pending : Except Failure Db)
    (p : Outcome → Prop) (hp : ∀ a, Decidable (p a)) :
    Decidable (match rest, pending with | .pure a, .ok _ => p a | _, _ => True) := by
  split <;> infer_instance

/-- A condition on the session that takes a step is computed from the session. -/
def decidableIfOpen (session : Option (Session Db Row Failure Outcome Operation))
    (p : Session Db Row Failure Outcome Operation → Prop) (hp : ∀ s, Decidable (p s)) :
    Decidable (match session with | some s => p s | none => True) := by
  cases session <;> infer_instance

instance (c : Config Db Row Failure Outcome Operation) :
    ∀ l : Label Operation Environment, Decidable (CoversHolds c l)
  | .step t _ =>
    decidableIfOpen (c.sessions t) _ fun s =>
      decidableIfAccepted s.prog (s.pending c.db) _ fun _ => instDecidableAnd
  | .start _ _ | .abort _ | .tick _ | .env _ => instDecidableTrue

theorem CoversHolds.of_commit {c : Config Db Row Failure Outcome Operation} {t draw : Nat}
    (h : CoversHolds c (.step t draw)) {s : Session Db Row Failure Outcome Operation}
    (hs : c.sessions t = some s) {a : Outcome} (ha : s.prog = .pure a) {db : Db}
    (hdb : s.pending c.db = .ok db) : LocksAll c t s.op ∧ JoinsHeld c t s.op a := by
  simpa only [CoversHolds, hs, ha, hdb] using h

/-! ## Rewrites of whole holds -/

theorem Whole.congr {db db' : Db} (h : Whole db) (heq : db'.reservations = db.reservations) :
    Whole db' := by
  obtain ⟨hstatus, hconfirmed⟩ := h
  constructor
  · rwa [heq]
  · rwa [heq]

/-- The rows of a shipment are in the list all or none. -/
def AllOrNone (holds : List InventoryReservation) (db : Db) : Prop :=
  ∀ h ∈ holds, ∀ r ∈ db.reservations, r.shipmentId = h.shipmentId → r ∈ holds

/-- Rewriting all or none of each shipment's rows keeps holds whole, if rows that agree before the
rewrite agree after it. -/
theorem Whole.writeReservations {db : Db} (h : Whole db)
    (hk : Table.Keyed InventoryReservation.id db.reservations) {holds : List InventoryReservation}
    (hs : Selected holds db) (hall : AllOrNone holds db)
    {set : InventoryReservation → InventoryReservation} (hset : KeepsLine set)
    (hstatus : ∀ r r', r.status = r'.status → (set r).status = (set r').status)
    (hconfirmed : ∀ r r', (set r).status = .held →
      (set r).confirmedAt.isSome = (set r').confirmedAt.isSome) :
    Whole (db.writeReservations (holds.map (·.id)) set) := by
  -- two rows of one shipment are rewritten both or neither
  have hboth : ∀ {r r' : InventoryReservation}, r ∈ db.reservations → r' ∈ db.reservations →
      r.shipmentId = r'.shipmentId → (holds.map (·.id)).contains r.id = true →
        (holds.map (·.id)).contains r'.id = true := fun hr hr' hid hc =>
    (hs.contains_iff hk hr').2 (hall _ ((hs.contains_iff hk hr).1 hc) _ hr' hid.symm)
  have hship : ∀ r : InventoryReservation,
      (if (holds.map (·.id)).contains r.id then set r else r).shipmentId = r.shipmentId := by
    intro r
    split
    · exact hset.shipment r
    · rfl
  constructor
  · intro x hx x' hx' hid
    obtain ⟨r, hr, rfl⟩ := Db.mem_writeReservations.1 hx
    obtain ⟨r', hr', rfl⟩ := Db.mem_writeReservations.1 hx'
    rw [hship, hship] at hid
    by_cases hc : (holds.map (·.id)).contains r.id = true
    · rw [if_pos hc, if_pos (hboth hr hr' hid hc)]
      exact hstatus r r' (h.status r hr r' hr' hid)
    · rw [if_neg hc, if_neg fun hc' => hc (hboth hr' hr hid.symm hc')]
      exact h.status r hr r' hr' hid
  · intro x hx x' hx' hid
    obtain ⟨r, hr, rfl⟩ := Db.mem_writeReservations.1 hx
    obtain ⟨r', hr', rfl⟩ := Db.mem_writeReservations.1 hx'
    rw [hship, hship] at hid
    by_cases hc : (holds.map (·.id)).contains r.id = true
    · rw [if_pos hc, if_pos (hboth hr hr' hid hc)]
      exact hconfirmed r r'
    · rw [if_neg hc, if_neg fun hc' => hc (hboth hr' hr hid.symm hc')]
      exact h.confirmed r hr r' hr' hid

theorem Whole.releaseRows {db : Db} (h : Whole db)
    (hk : Table.Keyed InventoryReservation.id db.reservations) {holds : List InventoryReservation}
    (hs : Selected holds db) (hall : AllOrNone holds db) (reason : String) (now : Nat) :
    Whole (db.releaseRows holds reason now) := by
  have hrows : Whole (db.writeReservations (holds.map (·.id))
      (InventoryReservation.release reason now)) :=
    h.writeReservations hk hs hall (keepsLine_release _ _) (fun _ _ _ => rfl)
      fun _ _ hheld => by cases hheld
  exact hrows.congr rfl

theorem Whole.commitRows {db : Db} (h : Whole db)
    (hk : Table.Keyed InventoryReservation.id db.reservations) {holds : List InventoryReservation}
    (hs : Selected holds db) (hall : AllOrNone holds db) (now : Nat) (rows : List StockMovement) :
    Whole (db.commitRows holds now rows) := by
  have hrows : Whole (db.writeReservations (holds.map (·.id)) (InventoryReservation.commit now)) :=
    h.writeReservations hk hs hall (keepsLine_commit _) (fun _ _ _ => rfl)
      fun _ _ hheld => by cases hheld
  exact hrows.congr rfl

/-- New holds of one shipment keep holds whole, if the rows the shipment has are unconfirmed holds
like them. -/
theorem Whole.holdRows {db : Db} (h : Whole db) {shipmentId : Nat}
    {holds : List InventoryReservation}
    (hnew : ∀ r ∈ holds, r.shipmentId = shipmentId ∧ r.status = .held ∧ r.confirmedAt = none)
    (hold : ∀ r ∈ db.reservations, r.shipmentId = shipmentId →
      r.status = .held ∧ r.confirmedAt = none) : Whole (db.holdRows holds) := by
  -- every row of the shipment is an unconfirmed hold, and the other rows are as they were
  have hthis : ∀ r ∈ (db.holdRows holds).reservations, r.shipmentId = shipmentId →
      r.status = .held ∧ r.confirmedAt = none := by
    intro r hr hid
    rcases List.mem_append.1 hr with hr | hr
    · exact hold r hr hid
    · exact (hnew r hr).2
  have hother : ∀ r ∈ (db.holdRows holds).reservations, r.shipmentId ≠ shipmentId →
      r ∈ db.reservations := by
    intro r hr hid
    rcases List.mem_append.1 hr with hr | hr
    · exact hr
    · exact absurd (hnew r hr).1 hid
  constructor
  · intro r hr r' hr' hid
    by_cases hs : r.shipmentId = shipmentId
    · rw [(hthis r hr hs).1, (hthis r' hr' (hid.symm.trans hs)).1]
    · exact h.status r (hother r hr hs) r' (hother r' hr' fun hs' => hs (hid.trans hs')) hid
  · intro r hr r' hr' hid hheld
    by_cases hs : r.shipmentId = shipmentId
    · rw [(hthis r hr hs).2, (hthis r' hr' (hid.symm.trans hs)).2]
    · exact h.confirmed r (hother r hr hs) r' (hother r' hr' fun hs' => hs (hid.trans hs')) hid
        hheld

/-! ## Each commit -/

/-- A commit that covers the lapsed holds it reclaims reclaims all or none of each shipment. -/
theorem Lapsed.allOrNone {c : Config Db Row Failure Outcome Operation} (h : Whole c.db)
    (hk : Table.Keyed InventoryReservation.id c.db.reservations) {t cutoff : Nat} {op : Operation}
    (hop : ∀ r, op.rewrites r = (r.status == .held && r.confirmedAt.isNone))
    (hall : LocksAll c t op) {expired : List InventoryReservation}
    (hl : Lapsed (c.Held t) cutoff expired c.db) : AllOrNone expired c.db := by
  intro x hx r hr hid
  have hlapsed := hl.lapsed x hx
  simp only [isLapsed, Bool.and_eq_true, beq_iff_eq] at hlapsed
  obtain ⟨⟨hheld, hnone⟩, -⟩ := hlapsed
  have hrheld : r.status = .held := (h.status r hr x (hl.mem x hx) hid).trans hheld
  have hrnone : r.confirmedAt = none := by
    have hsome := h.confirmed x (hl.mem x hx) r hr hid.symm hheld
    rwa [Option.isNone_iff_eq_none.1 hnone, Option.isSome_none, eq_comm,
      Option.isSome_eq_false_iff, Option.isNone_iff_eq_none] at hsome
  have hlocked := hall x (hl.mem x hx) (hl.locked x hx) (by rw [hop, hheld, hnone]; rfl) r hr hid
    hrheld
  obtain ⟨r', hr', hid', honly⟩ := hl.only r.id hlocked
  obtain rfl := hk.eq_of_key hr' hr hid'
  exact honly hrheld hrnone

/-- A commit that covers the HELD rows of a shipment it rewrites rewrites all or none of each
shipment. -/
theorem HeldRows.allOrNone {c : Config Db Row Failure Outcome Operation} (h : Whole c.db)
    (hk : Table.Keyed InventoryReservation.id c.db.reservations) {t shipmentId : Nat}
    {op : Operation} (hop : ∀ r, op.rewrites r = (r.status == .held)) (hall : LocksAll c t op)
    {opened : Db} {holds : List InventoryReservation}
    (hl : HeldRows shipmentId opened (c.Held t) holds c.db) :
    AllOrNone holds c.db := by
  intro x hx r hr hid
  have hrheld : r.status = .held :=
    (h.status r hr x (hl.mem x hx) hid).trans (hl.status x hx)
  have hlocked := hall x (hl.mem x hx) (hl.locked x hx) (by rw [hop, hl.status x hx]; rfl) r hr hid
    hrheld
  obtain ⟨r', hr', hid', honly⟩ := hl.only r.id hlocked
  obtain rfl := hk.eq_of_key hr' hr hid'
  exact honly hrheld

/-- The unconfirmed ones of the rows that a covering confirm has locked are all or none of each
shipment's. -/
theorem HeldRows.allOrNone_unconfirmed {c : Config Db Row Failure Outcome Operation}
    (h : Whole c.db) (hk : Table.Keyed InventoryReservation.id c.db.reservations)
    {t shipmentId : Nat} {op : Operation}
    (hop : ∀ r, op.rewrites r = (r.status == .held && r.confirmedAt.isNone))
    (hall : LocksAll c t op) {opened : Db} {holds : List InventoryReservation}
    (hl : HeldRows shipmentId opened (c.Held t) holds c.db) :
    AllOrNone (holds.filter (·.confirmedAt.isNone)) c.db := by
  intro x hx r hr hid
  obtain ⟨hx, hnone⟩ := List.mem_filter.1 hx
  have hrheld : r.status = .held :=
    (h.status r hr x (hl.mem x hx) hid).trans (hl.status x hx)
  have hrnone : r.confirmedAt.isNone = true := by
    have hsome := h.confirmed x (hl.mem x hx) r hr hid.symm (hl.status x hx)
    rwa [Option.isNone_iff_eq_none.1 hnone, Option.isSome_none, eq_comm,
      Option.isSome_eq_false_iff] at hsome
  have hlocked := hall x (hl.mem x hx) (hl.locked x hx)
    (by rw [hop, hl.status x hx, hnone]; rfl) r hr hid hrheld
  obtain ⟨r', hr', hid', honly⟩ := hl.only r.id hlocked
  obtain rfl := hk.eq_of_key hr' hr hid'
  exact List.mem_filter.2 ⟨honly hrheld, hrnone⟩

/-- A sweep that covers its holds keeps holds whole. -/
theorem Whole.expireRows {c : Config Db Row Failure Outcome Operation} (h : Whole c.db)
    (hk : Table.Keyed InventoryReservation.id c.db.reservations) {t cutoff : Nat} {op : Operation}
    (hop : ∀ r, op.rewrites r = (r.status == .held && r.confirmedAt.isNone))
    (hall : LocksAll c t op) {expired : List InventoryReservation}
    (hl : Lapsed (c.Held t) cutoff expired c.db) (now : Nat) :
    Whole (c.db.expireRows expired now) :=
  (h.releaseRows hk hl.toSelected (hl.allOrNone h hk hop hall) _ now).congr rfl

/-- Each commit that covers the holds it rewrites keeps holds whole. -/
theorem Whole.commit {c : Config Db Row Failure Outcome Operation} (h : Whole c.db)
    (hinv : Consistent c.db) {t : Nat} {op : Operation} {a : Outcome} {db' : Db}
    (hall : LocksAll c t op) (hjoins : JoinsHeld c t op a)
    {opened : Db} (hpost : Committed unconfirmedHold op opened (c.Held t) a c.clock c.db db') :
    Whole db' := by
  have hk := hinv.reservations
  cases op with
  | openPosition payload principal =>
    cases a with
    | item item => exact h.congr hpost.reservations
    | reserved answer created => exact hpost.elim
    | count n => exact hpost.elim
  | adjust itemId payload principal =>
    cases a with
    | item item => exact h.congr hpost.reservations
    | reserved answer created => exact hpost.elim
    | count n => exact hpost.elim
  | reserve request =>
    cases a with
    | item item => exact hpost.elim
    | count n => exact hpost.elim
    | reserved answer created =>
      cases created with
      | false => exact h.congr (congrArg Db.reservations hpost.2.2)
      | true =>
        obtain ⟨-, cutoff, now, expired, time, holds, -, -, -, hl, hholds, -, rfl⟩ := hpost
        have hnew : ∀ r ∈ holds, r.shipmentId = request.shipmentId ∧ r.status = .held ∧
            r.confirmedAt = none := fun r hr =>
          ⟨(hholds r hr).shipment, (hholds r hr).status, (hholds r hr).unconfirmed⟩
        -- a row that was there and is not locked by this session was not reclaimed
        have hold : ∀ r ∈ (c.db.expireRows expired now).reservations,
            r.shipmentId = request.shipmentId → r.status = .held ∧ r.confirmedAt = none := by
          intro r hr hid
          obtain ⟨r₀, hr₀, rfl⟩ := Db.mem_writeReservations.1 hr
          by_cases hc : (expired.map (·.id)).contains r₀.id = true
          · have hmem := (hl.toSelected.contains_iff hk hr₀).1 hc
            rw [if_pos hc] at hid
            exact absurd (hl.locked r₀ hmem) (hjoins r₀ hr₀ hid).2.2
          · rw [if_neg hc] at hid ⊢
            exact ⟨(hjoins r₀ hr₀ hid).1, (hjoins r₀ hr₀ hid).2.1⟩
        exact ((h.expireRows hk (fun _ => rfl) hall hl now).holdRows hnew hold).congr rfl
  | confirm shipmentId =>
    cases a with
    | item item => exact hpost.elim
    | reserved answer created => exact hpost.elim
    | count n =>
      obtain ⟨now, holds, hl, -, rfl⟩ := hpost
      have hsel : Selected (holds.filter (·.confirmedAt.isNone)) c.db :=
        ⟨fun x hx => hl.mem x (List.mem_of_mem_filter hx), hl.nodup.filter _,
          fun x hx => hl.status x (List.mem_of_mem_filter hx)⟩
      exact h.writeReservations hk hsel
        (hl.allOrNone_unconfirmed h hk (fun _ => rfl) hall) (keepsLine_confirm _)
        (fun _ _ heq => heq) fun _ _ _ => rfl
  | commit shipmentId actorId =>
    cases a with
    | item item => exact hpost.elim
    | reserved answer created => exact hpost.elim
    | count n =>
      rcases hpost with ⟨-, rfl, -, -⟩ | ⟨now, holds, rows, -, hl, -, -, -, rfl⟩
      · exact h
      · exact (h.commitRows hk hl.toSelected (hl.allOrNone h hk (fun _ => rfl) hall) now
          rows).congr rfl
  | release shipmentId reason =>
    cases a with
    | item item => exact hpost.elim
    | reserved answer created => exact hpost.elim
    | count n =>
      rcases hpost with ⟨-, rfl, -⟩ | ⟨now, holds, -, hl, -, -, rfl⟩
      · exact h
      · exact (h.releaseRows hk hl.toSelected (hl.allOrNone h hk (fun _ => rfl) hall) reason
          now).congr rfl
  | releaseExpired warehouseIds =>
    cases a with
    | item item => exact hpost.elim
    | reserved answer created => exact hpost.elim
    | count n =>
      rcases hpost with ⟨-, rfl⟩ | ⟨cutoff, now, expired, -, -, hl, -, rfl⟩
      · exact h
      · exact h.expireRows hk (fun _ => rfl) hall hl now

/-- A covering commit of a whole hold dispatches every line of it. -/
theorem Whole.dispatched {c : Config Db Row Failure Outcome Operation} (h : Whole c.db)
    (hinv : Consistent c.db) {t shipmentId n : Nat} {actorId : Option Nat} {opened db' : Db}
    (hall : LocksAll c t (.commit shipmentId actorId))
    (hpost : Committed unconfirmedHold (.commit shipmentId actorId) opened (c.Held t) (.count n)
      c.clock c.db db') : Dispatched shipmentId n c.db db' := by
  have hk := hinv.reservations
  rcases hpost with ⟨rfl, rfl, -, hcommitted⟩ | ⟨now, holds, rows, hne, hl, -, rfl, -, rfl⟩
  · simp only [hasStatus, List.any_eq_true, Bool.and_eq_true, beq_iff_eq] at hcommitted
    obtain ⟨x, hx, hid, hst⟩ := hcommitted
    exact ⟨fun r hr hrid => (h.status r hr x hx (hrid.trans hid.symm)).trans hst, fun _ => rfl,
      fun hzero => absurd rfl hzero⟩
  · have hclosed := hl.allOrNone h hk (fun _ => rfl) hall
    obtain ⟨x, hx⟩ := List.exists_mem_of_ne_nil holds hne
    -- the selection is the whole shipment
    have hmem : ∀ r, r ∈ holds ↔ r ∈ forShipment shipmentId c.db := by
      intro r
      simp only [forShipment, List.mem_filter, beq_iff_eq]
      constructor
      · exact fun hr => ⟨hl.mem r hr, hl.shipment r hr⟩
      · rintro ⟨hr, hid⟩
        exact hclosed x hx r hr (hid.trans (hl.shipment x hx).symm)
    refine ⟨?_, fun hzero => absurd (List.length_eq_zero_iff.1 hzero) hne, ?_⟩
    · intro r hr hid
      obtain ⟨r₀, hr₀, rfl⟩ := Db.mem_writeReservations.1 hr
      have hid₀ : r₀.shipmentId = shipmentId := by
        rw [← hid]
        split <;> rfl
      rw [if_pos]
      · rfl
      · refine (hl.toSelected.contains_iff hk hr₀).2 ((hmem r₀).2 ?_)
        simp only [forShipment, List.mem_filter, beq_iff_eq]
        exact ⟨hr₀, hid₀⟩
    · intro _ i hi
      refine ⟨i.dispatch holds, List.mem_map_of_mem hi, rfl, ?_⟩
      have hqty : qtyOn holds i.id = qtyOn (forShipment shipmentId c.db) i.id :=
        Table.totalBy_eq_of_mem hl.nodup (hk.nodup.filter _) fun r => by rw [hmem r]
      rw [← hqty]
      rfl

/-! ## Whole runs -/

/-- Every covering step keeps holds whole. -/
theorem Whole.next {c c' : Config Db Row Failure Outcome Operation}
    {l : Label Operation Environment} (h : Whole c.db) (hc : c.Sound (protocol unconfirmedHold))
    (hok : CoversHolds c l) (hnext : (inventory unconfirmedHold).next c l = some c') :
    Whole c'.db := by
  rcases (inventory unconfirmedHold).next_db hnext with heq | ⟨t, draw, s, a, rfl, hs, ha, hdb⟩ |
    ⟨e, rfl, heq⟩
  · rwa [heq]
  · obtain ⟨hall, hjoins⟩ := hok.of_commit hs ha hdb
    obtain ⟨-, hpost⟩ := hc.commit hs ha hdb
    exact h.commit hc.inv hall hjoins hpost
  · rw [heq]
    cases e with
    | catalog skus => exact h.congr rfl
    | replica refs => exact h.congr rfl

/-- Along a run in which each commit covers the holds it rewrites, the reservations of a shipment
stand as one hold, and a commit of a shipment dispatches every line of it. -/
theorem whole_of_run {c : Config Db Row Failure Outcome Operation}
    (h : (inventory unconfirmedHold).machine.RunOf CoversHolds (.idle .empty) c) :
    Whole c.db ∧ ∀ t draw s shipmentId actorId n db', CoversHolds c (.step t draw) →
      c.sessions t = some s → s.op = .commit shipmentId actorId → s.prog = .pure (.count n) →
      s.pending c.db = .ok db' → Dispatched shipmentId n c.db db' := by
  have hc : c.Sound (protocol unconfirmedHold) := sound_of_reachable h.toRun
  have hstep : ∀ (c : Config Db Row Failure Outcome Operation) l c',
      c.Sound (protocol unconfirmedHold) ∧ Whole c.db → CoversHolds c l →
      (inventory unconfirmedHold).next c l = some c' →
      c'.Sound (protocol unconfirmedHold) ∧ Whole c'.db := by
    rintro c l c' ⟨hc, hw⟩ hok hnext
    exact ⟨hc.next (protocol_governs unconfirmedHold) hnext, hw.next hc hok hnext⟩
  have hempty : Whole Db.empty :=
    ⟨fun r hr => absurd hr List.not_mem_nil, fun r hr => absurd hr List.not_mem_nil⟩
  obtain ⟨-, hwhole⟩ := h.preserves hstep ⟨Config.sound_idle consistent_empty, hempty⟩
  refine ⟨hwhole, ?_⟩
  intro t draw s shipmentId actorId n db' hok hs hop ha hdb
  obtain ⟨hall, -⟩ := hok.of_commit hs ha hdb
  have hpost : Committed unconfirmedHold s.op s.opened (c.Held t) (.count n) c.clock c.db db' :=
    (hc.commit hs ha hdb).2
  rw [hop] at hall hpost
  exact hwhole.dispatched hc.inv hall hpost

/-- A hold on two items, reserved, confirmed and dispatched. -/
theorem whole_of_run_dispatched :
    ∃ c, (inventory 30).machine.RunOf CoversHolds (.idle .empty) c ∧
      c.db.reservations.map (·.status) = [.committed, .committed] ∧ Whole c.db := by
  have hrun : ((inventory 30).machine.execOf CoversHolds (.idle .empty) (stocked ++
      session 0 (reserveBoth 50) [0, 0, 0, 0, 0, 0, 0, 0, 0, 0, 0, 0, 31, 32, 0, 0, 0] ++
      session 1 (.confirm 50) (.replicate 14 0) ++
      session 1 (.commit 50 none) (.replicate 21 0))).map
        (fun c => c.db.reservations.map (·.status)) = some [.committed, .committed] := by
    decide +kernel
  obtain ⟨c, hc, hstatus⟩ := Option.map_eq_some_iff.1 hrun
  have hreach := Machine.runOf_of_execOf _ hc
  exact ⟨c, hreach, hstatus, (whole_of_run hreach).1⟩

/-- Shipment 50's hold on both SKUs has lapsed when a reserve for shipment 51 wants SKU 1 only, and
its commit arrives after that. -/
def lazyReclaim : List (Label Operation Environment) :=
  stocked ++
    session 0 (reserveBoth 50) [0, 0, 0, 0, 0, 0, 0, 0, 0, 0, 0, 0, 31, 32, 0, 0, 0] ++
    [.tick 30] ++ session 1 (reserveOne 51 1) (.replicate 18 33) ++
    session 2 (.commit 50 none) (.replicate 15 0)

/-- One line of the hold is RELEASED and the other COMMITTED. -/
theorem not_whole_after_lazy_reclaim :
    ∃ c, Reachable 30 c ∧
      (forShipment 50 c.db).map (·.status) = [.released, .committed] ∧ ¬ Whole c.db := by
  have hrun : ((inventory 30).machine.exec (.idle .empty) lazyReclaim).map
      (fun c => (forShipment 50 c.db).map (·.status)) = some [.released, .committed] := by
    decide +kernel
  obtain ⟨c, hc, hstatus⟩ := Option.map_eq_some_iff.1 hrun
  refine ⟨c, Machine.run_of_exec _ hc, hstatus, fun hwhole => ?_⟩
  -- the two rows belong to one shipment
  obtain ⟨r, r', hrows⟩ := List.length_eq_two.1 (show (forShipment 50 c.db).length = 2 by
    simpa using congrArg List.length hstatus)
  rw [hrows] at hstatus
  simp only [List.map_cons, List.map_nil, List.cons.injEq, and_true] at hstatus
  have hmem : ∀ x ∈ [r, r'], x ∈ c.db.reservations ∧ x.shipmentId = 50 := by
    intro x hx
    rw [← hrows] at hx
    simpa [forShipment] using hx
  obtain ⟨hr, hid⟩ := hmem r (by simp)
  obtain ⟨hr', hid'⟩ := hmem r' (by simp)
  have hsame := hwhole.status r hr r' hr' (hid.trans hid'.symm)
  rw [hstatus.1, hstatus.2] at hsame
  cases hsame

end SmartLogistics.Inventory
