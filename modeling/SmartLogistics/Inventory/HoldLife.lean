import SmartLogistics.Inventory.Runs

/-!
# The life of a hold

`effect_of_commit` says what one commit does to the reservation rows and to the ledger of the
dispatches: which rows it moves on, by which operation, which rows it adds, and one ledger row for
each hold that is committed. From it, over every run: a row changes its status at most once, a
confirmed hold ends only by a commit or a release of its own shipment, an unconfirmed one is not
reclaimed before it expires, and a row has one dispatch in the ledger if it is COMMITTED and none if
not (`life_of_hold`).
-/

set_option autoImplicit false

namespace SmartLogistics.Inventory

open SmartLogistics.Library SmartLogistics.Platform SmartLogistics.Warehouse

variable {unconfirmedHold : Nat}

/-! ## What one commit does to the rows -/

/-- The operations that sweep lapsed holds of any shipment. -/
def Operation.Sweeps : Operation → Prop
  | .reserve _ => True
  | .releaseExpired _ => True
  | _ => False

/-- How the commit of `op`, at `clock`, leaves a reservation row. -/
inductive RowStep (op : Operation) (clock : Nat) (r : InventoryReservation) :
    InventoryReservation → Prop
  | kept : RowStep op clock r r
  | confirmed (now : Nat) (hop : op = .confirm r.shipmentId) (hstatus : r.status = .held)
      (hnone : r.confirmedAt = none) : RowStep op clock r (r.confirm now)
  | committed (now : Nat) (actorId : Option Nat) (hop : op = .commit r.shipmentId actorId)
      (hstatus : r.status = .held) : RowStep op clock r (r.commit now)
  | released (now : Nat) (reason : String) (hop : op = .release r.shipmentId reason)
      (hstatus : r.status = .held) : RowStep op clock r (r.release reason now)
  | expired (now cutoff : Nat) (hop : op.Sweeps) (hcutoff : cutoff ≤ clock)
      (hlapsed : isLapsed cutoff r = true) :
      RowStep op clock r (r.release "Unconfirmed hold expired" now)

/-- A row that a commit adds: a HELD line of the request, on the item of its SKU. -/
structure NewHold (op : Operation) (items : List InventoryItem) (r : InventoryReservation) :
    Prop where
  request : ∃ request, op = .reserve request ∧ r.shipmentId = request.shipmentId
  status : r.status = .held
  unconfirmed : r.confirmedAt = none
  item : ∃ i ∈ items, i.id = r.inventoryItemId ∧ i.skuId = r.skuId

/-- The ledger row is a dispatch of some shipment. -/
def StockMovement.isDispatch (m : StockMovement) : Bool := m.referenceType == some "shipment"

/-- What a commit does: `f` moves the rows on, `new` are the rows it adds, `rows` the ledger rows,
and `holds` the holds it commits. -/
structure Effect (op : Operation) (clock : Nat) (db db' : Db)
    (f : InventoryReservation → InventoryReservation) (new holds : List InventoryReservation)
    (rows : List StockMovement) : Prop where
  reservations : db'.reservations = db.reservations.map f ++ new
  movements : db'.movements = db.movements ++ rows
  old : ∀ r ∈ db.reservations, RowStep op clock r (f r)
  added : ∀ r ∈ new, NewHold op db'.items r
  nodup : holds.Nodup
  held : ∀ h ∈ holds, h ∈ db.reservations ∧ h.status = .held
  committed : ∀ r ∈ db.reservations, (f r).status = .committed ↔ r.status = .committed ∨ r ∈ holds
  ledger : List.Forall₂ (fun h m => m.Dispatches h.shipmentId h) holds
    (rows.filter StockMovement.isDispatch)

section Effects

variable {op : Operation} {clock : Nat} {db db' : Db}

/-- A commit that leaves the reservations alone. -/
theorem Repositioned.effect (h : Repositioned db db') :
    ∃ f new holds rows, Effect op clock db db' f new holds rows := by
  obtain ⟨hreservations, rows, hmovements, hreference⟩ := h
  refine ⟨id, [], [], rows, ?_, hmovements, fun r _ => .kept,
    fun _ hr => absurd hr List.not_mem_nil, List.nodup_nil,
    fun _ hr => absurd hr List.not_mem_nil, fun r _ => ?_, ?_⟩
  · rw [List.map_id, List.append_nil, hreservations]
  · simp
  · have hnil : rows.filter StockMovement.isDispatch = [] :=
      List.filter_eq_nil_iff.2 fun m hm => by simpa [StockMovement.isDispatch] using hreference m hm
    rw [hnil]
    exact .nil

theorem Repositioned.refl (db : Db) : Repositioned db db :=
  ⟨rfl, [], (List.append_nil _).symm, fun _ hm => absurd hm List.not_mem_nil⟩

/-- A commit that rewrites the rows `ids` and dispatches nothing. -/
theorem effect_of_rewrite {f : InventoryReservation → InventoryReservation}
    (new : List InventoryReservation)
    (hreservations : db'.reservations = db.reservations.map f ++ new)
    (hmovements : db'.movements = db.movements)
    (hold : ∀ r ∈ db.reservations, RowStep op clock r (f r))
    (hnew : ∀ r ∈ new, NewHold op db'.items r)
    (hstatus : ∀ r ∈ db.reservations, (f r).status = .committed ↔ r.status = .committed) :
    ∃ f new holds rows, Effect op clock db db' f new holds rows := by
  refine ⟨f, new, [], [], hreservations, ?_, hold, hnew, List.nodup_nil,
    fun _ hr => absurd hr List.not_mem_nil, fun r hr => ?_, .nil⟩
  · rw [hmovements, List.append_nil]
  · rw [hstatus r hr]
    simp

/-- A sweep moves lapsed holds on. -/
theorem rowStep_expireRows {held : Row → Prop} {cutoff : Nat} {expired : List InventoryReservation}
    (hk : Table.Keyed InventoryReservation.id db.reservations) (hop : op.Sweeps)
    (hcutoff : cutoff ≤ clock) (hl : Lapsed held cutoff expired db) (now : Nat)
    {r : InventoryReservation} (hr : r ∈ db.reservations) :
    RowStep op clock r (if (expired.map (·.id)).contains r.id then
      r.release "Unconfirmed hold expired" now else r) := by
  split
  · rename_i hsel
    exact .expired now cutoff hop hcutoff (hl.lapsed r ((hl.toSelected.contains_iff hk hr).1 hsel))
  · exact .kept

/-- Rows that are rewritten from HELD to another status than COMMITTED. -/
theorem status_rewrite {holds : List InventoryReservation} (hs : Selected holds db)
    (hk : Table.Keyed InventoryReservation.id db.reservations)
    {set : InventoryReservation → InventoryReservation} (hset : ∀ r, r.status = .held →
      (set r).status ≠ .committed) {r : InventoryReservation} (hr : r ∈ db.reservations) :
    (if (holds.map InventoryReservation.id).contains r.id then set r else r).status = .committed ↔
      r.status = .committed := by
  split
  · rename_i hsel
    have hheld := hs.status r ((hs.contains_iff hk hr).1 hsel)
    rw [hheld]
    exact ⟨fun heq => absurd heq (hset r hheld), fun heq => by cases heq⟩
  · exact Iff.rfl

/-- What each commit does to the rows. -/
theorem effect_of_commit {held : Row → Prop} {opened : Db} {a : Outcome} (hinv : Consistent db)
    (hpost : Committed unconfirmedHold op opened held a clock db db') :
    ∃ f new holds rows, Effect op clock db db' f new holds rows := by
  have hk := hinv.reservations
  cases op with
  | openPosition payload principal =>
    cases a with
    | item item => exact hpost.effect
    | reserved answer created => exact hpost.elim
    | count n => exact hpost.elim
  | adjust itemId payload principal =>
    cases a with
    | item item => exact hpost.effect
    | reserved answer created => exact hpost.elim
    | count n => exact hpost.elim
  | reserve request =>
    cases a with
    | item item => exact hpost.elim
    | count n => exact hpost.elim
    | reserved answer created =>
      cases created with
      | false =>
        -- a replay writes nothing
        obtain ⟨-, -, rfl⟩ := hpost
        exact (Repositioned.refl _).effect
      | true =>
        obtain ⟨-, cutoff, now, expired, time, holds, hcutoff, hnow, htime, hl, hholds, -, rfl⟩ :=
          hpost
        -- a new hold: lapsed rows on its items are released, its own are added
        have hsweeps : (Operation.reserve request).Sweeps := trivial
        refine effect_of_rewrite holds rfl rfl
          (fun r hr => rowStep_expireRows hk hsweeps (by omega) hl now hr) (fun h hh => ?_)
          fun r hr =>
            status_rewrite hl.toSelected hk (fun _ _ => by simp [InventoryReservation.release]) hr
        obtain ⟨i, hi, hid, hsku⟩ := (hholds h hh).item
        exact ⟨⟨request, rfl, (hholds h hh).shipment⟩, (hholds h hh).status,
          (hholds h hh).unconfirmed,
          i.reserve holds, List.mem_map_of_mem hi, hid, hsku⟩
  | confirm shipmentId =>
    cases a with
    | item item => exact hpost.elim
    | reserved answer created => exact hpost.elim
    | count n =>
      obtain ⟨now, holds, hl, -, rfl⟩ := hpost
      -- only the rows that are not confirmed yet are written
      have hsel : Selected (holds.filter (·.confirmedAt.isNone)) db :=
        ⟨fun x hx => hl.mem x (List.mem_of_mem_filter hx), hl.nodup.filter _,
          fun x hx => hl.status x (List.mem_of_mem_filter hx)⟩
      refine effect_of_rewrite [] (List.append_nil _).symm rfl (fun r hr => ?_)
        (fun _ hr => absurd hr List.not_mem_nil)
        fun r hr => status_rewrite hsel hk (fun r hheld heq => ?_) hr
      · split
        · rename_i hcontains
          have hmem := (hsel.contains_iff hk hr).1 hcontains
          obtain ⟨hmem, hnone⟩ := List.mem_filter.1 hmem
          exact .confirmed now (by rw [hl.shipment r hmem]) (hl.status r hmem)
            (Option.isNone_iff_eq_none.1 hnone)
        · exact .kept
      · rw [show (r.confirm now).status = r.status from rfl, hheld] at heq
        cases heq
  | commit shipmentId actorId =>
    cases a with
    | item item => exact hpost.elim
    | reserved answer created => exact hpost.elim
    | count n =>
      rcases hpost with ⟨-, rfl, -, -⟩ | ⟨now, holds, rows, -, hl, -, -, hrows, rfl⟩
      · exact (Repositioned.refl _).effect
      · -- each hold has its ledger row, and there are no other dispatches
        have hdispatch : rows.filter StockMovement.isDispatch = rows := by
          refine List.filter_eq_self.2 fun m hm => ?_
          obtain ⟨h, -, hm⟩ := Table.exists_left_of_forall₂ hrows hm
          simp [StockMovement.isDispatch, hm.reference]
        refine ⟨_, [], holds, rows, (List.append_nil _).symm, rfl, fun r hr => ?_,
          fun _ hr => absurd hr List.not_mem_nil, hl.nodup,
          fun h hh => ⟨hl.mem h hh, hl.status h hh⟩, fun r hr => ?_, ?_⟩
        · split
          · rename_i hcontains
            have hmem := (hl.toSelected.contains_iff hk hr).1 hcontains
            exact .committed now actorId (by rw [hl.shipment r hmem]) (hl.status r hmem)
          · exact .kept
        · rw [← hl.toSelected.contains_iff hk hr]
          split
          · rename_i hcontains
            exact ⟨fun _ => Or.inr hcontains, fun _ => rfl⟩
          · rename_i hcontains
            exact ⟨Or.inl, fun h => h.resolve_right hcontains⟩
        · have hpairs := (List.forall₂_and_left holds rows).2 ⟨hl.shipment, hrows⟩
          rw [hdispatch]
          refine hpairs.imp fun h m hm => ?_
          obtain ⟨hshipment, hm⟩ := hm
          exact hshipment ▸ hm
  | release shipmentId reason =>
    cases a with
    | item item => exact hpost.elim
    | reserved answer created => exact hpost.elim
    | count n =>
      rcases hpost with ⟨-, rfl, -⟩ | ⟨now, holds, -, hl, -, -, rfl⟩
      · exact (Repositioned.refl _).effect
      · refine effect_of_rewrite [] (List.append_nil _).symm rfl (fun r hr => ?_)
          (fun _ hr => absurd hr List.not_mem_nil)
          fun r hr => status_rewrite hl.toSelected hk
            (fun _ _ => by simp [InventoryReservation.release]) hr
        split
        · rename_i hcontains
          have hmem := (hl.toSelected.contains_iff hk hr).1 hcontains
          exact .released now reason (by rw [hl.shipment r hmem]) (hl.status r hmem)
        · exact .kept
  | releaseExpired warehouseIds =>
    cases a with
    | item item => exact hpost.elim
    | reserved answer created => exact hpost.elim
    | count n =>
      rcases hpost with ⟨-, rfl⟩ | ⟨cutoff, now, expired, hcutoff, hnow, hl, -, rfl⟩
      · exact (Repositioned.refl _).effect
      · have hsweeps : (Operation.releaseExpired warehouseIds).Sweeps := trivial
        exact effect_of_rewrite [] (List.append_nil _).symm rfl
          (fun r hr => rowStep_expireRows hk hsweeps (by omega) hl now hr)
          (fun _ hr => absurd hr List.not_mem_nil)
          fun r hr => status_rewrite hl.toSelected hk
            (fun _ _ => by simp [InventoryReservation.release]) hr

end Effects

/-! ## What the rows keep -/

/-- A row keeps its line. -/
theorem RowStep.grows {op : Operation} {clock : Nat} {r r' : InventoryReservation}
    (h : RowStep op clock r r') : r.Grows r' := by
  cases h with
  | kept => exact .refl r
  | confirmed now hop hstatus hnone =>
    exact ⟨rfl, rfl, rfl, rfl, rfl, rfl, Or.inl rfl, Or.inr hnone, fun h => by cases h⟩
  | committed now actorId hop hstatus =>
    exact ⟨rfl, rfl, rfl, rfl, rfl, rfl, Or.inr hstatus, Or.inl rfl, fun _ => rfl⟩
  | released now reason hop hstatus =>
    exact ⟨rfl, rfl, rfl, rfl, rfl, rfl, Or.inr hstatus, Or.inl rfl, fun _ => rfl⟩
  | expired now cutoff hop hcutoff hlapsed =>
    simp only [isLapsed, Bool.and_eq_true, beq_iff_eq] at hlapsed
    exact ⟨rfl, rfl, rfl, rfl, rfl, rfl, Or.inr hlapsed.1.1, Or.inl rfl, fun _ => rfl⟩

/-- How a HELD row ends: by a commit or a release of its own shipment, or, unconfirmed and expired,
by a sweep. -/
inductive EndsBy (op : Operation) (clock : Nat) (r : InventoryReservation) :
    ReservationStatus → Prop
  | commit (actorId : Option Nat) (hop : op = .commit r.shipmentId actorId) :
      EndsBy op clock r .committed
  | release (reason : String) (hop : op = .release r.shipmentId reason) :
      EndsBy op clock r .released
  | expiry (hop : op.Sweeps) (hnone : r.confirmedAt = none)
      (hpast : ∃ e, r.expiresAt = some e ∧ e ≤ clock) : EndsBy op clock r .released

theorem RowStep.endsBy {op : Operation} {clock : Nat} {r r' : InventoryReservation}
    (h : RowStep op clock r r') (hstatus : r'.status ≠ r.status) :
    r.status = .held ∧ EndsBy op clock r r'.status := by
  cases h with
  | kept => exact absurd rfl hstatus
  | confirmed now hop hheld hnone => exact absurd rfl hstatus
  | committed now actorId hop hheld => exact ⟨hheld, .commit actorId hop⟩
  | released now reason hop hheld => exact ⟨hheld, .release reason hop⟩
  | expired now cutoff hop hcutoff hlapsed =>
    simp only [isLapsed, Bool.and_eq_true, beq_iff_eq, Option.isNone_iff_eq_none,
      Option.any_eq_true, decide_eq_true_eq] at hlapsed
    obtain ⟨⟨hheld, hnone⟩, e, he, hle⟩ := hlapsed
    exact ⟨hheld, .expiry hop hnone ⟨e, he, hle.trans hcutoff⟩⟩

/-! ## One dispatch a committed row -/

/-- The ledger row is the dispatch of the reservation row. -/
def InventoryReservation.isDispatchedBy (r : InventoryReservation) (m : StockMovement) : Bool :=
  m.referenceType == some "shipment" && m.referenceId == some r.shipmentId &&
    m.inventoryItemId == r.inventoryItemId && m.quantityDelta == -r.quantity

/-- Rows are on the item of their SKU, and the ledger has one dispatch for each COMMITTED row and no
other. -/
structure Dispatches (db : Db) : Prop where
  sku : ∀ r ∈ db.reservations, ∃ i ∈ db.items, i.id = r.inventoryItemId ∧ i.skuId = r.skuId
  backed : ∀ m ∈ db.movements, m.referenceType = some "shipment" → ∃ r ∈ db.reservations,
    r.status = .committed ∧ m.referenceId = some r.shipmentId ∧
      m.inventoryItemId = r.inventoryItemId
  once : ∀ r ∈ db.reservations, r.status = .committed → db.movements.countP r.isDispatchedBy = 1

theorem dispatches_empty : Dispatches Db.empty where
  sku := fun _ hr => absurd hr List.not_mem_nil
  backed := fun _ hm => absurd hm List.not_mem_nil
  once := fun _ hr => absurd hr List.not_mem_nil

section Ledger

variable {op : Operation} {clock : Nat} {db db' : Db}

/-- A shipment has one row on an item. -/
theorem Dispatches.eq_of_item (h : Dispatches db) (hinv : Consistent db)
    {r r' : InventoryReservation} (hr : r ∈ db.reservations) (hr' : r' ∈ db.reservations)
    (hshipment : r.shipmentId = r'.shipmentId) (hitem : r.inventoryItemId = r'.inventoryItemId) :
    r = r' := by
  obtain ⟨i, hi, hid, hsku⟩ := h.sku r hr
  obtain ⟨i', hi', hid', hsku'⟩ := h.sku r' hr'
  obtain rfl := hinv.items.eq_of_key hi hi' (hid.trans (hitem.trans hid'.symm))
  exact List.inj_on_of_nodup_map hinv.lines hr hr'
    (Prod.ext hshipment (hsku.symm.trans hsku'))

theorem isDispatchedBy_iff {r : InventoryReservation} {m : StockMovement} :
    r.isDispatchedBy m = true ↔ m.referenceType = some "shipment" ∧
      m.referenceId = some r.shipmentId ∧ m.inventoryItemId = r.inventoryItemId ∧
        m.quantityDelta = -r.quantity := by
  simp only [InventoryReservation.isDispatchedBy, Bool.and_eq_true, beq_iff_eq, and_assoc]

/-- A row that is not COMMITTED has no dispatch. -/
theorem Dispatches.none (h : Dispatches db) (hinv : Consistent db) {r : InventoryReservation}
    (hr : r ∈ db.reservations) (hstatus : r.status ≠ .committed) :
    db.movements.countP r.isDispatchedBy = 0 := by
  refine List.countP_eq_zero.2 fun m hm hdispatch => ?_
  obtain ⟨htype, hid, hitem, -⟩ := isDispatchedBy_iff.1 hdispatch
  obtain ⟨r', hr', hcommitted, hid', hitem'⟩ := h.backed m hm htype
  have hshipment : r.shipmentId = r'.shipmentId := Option.some.inj (hid.symm.trans hid')
  obtain rfl := h.eq_of_item hinv hr hr' hshipment (hitem.symm.trans hitem')
  exact hstatus hcommitted

/-- The dispatches of a row among the ledger rows a commit adds. -/
theorem Effect.countP_rows {f : InventoryReservation → InventoryReservation}
    {new holds : List InventoryReservation} {rows : List StockMovement}
    (he : Effect op clock db db' f new holds rows) (h : Dispatches db) (hinv : Consistent db)
    {r : InventoryReservation} (hr : r ∈ db.reservations) :
    rows.countP r.isDispatchedBy = if r ∈ holds then 1 else 0 := by
  have hfilter : rows.countP r.isDispatchedBy =
      (rows.filter StockMovement.isDispatch).countP r.isDispatchedBy := by
    rw [List.countP_filter]
    refine List.countP_congr fun m _ => ?_
    rw [Bool.and_eq_true]
    refine ⟨fun hm => ⟨hm, ?_⟩, And.left⟩
    simpa [StockMovement.isDispatch] using (isDispatchedBy_iff.1 hm).1
  have hmatch : ∀ x ∈ holds, ∀ m, m.Dispatches x.shipmentId x →
      r.isDispatchedBy m = decide (x = r) := by
    intro x hx m hm
    rw [Bool.eq_iff_iff, isDispatchedBy_iff, decide_eq_true_eq, hm.reference, hm.shipment, hm.item,
      hm.delta]
    constructor
    · rintro ⟨-, hshipment, hitem, -⟩
      exact h.eq_of_item hinv (he.held x hx).1 hr (Option.some.inj hshipment) hitem
    · rintro rfl
      exact ⟨rfl, rfl, rfl, rfl⟩
  rw [hfilter, Table.countP_of_forall₂ he.ledger hmatch]
  have hcount : holds.countP (fun x => decide (x = r)) = holds.count r :=
    List.countP_congr fun x _ => by simp
  rw [hcount, he.nodup.count]

/-- Each commit keeps the dispatches. -/
theorem Dispatches.commit (h : Dispatches db) (hinv : Consistent db)
    (hgrow : Grows db db') {f : InventoryReservation → InventoryReservation}
    {new holds : List InventoryReservation} {rows : List StockMovement}
    (he : Effect op clock db db' f new holds rows) : Dispatches db' := by
  have hmem : ∀ r' ∈ db'.reservations, (∃ r ∈ db.reservations, f r = r') ∨ r' ∈ new := by
    intro r' hr'
    rw [he.reservations] at hr'
    exact (List.mem_append.1 hr').imp List.mem_map.1 id
  have hold : ∀ r ∈ db.reservations, f r ∈ db'.reservations := fun r hr => by
    rw [he.reservations]
    exact List.mem_append_left _ (List.mem_map_of_mem hr)
  refine ⟨fun r' hr' => ?_, fun m hm htype => ?_, fun r' hr' hstatus => ?_⟩
  · rcases hmem r' hr' with ⟨r, hr, rfl⟩ | hnew
    · have hg := (he.old r hr).grows
      obtain ⟨i, hi, hid, hsku⟩ := h.sku r hr
      obtain ⟨i', hi', hid', -, hsku'⟩ := hgrow.items i hi
      exact ⟨i', hi', hid'.trans (hid.trans hg.item.symm), hsku'.trans (hsku.trans hg.sku.symm)⟩
    · exact (he.added r' hnew).item
  · rw [he.movements] at hm
    rcases List.mem_append.1 hm with hm | hm
    · obtain ⟨r, hr, hcommitted, hid, hitem⟩ := h.backed m hm htype
      have hg := (he.old r hr).grows
      exact ⟨f r, hold r hr, (he.committed r hr).2 (Or.inl hcommitted),
        hid.trans (congrArg some hg.shipment.symm), hitem.trans hg.item.symm⟩
    · have hdispatch : m ∈ rows.filter StockMovement.isDispatch :=
        List.mem_filter.2 ⟨hm, by simp [StockMovement.isDispatch, htype]⟩
      obtain ⟨r, hr, hm⟩ := Table.exists_left_of_forall₂ he.ledger hdispatch
      obtain ⟨hr', -⟩ := he.held r hr
      have hg := (he.old r hr').grows
      exact ⟨f r, hold r hr', (he.committed r hr').2 (Or.inr hr),
        hm.shipment.trans (congrArg some hg.shipment.symm), hm.item.trans hg.item.symm⟩
  · rcases hmem r' hr' with ⟨r, hr, rfl⟩ | hnew
    · have hg := (he.old r hr).grows
      have hsame : (f r).isDispatchedBy = r.isDispatchedBy := by
        funext m
        simp only [InventoryReservation.isDispatchedBy, hg.shipment, hg.item, hg.quantity]
      rw [he.movements, List.countP_append, hsame, he.countP_rows h hinv hr]
      rcases (he.committed r hr).1 hstatus with hcommitted | hheld
      · -- it was COMMITTED before: the commit adds none
        have hnot : r ∉ holds := fun hmem => by
          have hheld := (he.held r hmem).2
          rw [hcommitted] at hheld
          cases hheld
        rw [h.once r hr hcommitted, if_neg hnot]
      · have hnot : r.status ≠ .committed := by
          rw [(he.held r hheld).2]
          decide
        rw [h.none hinv hr hnot, if_pos hheld]
    · have hheld := (he.added r' hnew).status
      rw [hstatus] at hheld
      cases hheld

theorem Dispatches.congr (h : Dispatches db) (hitems : db'.items = db.items)
    (hreservations : db'.reservations = db.reservations)
    (hmovements : db'.movements = db.movements) :
    Dispatches db' := by
  obtain ⟨hsku, hbacked, honce⟩ := h
  constructor
  · rw [hreservations, hitems]
    exact hsku
  · rw [hreservations, hmovements]
    exact hbacked
  · rw [hreservations, hmovements]
    exact honce

end Ledger

/-! ## Steps of Inventory -/

/-- What a step does to the rows, and by which operation. -/
theorem rowStep_of_next {c c' : Config Db Row Failure Outcome Operation}
    {l : Label Operation Environment} (hc : c.Sound (protocol unconfirmedHold))
    (hnext : (inventory unconfirmedHold).next c l = some c') {r : InventoryReservation}
    (hr : r ∈ c.db.reservations) : r ∈ c'.db.reservations ∨
      ∃ t draw s r', l = .step t draw ∧ c.sessions t = some s ∧ r' ∈ c'.db.reservations ∧
        RowStep s.op c.clock r r' := by
  rcases (inventory unconfirmedHold).next_db hnext with heq | ⟨t, draw, s, a, rfl, hs, ha, hdb⟩ |
    ⟨e, rfl, heq⟩
  · exact Or.inl (heq ▸ hr)
  · obtain ⟨-, hpost⟩ := hc.commit hs ha hdb
    obtain ⟨f, new, holds, rows, he⟩ := effect_of_commit hc.inv hpost
    refine Or.inr ⟨t, draw, s, f r, rfl, hs, ?_, he.old r hr⟩
    rw [he.reservations]
    exact List.mem_append_left _ (List.mem_map_of_mem hr)
  · rw [heq]
    cases e <;> exact Or.inl hr

/-- Each step keeps the dispatches. -/
theorem Dispatches.next {c c' : Config Db Row Failure Outcome Operation}
    {l : Label Operation Environment} (h : Dispatches c.db)
    (hc : c.Sound (protocol unconfirmedHold))
    (hnext : (inventory unconfirmedHold).next c l = some c') : Dispatches c'.db := by
  rcases (inventory unconfirmedHold).next_db hnext with heq | ⟨t, draw, s, a, rfl, hs, ha, hdb⟩ |
    ⟨e, rfl, heq⟩
  · rwa [heq]
  · obtain ⟨hguar, hpost⟩ := hc.commit hs ha hdb
    obtain ⟨f, new, holds, rows, he⟩ := effect_of_commit hc.inv hpost
    exact h.commit hc.inv hguar.grow he
  · rw [heq]
    cases e <;> exact h.congr rfl rfl rfl

/-! ## Whole runs -/

/-- The status of a row, if it is there. -/
def statusOf (db : Db) (id : Nat) : Option ReservationStatus :=
  (Table.lookup InventoryReservation.id db.reservations id).map (·.status)

/-- How a step changes the status of a row: the old one, and the new one unless the row is gone. -/
def statusChange (id : Nat) (db db' : Db) : List (ReservationStatus × Option ReservationStatus) :=
  match statusOf db id with
  | none => []
  | some status => if statusOf db' id = some status then [] else [(status, statusOf db' id)]

/-- The changes of a row's status along a run. -/
def statusChanges (unconfirmedHold id : Nat) : Config Db Row Failure Outcome Operation →
    List (Label Operation Environment) → List (ReservationStatus × Option ReservationStatus)
  | _, [] => []
  | c, l :: ls =>
    match (inventory unconfirmedHold).next c l with
    | none => []
    | some c' => statusChange id c.db c'.db ++ statusChanges unconfirmedHold id c' ls

section Runs

variable {c c' : Config Db Row Failure Outcome Operation} {l : Label Operation Environment}

theorem statusOf_eq_some {db : Db} (hk : Table.Keyed InventoryReservation.id db.reservations)
    {id : Nat} {status : ReservationStatus} :
    statusOf db id = some status ↔ ∃ r ∈ db.reservations, r.id = id ∧ r.status = status := by
  constructor
  · intro h
    obtain ⟨r, hr, hstatus⟩ := Option.map_eq_some_iff.1 h
    obtain ⟨hmem, hid⟩ := Table.mem_of_lookup hr
    exact ⟨r, hmem, hid, hstatus⟩
  · rintro ⟨r, hr, rfl, rfl⟩
    rw [statusOf, hk.lookup_of_mem hr, Option.map_some]

/-- A step leaves a row's status, or ends a HELD row. -/
theorem statusOf_of_next (hc : c.Sound (protocol unconfirmedHold))
    (hnext : (inventory unconfirmedHold).next c l = some c') {id : Nat} {status : ReservationStatus}
    (hstatus : statusOf c.db id = some status) : statusOf c'.db id = some status ∨
      status = .held ∧
        (statusOf c'.db id = some .committed ∨ statusOf c'.db id = some .released) := by
  have hk : Table.Keyed InventoryReservation.id c.db.reservations := hc.inv.reservations
  have hk' : Table.Keyed InventoryReservation.id c'.db.reservations :=
    (hc.next (protocol_governs unconfirmedHold) hnext).inv.reservations
  obtain ⟨r, hr, rfl, rfl⟩ := (statusOf_eq_some hk).1 hstatus
  rcases rowStep_of_next hc hnext hr with hr' | ⟨t, draw, s, r', rfl, hs, hr', hrow⟩
  · exact Or.inl ((statusOf_eq_some hk').2 ⟨r, hr', rfl, rfl⟩)
  · have hafter : statusOf c'.db r.id = some r'.status :=
      (statusOf_eq_some hk').2 ⟨r', hr', hrow.grows.id, rfl⟩
    by_cases hsame : r'.status = r.status
    · exact Or.inl (hsame ▸ hafter)
    · obtain ⟨hheld, hends⟩ := hrow.endsBy hsame
      refine Or.inr ⟨hheld, ?_⟩
      rw [hafter]
      generalize r'.status = ended at hends
      cases hends with
      | commit actorId hop => exact Or.inl rfl
      | release reason hop => exact Or.inr rfl
      | expiry hop hnone hpast => exact Or.inr rfl

/-- A row that has ended stays as it is. -/
theorem statusChanges_of_ended (ls : List (Label Operation Environment)) {id : Nat}
    {status : ReservationStatus} (hc : c.Sound (protocol unconfirmedHold))
    (hstatus : statusOf c.db id = some status) (hended : status ≠ .held) :
    statusChanges unconfirmedHold id c ls = [] := by
  induction ls generalizing c with
  | nil => rfl
  | cons l ls ih =>
    unfold statusChanges
    split
    · rfl
    · rename_i m hm
      have hafter := (statusOf_of_next hc hm hstatus).resolve_right fun h => hended h.1
      rw [ih (hc.next (protocol_governs unconfirmedHold) hm) hafter, List.append_nil, statusChange,
        hstatus]
      exact if_pos hafter

/-- A row changes its status at most once. -/
theorem statusChanges_of_sound (ls : List (Label Operation Environment)) (id : Nat)
    (hc : c.Sound (protocol unconfirmedHold)) :
    statusChanges unconfirmedHold id c ls = [] ∨
      statusChanges unconfirmedHold id c ls = [(.held, some .committed)] ∨
      statusChanges unconfirmedHold id c ls = [(.held, some .released)] := by
  induction ls generalizing c with
  | nil => exact Or.inl rfl
  | cons l ls ih =>
    unfold statusChanges
    split
    · exact Or.inl rfl
    · rename_i m hm
      have hm' := hc.next (protocol_governs unconfirmedHold) hm
      cases hstatus : statusOf c.db id with
      | none =>
        have hnil : statusChange id c.db m.db = [] := by rw [statusChange, hstatus]
        rw [hnil]
        exact ih hm'
      | some status =>
        rcases statusOf_of_next hc hm hstatus with hsame | ⟨rfl, hafter | hafter⟩
        · have hnil : statusChange id c.db m.db = [] := by
            rw [statusChange, hstatus]
            exact if_pos hsame
          rw [hnil]
          exact ih hm'
        · rw [statusChanges_of_ended ls hm' hafter (by decide), statusChange, hstatus, hafter]
          exact Or.inr (Or.inl rfl)
        · rw [statusChanges_of_ended ls hm' hafter (by decide), statusChange, hstatus, hafter]
          exact Or.inr (Or.inr rfl)

theorem dispatches_of_reachable (h : Reachable unconfirmedHold c) : Dispatches c.db := by
  have hstep : ∀ (c : Config Db Row Failure Outcome Operation) l c',
      c.Sound (protocol unconfirmedHold) ∧ Dispatches c.db → True →
      (inventory unconfirmedHold).next c l = some c' →
      c'.Sound (protocol unconfirmedHold) ∧ Dispatches c'.db := by
    rintro c l c' ⟨hc, hd⟩ - hnext
    exact ⟨hc.next (protocol_governs unconfirmedHold) hnext, hd.next hc hnext⟩
  have hidle : (Config.idle Db.empty : Config Db Row Failure Outcome Operation).Sound
      (protocol unconfirmedHold) ∧ Dispatches Db.empty :=
    ⟨Config.sound_idle consistent_empty, dispatches_empty⟩
  exact (h.preserves hstep hidle).2

end Runs

/-- The life of a hold: along every run a row changes its status at most once, from HELD to
COMMITTED or to RELEASED; the step that ends it is one `EndsBy` allows; and the ledger has one
dispatch of the row if it is COMMITTED and none if not. -/
theorem life_of_hold (unconfirmedHold : Nat) :
    (∀ (ls : List (Label Operation Environment)) (id : Nat),
      statusChanges unconfirmedHold id (.idle .empty) ls ∈
        [[], [(.held, some .committed)], [(.held, some .released)]]) ∧
    (∀ c, Reachable unconfirmedHold c → ∀ l c', (inventory unconfirmedHold).next c l = some c' →
      ∀ r ∈ c.db.reservations, ∀ r' ∈ c'.db.reservations, r'.id = r.id → r'.status ≠ r.status →
        ∃ t draw s, l = .step t draw ∧ c.sessions t = some s ∧ r.status = .held ∧
          EndsBy s.op c.clock r r'.status) ∧
    ∀ c, Reachable unconfirmedHold c → ∀ r ∈ c.db.reservations,
      c.db.movements.countP r.isDispatchedBy = if r.status = .committed then 1 else 0 := by
  refine ⟨fun ls id => ?_, fun c h l c' hnext r hr r' hr' hid hstatus => ?_, fun c h r hr => ?_⟩
  · have hidle : (Config.idle Db.empty : Config Db Row Failure Outcome Operation).Sound
        (protocol unconfirmedHold) :=
      Config.sound_idle consistent_empty
    rcases statusChanges_of_sound ls id hidle with heq | heq | heq <;> simp [heq]
  · have hc := sound_of_reachable h
    have hk : Table.Keyed InventoryReservation.id c'.db.reservations :=
      (hc.next (protocol_governs unconfirmedHold) hnext).inv.reservations
    rcases rowStep_of_next hc hnext hr with hmem | ⟨t, draw, s, r'', rfl, hs, hmem, hrow⟩
    · obtain rfl := hk.eq_of_key hmem hr' hid.symm
      exact absurd rfl hstatus
    · obtain rfl := hk.eq_of_key hmem hr' (hrow.grows.id.trans hid.symm)
      obtain ⟨hheld, hends⟩ := hrow.endsBy hstatus
      exact ⟨t, draw, s, rfl, hs, hheld, hends⟩
  · have hd := dispatches_of_reachable h
    split
    · rename_i hcommitted
      exact hd.once r hr hcommitted
    · rename_i hnot
      exact hd.none (sound_of_reachable h).inv hr hnot

/-- A hold of shipment 50 that is confirmed, swept for, committed, committed again, released, and
confirmed again. -/
def repeatedCalls : List (Label Operation Environment) :=
  stocked ++ session 0 (reserveOne 50 1) (.replicate 14 31) ++
    session 1 (.confirm 50) (.replicate 10 0) ++ [.tick 60] ++
    session 1 (.releaseExpired none) (.replicate 3 0) ++
    session 1 (.commit 50 none) (.replicate 15 0) ++
    session 1 (.commit 50 none) (.replicate 3 0) ++
    session 1 (.release 50 "cancelled") (.replicate 2 0) ++
    session 1 (.confirm 50) (.replicate 4 0)

theorem life_of_hold_after_repeats :
    ∃ c, Reachable 30 c ∧ c.db.reservations.map (·.status) = [.committed] ∧
      statusChanges 30 31 (.idle .empty) repeatedCalls = [(.held, some .committed)] ∧
      ∀ r ∈ c.db.reservations,
        c.db.movements.countP r.isDispatchedBy = if r.status = .committed then 1 else 0 := by
  have hrun : ((inventory 30).machine.exec (.idle .empty) repeatedCalls).map
      (fun c => c.db.reservations.map (·.status)) = some [.committed] := by
    decide +kernel
  obtain ⟨c, hc, hstatus⟩ := Option.map_eq_some_iff.1 hrun
  have hreach : Reachable 30 c := Machine.run_of_exec _ hc
  exact ⟨c, hreach, hstatus, by decide +kernel, (life_of_hold 30).2.2 c hreach⟩

end SmartLogistics.Inventory
