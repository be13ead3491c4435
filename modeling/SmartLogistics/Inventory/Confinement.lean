import SmartLogistics.Inventory.HoldLife
import SmartLogistics.Inventory.Listings

/-!
# Operators stay inside their warehouses

A sweep selects lapsed holds by the warehouse of the reservation row, and then releases every lapsed
hold on the items it has locked. It stays inside its scope because in every reachable state a
reservation is at the warehouse of its item (`Located`). The protocol says nothing of warehouses;
`Placed` is what the commits do besides, and `placement` the protocol with it.

`operators_confined`: what an operator opens, adjusts or sweeps are rows of the operator's
warehouses (`Confined`), and what an operator lists depends on such rows only (`Agrees`).
-/

set_option autoImplicit false

namespace SmartLogistics.Inventory

open SmartLogistics.Library SmartLogistics.Platform SmartLogistics.Warehouse

variable {unconfirmedHold : Nat} {op : Operation} {v : View Db Row Failure}

/-! ## Where rows are -/

/-- The item is at the warehouse. -/
def Db.ItemAt (db : Db) (itemId warehouseId : Nat) : Prop :=
  ∃ i ∈ db.items, i.id = itemId ∧ i.warehouseId = warehouseId

/-- Reservations and ledger rows name the warehouse of their item. -/
structure Located (db : Db) : Prop where
  reservations : ∀ r ∈ db.reservations, db.ItemAt r.inventoryItemId r.warehouseId
  movements : ∀ m ∈ db.movements, db.ItemAt m.inventoryItemId m.warehouseId

theorem located_empty : Located Db.empty where
  reservations := fun _ hr => absurd hr List.not_mem_nil
  movements := fun _ hm => absurd hm List.not_mem_nil

theorem Db.ItemAt.grow {a b : Db} {itemId warehouseId : Nat} (h : a.ItemAt itemId warehouseId)
    (hg : Grows a b) : b.ItemAt itemId warehouseId := by
  obtain ⟨i, hi, hid, hwarehouse⟩ := h
  obtain ⟨i', hi', hid', hwarehouse', -⟩ := hg.items i hi
  exact ⟨i', hi', hid'.trans hid, hwarehouse'.trans hwarehouse⟩

/-- An item is at one warehouse. -/
theorem Db.ItemAt.unique {db : Db} (hinv : Consistent db) {itemId warehouseId warehouseId' : Nat}
    (h : db.ItemAt itemId warehouseId) (h' : db.ItemAt itemId warehouseId') :
    warehouseId = warehouseId' := by
  obtain ⟨i, hi, hid, rfl⟩ := h
  obtain ⟨i', hi', hid', rfl⟩ := h'
  rw [hinv.items.eq_of_key hi hi' (hid.trans hid'.symm)]

/-! ## What commits do to places -/

/-- Where a commit adds rows, and which rows an operation on a stock position or a sweep writes. -/
def Placed : Operation → Db → (Row → Prop) → Outcome → Nat → Db → Db → Prop
  | .openPosition payload principal, _, _, _, _, db, db' =>
    assertManages payload.warehouseId principal = .ok () ∧ ∃ item rows,
      db' = (db.insertItem item).insertMovements rows ∧ item.warehouseId = payload.warehouseId ∧
      ∀ m ∈ rows, m.inventoryItemId = item.id ∧ m.warehouseId = item.warehouseId
  | .adjust _ payload principal, _, _, _, _, db, db' =>
    ∃ row ∈ db.items, assertManages row.warehouseId principal = .ok () ∧ ∃ m events,
      m.inventoryItemId = row.id ∧ m.warehouseId = row.warehouseId ∧
      db' = (db.adjustRows payload row m).stage events
  | .reserve _, _, _, _, _, db, db' => ∀ r ∈ db'.reservations,
      (∃ r₀ ∈ db.reservations, r₀.Grows r) ∨ db.ItemAt r.inventoryItemId r.warehouseId
  | .commit _ _, _, _, _, _, db, db' => ∀ m ∈ db'.movements,
      m ∈ db.movements ∨ db.ItemAt m.inventoryItemId m.warehouseId
  | .releaseExpired (some warehouseIds), _, _, _, _, db, db' => ∃ expired now,
      (∀ h ∈ expired, h ∈ db.reservations ∧ ∃ r ∈ db.reservations,
        r.inventoryItemId = h.inventoryItemId ∧ r.warehouseId ∈ warehouseIds) ∧
      db' = db.expireRows expired now
  | _, _, _, _, _, _, _ => True

/-- The protocol, with the places of rows. -/
abbrev placement (unconfirmedHold : Nat) : Discipline Db Row Failure Outcome Operation :=
  (protocol unconfirmedHold).withPost Placed

/-- A transaction that wrote nothing. -/
theorem posts_of_no_write {post : Operation → Db → (Row → Prop) → Outcome → Nat → Db → Db → Prop}
    {opened : Db} {a : Outcome} (hp : v.pending = .ok)
    (hpost : ∀ n db, (protocol unconfirmedHold).Rely v n db → post op opened v.held a n db db) :
    (protocol unconfirmedHold).Posts post op opened a v := by
  intro n db hr db' hdb'
  rw [hp] at hdb'
  cases hdb'
  exact hpost n db hr

/-- The sweep of locked items, and the view it leaves. -/
theorem wp_expireUnconfirmed_onward {copies : List InventoryItem}
    {Q : Nat × List InventoryItem → View Db Row Failure → Prop} (hv : ItemsOf v copies)
    (hinv : Consistent v.db)
    (h : ∀ w expired cutoff now, (protocol unconfirmedHold).Onward v w →
      Expired unconfirmedHold w (copies.map (InventoryItem.unreserve expired)) expired cutoff now →
      (∀ x ∈ expired, ∃ c ∈ copies, c.id = x.inventoryItemId) →
      Q (expired.length, copies.map (InventoryItem.unreserve expired)) w) :
    (protocol unconfirmedHold).lax.wp op (expireUnconfirmed copies) Q v := by
  refine Discipline.wp_lax (Discipline.wp_mono ?_ _ _ (Discipline.wp_onward _ _ hinv
    (wp_expireUnconfirmed (Q := fun out w => ∃ expired cutoff now,
        Expired unconfirmedHold w (copies.map (InventoryItem.unreserve expired)) expired cutoff
          now ∧
        (∀ x ∈ expired, ∃ c ∈ copies, c.id = x.inventoryItemId) ∧
        out = (expired.length, copies.map (InventoryItem.unreserve expired))) hv hinv
      fun w expired cutoff now _ hexpired _ hfound =>
        ⟨expired, cutoff, now, hexpired, hfound, rfl⟩)))
  rintro out w ⟨⟨expired, cutoff, now, hexpired, hfound, rfl⟩, honward⟩
  exact h w expired cutoff now honward hexpired hfound

/-- A sweep writes the lapsed holds on the items of the reservations it selected. -/
theorem posts_releaseExpired {warehouseIds : Option (List Nat)} {opened : Db} (hp : v.pending = .ok)
    (hnone : ∀ x, ¬ v.held x) :
    (protocol unconfirmedHold).lax.wp op (releaseExpired warehouseIds)
      (fun n => (protocol unconfirmedHold).Posts Placed (.releaseExpired warehouseIds) opened
        (.count n)) v := by
  unfold releaseExpired
  simp only [Txn.bind_eq]
  apply Discipline.wp_bind
  apply Discipline.wp_now
  intro cutoff₀ db₀ hr₀
  apply Discipline.wp_bind
  apply Discipline.wp_select (show (v.later cutoff₀ db₀).pending = .ok from hp)
  intro n db hr
  split
  · refine posts_of_no_write hp fun n' db' _ => ?_
    cases warehouseIds with
    | none => trivial
    | some warehouseIds =>
      exact ⟨[], 0, fun _ hh => absurd hh List.not_mem_nil, (Db.expireRows_nil 0 db').symm⟩
  apply Discipline.wp_bind
  unfold lockItemIds
  refine Discipline.wp_lax (wp_selectItems
    (show ((v.later cutoff₀ db₀).later n db).pending = .ok from hp)
    (fun i i' hid _ _ => by rw [hid])
    (fun _ _ _ _ _ _ => Or.inl fun x hx => absurd hx (hnone x)) ?_)
  intro n₁ db₁ hr₁ copies rows hcopies hrows
  apply Discipline.wp_bind
  refine wp_expireUnconfirmed_onward ⟨hp, fun c hc => Or.inl (hcopies c hc).1,
    fun c hc => (hcopies c hc).2.1, fun x hx => ?_⟩ hr₁.inv ?_
  · rcases hx with hx | hx
    · exact hrows x hx
    · exact absurd hx (hnone x)
  intro w expired cutoff now honward hexpired hfound n₂ db₂ hr₂ db' hdb'
  obtain ⟨rfl, -, -⟩ := hexpired.flushed n₂ db₂ hr₂ db' hdb'
  cases warehouseIds with
  | none => trivial
  | some warehouseIds =>
    have hgrow : Grows db db₂ := (hr₁.trans (honward.rely_of hr₂).ungranted).grow
    refine ⟨expired, now, fun h hh => ⟨(hexpired.lapsed.later hr₂).mem h hh, ?_⟩, rfl⟩
    -- the item was selected for a lapsed reservation at one of the warehouses
    obtain ⟨c, hc, hid⟩ := hfound h hh
    have hselected := (hcopies c hc).2.2
    rw [List.contains_iff_mem] at hselected
    obtain ⟨r, hr, hitem⟩ := List.mem_map.1 hselected
    obtain ⟨hr, hscope⟩ := List.mem_filter.1 hr
    obtain ⟨r', hr', hg⟩ := hgrow.reservations r hr
    simp only [Option.all_some, Bool.and_eq_true, List.contains_iff_mem] at hscope
    exact ⟨r', hr', hg.item.trans (hitem.trans hid), hg.warehouse ▸ hscope.2⟩

/-- The position a request opens, with its ledger rows. -/
structure Opens (payload : InventoryItemCreate) (item : InventoryItem)
    (rows : List StockMovement) : Prop where
  warehouse : item.warehouseId = payload.warehouseId
  onHand : item.onHandQty = payload.onHandQty
  of_item : ∀ m ∈ rows, m.inventoryItemId = item.id ∧ m.warehouseId = item.warehouseId
  single : rows.length ≤ 1

/-- Opening a position adds the position and its ledger rows. -/
theorem posts_openPosition {post : Operation → Db → (Row → Prop) → Outcome → Nat → Db → Db → Prop}
    {payload : InventoryItemCreate} {principal : Principal} {opened : Db} (hp : v.pending = .ok)
    (hpost : ∀ held n db item rows, assertManages payload.warehouseId principal = .ok () →
      Opens payload item rows → post (.openPosition payload principal) opened held (.item item) n db
        ((db.insertItem item).insertMovements rows)) :
    (protocol unconfirmedHold).lax.wp op (openPosition payload principal)
      (fun item => (protocol unconfirmedHold).Posts post (.openPosition payload principal) opened
        (.item item)) v := by
  unfold openPosition
  simp only [Txn.bind_eq]
  apply Discipline.wp_bind
  apply Discipline.wp_ofExcept
  intro _ hmanages
  apply Discipline.wp_bind
  apply Discipline.wp_select hp
  intro n₁ db₁ _
  apply Discipline.wp_bind
  apply Discipline.wp_ofExcept
  intro _ _
  apply Discipline.wp_bind
  apply Discipline.wp_select (show (v.later n₁ db₁).pending = .ok from hp)
  intro n₂ db₂ _
  split
  · trivial
  apply Discipline.wp_bind
  apply Discipline.wp_freshId
  intro itemId
  apply Discipline.wp_bind
  apply Discipline.wp_write
  intro n₃ db₃ _ _ _
  refine ⟨fun _ _ => trivial, fun _ _ => ?_⟩
  split
  · apply Discipline.wp_bind
    apply Discipline.wp_now
    intro occurredAt db₄ _
    apply Discipline.wp_bind
    apply Discipline.wp_write
    intro n₅ db₅ _ _ _
    refine ⟨fun _ _ => trivial, fun _ _ => ?_⟩
    intro n₆ db₆ _ db' hdb'
    obtain ⟨mid, hmid, hsecond⟩ := View.flushed_pending_eq_ok.1 hdb'
    obtain ⟨view, hview, hfirst⟩ := View.flushed_pending_eq_ok.1 hmid
    simp only [View.later_pending, hp, Except.ok.injEq] at hview
    subst hview
    obtain rfl := eq_of_check hfirst
    obtain rfl := eq_of_check hsecond
    refine hpost _ _ _ _ _ hmanages ⟨rfl, rfl, fun m hm => ?_, Nat.le_refl 1⟩
    rw [List.mem_singleton.1 hm]
    exact ⟨rfl, rfl⟩
  · intro n₄ db₄ _ db' hdb'
    obtain ⟨view, hview, hfirst⟩ := View.flushed_pending_eq_ok.1 hdb'
    simp only [View.later_pending, hp, Except.ok.injEq] at hview
    subst hview
    obtain rfl := eq_of_check hfirst
    rw [← Db.insertMovements_nil (db₄.insertItem _)]
    exact hpost _ _ _ _ _ hmanages ⟨rfl, rfl, fun _ hm => absurd hm List.not_mem_nil, Nat.zero_le 1⟩

/-- An adjustment writes the position it has locked, and one ledger row. -/
theorem posts_adjust {post : Operation → Db → (Row → Prop) → Outcome → Nat → Db → Db → Prop}
    {itemId : Nat} {payload : StockAdjustment} {principal : Principal} {opened : Db}
    (hp : v.pending = .ok) (hnone : ∀ x, ¬ v.held x)
    (hpost : ∀ held n db row m events, row ∈ db.items → row.id = itemId →
      assertManages row.warehouseId principal = .ok () → m.inventoryItemId = row.id →
      m.warehouseId = row.warehouseId →
      post (.adjust itemId payload principal) opened held (.item (adjustOne payload row)) n db
        ((db.adjustRows payload row m).stage events)) :
    (protocol unconfirmedHold).lax.wp op (adjust itemId payload principal)
      (fun item => (protocol unconfirmedHold).Posts post (.adjust itemId payload principal) opened
        (.item item)) v := by
  unfold adjust
  simp only [Txn.bind_eq]
  apply Discipline.wp_bind
  refine Discipline.wp_lax (wp_selectItems hp (fun i i' hid _ _ => by rw [hid])
    (fun _ _ _ _ _ _ => Or.inl fun x hx => absurd hx (hnone x)) ?_)
  intro n₁ db₁ hr₁ copies rows hcopies _
  split
  · trivial
  rename_i row hrow
  have hmem : row ∈ copies := List.mem_of_mem_head? (Option.mem_def.2 hrow)
  have hlocked : ((v.later n₁ db₁).grantAll rows).held (.item row.id) := Or.inl (hcopies row hmem).1
  split
  · trivial
  apply Discipline.wp_bind
  apply Discipline.wp_ofExcept
  intro _ hmanages
  apply Discipline.wp_bind
  apply Discipline.wp_now
  intro occurredAt db₂ hr₂
  apply Discipline.wp_bind
  apply Discipline.wp_write
  intro n₃ db₃ hr₃ _ _
  refine ⟨fun _ _ => trivial, fun _ _ => ?_⟩
  apply Discipline.wp_bind
  apply Discipline.wp_write
  intro n₄ db₄ hr₄ _ _
  refine ⟨fun _ _ => trivial, fun _ _ => ?_⟩
  intro n₅ db₅ hr₅ db' hdb'
  have hrely := hr₂.lax.trans (hr₃.lax.trans (hr₄.unflushed.lax.trans hr₅.unflushed.unflushed))
  obtain ⟨mid, hmid, hstage⟩ := View.flushed_pending_eq_ok.1 hdb'
  obtain ⟨view, hview, hflush⟩ := View.flushed_pending_eq_ok.1 hmid
  simp only [View.later_pending, View.grantAll_pending, hp, Except.ok.injEq] at hview
  subst hview
  have hrowdb : row ∈ db₅.items := item_mem_of_locked hrely (hcopies row hmem).2.1 hlocked
  rw [insertMovements_adjustOne hrely.inv hrowdb] at hflush
  obtain rfl := eq_of_check hflush
  cases hstage
  exact hpost _ _ _ _ _ _ hrowdb (beq_iff_eq.1 (hcopies row hmem).2.2) hmanages rfl rfl

/-- The ledger rows of commit's loop are at the warehouse of their item. -/
theorem commitEach_placed {shipmentId : Nat} {actorId : Option Nat} {occurredAt : Nat}
    {holds : List InventoryReservation} {copies final : List InventoryItem}
    {rows : List StockMovement}
    (h : commitEach shipmentId actorId occurredAt holds copies = .ok (final, rows)) :
    ∀ m ∈ rows, ∃ c ∈ copies, c.id = m.inventoryItemId ∧ c.warehouseId = m.warehouseId := by
  induction holds generalizing copies final rows with
  | nil =>
    cases h
    exact fun _ hm => absurd hm List.not_mem_nil
  | cons hold holds ih =>
    simp only [commitEach, bind, Except.bind] at h
    split at h
    · cases h
    rename_i mid hmid
    obtain ⟨-, rfl⟩ := updateCopy_eq_ok hmid
    -- a turn of the loop changes quantities only
    have hback : ∀ c' ∈ copies.map (fun i => if i.id = hold.inventoryItemId then commitOne hold i
        else i), ∃ c ∈ copies, c.id = c'.id ∧ c.warehouseId = c'.warehouseId := by
      intro c' hc'
      obtain ⟨c, hc, rfl⟩ := List.mem_map.1 hc'
      refine ⟨c, hc, ?_⟩
      split <;> exact ⟨rfl, rfl⟩
    split at h
    · cases h
    rename_i item hitem
    split at h
    · cases h
    rename_i out hout
    obtain ⟨final', rows'⟩ := out
    cases h
    intro m hm
    rcases List.mem_cons.1 hm with rfl | hm
    · exact hback item (Table.mem_of_lookup hitem).1
    · obtain ⟨c', hc', hid, hwarehouse⟩ := ih hout m hm
      obtain ⟨c, hc, hid', hwarehouse'⟩ := hback c' hc'
      exact ⟨c, hc, hid'.trans hid, hwarehouse'.trans hwarehouse⟩

/-- A commit adds ledger rows at the warehouse of their item. -/
theorem posts_commit {shipmentId : Nat} {actorId : Option Nat} {opened : Db} (hp : v.pending = .ok)
    (hnone : ∀ x, ¬ v.held x) :
    (protocol unconfirmedHold).lax.wp (.commit shipmentId actorId) (commit shipmentId actorId)
      (fun n => (protocol unconfirmedHold).Posts Placed (.commit shipmentId actorId) opened
        (.count n)) v := by
  unfold commit
  simp only [Txn.bind_eq]
  apply Discipline.wp_bind
  refine Discipline.wp_lax (wp_lockHolds hp hnone ?_)
  intro w holds _ hpend hholds
  split
  · apply Discipline.wp_bind
    apply Discipline.wp_select hpend
    intro n db _
    split
    · exact posts_of_no_write hpend fun _ _ _ _ hm => Or.inl hm
    · trivial
  apply Discipline.wp_bind
  refine Discipline.wp_lax (wp_relock trivial hpend hholds ?_)
  intro w copies _ hpend _ hlocked hcopies
  apply Discipline.wp_bind
  apply Discipline.wp_now
  intro now db₁ hr₁
  apply Discipline.wp_bind
  apply Discipline.wp_now
  intro occurredAt db₂ hr₂
  apply Discipline.wp_bind
  apply Discipline.wp_ofExcept
  intro out hloop
  obtain ⟨copies', rows⟩ := out
  apply Discipline.wp_bind
  apply Discipline.wp_write
  intro n₃ db₃ hr₃ _ _
  refine ⟨fun _ _ => trivial, fun _ _ => ?_⟩
  apply Discipline.wp_bind
  apply Discipline.wp_write
  intro n₄ db₄ hr₄ _ _
  refine ⟨fun _ _ => trivial, fun _ _ => ?_⟩
  intro n₅ db₅ hr₅ db' hdb'
  have hrely := hr₁.lax.trans (hr₂.lax.trans (hr₃.lax.trans
    (hr₄.unflushed.lax.trans hr₅.unflushed.unflushed)))
  obtain ⟨mid, hmid, hstage⟩ := View.flushed_pending_eq_ok.1 hdb'
  obtain ⟨view, hview, hflush⟩ := View.flushed_pending_eq_ok.1 hmid
  simp only [View.later_pending, hpend, Except.ok.injEq] at hview
  subst hview
  obtain rfl := eq_of_check hflush
  cases hstage
  intro m hm
  refine (List.mem_append.1 hm).imp_right fun hm => ?_
  obtain ⟨c, hc, hid, hwarehouse⟩ := commitEach_placed hloop m hm
  exact ⟨c, item_mem_of_locked hrely (hcopies c hc) (hlocked c hc), hid, hwarehouse⟩

/-- A reserve adds holds at the warehouse of their item. -/
theorem posts_reserve {request : ReservationRequest} {opened : Db} (hp : v.pending = .ok)
    (hnone : ∀ x, ¬ v.held x) :
    (protocol unconfirmedHold).lax.wp op (reserve unconfirmedHold request)
      (fun out => (protocol unconfirmedHold).Posts Placed (.reserve request) opened
        (.reserved out.1 out.2)) v := by
  have hnothing : ∀ {w : View Db Row Failure} {a : Outcome}, w.pending = .ok →
      (protocol unconfirmedHold).Posts Placed (.reserve request) opened a w := fun hw =>
    posts_of_no_write hw fun _ _ _ r hr => Or.inl ⟨r, hr, .refl r⟩
  unfold reserve
  simp only [Txn.bind_eq]
  apply Discipline.wp_bind
  apply Discipline.wp_select hp
  intro n₀ db₀ _
  split
  · apply Discipline.wp_bind
    unfold replay
    dsimp only
    split
    · trivial
    simp only [Txn.bind_eq]
    apply Discipline.wp_bind
    apply Discipline.wp_select (show (v.later n₀ db₀).pending = .ok from hp)
    intro n db _
    apply Discipline.wp_ofExcept
    exact fun _ _ => hnothing hp
  apply Discipline.wp_bind
  apply Discipline.wp_select (show (v.later n₀ db₀).pending = .ok from hp)
  intro n₁ db₁ _
  apply Discipline.wp_bind
  apply Discipline.wp_ofExcept
  intro _ _
  apply Discipline.wp_bind
  apply Discipline.wp_select (show ((v.later n₀ db₀).later n₁ db₁).pending = .ok from hp)
  intro n₂ db₂ _
  apply Discipline.wp_bind
  apply Discipline.wp_ofExcept
  intro skus _
  apply Discipline.wp_bind
  unfold lockItems
  refine Discipline.wp_lax (wp_selectItems
    (show (((v.later n₀ db₀).later n₁ db₁).later n₂ db₂).pending = .ok from hp)
    (fun i i' _ hwh hsku => by rw [hwh, hsku])
    (fun _ _ _ _ _ _ => Or.inl fun x hx => absurd hx (hnone x)) ?_)
  intro n₃ db₃ hr₃ copies rows hcopies hrows
  apply Discipline.wp_bind
  refine wp_expireUnconfirmed_onward ⟨hp, fun c hc => Or.inl (hcopies c hc).1,
    fun c hc => (hcopies c hc).2.1, fun x hx => ?_⟩ hr₃.inv ?_
  · rcases hx with hx | hx
    · exact hrows x hx
    · exact absurd hx (hnone x)
  intro w expired cutoff now honward hexpired _
  dsimp only
  apply Discipline.wp_bind
  apply Discipline.wp_ofExcept
  intro _ _
  apply Discipline.wp_bind
  apply Discipline.wp_now
  intro time db₄ hr₄
  apply Discipline.wp_bind
  refine Discipline.wp_lax (wp_freshIds request.lines.length fun ids hids => ?_)
  apply Discipline.wp_bind
  apply Discipline.wp_ofExcept
  intro out hloop
  obtain ⟨copies', holds⟩ := out
  dsimp only
  have hzip : (request.lines.zip ids).map Prod.fst = request.lines :=
    List.map_fst_zip (by rw [hids])
  obtain ⟨-, -, hholds⟩ := holdEach_spec _ hloop fun line hline => by
    rw [← hzip]
    exact List.mem_map_of_mem hline
  apply Discipline.wp_bind
  apply Discipline.wp_write
  intro n₅ db₅ hr₅ _ _
  refine ⟨fun _ _ => trivial, fun _ _ => ?_⟩
  apply Discipline.wp_bind
  apply Discipline.wp_write
  intro n₆ db₆ hr₆ _ _
  refine ⟨fun _ _ => trivial, fun _ _ => ?_⟩
  apply Discipline.wp_bind
  apply Discipline.wp_ofExcept
  intro _ _ n₇ db₇ hr₇ db' hdb'
  have hrely := hr₄.lax.trans (hr₅.lax.trans (hr₆.unflushed.lax.trans hr₇.unflushed.unflushed))
  obtain ⟨mid', hmid', hstage⟩ := View.flushed_pending_eq_ok.1 hdb'
  obtain ⟨mid, hmid, hflush⟩ := View.flushed_pending_eq_ok.1 hmid'
  obtain ⟨rfl, -, -⟩ := hexpired.flushed n₇ db₇ hrely mid hmid
  obtain rfl := eq_of_check hflush
  cases hstage
  intro r hr
  rcases List.mem_append.1 hr with hold | hnew
  · -- a row that was there: the sweep may have released it
    left
    obtain ⟨r₀, hr₀, rfl⟩ := List.mem_map.1 hold
    refine ⟨r₀, hr₀, ?_⟩
    exact grows_of_selected (hexpired.lapsed.later hrely).toSelected hrely.inv.reservations
      (keepsLine_release _ _) (fun _ => rfl) (fun _ => rfl) hr₀
  · right
    obtain ⟨c, hc, hid, -⟩ := (hholds r hnew).item
    obtain ⟨c₀, hc₀, rfl⟩ := List.mem_map.1 hc
    obtain ⟨hlocked, hmem, hselected⟩ := hcopies c₀ hc₀
    rw [Bool.and_eq_true, beq_iff_eq] at hselected
    have hitem := item_mem_of_locked (honward.rely_of hrely) hmem (Or.inl hlocked)
    exact ⟨c₀, hitem, hid, hselected.1.trans (hholds r hnew).warehouse.symm⟩

theorem placement_governs (unconfirmedHold : Nat) :
    (placement unconfirmedHold).Governs (inventory unconfirmedHold) := by
  refine (protocol_governs unconfirmedHold).withPost fun op now db hinv => ?_
  have hnone : ∀ x : Row, ¬ (⟨fun _ => False, .ok, now, db⟩ : View Db Row Failure).held x :=
    fun _ hx => hx
  have hmeets : (protocol unconfirmedHold).wp op ((inventory unconfirmedHold).program op)
      ((protocol unconfirmedHold).Commits op db) ⟨fun _ => False, .ok, now, db⟩ :=
    (protocol_governs unconfirmedHold).program op now db hinv
  cases op with
  | openPosition payload principal =>
    exact Discipline.wp_bind _ _ (posts_openPosition rfl fun _ _ _ item rows hmanages hopens =>
      ⟨hmanages, item, rows, rfl, hopens.warehouse, hopens.of_item⟩)
  | adjust itemId payload principal =>
    exact Discipline.wp_bind _ _ (posts_adjust rfl hnone
      fun _ _ _ row m events hrow _ hmanages hitem hwarehouse =>
        ⟨row, hrow, hmanages, m, events, hitem, hwarehouse, rfl⟩)
  | reserve request => exact Discipline.wp_bind _ _ (posts_reserve rfl hnone)
  | confirm shipmentId =>
    exact Discipline.wp_mono (fun _ _ _ _ _ _ _ _ => trivial) _ _ (Discipline.wp_lax hmeets)
  | commit shipmentId actorId => exact Discipline.wp_bind _ _ (posts_commit rfl hnone)
  | release shipmentId reason =>
    exact Discipline.wp_mono (fun _ _ _ _ _ _ _ _ => trivial) _ _ (Discipline.wp_lax hmeets)
  | releaseExpired warehouseIds => exact Discipline.wp_bind _ _ (posts_releaseExpired rfl hnone)

/-! ## Rows stay where their item is -/

section Steps

variable {c c' : Config Db Row Failure Outcome Operation}

/-- What a step of a configuration does, places included. -/
theorem placed_of_commit (hc : c.Sound (placement unconfirmedHold)) {t : Nat}
    {s : Session Db Row Failure Outcome Operation} (hs : c.sessions t = some s) {a : Outcome}
    (ha : s.prog = .pure a) {db : Db} (hdb : s.pending c.db = .ok db) :
    Consistent db ∧ Grows c.db db ∧
      Committed unconfirmedHold s.op s.opened (c.Held t) a c.clock c.db db ∧
      Placed s.op s.opened (c.Held t) a c.clock c.db db := by
  obtain ⟨hguar, hpost⟩ := hc.commit hs ha hdb
  exact ⟨hguar.inv, hguar.grow, hpost⟩

/-- The reservations after a commit were there, or are new at the warehouse of their item. -/
theorem reservations_of_placed {opened db db' : Db} {held : Row → Prop} {a : Outcome} {clock : Nat}
    (hinv : Consistent db) (hcommit : Committed unconfirmedHold op opened held a clock db db')
    (hplaced : Placed op opened held a clock db db') : ∀ r ∈ db'.reservations,
      (∃ r₀ ∈ db.reservations, r₀.Grows r) ∨ db.ItemAt r.inventoryItemId r.warehouseId := by
  obtain ⟨f, new, holds, rows, he⟩ := effect_of_commit hinv hcommit
  by_cases hop : ∃ request, op = .reserve request
  · obtain ⟨request, rfl⟩ := hop
    exact hplaced
  · -- only a reserve adds rows
    intro r hr
    rw [he.reservations, List.mem_append, List.mem_map] at hr
    rcases hr with ⟨r₀, hr₀, rfl⟩ | hnew
    · exact Or.inl ⟨r₀, hr₀, (he.old r₀ hr₀).grows⟩
    · obtain ⟨request, hrequest, -⟩ := (he.added r hnew).request
      exact absurd ⟨request, hrequest⟩ hop

/-- The ledger rows after a commit were there, or are new at the warehouse of their item. -/
theorem movements_of_placed {opened db db' : Db} {held : Row → Prop} {a : Outcome} {clock : Nat}
    (hgrow : Grows db db') (hcommit : Committed unconfirmedHold op opened held a clock db db')
    (hplaced : Placed op opened held a clock db db') : ∀ m ∈ db'.movements,
      m ∈ db.movements ∨ db'.ItemAt m.inventoryItemId m.warehouseId := by
  have hsame : db'.movements = db.movements → ∀ m ∈ db'.movements,
      m ∈ db.movements ∨ db'.ItemAt m.inventoryItemId m.warehouseId := fun heq m hm =>
    Or.inl (heq ▸ hm)
  -- only openings, adjustments and commits write to the ledger
  cases op with
  | openPosition payload principal =>
    obtain ⟨-, item, rows, rfl, -, hrows⟩ := hplaced
    intro m hm
    refine (List.mem_append.1 hm).imp_right fun hm => ?_
    exact ⟨item, List.mem_append_right _ List.mem_cons_self, (hrows m hm).1.symm,
      (hrows m hm).2.symm⟩
  | adjust itemId payload principal =>
    obtain ⟨row, hrow, -, m, events, hitem, hwarehouse, rfl⟩ := hplaced
    intro m' hm'
    refine (List.mem_append.1 hm').imp_right fun hm' => ?_
    rw [List.mem_singleton.1 hm', hitem, hwarehouse]
    exact Db.ItemAt.grow ⟨row, hrow, rfl, rfl⟩ hgrow
  | commit shipmentId actorId =>
    exact fun m hm => (hplaced m hm).imp_right fun hitem => hitem.grow hgrow
  | reserve request =>
    cases a with
    | item item => exact hcommit.elim
    | count n => exact hcommit.elim
    | reserved answer created =>
      cases created with
      | false =>
        obtain ⟨-, -, rfl⟩ := hcommit
        exact hsame rfl
      | true =>
        obtain ⟨-, _, _, _, _, _, -, -, -, -, -, -, rfl⟩ := hcommit
        exact hsame rfl
  | confirm shipmentId =>
    cases a with
    | item item => exact hcommit.elim
    | reserved answer created => exact hcommit.elim
    | count n =>
      obtain ⟨_, _, -, -, rfl⟩ := hcommit
      exact hsame rfl
  | release shipmentId reason =>
    cases a with
    | item item => exact hcommit.elim
    | reserved answer created => exact hcommit.elim
    | count n =>
      rcases hcommit with ⟨-, rfl, -⟩ | ⟨_, _, -, -, -, -, rfl⟩ <;> exact hsame rfl
  | releaseExpired warehouseIds =>
    cases a with
    | item item => exact hcommit.elim
    | reserved answer created => exact hcommit.elim
    | count n =>
      rcases hcommit with ⟨-, rfl⟩ | ⟨_, _, _, -, -, -, -, rfl⟩ <;> exact hsame rfl

/-- Each step keeps rows at the warehouse of their item. -/
theorem Located.next (h : Located c.db) (hc : c.Sound (placement unconfirmedHold))
    {l : Label Operation Environment} (hnext : (inventory unconfirmedHold).next c l = some c') :
    Located c'.db := by
  rcases (inventory unconfirmedHold).next_db hnext with heq | ⟨t, draw, s, a, rfl, hs, ha, hdb⟩ |
    ⟨e, rfl, heq⟩
  · rwa [heq]
  · obtain ⟨-, hgrow, hcommit, hplaced⟩ := placed_of_commit hc hs ha hdb
    constructor
    · intro r hr
      rcases reservations_of_placed hc.inv hcommit hplaced r hr with ⟨r₀, hr₀, hg⟩ | hitem
      · rw [hg.item, hg.warehouse]
        exact (h.reservations r₀ hr₀).grow hgrow
      · exact hitem.grow hgrow
    · intro m hm
      rcases movements_of_placed hgrow hcommit hplaced m hm with hold | hitem
      · exact (h.movements m hold).grow hgrow
      · exact hitem
  · rw [heq]
    cases e <;> exact ⟨h.reservations, h.movements⟩

end Steps

theorem located_of_reachable {c : Config Db Row Failure Outcome Operation}
    (h : Reachable unconfirmedHold c) : c.Sound (placement unconfirmedHold) ∧ Located c.db := by
  have hstep : ∀ (c : Config Db Row Failure Outcome Operation) l c',
      c.Sound (placement unconfirmedHold) ∧ Located c.db → True →
      (inventory unconfirmedHold).next c l = some c' →
      c'.Sound (placement unconfirmedHold) ∧ Located c'.db := fun _ _ _ ⟨hc, hl⟩ _ hnext =>
    ⟨hc.next (placement_governs unconfirmedHold) hnext, hl.next hc hnext⟩
  exact h.preserves hstep ⟨Config.sound_idle consistent_empty, located_empty⟩

/-! ## Confinement -/

/-- What a caller does to stock positions and holds: it opens or adjusts a position, or sweeps what
the endpoint lets it sweep. -/
inductive Operation.By (principal : Principal) : Operation → Prop
  | openPosition (payload : InventoryItemCreate) : By principal (.openPosition payload principal)
  | adjust (itemId : Nat) (payload : StockAdjustment) :
      By principal (.adjust itemId payload principal)
  | sweep (warehouseId : Option Nat) (scope : Option (List Nat))
      (hscope : sweepScope principal warehouseId = .ok scope) : By principal (.releaseExpired scope)

/-- Nothing changes but rows of the warehouses. -/
structure Confined (warehouseIds : List Nat) (db db' : Db) : Prop where
  items : db'.items.filter (fun i => !warehouseIds.contains i.warehouseId) =
    db.items.filter fun i => !warehouseIds.contains i.warehouseId
  reservations : db'.reservations.filter (fun r => !warehouseIds.contains r.warehouseId) =
    db.reservations.filter fun r => !warehouseIds.contains r.warehouseId
  movements : db'.movements.filter (fun m => !warehouseIds.contains m.warehouseId) =
    db.movements.filter fun m => !warehouseIds.contains m.warehouseId
  skus : db'.skus = db.skus
  warehouseRefs : db'.warehouseRefs = db.warehouseRefs

theorem Confined.refl (warehouseIds : List Nat) (db : Db) : Confined warehouseIds db db :=
  ⟨rfl, rfl, rfl, rfl, rfl⟩

/-- A rewrite that keeps the rows that the condition selects, and selects the same ones. -/
theorem filter_map_of_fixed {α : Type} {p : α → Bool} {g : α → α} {l : List α}
    (hp : ∀ a ∈ l, p (g a) = p a) (hg : ∀ a ∈ l, p a = true → g a = a) :
    (l.map g).filter p = l.filter p := by
  induction l with
  | nil => rfl
  | cons a l ih =>
    have ih := ih (fun b hb => hp b (List.mem_cons_of_mem _ hb))
      fun b hb => hg b (List.mem_cons_of_mem _ hb)
    rw [List.map_cons, List.filter_cons, List.filter_cons, hp a List.mem_cons_self, ih]
    by_cases ha : p a = true
    · rw [if_pos ha, if_pos ha, hg a List.mem_cons_self ha]
    · rw [if_neg ha, if_neg ha]

/-- Appended rows that the condition does not select. -/
theorem filter_append_of_not {α : Type} {p : α → Bool} {l rows : List α}
    (h : ∀ a ∈ rows, p a = false) : (l ++ rows).filter p = l.filter p := by
  have hnil : rows.filter p = [] :=
    List.filter_eq_nil_iff.2 fun a ha => by rw [h a ha]; exact Bool.false_ne_true
  rw [List.filter_append, hnil, List.append_nil]

section Writes

variable {principal : Principal} (hrole : principal.role = .warehouseOperator)

include hrole

theorem mem_of_assertManages {warehouseId : Nat}
    (h : assertManages warehouseId principal = .ok ()) : warehouseId ∈ principal.warehouseIds := by
  unfold assertManages at h
  rw [if_neg (by simp [Principal.isAdmin, hrole])] at h
  split at h
  · rename_i hmember
    rw [Bool.and_eq_true, List.contains_iff_mem] at hmember
    exact hmember.2
  · cases h

/-- An operator sweeps some of its own warehouses. -/
theorem subset_of_sweepScope {warehouseId : Option Nat} {scope : Option (List Nat)}
    (h : sweepScope principal warehouseId = .ok scope) :
    ∃ warehouseIds, scope = some warehouseIds ∧ warehouseIds ⊆ principal.warehouseIds := by
  have hadmin : principal.isAdmin = false := by simp [Principal.isAdmin, hrole]
  have hrequire : principal.require stockManager = .ok () := by
    simp [Principal.require, stockManager, hrole]
  simp only [sweepScope, hrequire, hadmin, bind, Except.bind] at h
  cases warehouseId with
  | none =>
    cases h
    exact ⟨_, rfl, List.Subset.refl _⟩
  | some id =>
    by_cases hmem : principal.warehouseIds.contains id = true
    · simp only [Option.any_some, hmem, Bool.not_true] at h
      cases h
      rw [List.contains_iff_mem] at hmem
      exact ⟨_, rfl, by simpa using hmem⟩
    · simp only [Option.any_some, hmem, Bool.not_false] at h
      cases h

theorem confined_openPosition {db db' : Db} {opened : Db} {held : Row → Prop} {a : Outcome}
    {clock : Nat} {payload : InventoryItemCreate}
    (h : Placed (.openPosition payload principal) opened held a clock db db') :
    Confined principal.warehouseIds db db' := by
  obtain ⟨hmanages, item, rows, rfl, hwarehouse, hrows⟩ := h
  have hmem : principal.warehouseIds.contains item.warehouseId = true := by
    rw [hwarehouse, List.contains_iff_mem]
    exact mem_of_assertManages hrole hmanages
  refine ⟨filter_append_of_not fun i hi => ?_, rfl, filter_append_of_not fun m hm => ?_, rfl, rfl⟩
  · rw [List.mem_singleton.1 hi, hmem, Bool.not_true]
  · rw [(hrows m hm).2, hmem, Bool.not_true]

theorem confined_adjust {db db' : Db} {opened : Db} {held : Row → Prop} {a : Outcome}
    {clock : Nat} {itemId : Nat} {payload : StockAdjustment}
    (h : Placed (.adjust itemId payload principal) opened held a clock db db') :
    Confined principal.warehouseIds db db' := by
  obtain ⟨row, -, hmanages, m, events, -, hwarehouse, rfl⟩ := h
  have hmem : principal.warehouseIds.contains row.warehouseId = true := by
    rw [List.contains_iff_mem]
    exact mem_of_assertManages hrole hmanages
  refine ⟨filter_map_of_fixed (fun i _ => ?_) fun i _ hi => if_neg ?_, rfl,
    filter_append_of_not fun m' hm' => ?_, rfl, rfl⟩
  · split <;> rfl
  · rintro rfl
    rw [hmem] at hi
    exact Bool.false_ne_true hi
  · rw [List.mem_singleton.1 hm', hwarehouse, hmem, Bool.not_true]

omit hrole in
/-- The items of the holds that a sweep releases are at the warehouses it was to sweep. -/
theorem confined_releaseExpired {db db' : Db} {opened : Db} {held : Row → Prop} {a : Outcome}
    {clock : Nat} {warehouseIds : List Nat} (hinv : Consistent db) (hlocated : Located db)
    (hsubset : warehouseIds ⊆ principal.warehouseIds)
    (h : Placed (.releaseExpired (some warehouseIds)) opened held a clock db db') :
    Confined principal.warehouseIds db db' := by
  obtain ⟨expired, now, hexpired, rfl⟩ := h
  have hitem : ∀ x ∈ expired, ∃ warehouseId, principal.warehouseIds.contains warehouseId = true ∧
      db.ItemAt x.inventoryItemId warehouseId := by
    intro x hx
    obtain ⟨-, r, hr, hsame, hmem⟩ := hexpired x hx
    exact ⟨r.warehouseId, List.contains_iff_mem.2 (hsubset hmem),
      hsame ▸ hlocated.reservations r hr⟩
  refine ⟨filter_map_of_fixed (fun i _ => rfl) fun i hi helse => ?_,
    filter_map_of_fixed (fun r _ => ?_) fun r hr helse => if_neg fun hsel => ?_, rfl, rfl, rfl⟩
  · -- an item elsewhere has no hold among the released
    refine InventoryItem.unreserve_of_not_mem fun x hx hid => ?_
    obtain ⟨warehouseId, hmem, hat⟩ := hitem x hx
    rw [Db.ItemAt.unique hinv ⟨i, hi, hid.symm, rfl⟩ hat, hmem] at helse
    exact Bool.false_ne_true helse
  · split <;> rfl
  · -- a reservation elsewhere is not among the released
    obtain ⟨x, hx, hid⟩ := List.mem_map.1 (List.contains_iff_mem.1 hsel)
    rw [hinv.reservations.eq_of_key (hexpired x hx).1 hr hid] at hx
    obtain ⟨warehouseId, hmem, hat⟩ := hitem r hx
    rw [Db.ItemAt.unique hinv (hlocated.reservations r hr) hat, hmem] at helse
    exact Bool.false_ne_true helse

/-- A step of an operator's operation. -/
theorem confined_of_next {c c' : Config Db Row Failure Outcome Operation}
    (hc : c.Sound (placement unconfirmedHold)) (hlocated : Located c.db) {t draw : Nat}
    {s : Session Db Row Failure Outcome Operation} (hs : c.sessions t = some s)
    (hop : s.op.By principal)
    (hnext : (inventory unconfirmedHold).next c (.step t draw) = some c') :
    Confined principal.warehouseIds c.db c'.db := by
  rcases (inventory unconfirmedHold).next_db hnext with heq | ⟨t', _, s', a, hl, hs', ha, hdb⟩ |
    ⟨e, hl, -⟩
  · rw [heq]
    exact .refl _ _
  · cases hl
    obtain rfl := Option.some.inj (hs.symm.trans hs')
    obtain ⟨-, -, -, hplaced⟩ := placed_of_commit hc hs ha hdb
    generalize s.op = op at hop hplaced
    cases hop with
    | openPosition payload => exact confined_openPosition hrole hplaced
    | adjust itemId payload => exact confined_adjust hrole hplaced
    | sweep warehouseId scope hscope =>
      obtain ⟨warehouseIds, rfl, hsubset⟩ := subset_of_sweepScope hrole hscope
      exact confined_releaseExpired hc.inv hlocated hsubset hplaced
  · cases hl

end Writes

/-! ## What an operator may see -/

/-- Two states with the same rows at the warehouses. -/
structure Agrees (warehouseIds : List Nat) (a b : Db) : Prop where
  items : a.items.filter (fun i => warehouseIds.contains i.warehouseId) =
    b.items.filter fun i => warehouseIds.contains i.warehouseId
  reservations : a.reservations.filter (fun r => warehouseIds.contains r.warehouseId) =
    b.reservations.filter fun r => warehouseIds.contains r.warehouseId
  movements : a.movements.filter (fun m => warehouseIds.contains m.warehouseId) =
    b.movements.filter fun m => warehouseIds.contains m.warehouseId

theorem Agrees.symm {warehouseIds : List Nat} {a b : Db} (h : Agrees warehouseIds a b) :
    Agrees warehouseIds b a :=
  ⟨h.items.symm, h.reservations.symm, h.movements.symm⟩

/-- The caller gets the same listings from both states. `created_at` may differ for reservations the
caller does not see. -/
structure Indistinguishable (principal : Principal) (a b : Db) : Prop where
  items : ∀ filter, listItems principal filter a = listItems principal filter b
  reservations : ∀ createdAt createdAt' : Nat → Nat, (∀ r ∈ a.reservations,
    r.warehouseId ∈ principal.warehouseIds → createdAt r.id = createdAt' r.id) →
    ∀ shipmentId status limit, listReservations createdAt principal shipmentId status limit a =
      listReservations createdAt' principal shipmentId status limit b
  movements :
    ∀ itemId limit, movements itemId principal limit a = movements itemId principal limit b

theorem insertionSort_createdAt {createdAt createdAt' : Nat → Nat}
    {rows : List InventoryReservation} (h : ∀ r ∈ rows, createdAt r.id = createdAt' r.id) :
    rows.insertionSort (fun a b => createdAt b.id ≤ createdAt a.id) =
      rows.insertionSort fun a b => createdAt' b.id ≤ createdAt' a.id := by
  have hsort := List.map_insertionSort
    (fun a b : InventoryReservation => createdAt b.id ≤ createdAt a.id)
    (fun a b : InventoryReservation => createdAt' b.id ≤ createdAt' a.id) id rows
    fun r hr r' hr' => by simp only [id, h r hr, h r' hr']
  rwa [List.map_id, List.map_id] at hsort

section Reads

variable {principal : Principal} (hrole : principal.role = .warehouseOperator)

include hrole

theorem inScope_eq (warehouseId : Nat) :
    inScope principal warehouseId = principal.warehouseIds.contains warehouseId := by
  simp [inScope, Principal.scopedWarehouseIds, Principal.seesAllWarehouses, hrole]

theorem mayTouchWarehouse_eq (warehouseId : Nat) :
    principal.mayTouchWarehouse warehouseId = principal.warehouseIds.contains warehouseId := by
  simp [Principal.mayTouchWarehouse, Principal.seesAllWarehouses, hrole]

theorem listItems_eq {a b : Db} (h : Agrees principal.warehouseIds a b) (filter : ItemFilter) :
    listItems principal filter a = listItems principal filter b := by
  have hrows : a.items.filter (fun i => filter.selects i && inScope principal i.warehouseId) =
      b.items.filter fun i => filter.selects i && inScope principal i.warehouseId := by
    simp only [inScope_eq hrole, ← List.filter_filter, h.items]
  simp only [listItems, hrows]

theorem listReservations_eq {a b : Db} (h : Agrees principal.warehouseIds a b)
    {createdAt createdAt' : Nat → Nat} (hcreated : ∀ r ∈ a.reservations,
      r.warehouseId ∈ principal.warehouseIds → createdAt r.id = createdAt' r.id)
    (shipmentId : Option Nat) (status : Option ReservationStatus) (limit : Nat) :
    listReservations createdAt principal shipmentId status limit a =
      listReservations createdAt' principal shipmentId status limit b := by
  have hrows : a.reservations.filter (fun r => shipmentId.all (r.shipmentId == ·) &&
      status.all (r.status == ·) && inScope principal r.warehouseId) =
      b.reservations.filter fun r => shipmentId.all (r.shipmentId == ·) &&
        status.all (r.status == ·) && inScope principal r.warehouseId := by
    simp only [inScope_eq hrole, ← List.filter_filter, h.reservations]
  have hsame : ∀ r ∈ a.reservations.filter (fun r => shipmentId.all (r.shipmentId == ·) &&
      status.all (r.status == ·) && inScope principal r.warehouseId),
      createdAt r.id = createdAt' r.id := by
    intro r hr
    obtain ⟨hmem, hselected⟩ := List.mem_filter.1 hr
    rw [Bool.and_eq_true, inScope_eq hrole, List.contains_iff_mem] at hselected
    exact hcreated r hmem hselected.2
  unfold listReservations
  dsimp only
  rw [insertionSort_createdAt hsame, hrows]

omit hrole in
/-- The ledger of an item that the caller may see is at the item's warehouse. -/
theorem movements_of_agrees {a b : Db} (ha : Consistent a) (hb : Consistent b) (hla : Located a)
    (hlb : Located b) (h : Agrees principal.warehouseIds a b) {itemId : Nat} {item : InventoryItem}
    (hitem : Table.lookup InventoryItem.id a.items itemId = some item)
    (hmember : principal.warehouseIds.contains item.warehouseId = true) :
    Table.lookup InventoryItem.id b.items itemId = some item ∧
      a.movements.filter (·.inventoryItemId == itemId) =
        b.movements.filter (·.inventoryItemId == itemId) := by
  obtain ⟨hmem, hid⟩ := Table.mem_of_lookup hitem
  have hmem' : item ∈ b.items := by
    have hfiltered : item ∈ a.items.filter fun i => principal.warehouseIds.contains i.warehouseId :=
      List.mem_filter.2 ⟨hmem, hmember⟩
    rw [h.items] at hfiltered
    exact (List.mem_filter.1 hfiltered).1
  have hledger : ∀ {db : Db}, Consistent db → Located db → item ∈ db.items →
      db.movements.filter (·.inventoryItemId == itemId) =
        (db.movements.filter fun m => principal.warehouseIds.contains m.warehouseId).filter
          (·.inventoryItemId == itemId) := by
    intro db hinv hlocated hitem
    rw [List.filter_filter]
    refine List.filter_congr fun m hm => ?_
    by_cases hsame : m.inventoryItemId = itemId
    · have hwarehouse := Db.ItemAt.unique hinv (hlocated.movements m hm)
        ⟨item, hitem, hid.trans hsame.symm, rfl⟩
      simp only [hsame, hwarehouse, hmember, beq_self_eq_true, Bool.and_self]
    · simp only [beq_eq_false_iff_ne.2 hsame, Bool.false_and]
  refine ⟨hid ▸ hb.items.lookup_of_mem hmem', ?_⟩
  rw [hledger ha hla hmem, hledger hb hlb hmem', h.movements]

theorem movements_eq {a b : Db} (ha : Consistent a) (hb : Consistent b) (hla : Located a)
    (hlb : Located b) (h : Agrees principal.warehouseIds a b) (itemId limit : Nat) :
    movements itemId principal limit a = movements itemId principal limit b := by
  -- a position that is not found in one state, or is elsewhere, is neither in the other
  have hnone : ∀ {a b : Db}, Consistent a → Consistent b → Located a → Located b →
      Agrees principal.warehouseIds a b →
      (Table.lookup InventoryItem.id a.items itemId).filter
        (fun i => principal.warehouseIds.contains i.warehouseId) = none →
      (Table.lookup InventoryItem.id b.items itemId).filter
        (fun i => principal.warehouseIds.contains i.warehouseId) = none := by
    intro a b ha hb hla hlb h hfound
    rw [Option.filter_eq_none_iff] at hfound ⊢
    intro item hitem hmember
    exact hfound item (movements_of_agrees hb ha hlb hla h.symm hitem hmember).1 hmember
  unfold Inventory.movements
  simp only [mayTouchWarehouse_eq hrole]
  cases hfound : (Table.lookup InventoryItem.id a.items itemId).filter
      fun i => principal.warehouseIds.contains i.warehouseId with
  | none => rw [hnone ha hb hla hlb h hfound]
  | some item =>
    obtain ⟨hitem, hmember⟩ := Option.filter_eq_some_iff.1 hfound
    obtain ⟨hitem', hledger⟩ := movements_of_agrees ha hb hla hlb h hitem hmember
    rw [hitem', Option.filter_some, if_pos hmember, hledger]

end Reads

/-- Operators stay inside their warehouses: in every interleaving a step of an operator's operation
changes only rows of the operator's warehouses, and an operator gets the same listings from any two
reachable states that agree on these rows. -/
theorem operators_confined (unconfirmedHold : Nat)
    {c : Config Db Row Failure Outcome Operation} (h : Reachable unconfirmedHold c)
    (principal : Principal) (hrole : principal.role = .warehouseOperator) :
    (∀ t draw s c', c.sessions t = some s → s.op.By principal →
      (inventory unconfirmedHold).next c (.step t draw) = some c' →
      Confined principal.warehouseIds c.db c'.db) ∧
    ∀ c₂, Reachable unconfirmedHold c₂ → Agrees principal.warehouseIds c.db c₂.db →
      Indistinguishable principal c.db c₂.db := by
  obtain ⟨hc, hlocated⟩ := located_of_reachable h
  refine ⟨fun t draw s c' hs hop hnext => confined_of_next hrole hc hlocated hs hop hnext,
    fun c₂ h₂ hagrees => ?_⟩
  obtain ⟨hc₂, hlocated₂⟩ := located_of_reachable h₂
  exact ⟨listItems_eq hrole hagrees, fun _ _ hcreated => listReservations_eq hrole hagrees hcreated,
    movements_eq hrole hc.inv hc₂.inv hlocated hlocated₂ hagrees⟩

/-- An operator of these warehouses. -/
def sampleOperator (warehouseIds : List Nat) : Principal where
  userId := 2
  role := .warehouseOperator
  warehouseIds := warehouseIds

/-- Ten units of the SKU at a warehouse, opened by an admin. -/
def positionAt (warehouseId : Nat) : Operation :=
  .openPosition
    { warehouseId := warehouseId
      skuId := 1
      zoneId := none
      onHandQty := 10
      reorderLevel := 0
      onHandQty_nonneg := Int.natCast_nonneg _
      reorderLevel_nonneg := Int.natCast_nonneg _ }
    { userId := 1
      role := .admin
      warehouseIds := [] }

/-- A unit of the SKU held at a warehouse. -/
def reserveAt (shipmentId warehouseId : Nat) : Operation :=
  .reserve
    { shipmentId := shipmentId
      warehouseId := warehouseId
      lines := [unit 1]
      lines_ne_nil := List.cons_ne_nil _ _
      lines_length_le := by decide
      unique_skus := List.nodup_singleton _ }

/-- The SKU lies at warehouses 7 and 8, as items 10 and 20; shipment 50 holds a unit at 7. -/
def twoWarehouses : List (Label Operation Environment) :=
  [.env (.catalog [sampleSku 1 "KBD"]),
    .env (.replica [sampleWarehouse, { sampleWarehouse with id := 8, code := "KHI-02" }])] ++
    session 0 (positionAt 7) (.replicate 7 10) ++ session 0 (positionAt 8) (.replicate 7 20) ++
    session 0 (reserveAt 50 7) (.replicate 14 31)

/-- Shipment 51 holds a unit at warehouse 8, both holds have lapsed, and an operator of warehouse 7
sweeps. -/
def operatorSweep : List (Label Operation Environment) :=
  twoWarehouses ++
    session 0 (reserveAt 51 8) (.replicate 14 32) ++
    [.tick 30] ++ session 1 (.releaseExpired (some [7])) (.replicate 12 0)

instance (warehouseIds : List Nat) (a b : Db) : Decidable (Agrees warehouseIds a b) :=
  decidable_of_iff (_ ∧ _ ∧ _) ⟨fun ⟨hi, hr, hm⟩ => ⟨hi, hr, hm⟩, fun ⟨hi, hr, hm⟩ => ⟨hi, hr, hm⟩⟩

/-- The sweep releases the hold at warehouse 7 and leaves the one at 8, which the operator's
listings do not show. -/
theorem operators_confined_in_sweep : ∃ c c' c₂,
    Reachable 30 c ∧ (inventory 30).next c (.step 1 0) = some c' ∧ Reachable 30 c₂ ∧
      c'.db.reservations.map (fun r => (r.warehouseId, r.status)) =
        [(7, .released), (8, .held)] ∧
      c₂.db.items ≠ c.db.items ∧ c₂.db.reservations ≠ c.db.reservations ∧
      Confined [7] c.db c'.db ∧ Indistinguishable (sampleOperator [7]) c.db c₂.db := by
  have hrun : ((inventory 30).machine.exec (.idle .empty) operatorSweep).bind (fun c =>
      ((inventory 30).next c (.step 1 0)).map fun c' =>
        c'.db.reservations.map fun r => (r.warehouseId, r.status)) =
      some [(7, .released), (8, .held)] := by
    decide +kernel
  have hop : ((inventory 30).machine.exec (.idle .empty) operatorSweep).bind (fun c =>
      (c.sessions 1).map fun s => match s.op with
        | .releaseExpired scope => scope
        | _ => none) = some (some [7]) := by
    decide +kernel
  have hwithout : ((inventory 30).machine.exec (.idle .empty) operatorSweep).bind (fun c =>
      ((inventory 30).machine.exec (.idle .empty) twoWarehouses).map fun c₂ =>
        decide (Agrees [7] c.db c₂.db ∧ c₂.db.items ≠ c.db.items ∧
          c₂.db.reservations ≠ c.db.reservations)) = some true := by
    decide +kernel
  obtain ⟨c, hc, hnext⟩ := Option.bind_eq_some_iff.1 hrun
  obtain ⟨c', hc', hstatus⟩ := Option.map_eq_some_iff.1 hnext
  rw [hc, Option.bind_some, Option.map_eq_some_iff] at hop hwithout
  obtain ⟨s, hs, hscope⟩ := hop
  obtain ⟨c₂, hc₂, hagrees⟩ := hwithout
  obtain ⟨hagrees, hitems, hholds⟩ := of_decide_eq_true hagrees
  have hreach : Reachable 30 c := Machine.run_of_exec _ hc
  have hreach₂ : Reachable 30 c₂ := Machine.run_of_exec _ hc₂
  obtain ⟨hwrites, hreads⟩ := operators_confined 30 hreach (sampleOperator [7]) rfl
  refine ⟨c, c', c₂, hreach, hc', hreach₂, hstatus, hitems, hholds, hwrites 1 0 s c' hs ?_ hc',
    hreads c₂ hreach₂ hagrees⟩
  split at hscope
  · rename_i scope hsop
    subst hscope
    rw [hsop]
    exact .sweep (some 7) (some [7]) rfl
  · cases hscope

end SmartLogistics.Inventory
