import SmartLogistics.Inventory.Protocol

/-!
# Specifications of the locking reads

The helpers the operations share, specified once over the protocol. `wp_selectItems` and
`wp_selectHolds` are the two locking reads; `wp_lockHolds` gives a shipment's HELD rows
(`HeldRows`), and `wp_expireUnconfirmed` the state of a transaction that swept the items it locked
(`Expired`). The assertions are stable: they hold of every later state the transaction sees
(`HeldRows.later`, `Lapsed.later`, `Expired.later`).
-/

set_option autoImplicit false

namespace SmartLogistics.Inventory

open SmartLogistics.Library SmartLogistics.Platform

variable {unconfirmedHold : Nat} {op : Operation}

/-! ## Rows of earlier states -/

theorem InventoryReservation.Grows.held {r r' : InventoryReservation} (h : r.Grows r')
    (hs : r'.status = .held) : r.status = .held := by
  rcases h.status with he | he
  · exact he.symm.trans hs
  · exact he

theorem InventoryReservation.Grows.isHeldFor {r r' : InventoryReservation} (h : r.Grows r')
    {s : Nat} (hs : isHeldFor s r' = true) : isHeldFor s r = true := by
  simp only [Inventory.isHeldFor, Bool.and_eq_true, beq_iff_eq] at hs ⊢
  exact ⟨h.shipment.symm.trans hs.1, h.held hs.2⟩

/-! ## Stability -/

variable {v : View Db Row Failure}

/-- A row whose lock the session holds is still there. -/
theorem mem_of_locked {n : Nat} {db : Db} (hr : (protocol unconfirmedHold).Rely v n db)
    {h : InventoryReservation} (hh : h ∈ v.db.reservations) (hl : v.held (.reservation h.id)) :
    h ∈ db.reservations := hr.same (.reservation h.id) hl h hh rfl

theorem item_mem_of_locked {n : Nat} {db : Db}
    (hr : (protocol unconfirmedHold).Rely v n db) {i : InventoryItem} (hi : i ∈ v.db.items)
    (hl : v.held (.item i.id)) : i ∈ db.items := hr.same (.item i.id) hl i hi rfl

theorem HeldRows.later {s : Nat} {opened : Db} {holds : List InventoryReservation}
    (h : HeldRows s opened v.held holds v.db) {n : Nat} {db : Db}
    (hr : (protocol unconfirmedHold).Rely v n db) : HeldRows s opened v.held holds db where
  mem := fun x hx => mem_of_locked hr (h.mem x hx) (h.locked x hx)
  nodup := h.nodup
  status := h.status
  locked := h.locked
  shipment := h.shipment
  only := by
    intro id hl
    obtain ⟨r, hmem, rfl, honly⟩ := h.only id hl
    exact ⟨r, mem_of_locked hr hmem hl, rfl, honly⟩
  known := by
    intro r₀ hr₀ hid
    obtain ⟨r, hmem, hrid, honly⟩ := h.known r₀ hr₀ hid
    obtain ⟨r', hmem', hg⟩ := hr.grow.reservations r hmem
    refine ⟨r', hmem', hg.id.trans hrid, fun hheld => ?_⟩
    -- a row that is HELD now was HELD then, and is locked since
    have hsel := honly (hg.held hheld)
    rwa [hr.inv.reservations.eq_of_key hmem' (mem_of_locked hr hmem (h.locked r hsel)) hg.id]

theorem HeldRows.mono {s : Nat} {opened : Db} {holds : List InventoryReservation}
    {held held' : Row → Prop} {db : Db} (h : HeldRows s opened held holds db)
    (hle : ∀ x, held x → held' x)
    (hitems : ∀ id, held' (.reservation id) → held (.reservation id)) :
    HeldRows s opened held' holds db :=
  { h with
    locked := fun x hx => hle _ (h.locked x hx)
    only := fun id hid => h.only id (hitems id hid) }

theorem Lapsed.later {cutoff : Nat} {holds : List InventoryReservation}
    (h : Lapsed v.held cutoff holds v.db) {n : Nat} {db : Db}
    (hr : (protocol unconfirmedHold).Rely v n db) : Lapsed v.held cutoff holds db where
  mem := fun x hx => mem_of_locked hr (h.mem x hx) (h.locked x hx)
  nodup := h.nodup
  status := h.status
  locked := h.locked
  items_locked := h.items_locked
  lapsed := h.lapsed
  only := by
    intro id hl
    obtain ⟨r, hmem, rfl, honly⟩ := h.only id hl
    exact ⟨r, mem_of_locked hr hmem hl, rfl, honly⟩

/-- The items a transaction locked, and nothing else yet. -/
structure ItemsOf (v : View Db Row Failure) (copies : List InventoryItem) : Prop where
  pending : v.pending = .ok
  locked : ∀ c ∈ copies, v.held (.item c.id)
  mem : ∀ c ∈ copies, c ∈ v.db.items
  only : ∀ x, v.held x → ∃ c ∈ copies, x = .item c.id

theorem ItemsOf.later {copies : List InventoryItem} (h : ItemsOf v copies) {n : Nat} {db : Db}
    (hr : (protocol unconfirmedHold).Rely v n db) : ItemsOf (v.later n db) copies where
  pending := h.pending
  locked := h.locked
  mem := fun c hc => item_mem_of_locked hr (h.mem c hc) (h.locked c hc)
  only := h.only

/-! ## The two locking reads -/

/-- `SELECT … FROM inventory_items … FOR UPDATE`. The condition is on columns that never change, so
every row of the statement's snapshot is returned. -/
theorem wp_selectItems {p : InventoryItem → Bool}
    {Q : List InventoryItem → View Db Row Failure → Prop} (hp : v.pending = .ok)
    (hfixed : ∀ i i' : InventoryItem, i'.id = i.id → i'.warehouseId = i.warehouseId →
      i'.skuId = i.skuId → p i' = p i)
    (hfact : ∀ n db, (protocol unconfirmedHold).Rely v n db → ∀ i ∈ db.items, p i = true →
      (∀ x, v.held x → x.rank < (Row.item i.id).rank) ∨
        (op.Relocks ∧ ∃ h ∈ db.reservations, v.held (.reservation h.id) ∧
          i.id = h.inventoryItemId))
    (h : ∀ n db, (protocol unconfirmedHold).Rely v n db → ∀ copies rows,
      (∀ c ∈ copies, .item c.id ∈ rows ∧ c ∈ db.items ∧ p c = true) →
      (∀ x ∈ rows, ∃ c ∈ copies, x = .item c.id) → Q copies ((v.later n db).grantAll rows)) :
    (protocol unconfirmedHold).wp op
      (Table.selectForUpdate InventoryItem.id Row.item Db.items p) Q v := by
  refine Table.wp_selectForUpdate hp ?_ ?_ (fun db hinv => hinv.items) ?_ ?_
  · intro k a b _ hb _ hsame r hl
    obtain ⟨hr, rfl⟩ := Table.mem_of_lookup hl
    exact hb.items.lookup_of_mem (hsame r hr rfl)
  · intro k a b _ hb hg hsome
    obtain ⟨r, hl⟩ := Option.isSome_iff_exists.1 hsome
    obtain ⟨hr, rfl⟩ := Table.mem_of_lookup hl
    obtain ⟨r', hr', hid, -⟩ := hg.items r hr
    rw [← hid, hb.items.lookup_of_mem hr']
    rfl
  · -- each lock is on a row above those held
    intro n db hr pre k post hks m db' hr'
    have hasc := hr.inv.items.pairwise_keysWhere p
    rw [hks, List.pairwise_append] at hasc
    have hk : k ∈ Table.keysWhere InventoryItem.id p db.items := by
      rw [hks]
      exact List.mem_append_right _ List.mem_cons_self
    obtain ⟨i, hi, hpi, rfl⟩ := Table.mem_keysWhere.1 hk
    obtain ⟨i', hi', hid, hwh, hsku⟩ := hr'.grow.items i hi
    have hpi' : p i' = true := (hfixed i i' hid hwh hsku).trans hpi
    refine ⟨⟨i', hi', hid⟩, ?_⟩
    rcases hfact m db' (hr.trans hr') i' hi' hpi' with hlt | ⟨hop, x, hx, hheld, hxid⟩
    · refine Or.inl fun x hx => ?_
      rcases hx with hx | hx
      · obtain ⟨j, hj, rfl⟩ := List.mem_map.1 hx
        exact Row.rank_item_lt_item.2 (hasc.2.2 j hj _ List.mem_cons_self)
      · rw [← hid]
        exact hlt x hx
    · exact Or.inr ⟨hop, x, hx, Or.inr hheld, by rw [← hxid, hid]⟩
  · -- the rows that are returned are as they are when the last lock is granted
    intro n db hr m db' hr'
    refine h m db' (hr.trans hr') _ _ ?_ ?_
    · intro c hc
      obtain ⟨k, hk, hl⟩ := List.mem_filterMap.1 hc
      obtain ⟨hmem, hkey⟩ := Table.mem_of_lookup (Option.eq_some_of_filter_eq_some hl)
      exact ⟨hkey ▸ List.mem_map_of_mem hk, hmem, (Option.filter_eq_some_iff.1 hl).2⟩
    · intro x hx
      obtain ⟨k, hk, rfl⟩ := List.mem_map.1 hx
      obtain ⟨i, hi, hpi, rfl⟩ := Table.mem_keysWhere.1 hk
      obtain ⟨i', hi', hid, hwh, hsku⟩ := hr'.grow.items i hi
      refine ⟨i', List.mem_filterMap.2 ⟨i.id, hk, ?_⟩, by rw [hid]⟩
      rw [← hid, hr'.inv.items.lookup_of_mem hi']
      exact Option.filter_eq_some_iff.2 ⟨rfl, (hfixed i i' hid hwh hsku).trans hpi⟩

/-- `SELECT … FROM inventory_reservations … FOR UPDATE` of a transaction that has locked items only.
A row of the snapshot that still satisfies the condition is returned, if it satisfied it then. -/
theorem wp_selectHolds {p : InventoryReservation → Bool}
    {Q : List InventoryReservation → View Db Row Failure → Prop} (hp : v.pending = .ok)
    (hitems : ∀ x, v.held x → ∃ i, x = .item i)
    (h : ∀ n₀ db₀, (protocol unconfirmedHold).Rely v n₀ db₀ →
      ∀ n db, (protocol unconfirmedHold).Rely (v.later n₀ db₀) n db → ∀ holds rows,
      (∀ x ∈ holds, .reservation x.id ∈ rows ∧ x ∈ db.reservations ∧ p x = true ∧
        ∃ r ∈ db₀.reservations, r.Grows x) →
      holds.Nodup →
      (∀ x ∈ rows, ∃ r₀ ∈ db₀.reservations, p r₀ = true ∧ ∃ r ∈ db.reservations, r₀.Grows r ∧
        x = .reservation r.id ∧ (p r = true → r ∈ holds)) →
      (∀ r₀ ∈ db₀.reservations, p r₀ = true → ∀ r ∈ db.reservations, r₀.Grows r → p r = true →
        r ∈ holds) →
      Q holds ((v.later n db).grantAll rows)) :
    (protocol unconfirmedHold).wp op
      (Table.selectForUpdate InventoryReservation.id Row.reservation Db.reservations p) Q v := by
  refine Table.wp_selectForUpdate hp ?_ ?_ (fun db hinv => hinv.reservations) ?_ ?_
  · intro k a b _ hb _ hsame r hl
    obtain ⟨hr, rfl⟩ := Table.mem_of_lookup hl
    exact hb.reservations.lookup_of_mem (hsame r hr rfl)
  · intro k a b _ hb hg hsome
    obtain ⟨r, hl⟩ := Option.isSome_iff_exists.1 hsome
    obtain ⟨hr, rfl⟩ := Table.mem_of_lookup hl
    obtain ⟨r', hr', hgr⟩ := hg.reservations r hr
    rw [← hgr.id, hb.reservations.lookup_of_mem hr']
    rfl
  · -- reservations come after items, and in the order of their ids
    intro n db hr pre k post hks m db' hr'
    have hasc := hr.inv.reservations.pairwise_keysWhere p
    rw [hks, List.pairwise_append] at hasc
    have hk : k ∈ Table.keysWhere InventoryReservation.id p db.reservations := by
      rw [hks]
      exact List.mem_append_right _ List.mem_cons_self
    obtain ⟨r, hrm, -, hrid⟩ := Table.mem_keysWhere.1 hk
    obtain ⟨r', hrm', hg⟩ := hr'.grow.reservations r hrm
    refine ⟨⟨r', hrm', hg.id.trans hrid⟩, Or.inl fun x hx => ?_⟩
    rcases hx with hx | hx
    · obtain ⟨j, hj, rfl⟩ := List.mem_map.1 hx
      exact Row.rank_reservation_lt_reservation.2 (hasc.2.2 j hj k List.mem_cons_self)
    · obtain ⟨i, rfl⟩ := hitems x hx
      exact Row.rank_item_lt_reservation i k
  · intro n₀ db₀ hr₀ n db hr
    refine h n₀ db₀ hr₀ n db hr _ _ ?_ ?_ ?_ ?_
    · intro x hx
      obtain ⟨k, hk, hl⟩ := List.mem_filterMap.1 hx
      obtain ⟨hmem, hkey⟩ := Table.mem_of_lookup (Option.eq_some_of_filter_eq_some hl)
      refine ⟨hkey ▸ List.mem_map_of_mem hk, hmem, (Option.filter_eq_some_iff.1 hl).2, ?_⟩
      obtain ⟨r, hrm, -, hrid⟩ := Table.mem_keysWhere.1 hk
      obtain ⟨r', hr', hg⟩ := hr.grow.reservations r hrm
      obtain rfl := hr.inv.reservations.eq_of_key hr' hmem (hg.id.trans (hrid.trans hkey.symm))
      exact ⟨r, hrm, hg⟩
    · refine List.Nodup.of_map InventoryReservation.id ?_
      refine (Table.map_filterMap_lookup_sublist p _ _).nodup ?_
      exact (hr₀.inv.reservations.pairwise_keysWhere p).imp fun hlt => Nat.ne_of_lt hlt
    · -- a row that was locked is returned if it satisfies the condition still
      intro x hx
      obtain ⟨k, hk, rfl⟩ := List.mem_map.1 hx
      obtain ⟨r₀, hr₀m, hp₀, rfl⟩ := Table.mem_keysWhere.1 hk
      obtain ⟨r, hrm, hg⟩ := hr.grow.reservations r₀ hr₀m
      refine ⟨r₀, hr₀m, hp₀, r, hrm, hg, by rw [hg.id], fun hpr => ?_⟩
      refine List.mem_filterMap.2 ⟨r₀.id, hk, ?_⟩
      rw [← hg.id, hr.inv.reservations.lookup_of_mem hrm]
      exact Option.filter_eq_some_iff.2 ⟨rfl, hpr⟩
    · intro r₀ hr₀m hp₀ r hrm hg hpr
      refine List.mem_filterMap.2 ⟨r₀.id, Table.mem_keysWhere.2 ⟨r₀, hr₀m, hp₀, rfl⟩, ?_⟩
      rw [← hg.id, hr.inv.reservations.lookup_of_mem hrm]
      exact Option.filter_eq_some_iff.2 ⟨rfl, hpr⟩

/-! ## The holds of a shipment -/

/-- `lockHolds` returns the shipment's HELD rows, locked: all of those that were there when it
started. -/
theorem wp_lockHolds {shipmentId : Nat}
    {Q : List InventoryReservation → View Db Row Failure → Prop} (hp : v.pending = .ok)
    (hnone : ∀ x, ¬ v.held x)
    (h : ∀ w holds, Consistent w.db → w.pending = .ok →
      HeldRows shipmentId v.db w.held holds w.db → Q holds w) :
    (protocol unconfirmedHold).wp op (lockHolds shipmentId) Q v := by
  unfold lockHolds
  simp only [Txn.bind_eq]
  apply Discipline.wp_bind
  apply Discipline.wp_select hp
  intro n db hr
  split
  · rename_i hempty
    refine h _ _ hr.inv hp ⟨⟨fun x hx => absurd hx List.not_mem_nil, List.nodup_nil,
      fun x hx => absurd hx List.not_mem_nil⟩, fun x hx => absurd hx List.not_mem_nil,
      fun x hx => absurd hx List.not_mem_nil, fun id hid => absurd hid (hnone _), ?_⟩
    intro r₀ hr₀ hid
    obtain ⟨r, hmem, hg⟩ := hr.grow.reservations r₀ hr₀
    refine ⟨r, hmem, hg.id, fun hheld => ?_⟩
    -- no row is HELD
    have hrow : r ∈ db.reservations.filter (isHeldFor shipmentId) :=
      List.mem_filter.2 ⟨hmem, by simp [isHeldFor, hheld, hg.shipment, hid]⟩
    rw [List.isEmpty_iff, List.map_eq_nil_iff] at hempty
    rw [hempty] at hrow
    exact absurd hrow List.not_mem_nil
  have hshipment : ∀ {x : InventoryReservation}, isHeldFor shipmentId x = true →
      x.shipmentId = shipmentId ∧ x.status = .held := fun hx => by
    simpa [isHeldFor] using hx
  apply Discipline.wp_bind
  unfold lockItemIds
  apply wp_selectItems (show (v.later n db).pending = .ok from hp)
  · intro i i' hid _ _
    rw [hid]
  · exact fun _ _ _ _ _ _ => Or.inl fun x hx => absurd hx (hnone x)
  intro n₁ db₁ hr₁ copies rows hcopies hrows
  have hitems : ∀ x, (((v.later n db).later n₁ db₁).grantAll rows).held x → ∃ i, x = .item i := by
    rintro x (hx | hx)
    · obtain ⟨c, -, rfl⟩ := hrows x hx
      exact ⟨c.id, rfl⟩
    · exact absurd hx (hnone x)
  apply wp_selectHolds (show (((v.later n db).later n₁ db₁).grantAll rows).pending = .ok from hp)
    hitems
  intro n₂ db₂ hr₂ n₃ db₃ hr₃ holds rows' hholds hnodup hrows' hknown
  refine h _ _ hr₃.inv hp ⟨⟨fun x hx => (hholds x hx).2.1, hnodup, fun x hx =>
    (hshipment (hholds x hx).2.2.1).2⟩, fun x hx => Or.inl (hholds x hx).1, fun x hx =>
    (hshipment (hholds x hx).2.2.1).1, ?_, ?_⟩
  · rintro id (hid | hid)
    · obtain ⟨r₀, -, hp₀, r, hrm, hg, heq, honly⟩ := hrows' _ hid
      refine ⟨r, hrm, (Row.reservation.inj heq).symm, fun hheld => honly ?_⟩
      simp [isHeldFor, hheld, hg.shipment, (hshipment hp₀).1]
    · obtain ⟨i, hi⟩ := hitems _ hid
      cases hi
  · intro r₀ hr₀ hid
    obtain ⟨r₂, hmem₂, hg₂⟩ :=
      ((hr.trans hr₁).trans hr₂.ungranted).grow.reservations r₀ hr₀
    obtain ⟨r, hmem, hg⟩ := hr₃.grow.reservations r₂ hmem₂
    refine ⟨r, hmem, hg.id.trans hg₂.id, fun hheld => ?_⟩
    have hlive : isHeldFor shipmentId r = true := by
      simp [isHeldFor, hheld, hg.shipment, hg₂.shipment, hid]
    exact hknown r₂ hmem₂ (hg.isHeldFor hlive) r hmem hg hlive

/-! ## The sweep of locked items -/

/-- A transaction that swept the items it locked: `expired` are the holds it releases, `copies` the
items as it left them. -/
structure Expired (unconfirmedHold : Nat) (w : View Db Row Failure)
    (copies : List InventoryItem) (expired : List InventoryReservation) (cutoff now : Nat) :
    Prop where
  cutoff_le : cutoff ≤ now
  now_le : now ≤ w.now
  locked : ∀ c ∈ copies, w.held (.item c.id)
  lapsed : Lapsed w.held cutoff expired w.db
  flushed : ∀ n db, (protocol unconfirmedHold).Rely w n db → ∀ mid,
    w.pending db = .ok mid →
      mid = db.expireRows expired now ∧ Consistent mid ∧ ∀ c ∈ copies, c ∈ mid.items

theorem Expired.later {w : View Db Row Failure} {copies : List InventoryItem}
    {expired : List InventoryReservation} {cutoff now : Nat}
    (h : Expired unconfirmedHold w copies expired cutoff now) {n : Nat} {db : Db}
    (hr : (protocol unconfirmedHold).Rely w n db) :
    Expired unconfirmedHold (w.later n db) copies expired cutoff now where
  cutoff_le := h.cutoff_le
  now_le := h.now_le.trans hr.clock
  locked := h.locked
  lapsed := h.lapsed.later hr
  flushed := fun _ _ hr' => h.flushed _ _ (hr.trans hr')

theorem Db.releaseRows_nil (reason : String) (now : Nat) (db : Db) :
    db.releaseRows [] reason now = db := by
  have hitems : db.items.map (InventoryItem.unreserve []) = db.items := by
    rw [List.map_congr_left fun i _ =>
      InventoryItem.unreserve_of_not_mem fun r hr => absurd hr List.not_mem_nil]
    exact List.map_id' _
  have hrows : (db.reservations.map fun r =>
      if ([] : List Nat).contains r.id then InventoryReservation.release reason now r else r) =
      db.reservations := by
    simp
  unfold Db.releaseRows Db.writeReservations
  rw [hitems]
  exact congrArg (fun rs => { db with reservations := rs }) hrows

theorem Db.expireRows_nil (now : Nat) (db : Db) : db.expireRows [] now = db := by
  rw [Db.expireRows, Db.releaseRows_nil]
  exact congrArg (fun es => { db with outbox := es }) (List.append_nil db.outbox)

/-- What the flush of a release writes, on a state in which the copies and the holds are current. -/
theorem writeItems_release {db : Db} (hinv : Consistent db) {copies copies' : List InventoryItem}
    {holds : List InventoryReservation} (hcopies : ∀ c ∈ copies, c ∈ db.items)
    (hloop : releaseEach holds copies = .ok copies') (reason : String) (now : Nat) :
    (db.writeItems copies').writeReservations (holds.map (·.id))
      (InventoryReservation.release reason now) = db.releaseRows holds reason now := by
  obtain ⟨rfl, hfound⟩ := releaseEach_eq holds hloop
  rw [Db.writeItems_map hinv.items hcopies (fun _ => rfl) fun i hi hnot => ?_]
  · rfl
  · refine InventoryItem.unreserve_of_not_mem fun r hr heq => hnot ?_
    obtain ⟨c, hc, hid⟩ := hfound r hr
    rwa [hinv.items.eq_of_key hi (hcopies c hc) (heq.symm.trans hid.symm)]

/-- A release loop over locked copies has locked the item of every hold. -/
theorem items_locked_of_loop {copies copies' : List InventoryItem}
    {holds : List InventoryReservation} {held : Row → Prop}
    (hloop : releaseEach holds copies = .ok copies') (hl : ∀ c ∈ copies, held (.item c.id)) :
    ∀ h ∈ holds, held (.item h.inventoryItemId) := by
  intro h hh
  obtain ⟨c, hc, hid⟩ := (releaseEach_eq holds hloop).2 h hh
  exact hid ▸ hl c hc

/-- The CHECK constraints cannot refuse a state that satisfies them. -/
theorem noCheckViolation_of_checks {db : Db} (h : Checks db) :
    ∀ e, db.check = .error e → NoCheckViolation op e := by
  rintro e he - e' rfl
  rcases h.check_cases with hok | ⟨e'', he'', hu⟩
  · rw [hok] at he
    cases he
  · rw [he''] at he
    cases he
    rw [hu]
    decide

theorem noCheckViolation_ok (db : Db) :
    ∀ e, (.ok db : Except Failure Db) = .error e → NoCheckViolation op e := by
  intro e he
  cases he

/-- `expireUnconfirmed` sweeps the items it is given. -/
theorem wp_expireUnconfirmed {copies : List InventoryItem}
    {Q : Nat × List InventoryItem → View Db Row Failure → Prop} (hv : ItemsOf v copies)
    (hinv : Consistent v.db)
    (h : ∀ w expired cutoff now, Consistent w.db →
      Expired unconfirmedHold w (copies.map (InventoryItem.unreserve expired)) expired
        cutoff now → (∀ c ∈ copies, w.held (.item c.id)) →
      (∀ x ∈ expired, ∃ c ∈ copies, c.id = x.inventoryItemId) →
      Q (expired.length, copies.map (InventoryItem.unreserve expired)) w) :
    (protocol unconfirmedHold).wp op (expireUnconfirmed copies) Q v := by
  unfold expireUnconfirmed
  simp only [Txn.bind_eq]
  split
  · -- no items: nothing to sweep
    rename_i hempty
    rw [List.isEmpty_iff] at hempty
    subst hempty
    refine h v [] v.now v.now hinv ⟨Nat.le_refl _, Nat.le_refl _,
      fun c hc => absurd hc List.not_mem_nil, ⟨⟨⟨fun x hx => absurd hx List.not_mem_nil,
      List.nodup_nil, fun x hx => absurd hx List.not_mem_nil⟩, fun x hx =>
      absurd hx List.not_mem_nil, fun x hx => absurd hx List.not_mem_nil⟩, fun x hx =>
      absurd hx List.not_mem_nil, fun id hid => ?_⟩, ?_⟩
      (fun c hc => absurd hc List.not_mem_nil) (fun x hx => absurd hx List.not_mem_nil)
    · obtain ⟨c, hc, -⟩ := hv.only _ hid
      exact absurd hc List.not_mem_nil
    intro n db hr mid hmid
    rw [hv.pending] at hmid
    cases hmid
    exact ⟨(Db.expireRows_nil _ _).symm, hr.inv, fun c hc => absurd hc List.not_mem_nil⟩
  apply Discipline.wp_bind
  apply Discipline.wp_now
  intro cutoff db hr
  have hv₀ := hv.later hr
  apply Discipline.wp_bind
  apply wp_selectHolds hv₀.pending
  · intro x hx
    obtain ⟨c, -, rfl⟩ := hv₀.only x hx
    exact ⟨c.id, rfl⟩
  intro n₁ db₁ hr₁ n₂ db₂ hr₂ expired rows hexpired hnodup hrows _
  have hv₂ : ∀ c ∈ copies, c ∈ db₂.items := ((hv₀.later hr₁).later hr₂).mem
  have hsat : ∀ x : InventoryReservation, ((copies.map (·.id)).contains x.inventoryItemId &&
      isLapsed cutoff x) = true → x.inventoryItemId ∈ copies.map (·.id) ∧
      isLapsed cutoff x = true := fun x hx => by
    simpa [List.contains_eq_mem] using hx
  have hlapsed : Lapsed (((v.later cutoff db).later n₂ db₂).grantAll rows).held cutoff
      expired db₂ := by
    refine ⟨⟨⟨fun x hx => (hexpired x hx).2.1, hnodup, fun x hx => ?_⟩, fun x hx =>
      Or.inl (hexpired x hx).1, fun x hx => Or.inr ?_⟩, fun x hx =>
      (hsat x (hexpired x hx).2.2.1).2, ?_⟩
    · have hl := (hsat x (hexpired x hx).2.2.1).2
      simp only [isLapsed, Bool.and_eq_true, beq_iff_eq] at hl
      exact hl.1.1
    · obtain ⟨c, hc, hid⟩ := List.mem_map.1 (hsat x (hexpired x hx).2.2.1).1
      exact hid ▸ hv.locked c hc
    · rintro id (hid | hid)
      · obtain ⟨r₀, -, hp₀, r, hrm, hg, heq, honly⟩ := hrows _ hid
        refine ⟨r, hrm, (Row.reservation.inj heq).symm, fun hheld hconf => honly ?_⟩
        -- an unconfirmed hold keeps its expiry, so it is still lapsed
        obtain ⟨hon, hl⟩ := hsat r₀ hp₀
        simp only [isLapsed, Bool.and_eq_true] at hl
        simp only [List.contains_eq_mem, isLapsed, hheld, hconf, hg.item, hg.expires hconf, hon,
          hl.2, decide_true, beq_self_eq_true, Option.isNone_none, Bool.and_self]
      · obtain ⟨c, -, heq⟩ := hv.only _ hid
        cases heq
  apply Discipline.wp_bind
  apply Discipline.wp_now
  intro now db₃ hr₃
  have hlapsed₃ := hlapsed.later hr₃
  have hcopies₃ : ∀ c ∈ copies, c ∈ db₃.items := fun c hc =>
    item_mem_of_locked hr₃ (hv₂ c hc) (Or.inr (hv.locked c hc))
  have hnow : cutoff ≤ now := by
    have h₁ : cutoff ≤ n₁ := hr₁.clock
    have h₂ : n₁ ≤ n₂ := hr₂.clock
    have h₃ : n₂ ≤ now := hr₃.clock
    omega
  apply Discipline.wp_bind
  apply Discipline.wp_ofExcept
  intro copies' hloop
  obtain ⟨rfl, hfound⟩ := releaseEach_eq expired hloop
  split
  · -- no lapsed hold: nothing is written
    rename_i hempty
    rw [List.isEmpty_iff] at hempty
    subst hempty
    refine h _ [] cutoff now hr₃.inv ⟨hnow, Nat.le_refl _, fun c hc => ?_, hlapsed₃, ?_⟩
      (fun c hc => Or.inr (hv.locked c hc)) hfound
    · obtain ⟨c₀, hc₀, rfl⟩ := List.mem_map.1 hc
      exact Or.inr (hv.locked c₀ hc₀)
    · intro n db' hr' mid hmid
      have hpend : (((v.later cutoff db).later n₂ db₂).grantAll rows).pending = .ok := hv.pending
      rw [show mid = db' by
        change (((v.later cutoff db).later n₂ db₂).grantAll rows).pending db' = .ok mid at hmid
        rw [hpend] at hmid
        cases hmid
        rfl]
      refine ⟨(Db.expireRows_nil _ _).symm, hr'.inv, fun c hc => ?_⟩
      obtain ⟨c₀, hc₀, rfl⟩ := List.mem_map.1 hc
      rw [InventoryItem.unreserve_of_not_mem fun r hr => absurd hr List.not_mem_nil]
      exact item_mem_of_locked hr' (hcopies₃ c₀ hc₀) (Or.inr (hv.locked c₀ hc₀))
  -- what the flush does in any state the transaction may see from here on
  have hflush : ∀ n db', (protocol unconfirmedHold).Rely
      ((((v.later cutoff db).later n₂ db₂).grantAll rows).later now db₃) n db' →
      ((db'.writeItems (copies.map (InventoryItem.unreserve expired))).writeReservations
        (expired.map (·.id)) (InventoryReservation.release "Unconfirmed hold expired" now)) =
          db'.releaseRows expired "Unconfirmed hold expired" now ∧
      Checks (db'.releaseRows expired "Unconfirmed hold expired" now) ∧
      Accounts (db'.releaseRows expired "Unconfirmed hold expired" now) := by
    intro n db' hr'
    refine ⟨writeItems_release hr'.inv (fun c hc => ?_) hloop _ _, ?_⟩
    · exact item_mem_of_locked hr' (hcopies₃ c hc) (Or.inr (hv.locked c hc))
    · exact Consistent.releaseRows hr'.inv (hlapsed₃.later hr').toSelected _ _
  have hpend : ∀ db', ((((v.later cutoff db).later n₂ db₂).grantAll rows).later now db₃).pending
      db' = .ok db' := fun db' => congrFun hv.pending db'
  apply Discipline.wp_bind
  apply Discipline.wp_write
  intro n₄ db₄ hr₄ view hview
  rw [hpend] at hview
  cases hview
  obtain ⟨heq, hchecks, -⟩ := hflush n₄ db₄ hr₄
  refine ⟨heq ▸ noCheckViolation_of_checks hchecks, fun _ _ => ?_⟩
  apply Discipline.wp_bind
  apply Discipline.wp_write
  intro n₅ db₅ hr₅ view _
  refine ⟨noCheckViolation_ok _, fun _ _ => ?_⟩
  refine h _ expired cutoff now hr₅.inv ⟨hnow, ?_, fun c hc => ?_, ?_, ?_⟩
    (fun c hc => Or.inr (hv.locked c hc)) hfound
  · exact Nat.le_trans hr₄.clock hr₅.clock
  · obtain ⟨c₀, hc₀, rfl⟩ := List.mem_map.1 hc
    exact Or.inr (hv.locked c₀ hc₀)
  · have hlapsed₅ := (hlapsed₃.later hr₄).later hr₅.unflushed
    exact hlapsed₅
  · intro n db' hr' mid hmid
    have hrely := hr₄.trans (hr₅.unflushed.trans hr'.unflushed.unflushed)
    obtain ⟨heq, hchecks, haccounts⟩ := hflush n db' hrely
    simp only [View.flushed, View.later, View.grantAll, hv.pending, bind, Except.bind] at hmid
    split at hmid
    · cases hmid
    rename_i mid' hmid'
    rw [heq] at hmid'
    obtain ⟨rfl, hcons⟩ := consistent_of_check hchecks haccounts hmid'
    cases hmid
    refine ⟨rfl, hcons.stage _, fun c hc => ?_⟩
    obtain ⟨c₀, hc₀, rfl⟩ := List.mem_map.1 hc
    exact List.mem_map_of_mem (item_mem_of_locked hrely (hcopies₃ c₀ hc₀)
      (Or.inr (hv.locked c₀ hc₀)))

end SmartLogistics.Inventory
