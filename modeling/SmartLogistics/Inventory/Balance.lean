import SmartLogistics.Inventory.Confinement
import SmartLogistics.Inventory.HoldLife
import SmartLogistics.Library.Totals

/-!
# What the ledger says about the holds

The ledger of an item has two kinds of rows: what was opened and adjusted (`received`), and the
dispatches. The dispatches come to the quantities of the COMMITTED reservations on the item
(`Balanced`), so the stock on hand of a position is what it received less what was committed from it
(`on_hand_eq_received_sub`). A reservation is on the item of its warehouse and SKU (`on_item_iff`).
-/

set_option autoImplicit false

namespace SmartLogistics.Inventory

open SmartLogistics.Library SmartLogistics.Platform SmartLogistics.Warehouse

/-! ## The two halves of a ledger -/

/-- What openings and adjustments have moved to an item. -/
def received (movements : List StockMovement) (itemId : Nat) : Int :=
  Table.totalBy (fun m => m.inventoryItemId == itemId && !m.isDispatch) (·.quantityDelta) movements

/-- What dispatches have moved to an item, a negative number. -/
def dispatched (movements : List StockMovement) (itemId : Nat) : Int :=
  Table.totalBy (fun m => m.inventoryItemId == itemId && m.isDispatch) (·.quantityDelta) movements

theorem ledger_eq (movements : List StockMovement) (itemId : Nat) :
    ledger movements itemId = dispatched movements itemId + received movements itemId :=
  Table.totalBy_split StockMovement.isDispatch

/-- The row took its quantity from the item. -/
def InventoryReservation.commits (itemId : Nat) (r : InventoryReservation) : Bool :=
  r.inventoryItemId == itemId && r.status == .committed

/-- The quantity committed from an item. -/
def committedQty (reservations : List InventoryReservation) (itemId : Nat) : Int :=
  Table.totalBy (InventoryReservation.commits itemId) (·.quantity) reservations

/-- The dispatches of every item are its COMMITTED reservations. -/
def Balanced (db : Db) : Prop :=
  ∀ itemId, dispatched db.movements itemId = -committedQty db.reservations itemId

section Commits

variable {op : Operation} {clock : Nat} {db db' : Db}
  {f : InventoryReservation → InventoryReservation} {new holds : List InventoryReservation}
  {rows : List StockMovement}

/-- The ledger rows of a commit are the holds that it commits. -/
theorem Effect.dispatched_rows (he : Effect op clock db db' f new holds rows) (itemId : Nat) :
    dispatched rows itemId = -qtyOn holds itemId := by
  have hfilter : dispatched rows itemId =
      Table.totalBy (fun m => m.inventoryItemId == itemId) (·.quantityDelta)
        (rows.filter StockMovement.isDispatch) := by
    rw [dispatched, Table.totalBy, Table.totalBy, List.filter_filter]
  have hmatch : ∀ (h : InventoryReservation) (m : StockMovement), m.Dispatches h.shipmentId h →
      (m.inventoryItemId == itemId) = (h.inventoryItemId == itemId) ∧
        m.quantityDelta = -h.quantity := fun h m hm => ⟨by rw [hm.item], hm.delta⟩
  rw [hfilter, Table.totalBy_of_forall₂ he.ledger hmatch, Table.totalBy_neg, qtyOn]

/-- A commit adds the holds that it commits to what is committed. -/
theorem Effect.committedQty_eq (he : Effect op clock db db' f new holds rows)
    (hnodup : db.reservations.Nodup) (itemId : Nat) :
    committedQty db'.reservations itemId =
      committedQty db.reservations itemId + qtyOn holds itemId := by
  have hnew : Table.totalBy (InventoryReservation.commits itemId) (·.quantity) new = 0 := by
    refine Table.totalBy_eq_zero fun r hr => ?_
    rw [InventoryReservation.commits, (he.added r hr).status, Bool.and_eq_false_iff]
    exact Or.inr rfl
  have hold : Table.totalBy (fun r => (f r).commits itemId) (fun r => (f r).quantity)
      db.reservations = Table.totalBy (fun r => r.commits itemId ||
        (r.inventoryItemId == itemId && decide (r ∈ holds))) (·.quantity) db.reservations := by
    refine Table.totalBy_congr (fun r hr => ?_) fun r hr _ => (he.old r hr).grows.quantity
    have hcommitted := he.committed r hr
    rw [InventoryReservation.commits, InventoryReservation.commits, (he.old r hr).grows.item,
      Bool.eq_iff_iff]
    simp only [Bool.and_eq_true, Bool.or_eq_true, beq_iff_eq, decide_eq_true_eq, hcommitted]
    exact and_or_left
  have hsame : Table.totalBy (fun r => r.inventoryItemId == itemId && decide (r ∈ holds))
      (·.quantity) db.reservations = qtyOn holds itemId := by
    have hlocal : qtyOn holds itemId = Table.totalBy (fun r => r.inventoryItemId == itemId &&
        decide (r ∈ holds)) (·.quantity) holds :=
      Table.totalBy_congr (fun r hr => by simp [hr]) fun _ _ _ => rfl
    rw [hlocal]
    refine Table.totalBy_eq_of_mem hnodup he.nodup fun r => ?_
    simp only [Bool.and_eq_true, decide_eq_true_eq]
    exact ⟨fun ⟨_, hp⟩ => ⟨hp.2, hp⟩, fun ⟨hr, hp⟩ => ⟨(he.held r hr).1, hp⟩⟩
  rw [committedQty, he.reservations, Table.totalBy_append, hnew, Int.add_zero, Table.totalBy_map,
    hold, Table.totalBy_or, hsame, committedQty]
  -- a hold that is committed was HELD
  intro r hr hcommits
  simp only [InventoryReservation.commits, Bool.and_eq_true, beq_iff_eq] at hcommits
  rw [Bool.and_eq_false_iff, decide_eq_false_iff_not]
  refine Or.inr fun hmem => ?_
  have hheld := (he.held r hmem).2
  rw [hcommits.2] at hheld
  cases hheld

/-- Each commit keeps the balance. -/
theorem Balanced.commit (h : Balanced db) (hinv : Consistent db)
    (he : Effect op clock db db' f new holds rows) : Balanced db' := by
  intro itemId
  have hk : Table.Keyed InventoryReservation.id db.reservations := hinv.reservations
  rw [dispatched, he.movements, Table.totalBy_append, he.committedQty_eq hk.nodup]
  have hbefore := h itemId
  have hrows := he.dispatched_rows itemId
  rw [dispatched] at hbefore hrows
  omega

/-- A row after a commit was there, or is a line of the request that the commit reserves for, at the
warehouse of the request. -/
theorem asked_for_of_committed {unconfirmedHold : Nat} {held : Row → Prop} {opened : Db}
    {outcome : Outcome} (hinv : Consistent db)
    (hpost : Committed unconfirmedHold op opened held outcome clock db db') :
    ∀ r' ∈ db'.reservations, (∃ r ∈ db.reservations, r.Grows r') ∨
      ∃ request, op = .reserve request ∧ r'.shipmentId = request.shipmentId ∧
        r'.warehouseId = request.warehouseId := by
  intro r' hr'
  obtain ⟨f, new, holds, rows, he⟩ := effect_of_commit hinv hpost
  have hrows := hr'
  rw [he.reservations] at hrows
  rcases List.mem_append.1 hrows with hold | hnew
  · obtain ⟨r, hr, rfl⟩ := List.mem_map.1 hold
    exact Or.inl ⟨r, hr, (he.old r hr).grows⟩
  obtain ⟨request, rfl, -⟩ := (he.added r' hnew).request
  cases outcome with
  | item item => exact hpost.elim
  | count n => exact hpost.elim
  | reserved answer created =>
    cases created with
    | false =>
      obtain ⟨-, -, rfl⟩ := hpost
      exact Or.inl ⟨r', hr', .refl r'⟩
    | true =>
      obtain ⟨-, cutoff, now, expired, time, holds', -, -, -, hl, hholds, -, rfl⟩ := hpost
      rcases List.mem_append.1 hr' with hold | hnew
      · obtain ⟨r, hr, rfl⟩ := Db.mem_writeReservations.1 hold
        have hsweeps : (Operation.reserve request).Sweeps := trivial
        exact Or.inl ⟨r, hr,
          (rowStep_expireRows hinv.reservations hsweeps (Nat.le_refl cutoff) hl now hr).grows⟩
      · exact Or.inr ⟨request, rfl, (hholds r' hnew).shipment, (hholds r' hnew).warehouse⟩

end Commits

/-! ## Whole runs -/

section Runs

variable {unconfirmedHold : Nat} {c c' : Config Db Row Failure Outcome Operation}

/-- Each step keeps the balance. -/
theorem Balanced.next {l : Label Operation Environment} (h : Balanced c.db)
    (hc : c.Sound (protocol unconfirmedHold))
    (hnext : (inventory unconfirmedHold).next c l = some c') : Balanced c'.db := by
  rcases (inventory unconfirmedHold).next_db hnext with heq | ⟨t, draw, s, a, rfl, hs, ha, hdb⟩ |
    ⟨e, rfl, heq⟩
  · rwa [heq]
  · obtain ⟨-, hpost⟩ := hc.commit hs ha hdb
    obtain ⟨f, new, holds, rows, he⟩ := effect_of_commit hc.inv hpost
    exact h.commit hc.inv he
  · rw [heq]
    cases e <;> exact h

theorem balanced_of_reachable (h : Reachable unconfirmedHold c) : Balanced c.db := by
  have hstep : ∀ (c : Config Db Row Failure Outcome Operation) l c',
      c.Sound (protocol unconfirmedHold) ∧ Balanced c.db → True →
      (inventory unconfirmedHold).next c l = some c' →
      c'.Sound (protocol unconfirmedHold) ∧ Balanced c'.db := by
    rintro c l c' ⟨hc, hb⟩ - hnext
    exact ⟨hc.next (protocol_governs unconfirmedHold) hnext, hb.next hc hnext⟩
  have hidle : (Config.idle Db.empty : Config Db Row Failure Outcome Operation).Sound
      (protocol unconfirmedHold) ∧ Balanced Db.empty :=
    ⟨Config.sound_idle consistent_empty, fun _ => rfl⟩
  exact (h.preserves hstep hidle).2

/-- The stock on hand is what was received less what was committed. -/
theorem on_hand_eq_received_sub (h : Reachable unconfirmedHold c) {i : InventoryItem}
    (hi : i ∈ c.db.items) :
    i.onHandQty = received c.db.movements i.id - committedQty c.db.reservations i.id := by
  have hinv : Consistent c.db := (sound_of_reachable h).inv
  rw [hinv.on_hand i hi, ledger_eq, balanced_of_reachable h i.id]
  omega

/-- A reservation is on the item of its warehouse and SKU. -/
theorem on_item_iff (h : Reachable unconfirmedHold c) {i : InventoryItem} (hi : i ∈ c.db.items)
    {r : InventoryReservation} (hr : r ∈ c.db.reservations) :
    r.inventoryItemId = i.id ↔ r.warehouseId = i.warehouseId ∧ r.skuId = i.skuId := by
  have hinv : Consistent c.db := (sound_of_reachable h).inv
  obtain ⟨j, hj, hid, hwarehouse⟩ := (located_of_reachable h).2.reservations r hr
  obtain ⟨k, hk, hid', hsku⟩ := (dispatches_of_reachable h).sku r hr
  obtain rfl := hinv.items.eq_of_key hj hk (hid.trans hid'.symm)
  constructor
  · intro hitem
    obtain rfl := hinv.items.eq_of_key hj hi (hid.trans hitem)
    exact ⟨hwarehouse.symm, hsku.symm⟩
  · rintro ⟨hw, hs⟩
    have hsame : (j.warehouseId, j.skuId) = (i.warehouseId, i.skuId) :=
      Prod.ext (hwarehouse.trans hw) (hsku.trans hs)
    obtain rfl := List.inj_on_of_nodup_map hinv.positions hj hi hsame
    exact hid.symm

end Runs

end SmartLogistics.Inventory
