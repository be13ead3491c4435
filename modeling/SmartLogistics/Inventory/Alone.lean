import SmartLogistics.Inventory.Obligations
import SmartLogistics.Library.Frame

/-!
# Inventory's transactions, run alone

In a state that keeps its accounts no statement of a confirm, commit, release or sweep fails on the
database (`Consistent.check`), and no loop misses a copy (`releaseEach_of_found`,
`commitEach_of_found`, `holdEach_of_found`). So what such a transaction does when it runs alone is
one effect on whole tables: `runAlone_confirm`, `runAlone_commit`, `runAlone_release` and
`runAlone_releaseExpired`.
-/

set_option autoImplicit false

namespace SmartLogistics.Inventory

open SmartLogistics.Library SmartLogistics.Platform

variable {now ids : Nat} {db : Db}

/-! ## What the database accepts -/

/-- A consistent state violates no constraint. -/
theorem Consistent.check (h : Consistent db) : db.check = .ok db := by
  rcases h.toChecks.check_cases with hok | ⟨e, he, hunique⟩
  · exact hok
  · unfold Db.check Db.violated at he
    cases hfind : Db.constraints.find? fun c => !c.2 db with
    | none =>
      rw [hfind] at he
      cases he
    | some c =>
      rw [hfind] at he
      cases he
      have hbad : c.2 db = false := by simpa using List.find?_some hfind
      have hmem := List.mem_of_find?_eq_some hfind
      simp only [Db.constraints, List.mem_cons, List.not_mem_nil, or_false] at hmem
      -- only the unique constraints are left
      rcases hmem with rfl | rfl | rfl | rfl | rfl | rfl | rfl | rfl | rfl | rfl | rfl | rfl
      all_goals try cases hunique
      · exact absurd h.items (of_decide_eq_false hbad)
      · exact absurd h.positions (of_decide_eq_false hbad)
      · exact absurd h.reservations (of_decide_eq_false hbad)
      · exact absurd h.lines (of_decide_eq_false hbad)

/-- A rewrite of rows in place keeps the unique keys. -/
theorem UniqueKeys.maps {db' : Db} (h : UniqueKeys db) {g : InventoryItem → InventoryItem}
    {f : InventoryReservation → InventoryReservation} (hitems : db'.items = db.items.map g)
    (hrows : db'.reservations = db.reservations.map f)
    (hg : ∀ i, (g i).id = i.id ∧ (g i).warehouseId = i.warehouseId ∧ (g i).skuId = i.skuId)
    (hf : ∀ r, (f r).id = r.id ∧ (f r).shipmentId = r.shipmentId ∧ (f r).skuId = r.skuId) :
    UniqueKeys db' where
  items := by
    rw [hitems]
    exact (Table.keyed_map fun i => (hg i).1).2 h.items
  positions := by
    rw [hitems, List.map_map]
    convert h.positions using 2
    funext i
    exact Prod.ext (hg i).2.1 (hg i).2.2
  reservations := by
    rw [hrows]
    exact (Table.keyed_map fun r => (hf r).1).2 h.reservations
  lines := by
    rw [hrows, List.map_map]
    convert h.lines using 2
    funext r
    exact Prod.ext (hf r).2.1 (hf r).2.2

theorem Consistent.released (h : Consistent db) {holds : List InventoryReservation}
    (hs : Selected holds db) (reason : String) (now : Nat) :
    Consistent (db.releaseRows holds reason now) := by
  obtain ⟨hchecks, haccounts⟩ := h.releaseRows hs reason now
  refine ⟨hchecks, h.toUniqueKeys.maps (g := InventoryItem.unreserve holds) rfl rfl
    (fun _ => ⟨rfl, rfl, rfl⟩) fun r => ?_, haccounts⟩
  split <;> exact ⟨rfl, rfl, rfl⟩

theorem Consistent.confirmed (h : Consistent db) (reservationIds : List Nat) (now : Nat) :
    Consistent (db.writeReservations reservationIds (InventoryReservation.confirm now)) := by
  obtain ⟨hchecks, haccounts⟩ := h.confirmRows reservationIds now
  refine ⟨hchecks, h.toUniqueKeys.maps (g := id) (List.map_id _).symm rfl
    (fun _ => ⟨rfl, rfl, rfl⟩) fun r => ?_, haccounts⟩
  split <;> exact ⟨rfl, rfl, rfl⟩

theorem Consistent.expired (h : Consistent db) {holds : List InventoryReservation}
    (hs : Selected holds db) (now : Nat) : Consistent (db.expireRows holds now) :=
  (h.released hs _ now).stage _

theorem Consistent.committed (h : Consistent db) {holds : List InventoryReservation}
    (hs : Selected holds db) {copies final : List InventoryItem} {rows : List StockMovement}
    {shipmentId : Nat} {actorId : Option Nat} {occurredAt : Nat}
    (hcopies : ∀ c ∈ copies, c ∈ db.items)
    (hloop : commitEach shipmentId actorId occurredAt holds copies = .ok (final, rows))
    (now : Nat) : Consistent (db.commitRows holds now rows) := by
  obtain ⟨-, hchecks, haccounts, -⟩ := writeItems_commit h hs hcopies hloop now
  refine ⟨hchecks, h.toUniqueKeys.maps (g := InventoryItem.dispatch holds) rfl rfl
    (fun _ => ⟨rfl, rfl, rfl⟩) fun r => ?_, haccounts⟩
  split <;> exact ⟨rfl, rfl, rfl⟩

/-! ## Loops that find their copies -/

theorem updateCopy_of_found {id : Nat} {f : InventoryItem → InventoryItem}
    {copies : List InventoryItem} (h : ∃ c ∈ copies, c.id = id) :
    updateCopy id f copies = .ok (copies.map fun i => if i.id == id then f i else i) := by
  rw [updateCopy, if_pos]
  simpa using h

/-- A rewrite of one copy loses none. -/
theorem found_map {id : Nat} (id' : Nat) (f : InventoryItem → InventoryItem)
    (hf : ∀ i, (f i).id = i.id) {copies : List InventoryItem} (h : ∃ c ∈ copies, c.id = id) :
    ∃ c ∈ copies.map (fun i => if i.id == id' then f i else i), c.id = id := by
  obtain ⟨c, hc, hid⟩ := h
  refine ⟨_, List.mem_map_of_mem hc, ?_⟩
  split
  · exact (hf c).trans hid
  · exact hid

theorem releaseEach_of_found (holds : List InventoryReservation) {copies : List InventoryItem}
    (h : ∀ x ∈ holds, ∃ c ∈ copies, c.id = x.inventoryItemId) :
    releaseEach holds copies = .ok (copies.map (InventoryItem.unreserve holds)) := by
  have htotal : ∃ final, releaseEach holds copies = .ok final := by
    induction holds generalizing copies with
    | nil => exact ⟨copies, rfl⟩
    | cons hold holds ih =>
      simp only [releaseEach, updateCopy_of_found (h hold List.mem_cons_self)]
      exact ih fun x hx => found_map hold.inventoryItemId (releaseOne hold) (fun _ => rfl)
        (h x (List.mem_cons_of_mem _ hx))
  obtain ⟨final, hfinal⟩ := htotal
  rw [hfinal, (releaseEach_eq holds hfinal).1]

theorem commitEach_of_found {shipmentId : Nat} {actorId : Option Nat} {occurredAt : Nat}
    (holds : List InventoryReservation) {copies : List InventoryItem}
    (h : ∀ x ∈ holds, ∃ c ∈ copies, c.id = x.inventoryItemId) :
    ∃ final rows, commitEach shipmentId actorId occurredAt holds copies = .ok (final, rows) := by
  induction holds generalizing copies with
  | nil => exact ⟨copies, [], rfl⟩
  | cons hold holds ih =>
    have hfound := h hold List.mem_cons_self
    have hmore : ∀ x ∈ hold :: holds, ∃ c ∈ copies.map (fun i =>
        if i.id == hold.inventoryItemId then commitOne hold i else i), c.id = x.inventoryItemId :=
      fun x hx => found_map hold.inventoryItemId (commitOne hold) (fun _ => rfl) (h x hx)
    obtain ⟨final, rows, hrest⟩ := ih fun x hx => hmore x (List.mem_cons_of_mem _ hx)
    obtain ⟨c, hc, hid⟩ := hmore hold List.mem_cons_self
    cases hitem : Table.lookup InventoryItem.id (copies.map fun i =>
        if i.id == hold.inventoryItemId then commitOne hold i else i) hold.inventoryItemId with
    | none =>
      have hnone := List.find?_eq_none.1 hitem c hc
      exact absurd (beq_iff_eq.2 hid) hnone
    | some item =>
      refine ⟨final, dispatchMovement shipmentId actorId occurredAt hold item :: rows, ?_⟩
      simp only [commitEach, updateCopy_of_found hfound, Bind.bind, Except.bind, hitem, hrest]

theorem holdEach_of_found {request : ReservationRequest} {expiresAt : Nat}
    (lines : List (ReservationLineRequest × Nat)) {copies : List InventoryItem}
    (h : ∀ line ∈ lines, ∃ c ∈ copies, c.skuId = line.1.skuId) :
    ∃ final holds, holdEach request expiresAt lines copies = .ok (final, holds) := by
  induction lines generalizing copies with
  | nil => exact ⟨copies, [], rfl⟩
  | cons entry lines ih =>
    obtain ⟨line, id⟩ := entry
    obtain ⟨c, hc, hsku⟩ := h (line, id) List.mem_cons_self
    cases hitem : copies.find? (·.skuId == line.skuId) with
    | none =>
      have hnone := List.find?_eq_none.1 hitem c hc
      exact absurd (beq_iff_eq.2 hsku) hnone
    | some item =>
      have hmem : ∃ c ∈ copies, c.id = item.id := ⟨item, List.mem_of_find?_eq_some hitem, rfl⟩
      have hmore : ∀ entry ∈ lines, ∃ c ∈ copies.map (fun i =>
          if i.id == item.id then holdOne line i else i), c.skuId = entry.1.skuId := by
        intro entry hentry
        obtain ⟨c, hc, hsku⟩ := h entry (List.mem_cons_of_mem _ hentry)
        refine ⟨_, List.mem_map_of_mem hc, ?_⟩
        split
        · exact hsku
        · exact hsku
      obtain ⟨final, holds, hrest⟩ := ih hmore
      simp only [holdEach, Bind.bind, Except.bind, hitem, updateCopy_of_found hmem, hrest]
      exact ⟨_, _, rfl⟩

/-! ## Locking reads -/

/-- The items with the given ids, as a locking read lists them. -/
def itemsWith (itemIds : List Nat) (db : Db) : List InventoryItem :=
  Table.rowsWhere InventoryItem.id (fun i => itemIds.contains i.id) db.items

theorem mem_itemsWith (h : Consistent db) {itemIds : List Nat} {i : InventoryItem} :
    i ∈ itemsWith itemIds db ↔ i ∈ db.items ∧ i.id ∈ itemIds := by
  rw [itemsWith, h.items.mem_rowsWhere, List.contains_iff_mem]

theorem runAlone_lockItemIds (itemIds : List Nat) :
    (lockItemIds itemIds).runAlone now ids db = .ok (itemsWith itemIds db, db, ids) :=
  Txn.runAlone_selectForUpdate ..

/-- The HELD rows of a shipment, as a locking read lists them. -/
def heldRows (shipmentId : Nat) (db : Db) : List InventoryReservation :=
  Table.rowsWhere InventoryReservation.id (isHeldFor shipmentId) db.reservations

theorem mem_heldRows (h : Consistent db) {shipmentId : Nat} {r : InventoryReservation} :
    r ∈ heldRows shipmentId db ↔
      r ∈ db.reservations ∧ r.shipmentId = shipmentId ∧ r.status = .held := by
  rw [heldRows, h.reservations.mem_rowsWhere]
  simp only [isHeldFor, Bool.and_eq_true, beq_iff_eq]

theorem selected_heldRows (h : Consistent db) (shipmentId : Nat) :
    Selected (heldRows shipmentId db) db where
  mem := fun _ hr => ((mem_heldRows h).1 hr).1
  nodup := h.reservations.nodup_rowsWhere _
  status := fun _ hr => ((mem_heldRows h).1 hr).2.2

theorem runAlone_lockHolds (h : Consistent db) (shipmentId : Nat) :
    (lockHolds shipmentId).runAlone now ids db = .ok (heldRows shipmentId db, db, ids) := by
  unfold lockHolds
  simp only [Txn.bind_eq, Txn.select, Txn.bind, Txn.runAlone]
  split
  · rename_i hnone
    have hempty : heldRows shipmentId db = [] := by
      refine List.eq_nil_iff_forall_not_mem.2 fun r hr => ?_
      obtain ⟨hmem, hrow⟩ := (h.reservations.mem_rowsWhere).1 hr
      rw [List.isEmpty_iff, List.map_eq_nil_iff] at hnone
      have hfound := List.mem_filter.2 ⟨hmem, hrow⟩
      rw [hnone] at hfound
      exact List.not_mem_nil hfound
    rw [hempty]
    rfl
  · rw [Txn.runAlone_bind_of_ok (runAlone_lockItemIds _)]
    exact Txn.runAlone_selectForUpdate ..

/-- The lapsed unconfirmed holds on the items, as a locking read lists them. -/
def lapsedOn (items : List InventoryItem) (now : Nat) (db : Db) : List InventoryReservation :=
  Table.rowsWhere InventoryReservation.id
    (fun r => (items.map (·.id)).contains r.inventoryItemId && isLapsed now r) db.reservations

theorem mem_lapsedOn (h : Consistent db) {items : List InventoryItem} {r : InventoryReservation} :
    r ∈ lapsedOn items now db ↔
      r ∈ db.reservations ∧ (∃ i ∈ items, i.id = r.inventoryItemId) ∧ isLapsed now r = true := by
  rw [lapsedOn, h.reservations.mem_rowsWhere]
  simp only [Bool.and_eq_true, List.contains_eq_mem, decide_eq_true_eq, List.mem_map]

theorem selected_lapsedOn (h : Consistent db) (items : List InventoryItem) (now : Nat) :
    Selected (lapsedOn items now db) db where
  mem := fun _ hr => ((mem_lapsedOn h).1 hr).1
  nodup := h.reservations.nodup_rowsWhere _
  status := fun r hr => by
    have hlapsed := ((mem_lapsedOn h).1 hr).2.2
    simp only [isLapsed, Bool.and_eq_true, beq_iff_eq] at hlapsed
    exact hlapsed.1.1

/-- The locked items of selected rows cover them. -/
theorem found_itemsWith (h : Consistent db) {holds : List InventoryReservation}
    (hs : Selected holds db) : ∀ x ∈ holds, ∃ c ∈ itemsWith (holds.map (·.inventoryItemId)) db,
      c.id = x.inventoryItemId := by
  intro x hx
  obtain ⟨i, hi, hid⟩ := h.item_of_reservation x (hs.mem x hx)
  refine ⟨i, (mem_itemsWith h).2 ⟨hi, ?_⟩, hid⟩
  rw [hid]
  exact List.mem_map_of_mem hx

theorem runAlone_lockLapsed (items : List InventoryItem) :
    (Table.selectForUpdate InventoryReservation.id Row.reservation Db.reservations fun r =>
      (items.map (·.id)).contains r.inventoryItemId && isLapsed now r : InventoryTxn _).runAlone now
        ids db = .ok (lapsedOn items now db, db, ids) :=
  Txn.runAlone_selectForUpdate ..

/-! ## Transactions -/

theorem runAlone_expireUnconfirmed (h : Consistent db) {items : List InventoryItem}
    (hitems : ∀ c ∈ items, c ∈ db.items) :
    (expireUnconfirmed items).runAlone now ids db =
      .ok (((lapsedOn items now db).length,
        items.map (InventoryItem.unreserve (lapsedOn items now db))),
        db.expireRows (lapsedOn items now db) now, ids) := by
  have hfound : ∀ x ∈ lapsedOn items now db, ∃ c ∈ items, c.id = x.inventoryItemId :=
    fun x hx => ((mem_lapsedOn h).1 hx).2.1
  have hloop := releaseEach_of_found _ hfound
  unfold expireUnconfirmed
  simp only [Txn.bind_eq]
  split
  · -- no items, so no holds on them
    rename_i hnone
    rw [List.isEmpty_iff] at hnone
    subst hnone
    have hempty : lapsedOn [] now db = [] := List.eq_nil_iff_forall_not_mem.2 fun x hx => by
      obtain ⟨c, hc, -⟩ := hfound x hx
      exact List.not_mem_nil hc
    rw [hempty, Db.expireRows_nil]
    rfl
  simp only [Txn.now, Txn.bind, Txn.runAlone]
  rw [Txn.runAlone_bind_of_ok (runAlone_lockLapsed items)]
  simp only [Txn.runAlone, hloop, Txn.ofExcept, Txn.bind]
  split
  · rename_i hnone
    rw [List.isEmpty_iff.1 hnone, Db.expireRows_nil]
    rfl
  · have hsent : ((db.writeItems (items.map (InventoryItem.unreserve (lapsedOn items now db)))
        ).writeReservations ((lapsedOn items now db).map (·.id))
          (InventoryReservation.release "Unconfirmed hold expired" now)).check =
        .ok (db.releaseRows (lapsedOn items now db) "Unconfirmed hold expired" now) := by
      rw [writeItems_release h hitems hloop]
      exact (h.released (selected_lapsedOn h items now) _ now).check
    rw [Txn.runAlone_write_bind, hsent]
    rfl

/-- The items a sweep locks: those of the lapsed holds at the given warehouses. -/
def sweptItems (warehouseIds : Option (List Nat)) (now : Nat) (db : Db) : List InventoryItem :=
  itemsWith ((db.reservations.filter fun r => isLapsed now r && warehouseIds.all fun ids =>
    ids.contains r.warehouseId).map (·.inventoryItemId)) db

/-- The holds a sweep releases: every lapsed hold on an item it locks. -/
def sweptHolds (warehouseIds : Option (List Nat)) (now : Nat) (db : Db) :
    List InventoryReservation :=
  lapsedOn (sweptItems warehouseIds now db) now db

theorem runAlone_releaseExpired (h : Consistent db) (warehouseIds : Option (List Nat)) :
    (releaseExpired warehouseIds).runAlone now ids db =
      .ok ((sweptHolds warehouseIds now db).length,
        db.expireRows (sweptHolds warehouseIds now db) now, ids) := by
  unfold releaseExpired
  simp only [Txn.bind_eq, Txn.now, Txn.select, Txn.bind, Txn.runAlone]
  split
  · -- nothing has lapsed, so no item is locked
    rename_i hnone
    rw [List.isEmpty_iff] at hnone
    have hempty : sweptHolds warehouseIds now db = [] :=
      List.eq_nil_iff_forall_not_mem.2 fun x hx => by
        obtain ⟨i, hi, -⟩ := ((mem_lapsedOn h).1 hx).2.1
        have hitem := ((mem_itemsWith h).1 hi).2
        rw [hnone] at hitem
        exact List.not_mem_nil hitem
    rw [hempty, Db.expireRows_nil]
    rfl
  · rw [Txn.runAlone_bind_of_ok (runAlone_lockItemIds _), Txn.runAlone_bind_of_ok
      (runAlone_expireUnconfirmed h fun c hc => ((mem_itemsWith h).1 hc).1)]
    rfl

theorem runAlone_freshIds (n : Nat) :
    (freshIds n).runAlone now ids db = .ok (List.range' ids n, db, ids + n) := by
  induction n generalizing ids with
  | zero => rfl
  | succ n ih =>
    simp only [freshIds, Txn.bind_eq, Txn.freshId, Txn.bind, Txn.runAlone, Txn.runAlone_bind, ih]
    rw [List.range'_succ, Nat.add_right_comm]
    rfl

theorem runAlone_confirm (h : Consistent db) (shipmentId : Nat) :
    (confirm shipmentId).runAlone now ids db = .ok ((heldRows shipmentId db).length,
      db.writeReservations
        (((heldRows shipmentId db).filter (·.confirmedAt.isNone)).map (·.id))
        (InventoryReservation.confirm now), ids) := by
  unfold confirm
  simp only [Txn.bind_eq]
  rw [Txn.runAlone_bind_of_ok (runAlone_lockHolds h shipmentId)]
  simp only [Txn.now, Txn.bind, Txn.runAlone]
  rw [Txn.runAlone_write_bind, (h.confirmed _ now).check]
  rfl

/-- The ledger rows that commit's loop leaves over the copies of the locked items. -/
def dispatchRows (shipmentId : Nat) (actorId : Option Nat) (now : Nat)
    (holds : List InventoryReservation) (db : Db) : List StockMovement :=
  match commitEach shipmentId actorId now holds (itemsWith (holds.map (·.inventoryItemId)) db) with
  | .ok (_, rows) => rows
  | .error _ => []

/-- Commit's loop runs through. -/
theorem commitEach_dispatchRows (h : Consistent db) {holds : List InventoryReservation}
    (hs : Selected holds db) (shipmentId : Nat) (actorId : Option Nat) (now : Nat) :
    ∃ final, commitEach shipmentId actorId now holds
      (itemsWith (holds.map (·.inventoryItemId)) db) =
        .ok (final, dispatchRows shipmentId actorId now holds db) := by
  obtain ⟨final, rows, hloop⟩ : ∃ final rows, commitEach shipmentId actorId now holds
      (itemsWith (holds.map (·.inventoryItemId)) db) = .ok (final, rows) :=
    commitEach_of_found _ (found_itemsWith h hs)
  refine ⟨final, ?_⟩
  rw [hloop, dispatchRows, hloop]

/-- The dispatch of selected holds, with the ledger rows that commit's loop leaves. -/
theorem Consistent.dispatched (h : Consistent db) {holds : List InventoryReservation}
    (hs : Selected holds db) (shipmentId : Nat) (actorId : Option Nat) (now : Nat) :
    Consistent (db.commitRows holds now (dispatchRows shipmentId actorId now holds db)) := by
  obtain ⟨final, hloop⟩ := commitEach_dispatchRows h hs shipmentId actorId now
  exact h.committed hs (fun c hc => ((mem_itemsWith h).1 hc).1) hloop now

theorem runAlone_commit (h : Consistent db) (shipmentId : Nat) (actorId : Option Nat) :
    (commit shipmentId actorId).runAlone now ids db =
      if heldRows shipmentId db = [] then
        if hasStatus shipmentId .committed db then .ok (0, db, ids)
        else .error (.domain (conflictError "This shipment holds no stock to commit."))
      else .ok ((heldRows shipmentId db).length,
        (db.commitRows (heldRows shipmentId db) now
          (dispatchRows shipmentId actorId now (heldRows shipmentId db) db)).stage
            [emitStockEvent "stock.committed" shipmentId (firstWarehouse (heldRows shipmentId db))
              (heldRows shipmentId db) none], ids) := by
  unfold commit
  simp only [Txn.bind_eq]
  rw [Txn.runAlone_bind_of_ok (runAlone_lockHolds h shipmentId)]
  split
  · rename_i hnone
    rw [if_pos (List.isEmpty_iff.1 hnone)]
    simp only [Txn.select, Txn.bind, Txn.runAlone]
    split
    · rfl
    · rfl
  · rename_i hsome
    rw [if_neg fun heq => hsome (List.isEmpty_iff.2 heq),
      Txn.runAlone_bind_of_ok (runAlone_lockItemIds _)]
    have hs := selected_heldRows h shipmentId
    obtain ⟨final, hloop⟩ := commitEach_dispatchRows h hs shipmentId actorId now
    have hsent : (((db.writeItems final).writeReservations ((heldRows shipmentId db).map (·.id))
        (InventoryReservation.commit now)).insertMovements
          (dispatchRows shipmentId actorId now (heldRows shipmentId db) db)).check =
        .ok (db.commitRows (heldRows shipmentId db) now
          (dispatchRows shipmentId actorId now (heldRows shipmentId db) db)) := by
      rw [(writeItems_commit h hs (fun c hc => ((mem_itemsWith h).1 hc).1) hloop now).1]
      exact (h.dispatched hs shipmentId actorId now).check
    simp only [Txn.now, Txn.bind, Txn.runAlone, hloop, Txn.ofExcept]
    rw [Txn.runAlone_write_bind, hsent]
    rfl

theorem runAlone_release (h : Consistent db) (shipmentId : Nat) (reason : String) :
    (release shipmentId reason).runAlone now ids db =
      if heldRows shipmentId db = [] then .ok (0, db, ids)
      else .ok ((heldRows shipmentId db).length,
        (db.releaseRows (heldRows shipmentId db) reason now).stage
          [emitStockEvent "stock.released" shipmentId (firstWarehouse (heldRows shipmentId db))
            (heldRows shipmentId db) (some reason)], ids) := by
  unfold release
  simp only [Txn.bind_eq]
  rw [Txn.runAlone_bind_of_ok (runAlone_lockHolds h shipmentId)]
  split
  · rename_i hnone
    rw [if_pos (List.isEmpty_iff.1 hnone)]
    rfl
  · rename_i hsome
    rw [if_neg fun heq => hsome (List.isEmpty_iff.2 heq),
      Txn.runAlone_bind_of_ok (runAlone_lockItemIds _)]
    have hloop := releaseEach_of_found _ (found_itemsWith h (selected_heldRows h shipmentId))
    simp only [Txn.now, Txn.bind, Txn.runAlone, hloop, Txn.ofExcept]
    have hsent : ((db.writeItems ((itemsWith ((heldRows shipmentId db).map
        (·.inventoryItemId)) db).map (InventoryItem.unreserve (heldRows shipmentId db)))
        ).writeReservations ((heldRows shipmentId db).map (·.id))
          (InventoryReservation.release reason now)).check =
        .ok (db.releaseRows (heldRows shipmentId db) reason now) := by
      rw [writeItems_release h (fun c hc => ((mem_itemsWith h).1 hc).1) hloop]
      exact (h.released (selected_heldRows h shipmentId) reason now).check
    rw [Txn.runAlone_write_bind, hsent]
    rfl

end SmartLogistics.Inventory
