import SmartLogistics.Inventory.Stock

/-!
# The effects of stock transactions, and the accounting invariant

What a flush writes, stated on whole tables: `Db.releaseRows`, `Db.commitRows` and `Db.holdRows`
move the counters of every item by the quantities of the rows they are about. The loops over
in-memory copies compute exactly that (`releaseEach_eq`, `commitEach_spec`, `holdEach_spec`).

`Accounts` says that the counters of every item agree with its holds and its ledger. Each effect
keeps it (`Accounts.releaseRows` and its siblings), and a state with it satisfies every CHECK
constraint (`Accounts.checks`), so a flush of such a state can fail on a unique constraint only
(`Checks.check_cases`).
-/

set_option autoImplicit false

namespace SmartLogistics.Inventory

open SmartLogistics.Library SmartLogistics.Platform

/-! ## Quantities of a list of holds -/

/-- The quantity of the listed holds on one item. -/
def qtyOn (holds : List InventoryReservation) (itemId : Nat) : Int :=
  Table.totalBy (fun h => h.inventoryItemId == itemId) (·.quantity) holds

/-- The number of the listed holds on one item. -/
def countOn (holds : List InventoryReservation) (itemId : Nat) : Int :=
  Table.totalBy (fun h => h.inventoryItemId == itemId) (fun _ => 1) holds

theorem qtyOn_cons (h : InventoryReservation) (holds : List InventoryReservation) (i : Nat) :
    qtyOn (h :: holds) i = (if h.inventoryItemId = i then h.quantity else 0) + qtyOn holds i := by
  simp [qtyOn, Table.totalBy_cons]

theorem countOn_cons (h : InventoryReservation) (holds : List InventoryReservation) (i : Nat) :
    countOn (h :: holds) i = (if h.inventoryItemId = i then 1 else 0) + countOn holds i := by
  simp [countOn, Table.totalBy_cons]

theorem qtyOn_eq_zero {holds : List InventoryReservation} {i : Nat}
    (h : ∀ r ∈ holds, r.inventoryItemId ≠ i) : qtyOn holds i = 0 :=
  Table.totalBy_eq_zero fun r hr => by simpa using h r hr

theorem countOn_eq_zero {holds : List InventoryReservation} {i : Nat}
    (h : ∀ r ∈ holds, r.inventoryItemId ≠ i) : countOn holds i = 0 :=
  Table.totalBy_eq_zero fun r hr => by simpa using h r hr

/-! ## Counters -/

namespace InventoryItem

/-- The item without the listed holds. -/
def unreserve (holds : List InventoryReservation) (i : InventoryItem) : InventoryItem :=
  { i with
    reservedQty := i.reservedQty - qtyOn holds i.id
    version := i.version + countOn holds i.id }

/-- The item after the listed holds left the warehouse. -/
def dispatch (holds : List InventoryReservation) (i : InventoryItem) : InventoryItem :=
  { i with
    onHandQty := i.onHandQty - qtyOn holds i.id
    reservedQty := i.reservedQty - qtyOn holds i.id
    version := i.version + countOn holds i.id }

/-- The item with the listed holds. -/
def reserve (holds : List InventoryReservation) (i : InventoryItem) : InventoryItem :=
  { i with
    reservedQty := i.reservedQty + qtyOn holds i.id
    version := i.version + countOn holds i.id }

@[simp] theorem unreserve_id (holds : List InventoryReservation) (i : InventoryItem) :
    (i.unreserve holds).id = i.id := rfl

@[simp] theorem dispatch_id (holds : List InventoryReservation) (i : InventoryItem) :
    (i.dispatch holds).id = i.id := rfl

@[simp] theorem reserve_id (holds : List InventoryReservation) (i : InventoryItem) :
    (i.reserve holds).id = i.id := rfl

theorem unreserve_of_not_mem {holds : List InventoryReservation} {i : InventoryItem}
    (h : ∀ r ∈ holds, r.inventoryItemId ≠ i.id) : i.unreserve holds = i := by
  simp [unreserve, qtyOn_eq_zero h, countOn_eq_zero h]

theorem dispatch_of_not_mem {holds : List InventoryReservation} {i : InventoryItem}
    (h : ∀ r ∈ holds, r.inventoryItemId ≠ i.id) : i.dispatch holds = i := by
  simp [dispatch, qtyOn_eq_zero h, countOn_eq_zero h]

theorem reserve_of_not_mem {holds : List InventoryReservation} {i : InventoryItem}
    (h : ∀ r ∈ holds, r.inventoryItemId ≠ i.id) : i.reserve holds = i := by
  simp [reserve, qtyOn_eq_zero h, countOn_eq_zero h]

end InventoryItem

/-! ## The loops over in-memory copies -/

theorem updateCopy_eq_ok {id : Nat} {f : InventoryItem → InventoryItem}
    {copies copies' : List InventoryItem} (h : updateCopy id f copies = .ok copies') :
    (∃ c ∈ copies, c.id = id) ∧
      copies' = copies.map fun i => if i.id = id then f i else i := by
  unfold updateCopy at h
  split at h
  · rename_i hany
    simp only [Except.ok.injEq, beq_iff_eq] at h
    simp only [List.any_eq_true, beq_iff_eq] at hany
    exact ⟨hany, h.symm⟩
  · cases h

/-- Rewriting the copy of one hold and then those of the rest is rewriting for all of them. -/
theorem map_updateCopy (f : InventoryItem → InventoryItem)
    (g : List InventoryReservation → InventoryItem → InventoryItem)
    (hold : InventoryReservation) {holds : List InventoryReservation}
    (hg : ∀ i, g holds (if i.id = hold.inventoryItemId then f i else i) = g (hold :: holds) i)
    (copies : List InventoryItem) :
    (copies.map fun i => if i.id = hold.inventoryItemId then f i else i).map (g holds) =
      copies.map (g (hold :: holds)) := by
  rw [List.map_map]
  exact List.map_congr_left fun i _ => hg i

/-- The release loop takes every hold's quantity off its item, and finds every item. -/
theorem releaseEach_eq :
    ∀ (holds : List InventoryReservation) {copies copies' : List InventoryItem},
    releaseEach holds copies = .ok copies' →
      copies' = copies.map (InventoryItem.unreserve holds) ∧
        ∀ h ∈ holds, ∃ c ∈ copies, c.id = h.inventoryItemId
  | [], copies, copies', h => by
    cases h
    refine ⟨?_, fun h hh => absurd hh List.not_mem_nil⟩
    rw [List.map_congr_left fun i _ =>
      InventoryItem.unreserve_of_not_mem fun r hr => absurd hr List.not_mem_nil]
    exact (List.map_id' _).symm
  | hold :: holds, copies, copies', h => by
    simp only [releaseEach, bind, Except.bind] at h
    split at h
    · cases h
    · rename_i mid hmid
      obtain ⟨hfound, rfl⟩ := updateCopy_eq_ok hmid
      obtain ⟨rfl, hrest⟩ := releaseEach_eq holds h
      constructor
      · refine map_updateCopy (releaseOne hold) InventoryItem.unreserve hold (fun i => ?_) copies
        by_cases hi : i.id = hold.inventoryItemId
        · rw [if_pos hi]
          simp [InventoryItem.unreserve, releaseOne, qtyOn_cons, countOn_cons, hi]
          omega
        · rw [if_neg hi]
          simp [InventoryItem.unreserve, qtyOn_cons, countOn_cons, Ne.symm hi]
      · intro h' hh'
        rcases List.mem_cons.1 hh' with rfl | hh'
        · exact hfound
        · obtain ⟨c, hc, hid⟩ := hrest h' hh'
          obtain ⟨c₀, hc₀, rfl⟩ := List.mem_map.1 hc
          refine ⟨c₀, hc₀, ?_⟩
          rw [← hid]
          split <;> rfl

/-! ## The ledger -/

/-- Each row's `resultingOnHand` is the running sum of its item's ledger. -/
def Running (movements : List StockMovement) : Prop :=
  ∀ before m after, movements = before ++ m :: after →
    m.resultingOnHand = ledger (before ++ [m]) m.inventoryItemId

@[simp] theorem ledger_append (ms ms' : List StockMovement) (i : Nat) :
    ledger (ms ++ ms') i = ledger ms i + ledger ms' i := Table.totalBy_append _ _

theorem ledger_singleton (m : StockMovement) (i : Nat) :
    ledger [m] i = if m.inventoryItemId = i then m.quantityDelta else 0 := by
  simp [ledger, Table.totalBy_cons]

theorem ledger_eq_zero {movements : List StockMovement} {i : Nat}
    (h : ∀ m ∈ movements, m.inventoryItemId ≠ i) : ledger movements i = 0 :=
  Table.totalBy_eq_zero fun m hm => by simpa using h m hm

theorem ledger_dispatchMovement (shipmentId : Nat) (actorId : Option Nat) (occurredAt : Nat)
    (hold : InventoryReservation) (item : InventoryItem) (i : Nat) :
    ledger [dispatchMovement shipmentId actorId occurredAt hold item] i =
      if item.id = i then -hold.quantity else 0 := ledger_singleton _ _

theorem running_nil : Running [] := fun before m after h => by
  simp at h

/-- A row whose `resultingOnHand` continues its item's sum extends a running ledger. -/
theorem Running.snoc {ms : List StockMovement} (h : Running ms) {m : StockMovement}
    (hm : m.resultingOnHand = ledger ms m.inventoryItemId + m.quantityDelta) :
    Running (ms ++ [m]) := by
  intro before x after hx
  rcases List.eq_nil_or_concat after with rfl | ⟨init, last, rfl⟩
  · obtain ⟨rfl, hxm⟩ := List.append_inj' hx rfl
    cases hxm
    rw [ledger_append, ledger_singleton, if_pos rfl]
    exact hm
  · rw [List.concat_eq_append, ← List.cons_append, ← List.append_assoc] at hx
    obtain ⟨rfl, -⟩ := List.append_inj' hx rfl
    exact h before x init rfl

/-- Commit's loop takes every hold's quantity off its item, and its ledger rows continue the ledger
`ms` the copies agree with. -/
theorem commitEach_spec {shipmentId : Nat} {actorId : Option Nat} {occurredAt : Nat} :
    ∀ (holds : List InventoryReservation) {copies final : List InventoryItem}
      {rows ms : List StockMovement},
      commitEach shipmentId actorId occurredAt holds copies = .ok (final, rows) →
      Running ms → (∀ c ∈ copies, c.onHandQty = ledger ms c.id) →
        final = copies.map (InventoryItem.dispatch holds) ∧
        (∀ h ∈ holds, ∃ c ∈ copies, c.id = h.inventoryItemId) ∧
        Running (ms ++ rows) ∧
        (∀ i, ledger rows i = - qtyOn holds i) ∧
        ∀ m ∈ rows, ∃ h ∈ holds, m.inventoryItemId = h.inventoryItemId ∧
          m.quantityDelta = - h.quantity
  | [], copies, final, rows, ms, h, hrun, _ => by
    cases h
    refine ⟨?_, fun h hh => absurd hh List.not_mem_nil, by simpa using hrun, fun i => rfl,
      fun m hm => absurd hm List.not_mem_nil⟩
    rw [List.map_congr_left fun i _ =>
      InventoryItem.dispatch_of_not_mem fun r hr => absurd hr List.not_mem_nil]
    exact (List.map_id' _).symm
  | hold :: holds, copies, final, rows, ms, h, hrun, hagree => by
    simp only [commitEach, bind, Except.bind] at h
    split at h
    · cases h
    rename_i mid hmid
    obtain ⟨hfound, rfl⟩ := updateCopy_eq_ok hmid
    split at h
    · cases h
    rename_i item hitem
    split at h
    · cases h
    rename_i out hout
    obtain ⟨final', rows'⟩ := out
    simp only [Except.ok.injEq, Prod.mk.injEq] at h
    obtain ⟨rfl, rfl⟩ := h
    obtain ⟨hmem, hid⟩ := Table.mem_of_lookup hitem
    obtain ⟨c, hc, hcitem⟩ := List.mem_map.1 hmem
    have hcid : c.id = hold.inventoryItemId := by
      rw [← hid, ← hcitem]
      split <;> rfl
    rw [if_pos hcid] at hcitem
    -- the new ledger row continues the ledger of the item it is about
    have hrow : Running (ms ++ [dispatchMovement shipmentId actorId occurredAt hold item]) := by
      refine hrun.snoc ?_
      subst hcitem
      simp only [dispatchMovement, commitOne]
      rw [hagree c hc]
      omega
    have hagree' : ∀ c ∈ copies.map fun i => if i.id = hold.inventoryItemId then
        commitOne hold i else i,
        c.onHandQty = ledger (ms ++ [dispatchMovement shipmentId actorId occurredAt hold item])
          c.id := by
      intro x hx
      obtain ⟨y, hy, rfl⟩ := List.mem_map.1 hx
      rw [ledger_append, ledger_dispatchMovement]
      by_cases hyid : y.id = hold.inventoryItemId
      · rw [if_pos hyid, if_pos (show item.id = (commitOne hold y).id from hid.trans hyid.symm)]
        show y.onHandQty - hold.quantity = ledger ms y.id + -hold.quantity
        rw [hagree y hy]
        omega
      · rw [if_neg hyid, if_neg fun hne : item.id = y.id => hyid (hne.symm.trans hid), hagree y hy]
        omega
    obtain ⟨rfl, hrest, hrunning, hledger, hrows⟩ := commitEach_spec holds hout hrow hagree'
    refine ⟨?_, ?_, ?_, ?_, ?_⟩
    · refine map_updateCopy (commitOne hold) InventoryItem.dispatch hold (fun i => ?_) copies
      by_cases hi : i.id = hold.inventoryItemId
      · rw [if_pos hi]
        simp [InventoryItem.dispatch, commitOne, qtyOn_cons, countOn_cons, hi]
        omega
      · rw [if_neg hi]
        simp [InventoryItem.dispatch, qtyOn_cons, countOn_cons, Ne.symm hi]
    · intro h' hh'
      rcases List.mem_cons.1 hh' with rfl | hh'
      · exact hfound
      · obtain ⟨x, hx, hxid⟩ := hrest h' hh'
        obtain ⟨y, hy, rfl⟩ := List.mem_map.1 hx
        refine ⟨y, hy, ?_⟩
        rw [← hxid]
        split <;> rfl
    · rw [List.append_assoc] at hrunning
      exact hrunning
    · intro i
      rw [← List.singleton_append, ledger_append, ledger_dispatchMovement, hledger, qtyOn_cons, hid]
      split <;> omega
    · intro m hm
      rcases List.mem_cons.1 hm with rfl | hm
      · exact ⟨hold, List.mem_cons_self, hid, rfl⟩
      · obtain ⟨h', hh', heq⟩ := hrows m hm
        exact ⟨h', List.mem_cons_of_mem _ hh', heq⟩

/-- The ledger row is the dispatch of the hold, for the shipment. -/
structure StockMovement.Dispatches (shipmentId : Nat) (h : InventoryReservation)
    (m : StockMovement) : Prop where
  reference : m.referenceType = some "shipment"
  shipment : m.referenceId = some shipmentId
  item : m.inventoryItemId = h.inventoryItemId
  delta : m.quantityDelta = -h.quantity

/-- Commit's loop leaves one ledger row a hold. -/
theorem commitEach_dispatches {shipmentId : Nat} {actorId : Option Nat} {occurredAt : Nat}
    {holds : List InventoryReservation} {copies final : List InventoryItem}
    {rows : List StockMovement}
    (h : commitEach shipmentId actorId occurredAt holds copies = .ok (final, rows)) :
    List.Forall₂ (StockMovement.Dispatches shipmentId) holds rows := by
  induction holds generalizing copies final rows with
  | nil =>
    cases h
    exact .nil
  | cons hold holds ih =>
    simp only [commitEach, bind, Except.bind] at h
    split at h
    · cases h
    split at h
    · cases h
    rename_i item hitem
    split at h
    · cases h
    rename_i out hout
    obtain ⟨final', rows'⟩ := out
    cases h
    exact .cons ⟨rfl, rfl, (Table.mem_of_lookup hitem).2, rfl⟩ (ih hout)

/-- The hold a line of a request becomes. -/
structure HoldFor (request : ReservationRequest) (expiresAt : Nat) (copies : List InventoryItem)
    (r : InventoryReservation) : Prop where
  item : ∃ c ∈ copies, c.id = r.inventoryItemId ∧ c.skuId = r.skuId
  shipment : r.shipmentId = request.shipmentId
  warehouse : r.warehouseId = request.warehouseId
  line : ∃ line ∈ request.lines, line.skuId = r.skuId ∧ line.quantity = r.quantity
  status : r.status = .held
  expires : r.expiresAt = some expiresAt
  unconfirmed : r.confirmedAt = none

/-- Reserve's loop adds every line's quantity to the item of its SKU, and makes one hold a line. -/
theorem holdEach_spec {request : ReservationRequest} {expiresAt : Nat} :
    ∀ (lines : List (ReservationLineRequest × Nat)) {copies final : List InventoryItem}
      {holds : List InventoryReservation},
      holdEach request expiresAt lines copies = .ok (final, holds) →
      (∀ line ∈ lines, line.1 ∈ request.lines) →
        final = copies.map (InventoryItem.reserve holds) ∧
        holds.map (fun h => (h.skuId, h.quantity)) =
          lines.map (fun line => (line.1.skuId, line.1.quantity)) ∧
        ∀ h ∈ holds, HoldFor request expiresAt copies h
  | [], copies, final, holds, h, _ => by
    cases h
    refine ⟨?_, rfl, fun h hh => absurd hh List.not_mem_nil⟩
    rw [List.map_congr_left fun i _ =>
      InventoryItem.reserve_of_not_mem fun r hr => absurd hr List.not_mem_nil]
    exact (List.map_id' _).symm
  | (line, id) :: lines, copies, final, holds, h, hlines => by
    simp only [holdEach, bind, Except.bind] at h
    split at h
    · cases h
    rename_i item hitem
    split at h
    · cases h
    rename_i mid hmid
    obtain ⟨-, rfl⟩ := updateCopy_eq_ok hmid
    split at h
    · cases h
    rename_i out hout
    obtain ⟨final', holds'⟩ := out
    simp only [Except.ok.injEq, Prod.mk.injEq] at h
    obtain ⟨rfl, rfl⟩ := h
    have hmem : item ∈ copies := List.mem_of_find?_eq_some hitem
    have hsku : item.skuId = line.skuId := by simpa using List.find?_some hitem
    obtain ⟨rfl, hkeys, hholds⟩ := holdEach_spec lines hout
      fun l hl => hlines l (List.mem_cons_of_mem _ hl)
    refine ⟨?_, ?_, ?_⟩
    · refine map_updateCopy (holdOne line) InventoryItem.reserve
        { id := id, inventoryItemId := item.id, shipmentId := request.shipmentId,
          warehouseId := request.warehouseId, skuId := line.skuId,
          quantity := line.quantity, status := .held, expiresAt := some expiresAt,
          confirmedAt := none, committedAt := none, releasedAt := none,
          releaseReason := none } (fun i => ?_) copies
      by_cases hi : i.id = item.id
      · rw [if_pos hi]
        simp [InventoryItem.reserve, holdOne, qtyOn_cons, countOn_cons, hi]
        omega
      · rw [if_neg hi]
        simp [InventoryItem.reserve, qtyOn_cons, countOn_cons, Ne.symm hi]
    · simp [hkeys]
    · intro h' hh'
      rcases List.mem_cons.1 hh' with rfl | hh'
      · exact ⟨⟨item, hmem, rfl, hsku⟩, rfl, rfl,
          ⟨line, hlines _ List.mem_cons_self, rfl, rfl⟩, rfl, rfl, rfl⟩
      · have hh := hholds h' hh'
        obtain ⟨x, hx, hxid, hxsku⟩ := hh.item
        obtain ⟨y, hy, rfl⟩ := List.mem_map.1 hx
        refine { hh with item := ⟨y, hy, ?_, ?_⟩ }
        · rw [← hxid]
          split <;> rfl
        · rw [← hxsku]
          split <;> rfl

/-! ## Effects on whole tables -/

namespace Db

/-- The holds given back. -/
def releaseRows (holds : List InventoryReservation) (reason : String) (now : Nat) (db : Db) : Db :=
  { db with items := db.items.map (InventoryItem.unreserve holds) }.writeReservations
    (holds.map InventoryReservation.id) (InventoryReservation.release reason now)

/-- The holds committed, with the ledger rows of their dispatch. -/
def commitRows (holds : List InventoryReservation) (now : Nat) (rows : List StockMovement)
    (db : Db) : Db :=
  ({ db with items := db.items.map (InventoryItem.dispatch holds) }.writeReservations
    (holds.map InventoryReservation.id) (InventoryReservation.commit now)).insertMovements rows

/-- New holds. -/
def holdRows (holds : List InventoryReservation) (db : Db) : Db :=
  { db with items := db.items.map (InventoryItem.reserve holds) }.insertReservations holds

theorem mem_writeReservations {ids : List Nat}
    {set : InventoryReservation → InventoryReservation} {db : Db} {r : InventoryReservation} :
    r ∈ (db.writeReservations ids set).reservations ↔
      ∃ r₀ ∈ db.reservations, (if ids.contains r₀.id then set r₀ else r₀) = r := by
  simp only [writeReservations, List.mem_map]

/-- Writing back rewritten copies of current rows rewrites the table, if the rewrite leaves the rows
that were not copied alone. -/
theorem writeItems_map {db : Db} {copies : List InventoryItem} {g : InventoryItem → InventoryItem}
    (hkeyed : Table.Keyed InventoryItem.id db.items) (hcopies : ∀ c ∈ copies, c ∈ db.items)
    (hg : ∀ i, g i = { i with onHandQty := (g i).onHandQty, reservedQty := (g i).reservedQty,
                              version := (g i).version })
    (hother : ∀ i ∈ db.items, i ∉ copies → g i = i) :
    db.writeItems (copies.map g) = { db with items := db.items.map g } := by
  have hid : ∀ i, (g i).id = i.id := fun i => by rw [hg i]
  simp only [writeItems, Db.mk.injEq, true_and, and_true]
  refine List.map_congr_left fun row hrow => ?_
  cases hl : Table.lookup InventoryItem.id (copies.map g) row.id with
  | some copy =>
    obtain ⟨hmem, hkey⟩ := Table.mem_of_lookup hl
    obtain ⟨c, hc, rfl⟩ := List.mem_map.1 hmem
    have hrc : c = row := hkeyed.eq_of_key (hcopies c hc) hrow ((hid c).symm.trans hkey)
    subst hrc
    exact (hg c).symm
  | none =>
    refine (hother row hrow fun hc => ?_).symm
    have hnone := List.find?_eq_none.1 hl (g row) (List.mem_map_of_mem hc)
    simp [hid row] at hnone

end Db

/-! ## The invariant -/

/-- What the CHECK constraints and foreign keys ask for. -/
structure Checks (db : Db) : Prop where
  on_hand_nonneg : ∀ i ∈ db.items, 0 ≤ i.onHandQty
  reserved_nonneg : ∀ i ∈ db.items, 0 ≤ i.reservedQty
  within : ∀ i ∈ db.items, i.reservedQty ≤ i.onHandQty
  quantity_pos : ∀ r ∈ db.reservations, 0 < r.quantity
  expires : ∀ r ∈ db.reservations, r.status = .held → r.confirmedAt.isSome ∨ r.expiresAt.isSome
  delta_ne_zero : ∀ m ∈ db.movements, m.quantityDelta ≠ 0
  item_of_reservation : ∀ r ∈ db.reservations, ∃ i ∈ db.items, i.id = r.inventoryItemId
  item_of_movement : ∀ m ∈ db.movements, ∃ i ∈ db.items, i.id = m.inventoryItemId

/-- What the unique constraints ask for. -/
structure UniqueKeys (db : Db) : Prop where
  items : Table.Keyed InventoryItem.id db.items
  positions : (db.items.map fun i => (i.warehouseId, i.skuId)).Nodup
  reservations : Table.Keyed InventoryReservation.id db.reservations
  lines : (db.reservations.map fun r => (r.shipmentId, r.skuId)).Nodup

/-- No SKU is on two reservations of one shipment. -/
theorem UniqueKeys.nodup_skus {db : Db} (h : UniqueKeys db) (shipmentId : Nat) :
    ((forShipment shipmentId db).map (·.skuId)).Nodup := by
  refine List.Nodup.map_on (fun a ha b hb hsku => ?_)
    ((List.Nodup.of_map _ h.reservations).filter _)
  simp only [forShipment, List.mem_filter, beq_iff_eq] at ha hb
  exact List.inj_on_of_nodup_map h.lines ha.1 hb.1 (Prod.ext (ha.2.trans hb.2.symm) hsku)

/-- The counters of every item agree with its holds and with its ledger. -/
structure Accounts (db : Db) : Prop where
  reserved : ∀ i ∈ db.items, i.reservedQty = heldQty db.reservations i.id
  on_hand : ∀ i ∈ db.items, i.onHandQty = ledger db.movements i.id
  running : Running db.movements

/-- The invariant of Inventory's committed states. -/
structure Consistent (db : Db) : Prop extends Checks db, UniqueKeys db, Accounts db

theorem consistent_empty : Consistent Db.empty where
  on_hand_nonneg := fun _ hi => absurd hi List.not_mem_nil
  reserved_nonneg := fun _ hi => absurd hi List.not_mem_nil
  within := fun _ hi => absurd hi List.not_mem_nil
  quantity_pos := fun _ hr => absurd hr List.not_mem_nil
  expires := fun _ hr => absurd hr List.not_mem_nil
  delta_ne_zero := fun _ hm => absurd hm List.not_mem_nil
  item_of_reservation := fun _ hr => absurd hr List.not_mem_nil
  item_of_movement := fun _ hm => absurd hm List.not_mem_nil
  items := List.nodup_nil
  positions := List.nodup_nil
  reservations := List.nodup_nil
  lines := List.nodup_nil
  reserved := fun _ hi => absurd hi List.not_mem_nil
  on_hand := fun _ hi => absurd hi List.not_mem_nil
  running := running_nil

/-- The invariant is about three tables only. -/
theorem Consistent.congr {db db' : Db} (h : Consistent db) (hi : db'.items = db.items)
    (hr : db'.reservations = db.reservations) (hm : db'.movements = db.movements) :
    Consistent db' := by
  obtain ⟨⟨h₁, h₂, h₃, h₄, h₅, h₆, h₇, h₈⟩, ⟨h₉, h₁₀, h₁₁, h₁₂⟩, ⟨h₁₃, h₁₄, h₁₅⟩⟩ := h
  refine ⟨⟨?_, ?_, ?_, ?_, ?_, ?_, ?_, ?_⟩, ⟨?_, ?_, ?_, ?_⟩, ⟨?_, ?_, ?_⟩⟩ <;>
    simp only [hi, hr, hm] <;> assumption

theorem Consistent.stage {db : Db} (h : Consistent db) (events : List StockEvent) :
    Consistent (db.stage events) := h.congr rfl rfl rfl

/-! ## What the database answers to a flush -/

theorem eq_of_check {db db' : Db} (h : db.check = .ok db') : db' = db := by
  unfold Db.check at h
  split at h
  · cases h
    rfl
  · cases h

/-- A state the database accepts satisfies every constraint. -/
theorem constraint_of_check {db db' : Db} (h : db.check = .ok db')
    {c : IntegrityError × (Db → Bool)}
    (hc : c ∈ Db.constraints) : c.2 db = true := by
  unfold Db.check at h
  split at h
  · rename_i hv
    rw [Db.violated, Option.map_eq_none_iff] at hv
    simpa using List.find?_eq_none.1 hv c hc
  · cases h

theorem rows_of_check {db db' : Db} (h : db.check = .ok db') {ρ : Type} {constraintName : String}
    {table : Db → List ρ} {p : ρ → Bool}
    (hc : Db.checkRows constraintName table p ∈ Db.constraints) : ∀ r ∈ table db, p r = true :=
  List.all_eq_true.1 (constraint_of_check h hc)

theorem within_of_check {db db' : Db} (h : db.check = .ok db') :
    ∀ i ∈ db.items, i.reservedQty ≤ i.onHandQty := fun i hi =>
  of_decide_eq_true (rows_of_check h (.tail _ (.tail _ (.head _))) i hi)

theorem on_hand_nonneg_of_check {db db' : Db} (h : db.check = .ok db') :
    ∀ i ∈ db.items, 0 ≤ i.onHandQty := fun i hi =>
  of_decide_eq_true (rows_of_check h (.head _) i hi)

theorem unique_of_check {db db' : Db} (h : db.check = .ok db') {ρ κ : Type} [DecidableEq κ]
    {constraintName : String} {table : Db → List ρ} {key : ρ → κ}
    (hc : Db.uniqueRows constraintName table key ∈ Db.constraints) : ((table db).map key).Nodup :=
  of_decide_eq_true (constraint_of_check h hc)

theorem uniqueKeys_of_check {db db' : Db} (h : db.check = .ok db') : UniqueKeys db where
  items := unique_of_check h (.tail _ (.tail _ (.tail _ (.tail _ (.tail _ (.tail _ (.head _)))))))
  positions := unique_of_check h
    (.tail _ (.tail _ (.tail _ (.tail _ (.tail _ (.tail _ (.tail _ (.head _))))))))
  reservations := unique_of_check h
    (.tail _ (.tail _ (.tail _ (.tail _ (.tail _ (.tail _ (.tail _ (.tail _ (.head _)))))))))
  lines := unique_of_check h
    (.tail _ (.tail _ (.tail _ (.tail _ (.tail _ (.tail _ (.tail _ (.tail _ (.tail _
      (.head _))))))))))

/-- The database refuses a state that satisfies every CHECK constraint for a duplicate only. -/
theorem Checks.check_cases {db : Db} (h : Checks db) :
    db.check = .ok db ∨
      ∃ e, db.check = .error (.integrity e) ∧ e.sqlstate = .uniqueViolation := by
  have hrows : ∀ {ρ : Type} {n : String} {table : Db → List ρ} {p : ρ → Bool},
      (∀ r ∈ table db, p r = true) → (Db.checkRows n table p).2 db ≠ false := fun hp =>
    Bool.ne_false_iff.2 (List.all_eq_true.2 hp)
  have hrefs : ∀ {ρ : Type} {n : String} {table : Db → List ρ} {key : ρ → Nat},
      (∀ r ∈ table db, ∃ i ∈ db.items, i.id = key r) →
        (Db.referencesItem n table key).2 db ≠ false := fun hk =>
    Bool.ne_false_iff.2 (List.all_eq_true.2 fun r hr => by
      simpa using hk r hr)
  unfold Db.check Db.violated
  cases hfind : Db.constraints.find? fun c => !c.2 db with
  | none => exact Or.inl rfl
  | some c =>
    refine Or.inr ⟨c.1, rfl, ?_⟩
    have hbad : c.2 db = false := by simpa using List.find?_some hfind
    have hmem := List.mem_of_find?_eq_some hfind
    simp only [Db.constraints, List.mem_cons, List.not_mem_nil, or_false] at hmem
    rcases hmem with rfl | rfl | rfl | rfl | rfl | rfl | rfl | rfl | rfl | rfl | rfl | rfl
    · exact absurd hbad (hrows fun i hi => decide_eq_true (h.on_hand_nonneg i hi))
    · exact absurd hbad (hrows fun i hi => decide_eq_true (h.reserved_nonneg i hi))
    · exact absurd hbad (hrows fun i hi => decide_eq_true (h.within i hi))
    · exact absurd hbad (hrows fun r hr => decide_eq_true (h.quantity_pos r hr))
    · refine absurd hbad (hrows fun r hr => ?_)
      by_cases hs : r.status = .held
      · simpa [hs] using h.expires r hr hs
      · simp [hs]
    · exact absurd hbad (hrows fun m hm => by simpa using h.delta_ne_zero m hm)
    · rfl
    · rfl
    · rfl
    · rfl
    · exact absurd hbad (hrefs h.item_of_reservation)
    · exact absurd hbad (hrefs h.item_of_movement)

theorem consistent_of_check {db db' : Db} (hc : Checks db) (ha : Accounts db)
    (h : db.check = .ok db') : db' = db ∧ Consistent db :=
  ⟨eq_of_check h, hc, uniqueKeys_of_check h, ha⟩

/-! ## Every effect keeps the invariant -/

/-- Distinct HELD rows of the table. -/
structure Selected (holds : List InventoryReservation) (db : Db) : Prop where
  mem : ∀ h ∈ holds, h ∈ db.reservations
  nodup : holds.Nodup
  status : ∀ h ∈ holds, h.status = .held

/-- The ids of selected rows select exactly these rows. -/
theorem Selected.contains_iff {holds : List InventoryReservation} {db : Db}
    (h : Selected holds db) (hk : Table.Keyed InventoryReservation.id db.reservations)
    {r : InventoryReservation} (hr : r ∈ db.reservations) :
    (holds.map InventoryReservation.id).contains r.id = true ↔ r ∈ holds := by
  simp only [List.contains_eq_mem, decide_eq_true_eq, List.mem_map]
  constructor
  · rintro ⟨r', hr', hid⟩
    rwa [← hk.eq_of_key (h.mem r' hr') hr hid]
  · intro hmem
    exact ⟨r, hmem, rfl⟩

theorem qtyOn_nonneg {holds : List InventoryReservation} (h : ∀ r ∈ holds, 0 < r.quantity)
    (i : Nat) : 0 ≤ qtyOn holds i :=
  Table.totalBy_nonneg fun r hr _ => Int.le_of_lt (h r hr)

/-- Holds that leave HELD take their quantities out of the held sum. -/
theorem heldQty_moved {db : Db} {holds : List InventoryReservation} (hs : Selected holds db)
    (hk : Table.Keyed InventoryReservation.id db.reservations)
    {set : InventoryReservation → InventoryReservation} (hset : ∀ r, (set r).status ≠ .held)
    (i : Nat) :
    heldQty (db.writeReservations (holds.map InventoryReservation.id) set).reservations i =
      heldQty db.reservations i - qtyOn holds i := by
  have hmoved : heldQty (db.writeReservations (holds.map InventoryReservation.id) set).reservations
      i = heldQty db.reservations i - Table.totalBy (fun r =>
        (holds.map InventoryReservation.id).contains r.id && r.holds i) (·.quantity)
          db.reservations := by
    refine Table.totalBy_map_of_moved (fun r _ hsel => ?_) (fun r _ hsel => ?_)
    · rw [if_pos hsel]
      simp [InventoryReservation.holds, hset r]
    · rw [if_neg (by rw [hsel]; exact Bool.false_ne_true)]
      exact ⟨rfl, rfl⟩
  rw [hmoved]
  -- on the selected rows, being selected and being a hold on the item is being on the item
  have hqty : qtyOn holds i = Table.totalBy (fun r =>
      (holds.map InventoryReservation.id).contains r.id && r.holds i) (·.quantity) holds := by
    refine Table.totalBy_congr (fun r hr => ?_) (fun _ _ _ => rfl)
    rw [(hs.contains_iff hk (hs.mem r hr)).2 hr, InventoryReservation.holds, hs.status r hr]
    simp
  rw [hqty, Table.totalBy_eq_of_mem hk.nodup hs.nodup fun r => ?_]
  constructor
  · rintro ⟨hr, hp⟩
    refine ⟨(hs.contains_iff hk hr).1 ?_, hp⟩
    rw [Bool.and_eq_true] at hp
    exact hp.1
  · rintro ⟨hr, hp⟩
    exact ⟨hs.mem r hr, hp⟩

/-- Writing columns that no sum reads leaves the held sum. -/
theorem heldQty_writeReservations {db : Db} {ids : List Nat}
    {set : InventoryReservation → InventoryReservation}
    (hset : ∀ r, (set r).status = r.status ∧ (set r).quantity = r.quantity ∧
      (set r).inventoryItemId = r.inventoryItemId) (i : Nat) :
    heldQty (db.writeReservations ids set).reservations i = heldQty db.reservations i := by
  rw [heldQty, Db.writeReservations, Table.totalBy_map]
  refine Table.totalBy_congr (fun r _ => ?_) (fun r _ _ => ?_)
  · obtain ⟨hst, -, hit⟩ := hset r
    simp only [InventoryReservation.holds]
    split
    · rw [hst, hit]
    · rfl
  · split
    · exact (hset r).2.1
    · rfl

/-- Columns of holds that a flush rewrites without touching what they hold on. -/
structure KeepsLine (set : InventoryReservation → InventoryReservation) : Prop where
  id : ∀ r, (set r).id = r.id
  item : ∀ r, (set r).inventoryItemId = r.inventoryItemId
  shipment : ∀ r, (set r).shipmentId = r.shipmentId
  warehouse : ∀ r, (set r).warehouseId = r.warehouseId
  sku : ∀ r, (set r).skuId = r.skuId
  quantity : ∀ r, (set r).quantity = r.quantity

theorem keepsLine_release (reason : String) (now : Nat) :
    KeepsLine (InventoryReservation.release reason now) :=
  ⟨fun _ => rfl, fun _ => rfl, fun _ => rfl, fun _ => rfl, fun _ => rfl, fun _ => rfl⟩

theorem keepsLine_commit (now : Nat) : KeepsLine (InventoryReservation.commit now) :=
  ⟨fun _ => rfl, fun _ => rfl, fun _ => rfl, fun _ => rfl, fun _ => rfl, fun _ => rfl⟩

theorem keepsLine_confirm (now : Nat) : KeepsLine (InventoryReservation.confirm now) :=
  ⟨fun _ => rfl, fun _ => rfl, fun _ => rfl, fun _ => rfl, fun _ => rfl, fun _ => rfl⟩

/-- A written row is a row of the table before with the same line. -/
theorem line_of_mem_writeReservations {ids : List Nat}
    {set : InventoryReservation → InventoryReservation} (hset : KeepsLine set) {db : Db}
    {r : InventoryReservation} (hr : r ∈ (db.writeReservations ids set).reservations) :
    ∃ r₀ ∈ db.reservations, r.id = r₀.id ∧ r.inventoryItemId = r₀.inventoryItemId ∧
      r.shipmentId = r₀.shipmentId ∧ r.quantity = r₀.quantity := by
  obtain ⟨r₀, hr₀, rfl⟩ := Db.mem_writeReservations.1 hr
  refine ⟨r₀, hr₀, ?_⟩
  split
  · exact ⟨hset.id r₀, hset.item r₀, hset.shipment r₀, hset.quantity r₀⟩
  · exact ⟨rfl, rfl, rfl, rfl⟩

/-- Giving holds back keeps the invariant. -/
theorem Consistent.releaseRows {db : Db} (h : Consistent db) {holds : List InventoryReservation}
    (hs : Selected holds db) (reason : String) (now : Nat) :
    Checks (db.releaseRows holds reason now) ∧ Accounts (db.releaseRows holds reason now) := by
  have hq : ∀ i, 0 ≤ qtyOn holds i := qtyOn_nonneg fun r hr => h.quantity_pos r (hs.mem r hr)
  have hheld : ∀ i, heldQty (db.releaseRows holds reason now).reservations i =
      heldQty db.reservations i - qtyOn holds i :=
    heldQty_moved hs h.reservations (by simp [InventoryReservation.release])
  have hpos : ∀ r ∈ (db.releaseRows holds reason now).reservations, 0 < r.quantity := by
    intro r hr
    obtain ⟨r₀, hr₀, -, -, -, hqty⟩ := line_of_mem_writeReservations (keepsLine_release _ _) hr
    rw [hqty]
    exact h.quantity_pos r₀ hr₀
  have hitem : ∀ i ∈ (db.releaseRows holds reason now).items, ∃ i₀ ∈ db.items,
      i₀.unreserve holds = i := fun i hi => List.mem_map.1 hi
  refine ⟨⟨?_, ?_, ?_, hpos, ?_, h.delta_ne_zero, ?_, ?_⟩, ⟨?_, ?_, h.running⟩⟩
  · intro i hi
    obtain ⟨i₀, hi₀, rfl⟩ := hitem i hi
    exact h.on_hand_nonneg i₀ hi₀
  · intro i hi
    obtain ⟨i₀, hi₀, rfl⟩ := hitem i hi
    -- what is left reserved is what the remaining holds add up to
    have hnn : 0 ≤ heldQty (db.releaseRows holds reason now).reservations i₀.id :=
      Table.totalBy_nonneg fun r hr _ => Int.le_of_lt (hpos r hr)
    rw [hheld, ← h.reserved i₀ hi₀] at hnn
    exact hnn
  · intro i hi
    obtain ⟨i₀, hi₀, rfl⟩ := hitem i hi
    have hw := h.within i₀ hi₀
    have hqi := hq i₀.id
    simp only [InventoryItem.unreserve]
    omega
  · intro r hr hst
    obtain ⟨r₀, hr₀, rfl⟩ := Db.mem_writeReservations.1 hr
    split at hst
    · -- a released row is no HELD row
      cases hst
    · rename_i hsel
      rw [if_neg hsel]
      exact h.expires r₀ hr₀ hst
  · intro r hr
    obtain ⟨r₀, hr₀, -, hit, -⟩ := line_of_mem_writeReservations (keepsLine_release _ _) hr
    obtain ⟨i, hi, hid⟩ := h.item_of_reservation r₀ hr₀
    exact ⟨i.unreserve holds, List.mem_map_of_mem hi, hid.trans hit.symm⟩
  · intro m hm
    obtain ⟨i, hi, hid⟩ := h.item_of_movement m hm
    exact ⟨i.unreserve holds, List.mem_map_of_mem hi, hid⟩
  · intro i hi
    obtain ⟨i₀, hi₀, rfl⟩ := hitem i hi
    rw [hheld]
    simp only [InventoryItem.unreserve]
    rw [h.reserved i₀ hi₀]
  · intro i hi
    obtain ⟨i₀, hi₀, rfl⟩ := hitem i hi
    exact h.on_hand i₀ hi₀

/-- Committing holds keeps the invariant, if the ledger rows continue the ledger. -/
theorem Consistent.commitRows {db : Db} (h : Consistent db) {holds : List InventoryReservation}
    (hs : Selected holds db) (now : Nat) {rows : List StockMovement}
    (hrun : Running (db.movements ++ rows)) (hledger : ∀ i, ledger rows i = - qtyOn holds i)
    (hrows : ∀ m ∈ rows, ∃ r ∈ holds, m.inventoryItemId = r.inventoryItemId ∧
      m.quantityDelta = - r.quantity) :
    Checks (db.commitRows holds now rows) ∧ Accounts (db.commitRows holds now rows) := by
  have hheld : ∀ i, heldQty (db.commitRows holds now rows).reservations i =
      heldQty db.reservations i - qtyOn holds i :=
    heldQty_moved hs h.reservations (by simp [InventoryReservation.commit])
  have hpos : ∀ r ∈ (db.commitRows holds now rows).reservations, 0 < r.quantity := by
    intro r hr
    obtain ⟨r₀, hr₀, -, -, -, hqty⟩ := line_of_mem_writeReservations (keepsLine_commit _) hr
    rw [hqty]
    exact h.quantity_pos r₀ hr₀
  have hitem : ∀ i ∈ (db.commitRows holds now rows).items, ∃ i₀ ∈ db.items,
      i₀.dispatch holds = i := fun i hi => List.mem_map.1 hi
  -- both counters go down by the same quantity, so only the smaller one can be negative
  have hnn : ∀ i ∈ (db.commitRows holds now rows).items, 0 ≤ i.reservedQty := by
    intro i hi
    obtain ⟨i₀, hi₀, rfl⟩ := hitem i hi
    have hnn : 0 ≤ heldQty (db.commitRows holds now rows).reservations i₀.id :=
      Table.totalBy_nonneg fun r hr _ => Int.le_of_lt (hpos r hr)
    rw [hheld, ← h.reserved i₀ hi₀] at hnn
    exact hnn
  have hwithin : ∀ i ∈ (db.commitRows holds now rows).items, i.reservedQty ≤ i.onHandQty := by
    intro i hi
    obtain ⟨i₀, hi₀, rfl⟩ := hitem i hi
    have hw := h.within i₀ hi₀
    simp only [InventoryItem.dispatch]
    omega
  refine ⟨⟨fun i hi => (hnn i hi).trans (hwithin i hi), hnn, hwithin, hpos, ?_, ?_, ?_, ?_⟩,
    ⟨?_, ?_, hrun⟩⟩
  · intro r hr hst
    obtain ⟨r₀, hr₀, rfl⟩ := Db.mem_writeReservations.1 hr
    split at hst
    · cases hst
    · rename_i hsel
      rw [if_neg hsel]
      exact h.expires r₀ hr₀ hst
  · intro m hm
    rcases List.mem_append.1 hm with hm | hm
    · exact h.delta_ne_zero m hm
    · obtain ⟨r, hr, -, hd⟩ := hrows m hm
      have := h.quantity_pos r (hs.mem r hr)
      omega
  · intro r hr
    obtain ⟨r₀, hr₀, -, hit, -⟩ := line_of_mem_writeReservations (keepsLine_commit _) hr
    obtain ⟨i, hi, hid⟩ := h.item_of_reservation r₀ hr₀
    exact ⟨i.dispatch holds, List.mem_map_of_mem hi, hid.trans hit.symm⟩
  · intro m hm
    have hm₀ : ∃ i ∈ db.items, i.id = m.inventoryItemId := by
      rcases List.mem_append.1 hm with hm | hm
      · exact h.item_of_movement m hm
      · obtain ⟨r, hr, hit, -⟩ := hrows m hm
        rw [hit]
        exact h.item_of_reservation r (hs.mem r hr)
    obtain ⟨i, hi, hid⟩ := hm₀
    exact ⟨i.dispatch holds, List.mem_map_of_mem hi, hid⟩
  · intro i hi
    obtain ⟨i₀, hi₀, rfl⟩ := hitem i hi
    rw [hheld]
    simp only [InventoryItem.dispatch]
    rw [h.reserved i₀ hi₀]
  · intro i hi
    obtain ⟨i₀, hi₀, rfl⟩ := hitem i hi
    show i₀.onHandQty - qtyOn holds i₀.id = ledger (db.movements ++ rows) i₀.id
    -- the new ledger rows are the quantities of the holds, with a minus
    rw [ledger_append, hledger, h.on_hand i₀ hi₀]
    omega

/-- Confirming holds keeps the invariant. -/
theorem Consistent.confirmRows {db : Db} (h : Consistent db) (ids : List Nat) (now : Nat) :
    Checks (db.writeReservations ids (InventoryReservation.confirm now)) ∧
      Accounts (db.writeReservations ids (InventoryReservation.confirm now)) := by
  refine ⟨⟨h.on_hand_nonneg, h.reserved_nonneg, h.within, ?_, ?_, h.delta_ne_zero, ?_,
    h.item_of_movement⟩, ⟨?_, h.on_hand, h.running⟩⟩
  · intro r hr
    obtain ⟨r₀, hr₀, -, -, -, hqty⟩ := line_of_mem_writeReservations (keepsLine_confirm _) hr
    rw [hqty]
    exact h.quantity_pos r₀ hr₀
  · intro r hr hst
    obtain ⟨r₀, hr₀, rfl⟩ := Db.mem_writeReservations.1 hr
    split
    · exact Or.inl rfl
    · rename_i hsel
      rw [if_neg hsel] at hst
      exact h.expires r₀ hr₀ hst
  · intro r hr
    obtain ⟨r₀, hr₀, -, hit, -⟩ := line_of_mem_writeReservations (keepsLine_confirm _) hr
    rw [hit]
    exact h.item_of_reservation r₀ hr₀
  · intro i hi
    have hset : ∀ r : InventoryReservation, (r.confirm now).status = r.status ∧
        (r.confirm now).quantity = r.quantity ∧
        (r.confirm now).inventoryItemId = r.inventoryItemId := fun _ => ⟨rfl, rfl, rfl⟩
    rw [heldQty_writeReservations hset]
    exact h.reserved i hi

/-- New holds within the available stock keep the invariant. -/
theorem Consistent.holdRows {db : Db} (h : Consistent db) {holds : List InventoryReservation}
    (hitem : ∀ r ∈ holds, ∃ i ∈ db.items, i.id = r.inventoryItemId)
    (hpos : ∀ r ∈ holds, 0 < r.quantity) (hheld : ∀ r ∈ holds, r.status = .held)
    (hexp : ∀ r ∈ holds, r.expiresAt.isSome)
    (havail : ∀ i ∈ db.items, i.reservedQty + qtyOn holds i.id ≤ i.onHandQty) :
    Checks (db.holdRows holds) ∧ Accounts (db.holdRows holds) := by
  have hq : ∀ i, 0 ≤ qtyOn holds i := qtyOn_nonneg hpos
  have hmem : ∀ i ∈ (db.holdRows holds).items, ∃ i₀ ∈ db.items, i₀.reserve holds = i :=
    fun i hi => List.mem_map.1 hi
  have hsum : ∀ i, heldQty (db.reservations ++ holds) i =
      heldQty db.reservations i + qtyOn holds i := by
    intro i
    rw [heldQty, Table.totalBy_append]
    congr 1
    refine Table.totalBy_congr (fun r hr => ?_) (fun _ _ _ => rfl)
    simp [InventoryReservation.holds, hheld r hr]
  refine ⟨⟨?_, ?_, ?_, ?_, ?_, h.delta_ne_zero, ?_, ?_⟩, ⟨?_, ?_, h.running⟩⟩
  · intro i hi
    obtain ⟨i₀, hi₀, rfl⟩ := hmem i hi
    exact h.on_hand_nonneg i₀ hi₀
  · intro i hi
    obtain ⟨i₀, hi₀, rfl⟩ := hmem i hi
    have hr := h.reserved_nonneg i₀ hi₀
    have hqi := hq i₀.id
    simp only [InventoryItem.reserve]
    omega
  · intro i hi
    obtain ⟨i₀, hi₀, rfl⟩ := hmem i hi
    -- here the stock has to be enough
    exact havail i₀ hi₀
  · intro r hr
    rcases List.mem_append.1 hr with hr | hr
    · exact h.quantity_pos r hr
    · exact hpos r hr
  · intro r hr hst
    rcases List.mem_append.1 hr with hr | hr
    · exact h.expires r hr hst
    · exact Or.inr (hexp r hr)
  · intro r hr
    have hr₀ : ∃ i ∈ db.items, i.id = r.inventoryItemId := by
      rcases List.mem_append.1 hr with hr | hr
      · exact h.item_of_reservation r hr
      · exact hitem r hr
    obtain ⟨i, hi, hid⟩ := hr₀
    exact ⟨i.reserve holds, List.mem_map_of_mem hi, hid⟩
  · intro m hm
    obtain ⟨i, hi, hid⟩ := h.item_of_movement m hm
    exact ⟨i.reserve holds, List.mem_map_of_mem hi, hid⟩
  · intro i hi
    obtain ⟨i₀, hi₀, rfl⟩ := hmem i hi
    show i₀.reservedQty + qtyOn holds i₀.id = heldQty (db.reservations ++ holds) i₀.id
    rw [hsum, h.reserved i₀ hi₀]
  · intro i hi
    obtain ⟨i₀, hi₀, rfl⟩ := hmem i hi
    exact h.on_hand i₀ hi₀

/-- A freshly opened position satisfies the CHECK constraints. -/
theorem Consistent.insertItem {db : Db} (h : Consistent db) {item : InventoryItem}
    (hq : 0 ≤ item.onHandQty) (hr : item.reservedQty = 0) : Checks (db.insertItem item) := by
  have hmem : ∀ i ∈ (db.insertItem item).items, i ∈ db.items ∨ i = item := fun i hi => by
    simpa [Db.insertItem] using hi
  refine ⟨?_, ?_, ?_, h.quantity_pos, h.expires, h.delta_ne_zero, ?_, ?_⟩
  · intro i hi
    rcases hmem i hi with hi | rfl
    · exact h.on_hand_nonneg i hi
    · exact hq
  · intro i hi
    rcases hmem i hi with hi | rfl
    · exact h.reserved_nonneg i hi
    · omega
  · intro i hi
    rcases hmem i hi with hi | rfl
    · exact h.within i hi
    · omega
  · intro r hr
    obtain ⟨i, hi, hid⟩ := h.item_of_reservation r hr
    exact ⟨i, List.mem_append_left _ hi, hid⟩
  · intro m hm
    obtain ⟨i, hi, hid⟩ := h.item_of_movement m hm
    exact ⟨i, List.mem_append_left _ hi, hid⟩

/-- Opening a position with its ledger row keeps the invariant; an empty position has no row. -/
theorem Consistent.openRows {db : Db} (h : Consistent db) {item : InventoryItem}
    (hq : 0 ≤ item.onHandQty) (hr : item.reservedQty = 0) (huniq : UniqueKeys (db.insertItem item))
    {rows : List StockMovement}
    (hrows : rows = [] ∧ item.onHandQty = 0 ∨ ∃ m, rows = [m] ∧ item.onHandQty ≠ 0 ∧
      m.inventoryItemId = item.id ∧ m.quantityDelta = item.onHandQty ∧
      m.resultingOnHand = item.onHandQty) :
    Checks ((db.insertItem item).insertMovements rows) ∧
      Accounts ((db.insertItem item).insertMovements rows) := by
  have hc := h.insertItem hq hr
  have hmem : ∀ i ∈ (db.insertItem item).items, i ∈ db.items ∨ i = item := fun i hi => by
    simpa [Db.insertItem] using hi
  have hitem : item ∈ (db.insertItem item).items := by simp [Db.insertItem]
  -- the id is new, so nothing refers to it yet
  have hfresh : ∀ i ∈ db.items, i.id ≠ item.id := by
    intro i hi heq
    have hnd := huniq.items
    simp only [Table.Keyed, Db.insertItem, List.map_append, List.map_cons, List.map_nil] at hnd
    exact (List.nodup_append.1 hnd).2.2 i.id (List.mem_map_of_mem hi) item.id
      List.mem_cons_self heq
  have hledger₀ : ledger db.movements item.id = 0 := by
    refine ledger_eq_zero fun m hm heq => ?_
    obtain ⟨i, hi, hid⟩ := h.item_of_movement m hm
    exact hfresh i hi (hid.trans heq)
  have hheld₀ : heldQty db.reservations item.id = 0 := by
    refine Table.totalBy_eq_zero fun r hr => ?_
    obtain ⟨i, hi, hid⟩ := h.item_of_reservation r hr
    have hne : r.inventoryItemId ≠ item.id := fun heq => hfresh i hi (hid.trans heq)
    simp [InventoryReservation.holds, hne]
  have hrow : ∀ m ∈ rows, m.inventoryItemId = item.id ∧ m.quantityDelta ≠ 0 := by
    rcases hrows with ⟨rfl, -⟩ | ⟨m, rfl, hne, hid, hd, -⟩
    · exact fun m hm => absurd hm List.not_mem_nil
    · intro m' hm'
      rw [List.mem_singleton.1 hm', hid, hd]
      exact ⟨rfl, hne⟩
  have hother : ∀ i ∈ db.items, ledger rows i.id = 0 := fun i hi =>
    ledger_eq_zero fun m hm heq => hfresh i hi (heq.symm.trans (hrow m hm).1)
  have hsum : ledger rows item.id = item.onHandQty := by
    rcases hrows with ⟨rfl, hz⟩ | ⟨m, rfl, -, hid, hd, -⟩
    · exact hz.symm
    · rw [ledger_singleton, if_pos hid, hd]
  refine ⟨⟨hc.on_hand_nonneg, hc.reserved_nonneg, hc.within, hc.quantity_pos, hc.expires, ?_,
    hc.item_of_reservation, ?_⟩, ⟨?_, ?_, ?_⟩⟩
  · intro m hm
    rcases List.mem_append.1 hm with hm | hm
    · exact h.delta_ne_zero m hm
    · exact (hrow m hm).2
  · intro m hm
    rcases List.mem_append.1 hm with hm | hm
    · exact hc.item_of_movement m hm
    · exact ⟨item, hitem, (hrow m hm).1.symm⟩
  · intro i hi
    rcases hmem i hi with hi | rfl
    · exact h.reserved i hi
    · exact hr.trans hheld₀.symm
  · intro i hi
    show i.onHandQty = ledger (db.movements ++ rows) i.id
    rw [ledger_append]
    rcases hmem i hi with hi | rfl
    · rw [hother i hi, h.on_hand i hi]
      omega
    · rw [hledger₀, hsum]
      omega
  · show Running (db.movements ++ rows)
    rcases hrows with ⟨rfl, -⟩ | ⟨m, rfl, -, hid, hd, hres⟩
    · rw [List.append_nil]
      exact h.running
    · refine h.running.snoc ?_
      rw [hid, hledger₀, hd, hres]
      omega

namespace Db

/-- The item `row` adjusted, with its ledger row. -/
def adjustRows (payload : StockAdjustment) (row : InventoryItem) (m : StockMovement)
    (db : Db) : Db :=
  { db with items := db.items.map fun i => if i = row then adjustOne payload i else i
    }.insertMovements [m]

end Db

/-- An adjustment the database accepts keeps the invariant. -/
theorem Consistent.adjustRows {db : Db} (h : Consistent db) {payload : StockAdjustment}
    {row : InventoryItem} (hrow : row ∈ db.items) {userId occurredAt : Nat} {db' : Db}
    (hc : (db.adjustRows payload row (adjustmentMovement payload (adjustOne payload row) userId
      occurredAt)).check = .ok db') : Consistent db' := by
  -- the database has checked the counters; the ledger has to be shown
  obtain rfl := eq_of_check hc
  have hkeep : ∀ i, (if i = row then adjustOne payload i else i).id = i.id ∧
      (if i = row then adjustOne payload i else i).reservedQty = i.reservedQty := by
    intro i
    split <;> exact ⟨rfl, rfl⟩
  have hrowid : ∀ i ∈ db.items, i ≠ row → row.id ≠ i.id := fun i hi hne heq =>
    hne (h.items.eq_of_key hi hrow heq.symm)
  refine ⟨⟨on_hand_nonneg_of_check hc, ?_, within_of_check hc, h.quantity_pos, h.expires, ?_, ?_,
    ?_⟩, uniqueKeys_of_check hc, ⟨?_, ?_, ?_⟩⟩
  · intro i hi
    obtain ⟨i₀, hi₀, rfl⟩ := List.mem_map.1 hi
    rw [(hkeep i₀).2]
    exact h.reserved_nonneg i₀ hi₀
  · intro m hm
    rcases List.mem_append.1 hm with hm | hm
    · exact h.delta_ne_zero m hm
    · rw [List.mem_singleton.1 hm]
      exact payload.quantityDelta_ne_zero
  · intro r hr
    obtain ⟨i, hi, hid⟩ := h.item_of_reservation r hr
    exact ⟨_, List.mem_map_of_mem hi, (hkeep i).1.trans hid⟩
  · intro m hm
    have hm₀ : ∃ i ∈ db.items, i.id = m.inventoryItemId := by
      rcases List.mem_append.1 hm with hm | hm
      · exact h.item_of_movement m hm
      · rw [List.mem_singleton.1 hm]
        exact ⟨row, hrow, rfl⟩
    obtain ⟨i, hi, hid⟩ := hm₀
    exact ⟨_, List.mem_map_of_mem hi, (hkeep i).1.trans hid⟩
  · intro i hi
    obtain ⟨i₀, hi₀, rfl⟩ := List.mem_map.1 hi
    rw [(hkeep i₀).1, (hkeep i₀).2]
    exact h.reserved i₀ hi₀
  · intro i hi
    obtain ⟨i₀, hi₀, rfl⟩ := List.mem_map.1 hi
    rw [(hkeep i₀).1]
    show _ = ledger (db.movements ++ [adjustmentMovement payload (adjustOne payload row) userId
      occurredAt]) i₀.id
    have hone :
      ledger [adjustmentMovement payload (adjustOne payload row) userId occurredAt] i₀.id =
        if row.id = i₀.id then payload.quantityDelta else 0 := ledger_singleton _ _
    rw [ledger_append, hone, ← h.on_hand i₀ hi₀]
    -- the ledger row counts for the item that is adjusted
    by_cases hir : i₀ = row
    · rw [if_pos hir, hir, if_pos rfl]
      rfl
    · rw [if_neg hir, if_neg (hrowid i₀ hi₀ hir)]
      omega
  · refine h.running.snoc ?_
    show row.onHandQty + payload.quantityDelta = ledger db.movements row.id + payload.quantityDelta
    rw [h.on_hand row hrow]

end SmartLogistics.Inventory
