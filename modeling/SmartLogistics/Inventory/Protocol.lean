import SmartLogistics.Inventory.Accounting
import Mathlib.Data.Prod.Lex
import Mathlib.Order.Lattice

/-!
# The locking protocol of Inventory's transactions

`protocol` is the discipline Inventory's transactions keep: committed states are `Consistent`, a
locked row does not change under its holder (`Same`), and rows only move forward (`Grows`). It also
states the effect of each operation's commit (`Committed`), that every lock request follows the
order of the rows or re-locks an item of a locked hold (`LockRequest`), and that no flush but an
adjustment's trips a CHECK constraint.

The last section shows that the effect of each operation keeps what the transactions promise each
other (`guar_releaseRows` and its siblings).
-/

set_option autoImplicit false

namespace SmartLogistics.Inventory

open SmartLogistics.Library SmartLogistics.Platform

/-! ## How rows change -/

/-- How a reservation row may change over its life. -/
structure InventoryReservation.Grows (r r' : InventoryReservation) : Prop where
  id : r'.id = r.id
  item : r'.inventoryItemId = r.inventoryItemId
  shipment : r'.shipmentId = r.shipmentId
  warehouse : r'.warehouseId = r.warehouseId
  sku : r'.skuId = r.skuId
  quantity : r'.quantity = r.quantity
  status : r'.status = r.status ∨ r.status = .held
  confirmed : r'.confirmedAt = r.confirmedAt ∨ r.confirmedAt = none
  expires : r'.confirmedAt = none → r'.expiresAt = r.expiresAt

theorem InventoryReservation.Grows.refl (r : InventoryReservation) : r.Grows r :=
  ⟨rfl, rfl, rfl, rfl, rfl, rfl, Or.inl rfl, Or.inl rfl, fun _ => rfl⟩

theorem InventoryReservation.Grows.trans {a b c : InventoryReservation} (h : a.Grows b)
    (h' : b.Grows c) : a.Grows c where
  id := h'.id.trans h.id
  item := h'.item.trans h.item
  shipment := h'.shipment.trans h.shipment
  warehouse := h'.warehouse.trans h.warehouse
  sku := h'.sku.trans h.sku
  quantity := h'.quantity.trans h.quantity
  status := by
    rcases h.status with hs | hs
    · rcases h'.status with hs' | hs'
      · exact Or.inl (hs'.trans hs)
      · exact Or.inr (hs.symm.trans hs')
    · exact Or.inr hs
  confirmed := by
    rcases h.confirmed with hs | hs
    · rcases h'.confirmed with hs' | hs'
      · exact Or.inl (hs'.trans hs)
      · exact Or.inr (hs.symm.trans hs')
    · exact Or.inr hs
  expires := by
    intro hc
    have hb : b.confirmedAt = none := by
      rcases h'.confirmed with hs | hs
      · exact hs.symm.trans hc
      · exact hs
    exact (h'.expires hc).trans (h.expires hb)

/-- How a commit may change the tables. -/
structure Grows (a b : Db) : Prop where
  items : ∀ i ∈ a.items, ∃ i' ∈ b.items,
    i'.id = i.id ∧ i'.warehouseId = i.warehouseId ∧ i'.skuId = i.skuId
  reservations : ∀ r ∈ a.reservations, ∃ r' ∈ b.reservations, r.Grows r'
  movements : a.movements <+: b.movements

theorem Grows.refl (db : Db) : Grows db db where
  items := fun i hi => ⟨i, hi, rfl, rfl, rfl⟩
  reservations := fun r hr => ⟨r, hr, .refl r⟩
  movements := List.prefix_rfl

theorem Grows.trans {a b c : Db} (h : Grows a b) (h' : Grows b c) : Grows a c where
  items := by
    intro i hi
    obtain ⟨j, hj, h₁, h₂, h₃⟩ := h.items i hi
    obtain ⟨k, hk, h₁', h₂', h₃'⟩ := h'.items j hj
    exact ⟨k, hk, h₁'.trans h₁, h₂'.trans h₂, h₃'.trans h₃⟩
  reservations := by
    intro r hr
    obtain ⟨r', hr', hg⟩ := h.reservations r hr
    obtain ⟨r'', hr'', hg'⟩ := h'.reservations r' hr'
    exact ⟨r'', hr'', hg.trans hg'⟩
  movements := h.movements.trans h'.movements

/-- Row `r` is the same in both states. -/
def Same : Row → Db → Db → Prop
  | .item id, a, b => ∀ i ∈ a.items, i.id = id → i ∈ b.items
  | .reservation id, a, b => ∀ r ∈ a.reservations, r.id = id → r ∈ b.reservations

theorem Same.refl : ∀ (r : Row) (db : Db), Same r db db
  | .item _, _ => fun _ hi _ => hi
  | .reservation _, _ => fun _ hr _ => hr

theorem Same.trans : ∀ {r : Row} {a b c : Db}, Same r a b → Same r b c → Same r a c
  | .item _, _, _, _, h, h' => fun i hi hid => h' i (h i hi hid) hid
  | .reservation _, _, _, _, h, h' => fun r hr hid => h' r (h r hr hid) hid

/-! ## Lock order -/

/-- Items rank below reservations; within a table the order is by id. -/
def Row.rank : Row → ℕ ×ₗ ℕ
  | .item id => toLex (0, id)
  | .reservation id => toLex (1, id)

theorem Row.rank_item_lt_item {i j : Nat} : (Row.item i).rank < (Row.item j).rank ↔ i < j := by
  simp [Row.rank, Prod.Lex.toLex_lt_toLex]

theorem Row.rank_reservation_lt_reservation {i j : Nat} :
    (Row.reservation i).rank < (Row.reservation j).rank ↔ i < j := by
  simp [Row.rank, Prod.Lex.toLex_lt_toLex]

theorem Row.rank_item_lt_reservation (i j : Nat) :
    (Row.item i).rank < (Row.reservation j).rank := by
  simp [Row.rank, Prod.Lex.toLex_lt_toLex]

/-- The operations that lock items a second time, after their holds. -/
def Operation.Relocks : Operation → Prop
  | .commit _ _ => True
  | .release _ _ => True
  | _ => False

instance : DecidablePred Operation.Relocks
  | .commit _ _ => isTrue trivial
  | .release _ _ => isTrue trivial
  | .openPosition _ _ => isFalse not_false
  | .adjust _ _ _ => isFalse not_false
  | .reserve _ => isFalse not_false
  | .confirm _ => isFalse not_false
  | .releaseExpired _ => isFalse not_false

/-- The row is in its table. -/
def Row.Exists : Row → Db → Prop
  | .item id, db => ∃ i ∈ db.items, i.id = id
  | .reservation id, db => ∃ r ∈ db.reservations, r.id = id

/-- What holds of a lock request: the row exists, and the request follows the order or is for the
item of a locked hold. -/
def LockRequest (op : Operation) (held : Row → Prop) (r : Row) (db : Db) : Prop :=
  r.Exists db ∧ ((∀ x, held x → x.rank < r.rank) ∨
    (op.Relocks ∧ ∃ h ∈ db.reservations, held (.reservation h.id) ∧ r = .item h.inventoryItemId))

/-- The operation is an adjustment, which the CHECK constraints may refuse. -/
def Operation.IsAdjust : Operation → Prop
  | .adjust _ _ _ => True
  | _ => False

/-- An error the database answers is not a CHECK violation, unless an adjustment meets it. -/
def NoCheckViolation (op : Operation) (error : Failure) : Prop :=
  ¬ op.IsAdjust → ∀ e, error = .integrity e → e.sqlstate ≠ .checkViolation

/-! ## What a commit does -/

/-- Selected rows that the transaction has locked, with the items they hold on. -/
structure Locked (held : Row → Prop) (holds : List InventoryReservation) (db : Db) : Prop
    extends Selected holds db where
  locked : ∀ h ∈ holds, held (.reservation h.id)
  items_locked : ∀ h ∈ holds, held (.item h.inventoryItemId)

/-- Locked holds that lapsed: of the locked rows, those that are still unconfirmed holds. -/
structure Lapsed (held : Row → Prop) (cutoff : Nat) (holds : List InventoryReservation)
    (db : Db) : Prop extends Locked held holds db where
  lapsed : ∀ h ∈ holds, isLapsed cutoff h = true
  only : ∀ id, held (.reservation id) → ∃ r ∈ db.reservations, r.id = id ∧
    (r.status = .held → r.confirmedAt = none → r ∈ holds)

/-- The locked HELD rows of one shipment: of the locked rows, and of the shipment's rows that were
there when the transaction was opened, those that are still HELD. -/
structure HeldRows (shipmentId : Nat) (opened : Db) (held : Row → Prop)
    (holds : List InventoryReservation) (db : Db) : Prop extends Selected holds db where
  locked : ∀ h ∈ holds, held (.reservation h.id)
  shipment : ∀ h ∈ holds, h.shipmentId = shipmentId
  only : ∀ id, held (.reservation id) → ∃ r ∈ db.reservations, r.id = id ∧
    (r.status = .held → r ∈ holds)
  known : ∀ r₀ ∈ opened.reservations, r₀.shipmentId = shipmentId → ∃ r ∈ db.reservations,
    r.id = r₀.id ∧ (r.status = .held → r ∈ holds)

/-- The state after a sweep of `expired`. -/
def Db.expireRows (expired : List InventoryReservation) (now : Nat) (db : Db) : Db :=
  (db.releaseRows expired "Unconfirmed hold expired" now).stage (releasedEvents expired)

/-- The answer is for the shipment and the lines of the request. -/
structure ReservationResult.Answers (answer : ReservationResult) (request : ReservationRequest) :
    Prop where
  shipment : answer.shipmentId = request.shipmentId
  lines : (answer.lines.map fun line => (line.skuId, line.quantity)).Perm
    (request.lines.map fun line => (line.skuId, line.quantity))

/-- What opening or adjusting a position leaves alone: the holds, and the ledger of the
dispatches. -/
structure Repositioned (db db' : Db) : Prop where
  reservations : db'.reservations = db.reservations
  movements : ∃ rows, db'.movements = db.movements ++ rows ∧
    ∀ m ∈ rows, m.referenceType ≠ some "shipment"

/-- The effect of an operation's commit. -/
def Committed (unconfirmedHold : Nat) :
    Operation → Db → (Row → Prop) → Outcome → Nat → Db → Db → Prop
  | .reserve request, _, _, .reserved answer false, _, db, db' =>
    answer.Answers request ∧ (∃ r ∈ db.reservations, r.shipmentId = request.shipmentId) ∧ db' = db
  | .reserve request, _, held, .reserved answer true, clock, db, db' =>
    answer.Answers request ∧
    ∃ cutoff now expired time holds, cutoff ≤ now ∧ now ≤ time ∧ time ≤ clock ∧
      Lapsed held cutoff expired db ∧
      (∀ h ∈ holds, HoldFor request (time + unconfirmedHold)
        (db.expireRows expired now).items h) ∧
      holds.map (fun h => (h.skuId, h.quantity)) =
        request.lines.map (fun line => (line.skuId, line.quantity)) ∧
      db' = ((db.expireRows expired now).holdRows holds).stage
        [emitStockEvent "stock.reserved" request.shipmentId request.warehouseId holds none]
  | .confirm shipmentId, opened, held, .count n, _, db, db' =>
    ∃ now holds, HeldRows shipmentId opened held holds db ∧ n = holds.length ∧
      db' = db.writeReservations ((holds.filter (·.confirmedAt.isNone)).map (·.id))
        (InventoryReservation.confirm now)
  | .commit shipmentId _, opened, held, .count n, _, db, db' =>
    (n = 0 ∧ db' = db ∧ HeldRows shipmentId opened held [] db ∧
      hasStatus shipmentId .committed db = true) ∨
      ∃ now holds rows, holds ≠ [] ∧ HeldRows shipmentId opened held holds db ∧
        (∀ h ∈ holds, held (.item h.inventoryItemId)) ∧ n = holds.length ∧
        List.Forall₂ (StockMovement.Dispatches shipmentId) holds rows ∧
        db' = (db.commitRows holds now rows).stage
          [emitStockEvent "stock.committed" shipmentId (firstWarehouse holds) holds none]
  | .release shipmentId reason, opened, held, .count n, _, db, db' =>
    (n = 0 ∧ db' = db ∧ HeldRows shipmentId opened held [] db) ∨
      ∃ now holds, holds ≠ [] ∧ HeldRows shipmentId opened held holds db ∧
        (∀ h ∈ holds, held (.item h.inventoryItemId)) ∧ n = holds.length ∧
        db' = (db.releaseRows holds reason now).stage
          [emitStockEvent "stock.released" shipmentId (firstWarehouse holds) holds (some reason)]
  | .releaseExpired _, _, held, .count n, clock, db, db' =>
    (n = 0 ∧ db' = db) ∨
      ∃ cutoff now expired, cutoff ≤ now ∧ now ≤ clock ∧ Lapsed held cutoff expired db ∧
        n = expired.length ∧ db' = db.expireRows expired now
  | .openPosition _ _, _, _, .item _, _, db, db' => Repositioned db db'
  | .adjust _ _ _, _, _, .item _, _, db, db' => Repositioned db db'
  | _, _, _, _, _, _, _ => False

/-- The discipline of Inventory's transactions. -/
def protocol (unconfirmedHold : Nat) :
    Discipline Db Row Failure Outcome Operation where
  inv := Consistent
  same := Same
  grow := Grows
  lockFact := LockRequest
  flushFact := NoCheckViolation
  post := Committed unconfirmedHold
  same_refl := Same.refl
  same_trans := Same.trans
  grow_refl := Grows.refl
  grow_trans := Grows.trans

/-! ## The guarantee of each effect -/

section Guarantees

variable {unconfirmedHold : Nat} {held : Row → Prop} {db : Db}

/-- A commit that rewrites the locked rows in place and appends others keeps the protocol. -/
theorem guar_of_maps {db' : Db} {g : InventoryItem → InventoryItem}
    {f : InventoryReservation → InventoryReservation} {newItems : List InventoryItem}
    {newRows : List InventoryReservation} {newMovements : List StockMovement}
    (hinv : Consistent db') (hitems : db'.items = db.items.map g ++ newItems)
    (hrows : db'.reservations = db.reservations.map f ++ newRows)
    (hmovements : db'.movements = db.movements ++ newMovements)
    (hg : ∀ i ∈ db.items, (g i).id = i.id ∧ (g i).warehouseId = i.warehouseId ∧
      (g i).skuId = i.skuId)
    (hgs : ∀ i ∈ db.items, ¬ held (.item i.id) → g i = i)
    (hf : ∀ r ∈ db.reservations, r.Grows (f r))
    (hfs : ∀ r ∈ db.reservations, ¬ held (.reservation r.id) → f r = r) :
    (protocol unconfirmedHold).Guar held db db' where
  inv := hinv
  grow := by
    refine ⟨fun i hi => ⟨g i, ?_, hg i hi⟩, fun r hr => ⟨f r, ?_, hf r hr⟩, ?_⟩
    · rw [hitems]
      exact List.mem_append_left _ (List.mem_map_of_mem hi)
    · rw [hrows]
      exact List.mem_append_left _ (List.mem_map_of_mem hr)
    · rw [hmovements]
      exact List.prefix_append _ _
  same := by
    intro r hr
    cases r with
    | item id =>
      rintro i hi rfl
      rw [hitems]
      refine List.mem_append_left _ (List.mem_map.2 ⟨i, hi, hgs i hi hr⟩)
    | reservation id =>
      rintro r hr' rfl
      rw [hrows]
      exact List.mem_append_left _ (List.mem_map.2 ⟨r, hr', hfs r hr' hr⟩)

/-- A rewrite of selected HELD rows that keeps their line and confirmation only moves them on. -/
theorem grows_of_selected {holds : List InventoryReservation} (hs : Selected holds db)
    (hk : Table.Keyed InventoryReservation.id db.reservations)
    {set : InventoryReservation → InventoryReservation} (hset : KeepsLine set)
    (hconf : ∀ r, (set r).confirmedAt = r.confirmedAt) (hexp : ∀ r, (set r).expiresAt = r.expiresAt)
    {r : InventoryReservation} (hr : r ∈ db.reservations) :
    r.Grows (if (holds.map InventoryReservation.id).contains r.id then set r else r) := by
  split
  · rename_i hsel
    have hmem := (hs.contains_iff hk hr).1 hsel
    exact ⟨hset.id r, hset.item r, hset.shipment r, hset.warehouse r, hset.sku r, hset.quantity r,
      Or.inr (hs.status r hmem), Or.inl (hconf r), fun _ => hexp r⟩
  · exact .refl r

/-- Rows that are not locked are not selected. -/
theorem not_selected {holds : List InventoryReservation} (hs : Selected holds db)
    (hk : Table.Keyed InventoryReservation.id db.reservations)
    (hl : ∀ h ∈ holds, held (.reservation h.id)) {r : InventoryReservation}
    (hr : r ∈ db.reservations) (hnot : ¬ held (.reservation r.id)) :
    ¬ (holds.map InventoryReservation.id).contains r.id = true := fun hsel =>
  hnot (hl r ((hs.contains_iff hk hr).1 hsel))

theorem guar_releaseRows (h : Consistent db) {holds : List InventoryReservation}
    (hl : Locked held holds db) (reason : String) (now : Nat)
    (hinv : Consistent (db.releaseRows holds reason now)) :
    (protocol unconfirmedHold).Guar held db (db.releaseRows holds reason now) := by
  refine guar_of_maps hinv (List.append_nil _).symm (List.append_nil _).symm
    (List.append_nil _).symm (fun i _ => ⟨rfl, rfl, rfl⟩) (fun i _ hnot => ?_) (fun r hr => ?_)
    (fun r hr hnot => ?_)
  · exact InventoryItem.unreserve_of_not_mem fun r hr heq => hnot (heq ▸ hl.items_locked r hr)
  · exact grows_of_selected hl.toSelected h.reservations (keepsLine_release _ _) (fun _ => rfl)
      (fun _ => rfl) hr
  · exact if_neg (not_selected hl.toSelected h.reservations hl.locked hr hnot)

theorem guar_commitRows (h : Consistent db) {holds : List InventoryReservation}
    (hl : Locked held holds db) (now : Nat) (rows : List StockMovement)
    (hinv : Consistent (db.commitRows holds now rows)) :
    (protocol unconfirmedHold).Guar held db (db.commitRows holds now rows) := by
  refine guar_of_maps hinv (List.append_nil _).symm (List.append_nil _).symm rfl
    (fun i _ => ⟨rfl, rfl, rfl⟩) (fun i _ hnot => ?_) (fun r hr => ?_) (fun r hr hnot => ?_)
  · exact InventoryItem.dispatch_of_not_mem fun r hr heq => hnot (heq ▸ hl.items_locked r hr)
  · exact grows_of_selected hl.toSelected h.reservations (keepsLine_commit _) (fun _ => rfl)
      (fun _ => rfl) hr
  · exact if_neg (not_selected hl.toSelected h.reservations hl.locked hr hnot)

theorem guar_confirmRows (h : Consistent db) {holds : List InventoryReservation}
    (hs : Selected holds db) (hl : ∀ r ∈ holds, held (.reservation r.id)) (now : Nat)
    (hinv : Consistent (db.writeReservations ((holds.filter (·.confirmedAt.isNone)).map (·.id))
      (InventoryReservation.confirm now))) :
    (protocol unconfirmedHold).Guar held db
      (db.writeReservations ((holds.filter (·.confirmedAt.isNone)).map (·.id))
        (InventoryReservation.confirm now)) := by
  -- the rows the flush writes are selected, and not yet confirmed
  have hsel : ∀ r ∈ db.reservations,
      ((holds.filter (·.confirmedAt.isNone)).map (·.id)).contains r.id = true →
        r ∈ holds ∧ r.confirmedAt = none := by
    intro r hr hc
    simp only [List.contains_eq_mem, decide_eq_true_eq, List.mem_map, List.mem_filter,
      Option.isNone_iff_eq_none] at hc
    obtain ⟨r', ⟨hr', hnone⟩, hid⟩ := hc
    obtain rfl := h.reservations.eq_of_key (hs.mem r' hr') hr hid
    exact ⟨hr', hnone⟩
  have hitems : (db.writeReservations ((holds.filter (·.confirmedAt.isNone)).map (·.id))
      (InventoryReservation.confirm now)).items = db.items.map id ++ [] := by
    rw [List.map_id, List.append_nil]
    rfl
  refine guar_of_maps hinv hitems (List.append_nil _).symm (List.append_nil _).symm
    (fun i _ => ⟨rfl, rfl, rfl⟩) (fun i _ _ => rfl) (fun r hr => ?_) (fun r hr hnot => ?_)
  · split
    · rename_i hc
      obtain ⟨-, hnone⟩ := hsel r hr hc
      exact ⟨rfl, rfl, rfl, rfl, rfl, rfl, Or.inl rfl, Or.inr hnone, fun hno => by cases hno⟩
    · exact .refl r
  · refine if_neg fun hc => hnot ?_
    exact hl r (hsel r hr hc).1

theorem guar_holdRows {holds : List InventoryReservation}
    (hl : ∀ r ∈ holds, held (.item r.inventoryItemId)) (hinv : Consistent (db.holdRows holds)) :
    (protocol unconfirmedHold).Guar held db (db.holdRows holds) := by
  have hrows : (db.holdRows holds).reservations = db.reservations.map id ++ holds := by
    rw [List.map_id]
    rfl
  refine guar_of_maps hinv (List.append_nil _).symm hrows (List.append_nil _).symm
    (fun i _ => ⟨rfl, rfl, rfl⟩) (fun i _ hnot => ?_) (fun r _ => .refl r) (fun r _ _ => rfl)
  exact InventoryItem.reserve_of_not_mem fun r hr heq => hnot (heq ▸ hl r hr)

theorem Db.insertMovements_nil (db : Db) : db.insertMovements [] = db :=
  congrArg (fun ms => { db with movements := ms }) (List.append_nil db.movements)

/-- Opening a position touches no row that exists. -/
theorem guar_openRows (h : Consistent db) {item : InventoryItem} {rows : List StockMovement}
    {db' : Db} (hq : 0 ≤ item.onHandQty) (hz : item.reservedQty = 0)
    (hfirst : (db.insertItem item).check = .ok (db.insertItem item))
    (hsecond : ((db.insertItem item).insertMovements rows).check = .ok db')
    (hrows : rows = [] ∧ item.onHandQty = 0 ∨ ∃ m, rows = [m] ∧ item.onHandQty ≠ 0 ∧
      m.inventoryItemId = item.id ∧ m.quantityDelta = item.onHandQty ∧
      m.resultingOnHand = item.onHandQty)
    (hreference : ∀ m ∈ rows, m.referenceType ≠ some "shipment") :
    (protocol unconfirmedHold).Guar held db db' ∧ Repositioned db db' := by
  obtain ⟨hchecks, haccounts⟩ := h.openRows hq hz (uniqueKeys_of_check hfirst) hrows
  obtain ⟨rfl, hinv⟩ := consistent_of_check hchecks haccounts hsecond
  have hitems : ((db.insertItem item).insertMovements rows).items = db.items.map id ++ [item] := by
    rw [List.map_id]
    rfl
  have hres : ((db.insertItem item).insertMovements rows).reservations =
      db.reservations.map id ++ [] := by
    rw [List.map_id, List.append_nil]
    rfl
  exact ⟨guar_of_maps hinv hitems hres rfl (fun i _ => ⟨rfl, rfl, rfl⟩) (fun i _ _ => rfl)
    (fun r _ => .refl r) (fun r _ _ => rfl), rfl, rows, rfl, hreference⟩

theorem guar_adjustRows {payload : StockAdjustment} {row : InventoryItem} {m : StockMovement}
    (hl : held (.item row.id)) (hinv : Consistent (db.adjustRows payload row m)) :
    (protocol unconfirmedHold).Guar held db (db.adjustRows payload row m) := by
  have hres : (db.adjustRows payload row m).reservations = db.reservations.map id ++ [] := by
    rw [List.map_id, List.append_nil]
    rfl
  have hkeep : ∀ i : InventoryItem, (if i = row then adjustOne payload i else i).id = i.id ∧
      (if i = row then adjustOne payload i else i).warehouseId = i.warehouseId ∧
      (if i = row then adjustOne payload i else i).skuId = i.skuId := by
    intro i
    split <;> exact ⟨rfl, rfl, rfl⟩
  have hother : ∀ i ∈ db.items, ¬ held (.item i.id) →
      (if i = row then adjustOne payload i else i) = i := fun i _ hnot =>
    if_neg fun heq => hnot (by rw [heq]; exact hl)
  exact guar_of_maps hinv (List.append_nil _).symm hres rfl (fun i _ => hkeep i) hother
    (fun r _ => .refl r) (fun r _ _ => rfl)

theorem guar_stage {db' : Db} (h : (protocol unconfirmedHold).Guar held db db')
    (events : List StockEvent) :
    (protocol unconfirmedHold).Guar held db (db'.stage events) where
  inv := h.inv.stage events
  grow := ⟨h.grow.items, h.grow.reservations, h.grow.movements⟩
  same := fun r hr => match r, h.same r hr with
    | .item _, hs => hs
    | .reservation _, hs => hs

end Guarantees

end SmartLogistics.Inventory
