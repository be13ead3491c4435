import SmartLogistics.Inventory.Alone
import SmartLogistics.Inventory.Runs

/-!
# A first reserve

What a reserve of a shipment without reservations does when it runs alone, from any reachable state.
It succeeds exactly if the request is `Reservable`, in terms of the holds that are still live; if it
does, the state it leaves is `HeldFirst` (`runAlone_reserve`).

`firstHold` is the transaction without its state: what it answers and the holds it makes.
-/

set_option autoImplicit false

namespace SmartLogistics.Inventory

open SmartLogistics.Library SmartLogistics.Platform SmartLogistics.Warehouse

variable {unconfirmedHold now ids : Nat} {db : Db} {request : ReservationRequest}

/-! ## The specification -/

/-- The line of the request that the item is to serve. -/
def ReservationRequest.lineFor (request : ReservationRequest) (i : InventoryItem) :
    Option ReservationLineRequest :=
  if i.warehouseId = request.warehouseId then request.lines.find? (·.skuId == i.skuId) else none

/-- The row is a hold that is confirmed or has not expired. -/
def isLive (now : Nat) (r : InventoryReservation) : Bool :=
  r.status == .held && (r.confirmedAt.isSome || r.expiresAt.all fun e => decide (now < e))

/-- The quantity of the live holds on an item. -/
def liveQty (now : Nat) (reservations : List InventoryReservation) (itemId : Nat) : Int :=
  Table.totalBy (fun r => r.inventoryItemId == itemId && isLive now r) (·.quantity) reservations

/-- What a first reserve asks of the state: an operational warehouse, live SKUs, and for every line
a position at the warehouse whose live holds leave enough. -/
structure Reservable (now : Nat) (request : ReservationRequest) (db : Db) : Prop where
  operational : ∃ ref, db.warehouseRefs.find? (·.id == request.warehouseId) = some ref ∧
    ref.isOperational = true
  known : ∀ line ∈ request.lines, ∃ sku ∈ db.skus, sku.id = line.skuId ∧ sku.deletedAt = none
  active : ∀ line ∈ request.lines, ∀ sku ∈ db.skus, sku.id = line.skuId → sku.deletedAt = none →
    sku.isActive = true
  covered : ∀ line ∈ request.lines, ∃ i ∈ db.items, i.warehouseId = request.warehouseId ∧
    i.skuId = line.skuId ∧ line.quantity ≤ i.onHandQty - liveQty now db.reservations i.id

/-- The reservation is on a requested item. -/
def ReservationRequest.concerns (request : ReservationRequest) (db : Db)
    (r : InventoryReservation) : Bool :=
  db.items.any fun i => i.id == r.inventoryItemId && (request.lineFor i).isSome

/-- The row is a lapsed hold on a requested item. -/
def ReservationRequest.reclaims (request : ReservationRequest) (now : Nat) (db : Db)
    (r : InventoryReservation) : Bool :=
  isLapsed now r && request.concerns db r

/-- The item after the reserve. -/
def ReservationRequest.heldItem (request : ReservationRequest) (now : Nat) (db : Db)
    (i : InventoryItem) : InventoryItem :=
  match request.lineFor i with
  | some line =>
    { i with
      reservedQty := liveQty now db.reservations i.id + line.quantity
      version := i.version + countOn (db.reservations.filter (isLapsed now)) i.id + 1 }
  | none => i

/-- What a first reserve that succeeds leaves: the lapsed holds on the requested items are released,
the counters of these items stand for the live holds and the new one, there is one new hold a line,
and everything else but the outbox is as it was. -/
structure HeldFirst (unconfirmedHold now : Nat) (request : ReservationRequest) (db db' : Db) :
    Prop where
  items : db'.items = db.items.map (request.heldItem now db)
  reservations : ∃ holds, db'.reservations = db.reservations.map (fun r =>
      if request.reclaims now db r then r.release "Unconfirmed hold expired" now else r) ++ holds ∧
    holds.map (fun r => (r.skuId, r.quantity)) =
      request.lines.map (fun line => (line.skuId, line.quantity)) ∧
    ∀ r ∈ holds, HoldFor request (now + unconfirmedHold)
      (db.items.filter (·.warehouseId == request.warehouseId)) r
  skus : db'.skus = db.skus
  warehouseRefs : db'.warehouseRefs = db.warehouseRefs
  movements : db'.movements = db.movements

/-- What a request looks at: the requested items and the reservations on them. -/
def ReservationRequest.view (request : ReservationRequest) (db : Db) :
    List InventoryItem × List InventoryReservation :=
  (db.items.filter fun i => (request.lineFor i).isSome,
    db.reservations.filter (request.concerns db))

/-- Both runs fail with the same error, or both answer the same and leave the same view. -/
def ReservationRequest.SameOutcome (request : ReservationRequest) :
    (out out' : Except Failure ((ReservationResult × Bool) × Db × Nat)) → Prop
  | .ok (answer, db, _), .ok (answer', db', _) =>
    answer = answer' ∧ request.view db = request.view db'
  | .error e, .error e' => e = e'
  | .ok _, .error _ => False
  | .error _, .ok _ => False

/-! ## The transaction -/

/-- The requested items, as the locking read lists them. -/
def requestedItems (request : ReservationRequest) (db : Db) : List InventoryItem :=
  Table.rowsWhere InventoryItem.id (fun i => (request.lineFor i).isSome) db.items

/-- The lapsed holds on the requested items, as the locking read lists them. -/
def reclaimed (request : ReservationRequest) (now : Nat) (db : Db) : List InventoryReservation :=
  lapsedOn (requestedItems request db) now db

/-- The copies of the requested items once lapsed holds are released. -/
def reclaimedItems (request : ReservationRequest) (now : Nat) (db : Db) : List InventoryItem :=
  (requestedItems request db).map (InventoryItem.unreserve (reclaimed request now db))

/-- What a first reserve answers, and the holds it makes. -/
def firstHold (unconfirmedHold now ids : Nat) (request : ReservationRequest) (db : Db) :
    Except Failure (ReservationResult × List InventoryReservation) := do
  let _ ← requireOperational "stock there cannot be held." db.warehouseRefs request.warehouseId
  let skus ← loadSkus (request.lines.map (·.skuId)) db
  requireStock request skus (reclaimedItems request now db)
  let (_, holds) ← holdEach request (now + unconfirmedHold)
    (request.lines.zip (List.range' ids request.lines.length)) (reclaimedItems request now db)
  let answer ← result request.shipmentId request.warehouseId holds skus
  return (answer, holds)

theorem lineFor_eq_some {i : InventoryItem} {line : ReservationLineRequest}
    (h : request.lineFor i = some line) :
    i.warehouseId = request.warehouseId ∧ line ∈ request.lines ∧ line.skuId = i.skuId := by
  unfold ReservationRequest.lineFor at h
  split at h
  · rename_i hwarehouse
    exact ⟨hwarehouse, List.mem_of_find?_eq_some h, by simpa using List.find?_some h⟩
  · cases h

/-- The item at the warehouse for the SKU of a line serves that line. -/
theorem lineFor_of_mem {i : InventoryItem} {line : ReservationLineRequest}
    (hwarehouse : i.warehouseId = request.warehouseId) (hline : line ∈ request.lines)
    (hsku : i.skuId = line.skuId) : request.lineFor i = some line := by
  cases hfind : request.lineFor i with
  | none =>
    rw [ReservationRequest.lineFor, if_pos hwarehouse] at hfind
    exact absurd (beq_iff_eq.2 hsku.symm) (List.find?_eq_none.1 hfind line hline)
  | some found =>
    obtain ⟨-, hfound, hid⟩ := lineFor_eq_some hfind
    rw [List.inj_on_of_nodup_map request.unique_skus hfound hline (hid.trans hsku)]

theorem isSome_lineFor {i : InventoryItem} : (request.lineFor i).isSome = true ↔
    i.warehouseId = request.warehouseId ∧ i.skuId ∈ request.lines.map (·.skuId) := by
  constructor
  · intro h
    obtain ⟨line, hline⟩ := Option.isSome_iff_exists.1 h
    obtain ⟨hwarehouse, hmem, hsku⟩ := lineFor_eq_some hline
    exact ⟨hwarehouse, hsku ▸ List.mem_map_of_mem hmem⟩
  · rintro ⟨hwarehouse, hsku⟩
    obtain ⟨line, hline, heq⟩ := List.mem_map.1 hsku
    rw [lineFor_of_mem hwarehouse hline heq.symm]
    rfl

theorem mem_requestedItems (h : Consistent db) {i : InventoryItem} :
    i ∈ requestedItems request db ↔ i ∈ db.items ∧ (request.lineFor i).isSome = true :=
  h.items.mem_rowsWhere

theorem mem_reclaimed (h : Consistent db) {r : InventoryReservation} :
    r ∈ reclaimed request now db ↔ r ∈ db.reservations ∧ request.reclaims now db r = true := by
  rw [reclaimed, mem_lapsedOn h]
  simp only [ReservationRequest.reclaims, ReservationRequest.concerns, Bool.and_eq_true,
    List.any_eq_true, beq_iff_eq, mem_requestedItems h]
  constructor
  · rintro ⟨hmem, ⟨i, ⟨hi, hline⟩, hid⟩, hlapsed⟩
    exact ⟨hmem, hlapsed, i, hi, hid, hline⟩
  · rintro ⟨hmem, hlapsed, i, hi, hid, hline⟩
    exact ⟨hmem, ⟨i, ⟨hi, hline⟩, hid⟩, hlapsed⟩

theorem selected_reclaimed (h : Consistent db) (request : ReservationRequest) (now : Nat) :
    Selected (reclaimed request now db) db :=
  selected_lapsedOn h _ now

theorem runAlone_reclaim (h : Consistent db) (request : ReservationRequest) :
    (expireUnconfirmed (requestedItems request db)).runAlone now ids db =
      .ok (((reclaimed request now db).length, reclaimedItems request now db),
        db.expireRows (reclaimed request now db) now, ids) :=
  runAlone_expireUnconfirmed h fun _ hc => ((mem_requestedItems h).1 hc).1

/-! ## Loading the SKUs -/

theorem loadSkus_eq_ok {skuIds : List Nat} {skus : List Sku} : loadSkus skuIds db = .ok skus ↔
    skus = db.skus.filter (fun s => skuIds.contains s.id && s.deletedAt.isNone) ∧
      (∀ id ∈ skuIds, ∃ sku ∈ skus, sku.id = id) ∧ ∀ sku ∈ skus, sku.isActive = true := by
  have hmissing : ∀ skus : List Sku,
      skuIds.filter (fun id => !(skus.map (·.id)).contains id) = [] ↔
        ∀ id ∈ skuIds, ∃ sku ∈ skus, sku.id = id := by
    intro skus
    simp only [List.filter_eq_nil_iff, Bool.not_eq_true, Bool.not_eq_false',
      List.contains_iff_mem, List.mem_map]
  have hinactive : ∀ skus : List Sku, (skus.filter fun s => !s.isActive).map (·.code) = [] ↔
      ∀ sku ∈ skus, sku.isActive = true := by
    intro skus
    simp only [List.map_eq_nil_iff, List.filter_eq_nil_iff, Bool.not_eq_true, Bool.not_eq_false']
  unfold loadSkus
  constructor
  · intro h
    simp only at h
    split at h
    · cases h
    rename_i hnone
    split at h
    · cases h
    rename_i hactive
    cases h
    exact ⟨rfl, (hmissing _).1 (not_not.1 hnone), (hinactive _).1 (not_not.1 hactive)⟩
  · rintro ⟨rfl, hknown, hactive⟩
    simp only
    rw [if_neg (not_not.2 ((hmissing _).2 hknown)), if_neg (not_not.2 ((hinactive _).2 hactive))]

/-- Once the SKUs are loaded, the items locked are the requested ones. -/
theorem runAlone_lockItems {skus : List Sku}
    (h : loadSkus (request.lines.map (·.skuId)) db = .ok skus) :
    (lockItems request.warehouseId (skus.map (·.id))).runAlone now ids db =
      .ok (requestedItems request db, db, ids) := by
  obtain ⟨rfl, hknown, -⟩ := loadSkus_eq_ok.1 h
  have hids : ∀ id, id ∈ (db.skus.filter fun s =>
      (request.lines.map (·.skuId)).contains s.id && s.deletedAt.isNone).map (·.id) ↔
      id ∈ request.lines.map (·.skuId) := by
    intro id
    constructor
    · intro hid
      obtain ⟨sku, hsku, rfl⟩ := List.mem_map.1 hid
      have hmem := (List.mem_filter.1 hsku).2
      rw [Bool.and_eq_true, List.contains_iff_mem] at hmem
      exact hmem.1
    · intro hid
      obtain ⟨sku, hsku, rfl⟩ := hknown id hid
      exact List.mem_map_of_mem hsku
  have hsame : ∀ i ∈ db.items, (i.warehouseId == request.warehouseId && ((db.skus.filter fun s =>
      (request.lines.map (·.skuId)).contains s.id && s.deletedAt.isNone).map (·.id)).contains
        i.skuId) = (request.lineFor i).isSome := by
    intro i _
    rw [Bool.eq_iff_iff, isSome_lineFor, Bool.and_eq_true, beq_iff_eq, List.contains_iff_mem, hids]
  rw [requestedItems, ← Table.rowsWhere_congr hsame]
  exact Txn.runAlone_selectForUpdate ..

/-! ## The counters -/

theorem mem_reclaimedItems (h : Consistent db) {c : InventoryItem} :
    c ∈ reclaimedItems request now db ↔ ∃ i ∈ db.items, (request.lineFor i).isSome = true ∧
      i.unreserve (reclaimed request now db) = c := by
  simp only [reclaimedItems, List.mem_map, mem_requestedItems h, and_assoc]

/-- A hold is live or has lapsed. -/
theorem isLive_eq (now : Nat) (r : InventoryReservation) :
    isLive now r = (r.status == .held && !isLapsed now r) := by
  unfold isLive isLapsed
  cases r.status == .held with
  | false => rfl
  | true =>
    cases r.confirmedAt with
    | some t => rfl
    | none =>
      cases r.expiresAt with
      | none => rfl
      | some e =>
        rw [Bool.eq_iff_iff]
        simp

/-- On a requested item, what is held and not reclaimed is live. -/
theorem heldQty_sub_reclaimed (h : Consistent db) {i : InventoryItem} (hi : i ∈ db.items)
    (hline : (request.lineFor i).isSome = true) :
    heldQty db.reservations i.id - qtyOn (reclaimed request now db) i.id =
      liveQty now db.reservations i.id := by
  have hs := selected_reclaimed h request now
  have hmoved : heldQty (db.expireRows (reclaimed request now db) now).reservations i.id =
      heldQty db.reservations i.id - qtyOn (reclaimed request now db) i.id :=
    heldQty_moved hs h.reservations (by simp [InventoryReservation.release]) i.id
  have hrows : (db.expireRows (reclaimed request now db) now).reservations =
      db.reservations.map fun r =>
        if ((reclaimed request now db).map InventoryReservation.id).contains r.id then
          r.release "Unconfirmed hold expired" now else r := rfl
  rw [← hmoved, hrows, heldQty, Table.totalBy_map, liveQty]
  refine Table.totalBy_congr (fun r hr => ?_) (fun r hr hp => ?_)
  · rw [isLive_eq]
    split
    · -- a reclaimed hold counts on neither side
      rename_i hmem
      have hlapsed := ((mem_lapsedOn h).1 ((hs.contains_iff h.reservations hr).1 hmem)).2.2
      rw [hlapsed]
      simp [InventoryReservation.holds, InventoryReservation.release]
    · rename_i hnot
      rw [InventoryReservation.holds]
      by_cases hid : r.inventoryItemId = i.id
      · have hlive : isLapsed now r = false := by
          rw [← Bool.not_eq_true]
          intro hlapsed
          refine hnot ((hs.contains_iff h.reservations hr).2 ((mem_lapsedOn h).2 ⟨hr, ⟨i, ?_⟩,
            hlapsed⟩))
          exact ⟨(mem_requestedItems h).2 ⟨hi, hline⟩, hid.symm⟩
        rw [hlive, Bool.not_false, Bool.and_true]
      · rw [beq_eq_false_iff_ne.2 hid]
        rfl
  · split
    · rfl
    · rfl

/-- The stock a line may draw on: the position's, less the live holds. -/
theorem available_unreserve (h : Consistent db) {i : InventoryItem} (hi : i ∈ db.items)
    (hline : (request.lineFor i).isSome = true) :
    available (i.unreserve (reclaimed request now db)) =
      i.onHandQty - liveQty now db.reservations i.id := by
  rw [← heldQty_sub_reclaimed h hi hline, ← h.reserved i hi]
  rfl

/-! ## When it succeeds -/

/-- The check of reserve lets a request through if every SKU has an item and every line's item
covers it. -/
theorem requireStock_of_available {skus : List Sku} {items : List InventoryItem}
    (hskus : ∀ sku ∈ skus, ∃ i ∈ items, i.skuId = sku.id)
    (hlines : ∀ line ∈ request.lines, ∃ i, items.find? (·.skuId == line.skuId) = some i ∧
      line.quantity ≤ available i) : requireStock request skus items = .ok () := by
  have hmissing : (skus.filter fun s => !items.any (·.skuId == s.id)).map (·.code) = [] := by
    rw [List.map_eq_nil_iff, List.filter_eq_nil_iff]
    intro sku hsku
    simpa using hskus sku hsku
  have hshort : ∀ lines : List ReservationLineRequest, (∀ line ∈ lines, line ∈ request.lines) →
      lines.mapM (shortfall skus items) = .ok (lines.map fun _ => none) := by
    intro lines hsub
    induction lines with
    | nil => rfl
    | cons line lines ih =>
      obtain ⟨i, hi, hqty⟩ := hlines line (hsub line List.mem_cons_self)
      have hline : shortfall skus items line = .ok none := by
        simp only [shortfall, hi]
        rw [if_neg (Int.not_lt.2 hqty)]
        rfl
      rw [List.mapM_cons, hline, ih fun l hl => hsub l (List.mem_cons_of_mem _ hl)]
      rfl
  have hnone : (request.lines.map fun _ => (none : Option String)).filterMap id = [] := by
    simp [List.filterMap_map]
  unfold requireStock
  simp only [hshort request.lines fun _ hl => hl, Bind.bind, Except.bind]
  rw [if_neg (not_not.2 hmissing), if_neg (not_not.2 hnone)]

/-- The item that serves a line is the only copy with its SKU. -/
theorem find_reclaimedItems (h : Consistent db) {i : InventoryItem} (hi : i ∈ db.items)
    {line : ReservationLineRequest} (hline : request.lineFor i = some line) :
    (reclaimedItems request now db).find? (·.skuId == line.skuId) =
      some (i.unreserve (reclaimed request now db)) := by
  obtain ⟨hwarehouse, -, hsku⟩ := lineFor_eq_some hline
  have hmem : i.unreserve (reclaimed request now db) ∈ reclaimedItems request now db :=
    (mem_reclaimedItems h).2 ⟨i, hi, by rw [hline]; rfl, rfl⟩
  cases hfind : (reclaimedItems request now db).find? (·.skuId == line.skuId) with
  | none =>
    have hnone := List.find?_eq_none.1 hfind _ hmem
    exact absurd (beq_iff_eq.2 hsku.symm) hnone
  | some c =>
    obtain ⟨i', hi', hline', rfl⟩ := (mem_reclaimedItems h).1 (List.mem_of_find?_eq_some hfind)
    have hfound := List.find?_some hfind
    have hsku' : i'.skuId = line.skuId := beq_iff_eq.1 hfound
    have hsame : i' = i := by
      refine List.inj_on_of_nodup_map h.positions hi' hi ?_
      rw [(isSome_lineFor.1 hline').1, hwarehouse, hsku', hsku]
    rw [hsame]

/-- What a first reserve has passed when it comes to an answer. -/
theorem firstHold_eq_ok {answer : ReservationResult} {holds : List InventoryReservation}
    (h : firstHold unconfirmedHold now ids request db = .ok (answer, holds)) :
    ∃ ref skus final,
      requireOperational "stock there cannot be held." db.warehouseRefs request.warehouseId =
        .ok ref ∧
      loadSkus (request.lines.map (·.skuId)) db = .ok skus ∧
      requireStock request skus (reclaimedItems request now db) = .ok () ∧
      holdEach request (now + unconfirmedHold)
        (request.lines.zip (List.range' ids request.lines.length))
        (reclaimedItems request now db) = .ok (final, holds) ∧
      result request.shipmentId request.warehouseId holds skus = .ok answer := by
  unfold firstHold at h
  simp only [Bind.bind, Except.bind] at h
  split at h
  · cases h
  rename_i ref href
  split at h
  · cases h
  rename_i skus hskus
  split at h
  · cases h
  rename_i hstock
  split at h
  · cases h
  rename_i out hloop
  split at h
  · cases h
  rename_i found hresult
  cases h
  exact ⟨ref, skus, out.1, href, hskus, hstock, hloop, hresult⟩

/-- The lines of a request, each with its id. -/
theorem mem_of_mem_zip_ids {entry : ReservationLineRequest × Nat}
    (h : entry ∈ request.lines.zip (List.range' ids request.lines.length)) :
    entry.1 ∈ request.lines := (List.of_mem_zip (a := entry.1) (b := entry.2) h).1

/-- The holds of a request whose SKUs were loaded have an answer. -/
theorem result_of_loaded {skus : List Sku}
    (hskus : loadSkus (request.lines.map (·.skuId)) db = .ok skus)
    {expiresAt : Nat} {copies final : List InventoryItem} {holds : List InventoryReservation}
    (hloop : holdEach request expiresAt (request.lines.zip (List.range' ids request.lines.length))
      copies = .ok (final, holds)) :
    ∃ answer, result request.shipmentId request.warehouseId holds skus = .ok answer := by
  refine result_of_skus fun r hr => ?_
  obtain ⟨-, -, hholds⟩ := holdEach_spec _ hloop fun _ => mem_of_mem_zip_ids
  obtain ⟨line, hline, hsku, -⟩ := (hholds r hr).line
  rw [← hsku]
  exact (loadSkus_eq_ok.1 hskus).2.1 _ (List.mem_map_of_mem hline)

/-- A first reserve comes to an answer exactly if the request is reservable. -/
theorem firstHold_ok_iff (h : Consistent db) :
    (∃ out, firstHold unconfirmedHold now ids request db = .ok out) ↔
      Reservable now request db := by
  constructor
  · rintro ⟨⟨answer, holds⟩, hout⟩
    obtain ⟨ref, skus, final, href, hskus, hstock, -, -⟩ := firstHold_eq_ok hout
    obtain ⟨rfl, hknown, hactive⟩ := loadSkus_eq_ok.1 hskus
    refine ⟨?_, ?_, ?_, ?_⟩
    · unfold requireOperational at href
      split at href
      · cases href
      rename_i ref' hfind
      split at href
      · rename_i hoperational
        exact ⟨ref', hfind, hoperational⟩
      · cases href
    · intro line hline
      obtain ⟨sku, hsku, hid⟩ := hknown _ (List.mem_map_of_mem hline)
      obtain ⟨hmem, hlive⟩ := List.mem_filter.1 hsku
      rw [Bool.and_eq_true, Option.isNone_iff_eq_none] at hlive
      exact ⟨sku, hmem, hid, hlive.2⟩
    · intro line hline sku hsku hid hlive
      refine hactive sku (List.mem_filter.2 ⟨hsku, ?_⟩)
      rw [Bool.and_eq_true, List.contains_iff_mem, hid, hlive]
      exact ⟨List.mem_map_of_mem hline, rfl⟩
    · intro line hline
      obtain ⟨c, hc, hsku, hqty⟩ := available_of_requireStock hstock line hline
      obtain ⟨i, hi, hfor, rfl⟩ := (mem_reclaimedItems h).1 hc
      rw [available_unreserve h hi hfor] at hqty
      exact ⟨i, hi, (isSome_lineFor.1 hfor).1, hsku, hqty⟩
  · rintro ⟨⟨ref, hfind, hoperational⟩, hknown, hactive, hcovered⟩
    have href : requireOperational "stock there cannot be held." db.warehouseRefs
        request.warehouseId = .ok ref := by
      simp only [requireOperational, hfind]
      rw [if_pos hoperational]
    obtain ⟨skus, hskus⟩ : ∃ skus, loadSkus (request.lines.map (·.skuId)) db = .ok skus := by
      refine ⟨_, loadSkus_eq_ok.2 ⟨rfl, fun id hid => ?_, fun sku hsku => ?_⟩⟩
      · obtain ⟨line, hline, rfl⟩ := List.mem_map.1 hid
        obtain ⟨sku, hsku, heq, hlive⟩ := hknown line hline
        refine ⟨sku, List.mem_filter.2 ⟨hsku, ?_⟩, heq⟩
        rw [Bool.and_eq_true, List.contains_iff_mem, heq, hlive]
        exact ⟨hid, rfl⟩
      · obtain ⟨hmem, hlive⟩ := List.mem_filter.1 hsku
        rw [Bool.and_eq_true, List.contains_iff_mem, Option.isNone_iff_eq_none] at hlive
        obtain ⟨line, hline, heq⟩ := List.mem_map.1 hlive.1
        exact hactive line hline sku hmem heq.symm hlive.2
    obtain ⟨hfiltered, -, -⟩ := loadSkus_eq_ok.1 hskus
    -- every line has its copy, and the copy covers it
    have hserved : ∀ line ∈ request.lines, ∃ i ∈ db.items, request.lineFor i = some line ∧
        line.quantity ≤ available (i.unreserve (reclaimed request now db)) := by
      intro line hline
      obtain ⟨i, hi, hwarehouse, hsku, hqty⟩ := hcovered line hline
      have hfor := lineFor_of_mem hwarehouse hline hsku
      refine ⟨i, hi, hfor, ?_⟩
      rw [available_unreserve h hi (by rw [hfor]; rfl)]
      exact hqty
    have hcopy : ∀ line ∈ request.lines, ∃ c ∈ reclaimedItems request now db,
        c.skuId = line.skuId := by
      intro line hline
      obtain ⟨i, hi, hfor, -⟩ := hserved line hline
      exact ⟨_, (mem_reclaimedItems h).2 ⟨i, hi, by rw [hfor]; rfl, rfl⟩,
        (lineFor_eq_some hfor).2.2.symm⟩
    have hstock : requireStock request skus (reclaimedItems request now db) = .ok () := by
      refine requireStock_of_available (fun sku hsku => ?_) fun line hline => ?_
      · rw [hfiltered] at hsku
        have hid := (List.mem_filter.1 hsku).2
        rw [Bool.and_eq_true, List.contains_iff_mem] at hid
        obtain ⟨line, hline, heq⟩ := List.mem_map.1 hid.1
        rw [← heq]
        exact hcopy line hline
      · obtain ⟨i, hi, hfor, hqty⟩ := hserved line hline
        exact ⟨_, find_reclaimedItems h hi hfor, hqty⟩
    obtain ⟨final, holds, hloop⟩ : ∃ final holds, holdEach request (now + unconfirmedHold)
        (request.lines.zip (List.range' ids request.lines.length))
        (reclaimedItems request now db) = .ok (final, holds) :=
      holdEach_of_found _ fun entry hentry => hcopy entry.1 (mem_of_mem_zip_ids hentry)
    obtain ⟨answer, hanswer⟩ := result_of_loaded hskus hloop
    refine ⟨(answer, holds), ?_⟩
    simp only [firstHold, href, hskus, hstock, hloop, hanswer, Bind.bind, Except.bind]
    rfl

/-! ## What it leaves -/

/-- Reserve's loop gives the holds the ids of their lines. -/
theorem holdEach_ids {expiresAt : Nat} {lines : List (ReservationLineRequest × Nat)}
    {copies final : List InventoryItem} {holds : List InventoryReservation}
    (h : holdEach request expiresAt lines copies = .ok (final, holds)) :
    holds.map (·.id) = lines.map Prod.snd := by
  induction lines generalizing copies final holds with
  | nil =>
    cases h
    rfl
  | cons entry lines ih =>
    obtain ⟨line, id⟩ := entry
    simp only [holdEach] at h
    split at h
    · cases h
    simp only [Bind.bind, Except.bind] at h
    split at h
    · cases h
    split at h
    · cases h
    rename_i out hrest
    cases h
    exact congrArg (id :: ·) (ih hrest)

/-- The holds a first reserve makes. -/
structure FirstHolds (unconfirmedHold now ids : Nat) (request : ReservationRequest) (db : Db)
    (holds : List InventoryReservation) : Prop where
  lines : holds.map (fun r => (r.skuId, r.quantity)) =
    request.lines.map (fun line => (line.skuId, line.quantity))
  ids : holds.map (·.id) = List.range' ids request.lines.length
  item : ∀ r ∈ holds, ∃ i ∈ db.items, i.id = r.inventoryItemId ∧
    ∃ line, request.lineFor i = some line ∧ line.skuId = r.skuId ∧ line.quantity = r.quantity
  holdFor : ∀ r ∈ holds, HoldFor request (now + unconfirmedHold)
    (reclaimedItems request now db) r

theorem firstHolds (h : Consistent db) {answer : ReservationResult}
    {holds : List InventoryReservation}
    (hout : firstHold unconfirmedHold now ids request db = .ok (answer, holds)) :
    FirstHolds unconfirmedHold now ids request db holds := by
  obtain ⟨-, -, final, -, -, -, hloop, -⟩ := firstHold_eq_ok hout
  obtain ⟨-, hkeys, hholds⟩ := holdEach_spec _ hloop fun _ => mem_of_mem_zip_ids
  have hlength : request.lines.length = (List.range' ids request.lines.length).length :=
    List.length_range'.symm
  refine ⟨?_, ?_, fun r hr => ?_, hholds⟩
  · have hzip := congrArg (List.map fun line : ReservationLineRequest =>
      (line.skuId, line.quantity)) (List.map_fst_zip (Nat.le_of_eq hlength))
    rw [List.map_map] at hzip
    exact hkeys.trans hzip
  · rw [holdEach_ids hloop]
    exact List.map_snd_zip (Nat.le_of_eq hlength.symm)
  · obtain ⟨c, hc, hid, hsku⟩ := (hholds r hr).item
    obtain ⟨i, hi, hfor, rfl⟩ := (mem_reclaimedItems h).1 hc
    obtain ⟨line, hline, hlsku, hqty⟩ := (hholds r hr).line
    exact ⟨i, hi, hid, line,
      lineFor_of_mem (isSome_lineFor.1 hfor).1 hline (hsku.trans hlsku.symm), hlsku, hqty⟩

namespace FirstHolds

variable {holds : List InventoryReservation}

theorem nodup_skus (h : FirstHolds unconfirmedHold now ids request db holds) :
    (holds.map (·.skuId)).Nodup := by
  have hmap := congrArg (List.map Prod.fst) h.lines
  rw [List.map_map, List.map_map] at hmap
  have hskus : holds.map (·.skuId) = request.lines.map (·.skuId) := hmap
  rw [hskus]
  exact request.unique_skus

/-- No item gets two of the holds. -/
theorem keyed (h : FirstHolds unconfirmedHold now ids request db holds) (hc : Consistent db) :
    Table.Keyed InventoryReservation.inventoryItemId holds := by
  refine List.Nodup.map_on (fun a ha b hb hab => ?_) (List.Nodup.of_map _ h.nodup_skus)
  obtain ⟨i, hi, hid, line, hline, hsku, -⟩ := h.item a ha
  obtain ⟨i', hi', hid', line', hline', hsku', -⟩ := h.item b hb
  obtain rfl := hc.items.eq_of_key hi hi' (hid.trans (hab.trans hid'.symm))
  rw [hline] at hline'
  cases hline'
  exact List.inj_on_of_nodup_map h.nodup_skus ha hb (hsku.symm.trans hsku')

/-- The item of a line has the hold of that line. -/
theorem exists_hold (h : FirstHolds unconfirmedHold now ids request db holds) (hc : Consistent db)
    {i : InventoryItem} (hi : i ∈ db.items) {line : ReservationLineRequest}
    (hline : request.lineFor i = some line) :
    ∃ r ∈ holds, r.inventoryItemId = i.id ∧ r.quantity = line.quantity := by
  obtain ⟨hwarehouse, hmem, hsku⟩ := lineFor_eq_some hline
  have hpair : (line.skuId, line.quantity) ∈ holds.map fun r => (r.skuId, r.quantity) := by
    rw [h.lines]
    exact List.mem_map_of_mem hmem
  obtain ⟨r, hr, heq⟩ := List.mem_map.1 hpair
  rw [Prod.mk.injEq] at heq
  obtain ⟨i', hi', hid, line', hline', hsku', -⟩ := h.item r hr
  obtain ⟨hwarehouse', -, hlsku⟩ := lineFor_eq_some hline'
  have hsame : i' = i := by
    refine List.inj_on_of_nodup_map hc.positions hi' hi ?_
    rw [hwarehouse', hwarehouse, ← hlsku, hsku', heq.1, hsku]
  exact ⟨r, hr, by rw [← hid, hsame], heq.2⟩

theorem qtyOn_eq (h : FirstHolds unconfirmedHold now ids request db holds) (hc : Consistent db)
    {i : InventoryItem} (hi : i ∈ db.items) {line : ReservationLineRequest}
    (hline : request.lineFor i = some line) :
    qtyOn holds i.id = line.quantity ∧ countOn holds i.id = 1 := by
  obtain ⟨r, hr, hid, hqty⟩ := h.exists_hold hc hi hline
  rw [← hid, ← hqty]
  exact ⟨(h.keyed hc).totalBy_of_mem hr, (h.keyed hc).totalBy_of_mem hr⟩

theorem not_on_other (h : FirstHolds unconfirmedHold now ids request db holds)
    (hc : Consistent db) {i : InventoryItem} (hi : i ∈ db.items)
    (hnone : request.lineFor i = none) : ∀ r ∈ holds, r.inventoryItemId ≠ i.id := by
  intro r hr hid
  obtain ⟨i', hi', hid', line, hline, -⟩ := h.item r hr
  rw [hc.items.eq_of_key hi' hi (hid'.trans hid), hnone] at hline
  cases hline

end FirstHolds

/-- Reclaiming leaves the counters of the other items alone. -/
theorem unreserve_reclaimed_of_none (h : Consistent db) {i : InventoryItem} (hi : i ∈ db.items)
    (hnone : request.lineFor i = none) : i.unreserve (reclaimed request now db) = i := by
  refine InventoryItem.unreserve_of_not_mem fun r hr hid => ?_
  obtain ⟨c, hc, hcid⟩ := ((mem_lapsedOn h).1 hr).2.1
  obtain ⟨hmem, hline⟩ := (mem_requestedItems h).1 hc
  rw [h.items.eq_of_key hmem hi (hcid.trans hid), hnone] at hline
  cases hline

/-- On a requested item, the lapsed holds are the reclaimed ones. -/
theorem countOn_reclaimed (h : Consistent db) {i : InventoryItem} (hi : i ∈ db.items)
    (hline : (request.lineFor i).isSome = true) :
    countOn (reclaimed request now db) i.id =
      countOn (db.reservations.filter (isLapsed now)) i.id := by
  refine Table.totalBy_eq_of_mem (selected_reclaimed h request now).nodup
    (h.reservations.nodup.filter _) fun r => ?_
  rw [List.mem_filter, reclaimed, mem_lapsedOn h, beq_iff_eq]
  constructor
  · rintro ⟨⟨hr, -, hlapsed⟩, hid⟩
    exact ⟨⟨hr, hlapsed⟩, hid⟩
  · rintro ⟨⟨hr, hlapsed⟩, hid⟩
    exact ⟨⟨hr, ⟨i, (mem_requestedItems h).2 ⟨hi, hline⟩, hid.symm⟩, hlapsed⟩, hid⟩

/-- The state a first reserve leaves, but for its events. -/
def firstState (request : ReservationRequest) (now : Nat) (holds : List InventoryReservation)
    (db : Db) : Db :=
  (db.expireRows (reclaimed request now db) now).holdRows holds

theorem firstState_items (holds : List InventoryReservation) :
    (firstState request now holds db).items =
    db.items.map fun i => (i.unreserve (reclaimed request now db)).reserve holds :=
  List.map_map ..

/-- The row, released if it is one of the listed holds. -/
def expireRow (holds : List InventoryReservation) (now : Nat) (r : InventoryReservation) :
    InventoryReservation :=
  if (holds.map InventoryReservation.id).contains r.id then
    r.release "Unconfirmed hold expired" now else r

theorem expireRow_eq (h : Consistent db) {holds : List InventoryReservation}
    (hs : Selected holds db) {r : InventoryReservation} (hr : r ∈ db.reservations) :
    expireRow holds now r = if r ∈ holds then r.release "Unconfirmed hold expired" now else r := by
  rw [expireRow]
  exact if_congr (hs.contains_iff h.reservations hr) rfl rfl

theorem firstState_reservations (holds : List InventoryReservation) :
    (firstState request now holds db).reservations =
      db.reservations.map (expireRow (reclaimed request now db) now) ++ holds := rfl

theorem heldFirst_firstState (h : Consistent db) {holds : List InventoryReservation}
    (hholds : FirstHolds unconfirmedHold now ids request db holds) :
    HeldFirst unconfirmedHold now request db (firstState request now holds db) where
  items := by
    rw [firstState_items]
    refine List.map_congr_left fun i hi => ?_
    unfold ReservationRequest.heldItem
    cases hline : request.lineFor i with
    | none =>
      rw [unreserve_reclaimed_of_none h hi hline,
        InventoryItem.reserve_of_not_mem (hholds.not_on_other h hi hline)]
    | some line =>
      have hsome : (request.lineFor i).isSome = true := by rw [hline]; rfl
      obtain ⟨hqty, hcount⟩ := hholds.qtyOn_eq h hi hline
      simp only [InventoryItem.unreserve, InventoryItem.reserve, hqty, hcount,
        ← heldQty_sub_reclaimed h hi hsome, ← countOn_reclaimed h hi hsome, h.reserved i hi]
  reservations := by
    refine ⟨holds, ?_, hholds.lines, fun r hr => { hholds.holdFor r hr with item := ?_ }⟩
    · rw [firstState_reservations]
      refine congrArg (· ++ holds) (List.map_congr_left fun r hr => ?_)
      rw [expireRow_eq h (selected_reclaimed h request now) hr]
      exact if_congr ((mem_reclaimed h).trans (and_iff_right hr)) rfl rfl
    · obtain ⟨i, hi, hid, line, hline, hsku, -⟩ := hholds.item r hr
      obtain ⟨hwarehouse, -, hlsku⟩ := lineFor_eq_some hline
      exact ⟨i, List.mem_filter.2 ⟨hi, beq_iff_eq.2 hwarehouse⟩, hid, hlsku.symm.trans hsku⟩
  skus := rfl
  warehouseRefs := rfl
  movements := rfl

/-- The rows of the new holds collide with no row of the table. -/
theorem uniqueKeys_holdRows (h : UniqueKeys db) {holds : List InventoryReservation}
    (hids : (holds.map (·.id)).Nodup)
    (hfresh : ∀ r ∈ db.reservations, ∀ x ∈ holds, r.id ≠ x.id)
    (hskus : (holds.map (·.skuId)).Nodup)
    (hfirst : ∀ r ∈ db.reservations, ∀ x ∈ holds, r.shipmentId ≠ x.shipmentId) :
    UniqueKeys (db.holdRows holds) where
  items := by
    have hsame : (db.holdRows holds).items = db.items.map (InventoryItem.reserve holds) := rfl
    rw [hsame]
    exact (Table.keyed_map fun i => (rfl : (i.reserve holds).id = i.id)).2 h.items
  positions := by
    have hsame : (db.holdRows holds).items.map (fun i => (i.warehouseId, i.skuId)) =
        db.items.map fun i => (i.warehouseId, i.skuId) := by
      simp only [Db.holdRows, Db.insertReservations, List.map_map]
      rfl
    rw [hsame]
    exact h.positions
  reservations := by
    have hrows : (db.holdRows holds).reservations = db.reservations ++ holds := rfl
    rw [Table.Keyed, hrows, List.map_append, List.nodup_append]
    refine ⟨h.reservations, hids, fun a ha b hb heq => ?_⟩
    obtain ⟨r, hr, rfl⟩ := List.mem_map.1 ha
    obtain ⟨x, hx, rfl⟩ := List.mem_map.1 hb
    exact hfresh r hr x hx heq
  lines := by
    have hrows : (db.holdRows holds).reservations = db.reservations ++ holds := rfl
    rw [hrows, List.map_append, List.nodup_append]
    refine ⟨h.lines, ?_, fun a ha b hb heq => ?_⟩
    · refine List.Nodup.of_map Prod.snd ?_
      rw [List.map_map]
      exact hskus
    · obtain ⟨r, hr, rfl⟩ := List.mem_map.1 ha
      obtain ⟨x, hx, rfl⟩ := List.mem_map.1 hb
      exact hfirst r hr x hx (Prod.ext_iff.1 heq).1

theorem consistent_firstState (h : Consistent db)
    (hfirst : forShipment request.shipmentId db = [])
    (hfresh : ∀ r ∈ db.reservations, ∀ k < request.lines.length, r.id ≠ ids + k)
    {answer : ReservationResult} {holds : List InventoryReservation}
    (hout : firstHold unconfirmedHold now ids request db = .ok (answer, holds)) :
    Consistent (firstState request now holds db) := by
  have hholds := firstHolds h hout
  obtain ⟨-, skus, -, -, -, hstock, -, -⟩ := firstHold_eq_ok hout
  -- the lapsed holds go first, then the new ones come within what is available
  have hmid : Consistent (db.expireRows (reclaimed request now db) now) :=
    h.expired (selected_reclaimed h request now) now
  have hcopies : ∀ c ∈ reclaimedItems request now db,
      c ∈ (db.expireRows (reclaimed request now db) now).items := by
    intro c hc
    obtain ⟨i, hi, -, rfl⟩ := (mem_reclaimedItems h).1 hc
    exact List.mem_map_of_mem hi
  have hwarehouse : ∀ c ∈ reclaimedItems request now db,
      c.warehouseId = request.warehouseId := by
    intro c hc
    obtain ⟨i, -, hline, rfl⟩ := (mem_reclaimedItems h).1 hc
    exact (isSome_lineFor.1 hline).1
  have havail := available_of_holds hmid hcopies hwarehouse hstock hholds.lines hholds.holdFor
  obtain ⟨hchecks, haccounts⟩ := hmid.holdRows (fun r hr => by
      obtain ⟨c, hc, hid, -⟩ := (hholds.holdFor r hr).item
      exact ⟨c, hcopies c hc, hid⟩)
    (fun r hr => by
      obtain ⟨line, -, -, hqty⟩ := (hholds.holdFor r hr).line
      exact hqty ▸ line.quantity_pos)
    (fun r hr => (hholds.holdFor r hr).status)
    (fun r hr => by rw [(hholds.holdFor r hr).expires]; rfl) havail
  refine ⟨hchecks, uniqueKeys_holdRows hmid.toUniqueKeys ?_ ?_ hholds.nodup_skus ?_, haccounts⟩
  · rw [hholds.ids]
    exact List.nodup_range'
  · intro r hr x hx
    obtain ⟨r₀, hr₀, hid, -⟩ := line_of_mem_writeReservations (keepsLine_release _ _) hr
    have hmem : x.id ∈ List.range' ids request.lines.length := by
      rw [← hholds.ids]
      exact List.mem_map_of_mem hx
    obtain ⟨k, hk, hkid⟩ := List.mem_range'.1 hmem
    rw [hid, hkid, Nat.one_mul]
    exact hfresh r₀ hr₀ k hk
  · -- the shipment has no other row
    intro r hr x hx heq
    obtain ⟨r₀, hr₀, -, -, hship, -⟩ := line_of_mem_writeReservations (keepsLine_release _ _) hr
    rw [hship, (hholds.holdFor x hx).shipment] at heq
    have hmem : r₀ ∈ forShipment request.shipmentId db :=
      List.mem_filter.2 ⟨hr₀, beq_iff_eq.2 heq⟩
    rw [hfirst] at hmem
    exact List.not_mem_nil hmem

/-- A first reserve, run alone: it answers what `firstHold` answers. -/
theorem runAlone_reserve (h : Consistent db) (hfirst : forShipment request.shipmentId db = [])
    (hfresh : ∀ r ∈ db.reservations, ∀ k < request.lines.length, r.id ≠ ids + k) :
    (reserve unconfirmedHold request).runAlone now ids db =
      (firstHold unconfirmedHold now ids request db).map fun out =>
        ((out.1, true), (firstState request now out.2 db).stage
          [emitStockEvent "stock.reserved" request.shipmentId request.warehouseId out.2 none],
          ids + request.lines.length) := by
  -- a refusal is the same in both, wherever it comes
  have herror : ∀ e : Failure, firstHold unconfirmedHold now ids request db = .error e →
      (firstHold unconfirmedHold now ids request db).map (fun out =>
        ((out.1, true), (firstState request now out.2 db).stage
          [emitStockEvent "stock.reserved" request.shipmentId request.warehouseId out.2 none],
          ids + request.lines.length)) = .error e := fun e he => by
    rw [he]
    rfl
  unfold reserve
  simp only [Txn.bind_eq]
  rw [Txn.runAlone_select_bind, hfirst, if_neg (by simp), Txn.runAlone_select_bind,
    Txn.runAlone_ofExcept_bind]
  cases href : requireOperational "stock there cannot be held." db.warehouseRefs
      request.warehouseId with
  | error e =>
    rw [herror e (by simp only [firstHold, href, Bind.bind, Except.bind])]
    rfl
  | ok ref =>
  simp only [Except.bind]
  rw [Txn.runAlone_select_bind, Txn.runAlone_ofExcept_bind]
  cases hskus : loadSkus (request.lines.map (·.skuId)) db with
  | error e =>
    rw [herror e (by simp only [firstHold, href, hskus, Bind.bind, Except.bind])]
    rfl
  | ok skus =>
  simp only [Except.bind]
  rw [Txn.runAlone_bind_of_ok (runAlone_lockItems hskus),
    Txn.runAlone_bind_of_ok (runAlone_reclaim h request), Txn.runAlone_ofExcept_bind]
  cases hstock : requireStock request skus (reclaimedItems request now db) with
  | error e =>
    rw [herror e (by simp only [firstHold, href, hskus, hstock, Bind.bind, Except.bind])]
    rfl
  | ok _ =>
  simp only [Except.bind]
  rw [Txn.runAlone_now_bind, Txn.runAlone_bind_of_ok (runAlone_freshIds _),
    Txn.runAlone_ofExcept_bind]
  cases hloop : holdEach request (now + unconfirmedHold)
      (request.lines.zip (List.range' ids request.lines.length))
      (reclaimedItems request now db) with
  | error e =>
    rw [herror e (by simp only [firstHold, href, hskus, hstock, hloop, Bind.bind, Except.bind])]
    rfl
  | ok out =>
  obtain ⟨final, holds⟩ := out
  obtain ⟨answer, hanswer⟩ := result_of_loaded hskus hloop
  have hout : firstHold unconfirmedHold now ids request db = .ok (answer, holds) := by
    simp only [firstHold, href, hskus, hstock, hloop, hanswer, Bind.bind, Except.bind]
    rfl
  -- the flush is accepted: it leaves a consistent state
  obtain ⟨rfl, -, hholds⟩ := holdEach_spec _ hloop fun _ => mem_of_mem_zip_ids
  have hsent : (((db.expireRows (reclaimed request now db) now).writeItems
      ((reclaimedItems request now db).map (InventoryItem.reserve holds))).insertReservations
        holds).check = .ok (firstState request now holds db) := by
    rw [writeItems_hold (h.expired (selected_reclaimed h request now) now) (fun c hc => by
      obtain ⟨i, hi, -, rfl⟩ := (mem_reclaimedItems h).1 hc
      exact List.mem_map_of_mem hi) hholds]
    exact (consistent_firstState h hfirst hfresh hout).check
  simp only [Except.bind]
  rw [Txn.runAlone_write_bind, hout, hsent]
  simp only [Except.bind]
  rw [Txn.runAlone_write_bind]
  simp only [Except.bind]
  rw [Txn.runAlone_ofExcept_bind, hanswer]
  rfl

end SmartLogistics.Inventory
