import SmartLogistics.Inventory.FirstReserve
import SmartLogistics.Inventory.Repeats

/-!
# A reserve for another shipment

What a reserve answers and does when it runs alone, and how this depends on the id of its shipment.
Of two shipments without reservations both get the same, up to the id (`firstHold_under`,
`firstState_under`). A shipment that has reservations never gets what one without would: a refusal
has another code (`code_of_firstHold`, `code_of_replay`), and an answer comes without a new hold
(`runAlone_reserve_again`).
-/

set_option autoImplicit false

namespace SmartLogistics.Inventory

open SmartLogistics.Library SmartLogistics.Platform SmartLogistics.Warehouse

variable {unconfirmedHold now ids shipmentId : Nat} {db : Db} {request : ReservationRequest}

/-! ## Another shipment -/

/-- The request for another shipment. -/
def ReservationRequest.under (shipmentId : Nat) (request : ReservationRequest) :
    ReservationRequest := { request with shipmentId := shipmentId }

/-- The row for another shipment. -/
def InventoryReservation.under (shipmentId : Nat) (r : InventoryReservation) :
    InventoryReservation := { r with shipmentId := shipmentId }

/-- The answer for another shipment. -/
def ReservationResult.under (shipmentId : Nat) (answer : ReservationResult) : ReservationResult :=
  { answer with shipmentId := shipmentId }

theorem holdEach_under {expiresAt : Nat} (lines : List (ReservationLineRequest × Nat))
    (copies : List InventoryItem) :
    holdEach (request.under shipmentId) expiresAt lines copies =
      (holdEach request expiresAt lines copies).map fun out =>
        (out.1, out.2.map (InventoryReservation.under shipmentId)) := by
  induction lines generalizing copies with
  | nil => rfl
  | cons entry lines ih =>
    obtain ⟨line, id⟩ := entry
    simp only [holdEach]
    split
    · rfl
    · rename_i item _
      cases hcopies : updateCopy item.id (holdOne line) copies with
      | error e => rfl
      | ok copies' =>
        simp only [Bind.bind, Except.bind, ih copies']
        cases holdEach request expiresAt lines copies' with
        | error e => rfl
        | ok out => rfl

theorem result_under (id warehouseId : Nat) (holds : List InventoryReservation) (skus : List Sku) :
    result shipmentId warehouseId (holds.map (InventoryReservation.under shipmentId)) skus =
      (result id warehouseId holds skus).map (ReservationResult.under shipmentId) := by
  have hsort : (holds.map (InventoryReservation.under shipmentId)).insertionSort
      (fun a b => a.skuId ≤ b.skuId) =
        (holds.insertionSort fun a b => a.skuId ≤ b.skuId).map
          (InventoryReservation.under shipmentId) :=
    (List.map_insertionSort (fun a b : InventoryReservation => a.skuId ≤ b.skuId)
      (fun a b : InventoryReservation => a.skuId ≤ b.skuId)
      (InventoryReservation.under shipmentId) holds fun _ _ _ _ => Iff.rfl).symm
  have hlines : ∀ rows : List InventoryReservation,
      (rows.map (InventoryReservation.under shipmentId)).mapM (reservedLine skus) =
        rows.mapM (reservedLine skus) := by
    intro rows
    induction rows with
    | nil => rfl
    | cons r rows ih =>
      rw [List.map_cons, List.mapM_cons, List.mapM_cons, ih]
      rfl
  simp only [result, hsort, hlines, List.map_map, List.all_map, List.filterMap_map]
  cases (holds.insertionSort fun a b => a.skuId ≤ b.skuId).mapM (reservedLine skus) with
  | error e => rfl
  | ok lines => rfl

/-- A first reserve for another shipment answers the same, and makes the same holds. -/
theorem firstHold_under :
    firstHold unconfirmedHold now ids (request.under shipmentId) db =
      (firstHold unconfirmedHold now ids request db).map fun out =>
        (out.1.under shipmentId, out.2.map (InventoryReservation.under shipmentId)) := by
  have hcopies : reclaimedItems (request.under shipmentId) now db = reclaimedItems request now db :=
    rfl
  have hstock : ∀ skus copies, requireStock (request.under shipmentId) skus copies =
      requireStock request skus copies := fun _ _ => rfl
  have hlines : (request.under shipmentId).lines = request.lines := rfl
  have hwarehouse : (request.under shipmentId).warehouseId = request.warehouseId := rfl
  have hshipment : (request.under shipmentId).shipmentId = shipmentId := rfl
  simp only [firstHold, hcopies, hstock, hlines, hwarehouse, hshipment, holdEach_under, Bind.bind,
    Except.bind]
  cases requireOperational "stock there cannot be held." db.warehouseRefs request.warehouseId with
  | error e => rfl
  | ok ref =>
  cases loadSkus (request.lines.map (·.skuId)) db with
  | error e => rfl
  | ok skus =>
  dsimp only
  cases requireStock request skus (reclaimedItems request now db) with
  | error e => rfl
  | ok _ =>
  dsimp only
  cases holdEach request (now + unconfirmedHold)
      (request.lines.zip (List.range' ids request.lines.length))
      (reclaimedItems request now db) with
  | error e => rfl
  | ok out =>
  dsimp only [Except.map]
  rw [result_under request.shipmentId]
  cases result request.shipmentId request.warehouseId out.2 skus with
  | error e => rfl
  | ok answer => rfl

theorem reserve_under (i : InventoryItem) (holds : List InventoryReservation) :
    i.reserve (holds.map (InventoryReservation.under shipmentId)) = i.reserve holds := by
  simp only [InventoryItem.reserve, qtyOn, countOn, Table.totalBy_map]
  rfl

/-- A first reserve for another shipment leaves the same counters. -/
theorem firstState_under (holds : List InventoryReservation) :
    (firstState (request.under shipmentId) now
      (holds.map (InventoryReservation.under shipmentId)) db).items =
        (firstState request now holds db).items := by
  rw [firstState_items, firstState_items]
  exact List.map_congr_left fun i _ => reserve_under _ holds

/-! ## Refusals of a first reserve -/

/-- The code of the answer a failure becomes. -/
def Failure.code (failure : Failure) : String := (failure.problem fun _ => none).code

/-- Once the SKUs are loaded, only a shortfall is refused. -/
theorem code_of_requireStock {skus : List Sku} {copies : List InventoryItem} {e : Failure}
    (hskus : ∀ line ∈ request.lines, ∃ sku ∈ skus, sku.id = line.skuId)
    (h : requireStock request skus copies = .error e) : Failure.code e = "insufficient_stock" := by
  unfold requireStock at h
  simp only [Bind.bind, Except.bind] at h
  split at h
  · cases h
    rfl
  rename_i hmissing
  -- every line has its item and its SKU, so the texts of the shortfalls can be made
  have hitem : ∀ line ∈ request.lines, ∃ text, shortfall skus copies line = .ok text := by
    intro line hline
    obtain ⟨sku, hsku, hid⟩ := hskus line hline
    cases hcopy : copies.find? (·.skuId == line.skuId) with
    | none =>
      refine absurd (List.map_eq_nil_iff.1 (not_not.1 hmissing)) (List.ne_nil_of_mem
        (List.mem_filter.2 ⟨hsku, ?_⟩))
      rw [Bool.not_eq_true', List.any_eq_false]
      intro i hi
      rw [hid]
      exact List.find?_eq_none.1 hcopy i hi
    | some item =>
      cases hfound : skus.find? (·.id == line.skuId) with
      | none => exact absurd (beq_iff_eq.2 hid) (List.find?_eq_none.1 hfound sku hsku)
      | some found =>
        simp only [shortfall, hcopy, skuRow, hfound]
        split
        · exact ⟨_, rfl⟩
        · exact ⟨_, rfl⟩
  obtain ⟨texts, htexts⟩ := mapM_eq_ok _ hitem
  rw [htexts] at h
  dsimp only at h
  split at h
  · cases h
    rfl
  · cases h

/-- What a first reserve is refused with. -/
theorem code_of_firstHold {e : Failure}
    (h : firstHold unconfirmedHold now ids request db = .error e) :
    Failure.code e ∈
      ["not_found", "warehouse_not_operational", "conflict", "insufficient_stock"] := by
  cases href : requireOperational "stock there cannot be held." db.warehouseRefs
      request.warehouseId with
  | error e' =>
    simp only [firstHold, href, Bind.bind, Except.bind, Except.error.injEq] at h
    subst h
    unfold requireOperational at href
    split at href
    · cases href
      exact List.mem_cons_self
    split at href
    · cases href
    · cases href
      exact List.mem_cons_of_mem _ List.mem_cons_self
  | ok ref =>
  cases hskus : loadSkus (request.lines.map (·.skuId)) db with
  | error e' =>
    simp only [firstHold, href, hskus, Bind.bind, Except.bind, Except.error.injEq] at h
    subst h
    unfold loadSkus at hskus
    dsimp only at hskus
    split at hskus
    · cases hskus
      exact List.mem_cons_self
    split at hskus
    · cases hskus
      exact List.mem_cons_of_mem _ (List.mem_cons_of_mem _ List.mem_cons_self)
    · cases hskus
  | ok skus =>
  have hknown : ∀ line ∈ request.lines, ∃ sku ∈ skus, sku.id = line.skuId := fun line hline =>
    (loadSkus_eq_ok.1 hskus).2.1 _ (List.mem_map_of_mem hline)
  cases hstock : requireStock request skus (reclaimedItems request now db) with
  | error e' =>
    simp only [firstHold, href, hskus, hstock, Bind.bind, Except.bind, Except.error.injEq] at h
    subst h
    rw [code_of_requireStock hknown hstock]
    decide
  | ok _ =>
    -- nothing is refused any more
    obtain ⟨final, holds, hloop⟩ : ∃ final holds, holdEach request (now + unconfirmedHold)
        (request.lines.zip (List.range' ids request.lines.length))
        (reclaimedItems request now db) = .ok (final, holds) :=
      holdEach_of_found _ fun entry hentry => by
        obtain ⟨c, hc, hsku, -⟩ := available_of_requireStock hstock entry.1
          (mem_of_mem_zip_ids hentry)
        exact ⟨c, hc, hsku⟩
    obtain ⟨answer, hanswer⟩ := result_of_loaded hskus hloop
    simp only [firstHold, href, hskus, hstock, hloop, hanswer, Bind.bind, Except.bind] at h
    cases h

/-! ## A shipment that has reservations -/

/-- What a reserve answers for a shipment that has reservations. -/
def answerAgain (request : ReservationRequest) (existing : List InventoryReservation) (db : Db) :
    Except Failure ReservationResult :=
  if !((request.lines.map fun line => (line.skuId, line.quantity)).all
      (existing.map fun r => (r.skuId, r.quantity)).contains &&
    (existing.map fun r => (r.skuId, r.quantity)).all
      (request.lines.map fun line => (line.skuId, line.quantity)).contains) ||
      firstWarehouse existing != request.warehouseId then
    .error (.domain (reservationMismatchError "This shipment already holds different stock."))
  else
    result request.shipmentId request.warehouseId existing
      (loadSkusAny (existing.map (·.skuId)) db)

/-- It changes nothing. -/
theorem runAlone_reserve_again (h : forShipment request.shipmentId db ≠ []) :
    (reserve unconfirmedHold request).runAlone now ids db =
      (answerAgain request (forShipment request.shipmentId db) db).map fun answer =>
        ((answer, false), db, ids) := by
  have hsome : (!(forShipment request.shipmentId db).isEmpty) = true := by
    rwa [Bool.not_eq_true', List.isEmpty_eq_false_iff]
  unfold reserve
  simp only [Txn.bind_eq]
  rw [Txn.runAlone_select_bind, if_pos hsome]
  unfold replay answerAgain
  dsimp only
  split
  · rfl
  · simp only [Txn.bind_eq, Txn.bind_bind]
    rw [Txn.runAlone_select_bind, Txn.runAlone_ofExcept_bind]
    cases result request.shipmentId request.warehouseId (forShipment request.shipmentId db)
        (loadSkusAny ((forShipment request.shipmentId db).map (·.skuId)) db) with
    | error e => rfl
    | ok answer => rfl

/-- A traversal fails where it fails on an element. -/
theorem exists_of_mapM_eq_error {α β : Type} {f : α → Except Failure β} {e : Failure} {l : List α}
    (h : l.mapM f = .error e) : ∃ a ∈ l, f a = .error e := by
  induction l with
  | nil => cases h
  | cons x l ih =>
    simp only [List.mapM_cons, Bind.bind, Except.bind, pure, Except.pure] at h
    split at h
    · rename_i hx
      cases h
      exact ⟨x, List.mem_cons_self, hx⟩
    split at h
    · rename_i hl
      cases h
      obtain ⟨a, ha, hfa⟩ := ih hl
      exact ⟨a, List.mem_cons_of_mem _ ha, hfa⟩
    · cases h

/-- It is refused for a mismatch only, or fails for want of a SKU. -/
theorem code_of_answerAgain {existing : List InventoryReservation} {e : Failure}
    (h : answerAgain request existing db = .error e) :
    Failure.code e ∈ ["reservation_mismatch", "internal_error"] := by
  unfold answerAgain at h
  split at h
  · cases h
    exact List.mem_cons_self
  · simp only [result, Bind.bind, Except.bind] at h
    split at h
    · rename_i hlines
      cases h
      obtain ⟨r, -, hr⟩ := exists_of_mapM_eq_error hlines
      simp only [reservedLine, skuRow, Bind.bind, Except.bind] at hr
      split at hr
      · rename_i hsku
        split at hsku
        · cases hsku
        · cases hsku
          cases hr
          exact List.mem_cons_of_mem _ List.mem_cons_self
      · cases hr
    · cases h

end SmartLogistics.Inventory
