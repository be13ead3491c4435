import SmartLogistics.Inventory.FirstReserve

/-!
# A sweep before a first reserve

Holds that have lapsed count for nothing in a first reserve, so a sweep just before makes no
difference to what it answers (`firstHold_swept`) and to what is left after both. `reserve_first`
puts this together with when a first reserve succeeds and what it does.
-/

set_option autoImplicit false

namespace SmartLogistics.Inventory

open SmartLogistics.Library SmartLogistics.Platform SmartLogistics.Warehouse

variable {unconfirmedHold now ids : Nat} {db : Db} {request : ReservationRequest}

/-! ## The state a sweep leaves -/

/-- The state a sweep leaves. -/
def swept (warehouseIds : Option (List Nat)) (now : Nat) (db : Db) : Db :=
  db.expireRows (sweptHolds warehouseIds now db) now

theorem selected_sweptHolds (h : Consistent db) (warehouseIds : Option (List Nat)) (now : Nat) :
    Selected (sweptHolds warehouseIds now db) db :=
  selected_lapsedOn h _ now

theorem consistent_swept (h : Consistent db) (warehouseIds : Option (List Nat)) (now : Nat) :
    Consistent (swept warehouseIds now db) :=
  h.expired (selected_sweptHolds h warehouseIds now) now

/-- The holds after a sweep are those it did not release. -/
theorem held_swept (h : Consistent db) {warehouseIds : Option (List Nat)}
    {r : InventoryReservation} :
    r ∈ (swept warehouseIds now db).reservations ∧ r.status = .held ↔
      r ∈ db.reservations ∧ r.status = .held ∧ r ∉ sweptHolds warehouseIds now db := by
  have hs := selected_sweptHolds h warehouseIds now
  constructor
  · rintro ⟨hmem, hheld⟩
    obtain ⟨r₀, hr₀, rfl⟩ := Db.mem_writeReservations.1 hmem
    split at hheld
    · cases hheld
    · rename_i hnot
      rw [if_neg hnot]
      exact ⟨hr₀, hheld, fun hr => hnot ((hs.contains_iff h.reservations hr₀).2 hr)⟩
  · rintro ⟨hmem, hheld, hnot⟩
    refine ⟨Db.mem_writeReservations.2 ⟨r, hmem, ?_⟩, hheld⟩
    rw [if_neg fun hr => hnot ((hs.contains_iff h.reservations hmem).1 hr)]

theorem requestedItems_swept (warehouseIds : Option (List Nat)) :
    requestedItems request (swept warehouseIds now db) =
      (requestedItems request db).map (InventoryItem.unreserve (sweptHolds warehouseIds now db)) :=
  Table.rowsWhere_map (f := InventoryItem.unreserve (sweptHolds warehouseIds now db))
    (fun _ => rfl) (fun _ => rfl) db.items

/-- On a requested item, a sweep and the reclaim after it release what the reclaim alone does. -/
theorem mem_swept_append_reclaimed (h : Consistent db) {warehouseIds : Option (List Nat)}
    {i : InventoryItem} (hi : i ∈ db.items) (hline : (request.lineFor i).isSome = true)
    {r : InventoryReservation} (hid : r.inventoryItemId = i.id) :
    r ∈ sweptHolds warehouseIds now db ++ reclaimed request now (swept warehouseIds now db) ↔
      r ∈ reclaimed request now db := by
  have hitem : ∃ c ∈ requestedItems request db, c.id = r.inventoryItemId :=
    ⟨i, (mem_requestedItems h).2 ⟨hi, hline⟩, hid.symm⟩
  have hitem' : ∃ c ∈ requestedItems request (swept warehouseIds now db),
      c.id = r.inventoryItemId := by
    obtain ⟨c, hc, hcid⟩ := hitem
    rw [requestedItems_swept]
    exact ⟨_, List.mem_map_of_mem hc, hcid⟩
  have hheld : isLapsed now r = true → r.status = .held := fun hlapsed => by
    simp only [isLapsed, Bool.and_eq_true, beq_iff_eq] at hlapsed
    exact hlapsed.1.1
  rw [List.mem_append, reclaimed, reclaimed, mem_lapsedOn (consistent_swept h warehouseIds now),
    mem_lapsedOn h]
  constructor
  · rintro (hr | ⟨hmem, -, hlapsed⟩)
    · obtain ⟨hmem, -, hlapsed⟩ := (mem_lapsedOn h).1 hr
      exact ⟨hmem, hitem, hlapsed⟩
    · exact ⟨((held_swept h).1 ⟨hmem, hheld hlapsed⟩).1, hitem, hlapsed⟩
  · rintro ⟨hmem, -, hlapsed⟩
    by_cases hr : r ∈ sweptHolds warehouseIds now db
    · exact Or.inl hr
    · exact Or.inr ⟨((held_swept h).2 ⟨hmem, hheld hlapsed, hr⟩).1, hitem', hlapsed⟩

theorem nodup_swept_append_reclaimed (h : Consistent db) (warehouseIds : Option (List Nat)) :
    (sweptHolds warehouseIds now db ++
      reclaimed request now (swept warehouseIds now db)).Nodup := by
  have hs := selected_reclaimed (consistent_swept h warehouseIds now) request now
  rw [List.nodup_append]
  refine ⟨(selected_sweptHolds h warehouseIds now).nodup, hs.nodup, fun a ha b hb hab => ?_⟩
  subst hab
  exact ((held_swept h).1 ⟨hs.mem a hb, hs.status a hb⟩).2.2 ha

/-- A requested item after a sweep and the reclaim is the item after the reclaim alone. -/
theorem unreserve_swept (h : Consistent db) (warehouseIds : Option (List Nat)) {i : InventoryItem}
    (hi : i ∈ db.items) (hline : (request.lineFor i).isSome = true) :
    (i.unreserve (sweptHolds warehouseIds now db)).unreserve
        (reclaimed request now (swept warehouseIds now db)) =
      i.unreserve (reclaimed request now db) := by
  have hsum : ∀ w : InventoryReservation → Int,
      Table.totalBy (fun r => r.inventoryItemId == i.id) w (sweptHolds warehouseIds now db) +
        Table.totalBy (fun r => r.inventoryItemId == i.id) w
          (reclaimed request now (swept warehouseIds now db)) =
      Table.totalBy (fun r => r.inventoryItemId == i.id) w (reclaimed request now db) := by
    intro w
    rw [← Table.totalBy_append]
    refine Table.totalBy_eq_of_mem (nodup_swept_append_reclaimed h warehouseIds)
      (selected_reclaimed h request now).nodup fun r => ?_
    constructor
    · rintro ⟨hr, hid⟩
      exact ⟨(mem_swept_append_reclaimed h hi hline (beq_iff_eq.1 hid)).1 hr, hid⟩
    · rintro ⟨hr, hid⟩
      exact ⟨(mem_swept_append_reclaimed h hi hline (beq_iff_eq.1 hid)).2 hr, hid⟩
  have hqty := hsum (·.quantity)
  have hcount := hsum fun _ => 1
  simp only [InventoryItem.unreserve, InventoryItem.mk.injEq, true_and, qtyOn, countOn]
  omega

/-- A sweep just before a first reserve changes neither its answer nor its holds. -/
theorem firstHold_swept (h : Consistent db) (warehouseIds : Option (List Nat)) :
    firstHold unconfirmedHold now ids request (swept warehouseIds now db) =
      firstHold unconfirmedHold now ids request db := by
  have hcopies : reclaimedItems request now (swept warehouseIds now db) =
      reclaimedItems request now db := by
    rw [reclaimedItems, reclaimedItems, requestedItems_swept, List.map_map]
    refine List.map_congr_left fun i hi => ?_
    obtain ⟨hmem, hline⟩ := (mem_requestedItems h).1 hi
    exact unreserve_swept h warehouseIds hmem hline
  unfold firstHold
  rw [hcopies]
  rfl

/-- Rewritten rows that agree where a condition holds are the same selection. -/
theorem filter_map_congr {ρ : Type} {f g : ρ → ρ} {p q : ρ → Bool} {rows : List ρ}
    (hp : ∀ r ∈ rows, p (f r) = q (g r)) (hfg : ∀ r ∈ rows, p (f r) = true → f r = g r) :
    (rows.map f).filter p = (rows.map g).filter q := by
  induction rows with
  | nil => rfl
  | cons r rows ih =>
    have hrest := ih (fun x hx => hp x (List.mem_cons_of_mem _ hx))
      fun x hx => hfg x (List.mem_cons_of_mem _ hx)
    rw [List.map_cons, List.map_cons, List.filter_cons, List.filter_cons, hrest,
      ← hp r List.mem_cons_self]
    split
    · rename_i hpr
      rw [hfg r List.mem_cons_self hpr]
    · rfl

/-- Which reservations a request looks at depends on what its items are, not on their counters. -/
theorem concerns_map {db' : Db} {f : InventoryItem → InventoryItem}
    (hitems : db'.items = db.items.map f)
    (hf : ∀ i, (f i).id = i.id ∧ request.lineFor (f i) = request.lineFor i)
    (r : InventoryReservation) : request.concerns db' r = request.concerns db r := by
  rw [ReservationRequest.concerns, ReservationRequest.concerns, hitems, List.any_map]
  congr 1
  funext i
  rw [Function.comp_apply, (hf i).1, (hf i).2]

/-- A row on a requested item after a sweep and the reclaim is the row after the reclaim alone. -/
theorem expireRow_swept (h : Consistent db) (warehouseIds : Option (List Nat))
    {r : InventoryReservation} (hr : r ∈ db.reservations)
    (hconcerns : request.concerns db r = true) :
    expireRow (reclaimed request now db) now r =
      expireRow (reclaimed request now (swept warehouseIds now db)) now
        (expireRow (sweptHolds warehouseIds now db) now r) := by
  obtain ⟨i, hi, hitem⟩ := List.any_eq_true.1 hconcerns
  rw [Bool.and_eq_true, beq_iff_eq] at hitem
  have hmem : r ∈ sweptHolds warehouseIds now db ++
      reclaimed request now (swept warehouseIds now db) ↔ r ∈ reclaimed request now db :=
    mem_swept_append_reclaimed h hi hitem.2 hitem.1.symm
  rw [List.mem_append] at hmem
  rw [expireRow_eq h (selected_reclaimed h request now) hr,
    expireRow_eq h (selected_sweptHolds h warehouseIds now) hr]
  by_cases hswept : r ∈ sweptHolds warehouseIds now db
  · -- released by the sweep: to release it once more changes nothing
    rw [if_pos (hmem.1 (Or.inl hswept)), if_pos hswept, expireRow]
    split
    · rfl
    · rfl
  · rw [if_neg hswept]
    have hrow : r ∈ (swept warehouseIds now db).reservations := by
      refine List.mem_map.2 ⟨r, hr, if_neg fun hin => hswept ?_⟩
      exact ((selected_sweptHolds h warehouseIds now).contains_iff h.reservations hr).1 hin
    have hc := consistent_swept h warehouseIds now
    rw [expireRow_eq hc (selected_reclaimed hc request now) hrow]
    refine if_congr ?_ rfl rfl
    rw [← hmem]
    exact or_iff_right hswept

/-- A sweep just before a first reserve changes nothing that the request looks at. -/
theorem view_swept (h : Consistent db) (warehouseIds : Option (List Nat))
    (holds : List InventoryReservation) :
    request.view (firstState request now holds db) =
      request.view (firstState request now holds (swept warehouseIds now db)) := by
  -- both states as what becomes of each row of `db`
  have hitems : (firstState request now holds (swept warehouseIds now db)).items =
      db.items.map fun i => ((i.unreserve (sweptHolds warehouseIds now db)).unreserve
        (reclaimed request now (swept warehouseIds now db))).reserve holds := by
    have hswept : (swept warehouseIds now db).items =
        db.items.map (InventoryItem.unreserve (sweptHolds warehouseIds now db)) := rfl
    rw [firstState_items, hswept, List.map_map]
    rfl
  have hrows : (firstState request now holds (swept warehouseIds now db)).reservations =
      db.reservations.map
        (fun r => expireRow (reclaimed request now (swept warehouseIds now db)) now
        (expireRow (sweptHolds warehouseIds now db) now r)) ++ holds := by
    have hswept : (swept warehouseIds now db).reservations =
        db.reservations.map (expireRow (sweptHolds warehouseIds now db) now) := rfl
    rw [firstState_reservations, hswept, List.map_map]
    rfl
  have hconcerns : request.concerns (firstState request now holds db) = request.concerns db :=
    funext fun r => concerns_map (firstState_items holds) (fun _ => ⟨rfl, rfl⟩) r
  have hconcerns' : request.concerns (firstState request now holds (swept warehouseIds now db)) =
      request.concerns db :=
    funext fun r => concerns_map hitems (fun _ => ⟨rfl, rfl⟩) r
  have hitem : ∀ (holds : List InventoryReservation) (now : Nat) (r : InventoryReservation),
      (expireRow holds now r).inventoryItemId = r.inventoryItemId := by
    intro holds now r
    unfold expireRow
    split
    · rfl
    · rfl
  have hsame : ∀ {r r' : InventoryReservation}, r.inventoryItemId = r'.inventoryItemId →
      request.concerns db r = request.concerns db r' := by
    intro r r' heq
    rw [ReservationRequest.concerns, ReservationRequest.concerns, heq]
  -- a row that the request is about is released once, by the sweep or by the reserve
  refine Prod.ext ?_ ?_
  · simp only [ReservationRequest.view]
    rw [firstState_items, hitems]
    exact filter_map_congr (fun _ _ => rfl) fun i hi hline =>
      congrArg (InventoryItem.reserve holds) (unreserve_swept h warehouseIds hi hline).symm
  · simp only [ReservationRequest.view]
    rw [firstState_reservations, hrows, hconcerns, hconcerns', List.filter_append,
      List.filter_append]
    refine congrArg (· ++ _) (filter_map_congr (fun r hr => ?_) fun r hr hp => ?_)
    · exact hsame (by rw [hitem, hitem, hitem])
    · exact expireRow_swept h warehouseIds hr ((hsame (hitem _ _ r)).symm.trans hp)

/-! ## The whole -/

theorem after_releaseExpired (h : Consistent db) (warehouseIds : Option (List Nat)) :
    (releaseExpired warehouseIds).after now ids db = swept warehouseIds now db := by
  rw [Txn.after, Txn.commit, runAlone_releaseExpired h]
  rfl

/-- A sweep brings no rows and keeps what they are about. -/
theorem mem_swept {warehouseIds : Option (List Nat)} {r : InventoryReservation}
    (hr : r ∈ (swept warehouseIds now db).reservations) :
    ∃ r₀ ∈ db.reservations, r.id = r₀.id ∧ r.shipmentId = r₀.shipmentId := by
  obtain ⟨r₀, hr₀, hid, -, hship, -⟩ := line_of_mem_writeReservations (keepsLine_release _ _) hr
  exact ⟨r₀, hr₀, hid, hship⟩

/-- From every reachable state, at every instant, a reserve of a shipment without reservations
succeeds exactly if the request is reservable, and leaves then what `HeldFirst` says and otherwise
nothing; and a sweep just before makes no difference to it. -/
theorem reserve_first {c : Config Db Row Failure Outcome Operation}
    (hreach : Reachable unconfirmedHold c) (request : ReservationRequest) (now ids : Nat)
    (hfirst : forShipment request.shipmentId c.db = [])
    (hfresh : ∀ r ∈ c.db.reservations, ∀ k < request.lines.length, r.id ≠ ids + k) :
    ((∃ out, (reserve unconfirmedHold request).runAlone now ids c.db = .ok out) ↔
      Reservable now request c.db) ∧
    (∀ answer created db' ids',
      (reserve unconfirmedHold request).runAlone now ids c.db = .ok ((answer, created), db', ids') →
        created = true ∧ HeldFirst unconfirmedHold now request c.db db') ∧
    (∀ e, (reserve unconfirmedHold request).runAlone now ids c.db = .error e →
      (reserve unconfirmedHold request).after now ids c.db = c.db) ∧
    ∀ warehouseIds, request.SameOutcome
      ((reserve unconfirmedHold request).runAlone now ids c.db)
      ((reserve unconfirmedHold request).runAlone now ids
        ((releaseExpired warehouseIds).after now ids c.db)) := by
  have h : Consistent c.db := (sound_of_reachable hreach).inv
  refine ⟨?_, ?_, ?_, ?_⟩
  · -- when it succeeds
    rw [runAlone_reserve h hfirst hfresh]
    constructor
    · rintro ⟨out, hrun⟩
      cases hout : firstHold unconfirmedHold now ids request c.db with
      | error e =>
        rw [hout] at hrun
        cases hrun
      | ok held => exact (firstHold_ok_iff h).1 ⟨held, hout⟩
    · intro hr
      obtain ⟨held, hout⟩ : ∃ out, firstHold unconfirmedHold now ids request c.db = .ok out :=
        (firstHold_ok_iff h).2 hr
      rw [hout]
      exact ⟨_, rfl⟩
  · -- what it leaves
    intro answer created db' ids' hrun
    rw [runAlone_reserve h hfirst hfresh] at hrun
    cases hout : firstHold unconfirmedHold now ids request c.db with
    | error e =>
      rw [hout] at hrun
      cases hrun
    | ok held =>
      rw [hout] at hrun
      cases hrun
      obtain ⟨hitems, hrows, hskus, hrefs, hmovements⟩ :=
        heldFirst_firstState h (firstHolds h hout)
      exact ⟨rfl, hitems, hrows, hskus, hrefs, hmovements⟩
  · -- what a refusal leaves
    intro e hrun
    rw [Txn.after, Txn.commit, hrun]
  · -- the sweep leaves a state of the same kind, without reservations of the shipment too
    intro warehouseIds
    have hs := consistent_swept h warehouseIds now
    have hfirst' : forShipment request.shipmentId (swept warehouseIds now c.db) = [] := by
      refine List.filter_eq_nil_iff.2 fun r hr => ?_
      obtain ⟨r₀, hr₀, -, hship⟩ := mem_swept hr
      rw [hship]
      exact List.filter_eq_nil_iff.1 hfirst r₀ hr₀
    have hfresh' : ∀ r ∈ (swept warehouseIds now c.db).reservations,
        ∀ k < request.lines.length, r.id ≠ ids + k := by
      intro r hr
      obtain ⟨r₀, hr₀, hid, -⟩ := mem_swept hr
      rw [hid]
      exact hfresh r₀ hr₀
    rw [after_releaseExpired h, runAlone_reserve h hfirst hfresh,
      runAlone_reserve hs hfirst' hfresh', firstHold_swept h]
    cases firstHold unconfirmedHold now ids request c.db with
    | error e => rfl
    | ok out => exact ⟨rfl, view_swept h warehouseIds out.2⟩

/-- All ten units of SKU 1. -/
def allOfSkuOne (shipmentId : Nat) : ReservationRequest where
  shipmentId := shipmentId
  warehouseId := 7
  lines := [⟨1, 10, by decide, by decide⟩]
  lines_ne_nil := List.cons_ne_nil _ _
  lines_length_le := by decide
  unique_skus := List.nodup_singleton _

/-- Shipment 50 held one of the ten units and let the hold lapse: all ten can be held for shipment
51, with or without a sweep. -/
theorem reserve_first_after_lapse : ∃ c, Reachable 30 c ∧ Reservable 30 (allOfSkuOne 51) c.db ∧
    (∃ i ∈ c.db.items, available i < 10) ∧
    (allOfSkuOne 51).SameOutcome ((reserve 30 (allOfSkuOne 51)).runAlone 30 60 c.db)
      ((reserve 30 (allOfSkuOne 51)).runAlone 30 60
        ((releaseExpired none).after 30 60 c.db)) := by
  have hrun : ((inventory 30).machine.exec (.idle .empty) (stocked ++
      session 0 (reserveOne 50 1) (.replicate 14 31))).map (fun c =>
        (forShipment 51 c.db == [] && c.db.reservations.map (·.id) == [31] &&
          c.db.items.any (fun i => decide (available i < 10)),
          ((reserve 30 (allOfSkuOne 51)).runAlone 30 60 c.db).toBool)) = some (true, true) := by
    decide +kernel
  obtain ⟨c, hc, hfacts⟩ := Option.map_eq_some_iff.1 hrun
  simp only [Prod.mk.injEq, Bool.and_eq_true, beq_iff_eq, List.any_eq_true,
    decide_eq_true_eq] at hfacts
  obtain ⟨⟨⟨hfirst, hids⟩, hshort⟩, hok⟩ := hfacts
  have hfresh : ∀ r ∈ c.db.reservations, ∀ k < (allOfSkuOne 51).lines.length, r.id ≠ 60 + k := by
    intro r hr k _ heq
    have hmem := List.mem_map_of_mem (f := fun r : InventoryReservation => r.id) hr
    rw [hids, heq, List.mem_singleton] at hmem
    omega
  have hreach : Reachable 30 c := Machine.run_of_exec _ hc
  obtain ⟨hiff, -, -, hswept⟩ := reserve_first hreach (allOfSkuOne 51) 30 60 hfirst hfresh
  refine ⟨c, hreach, hiff.1 ?_, hshort, hswept none⟩
  cases hout : (reserve 30 (allOfSkuOne 51)).runAlone 30 60 c.db with
  | error e =>
    rw [hout] at hok
    cases hok
  | ok out => exact ⟨out, rfl⟩

end SmartLogistics.Inventory
