import SmartLogistics.Inventory.Quantities
import SmartLogistics.Shipment.Answers
import SmartLogistics.Shipment.Cargo

/-!
# Weights and quantities in 32-bit columns

`total_weight_g` is an `INTEGER` column as well, and a create sums it over up to 200 lines of up to
100000 units of up to 1000000 g. `quantities_fit`: along runs in which every shipment that is
flushed, and every opening and adjustment that commits, has room (`Saga.HasRoom`), all the
quantities and weights of both services fit. `not_quantities_fit`: one line within the bounds of
both schemas makes a shipment that does not.
-/

set_option autoImplicit false
set_option linter.dupNamespace false

namespace SmartLogistics.Shipment

open SmartLogistics.Library SmartLogistics.Platform SmartLogistics.Warehouse
  SmartLogistics.Inventory

/-! ## The weight a create asks for -/

/-- The unit weight Inventory answers for a SKU. -/
def unitWeight (answer : ReservationResult) (skuId : Nat) : Nat :=
  ((Table.lookup ReservedLine.skuId answer.lines skuId).map (·.unitWeightG)).getD 0

/-- The weight of the requested lines. -/
def requestedWeight (payload : ShipmentCreate) (answer : ReservationResult) : Int :=
  (payload.items.map fun item => (unitWeight answer item.skuId : Int) * item.quantity).sum

/-- A create records the weight of the requested lines. -/
theorem newShipment_weight {payload : ShipmentCreate} {shipmentId : Nat}
    {answer : ReservationResult} (h : answer.Answers (payload.reservation shipmentId))
    (warehouse : WarehouseRef) (principal : Principal) (referenceNo now : Nat) :
    (newShipment payload warehouse principal shipmentId referenceNo now answer).totalWeightG =
      requestedWeight payload answer := by
  have hlines : (answer.lines.map fun line => (line.skuId, line.quantity)).Perm
      (payload.items.map fun item => (item.skuId, item.quantity)) := by
    have hsame := h.lines
    rw [ShipmentCreate.reservation, List.map_map] at hsame
    exact hsame
  -- no SKU is on two lines of the answer, since none is on two lines of the request
  have hkeyed : Table.Keyed ReservedLine.skuId answer.lines := by
    have hskus := hlines.map Prod.fst
    rw [List.map_map, List.map_map] at hskus
    exact hskus.nodup_iff.2 payload.unique_skus
  have hfound : ∀ line ∈ answer.lines,
      (line.unitWeightG : Int) * line.quantity = unitWeight answer line.skuId * line.quantity := by
    intro line hline
    rw [unitWeight, hkeyed.lookup_of_mem hline, Option.map_some, Option.getD_some]
  have hsum := (hlines.map fun line => (unitWeight answer line.1 : Int) * line.2).sum_eq
  rw [List.map_map, List.map_map] at hsum
  exact (congrArg List.sum (List.map_congr_left hfound)).trans hsum

/-! ## Room -/

namespace Saga

/-- The step of Inventory's transactions that a label takes. -/
def statement : SagaLabel → Option (Label Operation Environment)
  | .run u draw => some (.step u draw)
  | _ => none

/-- The request a flush weighs, with the answer it has. -/
def weighing (s : Saga) : SagaLabel → Option (ShipmentCreate × ReservationResult)
  | .act t .flush =>
    (s.creates t).bind fun r => r.phase.answer?.map fun answer => (r.payload, answer)
  | _ => none

/-- A commit at Inventory has room for the stock it leaves, and a flush for the weight. -/
def HasRoom (s : Saga) (l : SagaLabel) : Prop :=
  (∀ l' ∈ statement l, Inventory.HasRoom s.inventory l') ∧
    ∀ w ∈ s.weighing l, FitsInteger (requestedWeight w.1 w.2)

instance (s : Saga) (l : SagaLabel) : Decidable (s.HasRoom l) := inferInstanceAs (Decidable (_ ∧ _))

/-- The quantities and weights of both services fit their columns. -/
structure InColumns (s : Saga) : Prop where
  inventory : Inventory.InColumns s.inventory.db
  recorded : ∀ id shipment, s.shipments id = some shipment → FitsInteger shipment.totalWeightG
  flushed : ∀ t r shipment, s.creates t = some r → r.phase.shipment? = some shipment →
    FitsInteger shipment.totalWeightG

/-- What a run with room keeps. -/
structure Roomy (s : Saga) : Prop where
  tracked : Tracked s.inventory.db.movements
  recorded : ∀ id shipment, s.shipments id = some shipment → FitsInteger shipment.totalWeightG
  flushed : ∀ t r shipment, s.creates t = some r → r.phase.shipment? = some shipment →
    FitsInteger shipment.totalWeightG

theorem roomy_initial : initial.Roomy where
  tracked := fun _ hm => absurd hm List.not_mem_nil
  recorded := fun _ _ h => nomatch h
  flushed := fun _ _ _ h => nomatch h

end Saga

section Steps

variable {g : Settings} {s s' : Saga} {l : SagaLabel} {t : Nat} {r r' : CreateRequest}

/-- A shipment is flushed by `flush`, with the answer the request has. -/
theorem shipment_of_act {action : Action} (h : g.act s t r action = some s')
    (hr' : s'.creates t = some r') {shipment : Shipment}
    (hshipment : r'.phase.shipment? = some shipment) :
    r.phase.shipment? = some shipment ∨ action = .flush ∧ ∃ warehouse answer referenceNo,
      r.phase.answer? = some answer ∧
        shipment = newShipment r.payload warehouse r.principal r.shipmentId referenceNo
          s.keys.clock answer := by
  have hset : ∀ {f : Nat → Option CreateRequest} {x : CreateRequest},
      s'.creates = Function.update f t (some x) → x = r' := by
    intro f x heq
    rw [heq, Function.update_self] at hr'
    exact Option.some.inj hr'
  have hraised : ∀ {n : Nat}, g.raised { s with referenceNo := n } t r = some s' →
      r.phase ≠ .ended → r.phase.isOver = false → r'.phase.shipment? = none := by
    intro n hr hopen hover
    obtain ⟨keys, inserting, x, hs', -, -, hnone⟩ := Settings.raised_eq_some hr hopen hover
    rwa [← hset (congrArg Saga.creates hs')]
  obtain ⟨keys, inserting, referenceNo, x, hs', hmoves, -, -⟩ := Settings.act_eq_some h
  rw [hset (congrArg Saga.creates hs')] at hmoves
  refine (hmoves.shipment shipment hshipment).imp_right ?_
  rintro ⟨answer, hanswer, -⟩
  obtain ⟨warehouse, hphase⟩ : ∃ warehouse, r.phase = .reserved warehouse answer := by
    cases hp : r.phase <;> rw [hp] at hanswer <;> cases hanswer
    exact ⟨_, rfl⟩
  have hopen : r.phase ≠ .ended := by simp [hphase]
  have hover : r.phase.isOver = false := by rw [hphase]; rfl
  cases action with
  | flush =>
    simp only [Settings.act, hphase] at h
    split at h
    · cases h
    split at h
    · rw [hraised h hopen hover] at hshipment
      cases hshipment
    -- the shipment is flushed, and with a key its response is to be recorded
    split at h
    · obtain ⟨keys, -, rfl⟩ := Option.map_eq_some_iff.1 h
      obtain rfl := hset rfl
      cases hshipment
      exact ⟨rfl, warehouse, answer, s.referenceNo, hanswer, rfl⟩
    · cases h
      obtain rfl := hset rfl
      cases hshipment
      exact ⟨rfl, warehouse, answer, s.referenceNo, hanswer, rfl⟩
  | raise =>
    simp only [Settings.act, hphase] at h
    rw [hraised h hopen hover] at hshipment
    cases hshipment
  | die =>
    simp only [Settings.act, hphase] at h
    cases h
    obtain rfl := hset rfl
    cases hshipment
  | claim | check | record | release | compensate | finish =>
    simp only [Settings.act, hphase] at h
    cases h

/-- Inventory's ledger keeps fitting. -/
theorem tracked_of_next (h : Tracked s.inventory.db.movements)
    (hc : s.inventory.Sound (counting g.unconfirmedHold)) (hroom : s.HasRoom l)
    (hnext : g.next s l = some s') : Tracked s'.inventory.db.movements := by
  cases Settings.step_of_next hnext with
  | deliver hcall hstart =>
    obtain ⟨-, rfl⟩ := Settings.start_eq_some hstart
    exact h
  | settle hsession hstep hprog hpending hclosed =>
    rw [Saga.settle_inventory, Saga.close_inventory]
    exact h.next hc (hroom.1 _ rfl) hstep
  | stop hrun hstep hstart hdb hclock hclosed =>
    rw [Saga.close_inventory]
    exact hdb ▸ h
  | run hstep hdb hclock hopen => exact hdb ▸ h
  | operate hstart =>
    obtain ⟨-, rfl⟩ := Settings.start_eq_some hstart
    exact h
  | @environment e => cases e <;> exact h
  | handle hfree hevent hop hstart =>
    obtain ⟨-, rfl⟩ := Settings.start_eq_some hstart
    exact h
  | _ => exact h

namespace Saga.Roomy

/-- The invariant is about the ledger, the requests and the recorded shipments. -/
theorem congr (h : s.Roomy) (htracked : Tracked s'.inventory.db.movements)
    (hcreates : s'.creates = s.creates) (hshipments : s'.shipments = s.shipments) : s'.Roomy where
  tracked := htracked
  recorded := hshipments ▸ h.recorded
  flushed := hcreates ▸ h.flushed

/-- A request moves on. -/
theorem setCreate (h : s.Roomy)
    (hflushed : ∀ shipment, r'.phase.shipment? = some shipment →
      FitsInteger shipment.totalWeightG) : (s.setCreate t r').Roomy where
  tracked := h.tracked
  recorded := h.recorded
  flushed := by
    intro u x shipment hx hshipment
    rcases update_eq_some hx with ⟨rfl, rfl⟩ | ⟨-, hx⟩
    · exact hflushed shipment hshipment
    · exact h.flushed u x shipment hx hshipment

/-- A request moves on and holds no shipment. -/
theorem setCreate_of_none (h : s.Roomy) (hnone : r'.phase.shipment? = none) :
    (s.setCreate t r').Roomy := by
  refine h.setCreate fun shipment hshipment => ?_
  rw [hnone] at hshipment
  cases hshipment

/-- Every step with room keeps the weights. -/
theorem next (h : s.Roomy) (hc : s.inventory.Sound (counting g.unconfirmedHold))
    (hv : s.Versioned) (ha : s.Answered) (hroom : s.HasRoom l) (hnext : g.next s l = some s') :
    s'.Roomy := by
  have htracked := tracked_of_next h.tracked hc hroom hnext
  cases Settings.step_of_next hnext with
  | @post t principal key payload uuid4 keys r hnone hid hheld hphase =>
    refine setCreate ⟨h.tracked, h.recorded, h.flushed⟩ fun shipment hshipment => ?_
    rcases hphase with hphase | hphase <;> rw [hphase] at hshipment <;> cases hshipment
  | @act t action r r' keys inserting referenceNo hr hmoves hlocks hinserts =>
    refine setCreate ⟨h.tracked, h.recorded, h.flushed⟩ fun shipment hshipment => ?_
    have hact := hnext
    simp only [Settings.next, hr, Option.bind_some] at hact
    rcases shipment_of_act hact (Function.update_self ..) hshipment with hold | ⟨rfl, hnew⟩
    · exact h.flushed t r shipment hr hold
    · obtain ⟨warehouse, answer, n, hanswer, rfl⟩ := hnew
      have hweighing : (r.payload, answer) ∈ s.weighing (.act t .flush) := by
        simp only [Saga.weighing, hr, Option.bind_some, hanswer, Option.map_some, Option.mem_def]
      rw [newShipment_weight (ha.answered t r answer hr hanswer).answers]
      exact hroom.2 _ hweighing
  | reserve hr hphase =>
    exact setCreate_of_none ⟨h.tracked, h.recorded, h.flushed⟩ rfl
  | release hr hphase =>
    exact setCreate_of_none ⟨h.tracked, h.recorded, h.flushed⟩ rfl
  | answer hr hphase hanswer =>
    exact setCreate_of_none ⟨h.tracked, h.recorded, h.flushed⟩ rfl
  | @commit t lost r r' shipment keys hr hphase hpayload hid hend =>
    refine setCreate ⟨h.tracked, fun id x hx => ?_, h.flushed⟩ fun x hx => ?_
    · rcases update_eq_some hx with ⟨-, rfl⟩ | ⟨-, hx⟩
      · exact h.flushed t r x hr (by rw [hphase]; rfl)
      · exact h.recorded id x hx
    · rcases hend with ⟨-, -, -, -, -, hempty⟩ | ⟨-, -, hended⟩
      · rw [hempty] at hx
        cases hx
      · rw [hended] at hx
        cases hx
  | @settle u draw session c outcome hsession hstep hprog hpending hclosed =>
    obtain ⟨answers, handled, handling, heq⟩ := s.settled_eq c u outcome
    rw [heq] at htracked ⊢
    exact h.congr htracked rfl rfl
  | @stop u l l' c hrun hstep hstart hdb hclock hclosed =>
    obtain ⟨handling, heq⟩ := s.closed_eq c u
    rw [heq] at htracked ⊢
    exact h.congr htracked rfl rfl
  | @change v id copy moved target principal reason expectedVersion hcopy hmoved hversion =>
    refine ⟨h.tracked, fun id' x hx => ?_, h.flushed⟩
    rcases update_eq_some hx with ⟨-, rfl⟩ | ⟨-, hx⟩
    · rw [weight_of_change hmoved]
      exact h.recorded id copy (hv.copy_eq hcopy hversion)
    · exact h.recorded id' x hx
  | _ => exact h.congr htracked rfl rfl

end Saga.Roomy

end Steps

/-- Inventory keeps the protocol, with the positions that operators write. -/
theorem counting_of_saga {g : Settings} {s : Saga} (h : g.machine.Run .initial s) :
    s.inventory.Sound (counting g.unconfirmedHold) ∧ s.Versioned := by
  have hstep : ∀ (s : Saga) l s', s.inventory.Sound (counting g.unconfirmedHold) ∧ s.Versioned →
      True → g.machine.next s l = some s' →
      s'.inventory.Sound (counting g.unconfirmedHold) ∧ s'.Versioned := by
    rintro s l s' ⟨hc, hv⟩ - hnext
    refine ⟨?_, hv.next hnext⟩
    rcases Settings.next_inventory hnext with heq | ⟨l', hl'⟩
    · rwa [heq]
    · exact hc.next (counting_governs g.unconfirmedHold) hl'
  exact h.preserves hstep ⟨Config.sound_idle consistent_empty, Saga.versioned_initial⟩

theorem roomy_of_run {g : Settings} {s : Saga} (h : g.machine.RunOf Saga.HasRoom .initial s) :
    s.Roomy := by
  induction h with
  | refl => exact Saga.roomy_initial
  | tail hrun hstep ih =>
    obtain ⟨l, hroom, hnext⟩ := hstep
    have hrun : g.machine.Run .initial _ := Machine.RunOf.toRun hrun
    obtain ⟨hc, hv⟩ := counting_of_saga hrun
    exact ih.next hc hv (answered_of_saga hrun) hroom hnext

/-- Along runs with room, the quantities and weights that the services store fit their columns. -/
theorem quantities_fit (g : Settings) {s : Saga} (h : g.machine.RunOf Saga.HasRoom .initial s) :
    s.InColumns := by
  have hroomy := roomy_of_run h
  exact ⟨inColumns_of_tracked (sound_of_saga h.toRun).inv hroomy.tracked, hroomy.recorded,
    hroomy.flushed⟩

/-! ## Two runs -/

/-- A SKU of the greatest weight the schema accepts. -/
def heavySku : Sku := { sampleSku 1 "SAFE" with weightG := 1000000 }

/-- A create of the greatest quantity the schema accepts. -/
def largeOrder : ShipmentCreate :=
  { samplePayload 1 with
    items :=
      [{ skuId := 1
         quantity := 100000
         quantity_pos := by decide
         quantity_le := by decide }]
    items_ne_nil := List.cons_ne_nil _ _
    items_length_le := by simp
    unique_skus := List.nodup_singleton _ }

/-- A position of so many units. -/
def positionOf (onHandQty : Nat) : Operation :=
  .openPosition
    { warehouseId := 7
      skuId := 1
      zoneId := none
      onHandQty := onHandQty
      reorderLevel := (0 : Nat)
      onHandQty_nonneg := Int.natCast_nonneg _
      reorderLevel_nonneg := Int.natCast_nonneg _ } sampleAdmin

/-- One unit is reserved and its shipment flushed. -/
def lightOrder : List SagaLabel :=
  stockedSaga ++ [.post 0 sampleAdmin none (samplePayload 1) 50] ++ reservedUnderKey 0 14 ++
    [.act 0 .flush, .commit 0 false]

theorem quantities_fit_light_order : ∃ s, sampleSettings.machine.RunOf Saga.HasRoom .initial s ∧
    (s.shipments 50).map (·.totalWeightG) = some 650 ∧ s.InColumns := by
  have hrun : (sampleSettings.machine.execOf Saga.HasRoom .initial lightOrder).map
      (fun s => (s.shipments 50).map (·.totalWeightG)) = some (some 650) := by
    decide +kernel
  obtain ⟨s, hs, hweight⟩ := Option.map_eq_some_iff.1 hrun
  have hreach := Machine.runOf_of_execOf _ hs
  exact ⟨s, hreach, hweight, quantities_fit sampleSettings hreach⟩

/-- 100000 units of 1000000 g are reserved, and their shipment is flushed. -/
def heavyOrder : List SagaLabel :=
  [.environment (.catalog [heavySku]), .environment (.replica [sampleWarehouse]),
    .replica [sampleWarehouse], .operate 0 (positionOf 100000)] ++ statements 0 7 20 ++
    [.post 0 sampleAdmin none largeOrder 50] ++ reservedUnderKey 0 14 ++ [.act 0 .flush]

/-- A position opens with 2147483648 units. -/
def fullPosition : List SagaLabel :=
  [.environment (.catalog [heavySku]), .environment (.replica [sampleWarehouse]),
    .operate 0 (positionOf (2 ^ 31))] ++ statements 0 7 20

/-- A flushed shipment weighs 10^11 g, and a position has 2^31 units on hand. -/
theorem not_quantities_fit :
    (∃ s, sampleSettings.machine.Run .initial s ∧ s.inventory.db.skus = [heavySku] ∧
      ((s.creates 0).bind fun r => r.phase.shipment?.map (·.totalWeightG)) =
        some 100000000000 ∧ ¬ s.InColumns) ∧
    ∃ s, sampleSettings.machine.Run .initial s ∧
      s.inventory.db.items.map (·.onHandQty) = [2147483648] ∧ ¬ s.InColumns := by
  constructor
  · have hrun : (sampleSettings.machine.exec .initial heavyOrder).map (fun s =>
        (s.inventory.db.skus, (s.creates 0).bind fun r => r.phase.shipment?.map (·.totalWeightG))) =
          some ([heavySku], some 100000000000) := by
      decide +kernel
    obtain ⟨s, hs, hfacts⟩ := Option.map_eq_some_iff.1 hrun
    obtain ⟨hskus, hweight⟩ := Prod.mk.inj hfacts
    refine ⟨s, Machine.run_of_exec _ hs, hskus, hweight, fun hfits => ?_⟩
    obtain ⟨r, hr, hshipment⟩ := Option.bind_eq_some_iff.1 hweight
    obtain ⟨shipment, hshipment, htotal⟩ := Option.map_eq_some_iff.1 hshipment
    have hflushed := hfits.flushed 0 r shipment hr hshipment
    rw [htotal] at hflushed
    exact absurd hflushed (by decide)
  · have hrun : (sampleSettings.machine.exec .initial fullPosition).map (fun s =>
        s.inventory.db.items.map (·.onHandQty)) = some [2147483648] := by
      decide +kernel
    obtain ⟨s, hs, hitems⟩ := Option.map_eq_some_iff.1 hrun
    refine ⟨s, Machine.run_of_exec _ hs, hitems, fun hfits => ?_⟩
    obtain ⟨i, hi, hqty⟩ := List.mem_map.1 (hitems ▸ List.mem_cons_self :
      (2147483648 : Int) ∈ s.inventory.db.items.map (·.onHandQty))
    have hfits := hfits.inventory.onHand i hi
    rw [hqty] at hfits
    exact absurd hfits (by decide)

end SmartLogistics.Shipment
