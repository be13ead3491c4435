import SmartLogistics.Inventory.Balance
import SmartLogistics.Shipment.InStep

/-!
# No unit is lost

The stock of a position, against the shipments. Every create asks for stock at the warehouse that
its shipment is recorded for (`Sited`), and the rows of a shipment are in step with it when its
events are handled. So the units reserved at a position are those of the recorded shipments whose
stock is held there and of the holds that no shipment has been recorded for, and the units on hand
are those received there less those of the shipments that have left (`stock_balances`).
-/

set_option autoImplicit false
set_option linter.dupNamespace false

namespace SmartLogistics.Shipment

open SmartLogistics.Library SmartLogistics.Platform SmartLogistics.Warehouse
  SmartLogistics.Inventory

/-! ## The warehouse of a shipment -/

/-- The warehouse a request goes on with. -/
def Phase.origin? : Phase → Option Nat
  | .reserving warehouse _ => some warehouse.id
  | .reserved warehouse _ => some warehouse.id
  | .flushed shipment => some shipment.originWarehouseId
  | .recorded shipment => some shipment.originWarehouseId
  | _ => none

/-- The request goes on with the warehouse that its payload names. -/
def CreateRequest.Sited (r : CreateRequest) : Prop :=
  ∀ id, r.phase.origin? = some id → id = r.payload.originWarehouseId

theorem CreateRequest.sited_of_none {r : CreateRequest} (h : r.phase.origin? = none) : r.Sited := by
  intro id hid
  rw [h] at hid
  cases hid

/-- The check of the origin warehouse answers with the row of that warehouse. -/
theorem id_of_requireOperational {consequence : String} {refs : List WarehouseRef}
    {warehouseId : Nat} {warehouse : WarehouseRef}
    (h : requireOperational consequence refs warehouseId = .ok warehouse) :
    warehouse.id = warehouseId := by
  unfold requireOperational at h
  split at h
  · cases h
  · rename_i ref hfind
    split at h
    · cases h
      have hid := List.find?_some hfind
      exact beq_iff_eq.1 hid
    · cases h

/-- A status change leaves the warehouse. -/
theorem origin_of_changeStatus {shipment moved : Shipment} {target : ShipmentStatus}
    {principal : Principal} {reason : Option String} {expectedVersion : Option Nat} {now : Nat}
    (h : changeStatus shipment target principal reason expectedVersion now = .ok moved) :
    moved.originWarehouseId = shipment.originWarehouseId := by
  unfold changeStatus at h
  repeat' split at h
  all_goals try cases h
  cases target <;> rfl

namespace Settings

variable {g : Settings} {s s' : Saga} {t : Nat} {r : CreateRequest}

/-- A request that raises has no warehouse to go on with. -/
theorem creates_of_raised {n : Nat} (h : g.raised { s with referenceNo := n } t r = some s') :
    ∃ r', s'.creates = Function.update s.creates t (some r') ∧ r'.Sited := by
  unfold raised at h
  split at h
  · obtain ⟨keys, -, rfl⟩ := Option.map_eq_some_iff.1 h
    exact ⟨r.moved .failed, rfl, CreateRequest.sited_of_none rfl⟩
  · cases h
    exact ⟨r.moved .raised, rfl, CreateRequest.sited_of_none rfl⟩

/-- What a request does by itself leaves it with the warehouse of its payload. -/
theorem sited_of_act {action : Action} (hsited : r.Sited) (h : g.act s t r action = some s') :
    ∃ r', s'.creates = Function.update s.creates t (some r') ∧ r'.Sited := by
  cases action with
  | claim =>
    simp only [act] at h
    split at h
    · obtain ⟨keys, -, rfl⟩ := Option.map_eq_some_iff.1 h
      refine ⟨_, rfl, CreateRequest.sited_of_none ?_⟩
      split <;> rfl
    · cases h
  | check =>
    simp only [act] at h
    split at h
    · split at h
      · rename_i warehouse hwarehouse
        cases h
        -- `require_operational` gives the warehouse that the payload names
        refine ⟨_, rfl, fun id hid => ?_⟩
        rw [← Option.some.inj hid]
        exact id_of_requireOperational hwarehouse
      · exact creates_of_raised h
    · cases h
  | flush =>
    simp only [act] at h
    split at h
    · rename_i warehouse answer hphase
      have horigin : warehouse.id = r.payload.originWarehouseId :=
        hsited warehouse.id (by rw [hphase]; rfl)
      split at h
      · cases h
      split at h
      · exact creates_of_raised h
      split at h
      · obtain ⟨keys, -, rfl⟩ := Option.map_eq_some_iff.1 h
        refine ⟨_, rfl, fun id hid => ?_⟩
        rw [← Option.some.inj hid]
        exact horigin
      · cases h
        refine ⟨_, rfl, fun id hid => ?_⟩
        rw [← Option.some.inj hid]
        exact horigin
    · cases h
  | record =>
    simp only [act] at h
    split at h
    · rename_i shipment hphase
      obtain ⟨keys, -, rfl⟩ := Option.map_eq_some_iff.1 h
      exact ⟨_, rfl, fun id hid => hsited id (by rw [hphase]; exact hid)⟩
    · cases h
  | raise =>
    simp only [act] at h
    split at h
    · obtain ⟨keys, -, rfl⟩ := Option.map_eq_some_iff.1 h
      exact ⟨_, rfl, CreateRequest.sited_of_none rfl⟩
    case h_7 => cases h
    all_goals exact creates_of_raised h
  | release dropped =>
    simp only [act] at h
    split at h
    · obtain ⟨keys, -, rfl⟩ := Option.map_eq_some_iff.1 h
      exact ⟨_, rfl, CreateRequest.sited_of_none rfl⟩
    · cases h
  | compensate =>
    simp only [act] at h
    split at h
    · split at h
      · cases h
        exact ⟨_, rfl, CreateRequest.sited_of_none rfl⟩
      · cases h
        exact ⟨_, rfl, CreateRequest.sited_of_none rfl⟩
    · cases h
  | finish =>
    simp only [act] at h
    split at h
    · cases h
      exact ⟨_, rfl, CreateRequest.sited_of_none rfl⟩
    · cases h
  | die =>
    simp only [act] at h
    split at h
    · cases h
    · cases h
      exact ⟨_, rfl, CreateRequest.sited_of_none rfl⟩

/-- A commit leaves a request without a warehouse to go on with. -/
theorem sited_of_commitCreate {lost : Bool} (h : g.commitCreate s t r lost = some s') :
    ∃ r', s'.creates = Function.update s.creates t (some r') ∧ r'.Sited := by
  have hend : ∀ phase : Phase, phase.origin? = none → CreateRequest.Sited
      (if lost then r.moved phase else
        { r with
          heldFor := none
          phase := .ended }) := by
    intro phase hphase
    split
    · exact CreateRequest.sited_of_none hphase
    · exact CreateRequest.sited_of_none rfl
  unfold commitCreate at h
  split at h
  · dsimp only at h
    split at h
    · obtain ⟨keys, -, rfl⟩ := Option.map_eq_some_iff.1 h
      exact ⟨_, rfl, hend .failed rfl⟩
    · cases h
      exact ⟨_, rfl, hend .raised rfl⟩
  · cases h

end Settings

namespace Saga

/-- Creates, shipments and rows have the warehouse that a create asked for. -/
structure Sited (s : Saga) : Prop where
  creates : ∀ t r, s.creates t = some r → r.Sited
  shipments : ∀ id shipment, s.shipments id = some shipment → ∃ t request,
    s.reservationOf t = some request ∧ request.shipmentId = id ∧
      request.warehouseId = shipment.originWarehouseId
  rows : ∀ r ∈ s.inventory.db.reservations, ∃ t request, s.reservationOf t = some request ∧
    request.shipmentId = r.shipmentId ∧ request.warehouseId = r.warehouseId

theorem sited_initial : initial.Sited where
  creates := fun _ _ h => nomatch h
  shipments := fun _ _ h => nomatch h
  rows := fun _ h => absurd h List.not_mem_nil

section Steps

variable {g : Settings} {s s' : Saga} {l : SagaLabel}

/-- A create asks for what it has asked for. -/
theorem reservationOf_next (h : g.next s l = some s') {t : Nat} {request : ReservationRequest}
    (hrequest : s.reservationOf t = some request) : s'.reservationOf t = some request := by
  obtain ⟨r, hr, rfl⟩ := Option.map_eq_some_iff.1 hrequest
  obtain ⟨r', hr', hsame, -⟩ := creates_next h hr
  exact Option.map_eq_some_iff.2 ⟨r', hr', hsame⟩

/-- Every create goes on with the warehouse of its payload. -/
theorem creates_sited_next (h : g.next s l = some s')
    (hsited : ∀ t r, s.creates t = some r → r.Sited) :
    ∀ t r, s'.creates t = some r → r.Sited := by
  -- all steps but those of a request by itself write phases without a warehouse, or the same one
  have hset : ∀ {t : Nat} {x : CreateRequest}, x.Sited → ∀ u r,
      Function.update s.creates t (some x) u = some r → r.Sited := by
    intro t x hx u r hr
    rcases update_eq_some hr with ⟨rfl, rfl⟩ | ⟨-, hr⟩
    · exact hx
    · exact hsited u r hr
  cases Settings.step_of_next h with
  | @act t action r r' keys inserting referenceNo hr hmoves hlocks hinserts =>
    obtain ⟨x, hx, hact⟩ := Option.bind_eq_some_iff.1 h
    obtain ⟨x', hcreates, hx'⟩ := Settings.sited_of_act (hsited t x hx) hact
    rw [hcreates]
    exact hset hx'
  | @commit t lost r r' shipment keys hr hphase hpayload hid hend =>
    obtain ⟨x, hx, hcommit⟩ := Option.bind_eq_some_iff.1 h
    obtain ⟨x', hcreates, hx'⟩ := Settings.sited_of_commitCreate hcommit
    rw [hcreates]
    exact hset hx'
  | post keys r hnone hid hheld hphase =>
    refine hset (CreateRequest.sited_of_none ?_)
    rcases hphase with hphase | hphase <;> rw [hphase] <;> rfl
  | @reserve t r warehouse n hr hphase =>
    exact hset fun id hid => hsited t r hr id (by rw [hphase]; exact hid)
  | release hr hphase => exact hset (CreateRequest.sited_of_none rfl)
  | @answer t n k r warehouse answer hr hphase hanswer =>
    exact hset fun id hid => hsited t r hr id (by rw [hphase]; exact hid)
  | @settle u draw session c outcome hsession hstep hprog hpending hclosed =>
    obtain ⟨answers, handled, handling, heq⟩ := s.settled_eq c u outcome
    rw [heq]
    exact hsited
  | @stop u l l' c hrun hstep hstart hdb hclock hclosed =>
    obtain ⟨handling, heq⟩ := s.closed_eq c u
    rw [heq]
    exact hsited
  | _ => exact hsited

/-- The shipment that a create commits has the warehouse that the create asks for. -/
theorem Sited.shipments_next (h : s.Sited) (hv : s.Versioned) (hnext : g.next s l = some s') :
    ∀ id shipment, s'.shipments id = some shipment → ∃ t request,
      s'.reservationOf t = some request ∧ request.shipmentId = id ∧
        request.warehouseId = shipment.originWarehouseId := by
  have hold : ∀ id shipment, s.shipments id = some shipment → ∃ t request,
      s'.reservationOf t = some request ∧ request.shipmentId = id ∧
        request.warehouseId = shipment.originWarehouseId := by
    intro id shipment hrow
    obtain ⟨t, request, hrequest, hid, hwarehouse⟩ := h.shipments id shipment hrow
    exact ⟨t, request, reservationOf_next hnext hrequest, hid, hwarehouse⟩
  have hreservation : ∀ t request, s.reservationOf t = some request →
      s'.reservationOf t = some request := fun t request => reservationOf_next hnext
  cases Settings.step_of_next hnext with
  | @commit t lost r r' shipment keys hr hphase hpayload hid hend =>
    intro id x hx
    rcases update_eq_some hx with ⟨rfl, rfl⟩ | ⟨-, hx⟩
    · refine ⟨t, r.reservation, hreservation t _ ?_, rfl, ?_⟩
      · exact Option.map_eq_some_iff.2 ⟨r, hr, rfl⟩
      · exact (h.creates t r hr _ (by rw [hphase]; rfl)).symm
    · exact hold id x hx
  | @change v id copy moved target principal reason expectedVersion hcopy hmoved hversion =>
    have hrow := hv.copy_eq hcopy hversion
    intro id' x hx
    rcases update_eq_some hx with ⟨rfl, rfl⟩ | ⟨-, hx⟩
    · rw [origin_of_changeStatus hmoved]
      exact hold _ copy hrow
    · exact hold id' x hx
  | @settle u draw session c outcome hsession hstep hprog hpending hclosed =>
    obtain ⟨answers, handled, handling, heq⟩ := s.settled_eq c u outcome
    rw [heq] at hold ⊢
    exact hold
  | @stop u l l' c hrun hstep hstart hdb hclock hclosed =>
    obtain ⟨handling, heq⟩ := s.closed_eq c u
    rw [heq] at hold ⊢
    exact hold
  | _ => exact hold

/-- A reserve that Inventory runs is that of a create. -/
theorem Steady.reservationOf_session (h : s.Steady g) {u : Nat}
    {session : Session Db Row Failure Outcome Operation} {request : ReservationRequest}
    (hsession : s.inventory.sessions u = some session) (hop : session.op = .reserve request) :
    ∃ t, s.reservationOf t = some request := by
  have hmay := h.processed.sessions u session hsession
  rw [hop] at hmay
  cases horigin : s.origins u with
  | none =>
    rw [horigin] at hmay
    cases hmay
  | some origin =>
    cases origin with
    | event id =>
      obtain ⟨event, -, hsettled⟩ := h.processed.settledBy_eq h.told hsession horigin
      rw [hop] at hsettled
      cases hsettled
    | call t => exact ⟨t, h.answered.sessions u session t request hsession horigin hop⟩

/-- The rows that Inventory has have the warehouse that a create asked for. -/
theorem Sited.rows_next (h : s.Sited) (hs : s.Steady g) (hnext : g.next s l = some s') :
    ∀ r ∈ s'.inventory.db.reservations, ∃ t request, s'.reservationOf t = some request ∧
      request.shipmentId = r.shipmentId ∧ request.warehouseId = r.warehouseId := by
  have hold : ∀ r₀ ∈ s.inventory.db.reservations, ∀ r : InventoryReservation, r₀.Grows r →
      ∃ t request, s'.reservationOf t = some request ∧ request.shipmentId = r.shipmentId ∧
        request.warehouseId = r.warehouseId := by
    intro r₀ hr₀ r hg
    obtain ⟨t, request, hrequest, hid, hwarehouse⟩ := h.rows r₀ hr₀
    exact ⟨t, request, reservationOf_next hnext hrequest, hid.trans hg.shipment.symm,
      hwarehouse.trans hg.warehouse.symm⟩
  have hsame : s'.inventory.db.reservations = s.inventory.db.reservations →
      ∀ r ∈ s'.inventory.db.reservations, ∃ t request, s'.reservationOf t = some request ∧
        request.shipmentId = r.shipmentId ∧ request.warehouseId = r.warehouseId :=
    fun heq r hr => hold r (heq ▸ hr) r (.refl r)
  have hreservation : ∀ t request, s.reservationOf t = some request →
      s'.reservationOf t = some request := fun t request => reservationOf_next hnext
  cases Settings.step_of_next hnext with
  | @settle u draw session c outcome hsession hstep hprog hpending hclosed =>
    obtain ⟨answers, handled, handling, heq⟩ := s.settled_eq c u outcome
    rw [heq] at hold hreservation ⊢
    obtain ⟨-, hpost⟩ := hs.sound.commit hsession hprog hpending
    intro r hr
    -- a row was there before, or is of a hold that the call of a create asked for
    rcases asked_for_of_committed hs.sound.inv hpost r hr with ⟨r₀, hr₀, hg⟩ |
      ⟨request, hop, hid, hwarehouse⟩
    · exact hold r₀ hr₀ r hg
    · obtain ⟨t, hrequest⟩ := hs.reservationOf_session hsession hop
      exact ⟨t, request, hreservation t request hrequest, hid.symm, hwarehouse.symm⟩
  | @stop u l l' c hrun hstep hstart hdb hclock hclosed =>
    refine hsame ?_
    rw [close_inventory]
    exact congrArg Db.reservations hdb
  | run hstep hdb hclock hopen => exact hsame (congrArg Db.reservations hdb)
  | deliver hcall hstart =>
    obtain ⟨-, rfl⟩ := Settings.start_eq_some hstart
    exact hsame rfl
  | operate hstart =>
    obtain ⟨-, rfl⟩ := Settings.start_eq_some hstart
    exact hsame rfl
  | handle hfree hevent hop hstart =>
    obtain ⟨-, rfl⟩ := Settings.start_eq_some hstart
    exact hsame rfl
  | @environment e => exact hsame (by cases e <;> rfl)
  | _ => exact hsame rfl

theorem Sited.next (h : s.Sited) (hs : s.Steady g) (hnext : g.next s l = some s') : s'.Sited where
  creates := creates_sited_next hnext h.creates
  shipments := h.shipments_next hs.versioned hnext
  rows := h.rows_next hs hnext

end Steps

theorem sited_of_run {g : Settings} {s : Saga} (h : g.machine.RunOf g.Assumes .initial s) :
    s.Steady g ∧ s.Sited := by
  have hstep : ∀ (s : Saga) l s', s.Steady g ∧ s.Sited → g.Assumes s l →
      g.machine.next s l = some s' → s'.Steady g ∧ s'.Sited :=
    fun _ _ _ hs hok hnext => ⟨hs.1.next hok hnext, hs.2.next hs.1 hnext⟩
  exact h.preserves hstep ⟨steady_initial g, sited_initial⟩

/-- What Inventory does in a step is a run of its own. -/
theorem inventory_run_of_next {g : Settings} {s s' : Saga} {l : SagaLabel}
    (h : g.next s l = some s') :
    (Inventory.inventory g.unconfirmedHold).machine.Run s.inventory s'.inventory := by
  have hnext : ∀ {k : Label Operation Environment} {c : Config Db Row Failure Outcome Operation},
      (Inventory.inventory g.unconfirmedHold).next s.inventory k = some c →
      (Inventory.inventory g.unconfirmedHold).machine.Run s.inventory c :=
    fun h => Machine.run_of_next h
  cases Settings.step_of_next h with
  | @settle u draw session c outcome hsession hstep hprog hpending hclosed =>
    rw [settle_inventory, close_inventory]
    exact hnext hstep
  | @stop u l l' c hrun hstep hstart hdb hclock hclosed =>
    rw [close_inventory]
    exact hnext hstep
  | run hstep hdb hclock hopen => exact hnext hstep
  | deliver hcall hstart => exact hnext hstart
  | operate hstart => exact hnext hstart
  | handle hfree hevent hop hstart => exact hnext hstart
  | @environment e => exact hnext (k := .env e) rfl
  | @tick n keys => exact hnext (k := .tick n) rfl
  | _ => exact Relation.ReflTransGen.refl

theorem reachable_inventory {g : Settings} {s : Saga} (h : g.machine.Run .initial s) :
    Reachable g.unconfirmedHold s.inventory :=
  h.project (f := Saga.inventory) fun _ _ _ => inventory_run_of_next

end Saga

/-! ## The units of shipments and positions -/

/-- The units of a SKU on the items of a shipment. -/
def Shipment.units (skuId : Nat) (shipment : Shipment) : Int :=
  Table.totalBy (fun item => item.skuId == skuId) (·.quantity) shipment.items

/-- The status of the rows that stand so. -/
def Standing.status : Standing → ReservationStatus
  | .held => .held
  | .committed => .committed
  | .released => .released

theorem Standing.Of.status_eq {standing : Standing} {r : InventoryReservation}
    (h : standing.Of r) : r.status = standing.status := by
  cases standing with
  | held => exact h.1
  | committed => exact h
  | released => exact h

/-- The units that a shipment has at a position, if its rows stand so. -/
def Shipment.unitsAt (standing : Standing) (i : InventoryItem) (shipment : Shipment) : Int :=
  if shipment.status.standing = standing ∧ shipment.originWarehouseId = i.warehouseId then
    shipment.units i.skuId
  else 0

namespace Saga

/-- The units at a position of the recorded shipments whose rows stand so. -/
def recordedUnits (s : Saga) (standing : Standing) (i : InventoryItem) : Int :=
  ∑ id ∈ s.shipmentIds.toFinset, (s.shipments id).elim 0 (Shipment.unitsAt standing i)

/-- The units held at a position for shipments that are not recorded. -/
def unrecordedUnits (s : Saga) (i : InventoryItem) : Int :=
  Table.totalBy (fun r => r.holds i.id && (s.shipments r.shipmentId).isNone) (·.quantity)
    s.inventory.db.reservations

/-- The rows of a shipment that are on an item and stand so. -/
def rowUnits (s : Saga) (standing : Standing) (i : InventoryItem) (id : Nat) : Int :=
  Table.totalBy (fun r => r.shipmentId == id &&
    (r.inventoryItemId == i.id && r.status == standing.status)) (·.quantity)
    s.inventory.db.reservations

/-- The lines of a shipment's rows have the units of its items. -/
theorem totalBy_rows_eq_units {s : Saga} {id skuId : Nat} {shipment : Shipment}
    (h : (heldLines id s.inventory.db).Perm
      (shipment.items.map fun item => (item.skuId, item.quantity))) :
    Table.totalBy (fun r => r.shipmentId == id && r.skuId == skuId) (·.quantity)
      s.inventory.db.reservations = shipment.units skuId := by
  have hlines : Table.totalBy (fun r => r.shipmentId == id && r.skuId == skuId) (·.quantity)
      s.inventory.db.reservations = Table.totalBy (fun line : Nat × Int => line.1 == skuId)
        (·.2) (heldLines id s.inventory.db) := by
    rw [heldLines, forShipment, Table.totalBy_map, Table.totalBy, Table.totalBy, List.filter_filter]
    congr 2
    exact List.filter_congr fun r _ => Bool.and_comm ..
  rw [hlines, Table.totalBy_perm h, Table.totalBy_map, Shipment.units]

section Handled

variable {g : Settings} {s : Saga}

/-- A recorded shipment's rows are its units, where its status puts them. -/
theorem rowUnits_of_recorded (h : g.machine.RunOf g.Assumes .initial s) {i : InventoryItem}
    (hi : i ∈ s.inventory.db.items) {id : Nat} {shipment : Shipment}
    (hrow : s.shipments id = some shipment) (hhandled : s.handled id = (s.events id).length)
    (standing : Standing) : s.rowUnits standing i id = shipment.unitsAt standing i := by
  obtain ⟨hsteady, hsited⟩ := sited_of_run h
  have hreach : Reachable g.unconfirmedHold s.inventory := reachable_inventory h.toRun
  -- its rows have its standing, and are at its warehouse
  have hstatus : ∀ r ∈ s.inventory.db.reservations, r.shipmentId = id →
      r.status = shipment.status.standing.status ∧
        r.warehouseId = shipment.originWarehouseId := by
    intro r hr hship
    refine ⟨(hsteady.recorded hhandled hrow hr hship).status_eq, ?_⟩
    obtain ⟨t, request, hrequest, hid, hwarehouse⟩ := hsited.rows r hr
    obtain ⟨u, request', hrequest', hid', hwarehouse'⟩ := hsited.shipments id shipment hrow
    obtain rfl := hsteady.owned.reservation_unique hrequest hrequest'
      (hid.trans (hship.trans hid'.symm))
    exact hwarehouse.symm.trans hwarehouse'
  rw [rowUnits, Shipment.unitsAt]
  split
  · rename_i hat
    rw [← totalBy_rows_eq_units (hsteady.lines hrow)]
    refine Table.totalBy_congr (fun r hr => ?_) fun _ _ _ => rfl
    rw [Bool.eq_iff_iff]
    simp only [Bool.and_eq_true, beq_iff_eq]
    constructor
    · rintro ⟨hship, hitem, -⟩
      exact ⟨hship, ((on_item_iff hreach hi hr).1 hitem).2⟩
    · rintro ⟨hship, hsku⟩
      obtain ⟨hrstatus, hwarehouse⟩ := hstatus r hr hship
      exact ⟨hship, (on_item_iff hreach hi hr).2 ⟨hwarehouse.trans hat.2, hsku⟩,
        hrstatus.trans (congrArg Standing.status hat.1)⟩
  · rename_i hnot
    refine Table.totalBy_eq_zero fun r hr => ?_
    rw [Bool.eq_false_iff]
    simp only [Ne, Bool.and_eq_true, beq_iff_eq]
    rintro ⟨hship, hitem, hrstatus⟩
    obtain ⟨hsame, hwarehouse⟩ := hstatus r hr hship
    refine hnot ⟨?_, hwarehouse.symm.trans ((on_item_iff hreach hi hr).1 hitem).1⟩
    have heq := hsame.symm.trans hrstatus
    revert heq
    cases shipment.status.standing <;> cases standing <;> simp [Standing.status]

/-- Every row is of a shipment that a create has used the id of. -/
theorem mem_shipmentIds (h : s.Steady g) (hsited : s.Sited) {r : InventoryReservation}
    (hr : r ∈ s.inventory.db.reservations) : r.shipmentId ∈ s.shipmentIds.toFinset := by
  obtain ⟨t, request, hrequest, hid, -⟩ := hsited.rows r hr
  obtain ⟨x, hx, rfl⟩ := Option.map_eq_some_iff.1 hrequest
  rw [List.mem_toFinset, ← hid]
  exact h.owned.used t x hx

/-- The rows on an item that stand so, over the shipments. -/
theorem totalBy_eq_rowUnits (h : s.Steady g) (hsited : s.Sited) (standing : Standing)
    (i : InventoryItem) :
    Table.totalBy (fun r => r.inventoryItemId == i.id && r.status == standing.status) (·.quantity)
      s.inventory.db.reservations = ∑ id ∈ s.shipmentIds.toFinset, s.rowUnits standing i id :=
  Table.totalBy_eq_sum fun _ hr => mem_shipmentIds h hsited hr

/-- The rows of a shipment that is not recorded: none is committed. -/
theorem rowUnits_committed_of_unrecorded (h : s.Steady g) {id : Nat} (i : InventoryItem)
    (hnone : s.shipments id = none) : s.rowUnits .committed i id = 0 := by
  refine Table.totalBy_eq_zero fun r hr => ?_
  rw [Bool.eq_false_iff]
  simp only [Ne, Bool.and_eq_true, beq_iff_eq]
  rintro ⟨hship, -, hstatus⟩
  rcases h.unrecorded hnone hr hship with hreleased | ⟨hheld, -⟩
  · rw [hreleased] at hstatus
    cases hstatus
  · rw [hheld] at hstatus
    cases hstatus

/-- Its held rows are those of the item that no shipment has been recorded for. -/
theorem rowUnits_held_of_unrecorded {id : Nat} (i : InventoryItem)
    (hnone : s.shipments id = none) : s.rowUnits .held i id =
      Table.totalBy (fun r => r.shipmentId == id &&
        (r.holds i.id && (s.shipments r.shipmentId).isNone)) (·.quantity)
        s.inventory.db.reservations := by
  refine Table.totalBy_congr (fun r _ => ?_) fun _ _ _ => rfl
  by_cases hship : r.shipmentId = id
  · rw [hship, hnone, Option.isNone_none, Bool.and_true]
    rfl
  · rw [beq_false_of_ne hship, Bool.false_and, Bool.false_and]

theorem unrecordedUnits_of_recorded {id : Nat} (i : InventoryItem) {shipment : Shipment}
    (hrow : s.shipments id = some shipment) : Table.totalBy (fun r => r.shipmentId == id &&
        (r.holds i.id && (s.shipments r.shipmentId).isNone)) (·.quantity)
        s.inventory.db.reservations = 0 := by
  refine Table.totalBy_eq_zero fun r _ => ?_
  by_cases hship : r.shipmentId = id
  · rw [hship, hrow, Option.isNone_some, Bool.and_false, Bool.and_false]
  · rw [beq_false_of_ne hship, Bool.false_and]

/-- The units that no shipment has been recorded for, over the shipments. -/
theorem unrecordedUnits_eq_sum (h : s.Steady g) (hsited : s.Sited) (i : InventoryItem) :
    s.unrecordedUnits i = ∑ id ∈ s.shipmentIds.toFinset,
      Table.totalBy (fun r => r.shipmentId == id &&
        (r.holds i.id && (s.shipments r.shipmentId).isNone)) (·.quantity)
        s.inventory.db.reservations :=
  Table.totalBy_eq_sum fun _ hr => mem_shipmentIds h hsited hr

end Handled

/-- What is reserved at a position is held for a recorded shipment, or for none yet. -/
theorem reservedQty_eq {g : Settings} {s : Saga} (h : g.machine.RunOf g.Assumes .initial s)
    (hhandled : ∀ id ∈ s.shipmentIds, s.handled id = (s.events id).length) {i : InventoryItem}
    (hi : i ∈ s.inventory.db.items) :
    i.reservedQty = s.recordedUnits .held i + s.unrecordedUnits i := by
  obtain ⟨hsteady, hsited⟩ := sited_of_run h
  have hinv : Consistent s.inventory.db := hsteady.sound.inv
  have hheld : i.reservedQty = ∑ id ∈ s.shipmentIds.toFinset, s.rowUnits .held i id := by
    rw [hinv.reserved i hi, ← totalBy_eq_rowUnits hsteady hsited]
    rfl
  rw [hheld, recordedUnits, unrecordedUnits_eq_sum hsteady hsited, ← Finset.sum_add_distrib]
  refine Finset.sum_congr rfl fun id hid => ?_
  cases hrow : s.shipments id with
  | none => rw [rowUnits_held_of_unrecorded i hrow, Option.elim_none, Int.zero_add]
  | some shipment =>
    rw [unrecordedUnits_of_recorded i hrow, Option.elim_some, Int.add_zero]
    exact rowUnits_of_recorded h hi hrow (hhandled id (List.mem_toFinset.1 hid)) .held

end Saga

/-- No unit is lost: along a run of assumed steps, when the events of the shipments are handled,
what is reserved at a position is held for a recorded shipment or is a hold that no shipment has
been recorded for, and what is on hand is what was received less what the shipments took that have
left. -/
theorem stock_balances {g : Settings} {s : Saga} (h : g.machine.RunOf g.Assumes .initial s)
    (hhandled : ∀ id ∈ s.shipmentIds, s.handled id = (s.events id).length) :
    ∀ i ∈ s.inventory.db.items,
      i.reservedQty = s.recordedUnits .held i + s.unrecordedUnits i ∧
        i.onHandQty = received s.inventory.db.movements i.id - s.recordedUnits .committed i := by
  intro i hi
  obtain ⟨hsteady, hsited⟩ := Saga.sited_of_run h
  refine ⟨Saga.reservedQty_eq h hhandled hi, ?_⟩
  have hcommitted : committedQty s.inventory.db.reservations i.id =
      s.recordedUnits .committed i := by
    rw [show committedQty s.inventory.db.reservations i.id = _ from
      Saga.totalBy_eq_rowUnits hsteady hsited .committed i, Saga.recordedUnits]
    refine Finset.sum_congr rfl fun id hid => ?_
    cases hrow : s.shipments id with
    | none => rw [Saga.rowUnits_committed_of_unrecorded hsteady i hrow, Option.elim_none]
    | some shipment =>
      rw [Option.elim_some]
      exact Saga.rowUnits_of_recorded h hi hrow (hhandled id (List.mem_toFinset.1 hid)) .committed
  rw [on_hand_eq_received_sub (Saga.reachable_inventory h.toRun) hi, hcommitted]

/-- Order 50 moves on, and Inventory's transaction `u` takes the event. -/
def movedOrder (u : Nat) (target : ShipmentStatus) : List SagaLabel :=
  [.read 0 50, .change 0 target sampleAdmin none none, .handle u 50]

/-- Order 50 is dispatched, and a second create has reserved and not recorded its shipment. -/
def dispatchedOrder : List SagaLabel :=
  confirmedOrder ++ movedOrder 5 .readyForDispatch ++ movedOrder 5 .dispatching ++
    movedOrder 5 .dispatched ++ statements 5 15 0 ++
    [.post 1 sampleAdmin none (samplePayload 1) 51, .act 1 .check, .send 1, .deliver 0 2] ++
    statements 2 14 32

/-- Of the ten units one has left, and one is held for no shipment yet. -/
theorem stock_balances_after_dispatch :
    ∃ s, sampleSettings.machine.RunOf sampleSettings.Assumes .initial s ∧
      s.inventory.db.items.map (fun i => (i.reservedQty, i.onHandQty)) = [(1, 9)] ∧
      ∀ i ∈ s.inventory.db.items,
        i.reservedQty = s.recordedUnits .held i + s.unrecordedUnits i ∧
          i.onHandQty =
            received s.inventory.db.movements i.id - s.recordedUnits .committed i := by
  have hrun : (sampleSettings.machine.execOf (fun s l => isAssumed sampleSettings s l = true)
      .initial dispatchedOrder).map (fun s =>
        (s.shipmentIds.all fun id => s.handled id == (s.events id).length,
          s.inventory.db.items.map fun i => (i.reservedQty, i.onHandQty))) =
        some (true, [(1, 9)]) := by
    decide +kernel
  obtain ⟨s, hs, hfacts⟩ := Option.map_eq_some_iff.1 hrun
  simp only [Prod.mk.injEq, List.all_eq_true, beq_iff_eq] at hfacts
  obtain ⟨hhandled, hitems⟩ := hfacts
  have hreach : sampleSettings.machine.RunOf sampleSettings.Assumes .initial s :=
    (Machine.runOf_of_execOf _ hs).mono fun _ _ => assumes_of_isAssumed
  exact ⟨s, hreach, hitems, stock_balances hreach hhandled⟩

end SmartLogistics.Shipment
