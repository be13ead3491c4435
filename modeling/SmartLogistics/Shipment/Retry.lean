import SmartLogistics.Inventory.Relabel
import SmartLogistics.Shipment.Answers
import SmartLogistics.Shipment.Compensation

/-!
# A key that is used again

The shipment id of a create is a function of its key. Once the store has forgotten the key (its
record is deleted after a failure, or has expired) a create may use the key again, and with it the
id, of which Inventory may still have rows.

`createAlone` is a create that runs with nothing else under way, and `SameOutcome` compares two of
them up to the id of the shipment. `same_outcome_iff`: from any reachable state, a create with a
used id comes to the same as one with an unused id exactly if it is refused before it asks
Inventory, or Inventory has no rows of its id. `not_same_outcome_after_compensation`: a repeat of a
create that was compensated is recorded, and holds no stock.
-/

set_option autoImplicit false
set_option linter.dupNamespace false

namespace SmartLogistics.Shipment

open SmartLogistics.Library SmartLogistics.Platform SmartLogistics.Warehouse
  SmartLogistics.Inventory

/-! ## A create that runs alone -/

/-- The request with another shipment id. -/
def CreateRequest.under (shipmentId : Nat) (r : CreateRequest) : CreateRequest :=
  { r with shipmentId := shipmentId }

theorem CreateRequest.reservation_under (r : CreateRequest) (shipmentId : Nat) :
    (r.under shipmentId).reservation = r.reservation.under shipmentId := rfl

/-- Why a create fails. -/
inductive CreateError
  /-- `create` itself is refused. -/
  | refused (failure : Failure)
  /-- `ServiceClient` raises for what Inventory answers. -/
  | remote (failure : Failure)
  /-- The database refuses the inserts. -/
  | integrity (error : IntegrityError)

/-- The same exception, with the same code. -/
def CreateError.SameClass : CreateError → CreateError → Prop
  | .refused f, .refused f' => Failure.code f = Failure.code f'
  | .remote f, .remote f' => Failure.code f = Failure.code f'
  | .integrity e, .integrity e' => e.sqlstate = e'.sqlstate
  | _, _ => False

/-- The create of request `r`, from its grant to its end, with nothing else under way: the shipment
it records or why it fails, and the state of Inventory it leaves. `ids` is the next random id. -/
def Settings.createAlone (g : Settings) (s : Saga) (r : CreateRequest) (ids : Nat) :
    Except CreateError Shipment × Db :=
  match requireOperational "it cannot originate shipments." s.refs r.payload.originWarehouseId with
  | .error failure => (.error (.refused failure), s.inventory.db)
  | .ok warehouse =>
    match (reserve g.unconfirmedHold r.reservation).runAlone s.inventory.clock ids
        s.inventory.db with
    | .error failure => (.error (.remote failure), s.inventory.db)
    | .ok ((answer, _), db, ids) =>
      let shipment := newShipment r.payload warehouse r.principal r.shipmentId s.referenceNo
        s.keys.clock answer
      match insertShipment s.shipments shipment with
      | .ok () => (.ok shipment, db)
      | .error error =>
        -- the session is rolled back, and `compensate` releases the hold
        (.error (.integrity error), (release r.shipmentId "Shipment could not be recorded").after
          s.inventory.clock ids db)

/-- The same shipment up to its id, or errors of one class. -/
def SameAnswer : Except CreateError Shipment → Except CreateError Shipment → Prop
  | .ok shipment, .ok shipment' => shipment = { shipment' with id := shipment.id }
  | .error e, .error e' => e.SameClass e'
  | _, _ => False

/-- The stock after a create: the positions, the rows that were there before it, the new rows up to
their shipment, and the ledger. -/
def stockAfter (before after : Db) :
    List InventoryItem × List InventoryReservation × List InventoryReservation ×
      List StockMovement :=
  (after.items,
    after.reservations.filter fun r => before.reservations.any (·.id == r.id),
    (after.reservations.filter fun r => !before.reservations.any (·.id == r.id)).map
      (InventoryReservation.under 0),
    after.movements)

/-- Two creates from one state come to the same, up to the ids of their shipments. -/
structure SameOutcome (before : Db) (o o' : Except CreateError Shipment × Db) : Prop where
  answer : SameAnswer o.1 o'.1
  stock : stockAfter before o.2 = stockAfter before o'.2

namespace Saga

/-- No create has used the shipment id: it has neither rows nor a shipment. -/
structure Unused (s : Saga) (shipmentId : Nat) : Prop where
  rows : forShipment shipmentId s.inventory.db = []
  shipment : s.shipments shipmentId = none

/-- The create is refused before it asks Inventory, or Inventory has no rows of its id. -/
def FreeAgain (s : Saga) (r : CreateRequest) : Prop :=
  (∃ failure, requireOperational "it cannot originate shipments." s.refs
    r.payload.originWarehouseId = .error failure) ∨ forShipment r.shipmentId s.inventory.db = []

end Saga

/-! ## Inserts -/

theorem CreateError.sameClass_refl (e : CreateError) : e.SameClass e := by
  cases e with
  | refused failure => exact rfl
  | remote failure => exact rfl
  | integrity error => exact rfl

/-- The inserts of a create for an id without a shipment are accepted. -/
theorem insertShipment_of_none {shipments : Nat → Option Shipment} {shipment : Shipment}
    {request : ReservationRequest} (hnone : shipments shipment.id = none)
    (h : shipment.Lists request) : insertShipment shipments shipment = .ok () := by
  have hskus : (shipment.items.map (·.skuId)).Perm (request.lines.map (·.skuId)) := by
    have hfst := h.map Prod.fst
    rw [List.map_map, List.map_map] at hfst
    exact hfst
  unfold insertShipment
  rw [if_neg (by rw [hnone]; simp), if_neg (not_not.2 (hskus.nodup_iff.2 request.unique_skus)),
    if_neg]
  rw [List.any_eq_true]
  rintro ⟨item, hitem, hqty⟩
  have hmem := h.mem_iff.1 (List.mem_map_of_mem hitem)
  obtain ⟨line, -, heq⟩ := List.mem_map.1 hmem
  rw [Prod.mk.injEq] at heq
  rw [decide_eq_true_eq, ← heq.2] at hqty
  exact absurd line.quantity_pos (Int.not_lt.2 hqty)

/-! ## An id without rows -/

section Alone

variable {g : Settings} {s : Saga} {r : CreateRequest} {fresh ids : Nat}

/-- The ids drawn for the rows of a create are new. -/
def Fresh (ids n : Nat) (db : Db) : Prop := ∀ r ∈ db.reservations, ∀ k < n, r.id ≠ ids + k

/-- The stock after a first hold. -/
theorem stockAfter_first {request : ReservationRequest} {db : Db} {now : Nat}
    {holds : List InventoryReservation} {events : List StockEvent}
    (hnew : ∀ row ∈ db.reservations, ∀ x ∈ holds, row.id ≠ x.id) :
    stockAfter db ((firstState request now holds db).stage events) =
      ((firstState request now holds db).items,
        db.reservations.map (expireRow (reclaimed request now db) now),
        holds.map (InventoryReservation.under 0), db.movements) := by
  have hid : ∀ row, (expireRow (reclaimed request now db) now row).id = row.id := by
    intro row
    unfold expireRow
    split
    · rfl
    · rfl
  have hold : ∀ row ∈ db.reservations.map (expireRow (reclaimed request now db) now),
      (db.reservations.any fun r => r.id == row.id) = true := by
    intro row hrow
    obtain ⟨r, hr, rfl⟩ := List.mem_map.1 hrow
    exact List.any_eq_true.2 ⟨r, hr, beq_iff_eq.2 (hid r).symm⟩
  have hnot : ∀ x ∈ holds, (db.reservations.any fun r => r.id == x.id) = false := by
    intro x hx
    rw [List.any_eq_false]
    intro r hr heq
    exact hnew r hr x hx (beq_iff_eq.1 heq)
  have hrows : ((firstState request now holds db).stage events).reservations =
      db.reservations.map (expireRow (reclaimed request now db) now) ++ holds := rfl
  unfold stockAfter
  rw [hrows, List.filter_append, List.filter_append, List.filter_eq_self.2 hold,
    List.filter_eq_nil_iff.2 fun x hx => by rw [hnot x hx]; exact Bool.false_ne_true,
    List.filter_eq_nil_iff.2 fun row hrow => by rw [hold row hrow]; exact Bool.false_ne_true,
    List.filter_eq_self.2 fun x hx => by rw [hnot x hx]; rfl, List.append_nil, List.nil_append]
  rfl

/-- A create whose id has neither rows nor a shipment: it is recorded if its stock can be held. -/
theorem createAlone_first (h : Consistent s.inventory.db)
    (hrows : forShipment r.shipmentId s.inventory.db = [])
    (hshipment : s.shipments r.shipmentId = none)
    (hids : Fresh ids r.payload.items.length s.inventory.db) {warehouse : WarehouseRef}
    (hwarehouse : requireOperational "it cannot originate shipments." s.refs
      r.payload.originWarehouseId = .ok warehouse) :
    g.createAlone s r ids =
      match firstHold g.unconfirmedHold s.inventory.clock ids r.reservation s.inventory.db with
      | .error failure => (.error (.remote failure), s.inventory.db)
      | .ok (answer, holds) =>
        (.ok (newShipment r.payload warehouse r.principal r.shipmentId s.referenceNo s.keys.clock
          answer), (firstState r.reservation s.inventory.clock holds s.inventory.db).stage
            [emitStockEvent "stock.reserved" r.shipmentId r.payload.originWarehouseId holds
              none]) := by
  have hids' : ∀ row ∈ s.inventory.db.reservations, ∀ k < r.reservation.lines.length,
      row.id ≠ ids + k := by
    intro row hrow k hk
    refine hids row hrow k ?_
    rwa [CreateRequest.reservation, ShipmentCreate.reservation, List.length_map] at hk
  unfold Settings.createAlone
  rw [hwarehouse, runAlone_reserve h hrows hids']
  dsimp only
  cases hout : firstHold g.unconfirmedHold s.inventory.clock ids r.reservation s.inventory.db with
  | error failure => rfl
  | ok out =>
    obtain ⟨answer, holds⟩ := out
    obtain ⟨_, _, _, -, -, -, -, hanswer⟩ := firstHold_eq_ok hout
    have hlists : (newShipment r.payload warehouse r.principal r.shipmentId s.referenceNo
        s.keys.clock answer).Lists r.reservation := by
      refine lists_of_answers rfl (answers_of_result hanswer rfl ?_)
      rw [(firstHolds h hout).lines]
    dsimp only [Except.map]
    rw [insertShipment_of_none hshipment hlists]
    rfl

/-- The new holds are none of the rows that were there. -/
theorem FirstHolds.isNew {holds : List InventoryReservation} {request : ReservationRequest}
    {unconfirmedHold now : Nat} {db : Db}
    (h : FirstHolds unconfirmedHold now ids request db holds)
    (hids : Fresh ids request.lines.length db) :
    ∀ row ∈ db.reservations, ∀ x ∈ holds, row.id ≠ x.id := by
  intro row hrow x hx
  have hmem : x.id ∈ List.range' ids request.lines.length := by
    rw [← h.ids]
    exact List.mem_map_of_mem hx
  obtain ⟨k, hk, hkid⟩ := List.mem_range'.1 hmem
  rw [hkid, Nat.one_mul]
  exact hids row hrow k hk

/-- Two ids without rows and shipments are as good as each other. -/
theorem sameOutcome_of_first (h : Consistent s.inventory.db)
    (hrows : forShipment r.shipmentId s.inventory.db = [])
    (hshipment : s.shipments r.shipmentId = none) (hfresh : s.Unused fresh)
    (hids : Fresh ids r.payload.items.length s.inventory.db) {warehouse : WarehouseRef}
    (hwarehouse : requireOperational "it cannot originate shipments." s.refs
      r.payload.originWarehouseId = .ok warehouse) :
    SameOutcome s.inventory.db (g.createAlone s r ids) (g.createAlone s (r.under fresh) ids) := by
  have hids' : Fresh ids r.reservation.lines.length s.inventory.db := by
    rwa [CreateRequest.reservation, ShipmentCreate.reservation, List.length_map]
  -- what is held does not depend on the id
  have hunder : firstHold g.unconfirmedHold s.inventory.clock ids (r.under fresh).reservation
      s.inventory.db = (firstHold g.unconfirmedHold s.inventory.clock ids r.reservation
        s.inventory.db).map fun out =>
          (out.1.under fresh, out.2.map (InventoryReservation.under fresh)) := by
    rw [CreateRequest.reservation_under, firstHold_under]
  have hused := createAlone_first (g := g) h hrows hshipment hids hwarehouse
  have hunused := createAlone_first (g := g) (r := r.under fresh) h hfresh.rows hfresh.shipment
    hids hwarehouse
  rw [hunder] at hunused
  rw [hused, hunused]
  cases hout : firstHold g.unconfirmedHold s.inventory.clock ids r.reservation s.inventory.db with
  | error failure =>
    constructor
    · exact CreateError.sameClass_refl (.remote failure)
    · rfl
  | ok out =>
    obtain ⟨answer, holds⟩ := out
    have hnew := FirstHolds.isNew (firstHolds h hout) hids'
    have hnew' : ∀ row ∈ s.inventory.db.reservations,
        ∀ x ∈ holds.map (InventoryReservation.under fresh), row.id ≠ x.id := by
      intro row hrow x hx
      obtain ⟨x₀, hx₀, rfl⟩ := List.mem_map.1 hx
      exact hnew row hrow x₀ hx₀
    -- the two states differ by the id in the new rows only
    have hitems : (firstState (r.under fresh).reservation s.inventory.clock
        (holds.map (InventoryReservation.under fresh)) s.inventory.db).items =
          (firstState r.reservation s.inventory.clock holds s.inventory.db).items := by
      rw [CreateRequest.reservation_under, firstState_under]
    have hreclaimed : reclaimed (r.under fresh).reservation s.inventory.clock s.inventory.db =
        reclaimed r.reservation s.inventory.clock s.inventory.db := rfl
    have hagain : InventoryReservation.under 0 ∘ InventoryReservation.under fresh =
        InventoryReservation.under 0 := rfl
    constructor
    · rfl
    · dsimp only [Except.map]
      rw [stockAfter_first hnew, stockAfter_first hnew', hitems, List.map_map, hreclaimed, hagain]

/-! ## An id that has rows -/

/-- A create whose id has rows: it gets them, or is refused for them, and no stock moves unless the
shipment cannot be recorded. -/
theorem createAlone_again (ids : Nat) (hrows : forShipment r.shipmentId s.inventory.db ≠ [])
    {warehouse : WarehouseRef} (hwarehouse : requireOperational
      "it cannot originate shipments." s.refs r.payload.originWarehouseId = .ok warehouse) :
    (∃ failure, Failure.code failure ∈ ["reservation_mismatch", "internal_error"] ∧
      g.createAlone s r ids = (.error (.remote failure), s.inventory.db)) ∨
    (∃ error db, g.createAlone s r ids = (.error (.integrity error), db)) ∨
    ∃ shipment, g.createAlone s r ids = (.ok shipment, s.inventory.db) := by
  unfold Settings.createAlone
  rw [hwarehouse, runAlone_reserve_again hrows]
  dsimp only
  cases hagain : answerAgain r.reservation (forShipment r.reservation.shipmentId s.inventory.db)
      s.inventory.db with
  | error failure => exact Or.inl ⟨failure, code_of_answerAgain hagain, rfl⟩
  | ok answer =>
    dsimp only [Except.map]
    split
    · exact Or.inr (Or.inr ⟨_, rfl⟩)
    · exact Or.inr (Or.inl ⟨_, _, rfl⟩)

/-- A first hold has a row. -/
theorem FirstHolds.ne_nil {holds : List InventoryReservation} {request : ReservationRequest}
    {unconfirmedHold now : Nat} {db : Db}
    (h : FirstHolds unconfirmedHold now ids request db holds) : holds ≠ [] := by
  rintro rfl
  exact request.lines_ne_nil (List.map_eq_nil_iff.1 h.lines.symm)

/-- A create whose id has rows does not come to what one with an unused id does. -/
theorem not_sameOutcome_of_rows (h : Consistent s.inventory.db)
    (hrows : forShipment r.shipmentId s.inventory.db ≠ []) (hfresh : s.Unused fresh)
    (hids : Fresh ids r.payload.items.length s.inventory.db) {warehouse : WarehouseRef}
    (hwarehouse : requireOperational "it cannot originate shipments." s.refs
      r.payload.originWarehouseId = .ok warehouse) :
    ¬ SameOutcome s.inventory.db (g.createAlone s r ids)
      (g.createAlone s (r.under fresh) ids) := by
  rintro ⟨hanswer, hstock⟩
  have hids' : Fresh ids (r.under fresh).reservation.lines.length s.inventory.db := by
    rwa [CreateRequest.reservation, ShipmentCreate.reservation, List.length_map]
  have hunused := createAlone_first (g := g) (r := r.under fresh) h hfresh.rows hfresh.shipment
    hids hwarehouse
  cases hout : firstHold g.unconfirmedHold s.inventory.clock ids (r.under fresh).reservation
      s.inventory.db with
  | error failure =>
    -- the fresh id is refused by Inventory, with a code a used one never gets
    rw [hout] at hunused
    rw [hunused] at hanswer
    rcases createAlone_again (g := g) ids hrows hwarehouse with ⟨failure', hcode, heq⟩ |
      ⟨error, db, heq⟩ | ⟨shipment, heq⟩
    · rw [heq] at hanswer
      have hsame : Failure.code failure' = Failure.code failure := hanswer
      have hcode' := code_of_firstHold hout
      rw [hsame] at hcode
      simp only [List.mem_cons, List.not_mem_nil, or_false] at hcode hcode'
      rcases hcode with hcode | hcode <;> rw [hcode] at hcode' <;> revert hcode' <;> decide
    · rw [heq] at hanswer
      exact hanswer
    · rw [heq] at hanswer
      exact hanswer
  | ok out =>
    -- the fresh id gets a new hold
    obtain ⟨answer, holds⟩ := out
    rw [hout] at hunused
    rw [hunused] at hanswer hstock
    rcases createAlone_again (g := g) ids hrows hwarehouse with ⟨failure', hcode, heq⟩ |
      ⟨error, db, heq⟩ | ⟨shipment, heq⟩
    · rw [heq] at hanswer
      exact hanswer
    · rw [heq] at hanswer
      exact hanswer
    · rw [heq] at hstock
      have hholds := firstHolds h hout
      dsimp only at hstock
      rw [stockAfter_first (FirstHolds.isNew hholds hids')] at hstock
      simp only [stockAfter, Prod.mk.injEq] at hstock
      obtain ⟨-, -, hnew, -⟩ := hstock
      have hknown : s.inventory.db.reservations.filter
          (fun r => !s.inventory.db.reservations.any (·.id == r.id)) = [] := by
        refine List.filter_eq_nil_iff.2 fun row hrow => ?_
        have hany : (s.inventory.db.reservations.any fun x => x.id == row.id) = true :=
          List.any_eq_true.2 ⟨row, hrow, beq_self_eq_true _⟩
        rw [hany]
        exact Bool.false_ne_true
      rw [hknown, List.map_nil, eq_comm, List.map_eq_nil_iff] at hnew
      exact FirstHolds.ne_nil hholds hnew

end Alone

/-! ## The whole -/

/-- In every reachable state, for every create and every unused shipment id: the create comes to the
same with its own id as with the unused one exactly if its id is free again. -/
theorem same_outcome_iff {g : Settings} {s : Saga} (hreach : g.machine.Run .initial s)
    (r : CreateRequest) {fresh ids : Nat} (hfresh : s.Unused fresh)
    (hids : Fresh ids r.payload.items.length s.inventory.db) :
    SameOutcome s.inventory.db (g.createAlone s r ids) (g.createAlone s (r.under fresh) ids) ↔
      s.FreeAgain r := by
  have h : Consistent s.inventory.db := (sound_of_saga hreach).inv
  cases hwarehouse : requireOperational "it cannot originate shipments." s.refs
      r.payload.originWarehouseId with
  | error failure =>
    -- both are refused before anything happens
    have hrefused : ∀ r' : CreateRequest, r'.payload = r.payload →
        g.createAlone s r' ids = (.error (.refused failure), s.inventory.db) := by
      intro r' hpayload
      unfold Settings.createAlone
      rw [hpayload, hwarehouse]
    rw [hrefused r rfl, hrefused (r.under fresh) rfl]
    exact ⟨fun _ => Or.inl ⟨failure, hwarehouse⟩,
      fun _ => ⟨CreateError.sameClass_refl (.refused failure), rfl⟩⟩
  | ok warehouse =>
    constructor
    · intro hsame
      refine Or.inr (by_contra fun hrows => ?_)
      exact not_sameOutcome_of_rows h hrows hfresh hids hwarehouse hsame
    · rintro (⟨failure, hrefused⟩ | hrows)
      · rw [hwarehouse] at hrefused
        cases hrefused
      · -- a recorded shipment would have rows
        have hshipment : s.shipments r.shipmentId = none := by
          refine Option.eq_none_iff_forall_not_mem.2 fun shipment hrecorded => ?_
          obtain ⟨t, request, -, -, -, hhas⟩ :=
            (answered_of_saga hreach).recorded r.shipmentId shipment hrecorded
          exact forShipment_eq_nil.1 hrows hhas
        exact sameOutcome_of_first h hrows hshipment hfresh hids hwarehouse

/-- Request 1 has been granted the key of request 0, which has ended. -/
structure Saga.Regranted (s : Saga) (r : CreateRequest) : Prop where
  granted : s.creates 1 = some r
  phase : r.phase = .creating
  before : ∃ r₀, s.creates 0 = some r₀ ∧ r₀.phase = .ended ∧
    r₀.principal.userId = r.principal.userId ∧ r₀.idempotencyKey = r.idempotencyKey

/-- The facts of a run in which request 1 has been granted the key of request 0. -/
def regranted (s : Saga) : Bool :=
  match s.creates 0, s.creates 1 with
  | some r₀, some r => r.phase == .creating && r₀.phase == .ended &&
      r₀.principal.userId == r.principal.userId && r₀.idempotencyKey == r.idempotencyKey &&
      (forShipment 51 s.inventory.db).isEmpty && (s.shipments 51).isNone &&
      s.inventory.db.reservations.all (fun row => decide (row.id < 60))
  | _, _ => false

theorem of_regranted {s : Saga} (h : regranted s = true) : ∃ r, s.Regranted r ∧ s.Unused 51 ∧
    Fresh 60 r.payload.items.length s.inventory.db := by
  unfold regranted at h
  split at h
  · rename_i r₀ r hr₀ hr
    simp only [Bool.and_eq_true, beq_iff_eq, List.isEmpty_iff, Option.isNone_iff_eq_none,
      List.all_eq_true, decide_eq_true_eq] at h
    obtain ⟨⟨⟨⟨⟨⟨hphase, hended⟩, huser⟩, hkey⟩, hrows⟩, hshipment⟩, hids⟩ := h
    refine ⟨r, ⟨hr, hphase, r₀, hr₀, hended, huser, hkey⟩, ⟨hrows, hshipment⟩, ?_⟩
    intro row hrow k _
    have hlt := hids row hrow
    omega
  · cases h

/-- Request 0 raises before it asks Inventory, and request 1 uses its key. -/
def failedEarly : List SagaLabel :=
  stockedSaga ++ [.post 0 sampleAdmin (some "k") (samplePayload 1) 0, .act 0 .claim,
    .act 0 .raise, .act 0 (.release true), .act 0 .compensate,
    .post 1 sampleAdmin (some "k") (samplePayload 1) 0, .act 1 .claim]

/-- Then the key is as good as new. -/
theorem same_outcome_after_early_failure : ∃ s r, sampleSettings.machine.Run .initial s ∧
    s.Regranted r ∧ s.FreeAgain r ∧ SameOutcome s.inventory.db
      (sampleSettings.createAlone s r 60) (sampleSettings.createAlone s (r.under 51) 60) := by
  have hrun : (sampleSettings.machine.exec .initial failedEarly).map (fun s =>
      (regranted s, s.inventory.db.reservations.length)) = some (true, 0) := by
    decide +kernel
  obtain ⟨s, hs, hfacts⟩ := Option.map_eq_some_iff.1 hrun
  rw [Prod.mk.injEq, List.length_eq_zero_iff] at hfacts
  obtain ⟨r, hr, hunused, hids⟩ := of_regranted hfacts.1
  have hreach : sampleSettings.machine.Run .initial s := Machine.run_of_exec _ hs
  have hfree : s.FreeAgain r := Or.inr (by rw [forShipment, hfacts.2, List.filter_nil])
  exact ⟨s, r, hreach, hr, hfree, (same_outcome_iff hreach r hunused hids).2 hfree⟩

/-- Request 0 fails after its reservation and releases it, and request 1 uses its key. -/
def reused : List SagaLabel :=
  stockedSaga ++ [.post 0 sampleAdmin (some "k") (samplePayload 1) 0, .act 0 .claim] ++
    reservedUnderKey 0 14 ++
    [.act 0 .raise, .act 0 (.release true), .act 0 .compensate, .send 0, .deliver 0 4] ++
    statements 4 14 0 ++
    [.act 0 .finish, .post 1 sampleAdmin (some "k") (samplePayload 1) 0, .act 1 .claim]

/-- How many units a create leaves reserved, if it records its shipment. -/
def reservedAfter (o : Except CreateError Shipment × Db) : Option (List Int) :=
  match o.1 with
  | .ok _ => some (o.2.items.map InventoryItem.reservedQty)
  | .error _ => none

/-- The hold of the key's shipment is RELEASED, so the create of request 1 records the shipment and
holds nothing; with an unused id it would hold its stock. -/
theorem not_same_outcome_after_compensation : ∃ s r, sampleSettings.machine.Run .initial s ∧
    s.Regranted r ∧ s.Unused 51 ∧ Fresh 60 r.payload.items.length s.inventory.db ∧
    ¬ SameOutcome s.inventory.db (sampleSettings.createAlone s r 60)
      (sampleSettings.createAlone s (r.under 51) 60) := by
  have hrun : (sampleSettings.machine.exec .initial reused).map (fun s => (regranted s,
      (s.creates 1).map fun r => (reservedAfter (sampleSettings.createAlone s r 60),
        reservedAfter (sampleSettings.createAlone s (r.under 51) 60)))) =
      some (true, some (some [0], some [1])) := by
    decide +kernel
  obtain ⟨s, hs, hfacts⟩ := Option.map_eq_some_iff.1 hrun
  rw [Prod.mk.injEq] at hfacts
  obtain ⟨r, hr, hunused, hids⟩ := of_regranted hfacts.1
  refine ⟨s, r, Machine.run_of_exec _ hs, hr, hunused, hids, fun hsame => ?_⟩
  have hreserved := hfacts.2
  rw [hr.granted, Option.map_some, Option.some.injEq, Prod.mk.injEq] at hreserved
  have hitems : (sampleSettings.createAlone s r 60).2.items =
      (sampleSettings.createAlone s (r.under 51) 60).2.items := congrArg Prod.fst hsame.stock
  obtain ⟨hused, hnew⟩ := hreserved
  unfold reservedAfter at hused hnew
  split at hused
  · split at hnew
    · rw [hitems] at hused
      rw [hused] at hnew
      cases hnew
    · cases hnew
  · cases hused

end SmartLogistics.Shipment
