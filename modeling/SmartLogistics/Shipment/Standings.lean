import SmartLogistics.Inventory.HoldLife
import SmartLogistics.Shipment.Answers

/-!
# What commits make of a shipment's rows

The operations of Inventory that a shipment's events stand for leave its rows in one of three
standings (`settledBy`): all of them, if they are HELD and were there when the transaction was
opened (`standing_of_committed`). In general a commit moves rows on as its operation says, and adds
none or those of a new hold (`rows_of_committed`).
-/

set_option autoImplicit false

namespace SmartLogistics.Shipment

open SmartLogistics.Library SmartLogistics.Platform SmartLogistics.Warehouse
  SmartLogistics.Inventory

/-- What the events of a shipment make of its rows. -/
inductive Standing
  | held
  | committed
  | released
  deriving DecidableEq, Repr

/-- The row stands so; a hold of a recorded shipment is confirmed. -/
def Standing.Of : Standing → InventoryReservation → Prop
  | .held, r => r.status = .held ∧ r.confirmedAt ≠ none
  | .committed, r => r.status = .committed
  | .released, r => r.status = .released

/-- The shipment whose rows an operation moves, and how they stand afterwards. -/
def settledBy : Operation → Option (Nat × Standing)
  | .confirm shipmentId => some (shipmentId, .held)
  | .commit shipmentId _ => some (shipmentId, .committed)
  | .release shipmentId _ => some (shipmentId, .released)
  | _ => none

/-- The rows that the shipment has were there when the transaction was opened. -/
def Knows (opened : Db) (shipmentId : Nat) (db : Db) : Prop :=
  ∀ r ∈ db.reservations, r.shipmentId = shipmentId →
    ∃ r₀ ∈ opened.reservations, r₀.id = r.id ∧ r₀.shipmentId = shipmentId

section Commits

variable {unconfirmedHold clock shipmentId : Nat} {op : Operation} {opened db db' : Db}
  {held : Row → Prop} {outcome : Outcome} {holds : List InventoryReservation}

/-- A transaction that knows the rows of a shipment has locked all its HELD ones. -/
theorem mem_of_knows (hinv : Consistent db) (hl : HeldRows shipmentId opened held holds db)
    (hknows : Knows opened shipmentId db) {r : InventoryReservation} (hr : r ∈ db.reservations)
    (hship : r.shipmentId = shipmentId) (hstatus : r.status = .held) : r ∈ holds := by
  have hk : Table.Keyed InventoryReservation.id db.reservations := hinv.reservations
  obtain ⟨r₀, hr₀, hid₀, hship₀⟩ := hknows r hr hship
  obtain ⟨r', hr', hid, honly⟩ := hl.known r₀ hr₀ hship₀
  obtain rfl := hk.eq_of_key hr' hr (hid.trans hid₀)
  exact honly hstatus

/-- A rewrite of all rows of a shipment leaves each of them rewritten. -/
theorem of_rewritten (hinv : Consistent db) (hs : Selected holds db)
    {set : InventoryReservation → InventoryReservation} (hset : KeepsLine set)
    (hall : ∀ r ∈ db.reservations, r.shipmentId = shipmentId → r ∈ holds)
    {P : InventoryReservation → Prop} (hP : ∀ r, P (set r)) {r' : InventoryReservation}
    (hr' : r' ∈ (db.writeReservations (holds.map (·.id)) set).reservations)
    (hship : r'.shipmentId = shipmentId) : P r' := by
  obtain ⟨r, hr, rfl⟩ := Db.mem_writeReservations.1 hr'
  have hsame : r.shipmentId = shipmentId := by
    split at hship
    · exact (hset.shipment r).symm.trans hship
    · exact hship
  rw [if_pos ((hs.contains_iff hinv.reservations hr).2 (hall r hr hsame))]
  exact hP r

/-- A transaction that knows the rows of a shipment, and finds them all HELD, moves them all. -/
theorem standing_of_committed (hinv : Consistent db)
    (hpost : Committed unconfirmedHold op opened held outcome clock db db') {standing : Standing}
    (hop : settledBy op = some (shipmentId, standing)) (hknows : Knows opened shipmentId db)
    (hheld : ∀ r ∈ db.reservations, r.shipmentId = shipmentId → r.status = .held) :
    ∀ r ∈ db'.reservations, r.shipmentId = shipmentId → standing.Of r := by
  have hall : ∀ {holds}, HeldRows shipmentId opened held holds db →
      ∀ r ∈ db.reservations, r.shipmentId = shipmentId → r ∈ holds :=
    fun hl r hr hship => mem_of_knows hinv hl hknows hr hship (hheld r hr hship)
  cases op with
  | confirm id =>
    cases hop
    cases outcome with
    | item item => exact hpost.elim
    | reserved answer created => exact hpost.elim
    | count n =>
      obtain ⟨now, holds, hl, -, rfl⟩ := hpost
      intro r' hr' hship
      obtain ⟨r, hr, rfl⟩ := Db.mem_writeReservations.1 hr'
      split
      · rename_i hsel
        rw [if_pos hsel] at hship
        exact ⟨hheld r hr hship, by simp [InventoryReservation.confirm]⟩
      · -- a row that is not written had been confirmed
        rename_i hnot
        rw [if_neg hnot] at hship
        refine ⟨hheld r hr hship, fun hnone => hnot ?_⟩
        rw [List.contains_eq_mem, decide_eq_true_eq]
        exact List.mem_map_of_mem (List.mem_filter.2 ⟨hall hl r hr hship, by rw [hnone]; rfl⟩)
  | commit id actorId =>
    cases hop
    cases outcome with
    | item item => exact hpost.elim
    | reserved answer created => exact hpost.elim
    | count n =>
      rcases hpost with ⟨-, rfl, hl, -⟩ | ⟨now, holds, rows, -, hl, -, -, -, rfl⟩
      · exact fun r hr hship => absurd (hall hl r hr hship) List.not_mem_nil
      · exact fun r hr hship => of_rewritten hinv hl.toSelected (keepsLine_commit now) (hall hl)
          (P := Standing.committed.Of) (fun _ => rfl) hr hship
  | release id reason =>
    cases hop
    cases outcome with
    | item item => exact hpost.elim
    | reserved answer created => exact hpost.elim
    | count n =>
      rcases hpost with ⟨-, rfl, hl⟩ | ⟨now, holds, -, hl, -, -, rfl⟩
      · exact fun r hr hship => absurd (hall hl r hr hship) List.not_mem_nil
      · exact fun r hr hship => of_rewritten hinv hl.toSelected (keepsLine_release reason now)
          (hall hl) (P := Standing.released.Of) (fun _ => rfl) hr hship
  | openPosition payload principal => cases hop
  | adjust itemId payload principal => cases hop
  | reserve request => cases hop
  | releaseExpired warehouseIds => cases hop

/-- The rows that a reserve adds: unconfirmed holds, one for each line. -/
structure Reserved (request : ReservationRequest) (new : List InventoryReservation) : Prop where
  rows : ∀ r ∈ new, r.shipmentId = request.shipmentId ∧ r.status = .held ∧ r.confirmedAt = none
  lines : new.map (fun r => (r.skuId, r.quantity)) =
    request.lines.map fun line => (line.skuId, line.quantity)

/-- A commit moves rows on, and adds none or those of a reserve. -/
theorem rows_of_committed (hinv : Consistent db)
    (hpost : Committed unconfirmedHold op opened held outcome clock db db') :
    ∃ f new, db'.reservations = db.reservations.map f ++ new ∧
      (∀ r ∈ db.reservations, RowStep op clock r (f r)) ∧
      (new = [] ∨ ∃ request, op = .reserve request ∧ Reserved request new) := by
  by_cases hreserve : ∃ request answer, op = .reserve request ∧ outcome = .reserved answer true
  · obtain ⟨request, answer, rfl, rfl⟩ := hreserve
    obtain ⟨-, cutoff, now, expired, time, holds, hcutoff, hnow, htime, hl, hholds, hlines, rfl⟩ :=
      hpost
    have hsweeps : (Operation.reserve request).Sweeps := trivial
    have hle : cutoff ≤ clock := by omega
    refine ⟨_, holds, rfl, fun r hr => rowStep_expireRows hinv.reservations hsweeps hle hl now hr,
      Or.inr ⟨request, rfl, fun r hr => ?_, hlines⟩⟩
    exact ⟨(hholds r hr).shipment, (hholds r hr).status, (hholds r hr).unconfirmed⟩
  · obtain ⟨f, new, _, _, he⟩ := effect_of_commit hinv hpost
    refine ⟨f, new, he.reservations, he.old, Or.inl ?_⟩
    refine List.eq_nil_iff_forall_not_mem.2 fun r hr => ?_
    obtain ⟨request, rfl, -⟩ := (he.added r hr).request
    cases outcome with
    | item item => exact hpost
    | count n => exact hpost
    | reserved answer created =>
      cases created with
      | true => exact hreserve ⟨request, answer, rfl, rfl⟩
      | false =>
        -- an answer from the rows that are there writes nothing
        have hlength := congrArg List.length he.reservations
        rw [hpost.2.2, List.length_append, List.length_map] at hlength
        have hnil : new = [] := List.eq_nil_of_length_eq_zero (by omega)
        rw [hnil] at hr
        exact List.not_mem_nil hr

end Commits

end SmartLogistics.Shipment
