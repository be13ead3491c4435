import SmartLogistics.Inventory.Sweeps
import SmartLogistics.Shipment.Balance

/-!
# Stock comes back

A create that dies after its reserve, or whose compensation is lost, leaves a hold that no shipment
will ever claim. Such a hold lapses, and a sweep gives its stock back: when a sweep of all
warehouses has been answered, what is reserved at a position is held for a recorded shipment or by
a hold that had not lapsed when the sweep began (`reserved_after_sweep`). So an abandoned hold keeps
its stock for no longer than a hold may stay unconfirmed, and the time to the end of the next sweep.
-/

set_option autoImplicit false

namespace SmartLogistics.Shipment

open SmartLogistics.Library SmartLogistics.Platform SmartLogistics.Warehouse
  SmartLogistics.Inventory

/-- The label starts no transaction of Inventory under the name `u`. -/
def SagaLabel.Spares (u : Nat) : SagaLabel → Prop
  | .deliver _ v => v ≠ u
  | .operate v _ => v ≠ u
  | .handle v _ => v ≠ u
  | _ => True

instance (u : Nat) (l : SagaLabel) : Decidable (l.Spares u) := by
  unfold SagaLabel.Spares
  split <;> infer_instance

namespace Saga

variable {g : Settings} {s s' : Saga} {l : SagaLabel} {u draw : Nat}

/-- Inventory's part of a step that starts no transaction `u`. -/
theorem inventory_spares (h : g.next s l = some s') (hspares : l.Spares u) :
    (Inventory.inventory g.unconfirmedHold).machine.RunOf (fun _ k => k.Spares u) s.inventory
      s'.inventory := by
  have hnext : ∀ {k : Label Operation Environment} {c : Config Db Row Failure Outcome Operation},
      (Inventory.inventory g.unconfirmedHold).next s.inventory k = some c → k.Spares u →
      (Inventory.inventory g.unconfirmedHold).machine.RunOf (fun _ k => k.Spares u)
        s.inventory c :=
    fun hstep hk => Relation.ReflTransGen.single ⟨_, hk, hstep⟩
  cases Settings.step_of_next h with
  | settle hsession hstep hprog hpending hclosed =>
    rw [settle_inventory, close_inventory]
    exact hnext hstep trivial
  | @stop v l l' c hrun hstep hstart hdb hclock hclosed =>
    rw [close_inventory]
    refine hnext hstep ?_
    cases l' with
    | start w op => exact absurd rfl (hstart w op)
    | _ => trivial
  | run hstep hdb hclock hopen => exact hnext hstep trivial
  | deliver hcall hstart => exact hnext hstart hspares
  | operate hstart => exact hnext hstart hspares
  | handle hfree hevent hop hstart => exact hnext hstart hspares
  | @environment e => exact hnext (k := .env e) rfl trivial
  | @tick n keys => exact hnext (k := .tick n) rfl trivial
  | _ => exact Relation.ReflTransGen.refl

/-- A statement of Inventory's transaction `u`. -/
theorem inventory_run (h : g.next s (.run u draw) = some s') :
    (Inventory.inventory g.unconfirmedHold).next s.inventory (.step u draw) =
      some s'.inventory := by
  simp only [Settings.next] at h
  split at h
  · cases h
  obtain ⟨c, hc, rfl⟩ := Option.map_eq_some_iff.1 h
  rw [hc]
  split <;> split <;> simp

theorem inventory_operate {op : Operation} (h : g.next s (.operate u op) = some s') :
    (Inventory.inventory g.unconfirmedHold).next s.inventory (.start u op) =
      some s'.inventory := by
  obtain ⟨c, hc, rfl⟩ := Option.map_eq_some_iff.1 h
  exact hc

/-- A statement that answers a sweep is none that the run assumes anything of. -/
theorem assumes_of_answer {a : Outcome} (h : s.inventory.delivered
    (.step u draw : Label Operation Environment) = some (.releaseExpired none, a)) :
    g.Assumes s (.run u draw) := by
  intro session shipmentId hsession hop
  obtain ⟨answering, hanswering, hresult⟩ := Option.bind_eq_some_iff.1 h
  obtain ⟨_, -, heq⟩ := Option.map_eq_some_iff.1 hresult
  obtain rfl := Option.some.inj (hsession.symm.trans hanswering)
  rw [Prod.mk.injEq, hop] at heq
  cases heq.1

/-- The units held at a position for shipments that are not recorded, by holds that had not lapsed
in the state `s₀`. -/
def recentUnits (s₀ s : Saga) (i : InventoryItem) : Int :=
  Table.totalBy (fun r => r.holds i.id && (s.shipments r.shipmentId).isNone &&
    s₀.inventory.db.reservations.all fun r₀ =>
      !(r₀.id == r.id && isLapsed s₀.inventory.clock r₀)) (·.quantity)
    s.inventory.db.reservations

end Saga

/-- When a sweep has been answered, what is reserved at a position is held for the recorded
shipments, or by a hold that had not lapsed when the sweep began. -/
theorem reserved_after_sweep {g : Settings} {s₀ s₁ s s' : Saga} {u draw : Nat} {a : Outcome}
    (h : g.machine.RunOf g.Assumes .initial s₀)
    (hstart : g.machine.next s₀ (.operate u (.releaseExpired none)) = some s₁)
    (hrun : g.machine.RunOf (fun s l => g.Assumes s l ∧ l.Spares u) s₁ s)
    (hnext : g.machine.next s (.run u draw) = some s')
    (hanswer : s.inventory.delivered (.step u draw : Label Operation Environment) =
      some (.releaseExpired none, a))
    (hhandled : ∀ id ∈ s'.shipmentIds, s'.handled id = (s'.events id).length) :
    ∀ i ∈ s'.inventory.db.items,
      i.reservedQty = s'.recordedUnits .held i + s₀.recentUnits s' i := by
  intro i hi
  have hassumed : g.machine.RunOf g.Assumes .initial s' := by
    have hbegun : g.machine.RunOf g.Assumes .initial s₁ :=
      h.tail ⟨.operate u (.releaseExpired none), rfl, hstart⟩
    exact (hbegun.trans (hrun.mono fun _ _ hl => hl.1)).tail
      ⟨.run u draw, Saga.assumes_of_answer hanswer, hnext⟩
  have hsteady := (Saga.sited_of_run hassumed).1
  -- the sweep as a transaction of Inventory
  have hswept := not_isOpen_of_sweep (Saga.reachable_inventory h.toRun)
    (Saga.inventory_operate hstart)
    (Relation.ReflTransGen.lift' Saga.inventory
      (fun _ _ ⟨_, hl, hstep⟩ => Saga.inventory_spares hstep hl.2) s₁ s hrun)
    (Saga.inventory_run hnext) hanswer
  rw [Saga.reservedQty_eq hassumed hhandled hi, Saga.unrecordedUnits, Saga.recentUnits]
  congr 1
  refine Table.totalBy_congr (fun r hr => ?_) fun _ _ _ => rfl
  cases hunrecorded : r.holds i.id && (s'.shipments r.shipmentId).isNone with
  | false => rw [Bool.false_and]
  | true =>
    rw [Bool.true_and, eq_comm, List.all_eq_true]
    intro r₀ hr₀
    by_contra hlapsed
    simp only [Bool.not_eq_true', Bool.not_eq_false, Bool.and_eq_true, beq_iff_eq] at hlapsed
    rw [Bool.and_eq_true, Option.isNone_iff_eq_none] at hunrecorded
    obtain ⟨hholds, hnone⟩ := hunrecorded
    simp only [InventoryReservation.holds, Bool.and_eq_true, beq_iff_eq] at hholds
    -- a hold that no shipment is recorded for is not confirmed
    rcases hsteady.unrecorded hnone hr rfl with hreleased | ⟨hheld, hopen, -⟩
    · rw [hreleased] at hholds
      cases hholds.2
    · exact hswept r₀ hr₀ hlapsed.2 rfl r hr hlapsed.1.symm ⟨hheld, hopen⟩

/-- Order 50 is recorded, and the create of 51 has reserved and died. -/
def abandonedOrder : List SagaLabel :=
  confirmedOrder ++ [.post 1 sampleAdmin none (samplePayload 1) 51, .act 1 .check, .send 1,
    .deliver 0 2] ++ statements 2 14 32 ++ [.act 1 .die, .tick 1800]

/-- The hold of 51 is swept, and that of 50 stays. -/
theorem reserved_after_sweep_of_abandoned :
    ∃ s₀ s' : Saga,
      s₀.inventory.db.items.map (·.reservedQty) = [2] ∧
      s'.inventory.db.items.map (·.reservedQty) = [1] ∧
      ∀ i ∈ s'.inventory.db.items,
        i.reservedQty = s'.recordedUnits .held i + s₀.recentUnits s' i := by
  have hrun : (sampleSettings.machine.execOf (fun s l => isAssumed sampleSettings s l = true)
      .initial abandonedOrder).bind (fun s₀ =>
      (sampleSettings.machine.next s₀ (.operate 6 (.releaseExpired none))).bind fun s₁ =>
        (sampleSettings.machine.execOf
          (fun s l => isAssumed sampleSettings s l = true ∧ l.Spares 6) s₁
          (statements 6 12 0)).bind fun s =>
          (sampleSettings.machine.next s (.run 6 0)).map fun s' =>
            (s₀.inventory.db.items.map (·.reservedQty), s'.inventory.db.items.map (·.reservedQty),
              (s.inventory.delivered (.step 6 0 : Label Operation Environment)).map
                (·.1.isFullSweep),
              s'.shipmentIds.all fun id => s'.handled id == (s'.events id).length)) =
      some ([2], [1], some true, true) := by
    decide +kernel
  obtain ⟨s₀, h₀, hrest⟩ := Option.bind_eq_some_iff.1 hrun
  obtain ⟨s₁, h₁, hrest⟩ := Option.bind_eq_some_iff.1 hrest
  obtain ⟨s, hs, hrest⟩ := Option.bind_eq_some_iff.1 hrest
  obtain ⟨s', h', hfacts⟩ := Option.map_eq_some_iff.1 hrest
  simp only [Prod.mk.injEq, List.all_eq_true, beq_iff_eq] at hfacts
  obtain ⟨hbefore, hafter, hanswer, hhandled⟩ := hfacts
  obtain ⟨⟨op, a⟩, hdelivered, hop⟩ := Option.map_eq_some_iff.1 hanswer
  obtain rfl := Operation.eq_of_isFullSweep hop
  refine ⟨s₀, s', hbefore, hafter, reserved_after_sweep ?_ h₁ ?_ h' hdelivered hhandled⟩
  · exact (Machine.runOf_of_execOf _ h₀).mono fun _ _ => assumes_of_isAssumed
  · exact (Machine.runOf_of_execOf _ hs).mono fun _ _ hl => ⟨assumes_of_isAssumed hl.1, hl.2⟩

end SmartLogistics.Shipment
