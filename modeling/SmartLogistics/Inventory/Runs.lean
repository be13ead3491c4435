import SmartLogistics.Inventory.Obligations
import SmartLogistics.Library.LockOrder

/-!
# Stock accounting and deadlock over whole runs

What holds in every configuration that some interleaving of Inventory's transactions reaches.
`stock_accounting`: counters, holds and ledger agree, and the database refuses no write of a
reserve, confirm, commit, release or sweep on a CHECK constraint. `not_deadlock`: as long as commit
and release lock a reservation only when they hold its item, no cycle of waiting transactions
forms; `deadlock_on_late_hold` is a run in which they do not and one forms.
-/

set_option autoImplicit false

namespace SmartLogistics.Inventory

open SmartLogistics.Library SmartLogistics.Platform SmartLogistics.Warehouse

variable {unconfirmedHold : Nat}

/-! ## Stock accounting -/

/-- Counters, holds and ledger agree in the committed state, and the database refuses no write on a
CHECK constraint, an adjustment's apart. -/
structure StockAccounting (c : Config Db Row Failure Outcome Operation) : Prop where
  reserved : ∀ i ∈ c.db.items, i.reservedQty = heldQty c.db.reservations i.id
  on_hand : ∀ i ∈ c.db.items, i.onHandQty = ledger c.db.movements i.id
  running : Running c.db.movements
  bounds : ∀ i ∈ c.db.items, 0 ≤ i.reservedQty ∧ i.reservedQty ≤ i.onHandQty
  unrefused : ∀ t s e, c.sessions t = some s → ¬ s.op.IsAdjust →
    s.outcome c.db = .error (.integrity e) → e.sqlstate ≠ .checkViolation

/-- Every reachable configuration keeps its stock accounts. -/
theorem stock_accounting {c : Config Db Row Failure Outcome Operation}
    (h : Reachable unconfirmedHold c) : StockAccounting c := by
  have hsound := sound_of_reachable h
  have hinv : Consistent c.db := hsound.inv
  refine ⟨hinv.reserved, hinv.on_hand, hinv.running,
    fun i hi => ⟨hinv.reserved_nonneg i hi, hinv.within i hi⟩, ?_⟩
  intro t s e hs hop he
  exact hsound.refusal hs he hop e rfl

/-! ## Runs on given labels -/

/-- One session from its start: `draws` has one entry a statement, the id it gets if it draws
one. -/
def session (t : Nat) (op : Operation) (draws : List Nat) : List (Label Operation Environment) :=
  .start t op :: draws.map (.step t)

/-- An active SKU. -/
def sampleSku (id : Nat) (code : String) : Sku where
  id := id
  code := code
  name := code
  weightG := 650
  unitValue := none
  currency := "PKR"
  isActive := true
  deletedAt := none

/-- The active warehouse 7. -/
def sampleWarehouse : WarehouseRef where
  id := 7
  code := "KHI-01"
  name := "Karachi"
  status := "active"
  city := "Karachi"
  isDeleted := false
  sourceUpdatedAt := 0

/-- Ten units of a SKU, opened by an admin. -/
def samplePosition (skuId : Nat) : Operation :=
  .openPosition
    { warehouseId := 7
      skuId := skuId
      zoneId := none
      onHandQty := 10
      reorderLevel := 0
      onHandQty_nonneg := by decide
      reorderLevel_nonneg := by decide }
    { userId := 1
      role := .admin
      warehouseIds := [] }

/-- One unit of a SKU. -/
def unit (skuId : Nat) : ReservationLineRequest where
  skuId := skuId
  quantity := 1
  quantity_pos := by decide
  quantity_le := by decide

/-- A reserve of one unit of a SKU. -/
def reserveOne (shipmentId skuId : Nat) : Operation :=
  .reserve
    { shipmentId := shipmentId
      warehouseId := 7
      lines := [unit skuId]
      lines_ne_nil := List.cons_ne_nil _ _
      lines_length_le := by simp
      unique_skus := List.nodup_singleton _ }

/-- A reserve of one unit of each of two SKUs. -/
def reserveBoth (shipmentId : Nat) : Operation :=
  .reserve
    { shipmentId := shipmentId
      warehouseId := 7
      lines := [unit 1, unit 2]
      lines_ne_nil := List.cons_ne_nil _ _
      lines_length_le := by decide
      unique_skus := by decide }

/-- Two SKUs, one warehouse, and ten units of each: SKU 1 is item 20, SKU 2 is item 10. -/
def stocked : List (Label Operation Environment) :=
  [.env (.catalog [sampleSku 1 "KBD", sampleSku 2 "MOUSE"]), .env (.replica [sampleWarehouse])] ++
    session 0 (samplePosition 1) (.replicate 7 20) ++ session 0 (samplePosition 2) (.replicate 7 10)

/-- Both items hold one unit each after a reserve. -/
theorem stock_accounting_after_reserve :
    ∃ c, Reachable 30 c ∧ c.db.items.map (·.reservedQty) = [1, 1] ∧ StockAccounting c := by
  have hrun : ((inventory 30).machine.exec (.idle .empty) (stocked ++ session 0 (reserveBoth 50)
      [0, 0, 0, 0, 0, 0, 0, 0, 0, 0, 0, 0, 31, 32, 0, 0, 0])).map
        (fun c => c.db.items.map (·.reservedQty)) = some [1, 1] := by
    decide +kernel
  obtain ⟨c, hc, hqty⟩ := Option.map_eq_some_iff.1 hrun
  have hreach : Reachable 30 c := Machine.run_of_exec _ hc
  exact ⟨c, hreach, hqty, stock_accounting hreach⟩

/-! ## Deadlock -/

/-- If the step is one at which a commit or a release locks a reservation, it holds the lock on the
reservation's item. -/
def RelocksHeld (c : Config Db Row Failure Outcome Operation) :
    Label Operation Environment → Prop
  | .step t _ =>
    match c.sessions t with
    | some s =>
      match s.prog with
      | .lock (.reservation id) _ => s.op.Relocks →
        ∀ r ∈ c.db.reservations, r.id = id → c.locks (.item r.inventoryItemId) = some t
      | _ => True
    | none => True
  | _ => True

instance (c : Config Db Row Failure Outcome Operation) (l : Label Operation Environment) :
    Decidable (RelocksHeld c l) := by
  unfold RelocksHeld
  split
  · split
    · split <;> infer_instance
    · infer_instance
  · infer_instance

/-- A locked reservation exists, and an operation that will lock items again holds its item. -/
def HoldsItem (op : Operation) (held : Row → Prop) : Row → Db → Prop
  | .item _, _ => True
  | .reservation id, db =>
    ∃ r ∈ db.reservations, r.id = id ∧ (op.Relocks → held (.item r.inventoryItemId))

theorem HoldsItem.mono (op : Operation) (held held' : Row → Prop) (r : Row) (db : Db)
    (hle : ∀ x, held x → held' x) (h : HoldsItem op held r db) : HoldsItem op held' r db := by
  cases r with
  | item id => trivial
  | reservation id =>
    obtain ⟨r, hr, hid, hitem⟩ := h
    exact ⟨r, hr, hid, fun hop => hle _ (hitem hop)⟩

theorem HoldsItem.stable (op : Operation) (held : Row → Prop) (r : Row) (a b : Db)
    (hg : Grows a b) (h : HoldsItem op held r a) : HoldsItem op held r b := by
  cases r with
  | item id => trivial
  | reservation id =>
    obtain ⟨r, hr, hid, hitem⟩ := h
    obtain ⟨r', hr', hgr⟩ := hg.reservations r hr
    exact ⟨r', hr', hgr.id.trans hid, fun hop => hgr.item ▸ hitem hop⟩

/-- Along a run in which commit and release lock a reservation only when they hold its item, every
locked reservation's item is held. -/
theorem guarded_of_run {c : Config Db Row Failure Outcome Operation}
    (h : (inventory unconfirmedHold).machine.RunOf RelocksHeld (.idle .empty) c) :
    c.Sound (protocol unconfirmedHold) ∧ c.Guarded HoldsItem := by
  have hD := protocol_governs unconfirmedHold
  have hstep : ∀ (c : Config Db Row Failure Outcome Operation) l c',
      c.Sound (protocol unconfirmedHold) ∧ c.Guarded HoldsItem → RelocksHeld c l →
      (inventory unconfirmedHold).next c l = some c' →
      c'.Sound (protocol unconfirmedHold) ∧ c'.Guarded HoldsItem := by
    rintro c l c' ⟨hc, hguard⟩ hok hnext
    refine ⟨hc.next hD hnext, hguard.next hD HoldsItem.mono
      (fun op held r a b _ _ hg => HoldsItem.stable op held r a b hg) hc hnext ?_⟩
    intro t draw s r k hl hs hk
    cases r with
    | item id => trivial
    | reservation id =>
      obtain ⟨⟨r, hr, hid⟩, -⟩ := hc.lockFact hs hk
      subst hl
      simp only [RelocksHeld, hs, hk] at hok
      exact ⟨r, hr, hid, fun hop => hok hop r hr hid⟩
  exact h.preserves hstep ⟨Config.sound_idle consistent_empty, Config.guarded_idle⟩

/-- If commit and release lock a reservation only when they hold its item, the waits-for relation
has no cycle in any configuration a run reaches. -/
theorem not_deadlock {c : Config Db Row Failure Outcome Operation}
    (h : (inventory unconfirmedHold).machine.RunOf RelocksHeld (.idle .empty) c) (t : Nat) :
    ¬ Relation.TransGen c.Waits t t := by
  obtain ⟨hc, hguard⟩ := guarded_of_run h
  have hordered : c.Ordered Row.rank := by
    intro u s r k hs hk hfree x hx
    obtain ⟨-, hlt | ⟨hop, hold, hmem, hheld, rfl⟩⟩ := hc.lockFact hs hk
    · exact hlt x hx
    · -- the item of a locked hold is held already, so the request does not wait
      obtain ⟨r, hr, hid, hitem⟩ := hguard u s _ hs hheld
      have hrow : r = hold := hc.inv.reservations.eq_of_key hr hmem hid
      exact absurd (hrow ▸ hitem hop) hfree
  exact not_waits_cycle hordered t

/-- A commit of a hold on two items, step by step. -/
theorem not_deadlock_in_commit :
    ∃ c, (inventory 30).machine.RunOf RelocksHeld (.idle .empty) c ∧
      c.db.items.map (·.onHandQty) = [9, 9] ∧ ¬ Relation.TransGen c.Waits 1 1 := by
  have hrun : ((inventory 30).machine.execOf RelocksHeld (.idle .empty) (stocked ++
      session 0 (reserveBoth 50) [0, 0, 0, 0, 0, 0, 0, 0, 0, 0, 0, 0, 31, 32, 0, 0, 0] ++
      session 1 (.commit 50 none) (.replicate 21 0))).map
        (fun c => c.db.items.map (·.onHandQty)) = some [9, 9] := by
    decide +kernel
  obtain ⟨c, hc, hqty⟩ := Option.map_eq_some_iff.1 hrun
  have hreach := Machine.runOf_of_execOf _ hc
  exact ⟨c, hreach, hqty, not_deadlock hreach 1⟩

/-- A commit reads shipment 50's items (session 2) between two reserves for it (sessions 0 and 1),
so the second reserve's hold, on item 10, is among those it locks although it locked item 20 only.
Session 3 meanwhile locks item 10 for another shipment and waits for item 20. -/
def lateHold : List (Label Operation Environment) :=
  stocked ++ session 1 (reserveOne 50 2) [0] ++
    session 0 (reserveOne 50 1) (.replicate 14 31) ++
    session 2 (.commit 50 none) (.replicate 4 0) ++
    (List.replicate 13 32).map (.step 1) ++
    session 3 (reserveBoth 51) (.replicate 6 0) ++
    (List.replicate 6 0).map (.step 2)

/-- Two transactions wait for each other. -/
theorem deadlock_on_late_hold :
    ∃ c, Reachable 30 c ∧ Relation.TransGen c.Waits 2 2 := by
  have hrun : ((inventory 30).machine.exec (.idle .empty) lateHold).map
      (fun c => c.waitsOn 2 3 && c.waitsOn 3 2) = some true := by
    decide +kernel
  obtain ⟨c, hc, hwaits⟩ := Option.map_eq_some_iff.1 hrun
  rw [Bool.and_eq_true] at hwaits
  exact ⟨c, Machine.run_of_exec _ hc,
    .head (waits_of_waitsOn hwaits.1) (.single (waits_of_waitsOn hwaits.2))⟩

end SmartLogistics.Inventory
