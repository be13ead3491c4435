import SmartLogistics.Inventory.Runs
import SmartLogistics.Library.Following

/-!
# A sweep leaves nothing behind

`release_expired` looks for lapsed holds twice: once for the items to lock, and again on these items
once they are locked. Between the two, and until it commits, other transactions confirm, commit and
release holds, and reserves sweep items of their own. `sweep_complete`: whatever runs meanwhile, a
sweep that commits leaves no hold unconfirmed that had lapsed, at the warehouses asked for, when its
transaction began. Each such hold either went another way, and then it never lapses again
(`InventoryReservation.Grows`), or both reads found it.
-/

set_option autoImplicit false

namespace SmartLogistics.Inventory

open SmartLogistics.Library SmartLogistics.Platform

variable {unconfirmedHold : Nat}

/-! ## Open holds -/

/-- A hold that may lapse: still HELD, and not confirmed. -/
def InventoryReservation.IsOpen (r : InventoryReservation) : Prop :=
  r.status = .held ∧ r.confirmedAt = none

theorem isLapsed_iff {cutoff : Nat} {r : InventoryReservation} :
    isLapsed cutoff r = true ↔ r.IsOpen ∧ ∃ e, r.expiresAt = some e ∧ e ≤ cutoff := by
  simp [isLapsed, InventoryReservation.IsOpen, Option.any_eq_true]

theorem InventoryReservation.Grows.isOpen {r r' : InventoryReservation} (h : r.Grows r')
    (ho : r'.IsOpen) : r.IsOpen := by
  refine ⟨h.held ho.1, ?_⟩
  rcases h.confirmed with heq | heq
  · exact heq.symm.trans ho.2
  · exact heq

/-- A hold that had lapsed and is still open has lapsed by any later moment. -/
theorem InventoryReservation.Grows.lapsed_of_isOpen {r r' : InventoryReservation}
    (h : r.Grows r') {time cutoff : Nat} (hl : Inventory.isLapsed time r = true)
    (hle : time ≤ cutoff) (ho : r'.IsOpen) : Inventory.isLapsed cutoff r' = true := by
  obtain ⟨-, e, he, hletime⟩ := isLapsed_iff.1 hl
  exact isLapsed_iff.2 ⟨ho, e, (h.expires ho.2).trans he, hletime.trans hle⟩

/-- In a later state the hold `r` is there, and its row is what it has grown to. -/
theorem Grows.row {a b : Db} (h : Grows a b) (hb : Consistent b) {r r' : InventoryReservation}
    (hr : r ∈ a.reservations) (hr' : r' ∈ b.reservations) (hid : r'.id = r.id) : r.Grows r' := by
  obtain ⟨r'', hr'', hg⟩ := h.reservations r hr
  exact hb.reservations.eq_of_key hr'' hr' (hg.id.trans hid.symm) ▸ hg

/-! ## The two reads -/

variable {op : Operation} {v : View Db Row Failure}

/-- Whatever the transaction commits, the hold with this id is not open then. -/
def Swept (unconfirmedHold id : Nat) (w : View Db Row Failure) : Prop :=
  ∀ n db, (protocol unconfirmedHold).lax.Rely w n db → ∀ db', w.pending db = .ok db' →
    ∀ r ∈ db'.reservations, r.id = id → ¬ r.IsOpen

/-- `SELECT … FROM inventory_items … FOR UPDATE` by ids returns a row for each id. -/
theorem wp_lockItemIds_all {itemIds : List Nat}
    {Q : List InventoryItem → View Db Row Failure → Prop} (hp : v.pending = .ok)
    (h : ∀ copies w, w.pending = .ok → (protocol unconfirmedHold).lax.Onward v w →
      (∀ i ∈ w.db.items, i.id ∈ itemIds → (∃ i₀ ∈ v.db.items, i₀.id = i.id) →
        i.id ∈ copies.map (·.id)) → Q copies w) :
    (protocol unconfirmedHold).lax.wp op (lockItemIds itemIds) Q v := by
  unfold lockItemIds
  refine Table.wp_selectForUpdate hp ?_ ?_ (fun db hinv => hinv.items)
    (fun _ _ _ _ _ _ _ _ _ _ => trivial) fun n db hr m db' hr' => ?_
  · intro k a b _ hb _ hsame r hl
    obtain ⟨hr, rfl⟩ := Table.mem_of_lookup hl
    exact hb.items.lookup_of_mem (hsame r hr rfl)
  · intro k a b _ hb hg hsome
    obtain ⟨r, hl⟩ := Option.isSome_iff_exists.1 hsome
    obtain ⟨hr, rfl⟩ := Table.mem_of_lookup hl
    obtain ⟨r', hr', hid, -⟩ := hg.items r hr
    rw [← hid, hb.items.lookup_of_mem hr']
    rfl
  refine h _ _ hp ((hr.trans hr').onward.grantAll _) fun i hi hmem hold => ?_
  obtain ⟨i₀, hi₀, hid₀⟩ := hold
  obtain ⟨i₁, hi₁, hid₁, -⟩ := hr.grow.items i₀ hi₀
  have hkey : i.id ∈ Table.keysWhere InventoryItem.id (fun i => itemIds.contains i.id) db.items :=
    Table.mem_keysWhere.2 ⟨i₁, hi₁, by simpa [hid₁, hid₀] using hmem, hid₁.trans hid₀⟩
  refine List.mem_map_of_mem (List.mem_filterMap.2 ⟨i.id, hkey, ?_⟩)
  rw [hr'.inv.items.lookup_of_mem hi]
  exact Option.filter_eq_some_iff.2 ⟨rfl, by simpa using hmem⟩

/-- The lapsed holds on the items: of the holds that were there, every one that stays open once the
rows are locked is among them. -/
theorem wp_selectLapsed {itemIds : List Nat} {cutoff : Nat}
    {Q : List InventoryReservation → View Db Row Failure → Prop} (hp : v.pending = .ok)
    (h : ∀ expired w, w.pending = .ok → (protocol unconfirmedHold).lax.Onward v w →
      (∀ r₀ ∈ v.db.reservations, isLapsed cutoff r₀ = true → r₀.inventoryItemId ∈ itemIds →
        ∀ n db, (protocol unconfirmedHold).lax.Rely w n db → ∀ r ∈ db.reservations,
          r.id = r₀.id → r.IsOpen → r.id ∈ expired.map (·.id)) → Q expired w) :
    (protocol unconfirmedHold).lax.wp op
      (Table.selectForUpdate InventoryReservation.id Row.reservation Db.reservations
        fun r => itemIds.contains r.inventoryItemId && isLapsed cutoff r) Q v := by
  refine Table.wp_selectForUpdate hp ?_ ?_ (fun db hinv => hinv.reservations)
    (fun _ _ _ _ _ _ _ _ _ _ => trivial) fun n₁ db₁ hr₁ n₂ db₂ hr₂ => ?_
  · intro k a b _ hb _ hsame r hl
    obtain ⟨hr, rfl⟩ := Table.mem_of_lookup hl
    exact hb.reservations.lookup_of_mem (hsame r hr rfl)
  · intro k a b _ hb hg hsome
    obtain ⟨r, hl⟩ := Option.isSome_iff_exists.1 hsome
    obtain ⟨hr, rfl⟩ := Table.mem_of_lookup hl
    obtain ⟨r', hr', hgr⟩ := hg.reservations r hr
    rw [← hgr.id, hb.reservations.lookup_of_mem hr']
    rfl
  refine h _ _ hp ((hr₁.trans hr₂).onward.grantAll _) ?_
  intro r₀ hr₀ hl₀ hitem n₃ db₃ hr₃ r₃ hmem₃ hid₃ hopen
  -- the versions of the row: when the keys were read, when the row was locked, and now
  obtain ⟨r₁, hmem₁, hg₁⟩ := hr₁.grow.reservations r₀ hr₀
  obtain ⟨r₂, hmem₂, hg₂⟩ := hr₂.grow.reservations r₁ hmem₁
  have hg₃ : r₂.Grows r₃ :=
    hr₃.grow.row hr₃.inv hmem₂ hmem₃ (hid₃.trans (hg₂.id.trans hg₁.id).symm)
  have hopen₂ := hg₃.isOpen hopen
  have hsat : ∀ {r : InventoryReservation}, r₀.Grows r → r.IsOpen →
      (itemIds.contains r.inventoryItemId && isLapsed cutoff r) = true := fun hg ho => by
    simp [hg.item, hitem, hg.lapsed_of_isOpen hl₀ (Nat.le_refl _) ho]
  have hkey : r₀.id ∈ Table.keysWhere InventoryReservation.id
      (fun r => itemIds.contains r.inventoryItemId && isLapsed cutoff r) db₁.reservations :=
    Table.mem_keysWhere.2 ⟨r₁, hmem₁, hsat hg₁ (hg₂.isOpen hopen₂), hg₁.id⟩
  rw [hg₃.id]
  refine List.mem_map_of_mem (List.mem_filterMap.2 ⟨r₀.id, hkey, ?_⟩)
  rw [← hg₁.id, ← hg₂.id, hr₂.inv.reservations.lookup_of_mem hmem₂]
  exact Option.filter_eq_some_iff.2 ⟨rfl, hsat (hg₁.trans hg₂) hopen₂⟩

/-! ## The sweep -/

/-- Without a write of its own, a transaction commits the rows as they are. -/
theorem swept_of_not_open {id : Nat} {w : View Db Row Failure} (hp : w.pending = .ok)
    (h : ∀ n db, (protocol unconfirmedHold).lax.Rely w n db → ∀ r ∈ db.reservations, r.id = id →
      ¬ r.IsOpen) : Swept unconfirmedHold id w := by
  intro n db hr db' hpending
  rw [hp] at hpending
  cases hpending
  exact h n db hr

/-- A release of the rows `ids` leaves none of them open. -/
theorem not_isOpen_of_release {ids : List Nat} {db : Db} {copies : List InventoryItem}
    {reason : String} {now : Nat} {r : InventoryReservation}
    (hr : r ∈ ((db.writeItems copies).writeReservations ids
      (InventoryReservation.release reason now)).reservations)
    (h : ∀ row ∈ db.reservations, row.id = r.id → row.IsOpen → row.id ∈ ids) : ¬ r.IsOpen := by
  simp only [Db.writeReservations, Db.writeItems, List.mem_map] at hr
  obtain ⟨row, hrow, rfl⟩ := hr
  intro hopen
  split at hopen
  · exact absurd hopen.1 (by simp [InventoryReservation.release])
  · rename_i hnot
    rw [if_neg hnot] at h
    exact hnot (List.contains_iff_mem.2 (h row hrow rfl hopen))

/-- `expireUnconfirmed` leaves none of the holds open that had lapsed on the items it is given. -/
theorem wp_expireUnconfirmed_swept {copies : List InventoryItem} {time : Nat}
    {Q : Nat × List InventoryItem → View Db Row Failure → Prop} (hp : v.pending = .ok)
    (htime : time ≤ v.now)
    (h : ∀ out w, (∀ r₀ ∈ v.db.reservations, (r₀.IsOpen → isLapsed time r₀ = true ∧
      r₀.inventoryItemId ∈ copies.map (·.id)) → Swept unconfirmedHold r₀.id w) → Q out w) :
    (protocol unconfirmedHold).lax.wp op (expireUnconfirmed copies) Q v := by
  unfold expireUnconfirmed
  simp only [Txn.bind_eq]
  split
  · rename_i hempty
    rw [List.isEmpty_iff] at hempty
    refine h _ v fun r₀ hr₀ hdue => swept_of_not_open hp fun n db hr r hmem hid hopen => ?_
    have hitem := (hdue ((hr.grow.row hr.inv hr₀ hmem hid).isOpen hopen)).2
    rw [hempty] at hitem
    exact absurd hitem List.not_mem_nil
  refine Discipline.wp_bind _ _ (Discipline.wp_now fun cutoff db₀ hr₀ => ?_)
  have hcutoff : time ≤ cutoff := htime.trans hr₀.clock
  refine Discipline.wp_bind _ _ (wp_selectLapsed hp fun expired w hpw honward hall => ?_)
  refine Discipline.wp_bind _ _ (Discipline.wp_now fun now db₁ hr₁ => ?_)
  refine Discipline.wp_bind _ _ (Discipline.wp_ofExcept fun copies' _ => ?_)
  -- a due hold that is still open at the commit is one of those found
  have hfound : ∀ r₀ ∈ v.db.reservations, (r₀.IsOpen → isLapsed time r₀ = true ∧
      r₀.inventoryItemId ∈ copies.map (·.id)) →
      ∀ n db, (protocol unconfirmedHold).lax.Rely w n db → ∀ r ∈ db.reservations, r.id = r₀.id →
        r.IsOpen → r.id ∈ expired.map (·.id) := by
    intro r₀ hmem₀ hdue n db hr r hmem hid hopen
    obtain ⟨r₁, hmem₁, hg₁⟩ := hr₀.grow.reservations r₀ hmem₀
    have hopen₁ := ((honward.rely_of hr).grow.row hr.inv hmem₁ hmem
      (hid.trans hg₁.id.symm)).isOpen hopen
    obtain ⟨hlapsed, hitem⟩ := hdue (hg₁.isOpen hopen₁)
    exact hall r₁ hmem₁ (hg₁.lapsed_of_isOpen hlapsed hcutoff hopen₁) (hg₁.item ▸ hitem) n db hr r
      hmem (hid.trans hg₁.id.symm) hopen
  split
  · rename_i hempty
    rw [List.isEmpty_iff] at hempty
    refine h _ _ fun r₀ hmem₀ hdue => swept_of_not_open hpw fun n db hr r hmem hid hopen => ?_
    have hin := hfound r₀ hmem₀ hdue n db (hr₁.trans hr) r hmem hid hopen
    rw [hempty] at hin
    exact absurd hin List.not_mem_nil
  refine Discipline.wp_bind _ _ (Discipline.wp_write fun n₂ db₂ hr₂ _ _ =>
    ⟨fun _ _ => trivial, fun _ _ => ?_⟩)
  refine Discipline.wp_bind _ _ (Discipline.wp_write fun n₃ db₃ hr₃ _ _ =>
    ⟨fun _ _ => trivial, fun _ _ => ?_⟩)
  refine h _ _ fun r₀ hmem₀ hdue n db hr db' hpending r hmem hid => ?_
  obtain ⟨staged, hstaged, hstage⟩ := View.flushed_pending_eq_ok.1 hpending
  obtain ⟨mid, hmid, hcheck⟩ := View.flushed_pending_eq_ok.1 hstaged
  cases hstage
  obtain rfl := eq_of_check hcheck
  have hmid' : (.ok db : Except Failure Db) = .ok mid := by rw [← hmid]; simp [hpw]
  cases hmid'
  have hrely : (protocol unconfirmedHold).lax.Rely w n db :=
    hr₁.trans (hr₂.trans (hr₃.unflushed.trans hr.unflushed.unflushed))
  exact not_isOpen_of_release hmem fun row hrow heq =>
    hfound r₀ hmem₀ hdue n db hrely row hrow (heq.trans hid)

/-- The warehouse is one of those the sweep is asked for. -/
def isSwept (warehouseIds : Option (List Nat)) (r : InventoryReservation) : Bool :=
  warehouseIds.all fun ids => ids.contains r.warehouseId

/-- What a sweep that began at `start` does: the holds that had lapsed then are not open any
more. -/
def SweptAll (start : Nat) :
    Operation → Db → (Row → Prop) → Outcome → Nat → Db → Db → Prop
  | .releaseExpired warehouseIds, opened, _, _, _, _, db' =>
    ∀ r₀ ∈ opened.reservations, isLapsed start r₀ = true → isSwept warehouseIds r₀ = true →
      ∀ r ∈ db'.reservations, r.id = r₀.id → ¬ r.IsOpen
  | _, _, _, _, _, _, _ => True

theorem wp_releaseExpired_swept {warehouseIds : Option (List Nat)} {start : Nat} {opened : Db}
    {held : Row → Prop} :
    (protocol unconfirmedHold).lax.wp (.releaseExpired warehouseIds)
      (program unconfirmedHold (.releaseExpired warehouseIds))
      ((protocol unconfirmedHold).lax.Posts (SweptAll start) (.releaseExpired warehouseIds) opened)
      ⟨held, .ok, start, opened⟩ := by
  refine Discipline.wp_bind _ _ ?_
  unfold releaseExpired
  simp only [Txn.bind_eq]
  refine Discipline.wp_bind _ _ (Discipline.wp_now fun cutoff db₀ hr₀ => ?_)
  refine Discipline.wp_bind _ _ (Discipline.wp_select rfl fun n₁ db₁ hr₁ => ?_)
  have hr₀₁ := hr₀.trans hr₁
  -- a hold that is still open has lapsed by the cutoff, so its item is found
  have hitem : ∀ r₀ ∈ opened.reservations, isLapsed start r₀ = true →
      isSwept warehouseIds r₀ = true → ∀ r ∈ db₁.reservations, r₀.Grows r → r.IsOpen →
      r.inventoryItemId ∈ (db₁.reservations.filter fun r => isLapsed cutoff r &&
        warehouseIds.all fun ids => ids.contains r.warehouseId).map (·.inventoryItemId) := by
    intro r₀ _ hlapsed hscope r hmem hg hopen
    refine List.mem_map_of_mem (List.mem_filter.2 ⟨hmem, Bool.and_eq_true_iff.2 ⟨?_, ?_⟩⟩)
    · exact hg.lapsed_of_isOpen hlapsed hr₀.clock hopen
    · rw [hg.warehouse]
      exact hscope
  split
  · rename_i hempty
    rw [List.isEmpty_iff] at hempty
    intro n db hr db' hpending r₀ hmem₀ hlapsed hscope r hmem hid hopen
    cases hpending
    obtain ⟨r₁, hmem₁, hg₁⟩ := hr₀₁.grow.reservations r₀ hmem₀
    have hg : r₁.Grows r := hr.grow.row hr.inv hmem₁ hmem (hid.trans hg₁.id.symm)
    have hin := hitem r₀ hmem₀ hlapsed hscope r₁ hmem₁ hg₁ (hg.isOpen hopen)
    rw [hempty] at hin
    exact absurd hin List.not_mem_nil
  refine Discipline.wp_bind _ _ (wp_lockItemIds_all rfl fun copies w hpw honward hcopies => ?_)
  refine Discipline.wp_bind _ _ (wp_expireUnconfirmed_swept hpw
    ((hr₀.clock.trans hr₁.clock).trans honward.rely.clock) fun out x hswept => ?_)
  intro n db hr db' hpending r₀ hmem₀ hlapsed hscope r hmem hid
  obtain ⟨r₁, hmem₁, hg₁⟩ := hr₀₁.grow.reservations r₀ hmem₀
  obtain ⟨r₂, hmem₂, hg₂⟩ := honward.rely.grow.reservations r₁ hmem₁
  have hid₂ : r₂.id = r₀.id := hg₂.id.trans hg₁.id
  refine hswept r₂ hmem₂ (fun hopen₂ => ⟨?_, ?_⟩) n db hr db' hpending r hmem (hid.trans hid₂.symm)
  · exact (hg₁.trans hg₂).lapsed_of_isOpen hlapsed (Nat.le_refl _) hopen₂
  · have hin := hitem r₀ hmem₀ hlapsed hscope r₁ hmem₁ hg₁ (hg₂.isOpen hopen₂)
    -- the item a hold is on was there before, and is there now
    obtain ⟨i₁, hi₁, hitem₁⟩ := hr₁.inv.item_of_reservation r₁ hmem₁
    obtain ⟨i, hi, hid', -⟩ := honward.rely.grow.items i₁ hi₁
    have heq : i.id = r₂.inventoryItemId := hid'.trans (hitem₁.trans hg₂.item.symm)
    rw [← heq]
    exact hcopies i hi (heq ▸ hg₂.item ▸ hin) ⟨i₁, hi₁, hid'.symm⟩

/-! ## Runs -/

section Runs

variable {c₀ c₁ c c' : Config Db Row Failure Outcome Operation} {t draw : Nat}
  {warehouseIds : Option (List Nat)} {a : Outcome}

/-- When a sweep commits, no row is open whose hold had lapsed when its transaction began. -/
theorem not_isOpen_of_sweep (h : Reachable unconfirmedHold c₀)
    (hstart : (inventory unconfirmedHold).machine.next c₀
      (.start t (.releaseExpired warehouseIds)) = some c₁)
    (hrun : (inventory unconfirmedHold).machine.RunOf (fun _ l => l.Spares t) c₁ c)
    (hnext : (inventory unconfirmedHold).machine.next c (.step t draw) = some c')
    (hanswer : c.delivered (.step t draw : Label Operation Environment) =
      some (.releaseExpired warehouseIds, a)) :
    ∀ r₀ ∈ c₀.db.reservations, isLapsed c₀.clock r₀ = true → isSwept warehouseIds r₀ = true →
      ∀ r ∈ c'.db.reservations, r.id = r₀.id → ¬ r.IsOpen := by
  have hgoverns := (protocol_governs unconfirmedHold).lax
  have hlax : c₀.Sound (protocol unconfirmedHold).lax :=
    sound_of_run hgoverns (Config.sound_idle consistent_empty) h
  exact post_of_started hgoverns hlax wp_releaseExpired_swept hstart hrun hnext hanswer

/-- A sweep that commits leaves no hold open that had lapsed, at the warehouses it is asked for,
when its transaction began, whatever the other transactions do in between. -/
theorem sweep_complete (h : Reachable unconfirmedHold c₀)
    (hstart : (inventory unconfirmedHold).machine.next c₀
      (.start t (.releaseExpired warehouseIds)) = some c₁)
    (hrun : (inventory unconfirmedHold).machine.RunOf (fun _ l => l.Spares t) c₁ c)
    (hnext : (inventory unconfirmedHold).machine.next c (.step t draw) = some c')
    (hanswer : c.delivered (.step t draw : Label Operation Environment) =
      some (.releaseExpired warehouseIds, a)) :
    ∀ r₀ ∈ c₀.db.reservations, isLapsed c₀.clock r₀ = true → isSwept warehouseIds r₀ = true →
      ∃ r ∈ c'.db.reservations, r₀.Grows r ∧ ¬ r.IsOpen := by
  have hlater : (inventory unconfirmedHold).machine.Run c₀ c' :=
    ((Machine.run_of_next hstart).trans hrun.toRun).trans (Machine.run_of_next hnext)
  have hgrow : Grows c₀.db c'.db :=
    grow_of_run (protocol_governs unconfirmedHold) (sound_of_reachable h) hlater
  intro r₀ hmem₀ hlapsed hscope
  obtain ⟨r, hmem, hg⟩ := hgrow.reservations r₀ hmem₀
  exact ⟨r, hmem, hg,
    not_isOpen_of_sweep h hstart hrun hnext hanswer r₀ hmem₀ hlapsed hscope r hmem hg.id⟩

end Runs

/-- Two holds that have lapsed. -/
def lapsedHolds : List (Label Operation Environment) :=
  stocked ++ session 0 (reserveOne 50 1) (.replicate 14 31) ++
    session 0 (reserveOne 51 1) (.replicate 14 32) ++ [.tick 60]

/-- A sweep that has found both holds, of which the second is then confirmed, up to its commit. -/
def sweepMeanwhile : List (Label Operation Environment) :=
  .replicate 2 (.step 2 0) ++ session 1 (.confirm 51) (.replicate 10 0) ++
    .replicate 10 (.step 2 0)

/-- The operation is a sweep of all warehouses. -/
def Operation.isFullSweep : Operation → Bool
  | .releaseExpired none => true
  | _ => false

theorem Operation.eq_of_isFullSweep {op : Operation} (h : op.isFullSweep = true) :
    op = .releaseExpired none := by
  unfold Operation.isFullSweep at h
  split at h
  · rfl
  · cases h

theorem sweep_complete_beside_confirm :
    ∃ c₀ c' : Config Db Row Failure Outcome Operation,
      c₀.db.reservations.map (fun r => (r.id, isLapsed c₀.clock r)) = [(31, true), (32, true)] ∧
      c'.db.reservations.map (fun r => (r.id, r.status)) = [(31, .released), (32, .held)] ∧
      ∀ r₀ ∈ c₀.db.reservations, isLapsed c₀.clock r₀ = true → isSwept none r₀ = true →
        ∃ r ∈ c'.db.reservations, r₀.Grows r ∧ ¬ r.IsOpen := by
  have hrun : ((inventory 30).machine.exec (.idle .empty) lapsedHolds).bind (fun c₀ =>
      ((inventory 30).machine.next c₀ (.start 2 (.releaseExpired none))).bind fun c₁ =>
        ((inventory 30).machine.execOf (fun _ l => l.Spares 2) c₁ sweepMeanwhile).bind fun c =>
          ((inventory 30).machine.next c (.step 2 0)).map fun c' =>
            (c₀.db.reservations.map fun r => (r.id, isLapsed c₀.clock r),
              c'.db.reservations.map fun r => (r.id, r.status),
              (c.delivered (.step 2 0 : Label Operation Environment)).map (·.1.isFullSweep))) =
      some ([(31, true), (32, true)], [(31, .released), (32, .held)], some true) := by
    decide +kernel
  obtain ⟨c₀, h₀, hrest⟩ := Option.bind_eq_some_iff.1 hrun
  obtain ⟨c₁, h₁, hrest⟩ := Option.bind_eq_some_iff.1 hrest
  obtain ⟨c, h, hrest⟩ := Option.bind_eq_some_iff.1 hrest
  obtain ⟨c', h', hrest⟩ := Option.map_eq_some_iff.1 hrest
  simp only [Prod.mk.injEq] at hrest
  obtain ⟨hlapsed, hstatus, hanswer⟩ := hrest
  refine ⟨c₀, c', hlapsed, hstatus, ?_⟩
  obtain ⟨⟨op, a⟩, hdelivered, hop⟩ := Option.map_eq_some_iff.1 hanswer
  obtain rfl := Operation.eq_of_isFullSweep hop
  exact sweep_complete (Machine.run_of_exec _ h₀) h₁ (Machine.runOf_of_execOf _ h) h' hdelivered

end SmartLogistics.Inventory
