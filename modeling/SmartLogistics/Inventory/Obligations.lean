import SmartLogistics.Inventory.LockingReads

/-!
# Every operation keeps the protocol

One obligation for each operation: its body meets the discipline `protocol`, whatever the other
sessions do between its statements. Together with the writes of the rest of the service they make
the protocol govern Inventory (`protocol_governs`), so every run is sound (`sound_of_reachable`).
-/

set_option autoImplicit false

namespace SmartLogistics.Inventory

open SmartLogistics.Library SmartLogistics.Platform SmartLogistics.Warehouse

variable {unconfirmedHold : Nat} {op : Operation} {v : View Db Row Failure}

/-- A transaction that wrote nothing. -/
theorem commits_of_no_write {opened : Db} {a : Outcome} (hp : v.pending = .ok)
    (hpost : ∀ n db, (protocol unconfirmedHold).Rely v n db →
      Committed unconfirmedHold op opened v.held a n db db) :
    (protocol unconfirmedHold).Commits op opened a v := by
  intro n db hr db' hdb'
  rw [hp] at hdb'
  cases hdb'
  exact ⟨⟨hr.inv, .refl db, fun r _ => .refl r db⟩, hpost n db hr⟩

/-- A shipment with a COMMITTED row keeps one. -/
theorem hasStatus_committed_of_grows {a b : Db} (h : Grows a b) {shipmentId : Nat}
    (hs : hasStatus shipmentId .committed a = true) :
    hasStatus shipmentId .committed b = true := by
  simp only [hasStatus, List.any_eq_true, Bool.and_eq_true, beq_iff_eq] at hs ⊢
  obtain ⟨r, hr, hid, hst⟩ := hs
  obtain ⟨r', hr', hg⟩ := h.reservations r hr
  refine ⟨r', hr', hg.shipment.trans hid, ?_⟩
  rcases hg.status with he | he
  · exact he.trans hst
  · rw [hst] at he
    cases he

/-! ## Confirm, commit, release -/

theorem wp_confirm {shipmentId : Nat} (hp : v.pending = .ok) (hnone : ∀ x, ¬ v.held x) :
    (protocol unconfirmedHold).wp (.confirm shipmentId) (confirm shipmentId)
      (fun n => (protocol unconfirmedHold).Commits (.confirm shipmentId) v.db (.count n)) v := by
  unfold confirm
  simp only [Txn.bind_eq]
  apply Discipline.wp_bind
  apply wp_lockHolds hp hnone
  intro w holds _ hpend hholds
  apply Discipline.wp_bind
  apply Discipline.wp_now
  intro now db hr
  apply Discipline.wp_bind
  apply Discipline.wp_write
  intro n₁ db₁ hr₁ view hview
  rw [View.later_pending, hpend] at hview
  cases hview
  refine ⟨noCheckViolation_of_checks (hr₁.inv.confirmRows _ _).1, fun _ _ => ?_⟩
  intro n₂ db₂ hr₂ db' hdb'
  have hrely := hr.trans (hr₁.trans hr₂.unflushed)
  obtain ⟨view, hview, hflush⟩ := View.flushed_pending_eq_ok.1 hdb'
  rw [View.later_pending, View.later_pending, hpend] at hview
  cases hview
  obtain ⟨hchecks, haccounts⟩ := hrely.inv.confirmRows
    ((holds.filter (·.confirmedAt.isNone)).map (·.id)) now
  obtain ⟨rfl, hinv⟩ := consistent_of_check hchecks haccounts hflush
  have hholds₂ := hholds.later hrely
  exact ⟨guar_confirmRows hrely.inv hholds₂.toSelected hholds₂.locked now hinv,
    ⟨now, holds, hholds₂, rfl, rfl⟩⟩

/-- The second locking read of items, by commit and release: it asks for items of locked holds. -/
theorem wp_relock {shipmentId : Nat} {opened : Db} {holds : List InventoryReservation}
    {Q : List InventoryItem → View Db Row Failure → Prop} (hop : op.Relocks) (hp : v.pending = .ok)
    (hholds : HeldRows shipmentId opened v.held holds v.db)
    (h : ∀ w copies, Consistent w.db → w.pending = .ok →
      HeldRows shipmentId opened w.held holds w.db → (∀ c ∈ copies, w.held (.item c.id)) →
      (∀ c ∈ copies, c ∈ w.db.items) → Q copies w) :
    (protocol unconfirmedHold).wp op (lockItemIds (holds.map (·.inventoryItemId))) Q v := by
  unfold lockItemIds
  apply wp_selectItems hp
  · intro i i' hid _ _
    rw [hid]
  · intro n db hr i _ hi
    simp only [List.contains_eq_mem, decide_eq_true_eq, List.mem_map] at hi
    obtain ⟨x, hx, hid⟩ := hi
    have hholds' := hholds.later hr
    exact Or.inr ⟨hop, x, hholds'.mem x hx, hholds'.locked x hx, hid.symm⟩
  intro n db hr copies rows hcopies hrows
  refine h _ copies hr.inv hp ((hholds.later hr).mono (fun x hx => Or.inr hx) fun id hid => ?_)
    (fun c hc => ?_) (fun c hc => (hcopies c hc).2.1)
  · rcases hid with hid | hid
    · obtain ⟨c, -, heq⟩ := hrows _ hid
      cases heq
    · exact hid
  · exact Or.inl (hcopies c hc).1

/-- What the flush of a dispatch writes, on a state in which the copies and the holds are
current. -/
theorem writeItems_commit {db : Db} (hinv : Consistent db) {copies copies' : List InventoryItem}
    {holds : List InventoryReservation} {rows : List StockMovement} {shipmentId : Nat}
    {actorId : Option Nat} {occurredAt : Nat} (hs : Selected holds db)
    (hcopies : ∀ c ∈ copies, c ∈ db.items)
    (hloop : commitEach shipmentId actorId occurredAt holds copies = .ok (copies', rows))
    (now : Nat) :
    ((db.writeItems copies').writeReservations (holds.map (·.id))
      (InventoryReservation.commit now)).insertMovements rows = db.commitRows holds now rows ∧
      Checks (db.commitRows holds now rows) ∧ Accounts (db.commitRows holds now rows) ∧
      ∀ h ∈ holds, ∃ c ∈ copies, c.id = h.inventoryItemId := by
  obtain ⟨rfl, hfound, hrun, hledger, hrows⟩ := commitEach_spec holds hloop hinv.running
    fun c hc => hinv.on_hand c (hcopies c hc)
  refine ⟨?_, ?_, ?_, hfound⟩
  · rw [Db.writeItems_map hinv.items hcopies (fun _ => rfl) fun i hi hnot => ?_]
    · rfl
    · refine InventoryItem.dispatch_of_not_mem fun r hr heq => hnot ?_
      obtain ⟨c, hc, hid⟩ := hfound r hr
      rwa [hinv.items.eq_of_key hi (hcopies c hc) (heq.symm.trans hid.symm)]
  · exact (hinv.commitRows hs now hrun hledger hrows).1
  · exact (hinv.commitRows hs now hrun hledger hrows).2

theorem wp_commit {shipmentId : Nat} {actorId : Option Nat} (hp : v.pending = .ok)
    (hnone : ∀ x, ¬ v.held x) :
    (protocol unconfirmedHold).wp (.commit shipmentId actorId) (commit shipmentId actorId)
      (fun n => (protocol unconfirmedHold).Commits (.commit shipmentId actorId) v.db (.count n))
      v := by
  unfold commit
  simp only [Txn.bind_eq]
  apply Discipline.wp_bind
  apply wp_lockHolds hp hnone
  intro w holds _ hpend hholds
  split
  · rename_i hempty
    rw [List.isEmpty_iff] at hempty
    subst hempty
    apply Discipline.wp_bind
    apply Discipline.wp_select hpend
    intro n db hr
    split
    · rename_i hcommitted
      exact commits_of_no_write hpend fun _ _ hr' => Or.inl ⟨rfl, rfl, hholds.later (hr.trans hr'),
        hasStatus_committed_of_grows hr'.grow hcommitted⟩
    · trivial
  rename_i hne
  rw [List.isEmpty_iff] at hne
  apply Discipline.wp_bind
  apply wp_relock (show Operation.Relocks (.commit shipmentId actorId) from trivial) hpend hholds
  intro w copies _ hpend hholds hlocked hcopies
  apply Discipline.wp_bind
  apply Discipline.wp_now
  intro now db₁ hr₁
  apply Discipline.wp_bind
  apply Discipline.wp_now
  intro occurredAt db₂ hr₂
  apply Discipline.wp_bind
  apply Discipline.wp_ofExcept
  intro out hloop
  obtain ⟨copies', rows⟩ := out
  -- what the flush does in any state the transaction may see from here on
  have heffect : ∀ n db, (protocol unconfirmedHold).Rely w n db →
      ((db.writeItems copies').writeReservations (holds.map (·.id))
        (InventoryReservation.commit now)).insertMovements rows = db.commitRows holds now rows ∧
      Checks (db.commitRows holds now rows) ∧ Accounts (db.commitRows holds now rows) ∧
      ∀ h ∈ holds, ∃ c ∈ copies, c.id = h.inventoryItemId := fun n db hr =>
    writeItems_commit hr.inv (hholds.later hr).toSelected
      (fun c hc => item_mem_of_locked hr (hcopies c hc) (hlocked c hc)) hloop now
  apply Discipline.wp_bind
  apply Discipline.wp_write
  intro n₃ db₃ hr₃ view hview
  simp only [View.later_pending, hpend, Except.ok.injEq] at hview
  subst hview
  obtain ⟨heq, hchecks, -, -⟩ := heffect n₃ db₃ (hr₁.trans (hr₂.trans hr₃))
  refine ⟨heq ▸ noCheckViolation_of_checks hchecks, fun _ _ => ?_⟩
  apply Discipline.wp_bind
  apply Discipline.wp_write
  intro n₄ db₄ hr₄ _ _
  refine ⟨noCheckViolation_ok _, fun _ _ => ?_⟩
  intro n₅ db₅ hr₅ db' hdb'
  have hrely := hr₁.trans (hr₂.trans (hr₃.trans (hr₄.unflushed.trans hr₅.unflushed.unflushed)))
  obtain ⟨mid, hmid, hstage⟩ := View.flushed_pending_eq_ok.1 hdb'
  obtain ⟨view, hview, hflush⟩ := View.flushed_pending_eq_ok.1 hmid
  simp only [View.later_pending, hpend, Except.ok.injEq] at hview
  subst hview
  obtain ⟨heq, hchecks, haccounts, hfound⟩ := heffect n₅ db₅ hrely
  rw [heq] at hflush
  obtain ⟨rfl, hinv⟩ := consistent_of_check hchecks haccounts hflush
  cases hstage
  have hholds₅ := hholds.later hrely
  have hitems : ∀ h ∈ holds, w.held (.item h.inventoryItemId) := by
    intro h hh
    obtain ⟨c, hc, hid⟩ := hfound h hh
    exact hid ▸ hlocked c hc
  refine ⟨guar_stage (guar_commitRows hrely.inv ⟨hholds₅.toSelected, hholds₅.locked, hitems⟩ now
    rows hinv) _, Or.inr ⟨now, holds, rows, hne, hholds₅, hitems, rfl, commitEach_dispatches hloop,
      rfl⟩⟩

theorem wp_release {shipmentId : Nat} {reason : String} (hp : v.pending = .ok)
    (hnone : ∀ x, ¬ v.held x) :
    (protocol unconfirmedHold).wp (.release shipmentId reason) (release shipmentId reason)
      (fun n => (protocol unconfirmedHold).Commits (.release shipmentId reason) v.db (.count n))
      v := by
  unfold release
  simp only [Txn.bind_eq]
  apply Discipline.wp_bind
  apply wp_lockHolds hp hnone
  intro w holds _ hpend hholds
  split
  · rename_i hempty
    rw [List.isEmpty_iff] at hempty
    subst hempty
    exact commits_of_no_write hpend fun _ _ hr => Or.inl ⟨rfl, rfl, hholds.later hr⟩
  rename_i hne
  rw [List.isEmpty_iff] at hne
  apply Discipline.wp_bind
  apply wp_relock (show Operation.Relocks (.release shipmentId reason) from trivial) hpend hholds
  intro w copies _ hpend hholds hlocked hcopies
  apply Discipline.wp_bind
  apply Discipline.wp_now
  intro now db₁ hr₁
  apply Discipline.wp_bind
  apply Discipline.wp_ofExcept
  intro copies' hloop
  -- what the flush does in any state the transaction may see from here on
  have heffect : ∀ n db, (protocol unconfirmedHold).Rely w n db →
      (db.writeItems copies').writeReservations (holds.map (·.id))
        (InventoryReservation.release reason now) = db.releaseRows holds reason now ∧
      Checks (db.releaseRows holds reason now) ∧ Accounts (db.releaseRows holds reason now) :=
    fun n db hr => ⟨writeItems_release hr.inv
      (fun c hc => item_mem_of_locked hr (hcopies c hc) (hlocked c hc)) hloop reason now,
      hr.inv.releaseRows (hholds.later hr).toSelected reason now⟩
  apply Discipline.wp_bind
  apply Discipline.wp_write
  intro n₃ db₃ hr₃ view hview
  simp only [View.later_pending, hpend, Except.ok.injEq] at hview
  subst hview
  obtain ⟨heq, hchecks, -⟩ := heffect n₃ db₃ (hr₁.trans hr₃)
  refine ⟨heq ▸ noCheckViolation_of_checks hchecks, fun _ _ => ?_⟩
  apply Discipline.wp_bind
  apply Discipline.wp_write
  intro n₄ db₄ hr₄ _ _
  refine ⟨noCheckViolation_ok _, fun _ _ => ?_⟩
  intro n₅ db₅ hr₅ db' hdb'
  have hrely := hr₁.trans (hr₃.trans (hr₄.unflushed.trans hr₅.unflushed.unflushed))
  obtain ⟨mid, hmid, hstage⟩ := View.flushed_pending_eq_ok.1 hdb'
  obtain ⟨view, hview, hflush⟩ := View.flushed_pending_eq_ok.1 hmid
  simp only [View.later_pending, hpend, Except.ok.injEq] at hview
  subst hview
  obtain ⟨heq, hchecks, haccounts⟩ := heffect n₅ db₅ hrely
  rw [heq] at hflush
  obtain ⟨rfl, hinv⟩ := consistent_of_check hchecks haccounts hflush
  cases hstage
  have hholds₅ := hholds.later hrely
  have hitems := items_locked_of_loop hloop hlocked
  exact ⟨guar_stage (guar_releaseRows hrely.inv ⟨hholds₅.toSelected, hholds₅.locked, hitems⟩ reason
    now hinv) _, Or.inr ⟨now, holds, hne, hholds₅, hitems, rfl, rfl⟩⟩

/-! ## Sweep and reserve -/

theorem wp_releaseExpired {warehouseIds : Option (List Nat)} (hp : v.pending = .ok)
    (hnone : ∀ x, ¬ v.held x) :
    (protocol unconfirmedHold).wp (.releaseExpired warehouseIds)
      (releaseExpired warehouseIds)
      (fun n => (protocol unconfirmedHold).Commits (.releaseExpired warehouseIds) v.db (.count n))
      v := by
  unfold releaseExpired
  simp only [Txn.bind_eq]
  apply Discipline.wp_bind
  apply Discipline.wp_now
  intro cutoff₀ db₀ _
  apply Discipline.wp_bind
  apply Discipline.wp_select (show (v.later cutoff₀ db₀).pending = .ok from hp)
  intro n db _
  split
  · exact commits_of_no_write hp fun _ _ _ => Or.inl ⟨rfl, rfl⟩
  apply Discipline.wp_bind
  unfold lockItemIds
  apply wp_selectItems (show ((v.later cutoff₀ db₀).later n db).pending = .ok from hp)
  · intro i i' hid _ _
    rw [hid]
  · exact fun _ _ _ _ _ _ => Or.inl fun x hx => absurd hx (hnone x)
  intro n₁ db₁ hr₁ copies rows hcopies hrows
  apply Discipline.wp_bind
  refine wp_expireUnconfirmed ⟨hp, fun c hc => Or.inl (hcopies c hc).1,
    fun c hc => (hcopies c hc).2.1, fun x hx => ?_⟩ hr₁.inv ?_
  · rcases hx with hx | hx
    · exact hrows x hx
    · exact absurd hx (hnone x)
  intro w expired cutoff now _ hexpired _ _ n₂ db₂ hr₂ db' hdb'
  obtain ⟨rfl, hinv, -⟩ := hexpired.flushed n₂ db₂ hr₂ db' hdb'
  have hnow : now ≤ n₂ := Nat.le_trans hexpired.now_le hr₂.clock
  have hlapsed := hexpired.lapsed.later hr₂
  refine ⟨guar_stage (guar_releaseRows hr₂.inv hlapsed.toLocked _ _ ?_) _,
    Or.inr ⟨cutoff, now, expired, hexpired.cutoff_le, hnow, hlapsed, rfl, rfl⟩⟩
  exact hinv.congr rfl rfl rfl

/-- Drawing ids gives as many as asked for. -/
theorem wp_freshIds : ∀ (n : Nat) {Q : List Nat → View Db Row Failure → Prop},
    (∀ ids, ids.length = n → Q ids v) →
      (protocol unconfirmedHold).wp op (freshIds n) Q v
  | 0, Q, h => h [] rfl
  | n + 1, Q, h => by
    unfold freshIds
    simp only [Txn.bind_eq]
    apply Discipline.wp_bind
    apply Discipline.wp_freshId
    intro id
    apply Discipline.wp_bind
    apply wp_freshIds n
    intro ids hids
    exact h (id :: ids) (by rw [List.length_cons, hids])

/-- Every element of a successful traversal has a result. -/
theorem exists_of_mapM_eq_ok {α β : Type} {f : α → Except Failure β} :
    ∀ {l : List α} {out : List β}, l.mapM f = .ok out → ∀ a ∈ l, ∃ b ∈ out, f a = .ok b
  | [], _, _ => fun _ ha => absurd ha List.not_mem_nil
  | x :: l, out, h => by
    intro a ha
    simp only [List.mapM_cons, bind, Except.bind, pure, Except.pure] at h
    split at h
    · cases h
    rename_i b hb
    split at h
    · cases h
    rename_i bs hbs
    cases h
    rcases List.mem_cons.1 ha with rfl | ha
    · exact ⟨b, List.mem_cons_self, hb⟩
    · obtain ⟨b', hb', hf⟩ := exists_of_mapM_eq_ok hbs a ha
      exact ⟨b', List.mem_cons_of_mem _ hb', hf⟩

/-- A traversal that succeeds on every element succeeds. -/
theorem mapM_eq_ok {α β : Type} {f : α → Except Failure β} (l : List α)
    (h : ∀ a ∈ l, ∃ b, f a = .ok b) : ∃ out, l.mapM f = .ok out := by
  induction l with
  | nil => exact ⟨[], rfl⟩
  | cons a l ih =>
    obtain ⟨b, hb⟩ := h a List.mem_cons_self
    obtain ⟨out, hout⟩ := ih fun x hx => h x (List.mem_cons_of_mem _ hx)
    refine ⟨b :: out, ?_⟩
    rw [List.mapM_cons, hb, hout]
    rfl

/-- The check of reserve lets a request through only if every line's item covers it. -/
theorem available_of_requireStock {request : ReservationRequest} {skus : List Sku}
    {items : List InventoryItem} (h : requireStock request skus items = .ok ()) :
    ∀ line ∈ request.lines, ∃ item ∈ items, item.skuId = line.skuId ∧
      line.quantity ≤ available item := by
  intro line hline
  unfold requireStock at h
  simp only [bind, Except.bind] at h
  split at h
  · cases h
  split at h
  · cases h
  rename_i out hout
  split at h
  · cases h
  rename_i hnil
  obtain ⟨b, hb, hf⟩ := exists_of_mapM_eq_ok hout line hline
  unfold shortfall at hf
  split at hf
  · cases hf
  rename_i item hitem
  refine ⟨item, List.mem_of_find?_eq_some hitem, by simpa using List.find?_some hitem, ?_⟩
  by_contra hlt
  rw [if_pos (Int.not_le.1 hlt)] at hf
  simp only [bind, Except.bind] at hf
  split at hf
  · cases hf
  cases hf
  -- a shortfall was reported, so the request is refused
  refine hnil fun hempty => ?_
  have hmem : _ ∈ out.filterMap id := List.mem_filterMap.2 ⟨_, hb, rfl⟩
  rw [hempty] at hmem
  exact List.not_mem_nil hmem

/-- New holds on swept copies stay within what is available. -/
theorem available_of_holds {db : Db} (hinv : Consistent db) {request : ReservationRequest}
    {expiresAt : Nat} {skus : List Sku} {items : List InventoryItem}
    {holds : List InventoryReservation} (hitems : ∀ c ∈ items, c ∈ db.items)
    (hwarehouse : ∀ c ∈ items, c.warehouseId = request.warehouseId)
    (hstock : requireStock request skus items = .ok ())
    (hlines : holds.map (fun h => (h.skuId, h.quantity)) =
      request.lines.map (fun line => (line.skuId, line.quantity)))
    (hholds : ∀ h ∈ holds, HoldFor request expiresAt items h) :
    ∀ i ∈ db.items, i.reservedQty + qtyOn holds i.id ≤ i.onHandQty := by
  -- one hold an item, because the SKUs of the lines differ and an item has one SKU
  have hskus : (holds.map (·.skuId)).Nodup := by
    have hmap := congrArg (List.map Prod.fst) hlines
    simp only [List.map_map, Function.comp_def] at hmap
    rw [hmap]
    exact request.unique_skus
  have hkeyed : Table.Keyed InventoryReservation.inventoryItemId holds := by
    refine List.Nodup.map_on (fun a ha b hb hab => ?_) (List.Nodup.of_map _ hskus)
    obtain ⟨c, hc, hcid, hcsku⟩ := (hholds a ha).item
    obtain ⟨c', hc', hcid', hcsku'⟩ := (hholds b hb).item
    obtain rfl := hinv.items.eq_of_key (hitems c hc) (hitems c' hc')
      (hcid.trans (hab.trans hcid'.symm))
    exact List.inj_on_of_nodup_map hskus ha hb (hcsku.symm.trans hcsku')
  intro i hi
  have hle : qtyOn holds i.id ≤ i.onHandQty - i.reservedQty := by
    refine hkeyed.totalBy_le (by have := hinv.within i hi; omega) fun h hh hid => ?_
    obtain ⟨c, hc, hcid, hcsku⟩ := (hholds h hh).item
    obtain rfl := hinv.items.eq_of_key (hitems c hc) hi (hcid.trans hid)
    obtain ⟨line, hline, hsku, hqty⟩ := (hholds h hh).line
    obtain ⟨item, hitem, hitemsku, havail⟩ := available_of_requireStock hstock line hline
    have hsame : item = c := by
      refine List.inj_on_of_nodup_map hinv.positions (hitems item hitem) (hitems c hc) ?_
      rw [hwarehouse item hitem, hwarehouse c hc, hitemsku, hsku, hcsku]
    subst hsame
    rw [← hqty]
    exact havail
  omega

/-- What the flush of new holds writes, on a state in which the copies are current. -/
theorem writeItems_hold {db : Db} (hinv : Consistent db) {request : ReservationRequest}
    {expiresAt : Nat} {copies : List InventoryItem} {holds : List InventoryReservation}
    (hcopies : ∀ c ∈ copies, c ∈ db.items)
    (hholds : ∀ h ∈ holds, HoldFor request expiresAt copies h) :
    (db.writeItems (copies.map (InventoryItem.reserve holds))).insertReservations holds =
      db.holdRows holds := by
  rw [Db.writeItems_map hinv.items hcopies (fun _ => rfl) fun i hi hnot => ?_]
  · rfl
  · refine InventoryItem.reserve_of_not_mem fun r hr heq => hnot ?_
    obtain ⟨c, hc, hid, -⟩ := (hholds r hr).item
    rwa [hinv.items.eq_of_key hi (hcopies c hc) (heq.symm.trans hid.symm)]

/-- A traversal that keeps a part of each element keeps the list of these parts. -/
theorem map_of_mapM_eq_ok {α β γ : Type} {f : α → Except Failure β} {g : β → γ} {g' : α → γ}
    (hf : ∀ a b, f a = .ok b → g b = g' a) :
    ∀ {l : List α} {out : List β}, l.mapM f = .ok out → out.map g = l.map g'
  | [], out, h => by
    rw [List.mapM_nil] at h
    cases h
    rfl
  | x :: l, out, h => by
    simp only [List.mapM_cons, Bind.bind, Except.bind, pure, Except.pure] at h
    split at h
    · cases h
    rename_i b hb
    split at h
    · cases h
    rename_i bs hbs
    cases h
    rw [List.map_cons, List.map_cons, hf x b hb, map_of_mapM_eq_ok hf hbs]

/-- The answer lists the lines of the holds it is made from. -/
theorem answers_of_result {request : ReservationRequest} {shipmentId warehouseId : Nat}
    {holds : List InventoryReservation} {skus : List Sku} {answer : ReservationResult}
    (h : result shipmentId warehouseId holds skus = .ok answer)
    (hid : shipmentId = request.shipmentId)
    (hlines : (holds.map fun h => (h.skuId, h.quantity)).Perm
      (request.lines.map fun line => (line.skuId, line.quantity))) : answer.Answers request := by
  simp only [result, Bind.bind, Except.bind, pure, Except.pure] at h
  split at h
  · cases h
  rename_i lines hmap
  cases h
  have hkeep : ∀ (h : InventoryReservation) (line : ReservedLine),
      reservedLine skus h = .ok line → (line.skuId, line.quantity) = (h.skuId, h.quantity) := by
    intro h line hline
    simp only [reservedLine, Bind.bind, Except.bind, pure, Except.pure] at hline
    split at hline
    · cases hline
    · cases hline
      rfl
  refine ⟨hid, ?_⟩
  rw [map_of_mapM_eq_ok hkeep hmap]
  exact ((List.perm_insertionSort _ _).map _).trans hlines

/-- There is an answer if the SKUs of the holds are among those loaded. -/
theorem result_of_skus {shipmentId warehouseId : Nat} {holds : List InventoryReservation}
    {skus : List Sku} (h : ∀ r ∈ holds, ∃ sku ∈ skus, sku.id = r.skuId) :
    ∃ answer, result shipmentId warehouseId holds skus = .ok answer := by
  have hline : ∀ r ∈ holds.insertionSort (fun a b => a.skuId ≤ b.skuId),
      ∃ line, reservedLine skus r = .ok line := by
    intro r hr
    obtain ⟨sku, hsku, hid⟩ := h r ((List.mem_insertionSort _).1 hr)
    cases hfind : skus.find? (·.id == r.skuId) with
    | none => exact absurd (beq_iff_eq.2 hid) (List.find?_eq_none.1 hfind sku hsku)
    | some found =>
      simp only [reservedLine, skuRow, hfind]
      exact ⟨_, rfl⟩
  obtain ⟨lines, hlines⟩ := mapM_eq_ok _ hline
  simp only [result, hlines]
  exact ⟨_, rfl⟩

/-- A replay compares the lines as sets, and no SKU is on two lines. -/
theorem perm_of_replay {db : Db} (hinv : Consistent db) {request : ReservationRequest}
    (h : ((request.lines.map fun line => (line.skuId, line.quantity)).all
        ((forShipment request.shipmentId db).map fun r => (r.skuId, r.quantity)).contains &&
      ((forShipment request.shipmentId db).map fun r => (r.skuId, r.quantity)).all
        (request.lines.map fun line => (line.skuId, line.quantity)).contains) = true) :
    ((forShipment request.shipmentId db).map fun r => (r.skuId, r.quantity)).Perm
      (request.lines.map fun line => (line.skuId, line.quantity)) := by
  simp only [Bool.and_eq_true, List.all_eq_true, List.contains_eq_mem, decide_eq_true_eq] at h
  have hrows : ((forShipment request.shipmentId db).map fun r => (r.skuId, r.quantity)).Nodup := by
    refine List.Nodup.of_map Prod.fst ?_
    rw [List.map_map]
    exact hinv.nodup_skus request.shipmentId
  have hlines : (request.lines.map fun line => (line.skuId, line.quantity)).Nodup := by
    refine List.Nodup.of_map Prod.fst ?_
    rw [List.map_map]
    exact request.unique_skus
  exact (List.perm_ext_iff_of_nodup hrows hlines).2 fun x => ⟨h.2 x, h.1 x⟩

theorem exists_mem_forShipment {shipmentId : Nat} {db : Db}
    (h : (!(forShipment shipmentId db).isEmpty) = true) :
    ∃ r ∈ db.reservations, r.shipmentId = shipmentId := by
  rw [Bool.not_eq_true', List.isEmpty_eq_false_iff] at h
  obtain ⟨r, hr⟩ := List.exists_mem_of_ne_nil _ h
  obtain ⟨hmem, hid⟩ := List.mem_filter.1 hr
  exact ⟨r, hmem, by simpa using hid⟩

theorem wp_reserve {request : ReservationRequest} (hp : v.pending = .ok)
    (hnone : ∀ x, ¬ v.held x) :
    (protocol unconfirmedHold).wp (.reserve request) (reserve unconfirmedHold request)
      (fun out => (protocol unconfirmedHold).Commits (.reserve request) v.db
        (.reserved out.1 out.2)) v := by
  unfold reserve
  simp only [Txn.bind_eq]
  apply Discipline.wp_bind
  apply Discipline.wp_select hp
  intro n₀ db₀ hr₀
  split
  · -- the shipment has reservations: they are answered, nothing is written
    rename_i hsome
    apply Discipline.wp_bind
    unfold replay
    dsimp only
    split
    · trivial
    rename_i hsame
    simp only [Txn.bind_eq]
    apply Discipline.wp_bind
    apply Discipline.wp_select (show (v.later n₀ db₀).pending = .ok from hp)
    intro n db hr
    apply Discipline.wp_ofExcept
    intro answer hanswer
    refine commits_of_no_write hp fun n' db' hr' => ⟨?_, ?_, rfl⟩
    · refine answers_of_result hanswer rfl ?_
      simp only [Bool.or_eq_true, not_or, Bool.not_eq_true, Bool.not_eq_false'] at hsame
      exact perm_of_replay hr₀.inv hsame.1
    · obtain ⟨r, hmem, hid⟩ := exists_mem_forShipment hsome
      obtain ⟨r', hmem', hg⟩ := (hr.trans hr').grow.reservations r hmem
      exact ⟨r', hmem', hg.shipment.trans hid⟩
  apply Discipline.wp_bind
  apply Discipline.wp_select (show (v.later n₀ db₀).pending = .ok from hp)
  intro n₁ db₁ _
  apply Discipline.wp_bind
  apply Discipline.wp_ofExcept
  intro _ _
  apply Discipline.wp_bind
  apply Discipline.wp_select (show ((v.later n₀ db₀).later n₁ db₁).pending = .ok from hp)
  intro n₂ db₂ _
  apply Discipline.wp_bind
  apply Discipline.wp_ofExcept
  intro skus _
  apply Discipline.wp_bind
  unfold lockItems
  apply wp_selectItems
    (show (((v.later n₀ db₀).later n₁ db₁).later n₂ db₂).pending = .ok from hp)
  · intro i i' _ hwh hsku
    rw [hwh, hsku]
  · exact fun _ _ _ _ _ _ => Or.inl fun x hx => absurd hx (hnone x)
  intro n₃ db₃ hr₃ copies rows hcopies hrows
  have hwarehouse : ∀ c ∈ copies, c.warehouseId = request.warehouseId := fun c hc => by
    have hpc := (hcopies c hc).2.2
    simp only [Bool.and_eq_true, beq_iff_eq] at hpc
    exact hpc.1
  apply Discipline.wp_bind
  refine wp_expireUnconfirmed ⟨hp, fun c hc => Or.inl (hcopies c hc).1,
    fun c hc => (hcopies c hc).2.1, fun x hx => ?_⟩ hr₃.inv ?_
  · rcases hx with hx | hx
    · exact hrows x hx
    · exact absurd hx (hnone x)
  intro w expired cutoff now _ hexpired hlocked _
  dsimp only
  apply Discipline.wp_bind
  apply Discipline.wp_ofExcept
  intro _ hstock
  apply Discipline.wp_bind
  apply Discipline.wp_now
  intro time db₄ hr₄
  apply Discipline.wp_bind
  apply wp_freshIds
  intro ids hids
  apply Discipline.wp_bind
  apply Discipline.wp_ofExcept
  intro out hloop
  obtain ⟨copies', holds⟩ := out
  dsimp only
  have hzip : (request.lines.zip ids).map Prod.fst = request.lines :=
    List.map_fst_zip (by rw [hids])
  obtain ⟨rfl, hkeys, hholds⟩ := holdEach_spec _ hloop fun line hline => by
    rw [← hzip]
    exact List.mem_map_of_mem hline
  have hlines : holds.map (fun h => (h.skuId, h.quantity)) =
      request.lines.map (fun line => (line.skuId, line.quantity)) := by
    have hmap := congrArg (List.map fun line : ReservationLineRequest =>
      (line.skuId, line.quantity)) hzip
    rw [List.map_map] at hmap
    exact hkeys.trans hmap
  -- what the flush does to the swept state, whenever it is evaluated
  have heffect : ∀ n db mid, (protocol unconfirmedHold).Rely w n db →
      w.pending db = .ok mid →
      mid = db.expireRows expired now ∧ Consistent mid ∧
      (mid.writeItems ((copies.map (InventoryItem.unreserve expired)).map
        (InventoryItem.reserve holds))).insertReservations holds = mid.holdRows holds ∧
      Checks (mid.holdRows holds) ∧ Accounts (mid.holdRows holds) ∧
      ∀ h ∈ holds, HoldFor request (time + unconfirmedHold) mid.items h := by
    intro n db mid hr hmid
    obtain ⟨heq, hinv, hcopies'⟩ := hexpired.flushed n db hr mid hmid
    have havail := available_of_holds hinv hcopies' (fun c hc => by
      obtain ⟨c₀, hc₀, rfl⟩ := List.mem_map.1 hc
      exact hwarehouse c₀ hc₀) hstock hlines hholds
    have hon : ∀ h ∈ holds, HoldFor request (time + unconfirmedHold) mid.items h :=
      fun h hh => { hholds h hh with
        item := by
          obtain ⟨c, hc, hid⟩ := (hholds h hh).item
          exact ⟨c, hcopies' c hc, hid⟩ }
    refine ⟨heq, hinv, writeItems_hold hinv hcopies' hholds, ?_, ?_, hon⟩
    all_goals
      have hkeep := hinv.holdRows (fun h hh => by
          obtain ⟨c, hc, hid, -⟩ := (hon h hh).item
          exact ⟨c, hc, hid⟩)
        (fun h hh => by
          obtain ⟨line, -, -, hq⟩ := (hholds h hh).line
          exact hq ▸ line.quantity_pos)
        (fun h hh => (hholds h hh).status) (fun h hh => by rw [(hholds h hh).expires]; rfl) havail
    · exact hkeep.1
    · exact hkeep.2
  apply Discipline.wp_bind
  apply Discipline.wp_write
  intro n₅ db₅ hr₅ view hview
  obtain ⟨-, -, heq, hchecks, -, -⟩ := heffect n₅ db₅ view (hr₄.trans hr₅) hview
  refine ⟨heq ▸ noCheckViolation_of_checks hchecks, fun _ _ => ?_⟩
  apply Discipline.wp_bind
  apply Discipline.wp_write
  intro n₆ db₆ hr₆ _ _
  refine ⟨noCheckViolation_ok _, fun _ _ => ?_⟩
  apply Discipline.wp_bind
  apply Discipline.wp_ofExcept
  intro answer hanswer n₇ db₇ hr₇ db' hdb'
  have hrely := hr₄.trans (hr₅.trans (hr₆.unflushed.trans hr₇.unflushed.unflushed))
  obtain ⟨mid', hmid', hstage⟩ := View.flushed_pending_eq_ok.1 hdb'
  obtain ⟨mid, hmid, hflush⟩ := View.flushed_pending_eq_ok.1 hmid'
  obtain ⟨rfl, hinvmid, heq, hchecks, haccounts, hon⟩ := heffect n₇ db₇ mid hrely hmid
  rw [heq] at hflush
  obtain ⟨rfl, hinv⟩ := consistent_of_check hchecks haccounts hflush
  cases hstage
  have hlapsed := hexpired.lapsed.later hrely
  have hsweep : (protocol unconfirmedHold).Guar w.held db₇ (db₇.expireRows expired now) :=
    guar_stage (guar_releaseRows hrely.inv hlapsed.toLocked "Unconfirmed hold expired" now
      (hinvmid.congr rfl rfl rfl)) (releasedEvents expired)
  have hitems : ∀ h ∈ holds, w.held (.item h.inventoryItemId) := by
    intro h hh
    obtain ⟨c, hc, hid, -⟩ := (hholds h hh).item
    exact hid ▸ hexpired.locked c hc
  refine ⟨guar_stage (hsweep.trans (guar_holdRows hitems hinv)) _, ?_⟩
  have htime : time ≤ n₇ := (hr₅.trans (hr₆.unflushed.trans hr₇.unflushed.unflushed)).clock
  exact ⟨answers_of_result hanswer rfl (hlines ▸ List.Perm.refl _), cutoff, now, expired, time,
    holds, hexpired.cutoff_le, Nat.le_trans hexpired.now_le hr₄.clock, htime, hlapsed, hon, hlines,
    rfl⟩

/-! ## Stock positions -/

theorem wp_openPosition {payload : InventoryItemCreate} {principal : Principal}
    (hp : v.pending = .ok) :
    (protocol unconfirmedHold).wp (.openPosition payload principal)
      (openPosition payload principal)
      (fun item => (protocol unconfirmedHold).Commits (.openPosition payload principal)
        v.db (.item item)) v := by
  unfold openPosition
  simp only [Txn.bind_eq]
  apply Discipline.wp_bind
  apply Discipline.wp_ofExcept
  intro _ _
  apply Discipline.wp_bind
  apply Discipline.wp_select hp
  intro n₁ db₁ _
  apply Discipline.wp_bind
  apply Discipline.wp_ofExcept
  intro _ _
  apply Discipline.wp_bind
  apply Discipline.wp_select (show (v.later n₁ db₁).pending = .ok from hp)
  intro n₂ db₂ _
  split
  · trivial
  apply Discipline.wp_bind
  apply Discipline.wp_freshId
  intro itemId
  apply Discipline.wp_bind
  apply Discipline.wp_write
  intro n₃ db₃ hr₃ view hview
  simp only [View.later_pending, hp, Except.ok.injEq] at hview
  subst hview
  refine ⟨noCheckViolation_of_checks (hr₃.inv.insertItem payload.onHandQty_nonneg rfl),
    fun _ _ => ?_⟩
  split
  · -- opened with stock: the opening is a ledger row of its own
    rename_i hne
    apply Discipline.wp_bind
    apply Discipline.wp_now
    intro occurredAt db₄ hr₄
    apply Discipline.wp_bind
    apply Discipline.wp_write
    intro n₅ db₅ hr₅ view hview
    obtain ⟨view₀, hview₀, hfirst⟩ := View.flushed_pending_eq_ok.1 hview
    simp only [View.later_pending, hp, Except.ok.injEq] at hview₀
    subst hview₀
    obtain rfl := eq_of_check hfirst
    have hinv₅ := (hr₄.trans hr₅).unflushed.inv
    refine ⟨noCheckViolation_of_checks (hinv₅.openRows payload.onHandQty_nonneg rfl
      (uniqueKeys_of_check hfirst) (Or.inr ⟨_, rfl, hne, rfl, rfl, rfl⟩)).1, fun _ _ => ?_⟩
    intro n₆ db₆ hr₆ db' hdb'
    have hinv₆ := hr₆.inv
    obtain ⟨mid, hmid, hsecond⟩ := View.flushed_pending_eq_ok.1 hdb'
    obtain ⟨view, hview, hfirst⟩ := View.flushed_pending_eq_ok.1 hmid
    simp only [View.later_pending, hp, Except.ok.injEq] at hview
    subst hview
    obtain rfl := eq_of_check hfirst
    refine guar_openRows hinv₆ payload.onHandQty_nonneg rfl hfirst hsecond
      (Or.inr ⟨_, rfl, hne, rfl, rfl, rfl⟩) fun m hm => ?_
    rw [List.mem_singleton.1 hm]
    simp [openingMovement]
  · -- opened empty: there is nothing to write to the ledger
    rename_i hz
    intro n₄ db₄ hr₄ db' hdb'
    obtain ⟨view, hview, hfirst⟩ := View.flushed_pending_eq_ok.1 hdb'
    simp only [View.later_pending, hp, Except.ok.injEq] at hview
    subst hview
    obtain rfl := eq_of_check hfirst
    refine guar_openRows hr₄.inv payload.onHandQty_nonneg rfl hfirst ?_
      (Or.inl ⟨rfl, not_not.1 hz⟩) fun _ hm => absurd hm List.not_mem_nil
    rw [Db.insertMovements_nil]
    exact hfirst

/-- What the flush of an adjustment writes, on a state in which the copy is current. -/
theorem insertMovements_adjustOne {db : Db} (hinv : Consistent db) {payload : StockAdjustment}
    {row : InventoryItem} (hrow : row ∈ db.items) {m : StockMovement} :
    (db.writeItems [adjustOne payload row]).insertMovements [m] = db.adjustRows payload row m := by
  have hcopy : [adjustOne payload row] =
      [row].map fun i => if i = row then adjustOne payload i else i := by simp
  rw [hcopy, Db.writeItems_map hinv.items]
  · rfl
  · intro c hc
    rwa [List.mem_singleton.1 hc]
  · intro i
    split <;> rfl
  · intro i _ hnot
    refine if_neg fun heq : i = row => hnot ?_
    rw [heq]
    exact List.mem_cons_self

theorem wp_adjust {itemId : Nat} {payload : StockAdjustment} {principal : Principal}
    (hp : v.pending = .ok) (hnone : ∀ x, ¬ v.held x) :
    (protocol unconfirmedHold).wp (.adjust itemId payload principal)
      (adjust itemId payload principal)
      (fun item => (protocol unconfirmedHold).Commits (.adjust itemId payload principal)
        v.db (.item item)) v := by
  unfold adjust
  simp only [Txn.bind_eq]
  apply Discipline.wp_bind
  apply wp_selectItems hp
  · intro i i' hid _ _
    rw [hid]
  · exact fun _ _ _ _ _ _ => Or.inl fun x hx => absurd hx (hnone x)
  intro n₁ db₁ hr₁ copies rows hcopies _
  split
  · trivial
  rename_i row hrow
  have hmem : row ∈ copies := List.mem_of_mem_head? (Option.mem_def.2 hrow)
  have hlocked : ((v.later n₁ db₁).grantAll rows).held (.item row.id) := Or.inl (hcopies row hmem).1
  split
  · trivial
  apply Discipline.wp_bind
  apply Discipline.wp_ofExcept
  intro _ _
  apply Discipline.wp_bind
  apply Discipline.wp_now
  intro occurredAt db₂ hr₂
  -- the flush writes the adjusted row, on any state the transaction may see from here on
  have heffect : ∀ n db, (protocol unconfirmedHold).Rely
      ((v.later n₁ db₁).grantAll rows) n db → row ∈ db.items ∧
      (db.writeItems [adjustOne payload row]).insertMovements
        [adjustmentMovement payload (adjustOne payload row) principal.userId occurredAt] =
      db.adjustRows payload row
        (adjustmentMovement payload (adjustOne payload row) principal.userId occurredAt) := by
    intro n db hr
    have hrowdb : row ∈ db.items := item_mem_of_locked hr (hcopies row hmem).2.1 hlocked
    exact ⟨hrowdb, insertMovements_adjustOne hr.inv hrowdb⟩
  apply Discipline.wp_bind
  apply Discipline.wp_write
  intro n₃ db₃ hr₃ view _
  refine ⟨fun _ _ hop => absurd trivial hop, fun _ _ => ?_⟩
  apply Discipline.wp_bind
  apply Discipline.wp_write
  intro n₄ db₄ hr₄ _ _
  refine ⟨noCheckViolation_ok _, fun _ _ => ?_⟩
  intro n₅ db₅ hr₅ db' hdb'
  have hrely := hr₂.trans (hr₃.trans (hr₄.unflushed.trans hr₅.unflushed.unflushed))
  obtain ⟨mid, hmid, hstage⟩ := View.flushed_pending_eq_ok.1 hdb'
  obtain ⟨view, hview, hflush⟩ := View.flushed_pending_eq_ok.1 hmid
  simp only [View.later_pending, View.grantAll_pending, hp, Except.ok.injEq] at hview
  subst hview
  obtain ⟨hrowdb, heq⟩ := heffect n₅ db₅ hrely
  rw [heq] at hflush
  have hinv := hrely.inv.adjustRows hrowdb hflush
  obtain rfl := eq_of_check hflush
  cases hstage
  refine ⟨guar_stage (guar_adjustRows hlocked hinv) _, rfl, _, rfl, fun m hm => ?_⟩
  rw [List.mem_singleton.1 hm]
  simp [adjustmentMovement]

/-! ## The system -/

/-- The protocol governs Inventory: every operation meets it, and the writes of the catalog and of
the replica touch no table it is about. -/
theorem protocol_governs (unconfirmedHold : Nat) :
    (protocol unconfirmedHold).Governs (inventory unconfirmedHold) where
  program := by
    intro op now db hinv
    have hnone : ∀ x : Row, ¬ (⟨fun _ => False, .ok, now, db⟩ : View Db Row Failure).held x :=
      fun _ hx => hx
    cases op with
    | openPosition payload principal => exact Discipline.wp_bind _ _ (wp_openPosition rfl)
    | adjust itemId payload principal => exact Discipline.wp_bind _ _ (wp_adjust rfl hnone)
    | reserve request => exact Discipline.wp_bind _ _ (wp_reserve rfl hnone)
    | confirm shipmentId => exact Discipline.wp_bind _ _ (wp_confirm rfl hnone)
    | commit shipmentId actorId => exact Discipline.wp_bind _ _ (wp_commit rfl hnone)
    | release shipmentId reason => exact Discipline.wp_bind _ _ (wp_release rfl hnone)
    | releaseExpired warehouseIds =>
      exact Discipline.wp_bind _ _ (wp_releaseExpired rfl hnone)
  env := by
    intro e db hinv
    cases e with
    | catalog skus =>
      exact ⟨hinv.congr rfl rfl rfl, ⟨(Grows.refl db).items, (Grows.refl db).reservations,
        (Grows.refl db).movements⟩, fun r _ => match r with
          | .item _ => fun _ hi _ => hi
          | .reservation _ => fun _ hi _ => hi⟩
    | replica refs =>
      exact ⟨hinv.congr rfl rfl rfl, ⟨(Grows.refl db).items, (Grows.refl db).reservations,
        (Grows.refl db).movements⟩, fun r _ => match r with
          | .item _ => fun _ hi _ => hi
          | .reservation _ => fun _ hi _ => hi⟩

/-- Every reachable configuration is sound: its state is consistent and its open sessions keep the
protocol. -/
theorem sound_of_reachable {c : Config Db Row Failure Outcome Operation}
    (h : Reachable unconfirmedHold c) : c.Sound (protocol unconfirmedHold) :=
  sound_of_run (protocol_governs unconfirmedHold) (Config.sound_idle consistent_empty) h

end SmartLogistics.Inventory
