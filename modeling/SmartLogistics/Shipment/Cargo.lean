import SmartLogistics.Shipment.Packing

/-!
# What a shipment carries

The lines of a shipment and its weight are written by its create and by nothing else: an update, a
status change and the requests on parcels leave them alone (`cargo_of_run`). And no parcel is of a
shipment that has no row (`Cargo.housed`), so that the parcels of a new shipment are those its
create inserts (`Cargo.packagesOf_insert`).
-/

set_option autoImplicit false
set_option linter.dupNamespace false

namespace SmartLogistics.Shipment

open SmartLogistics.Library SmartLogistics.Platform SmartLogistics.Warehouse
  SmartLogistics.Inventory

/-- The shipment carries what it carried. -/
structure SameCargo (row row' : ShipmentRow) : Prop where
  id : row'.id = row.id
  items : row'.items = row.items
  weight : row'.totalWeightG = row.totalWeightG

theorem SameCargo.refl (row : ShipmentRow) : SameCargo row row := ⟨rfl, rfl, rfl⟩

theorem SameCargo.trans {a b c : ShipmentRow} (h : SameCargo a b) (h' : SameCargo b c) :
    SameCargo a c :=
  ⟨h'.id.trans h.id, h'.items.trans h.items, h'.weight.trans h.weight⟩

/-- A status change leaves the weight alone. -/
theorem weight_of_change {shipment moved : Shipment} {target : ShipmentStatus}
    {principal : Principal} {reason : Option String} {expectedVersion : Option Nat} {now : Nat}
    (h : changeStatus shipment target principal reason expectedVersion now = .ok moved) :
    moved.totalWeightG = shipment.totalWeightG := by
  rw [changeStatus_eq_moveTo h]
  cases target <;> rfl

/-- The shipment of the id has a row. -/
def Tables.HasRow (db : Tables) (shipmentId : Nat) : Prop :=
  ∃ row ∈ db.shipments, row.id = shipmentId

namespace Lifecycle

/-! ## What a transaction writes -/

/-- A write leaves the cargo alone, and a new parcel is of a shipment there is. -/
def CargoOk (db : Tables) : Work → Prop
  | .write read row _ _ => SameCargo read row
  | .pack read _ => db.HasRow read.id
  | _ => True

theorem sameCargo_update {row row' : ShipmentRow} {payload : ShipmentUpdate}
    (h : update row payload = .ok row') : SameCargo row row' := by
  unfold update at h
  repeat' split at h
  all_goals
    cases h
    try exact ⟨rfl, rfl, rfl⟩

theorem sameCargo_versioned {read row : ShipmentRow} (h : SameCargo read row) :
    SameCargo read (versioned read row) := by
  unfold versioned
  split
  · exact h
  · exact ⟨h.id, h.items, h.weight⟩

theorem cargoOk_of_prepare {db : Tables} {now id barcode : Nat} {op : Op} {work : Work}
    (h : prepare db now id barcode op = .ok work) : CargoOk db work := by
  cases op with
  | create payload destination packages warehouse reservation principal shipmentId referenceNo =>
    cases h
    trivial
  | update shipmentId payload principal =>
    simp only [prepare, Bind.bind, Except.bind] at h
    split at h
    · cases h
    split at h
    · cases h
    rename_i hrow
    cases h
    exact sameCargo_versioned (sameCargo_update hrow)
  | changeStatus shipmentId target principal reason expectedVersion =>
    simp only [prepare, Bind.bind, Except.bind] at h
    split at h
    · cases h
    split at h
    · cases h
    rename_i hmoved
    cases h
    obtain ⟨-, -, -, hid, hitems⟩ := changeStatus_eq_ok hmoved
    exact ⟨hid, hitems, weight_of_change hmoved⟩
  | addPackage shipmentId payload principal =>
    simp only [prepare, Bind.bind, Except.bind] at h
    split at h
    · cases h
    rename_i hadd
    cases h
    exact ⟨_, (addPackage_eq_ok hadd).1, rfl⟩
  | updatePackage packageId payload principal =>
    simp only [prepare, Bind.bind, Except.bind] at h
    split at h
    · cases h
    cases h
    trivial

/-! ## Steps -/

/-- The invariant of the cargo. -/
structure Cargo (s : State) : Prop where
  packing : Packing s
  housed : ∀ package ∈ s.db.packages, s.db.HasRow package.shipmentId
  txns : ∀ t txn, s.txns t = some txn → ∀ work, txn.work? = some work → CargoOk s.db work

theorem cargo_empty : Cargo .empty where
  packing := packing_empty
  housed := fun _ h => absurd h List.not_mem_nil
  txns := fun _ _ h => nomatch h

section Commit

variable {s : State} {t : Nat} {work : Work} {events : List (OutboxEvent ShipmentPayload)}

/-- A commit leaves the cargo of every shipment alone. -/
theorem Cargo.sameCargo_apply (hs : Cargo s) (ht : s.txns t = some (.staged work events)) :
    ∀ row ∈ s.db.shipments, ∃ row' ∈ (work.apply events s.db).shipments, SameCargo row row' := by
  intro r hr
  obtain ⟨-, hholds, -⟩ := hs.packing.story.txns t _ ht
  have hok := hs.txns t _ ht work rfl
  cases work with
  | insert row packages entry => exact ⟨r, List.mem_append_left _ hr, .refl r⟩
  | write read row entry payload =>
    by_cases hne : row = read
    · refine ⟨r, ?_, .refl r⟩
      simpa [Work.apply, hne] using hr
    have hread := (hholds hne).2
    by_cases hkey : r.id = row.id
    · -- the row that was read is the one that is written
      obtain rfl : r = read := hs.packing.story.eq_of_id hr hread (hkey.trans hok.id)
      exact ⟨row, (mem_shipments_write hne hread hok.id).2 (Or.inl rfl), hok⟩
    · exact ⟨r, (mem_shipments_write hne hread hok.id).2 (Or.inr ⟨hr, hkey⟩), .refl r⟩
  | pack read package => exact ⟨r, hr, .refl r⟩
  | repack read old new => exact ⟨r, hr, .refl r⟩

theorem Cargo.hasRow_apply (hs : Cargo s) (ht : s.txns t = some (.staged work events)) {id : Nat}
    (h : s.db.HasRow id) : (work.apply events s.db).HasRow id := by
  obtain ⟨row, hrow, rfl⟩ := h
  obtain ⟨row', hrow', hsame⟩ := hs.sameCargo_apply ht row hrow
  exact ⟨row', hrow', hsame.id⟩

/-- After a commit, too, every parcel is of a shipment there is. -/
theorem Cargo.housed_apply (hs : Cargo s) (ht : s.txns t = some (.staged work events)) :
    ∀ package ∈ (work.apply events s.db).packages,
      (work.apply events s.db).HasRow package.shipmentId := by
  have hstill : ∀ id, s.db.HasRow id → (work.apply events s.db).HasRow id := fun _ h =>
    hs.hasRow_apply ht h
  have hpack := hs.packing.txns t _ ht work rfl
  have hok := hs.txns t _ ht work rfl
  intro package hpackage
  cases work with
  | insert row packages entry =>
    rcases List.mem_append.1 hpackage with hold | hnew
    · exact hstill _ (hs.housed package hold)
    · rw [hpack package hnew]
      exact ⟨row, List.mem_append_right _ List.mem_cons_self, rfl⟩
  | write read row entry payload => exact hstill _ (hs.housed package hpackage)
  | pack read new =>
    rcases List.mem_append.1 hpackage with hold | hnew
    · exact hstill _ (hs.housed package hold)
    · rw [List.mem_singleton.1 hnew, hpack.1]
      exact hstill _ hok
  | repack read old new =>
    obtain ⟨p, hp, rfl⟩ := List.mem_map.1 hpackage
    have hsame : (if p.id = old.id then rewrite old new p else p).shipmentId = p.shipmentId := by
      split <;> rfl
    rw [hsame]
    exact hstill _ (hs.housed p hp)

/-- The parcels of a new shipment are the ones that were inserted with it. -/
theorem Cargo.packagesOf_insert (hs : Cargo s) {row : ShipmentRow} {packages : List Package}
    {entry : ShipmentStatusHistory}
    (ht : s.txns t = some (.staged (.insert row packages entry) events)) :
    ((Work.insert row packages entry).apply events s.db).packagesOf row.id = packages := by
  obtain ⟨-, hholds, -⟩ := hs.packing.story.txns t _ ht
  have hnew := hs.packing.txns t _ ht _ rfl
  have hnone : s.db.packages.filter (·.shipmentId == row.id) = [] := by
    refine List.filter_eq_nil_iff.2 fun package hpackage hkey => ?_
    obtain ⟨r, hr, hid⟩ := hs.housed package hpackage
    exact hholds.2 r hr (hid.trans (beq_iff_eq.1 hkey))
  have hall : packages.filter (·.shipmentId == row.id) = packages :=
    List.filter_eq_self.2 fun package hpackage => beq_iff_eq.2 (hnew package hpackage)
  rw [Tables.packagesOf, Work.apply, List.filter_append, hnone, hall, List.nil_append]

end Commit

/-- A commit that keeps every shipment keeps what the transactions know of them. -/
theorem CargoOk.mono {db db' : Tables} (hstill : ∀ id, db.HasRow id → db'.HasRow id) {work : Work}
    (h : CargoOk db work) : CargoOk db' work := by
  cases work with
  | pack read package => exact hstill _ h
  | insert row packages entry => exact h
  | write read row entry payload => exact h
  | repack read old new => exact h

theorem Cargo.step {s s' : State} {l : Label} (hs : Cargo s) (h : Step s l s') : Cargo s' := by
  have hworks : ∀ u txn', s'.txns u = some txn' → ∀ work, txn'.work? = some work →
      CargoOk s.db work := by
    intro u txn' hu work hwork
    rcases work_of_step h hu hwork with ⟨txn, ht, hold⟩ | ⟨-, now, id, barcode, op, hprepare⟩
    · exact hs.txns u txn ht work hold
    · exact cargoOk_of_prepare hprepare
  refine ⟨hs.packing.step h, ?_, fun u txn' hu work hwork => ?_⟩
  · rcases db_of_step h with hdb | ⟨t, work, events, -, ht, -, hdb⟩
    · rw [hdb]
      exact hs.housed
    · rw [hdb]
      exact hs.housed_apply ht
  · refine (hworks u txn' hu work hwork).mono fun id hrow => ?_
    rcases db_of_step h with hdb | ⟨t, other, events, -, ht, -, hdb⟩
    · rwa [hdb]
    · rw [hdb]
      exact hs.hasRow_apply ht hrow

theorem cargo_of_reachable {s : State} (h : machine.Run .empty s) : Cargo s := by
  have hstep : ∀ s l s', Cargo s → True → machine.next s l = some s' → Cargo s' :=
    fun _ _ _ hs _ hnext => hs.step (step_of_next hnext)
  exact h.preserves hstep cargo_empty

theorem Cargo.sameCargo {s s' : State} {l : Label} (hs : Cargo s) (h : Step s l s') :
    ∀ row ∈ s.db.shipments, ∃ row' ∈ s'.db.shipments, SameCargo row row' := by
  rcases db_of_step h with hdb | ⟨t, work, events, -, ht, -, hdb⟩
  · rw [hdb]
    exact fun row hrow => ⟨row, hrow, .refl row⟩
  · rw [hdb]
    exact hs.sameCargo_apply ht

/-- In every later state a shipment carries what it carries. -/
theorem cargo_of_run {s s' : State} (h : machine.Run .empty s) (hrun : machine.Run s s')
    {row : ShipmentRow} (hrow : row ∈ s.db.shipments) :
    ∃ row' ∈ s'.db.shipments, SameCargo row row' := by
  induction hrun with
  | refl => exact ⟨row, hrow, .refl row⟩
  | @tail s₁ s₂ hrun hnext ih =>
    obtain ⟨row₁, hrow₁, hsame₁⟩ := ih
    obtain ⟨l, -, hnext⟩ := hnext
    obtain ⟨row₂, hrow₂, hsame₂⟩ :=
      (cargo_of_reachable (h.trans hrun)).sameCargo (step_of_next hnext) row₁ hrow₁
    exact ⟨row₂, hrow₂, hsame₁.trans hsame₂⟩

end Lifecycle

end SmartLogistics.Shipment
