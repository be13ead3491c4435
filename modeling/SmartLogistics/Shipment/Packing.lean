import SmartLogistics.Shipment.AuditTrail

/-!
# What has shipped stays as packed

The parcels of a dispatched shipment, with their weights and dimensions (`packed`). `add_package`
tests the status of the row it read, `update_package` does not, and neither writes the shipment's
row: no version check sees a dispatch in between.

`packed_of_dispatched`: the parcels stay as they were at the dispatch along runs in which each write
of a parcel is in time (`inTime`): its transaction read the shipment before the dispatch, and no
dispatch was committed since. `packed_after_dispatch` is a run that is not.
-/

set_option autoImplicit false
set_option linter.dupNamespace false

namespace SmartLogistics.Shipment

open SmartLogistics.Library SmartLogistics.Platform SmartLogistics.Warehouse
  SmartLogistics.Inventory

/-- The weight and the dimensions of a parcel. -/
def Package.measures (package : Package) : Int × Option Int × Option Int × Option Int :=
  (package.weightG, package.lengthMm, package.widthMm, package.heightMm)

/-- What was packed into a shipment. -/
def Tables.packed (db : Tables) (shipmentId : Nat) :
    List (Nat × Int × Option Int × Option Int × Option Int) :=
  (db.packagesOf shipmentId).map fun package => (package.id, package.measures)

/-- A shipment that may be edited has not been dispatched. -/
theorem Told.dispatchedAt_of_editable {db : Tables} {row : ShipmentRow} (h : Told db row)
    (heditable : editableStates.contains row.status = true) : row.dispatchedAt = none := by
  have hrank : row.status.rank = 0 := by
    revert heditable
    cases row.status <;> decide
  have hmem : ShipmentStatus.dispatched ∈ stampedStatuses := by decide
  by_contra hne
  -- the path has entered `dispatched`, and does not fall behind it
  have hone := (h.stamped .dispatched hmem).1 (Option.isSome_iff_ne_none.2 hne)
  have hle := (h.path.entries_le hmem).2 (by omega)
  rw [hrank] at hle
  exact absurd hle (by decide)

namespace Lifecycle

/-! ## Writes in time -/

/-- No dispatch of the shipment was committed since its row was read. -/
def notDispatchedSince (db : Tables) (read : ShipmentRow) : Bool :=
  db.shipments.all fun row => row.id != read.id || row.dispatchedAt == read.dispatchedAt

/-- A new parcel, or new measures of one, are of a shipment that has not been dispatched since it
was read; new measures are of one that was not dispatched then. -/
def Work.inTime (db : Tables) : Work → Bool
  | .pack read _ => notDispatchedSince db read
  | .repack read old new =>
    new.measures == old.measures || (read.dispatchedAt.isNone && notDispatchedSince db read)
  | _ => true

/-- If the step is a commit, it commits in time. -/
def inTime (s : State) : Label → Bool
  | .commit t =>
    match s.txns t with
    | some (.staged work _) => work.inTime s.db
    | _ => true
  | _ => true

theorem dispatchedAt_of_notDispatchedSince {db : Tables} {read row : ShipmentRow}
    (h : notDispatchedSince db read = true) (hrow : row ∈ db.shipments) (hid : row.id = read.id) :
    row.dispatchedAt = read.dispatchedAt := by
  have hkept := List.all_eq_true.1 h row hrow
  rw [Bool.or_eq_true, bne_iff_ne, beq_iff_eq] at hkept
  exact hkept.resolve_left fun hne => hne hid

/-! ## What a transaction on parcels knows -/

/-- The parcels a transaction writes are of the shipment it read. -/
def PackOk (db : Tables) : Work → Prop
  | .insert row packages _ => ∀ package ∈ packages, package.shipmentId = row.id
  | .write _ _ _ _ => True
  | .pack read package => package.shipmentId = read.id ∧ read.dispatchedAt = none
  | .repack read old _ => ∃ package ∈ db.packages, package.id = old.id ∧
      package.shipmentId = read.id

/-- The invariant of the parcels. -/
structure Packing (s : State) : Prop where
  story : Story s
  keyed : Table.Keyed Package.id s.db.packages
  txns : ∀ t txn, s.txns t = some txn → ∀ work, txn.work? = some work → PackOk s.db work

theorem packing_empty : Packing .empty where
  story := story_empty
  keyed := List.nodup_nil
  txns := fun _ _ h => nomatch h

theorem addPackage_eq_ok {db : Tables} {shipmentId : Nat} {payload : PackageCreate}
    {principal : Principal} {id barcode : Nat} {read : ShipmentRow} {package : Package}
    (h : addPackage db shipmentId payload principal id barcode = .ok (read, package)) :
    read ∈ db.shipments ∧ editableStates.contains read.status = true ∧
      package.shipmentId = read.id := by
  simp only [addPackage, Bind.bind, Except.bind] at h
  split at h
  · cases h
  rename_i row hget
  split at h
  · cases h
  split at h
  · cases h
  rename_i heditable
  cases h
  exact ⟨(get_eq_ok hget).1, by simpa using heditable, rfl⟩

theorem updatePackage_eq_ok {db : Tables} {packageId : Nat} {payload : PackageUpdate}
    {principal : Principal} {now : Nat} {read : ShipmentRow} {new : Package}
    (h : updatePackage db packageId payload principal now = .ok (read, new)) :
    ∃ package, db.package packageId = some package ∧ package.shipmentId = read.id := by
  unfold updatePackage at h
  split at h
  · cases h
  rename_i package hpackage
  simp only [Bind.bind, Except.bind] at h
  split at h
  · cases h
  rename_i row hget
  split at h
  · cases h
  split at h
  · cases h
  cases h
  exact ⟨package, hpackage, (get_eq_ok hget).2.1.symm⟩

theorem packOk_of_prepare {db : Tables} (htold : ∀ row ∈ db.shipments, Told db row)
    {now id barcode : Nat} {op : Op} {work : Work} (h : prepare db now id barcode op = .ok work) :
    PackOk db work := by
  cases op with
  | create payload destination packages warehouse reservation principal shipmentId referenceNo =>
    cases h
    intro package hpackage
    obtain ⟨_, -, rfl⟩ := List.mem_map.1 hpackage
    rfl
  | update shipmentId payload principal =>
    simp only [prepare, Bind.bind, Except.bind] at h
    split at h
    · cases h
    split at h
    · cases h
    cases h
    trivial
  | changeStatus shipmentId target principal reason expectedVersion =>
    simp only [prepare, Bind.bind, Except.bind] at h
    split at h
    · cases h
    split at h
    · cases h
    cases h
    trivial
  | addPackage shipmentId payload principal =>
    simp only [prepare, Bind.bind, Except.bind] at h
    split at h
    · cases h
    rename_i found hadd
    cases h
    obtain ⟨hread, heditable, hid⟩ := addPackage_eq_ok hadd
    exact ⟨hid, (htold _ hread).dispatchedAt_of_editable heditable⟩
  | updatePackage packageId payload principal =>
    simp only [prepare, Bind.bind, Except.bind] at h
    split at h
    · cases h
    rename_i found hupdate
    cases h
    obtain ⟨package, hpackage, hid⟩ := updatePackage_eq_ok hupdate
    rw [PackOk, hpackage, Option.getD_some]
    exact ⟨package, (Table.mem_of_lookup hpackage).1, rfl, hid⟩

/-! ## Steps -/

theorem rewrite_id (old new package : Package) : (rewrite old new package).id = package.id := rfl

/-- Only the columns that changed are written. -/
theorem rewrite_measures {old new : Package} (h : new.measures = old.measures) (package : Package) :
    (rewrite old new package).measures = package.measures := by
  simp only [Package.measures, Prod.mk.injEq] at h
  obtain ⟨hweight, hlength, hwidth, hheight⟩ := h
  simp only [rewrite, Package.measures, hweight, hlength, hwidth, hheight, if_pos]

/-- A commit keeps the parcels there are, with their shipments. -/
theorem package_kept (work : Work) (events : List (OutboxEvent ShipmentPayload)) (db : Tables)
    {package : Package} (h : package ∈ db.packages) :
    ∃ package' ∈ (work.apply events db).packages, package'.id = package.id ∧
      package'.shipmentId = package.shipmentId := by
  cases work with
  | insert row packages entry => exact ⟨package, List.mem_append_left _ h, rfl, rfl⟩
  | write read row entry payload => exact ⟨package, h, rfl, rfl⟩
  | pack read new => exact ⟨package, List.mem_append_left _ h, rfl, rfl⟩
  | repack read old new =>
    refine ⟨_, List.mem_map_of_mem h, ?_⟩
    split <;> exact ⟨rfl, rfl⟩

theorem PackOk.apply {db : Tables} {work : Work} (h : PackOk db work) (other : Work)
    (events : List (OutboxEvent ShipmentPayload)) : PackOk (other.apply events db) work := by
  cases work with
  | repack read old new =>
    obtain ⟨package, hpackage, hid, hshipment⟩ := h
    obtain ⟨package', hpackage', hid', hshipment'⟩ := package_kept other events db hpackage
    exact ⟨package', hpackage', hid'.trans hid, hshipment'.trans hshipment⟩
  | _ => exact h

/-- An open transaction after a step: its work is what it was, or it has just read. -/
theorem work_of_step {s s' : State} {l : Label} (h : Step s l s') {u : Nat} {txn' : Open}
    (hu : s'.txns u = some txn') {work : Work} (hwork : txn'.work? = some work) :
    (∃ txn, s.txns u = some txn ∧ txn.work? = some work) ∨
      s'.db = s.db ∧ ∃ now id barcode op, prepare s.db now id barcode op = .ok work := by
  cases h with
  | start hfree =>
    rcases update_eq_some hu with ⟨-, rfl⟩ | ⟨-, hold⟩
    · cases hwork
    · exact Or.inl ⟨txn', hold, hwork⟩
  | read ht hprepare =>
    rcases update_eq_some hu with ⟨-, rfl⟩ | ⟨-, hold⟩
    · cases hwork
      exact Or.inr ⟨rfl, _, _, _, _, hprepare⟩
    · exact Or.inl ⟨txn', hold, hwork⟩
  | flush ht hnone =>
    rcases update_eq_some hu with ⟨rfl, rfl⟩ | ⟨-, hold⟩
    · exact Or.inl ⟨_, ht, hwork⟩
    · exact Or.inl ⟨txn', hold, hwork⟩
  | lock ht hrow hfree hok =>
    rcases update_eq_some hu with ⟨rfl, rfl⟩ | ⟨-, hold⟩
    · exact Or.inl ⟨_, ht, hwork⟩
    · exact Or.inl ⟨txn', hold, hwork⟩
  | stage ht hnone =>
    rcases update_eq_some hu with ⟨rfl, rfl⟩ | ⟨-, hold⟩
    · exact Or.inl ⟨_, ht, hwork⟩
    · exact Or.inl ⟨txn', hold, hwork⟩
  | emit ht hsome =>
    rcases update_eq_some hu with ⟨rfl, rfl⟩ | ⟨-, hold⟩
    · exact Or.inl ⟨_, ht, hwork⟩
    · exact Or.inl ⟨txn', hold, hwork⟩
  | commit ht hunique =>
    rcases update_option_eq_some hu with ⟨-, hnone⟩ | ⟨-, hold⟩
    · cases hnone
    · exact Or.inl ⟨txn', hold, hwork⟩
  | stop =>
    rcases update_option_eq_some hu with ⟨-, hnone⟩ | ⟨-, hold⟩
    · cases hnone
    · exact Or.inl ⟨txn', hold, hwork⟩
  | tick => exact Or.inl ⟨txn', hu, hwork⟩

/-- What a step does to the tables: nothing, or the writes of a transaction that commits. -/
theorem db_of_step {s s' : State} {l : Label} (h : Step s l s') : s'.db = s.db ∨
    ∃ t work events, l = .commit t ∧ s.txns t = some (.staged work events) ∧
      uniquePackages (work.apply events s.db) = true ∧ s'.db = work.apply events s.db := by
  cases h with
  | commit ht hunique => exact Or.inr ⟨_, _, _, rfl, ht, hunique, rfl⟩
  | _ => exact Or.inl rfl

theorem Packing.step {s s' : State} {l : Label} (hs : Packing s) (h : Step s l s') :
    Packing s' := by
  refine ⟨hs.story.step h, ?_, fun u txn' hu work hwork => ?_⟩
  · rcases db_of_step h with hdb | ⟨t, work, events, -, -, hunique, hdb⟩
    · rw [hdb]
      exact hs.keyed
    · rw [hdb]
      exact (of_decide_eq_true hunique).1
  · rcases work_of_step h hu hwork with ⟨txn, ht, hold⟩ | ⟨hdb, now, id, barcode, op, hprepare⟩
    · have hok := hs.txns u txn ht work hold
      rcases db_of_step h with hdb | ⟨t, other, events, -, -, -, hdb⟩
      · rw [hdb]
        exact hok
      · rw [hdb]
        exact hok.apply other events
    · rw [hdb]
      exact packOk_of_prepare hs.story.told hprepare

theorem packing_of_run {s : State} (h : machine.Run .empty s) : Packing s := by
  have hstep : ∀ s l s', Packing s → True → machine.next s l = some s' → Packing s' :=
    fun _ _ _ hs _ hnext => hs.step (step_of_next hnext)
  exact h.preserves hstep packing_empty

/-- A commit in time leaves the parcels of a dispatched shipment as they are. -/
theorem Packing.packed_apply {s : State} (hs : Packing s) {t : Nat} {work : Work}
    {events : List (OutboxEvent ShipmentPayload)} (ht : s.txns t = some (.staged work events))
    (htime : work.inTime s.db = true) {row : ShipmentRow} (hrow : row ∈ s.db.shipments)
    (hdispatched : row.dispatchedAt ≠ none) :
    (work.apply events s.db).packed row.id = s.db.packed row.id := by
  have hok := hs.txns t _ ht work rfl
  cases work with
  | insert new packages entry =>
    have hholds := (hs.story.txns t _ ht).2.1
    -- the shipment of the new parcels is new
    have hnone : packages.filter (·.shipmentId == row.id) = [] := by
      rw [List.filter_eq_nil_iff]
      intro package hpackage hkey
      rw [beq_iff_eq, hok package hpackage] at hkey
      exact hholds.2 row hrow hkey.symm
    simp only [Tables.packed, Tables.packagesOf, Work.apply, List.filter_append, hnone,
      List.append_nil]
  | write read new entry payload => rfl
  | pack read package =>
    obtain ⟨hshipment, hread⟩ := hok
    have hother : row.id ≠ read.id := fun hid =>
      hdispatched ((dispatchedAt_of_notDispatchedSince htime hrow hid).trans hread)
    have hnone : [package].filter (·.shipmentId == row.id) = [] := by
      rw [List.filter_eq_nil_iff]
      intro p hp hkey
      rw [List.mem_singleton.1 hp, hshipment, beq_iff_eq] at hkey
      exact hother hkey.symm
    simp only [Tables.packed, Tables.packagesOf, Work.apply, List.filter_append, hnone,
      List.append_nil]
  | repack read old new =>
    obtain ⟨known, hknown, hid, hshipment⟩ := hok
    rw [Work.inTime, Bool.or_eq_true, beq_iff_eq, Bool.and_eq_true] at htime
    simp only [Tables.packed, Tables.packagesOf, Work.apply, List.filter_map, List.map_map]
    have hsame : ((fun p : Package => p.shipmentId == row.id) ∘ fun p =>
        if p.id = old.id then rewrite old new p else p) = fun p => p.shipmentId == row.id := by
      funext p
      rw [Function.comp_apply]
      split <;> rfl
    rw [hsame]
    refine List.map_congr_left fun p hp => ?_
    obtain ⟨hp, hkey⟩ := List.mem_filter.1 hp
    rw [Function.comp_apply]
    split
    · rename_i hpid
      rw [rewrite_id]
      rcases htime with hmeasures | ⟨hnone, htime⟩
      · rw [rewrite_measures hmeasures]
      · -- the parcel is of the shipment that was read, which is not this one
        have heq : p = known := hs.keyed.eq_of_key hp hknown (hpid.trans hid.symm)
        rw [beq_iff_eq, heq, hshipment] at hkey
        have hread := dispatchedAt_of_notDispatchedSince htime hrow hkey.symm
        exact absurd (hread.trans (Option.isNone_iff_eq_none.1 hnone)) hdispatched
    · rfl

/-- The parcels of a dispatched shipment stay as they were packed, in every run after the dispatch
whose writes of parcels are in time. -/
theorem packed_of_dispatched {s s' : State} (h : machine.Run .empty s) {row : ShipmentRow}
    (hrow : row ∈ s.db.shipments) (hdispatched : .dispatched ∈ (s.db.steps row.id).map Prod.snd)
    (hrun : machine.RunOf (fun s l => inTime s l = true) s s') :
    s'.db.packed row.id = s.db.packed row.id := by
  have hmem : ShipmentStatus.dispatched ∈ stampedStatuses := by decide
  -- the shipment has its stamp, and keeps it
  have hstamp : row.dispatchedAt ≠ none := by
    have hstory := ((story_of_run h).told row hrow).oneStory
    have hentered : entries .dispatched (s.db.steps row.id) ≠ 0 := by
      rw [entries, ne_eq, List.countP_eq_zero]
      obtain ⟨step, hstep, hsnd⟩ := List.mem_map.1 hdispatched
      exact fun hnone => hnone step hstep (by rw [hsnd]; rfl)
    have hone : entries .dispatched (s.db.steps row.id) = 1 := by
      have := hstory.stamped_once .dispatched hmem
      omega
    exact Option.isSome_iff_ne_none.1 ((hstory.stamped .dispatched hmem).2 hone)
  obtain ⟨time, htime⟩ := Option.ne_none_iff_exists'.1 hstamp
  induction hrun with
  | refl => rfl
  | @tail s₁ s₂ hrun hnext ih =>
    obtain ⟨l, hl, hnext⟩ := hnext
    have hrun₁ : machine.Run s s₁ := Machine.RunOf.toRun hrun
    obtain ⟨row₁, hrow₁, hid₁, hkept₁⟩ := stampsKept_of_run h hrun₁ hrow
    rcases db_of_step (step_of_next hnext) with hdb | ⟨t, work, events, rfl, ht, -, hdb⟩
    · rw [hdb]
      exact ih
    · have hwork : work.inTime s₁.db = true := by
        simpa [inTime, ht] using hl
      have hstill : row₁.dispatchedAt ≠ none := by
        have := hkept₁ .dispatched hmem time htime
        rw [Shipment.stamp] at this
        rw [this]
        exact Option.some_ne_none _
      have hpacked := (packing_of_run (h.trans hrun₁)).packed_apply ht hwork hrow₁ hstill
      rw [hid₁] at hpacked
      rw [hdb, hpacked, ih]

/-! ## Runs on given labels -/

/-- Shipment 50 with one parcel, ready for its dispatch. -/
def readied : List Label :=
  transaction 0 9 sampleCreate ++ transaction 1 20 (sampleMove .readyForDispatch)

/-- The dispatch of shipment 50. -/
def dispatched : List Label :=
  transaction 2 30 (sampleMove .dispatching) ++ transaction 3 40 (sampleMove .dispatched)

/-- The statuses shipment 50 has entered, by its audit rows. -/
def entered (s : State) : List ShipmentStatus := (s.db.steps 50).map Prod.snd

/-- The parcels of shipment 50 with their weights. -/
def weights (s : State) : List (Nat × Int) :=
  (s.db.packed 50).map fun package => (package.1, package.2.1)

/-- A parcel is marked as packed after the dispatch. -/
theorem packed_of_dispatched_when_marked : ∃ s s', machine.Run .empty s ∧
    .dispatched ∈ entered s ∧ machine.RunOf (fun s l => inTime s l = true) s s' ∧
    s'.db.packages.map (fun package => package.status) = [.packed] ∧
    s'.db.packed 50 = s.db.packed 50 := by
  have hfirst : (machine.exec .empty (readied ++ dispatched)).map
      (fun s => (s.db.shipments.map fun row => row.id, entered s)) =
      some ([50], [.created, .readyForDispatch, .dispatching, .dispatched]) := by
    decide +kernel
  obtain ⟨s, hs, hfacts⟩ := Option.map_eq_some_iff.1 hfirst
  obtain ⟨hids, hentered⟩ := Prod.mk.inj hfacts
  have hthen : ((machine.exec .empty (readied ++ dispatched)).bind fun s =>
      machine.execOf (fun s l => inTime s l = true) s
        (transaction 4 50 (.updatePackage 9 markPacked sampleAdmin))).map
      (fun s => s.db.packages.map fun package => package.status) = some [.packed] := by
    decide +kernel
  rw [hs, Option.bind_some] at hthen
  obtain ⟨s', hs', hpackages⟩ := Option.map_eq_some_iff.1 hthen
  obtain ⟨row, hrow, hid⟩ : ∃ row ∈ s.db.shipments, row.id = 50 := by
    rw [← List.mem_map, hids]
    exact List.mem_cons_self
  have hdispatched : .dispatched ∈ entered s := by
    rw [hentered]
    decide
  have hrun := Machine.runOf_of_execOf _ hs'
  have hpacked := packed_of_dispatched (Machine.run_of_exec _ hs) hrow
    (by rw [hid]; exact hdispatched) hrun
  rw [hid] at hpacked
  exact ⟨s, s', Machine.run_of_exec _ hs, hdispatched, hrun, hpackages, hpacked⟩

/-- A heavier parcel. -/
def reweigh : PackageUpdate where
  weightG := some (some 2500)
  lengthMm := none
  widthMm := none
  heightMm := none
  status := none
  weight := by
    intro n hn
    cases hn
    decide
  sides := markPacked.sides

/-- A parcel is added by a transaction that read the shipment before its dispatch, and the first one
gets another weight; both commit after the dispatch. -/
theorem packed_after_dispatch : ∃ s s', machine.Run .empty s ∧ .dispatched ∈ entered s ∧
    machine.Run s s' ∧ weights s = [(9, 1200)] ∧ weights s' = [(9, 2500), (60, 1200)] ∧
    s'.db.packed 50 ≠ s.db.packed 50 := by
  have hfirst : (machine.exec .empty (readied ++
      [.start 5 (.addPackage 50 sampleParcel sampleAdmin), .read 5 60 60] ++ dispatched)).map
      (fun s => (weights s, entered s)) =
        some ([(9, 1200)], [.created, .readyForDispatch, .dispatching, .dispatched]) := by
    decide +kernel
  obtain ⟨s, hs, hfacts⟩ := Option.map_eq_some_iff.1 hfirst
  obtain ⟨hweights, hentered⟩ := Prod.mk.inj hfacts
  have hthen : ((machine.exec .empty (readied ++
      [.start 5 (.addPackage 50 sampleParcel sampleAdmin), .read 5 60 60] ++ dispatched)).bind
      fun s => machine.exec s ([.flush 5, .stage 5 61, .commit 5] ++
        transaction 6 70 (.updatePackage 9 reweigh sampleAdmin))).map
      weights = some [(9, 2500), (60, 1200)] := by
    decide +kernel
  rw [hs, Option.bind_some] at hthen
  obtain ⟨s', hs', hweights'⟩ := Option.map_eq_some_iff.1 hthen
  refine ⟨s, s', Machine.run_of_exec _ hs, ?_, Machine.run_of_exec _ hs', hweights, hweights',
    fun hsame => ?_⟩
  · rw [hentered]
    decide
  · rw [weights, hsame, ← weights, hweights] at hweights'
    exact absurd hweights' (by decide)

end Lifecycle

end SmartLogistics.Shipment
