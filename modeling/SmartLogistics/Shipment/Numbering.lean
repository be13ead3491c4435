import SmartLogistics.Shipment.Cargo
import Mathlib.Data.List.Range

/-!
# Parcel numbers have no gaps

A create numbers its parcels from 1, and `add_package` takes the next number after the greatest it
can see, so two requests may take one number: the unique constraint lets one of them through. The
numbers of the parcels of a shipment are therefore 1, 2, 3 and so on in the order of their commits,
in every reachable state (`numbered_of_run`), and no parcel that is committed loses its number, its
barcode or its shipment (`labels_of_run`).
-/

set_option autoImplicit false
set_option linter.dupNamespace false

namespace SmartLogistics.Shipment

open SmartLogistics.Library SmartLogistics.Platform SmartLogistics.Warehouse
  SmartLogistics.Inventory

/-- What names a parcel: its id, its shipment, its number and its barcode. -/
def Package.label (package : Package) : Nat × Nat × Nat × Nat :=
  (package.id, package.shipmentId, package.sequenceNo, package.barcode)

/-- The numbers of a shipment's parcels, in the order they were committed. -/
def Tables.numbers (db : Tables) (shipmentId : Nat) : List Nat :=
  (db.packagesOf shipmentId).map (·.sequenceNo)

theorem Tables.mem_numbers {db : Tables} {shipmentId n : Nat} :
    n ∈ db.numbers shipmentId ↔ ∃ package ∈ db.packages, package.shipmentId = shipmentId ∧
      package.sequenceNo = n := by
  simp [Tables.numbers, Tables.packagesOf, and_assoc]

/-- The next number follows the numbers there are. -/
theorem nextPackageSequence_eq (db : Tables) (shipmentId : Nat) :
    nextPackageSequence db shipmentId = 1 ∨
      ∃ n ∈ db.numbers shipmentId, nextPackageSequence db shipmentId = n + 1 := by
  rw [nextPackageSequence]
  cases hmax : ((db.packagesOf shipmentId).map (·.sequenceNo)).max? with
  | none => exact Or.inl rfl
  | some n => exact Or.inr ⟨n, List.max?_mem hmax, rfl⟩

/-- After `1, …, m` comes `m + 1`, if it is new and the one before it is there. -/
theorem eq_length_succ_of_range' {l : List Nat} (hl : l = List.range' 1 l.length) {n : Nat}
    (hnew : n ∉ l) (hnext : n = 1 ∨ ∃ m ∈ l, n = m + 1) : n = l.length + 1 := by
  rw [hl, List.mem_range'_1] at hnew
  rcases hnext with rfl | ⟨m, hm, rfl⟩
  · omega
  · rw [hl, List.mem_range'_1] at hm
    omega

namespace Lifecycle

/-! ## What a transaction knows of the numbers -/

/-- A new parcel has the number after one that is there, or the first. -/
def NumberOk (db : Tables) : Work → Prop
  | .insert _ packages _ => packages.map (·.sequenceNo) = List.range' 1 packages.length
  | .pack _ package => package.sequenceNo = 1 ∨
      ∃ n ∈ db.numbers package.shipmentId, package.sequenceNo = n + 1
  | _ => True

theorem numbers_newPackages (shipmentId id barcode : Nat) (packages : List PackageCreate) :
    (newPackages shipmentId id barcode packages).map (·.sequenceNo) =
      List.range' 1 (newPackages shipmentId id barcode packages).length := by
  have hindex : (newPackages shipmentId id barcode packages).map (·.sequenceNo) =
      (packages.zipIdx.map Prod.snd).map (1 + ·) := by
    simp only [newPackages, List.map_map]
    exact List.map_congr_left fun _ _ => Nat.add_comm ..
  rw [hindex, List.zipIdx_map_snd, newPackages, List.length_map, List.length_zipIdx,
    List.map_add_range']

theorem numberOk_of_prepare {db : Tables} {now id barcode : Nat} {op : Op} {work : Work}
    (h : prepare db now id barcode op = .ok work) : NumberOk db work := by
  cases op with
  | create payload destination packages warehouse reservation principal shipmentId referenceNo =>
    cases h
    exact numbers_newPackages _ _ _ _
  | update shipmentId payload principal =>
    simp only [prepare, Bind.bind, Except.bind] at h
    split at h
    · cases h
    split at h
    · cases h
    cases h
    trivial
  | changeStatus shipmentId target principal reason expectedVersion =>
    simp only [prepare, Bind.bind, Except.bind] at h
    split at h
    · cases h
    split at h
    · cases h
    cases h
    trivial
  | addPackage shipmentId payload principal =>
    simp only [prepare, Bind.bind, Except.bind] at h
    split at h
    · cases h
    rename_i added hadd
    cases h
    simp only [addPackage, Bind.bind, Except.bind] at hadd
    split at hadd
    · cases hadd
    split at hadd
    · cases hadd
    split at hadd
    · cases hadd
    cases hadd
    exact nextPackageSequence_eq _ _
  | updatePackage packageId payload principal =>
    simp only [prepare, Bind.bind, Except.bind] at h
    split at h
    · cases h
    cases h
    trivial

/-! ## What a commit does -/

theorem rewrite_label (old new package : Package) :
    (rewrite old new package).label = package.label := rfl

/-- A commit adds labels, and changes none. -/
theorem labels_apply (work : Work) (events : List (OutboxEvent ShipmentPayload)) (db : Tables) :
    db.packages.map Package.label <+: (work.apply events db).packages.map Package.label := by
  cases work with
  | insert row packages entry =>
    exact ⟨packages.map Package.label, (List.map_append ..).symm⟩
  | write read row entry payload => exact List.prefix_refl _
  | pack read package => exact ⟨[package].map Package.label, (List.map_append ..).symm⟩
  | repack read old new =>
    have hsame : (((Work.repack read old new).apply events db).packages.map Package.label) =
        db.packages.map Package.label := by
      simp only [Work.apply, List.map_map]
      refine List.map_congr_left fun p _ => ?_
      rw [Function.comp_apply]
      split
      · exact rewrite_label old new p
      · rfl
    exact ⟨[], by rw [List.append_nil, hsame]⟩

/-- The numbers of a shipment, read off the labels. -/
theorem numbers_eq_labels (db : Tables) (shipmentId : Nat) : db.numbers shipmentId =
    ((db.packages.map Package.label).filter (fun label => label.2.1 == shipmentId)).map
      fun label => label.2.2.1 := by
  rw [Tables.numbers, Tables.packagesOf, List.filter_map, List.map_map]
  rfl

/-- A commit keeps the numbers there are. -/
theorem numbers_apply (work : Work) (events : List (OutboxEvent ShipmentPayload)) (db : Tables)
    (shipmentId : Nat) : db.numbers shipmentId <+: (work.apply events db).numbers shipmentId := by
  rw [numbers_eq_labels, numbers_eq_labels]
  exact ((labels_apply work events db).filter _).map _

theorem NumberOk.apply {db : Tables} {work : Work} (h : NumberOk db work) (other : Work)
    (events : List (OutboxEvent ShipmentPayload)) : NumberOk (other.apply events db) work := by
  cases work with
  | pack read package =>
    refine h.imp id ?_
    rintro ⟨n, hn, hnext⟩
    exact ⟨n, (numbers_apply other events db _).subset hn, hnext⟩
  | insert row packages entry => exact h
  | write read row entry payload => exact h
  | repack read old new => exact h

/-! ## Steps -/

/-- The invariant of the numbers. -/
structure Numbering (s : State) : Prop where
  cargo : Cargo s
  numbered : ∀ shipmentId, s.db.numbers shipmentId =
    List.range' 1 (s.db.numbers shipmentId).length
  txns : ∀ t txn, s.txns t = some txn → ∀ work, txn.work? = some work → NumberOk s.db work

theorem numbering_empty : Numbering .empty where
  cargo := cargo_empty
  numbered := fun _ => rfl
  txns := fun _ _ h => nomatch h

/-- A commit leaves the parcels of a shipment numbered. -/
theorem Numbering.numbered_apply {s : State} (hs : Numbering s) {t : Nat} {work : Work}
    {events : List (OutboxEvent ShipmentPayload)} (ht : s.txns t = some (.staged work events))
    (hunique : uniquePackages (work.apply events s.db) = true) (shipmentId : Nat) :
    (work.apply events s.db).numbers shipmentId =
      List.range' 1 ((work.apply events s.db).numbers shipmentId).length := by
  have hok := hs.txns t _ ht work rfl
  have hpack := hs.cargo.packing.txns t _ ht work rfl
  have hsame : (work.apply events s.db).numbers shipmentId = s.db.numbers shipmentId →
      (work.apply events s.db).numbers shipmentId =
        List.range' 1 ((work.apply events s.db).numbers shipmentId).length := by
    intro heq
    rw [heq]
    exact hs.numbered shipmentId
  cases work with
  | insert row packages entry =>
    by_cases hid : row.id = shipmentId
    · subst hid
      rw [Tables.numbers, hs.cargo.packagesOf_insert ht, List.length_map]
      exact hok
    · refine hsame ?_
      have hnone : packages.filter (·.shipmentId == shipmentId) = [] := by
        refine List.filter_eq_nil_iff.2 fun package hpackage hkey => hid ?_
        rw [← hpack package hpackage, beq_iff_eq.1 hkey]
      simp only [Tables.numbers, Tables.packagesOf, Work.apply, List.filter_append, hnone,
        List.append_nil]
  | write read row entry payload => exact hsame rfl
  | pack read package =>
    by_cases hid : package.shipmentId = shipmentId
    · subst hid
      have happend : ((Work.pack read package).apply events s.db).numbers package.shipmentId =
          s.db.numbers package.shipmentId ++ [package.sequenceNo] := by
        simp [Tables.numbers, Tables.packagesOf, Work.apply, List.filter_append]
      -- the constraint has refused a number that is taken
      have hfree : package.sequenceNo ∉ s.db.numbers package.shipmentId := by
        intro htaken
        obtain ⟨other, hother, hship, hnumber⟩ := Tables.mem_numbers.1 htaken
        have hnodup := (of_decide_eq_true hunique).2.2
        simp only [Work.apply, List.map_append, List.nodup_append] at hnodup
        exact hnodup.2.2 _ (List.mem_map_of_mem hother) _ (List.mem_map_of_mem List.mem_cons_self)
          (Prod.ext hship hnumber)
      have hnext := eq_length_succ_of_range' (hs.numbered package.shipmentId) hfree hok
      rw [happend, List.length_append, List.length_singleton, List.range'_1_concat, hnext,
        ← hs.numbered, Nat.add_comm]
    · refine hsame ?_
      have hnone : [package].filter (·.shipmentId == shipmentId) = [] :=
        List.filter_eq_nil_iff.2 fun p hp hkey => by
          rw [List.mem_singleton.1 hp] at hkey
          exact hid (beq_iff_eq.1 hkey)
      simp only [Tables.numbers, Tables.packagesOf, Work.apply, List.filter_append, hnone,
        List.append_nil]
  | repack read old new =>
    refine hsame ?_
    rw [numbers_eq_labels, numbers_eq_labels]
    congr 2
    simp only [Work.apply, List.map_map]
    refine List.map_congr_left fun p _ => ?_
    rw [Function.comp_apply]
    split
    · exact rewrite_label old new p
    · rfl

theorem Numbering.step {s s' : State} {l : Label} (hs : Numbering s) (h : Step s l s') :
    Numbering s' := by
  refine ⟨hs.cargo.step h, fun shipmentId => ?_, fun u txn' hu work hwork => ?_⟩
  · rcases db_of_step h with hdb | ⟨t, work, events, -, ht, hunique, hdb⟩
    · rw [hdb]
      exact hs.numbered shipmentId
    · rw [hdb]
      exact hs.numbered_apply ht hunique shipmentId
  · rcases work_of_step h hu hwork with ⟨txn, ht, hold⟩ | ⟨hdb, now, id, barcode, op, hprepare⟩
    · have hok := hs.txns u txn ht work hold
      rcases db_of_step h with hdb | ⟨t, other, events, -, -, -, hdb⟩
      · rw [hdb]
        exact hok
      · rw [hdb]
        exact hok.apply other events
    · rw [hdb]
      exact numberOk_of_prepare hprepare

theorem numbering_of_run {s : State} (h : machine.Run .empty s) : Numbering s := by
  have hstep : ∀ s l s', Numbering s → True → machine.next s l = some s' → Numbering s' :=
    fun _ _ _ hs _ hnext => hs.step (step_of_next hnext)
  exact h.preserves hstep numbering_empty

/-- No parcel that is committed loses its label. -/
theorem labels_of_run {s s' : State} (hrun : machine.Run s s') :
    s.db.packages.map Package.label <+: s'.db.packages.map Package.label := by
  induction hrun with
  | refl => exact List.prefix_refl _
  | tail hrun hnext ih =>
    obtain ⟨l, -, hnext⟩ := hnext
    refine ih.trans ?_
    rcases db_of_step (step_of_next hnext) with hdb | ⟨t, work, events, -, -, -, hdb⟩
    · exact ⟨[], by rw [hdb, List.append_nil]⟩
    · rw [hdb]
      exact labels_apply work events _

/-- The parcels of every shipment are numbered from 1 without a gap, in the order of their commits,
and a parcel that is committed keeps its id, its shipment, its number and its barcode. -/
theorem parcels_numbered {s s' : State} (h : machine.Run .empty s) (hrun : machine.Run s s') :
    (∀ shipmentId,
      s'.db.numbers shipmentId = List.range' 1 (s'.db.packagesOf shipmentId).length) ∧
      s.db.packages.map Package.label <+: s'.db.packages.map Package.label := by
  refine ⟨fun shipmentId => ?_, labels_of_run hrun⟩
  have hnumbered := (numbering_of_run (h.trans hrun)).numbered shipmentId
  rwa [Tables.numbers, List.length_map] at hnumbered

/-- Two requests take the number 2 for shipment 50; one of them is refused, and asks again. -/
def racingParcels : List Label :=
  [.start 1 (.addPackage 50 sampleParcel sampleAdmin),
    .start 2 (.addPackage 50 sampleParcel sampleAdmin), .read 1 20 20, .read 2 30 30, .flush 2,
    .flush 1, .stage 1 0, .stage 2 0, .commit 2, .commit 1] ++
    transaction 1 40 (.addPackage 50 sampleParcel sampleAdmin)

theorem parcels_numbered_after_race : ∃ s s', machine.Run .empty s ∧ machine.Run s s' ∧
    s.db.packages.map Package.label = [(10, 50, 1, 10)] ∧
    s'.db.packages.map Package.label = [(10, 50, 1, 10), (30, 50, 2, 30), (40, 50, 3, 40)] ∧
    (∀ shipmentId,
      s'.db.numbers shipmentId = List.range' 1 (s'.db.packagesOf shipmentId).length) ∧
      s.db.packages.map Package.label <+: s'.db.packages.map Package.label := by
  have hcreate : (machine.exec .empty (transaction 0 10 sampleCreate)).map
      (fun s => s.db.packages.map Package.label) = some [(10, 50, 1, 10)] := by
    decide +kernel
  have hrace : (machine.exec .empty (transaction 0 10 sampleCreate ++ racingParcels)).map
      (fun s => s.db.packages.map Package.label) =
        some [(10, 50, 1, 10), (30, 50, 2, 30), (40, 50, 3, 40)] := by
    decide +kernel
  obtain ⟨s, hs, hlabels⟩ := Option.map_eq_some_iff.1 hcreate
  obtain ⟨s', hs', hlabels'⟩ := Option.map_eq_some_iff.1 hrace
  rw [Machine.exec_append, hs, Option.bind_some] at hs'
  have hreach : machine.Run .empty s := Machine.run_of_exec _ hs
  have hrun : machine.Run s s' := Machine.run_of_exec _ hs'
  exact ⟨s, s', hreach, hrun, hlabels, hlabels', parcels_numbered hreach hrun⟩

end Lifecycle

end SmartLogistics.Shipment
