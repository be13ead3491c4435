import SmartLogistics.Warehouse.Warehouses

/-!
# What deletes a warehouse

Over every run of the writers, `deleted_at` is set, and a `warehouse.deleted` event appended, by the
commit of a deletion and by nothing else (`Marked.next`, `DeletionStep`): a writer whose copy is
stale may clear the column, but never sets it.
-/

set_option autoImplicit false
set_option linter.dupNamespace false

namespace SmartLogistics.Warehouse

variable {Detail : Type}

/-- The warehouse whose deletion a step commits. -/
def deletedBy (s : WarehouseState Detail) : WarehouseLabel Detail → Option Nat
  | .commit t =>
    match s.writers t with
    | some (.updated .delete _ warehouse) => some warehouse.id
    | some (.unchanged .delete warehouse) => some warehouse.id
    | _ => none
  | _ => none

/-- Event `n` of warehouse `id` is a deletion. -/
def Deletion (s : WarehouseState Detail) (id n : Nat) : Prop :=
  (s.events id)[n]?.map (·.eventType) = some "warehouse.deleted"

instance (s : WarehouseState Detail) (id n : Nat) : Decidable (Deletion s id n) :=
  inferInstanceAs (Decidable (_ = _))

/-- The row of warehouse `id` is soft-deleted. -/
def IsDeleted (s : WarehouseState Detail) (id : Nat) : Prop :=
  (s.rows id).any fun row => row.deletedAt.isSome

instance (s : WarehouseState Detail) (id : Nat) : Decidable (IsDeleted s id) :=
  inferInstanceAs (Decidable (_ = true))

/-- A transaction that is no deletion does not set `deleted_at`. -/
def Writer.Spares : Writer Detail → Prop
  | .new warehouse => warehouse.deletedAt = none
  | .inserted warehouse => warehouse.deletedAt = none
  | .loaded .. => True
  | .set op copy warehouse | .updating op copy warehouse | .updated op copy warehouse =>
    op = .delete ∨ warehouse.deletedAt = copy.deletedAt ∨ warehouse.deletedAt = none
  | .unchanged .. => True

/-- The rows are keyed by their ids, and the open transactions are as they should be. -/
structure Marked (s : WarehouseState Detail) : Prop where
  ids : ∀ id row, s.rows id = some row → row.id = id
  writers : ∀ t writer, s.writers t = some writer → writer.Spares

theorem marked_empty : Marked (WarehouseState.empty : WarehouseState Detail) where
  ids := fun _ _ h => nomatch h
  writers := fun _ _ h => nomatch h

/-- What a step does to the deletions. -/
structure DeletionStep (s : WarehouseState Detail) (l : WarehouseLabel Detail)
    (s' : WarehouseState Detail) : Prop where
  /-- Events stay where they are. -/
  kept : ∀ (id n : Nat) event, (s.events id)[n]? = some event → (s'.events id)[n]? = some event
  /-- A deletion that commits appends its event. -/
  appended : ∀ id, deletedBy s l = some id →
    ∃ n, Deletion s' id n ∧ (s.events id)[n]? = none
  /-- Only a deletion appends one. -/
  announced : ∀ id n, Deletion s' id n → Deletion s id n ∨ deletedBy s l = some id
  /-- Only a deletion marks a row. -/
  marked : ∀ id, IsDeleted s' id → IsDeleted s id ∨ deletedBy s l = some id

/-- A step that leaves rows and events alone deletes nothing. -/
theorem deletionStep_of_same {s s' : WarehouseState Detail} {l : WarehouseLabel Detail}
    (hrows : s'.rows = s.rows) (hevents : s'.events = s.events) (hl : deletedBy s l = none) :
    DeletionStep s l s' where
  kept := fun id n event h => by rwa [hevents]
  appended := fun id h => by rw [hl] at h; cases h
  announced := fun id n h => Or.inl (by rwa [Deletion, hevents] at h)
  marked := fun id h => Or.inl (by rwa [IsDeleted, hrows] at h)

/-- A committed row and its event. -/
theorem deletionStep_publish {s : WarehouseState Detail} {l : WarehouseLabel Detail} {t : Nat}
    {row : Warehouse Detail} {event : WarehouseEvent}
    (hl : ∀ id, deletedBy s l = some id ↔ event.eventType = "warehouse.deleted" ∧ id = row.id)
    (hrow : row.deletedAt ≠ none → IsDeleted s row.id ∨ deletedBy s l = some row.id) :
    DeletionStep s l ((s.publish row event).endWriter t) where
  kept := by
    intro id n e h
    by_cases hid : id = row.id
    · subst hid
      simp only [WarehouseState.endWriter, WarehouseState.publish, Function.update_self]
      rw [List.getElem?_append_left (List.getElem?_eq_some_iff.1 h).1]
      exact h
    · simpa only [WarehouseState.endWriter, WarehouseState.publish, Function.update_of_ne hid]
        using h
  appended := by
    intro id h
    obtain ⟨htype, rfl⟩ := (hl id).1 h
    refine ⟨(s.events row.id).length, ?_, List.getElem?_eq_none (Nat.le_refl _)⟩
    simp [Deletion, WarehouseState.endWriter, WarehouseState.publish, htype]
  announced := by
    intro id n h
    by_cases hid : id = row.id
    · subst hid
      simp only [Deletion, WarehouseState.endWriter, WarehouseState.publish,
        Function.update_self] at h
      rcases Nat.lt_or_ge n (s.events row.id).length with hn | hn
      · rw [List.getElem?_append_left hn] at h
        exact Or.inl h
      · -- the event just appended
        rw [List.getElem?_append_right hn] at h
        obtain ⟨e, he, htype⟩ := Option.map_eq_some_iff.1 h
        obtain rfl := List.mem_singleton.1 (List.mem_of_getElem? he)
        exact Or.inr ((hl _).2 ⟨htype, rfl⟩)
    · simp only [Deletion, WarehouseState.endWriter, WarehouseState.publish,
        Function.update_of_ne hid] at h
      exact Or.inl h
  marked := by
    intro id h
    by_cases hid : id = row.id
    · subst hid
      simp only [IsDeleted, WarehouseState.endWriter, WarehouseState.publish, Function.update_self,
        Option.any_some] at h
      exact hrow fun hnone => by rw [hnone] at h; cases h
    · simp only [IsDeleted, WarehouseState.endWriter, WarehouseState.publish,
        Function.update_of_ne hid] at h
      exact Or.inl h

theorem eventType_eq_deleted {op : WarehouseOp Detail} :
    op.eventType = "warehouse.deleted" ↔ op = .delete := by
  cases op <;> simp [WarehouseOp.eventType]

/-- A commit deletes a warehouse if its operation does. -/
theorem deletedBy_commit {s : WarehouseState Detail} {t : Nat} {op : WarehouseOp Detail}
    {warehouse : Warehouse Detail}
    (hw : (∃ copy, s.writers t = some (.updated op copy warehouse)) ∨
      s.writers t = some (.unchanged op warehouse)) (id : Nat) :
    deletedBy s (.commit t) = some id ↔
      op.eventType = "warehouse.deleted" ∧ id = warehouse.id := by
  rw [eventType_eq_deleted]
  rcases hw with ⟨copy, hw⟩ | hw
  · cases op <;> simp [deletedBy, hw, eq_comm]
  · cases op <;> simp [deletedBy, hw, eq_comm]

/-- What a transaction does to its copy. -/
theorem spares_apply (op : WarehouseOp Detail) (principal : Platform.Principal) (now : Nat)
    (copy : Warehouse Detail) :
    op = .delete ∨ (op.apply principal now copy).deletedAt = copy.deletedAt ∨
      (op.apply principal now copy).deletedAt = none := by
  cases op with
  | update payload => exact Or.inr (Or.inl rfl)
  | changeStatus status => exact Or.inr (Or.inl rfl)
  | delete => exact Or.inl rfl
  | restore => exact Or.inr (Or.inr rfl)

theorem Marked.setWriter {s : WarehouseState Detail} (h : Marked s) {t : Nat}
    {writer : Writer Detail} (hwriter : writer.Spares) : Marked (s.setWriter t writer) where
  ids := h.ids
  writers := by
    intro u w hw
    by_cases hu : u = t
    · subst hu
      simp only [WarehouseState.setWriter, Function.update_self, Option.some.injEq] at hw
      exact hw ▸ hwriter
    · simp only [WarehouseState.setWriter, Function.update_of_ne hu] at hw
      exact h.writers u w hw

theorem Marked.endWriter {s : WarehouseState Detail} (h : Marked s) (t : Nat) :
    Marked (s.endWriter t) where
  ids := h.ids
  writers := by
    intro u w hw
    by_cases hu : u = t
    · subst hu
      simp only [WarehouseState.endWriter, Function.update_self] at hw
      cases hw
    · simp only [WarehouseState.endWriter, Function.update_of_ne hu] at hw
      exact h.writers u w hw

theorem Marked.publish {s : WarehouseState Detail} (h : Marked s) (row : Warehouse Detail)
    (event : WarehouseEvent) : Marked (s.publish row event) where
  ids := by
    intro id r hr
    by_cases hid : id = row.id
    · subst hid
      simp only [WarehouseState.publish, Function.update_self, Option.some.injEq] at hr
      rw [hr]
    · simp only [WarehouseState.publish, Function.update_of_ne hid] at hr
      exact h.ids id r hr
  writers := h.writers

variable [DecidableEq Detail]

/-- A row that an update leaves marked was deleted by it, or before: other updates leave the column
as it was, or clear it. -/
theorem Marked.deleted_of_update {s : WarehouseState Detail} (h : Marked s) {t : Nat}
    {op : WarehouseOp Detail} {copy warehouse row : Warehouse Detail}
    (hw : s.writers t = some (.updated op copy warehouse)) (hrow : s.rows warehouse.id = some row)
    (hdeleted : (writeChanged copy warehouse row).deletedAt ≠ none) :
    IsDeleted s warehouse.id ∨ op = .delete := by
  by_cases hop : op = .delete
  · exact Or.inr hop
  · refine Or.inl ?_
    have hspares := (h.writers _ _ hw).resolve_left hop
    simp only [writeChanged] at hdeleted
    split at hdeleted
    · rw [IsDeleted, hrow, Option.any_some]
      exact Option.isSome_iff_ne_none.2 hdeleted
    · rename_i hne
      exact absurd (hspares.resolve_left fun heq => hne heq.symm) hdeleted

/-- Each step keeps the invariant, and deletes nothing unless it commits a deletion. -/
theorem Marked.next {s s' : WarehouseState Detail} {l : WarehouseLabel Detail} (h : Marked s)
    (hnext : warehouseNext s l = some s') : Marked s' ∧ DeletionStep s l s' := by
  cases l with
  | create t id payload =>
    simp only [warehouseNext] at hnext
    split at hnext
    · cases hnext
      exact ⟨h.setWriter rfl, deletionStep_of_same rfl rfl rfl⟩
    · cases hnext
  | load t id principal op =>
    simp only [warehouseNext] at hnext
    split at hnext
    · split at hnext
      · cases hnext
        exact ⟨h.setWriter trivial, deletionStep_of_same rfl rfl rfl⟩
      · cases hnext
    · cases hnext
  | set t =>
    simp only [warehouseNext] at hnext
    split at hnext
    · rename_i op principal copy _
      cases hnext
      exact ⟨h.setWriter (spares_apply op principal s.clock copy), deletionStep_of_same rfl rfl rfl⟩
    · cases hnext
  | flush t =>
    simp only [warehouseNext] at hnext
    split at hnext
    · rename_i hw
      cases hnext
      have hspares := h.writers _ _ hw
      exact ⟨h.setWriter hspares, deletionStep_of_same rfl rfl rfl⟩
    · rename_i hw
      have hspares := h.writers _ _ hw
      split at hnext
      · cases hnext
        exact ⟨h.setWriter hspares, deletionStep_of_same rfl rfl rfl⟩
      · cases hnext
        exact ⟨h.setWriter trivial, deletionStep_of_same rfl rfl rfl⟩
    · cases hnext
  | update t =>
    simp only [warehouseNext] at hnext
    split at hnext
    · rename_i op copy warehouse hw
      split at hnext
      · cases hnext
        refine ⟨?_, deletionStep_of_same rfl rfl rfl⟩
        have hlocked : Marked { s with locks := Function.update s.locks warehouse.id (some t) } :=
          ⟨h.ids, h.writers⟩
        have hspares := h.writers _ _ hw
        exact hlocked.setWriter hspares
      · cases hnext
    · cases hnext
  | commit t =>
    simp only [warehouseNext] at hnext
    split at hnext
    · rename_i warehouse hw
      split at hnext
      · cases hnext
        refine ⟨(h.publish _ _).endWriter t, deletionStep_publish (fun id => ?_) fun hdeleted => ?_⟩
        · simp [emit, deletedBy, hw]
        · exact absurd (h.writers _ _ hw) hdeleted
      · cases hnext
    · rename_i op copy warehouse hw
      obtain ⟨row, hrow, rfl⟩ := Option.map_eq_some_iff.1 hnext
      have hid : row.id = warehouse.id := h.ids _ _ hrow
      have hl := deletedBy_commit (Or.inl ⟨copy, hw⟩)
      refine ⟨(h.publish _ _).endWriter t, deletionStep_publish (fun id => ?_) fun hdeleted => ?_⟩
      · exact (hl id).trans (by rw [← hid]; rfl)
      · have hkey : (writeChanged copy warehouse row).id = warehouse.id := hid
        rw [hkey]
        rcases h.deleted_of_update hw hrow hdeleted with hbefore | hop
        · exact Or.inl hbefore
        · exact Or.inr ((hl _).2 ⟨eventType_eq_deleted.2 hop, rfl⟩)
    · rename_i op warehouse hw
      obtain ⟨row, hrow, rfl⟩ := Option.map_eq_some_iff.1 hnext
      have hid : row.id = warehouse.id := h.ids _ _ hrow
      refine ⟨(h.publish _ _).endWriter t, deletionStep_publish (fun id => ?_) fun hdeleted => ?_⟩
      · exact (deletedBy_commit (Or.inr hw) id).trans (by rw [← hid]; rfl)
      · rw [hid, IsDeleted, hrow, Option.any_some]
        exact Or.inl (Option.isSome_iff_ne_none.2 hdeleted)
    · cases hnext
  | abort t =>
    simp only [warehouseNext, Option.map_eq_some_iff] at hnext
    obtain ⟨_, -, rfl⟩ := hnext
    exact ⟨h.endWriter t, deletionStep_of_same rfl rfl rfl⟩
  | tick n =>
    simp only [warehouseNext, Option.some.injEq] at hnext
    subst hnext
    exact ⟨⟨h.ids, h.writers⟩, deletionStep_of_same rfl rfl rfl⟩
  | deliver consumer id n =>
    simp only [warehouseNext] at hnext
    split at hnext
    · cases hnext
      exact ⟨h, deletionStep_of_same rfl rfl rfl⟩
    · split at hnext
      · obtain ⟨event, -, rfl⟩ := Option.map_eq_some_iff.1 hnext
        exact ⟨⟨h.ids, h.writers⟩, deletionStep_of_same rfl rfl rfl⟩
      · cases hnext

end SmartLogistics.Warehouse
