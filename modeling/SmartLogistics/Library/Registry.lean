import SmartLogistics.Library.Table

/-!
# Registries

A registry is a table whose rows have a key, a name that no two of them share, and columns. Rows are
added and their columns are written, but no row leaves, and its key and name stay. So a name belongs
to one row for ever, however long a run of transactions is (`holder_of_run`).

The columns are written the way an object-relational mapper does it: a patch is applied to a copy of
the row that was read, and the `UPDATE` writes the columns in which the copy is no longer what was
read (`Patch.update`). So a column holds what it held before, or what a patch says of it
(`Patch.update_apply`), and over a run every column that has changed was given its value by one of
the operations answered in between (`attributed_of_answers`).
-/

set_option autoImplicit false

namespace SmartLogistics.Library

/-! ## Patches -/

namespace Patch

variable {Column Cell : Type}

/-- The columns after the fields that the patch sets are set, some to NULL. -/
def apply (patch : Column → Option (Option Cell)) (cells : Column → Option Cell) :
    Column → Option Cell := fun column => (patch column).getD (cells column)

variable [DecidableEq Cell]

/-- The `UPDATE` of a row whose copy was `loaded` when it was read and is `copy` now: the columns
that differ are written, the others are left as the row has them. -/
def update (loaded copy row : Column → Option Cell) : Column → Option Cell := fun column =>
  if copy column = loaded column then row column else copy column

theorem update_of_eq {loaded copy row : Column → Option Cell} {column : Column}
    (h : copy column = loaded column) : update loaded copy row column = row column := if_pos h

theorem update_of_ne {loaded copy row : Column → Option Cell} {column : Column}
    (h : copy column ≠ loaded column) : update loaded copy row column = copy column := if_neg h

/-- A written column holds what the patch says, any other what it held. -/
theorem update_apply (patch : Column → Option (Option Cell)) (loaded row : Column → Option Cell)
    (column : Column) :
    update loaded (apply patch loaded) row column = row column ∨
      patch column = some (update loaded (apply patch loaded) row column) := by
  by_cases h : apply patch loaded column = loaded column
  · exact Or.inl (update_of_eq h)
  · rw [update_of_ne h]
    cases hpatch : patch column with
    | none => exact absurd (by simp [apply, hpatch]) h
    | some value => exact Or.inr (by simp [apply, hpatch])

end Patch

/-! ## Names -/

section Names

variable {ρ ν : Type} (key : ρ → Nat) (name : ρ → ν)

/-- No two rows have one key, and no two have one name. -/
structure Registry (rows : List ρ) : Prop where
  keyed : Table.Keyed key rows
  named : (rows.map name).Nodup

/-- The rows are still there, under their keys and names, and each as `R` lets it change. -/
def Continues (R : ρ → ρ → Prop) (rows rows' : List ρ) : Prop :=
  ∀ r ∈ rows, ∃ r' ∈ rows', key r' = key r ∧ name r' = name r ∧ R r r'

variable {key name} {R : ρ → ρ → Prop} {rows mid rows' : List ρ}

theorem Continues.refl (hR : ∀ r, R r r) (rows : List ρ) : Continues key name R rows rows :=
  fun r hr => ⟨r, hr, rfl, rfl, hR r⟩

theorem Continues.trans (hR : ∀ {a b c}, R a b → R b c → R a c)
    (h : Continues key name R rows mid) (h' : Continues key name R mid rows') :
    Continues key name R rows rows' := by
  intro r hr
  obtain ⟨m, hm, hkey, hname, hrm⟩ := h r hr
  obtain ⟨r', hr', hkey', hname', hmr'⟩ := h' m hm
  exact ⟨r', hr', hkey'.trans hkey, hname'.trans hname, hR hrm hmr'⟩

theorem continues_append (hR : ∀ r, R r r) (rows new : List ρ) :
    Continues key name R rows (rows ++ new) :=
  fun r hr => ⟨r, List.mem_append_left _ hr, rfl, rfl, hR r⟩

theorem continues_map {f : ρ → ρ} (hf : ∀ r ∈ rows, key (f r) = key r ∧ name (f r) = name r ∧
    R r (f r)) : Continues key name R rows (rows.map f) :=
  fun r hr => ⟨f r, List.mem_map_of_mem hr, (hf r hr).1, (hf r hr).2.1, (hf r hr).2.2⟩

/-- A row of a later table with the key of an earlier one is what has become of it. -/
theorem Continues.row (h : Continues key name R rows rows') (hrows' : Table.Keyed key rows')
    {r r' : ρ} (hr : r ∈ rows) (hr' : r' ∈ rows') (hkey : key r' = key r) :
    name r' = name r ∧ R r r' := by
  obtain ⟨r'', hr'', hkey', hname, hR⟩ := h r hr
  obtain rfl := hrows'.eq_of_key hr'' hr' (hkey'.trans hkey.symm)
  exact ⟨hname, hR⟩

/-- A row with a name that is taken cannot be added. -/
theorem not_registry_append {r new : ρ} (hr : r ∈ rows)
    (hname : name new = name r) : ¬ Registry key name (rows ++ [new]) := by
  intro h
  have hnodup := h.named
  rw [List.map_append, List.nodup_append] at hnodup
  exact hnodup.2.2 (name r) (List.mem_map_of_mem hr) (name new) (by simp) hname.symm

end Names

/-! ## Columns -/

/-- How the rows of a registry hold their key, their name and their columns. Storing columns keeps
the key and the name; the number is the time of the `UPDATE`. -/
structure Layout (ρ ν Column Cell : Type) where
  key : ρ → Nat
  name : ρ → ν
  cells : ρ → Column → Option Cell
  store : (Column → Option Cell) → Nat → ρ → ρ
  key_store : ∀ cells now r, key (store cells now r) = key r
  name_store : ∀ cells now r, name (store cells now r) = name r
  cells_store : ∀ columns now r, cells (store columns now r) = columns

namespace Layout

variable {ρ ν Column Cell : Type} [DecidableEq Cell] (T : Layout ρ ν Column Cell)

/-- A row after the `UPDATE` of the row `id`, whose copy was `loaded` and is now `copy`. -/
def written (id : Nat) (loaded copy : Column → Option Cell) (now : Nat) (r : ρ) : ρ :=
  if T.key r = id then T.store (Patch.update loaded copy (T.cells r)) now r else r

variable {T} {id now : Nat} {loaded copy : Column → Option Cell} {rows : List ρ}

@[simp] theorem key_written (r : ρ) : T.key (T.written id loaded copy now r) = T.key r := by
  unfold written
  split
  · exact T.key_store _ _ _
  · rfl

@[simp] theorem name_written (r : ρ) : T.name (T.written id loaded copy now r) = T.name r := by
  unfold written
  split
  · exact T.name_store _ _ _
  · rfl

theorem cells_written {r : ρ} (h : T.key r = id) :
    T.cells (T.written id loaded copy now r) = Patch.update loaded copy (T.cells r) := by
  rw [written, if_pos h, T.cells_store]

theorem written_of_ne {r : ρ} (h : T.key r ≠ id) : T.written id loaded copy now r = r := if_neg h

theorem registry_written (h : Registry T.key T.name rows) :
    Registry T.key T.name (rows.map (T.written id loaded copy now)) where
  keyed := (Table.keyed_map key_written).2 h.keyed
  named := by
    rw [List.map_map, show T.name ∘ T.written id loaded copy now = T.name from
      funext name_written]
    exact h.named

/-- Rows other than the written one neither come nor go. -/
theorem mem_map_written_iff {r : ρ} (h : T.key r ≠ id) :
    r ∈ rows.map (T.written id loaded copy now) ↔ r ∈ rows := by
  rw [List.mem_map]
  constructor
  · rintro ⟨old, hold, rfl⟩
    rw [key_written] at h
    rwa [written_of_ne h]
  · exact fun hr => ⟨r, hr, written_of_ne h⟩

/-- What holds of all rows and of the written one holds of all rows afterwards. -/
theorem forall_map_written {p : ρ → Prop} (hkeyed : Table.Keyed T.key rows)
    (h : ∀ r ∈ rows, p r) {row : ρ} (hrow : row ∈ rows) (hid : T.key row = id)
    (hp : p (T.written id loaded copy now row)) :
    ∀ r ∈ rows.map (T.written id loaded copy now), p r := by
  intro r hr
  obtain ⟨old, hold, rfl⟩ := List.mem_map.1 hr
  by_cases heq : T.key old = id
  · obtain rfl := hkeyed.eq_of_key hold hrow (heq.trans hid.symm)
    exact hp
  · rw [written_of_ne heq]
    exact h old hold

end Layout

/-! ## Runs -/

section Runs

variable {Db Row ε α Op Env : Type} [DecidableEq Row] {D : Discipline Db Row ε α Op}
  {S : System Db Row ε α Op Env} {ρ ν : Type} {key : ρ → Nat} {name : ρ → ν} {R : ρ → ρ → Prop}
  {table : Db → List ρ} {c c' : Config Db Row ε α Op}

/-- In a system whose transactions keep a registry, a row of an earlier state is there in every
later one, and its name is that of no other row. -/
theorem holder_of_run (hD : D.Governs S) (hc : c.Sound D)
    (hinv : ∀ db, D.inv db → Registry key name (table db))
    (hgrow : ∀ db db', D.grow db db' → Continues key name R (table db) (table db'))
    (hrun : S.machine.Run c c') {r : ρ} (hr : r ∈ table c.db) :
    ∃ r' ∈ table c'.db, key r' = key r ∧ R r r' ∧
      ∀ other ∈ table c'.db, name other = name r ↔ other = r' := by
  have hlater := hgrow _ _ (grow_of_run hD hc hrun)
  have hreg := hinv _ (sound_of_run hD hc hrun).inv
  obtain ⟨r', hr', hkey, hname, hR⟩ := hlater r hr
  refine ⟨r', hr', hkey, hR, fun other hother => ⟨fun heq => ?_, fun heq => heq ▸ hname⟩⟩
  exact List.inj_on_of_nodup_map hreg.named hother hr' (heq.trans hname.symm)

variable {Column Cell : Type} (key name) (cells : ρ → Column → Option Cell)

/-- Every column holds what it held, or something that `P` gives it. -/
def Attributed (P : Nat → ν → Column → Option Cell → Prop) (rows rows' : List ρ) : Prop :=
  ∀ r ∈ rows, ∀ r' ∈ rows', key r' = key r → ∀ column,
    cells r' column = cells r column ∨ P (key r) (name r) column (cells r' column)

variable {key name cells} {P P' : Nat → ν → Column → Option Cell → Prop} {rows mid rows' : List ρ}

theorem Attributed.refl (h : Table.Keyed key rows) : Attributed key name cells P rows rows :=
  fun r hr r' hr' hkey _ => Or.inl (by rw [h.eq_of_key hr' hr hkey])

theorem Attributed.mono (hP : ∀ k n column value, P k n column value → P' k n column value)
    (h : Attributed key name cells P rows rows') : Attributed key name cells P' rows rows' :=
  fun r hr r' hr' hkey column => (h r hr r' hr' hkey column).imp_right (hP _ _ _ _)

theorem Attributed.trans (hc : Continues key name R rows mid)
    (h : Attributed key name cells P rows mid) (h' : Attributed key name cells P mid rows') :
    Attributed key name cells P rows rows' := by
  intro r hr r' hr' hkey column
  obtain ⟨m, hm, hkeym, hnamem, -⟩ := hc r hr
  rcases h' m hm r' hr' (hkey.trans hkeym.symm) column with heq | hP
  · rw [heq]
    exact h r hr m hm hkeym column
  · exact Or.inr (hkeym ▸ hnamem ▸ hP)

omit [DecidableEq Row] in
/-- The columns of the written row hold what they held, or what the patch says of them. -/
theorem Layout.attributed_written [DecidableEq Cell] {T : Layout ρ ν Column Cell} {id now : Nat}
    {patch : Column → Option (Option Cell)} {loaded : Column → Option Cell}
    (hkeyed : Table.Keyed T.key rows) {row : ρ} (hrow : row ∈ rows) (hid : T.key row = id)
    (hP : ∀ column value, patch column = some value → P id (T.name row) column value) :
    Attributed T.key T.name T.cells P rows
      (rows.map (T.written id loaded (Patch.apply patch loaded) now)) := by
  intro r hr r' hr' hkey column
  obtain ⟨old, hold, rfl⟩ := List.mem_map.1 hr'
  rw [Layout.key_written] at hkey
  obtain rfl := hkeyed.eq_of_key hold hr hkey
  by_cases heq : T.key old = id
  · obtain rfl := hkeyed.eq_of_key hold hrow (heq.trans hid.symm)
    rw [Layout.cells_written heq]
    exact (Patch.update_apply patch loaded _ column).imp_right fun h => heq.symm ▸ hP column _ h
  · rw [Layout.written_of_ne heq]
    exact Or.inl rfl

/-- Over a run, a column holds what it held at the start, or what an operation that was answered in
between gave it. -/
theorem attributed_of_answers (hD : D.Governs S) (hc : c.Sound D)
    (hkeyed : ∀ db, D.inv db → Table.Keyed key (table db))
    (hgrow : ∀ db db', D.grow db db' → Continues key name R (table db) (table db'))
    {Gives : Op → α → Nat → ν → Column → Option Cell → Prop}
    (hpost : ∀ op opened held a now db db', D.inv db → D.inv db' →
      D.post op opened held a now db db' →
        Attributed key name cells (Gives op a) (table db) (table db'))
    (henv : ∀ e db, table (S.env e db) = table db) (ls : List (Label Op Env))
    (hrun : S.machine.exec c ls = some c') :
    Attributed key name cells (fun k n column value => ∃ answer ∈ S.answers c ls,
      Gives answer.1 answer.2 k n column value) (table c.db) (table c'.db) := by
  let Given : List (Op × α) → Nat → ν → Column → Option Cell → Prop :=
    fun past k n column value => ∃ answer ∈ past, Gives answer.1 answer.2 k n column value
  let I : Config Db Row ε α Op → List (Op × α) → Prop := fun d past =>
    d.Sound D ∧ D.grow c.db d.db ∧
      Attributed key name cells (Given past) (table c.db) (table d.db)
  have hstep : ∀ d l d' past, I d past → True → S.next d l = some d' →
      I d' (past ++ (d.delivered l).toList) := by
    rintro d l d' past ⟨hd, hfrom, hpast⟩ - hnext
    have hmore : ∀ k n column value, Given past k n column value →
        Given (past ++ (d.delivered l).toList) k n column value := by
      rintro k n column value ⟨answer, hmem, hgives⟩
      exact ⟨answer, List.mem_append_left _ hmem, hgives⟩
    refine ⟨hd.next hD hnext, D.grow_trans hfrom (hd.grow_of_next hD hnext),
      (hpast.mono hmore).trans (hgrow _ _ hfrom) ?_⟩
    rcases S.delivered_cases hnext with ⟨-, heq | ⟨e, -, heq⟩⟩ |
      ⟨t, draw, s, a, -, hs, hprog, hpending, hdelivered⟩
    · rw [heq]
      exact .refl (hkeyed _ hd.inv)
    · rw [heq, henv]
      exact .refl (hkeyed _ hd.inv)
    · obtain ⟨hguar, heffect⟩ := hd.commit hs hprog hpending
      refine (hpost _ _ _ _ _ _ _ hd.inv hguar.inv heffect).mono ?_
      intro k n column value hgives
      exact ⟨(s.op, a), List.mem_append_right _ (by simp [hdelivered]), hgives⟩
  have hstart : I c [] := ⟨hc, D.grow_refl _, .refl (hkeyed _ hc.inv)⟩
  exact (S.answers_preserves (I := I) hstep ls hstart hrun).2.2

end Runs

end SmartLogistics.Library
