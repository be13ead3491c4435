import SmartLogistics.Inventory.Confinement
import Mathlib.Data.List.Induction

/-!
# Quantities in 32-bit columns

Stock counters and ledger rows are `INTEGER` columns, but the schemas put no upper bound on what a
position opens with or is adjusted by. The tables here keep the number a transaction writes, so
that a state that is not `InColumns` is one that PostgreSQL refuses, with an error that is no
`IntegrityError`.

`Tracked.next`: if every opening and every adjustment has room (`HasRoom`), the stock after each
ledger row fits; reserve, commit, release and sweeps need no room. `inColumns_of_tracked`: then all
the quantities fit.
-/

set_option autoImplicit false

namespace SmartLogistics.Inventory

open SmartLogistics.Library SmartLogistics.Platform SmartLogistics.Warehouse

variable {unconfirmedHold : Nat}

/-! ## Columns -/

/-- The number is a value of an `INTEGER` column. -/
def FitsInteger (n : Int) : Prop := -2 ^ 31 ≤ n ∧ n < 2 ^ 31

instance (n : Int) : Decidable (FitsInteger n) := inferInstanceAs (Decidable (_ ∧ _))

/-- The quantities of stock positions and ledger rows fit their columns. -/
structure InColumns (db : Db) : Prop where
  onHand : ∀ i ∈ db.items, FitsInteger i.onHandQty
  reserved : ∀ i ∈ db.items, FitsInteger i.reservedQty
  delta : ∀ m ∈ db.movements, FitsInteger m.quantityDelta
  resulting : ∀ m ∈ db.movements, FitsInteger m.resultingOnHand

/-! ## Running ledgers -/

/-- The stock after each ledger row is a quantity that an item may have. -/
def Tracked (movements : List StockMovement) : Prop :=
  ∀ m ∈ movements, 0 ≤ m.resultingOnHand ∧ m.resultingOnHand < 2 ^ 31

section Ledgers

variable {ms rows : List StockMovement}

theorem Running.of_append (h : Running (ms ++ rows)) : Running ms := by
  rintro before m after rfl
  exact h before m (after ++ rows) (by simp)

theorem Running.last {m : StockMovement} (h : Running (ms ++ [m])) :
    m.resultingOnHand = ledger (ms ++ [m]) m.inventoryItemId :=
  h ms m [] rfl

theorem ledger_nonpos (h : ∀ m ∈ rows, m.quantityDelta ≤ 0) (i : Nat) : ledger rows i ≤ 0 := by
  induction rows with
  | nil => exact Int.le_refl 0
  | cons m rows ih =>
    have hm := h m List.mem_cons_self
    have hrest := ih fun x hx => h x (List.mem_cons_of_mem _ hx)
    rw [← List.singleton_append, ledger_append, ledger_singleton]
    split <;> omega

/-- The sum of an item's ledger is nothing, or the stock after its last row. -/
theorem ledger_bounds (hrun : Running ms) (h : Tracked ms) (i : Nat) :
    0 ≤ ledger ms i ∧ ledger ms i < 2 ^ 31 := by
  induction ms using List.reverseRecOn with
  | nil => exact ⟨Int.le_refl 0, show (0 : Int) < 2 ^ 31 by decide⟩
  | append_singleton ms m ih =>
    by_cases hi : m.inventoryItemId = i
    · rw [← hi, ← hrun.last]
      exact h m (List.mem_append_right _ (List.mem_singleton_self m))
    · rw [ledger_append, ledger_singleton, if_neg hi, Int.add_zero]
      exact ih hrun.of_append fun x hx => h x (List.mem_append_left _ hx)

/-- Rows that take stock away leave the ledger between what was there and what is left. -/
theorem tracked_append_of_nonpos (hrun : Running (ms ++ rows)) (h : Tracked ms)
    (hdown : ∀ m ∈ rows, m.quantityDelta ≤ 0)
    (hleft : ∀ m ∈ rows, 0 ≤ ledger (ms ++ rows) m.inventoryItemId) : Tracked (ms ++ rows) := by
  intro m hm
  rcases List.mem_append.1 hm with hold | hnew
  · exact h m hold
  have htotal := hleft m hnew
  obtain ⟨before, after, rfl⟩ := List.append_of_mem hnew
  have hresult := hrun (ms ++ before) m after (by simp)
  have hstart := ledger_bounds hrun.of_append h m.inventoryItemId
  have hbefore := ledger_nonpos (fun x hx => hdown x (List.mem_append_left _ hx)) m.inventoryItemId
  have hafter := ledger_nonpos
    (fun x hx => hdown x (List.mem_append_right _ (List.mem_cons_of_mem _ hx))) m.inventoryItemId
  have hone := hdown m hnew
  rw [← List.singleton_append, ledger_append, ledger_append, ledger_append] at htotal
  rw [ledger_append, ledger_append] at hresult
  rw [ledger_singleton, if_pos rfl] at htotal hresult
  omega

/-- One row, after which the stock fits. -/
theorem tracked_append_of_single (hrun : Running (ms ++ rows)) (h : Tracked ms)
    (hsingle : rows.length ≤ 1)
    (hfits : ∀ m ∈ rows, 0 ≤ ledger (ms ++ rows) m.inventoryItemId ∧
      ledger (ms ++ rows) m.inventoryItemId < 2 ^ 31) : Tracked (ms ++ rows) := by
  cases rows with
  | nil => rwa [List.append_nil]
  | cons m rest =>
    obtain rfl : rest = [] :=
      List.length_eq_zero_iff.1 (Nat.le_zero.1 (Nat.le_of_succ_le_succ hsingle))
    intro x hx
    rcases List.mem_append.1 hx with hold | hnew
    · exact h x hold
    · obtain rfl := List.mem_singleton.1 hnew
      rw [hrun.last]
      exact hfits x hnew

end Ledgers

/-- If the stock after each ledger row fits, so do the counters, and what each row added. -/
theorem inColumns_of_tracked {db : Db} (hinv : Consistent db) (h : Tracked db.movements) :
    InColumns db where
  onHand := by
    intro i hi
    have hbounds := ledger_bounds hinv.running h i.id
    rw [← hinv.on_hand i hi] at hbounds
    constructor <;> omega
  reserved := by
    intro i hi
    have hbounds := ledger_bounds hinv.running h i.id
    rw [← hinv.on_hand i hi] at hbounds
    have hnonneg := hinv.reserved_nonneg i hi
    have hwithin := hinv.within i hi
    constructor <;> omega
  delta := by
    intro m hm
    -- a row adds the difference of the stock after it and the stock before it
    obtain ⟨before, after, hsplit⟩ := List.append_of_mem hm
    have hresult := hinv.running before m after hsplit
    have hbounds := h m hm
    have hrun := hinv.running
    rw [hsplit] at hrun h
    have hbefore := ledger_bounds hrun.of_append (fun x hx => h x (List.mem_append_left _ hx))
      m.inventoryItemId
    rw [ledger_append, ledger_singleton, if_pos rfl] at hresult
    constructor <;> omega
  resulting := by
    intro m hm
    have hbounds := h m hm
    constructor <;> omega

/-! ## What commits do to quantities -/

/-- The position that an opening adds, and the one that an adjustment changes. -/
def Counted : Operation → Db → (Row → Prop) → Outcome → Nat → Db → Db → Prop
  | .openPosition payload _, _, _, _, _, db, db' => ∃ item rows, Opens payload item rows ∧
      db' = (db.insertItem item).insertMovements rows
  | .adjust itemId payload _, _, _, _, _, db, db' => ∃ row ∈ db.items, row.id = itemId ∧
      ∃ m events, m.inventoryItemId = row.id ∧ db' = (db.adjustRows payload row m).stage events
  | _, _, _, _, _, _, _ => True

/-- The protocol, with the positions that operators write. -/
abbrev counting (unconfirmedHold : Nat) : Discipline Db Row Failure Outcome Operation :=
  (protocol unconfirmedHold).withPost Counted

theorem counting_governs (unconfirmedHold : Nat) :
    (counting unconfirmedHold).Governs (inventory unconfirmedHold) := by
  refine (protocol_governs unconfirmedHold).withPost fun op now db hinv => ?_
  have hnone : ∀ x : Row, ¬ (⟨fun _ => False, .ok, now, db⟩ : View Db Row Failure).held x :=
    fun _ hx => hx
  have hmeets : (protocol unconfirmedHold).wp op ((inventory unconfirmedHold).program op)
      ((protocol unconfirmedHold).Commits op db) ⟨fun _ => False, .ok, now, db⟩ :=
    (protocol_governs unconfirmedHold).program op now db hinv
  cases op with
  | openPosition payload principal =>
    exact Discipline.wp_bind _ _ (posts_openPosition rfl fun _ _ _ item rows _ hopens =>
      ⟨item, rows, hopens, rfl⟩)
  | adjust itemId payload principal =>
    exact Discipline.wp_bind _ _ (posts_adjust rfl hnone
      fun _ _ _ row m events hrow hid _ hitem _ => ⟨row, hrow, hid, m, events, hitem, rfl⟩)
  | reserve | confirm | commit | release | releaseExpired =>
    exact Discipline.wp_mono (fun _ _ _ _ _ _ _ _ => trivial) _ _ (Discipline.wp_lax hmeets)

/-- The operation opens or adjusts a stock position. -/
def Operation.Repositions : Operation → Prop
  | .openPosition _ _ => True
  | .adjust _ _ _ => True
  | _ => False

/-- The other operations add no ledger row but a dispatch's. -/
theorem movements_of_committed {op : Operation} {opened db db' : Db} {held : Row → Prop}
    {a : Outcome} {clock : Nat} (hinv : Consistent db)
    (h : Committed unconfirmedHold op opened held a clock db db') (hop : ¬ op.Repositions) :
    ∃ rows, db'.movements = db.movements ++ rows ∧ ∀ m ∈ rows, m.quantityDelta ≤ 0 := by
  have hsame : db'.movements = db.movements →
      ∃ rows, db'.movements = db.movements ++ rows ∧ ∀ m ∈ rows, m.quantityDelta ≤ 0 := fun heq =>
    ⟨[], heq.trans (List.append_nil _).symm, fun _ hm => absurd hm List.not_mem_nil⟩
  cases op with
  | openPosition | adjust => exact absurd trivial hop
  | reserve request =>
    cases a with
    | item | count => exact h.elim
    | reserved answer created =>
      cases created with
      | false =>
        obtain ⟨-, -, rfl⟩ := h
        exact hsame rfl
      | true =>
        obtain ⟨-, _, _, _, _, _, -, -, -, -, -, -, rfl⟩ := h
        exact hsame rfl
  | confirm shipmentId =>
    cases a with
    | item | reserved => exact h.elim
    | count n =>
      obtain ⟨_, _, -, -, rfl⟩ := h
      exact hsame rfl
  | commit shipmentId actorId =>
    cases a with
    | item | reserved => exact h.elim
    | count n =>
      rcases h with ⟨-, rfl, -, -⟩ | ⟨now, holds, rows, -, hl, -, -, hrows, rfl⟩
      · exact hsame rfl
      · refine ⟨rows, rfl, fun m hm => ?_⟩
        obtain ⟨hold, hhold, hm⟩ := Table.exists_left_of_forall₂ hrows hm
        have hpos := hinv.quantity_pos hold (hl.mem hold hhold)
        rw [hm.delta]
        omega
  | release shipmentId reason =>
    cases a with
    | item | reserved => exact h.elim
    | count n => rcases h with ⟨-, rfl, -⟩ | ⟨_, _, -, -, -, -, rfl⟩ <;> exact hsame rfl
  | releaseExpired warehouseIds =>
    cases a with
    | item | reserved => exact h.elim
    | count n => rcases h with ⟨-, rfl⟩ | ⟨_, _, _, -, -, -, -, rfl⟩ <;> exact hsame rfl

/-! ## Room -/

/-- The stock an operation leaves is a quantity of the column. -/
def Operation.HasRoom : Operation → Db → Prop
  | .openPosition payload _, _ => FitsInteger payload.onHandQty
  | .adjust itemId payload _, db => ∀ i ∈ db.items, i.id = itemId →
      FitsInteger (i.onHandQty + payload.quantityDelta)
  | _, _ => True

instance : ∀ (op : Operation) (db : Db), Decidable (op.HasRoom db)
  | .openPosition payload _, _ => inferInstanceAs (Decidable (FitsInteger payload.onHandQty))
  | .adjust itemId payload _, db => inferInstanceAs (Decidable (∀ i ∈ db.items, i.id = itemId →
      FitsInteger (i.onHandQty + payload.quantityDelta)))
  | .reserve _, _ => isTrue trivial
  | .confirm _, _ => isTrue trivial
  | .commit _ _, _ => isTrue trivial
  | .release _ _, _ => isTrue trivial
  | .releaseExpired _, _ => isTrue trivial

/-- The operation whose transaction the step is the commit of. -/
def committing (c : Config Db Row Failure Outcome Operation) :
    Label Operation Environment → Option Operation
  | .step t _ => (c.sessions t).bind fun s => match s.prog with
    | .pure _ => some s.op
    | _ => none
  | _ => none

/-- A step that commits an opening or an adjustment has room for it. -/
def HasRoom (c : Config Db Row Failure Outcome Operation)
    (l : Label Operation Environment) : Prop :=
  ∀ op ∈ committing c l, op.HasRoom c.db

instance (c : Config Db Row Failure Outcome Operation) (l : Label Operation Environment) :
    Decidable (HasRoom c l) := inferInstanceAs (Decidable (∀ op ∈ committing c l, op.HasRoom c.db))

section Steps

variable {c c' : Config Db Row Failure Outcome Operation}

/-- A commit with room keeps the stock in its columns. -/
theorem tracked_of_commit {op : Operation} {opened db db' : Db} {held : Row → Prop} {a : Outcome}
    {clock : Nat} (h : Tracked db.movements) (hinv : Consistent db) (hinv' : Consistent db')
    (hcommit : Committed unconfirmedHold op opened held a clock db db')
    (hcounted : Counted op opened held a clock db db') (hroom : op.HasRoom db) :
    Tracked db'.movements := by
  by_cases hop : op.Repositions
  · cases op with
    | openPosition payload principal =>
      obtain ⟨item, rows, hopens, rfl⟩ := hcounted
      refine tracked_append_of_single hinv'.running h hopens.single fun m hm => ?_
      have hitem : item ∈ ((db.insertItem item).insertMovements rows).items :=
        List.mem_append_right _ List.mem_cons_self
      have hledger := hinv'.on_hand item hitem
      have hnonneg := payload.onHandQty_nonneg
      rw [hopens.onHand] at hledger
      rw [(hopens.of_item m hm).1]
      exact ⟨hledger ▸ hnonneg, hledger ▸ hroom.2⟩
    | adjust itemId payload principal =>
      obtain ⟨row, hrow, hid, m, events, hof, rfl⟩ := hcounted
      refine tracked_append_of_single hinv'.running h (Nat.le_refl 1) fun x hx => ?_
      obtain rfl := List.mem_singleton.1 hx
      have hitem : adjustOne payload row ∈ ((db.adjustRows payload row x).stage events).items :=
        List.mem_map.2 ⟨row, hrow, if_pos rfl⟩
      have hledger := hinv'.on_hand _ hitem
      have hnonneg := hinv'.on_hand_nonneg _ hitem
      rw [hof]
      exact ⟨hledger ▸ hnonneg, hledger ▸ (hroom row hrow hid).2⟩
    | reserve | confirm | commit | release | releaseExpired => exact hop.elim
  · obtain ⟨rows, hrows, hdown⟩ := movements_of_committed hinv hcommit hop
    have hrun := hinv'.running
    rw [hrows] at hrun ⊢
    refine tracked_append_of_nonpos hrun h hdown fun m hm => ?_
    obtain ⟨i, hi, hid⟩ := hinv'.item_of_movement m (hrows ▸ List.mem_append_right _ hm)
    rw [← hrows, ← hid, ← hinv'.on_hand i hi]
    exact hinv'.on_hand_nonneg i hi

/-- A step with room keeps the stock in its columns. -/
theorem Tracked.next (h : Tracked c.db.movements) (hc : c.Sound (counting unconfirmedHold))
    {l : Label Operation Environment} (hroom : HasRoom c l)
    (hnext : (inventory unconfirmedHold).next c l = some c') : Tracked c'.db.movements := by
  rcases (inventory unconfirmedHold).next_db hnext with heq | ⟨t, draw, s, a, rfl, hs, ha, hdb⟩ |
    ⟨e, rfl, heq⟩
  · rwa [heq]
  · obtain ⟨hguar, hcommit, hcounted⟩ := hc.commit hs ha hdb
    have hop : s.op ∈ committing c (.step t draw) := by
      simp only [committing, hs, Option.bind_some, ha, Option.mem_def]
    exact tracked_of_commit h hc.inv hguar.inv hcommit hcounted (hroom s.op hop)
  · rw [heq]
    cases e <;> exact h

end Steps

end SmartLogistics.Inventory
