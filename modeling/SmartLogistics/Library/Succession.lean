import SmartLogistics.Library.Table
import Mathlib.Data.List.Chain
import Mathlib.Logic.Relation

/-!
# Rows that replace one another

A table whose rows may name the row that replaced them (`next`), which is always inserted later
and replaces one row only (`Succession`). The rows that follow a given one (`Follows`) are then a
simple line: `Succession.exists_line`. A table stays a succession when rows are rewritten in place,
when a row is inserted, and when a row is replaced by a new one.
-/

set_option autoImplicit false

namespace SmartLogistics.Library.Table

variable {ρ : Type} (key : ρ → Nat) (next : ρ → Option Nat)

/-- Successors are rows of the table that come later, and no two rows share one. -/
structure Succession (rows : List ρ) : Prop where
  keyed : Keyed key rows
  found : ∀ r ∈ rows, ∀ k, next r = some k → ∃ s ∈ rows, key s = k
  later : rows.Pairwise fun a b => next b ≠ some (key a)
  ne_self : ∀ r ∈ rows, next r ≠ some (key r)
  unique : ∀ r ∈ rows, ∀ r' ∈ rows, ∀ k, next r = some k → next r' = some k → r = r'

/-- Row `s` replaced row `r`. -/
def Replaced (rows : List ρ) (r s : ρ) : Prop := r ∈ rows ∧ s ∈ rows ∧ next r = some (key s)

/-- Row `s` is `r` or descends from it by replacements. -/
abbrev Follows (rows : List ρ) : ρ → ρ → Prop := Relation.ReflTransGen (Replaced key next rows)

/-- The line of the rows that follow `r`: a simple chain of replacements, whose last row has not
been replaced. -/
structure Line (rows : List ρ) (r : ρ) (line : List ρ) : Prop where
  head : line.head? = some r
  links : line.IsChain (Replaced key next rows)
  last : ∀ x, line.getLast? = some x → next x = none
  nodup : line.Nodup
  mem_iff : ∀ s, s ∈ line ↔ Follows key next rows r s

variable {key next} {rows : List ρ}

theorem succession_nil : Succession key next ([] : List ρ) where
  keyed := List.nodup_nil
  found := fun _ hr => absurd hr List.not_mem_nil
  later := List.Pairwise.nil
  ne_self := fun _ hr => absurd hr List.not_mem_nil
  unique := fun _ hr => absurd hr List.not_mem_nil

/-! ## Lines -/

/-- A row is replaced by one row at most. -/
theorem Replaced.eq (h : Succession key next rows) {r s s' : ρ} (hs : Replaced key next rows r s)
    (hs' : Replaced key next rows r s') : s = s' :=
  h.keyed.eq_of_key hs.2.1 hs'.2.1 (Option.some.inj (hs.2.2.symm.trans hs'.2.2))

theorem Follows.mem {r s : ρ} (h : Follows key next rows r s) (hr : r ∈ rows) : s ∈ rows := by
  induction h with
  | refl => exact hr
  | tail _ hstep _ => exact hstep.2.1

/-- The successor of a row comes after it. -/
theorem Succession.mem_later (h : Succession key next rows) {pre post : List ρ} {r s : ρ}
    (hrows : rows = pre ++ r :: post) (hs : Replaced key next rows r s) : s ∈ post := by
  obtain ⟨hr, hmem, hnext⟩ := hs
  have hlater := h.later
  rw [hrows] at hmem hlater
  rcases List.mem_append.1 hmem with hpre | hpost
  · -- a row that came before is not the successor
    exact absurd hnext ((List.pairwise_append.1 hlater).2.2 s hpre r List.mem_cons_self)
  · rcases List.mem_cons.1 hpost with rfl | hpost
    · exact absurd hnext (h.ne_self s hr)
    · exact hpost

/-- A row that has not been replaced is a line of its own. -/
theorem line_singleton {r : ρ} (hnext : next r = none) : Line key next rows r [r] where
  head := rfl
  links := List.isChain_singleton r
  last := by
    intro x hx
    rw [← Option.some.inj hx]
    exact hnext
  nodup := List.nodup_singleton r
  mem_iff := by
    intro s
    rw [List.mem_singleton]
    constructor
    · rintro rfl
      exact .refl
    · intro hs
      rcases Relation.ReflTransGen.cases_head hs with rfl | ⟨m, hm, -⟩
      · rfl
      · rw [hm.2.2] at hnext
        cases hnext

/-- The rows that follow a row of a succession are a simple line. -/
theorem Succession.exists_line_of_split (h : Succession key next rows) (n : Nat) :
    ∀ {pre post : List ρ} {r : ρ}, post.length ≤ n → rows = pre ++ r :: post →
      ∃ line, Line key next rows r line ∧ ∀ x ∈ line, x = r ∨ x ∈ post := by
  -- induction on how many rows come after `r`
  induction n with
  | zero =>
    intro pre post r hlen hrows
    obtain rfl := List.length_eq_zero_iff.1 (Nat.le_zero.1 hlen)
    refine ⟨[r], line_singleton ?_, fun x hx => Or.inl (List.mem_singleton.1 hx)⟩
    cases hnext : next r with
    | none => rfl
    | some k =>
      have hr : r ∈ rows := by rw [hrows]; simp
      obtain ⟨s, hs, rfl⟩ := h.found r hr k hnext
      exact absurd (h.mem_later hrows ⟨hr, hs, hnext⟩) List.not_mem_nil
  | succ n ih =>
    intro pre post r hlen hrows
    have hr : r ∈ rows := by rw [hrows]; simp
    cases hnext : next r with
    | none => exact ⟨[r], line_singleton hnext, fun x hx => Or.inl (List.mem_singleton.1 hx)⟩
    | some k =>
      obtain ⟨s, hs, rfl⟩ := h.found r hr k hnext
      have hlink : Replaced key next rows r s := ⟨hr, hs, hnext⟩
      obtain ⟨mid, post', rfl⟩ := List.append_of_mem (h.mem_later hrows hlink)
      have hrows' : rows = (pre ++ r :: mid) ++ s :: post' := by
        rw [hrows]
        simp
      obtain ⟨line, hline, hafter⟩ := ih (by simp at hlen; omega) hrows'
      have hin : ∀ x ∈ line, x ∈ mid ++ s :: post' := by
        intro x hx
        rcases hafter x hx with rfl | hx
        · simp
        · simp [hx]
      have hnot : r ∉ line := by
        intro hmem
        have hnodup := h.keyed.nodup
        rw [hrows] at hnodup
        exact (List.nodup_cons.1 (List.nodup_append.1 hnodup).2.1).1 (hin r hmem)
      refine ⟨r :: line, ⟨rfl, ?_, ?_, List.nodup_cons.2 ⟨hnot, hline.nodup⟩, fun x => ?_⟩, ?_⟩
      · refine List.isChain_cons.2 ⟨fun y hy => ?_, hline.links⟩
        rw [hline.head] at hy
        cases hy
        exact hlink
      · intro x hx
        have hne : line ≠ [] := fun hnil => by
          have hhead := hline.head
          rw [hnil] at hhead
          cases hhead
        rw [List.getLast?_cons_of_ne_nil hne] at hx
        exact hline.last x hx
      · rw [List.mem_cons, hline.mem_iff]
        constructor
        · rintro (rfl | hx)
          · exact .refl
          · exact .head hlink hx
        · intro hx
          rcases Relation.ReflTransGen.cases_head hx with rfl | ⟨m, hm, hx⟩
          · exact Or.inl rfl
          · exact Or.inr (hlink.eq h hm ▸ hx)
      · intro x hx
        rcases List.mem_cons.1 hx with rfl | hx
        · exact Or.inl rfl
        · exact Or.inr (hin x hx)

theorem Succession.exists_line (h : Succession key next rows) {r : ρ} (hr : r ∈ rows) :
    ∃ line, Line key next rows r line := by
  obtain ⟨pre, post, hrows⟩ := List.append_of_mem hr
  obtain ⟨line, hline, -⟩ := h.exists_line_of_split post.length (Nat.le_refl _) hrows
  exact ⟨line, hline⟩

/-- All rows of a line but the last have been replaced. -/
theorem Line.next_ne_none {r : ρ} {line : List ρ} (h : Line key next rows r line) {x : ρ}
    (hx : x ∈ line) (hlast : line.getLast? ≠ some x) : next x ≠ none := by
  obtain ⟨pre, post, rfl⟩ := List.append_of_mem hx
  cases post with
  | nil => exact absurd (by simp) hlast
  | cons y post =>
    have hlinks := h.links
    rw [List.isChain_append] at hlinks
    obtain ⟨-, -, hnext⟩ := (List.isChain_cons_cons.1 hlinks.2.1).1
    rw [hnext]
    exact Option.some_ne_none _

/-- If all rows of a line but the last lack a property, at most one has it. -/
theorem Line.countP_le_one {r : ρ} {line : List ρ} (h : Line key next rows r line) {p : ρ → Bool}
    (hp : ∀ x ∈ line, line.getLast? ≠ some x → p x = false) : line.countP p ≤ 1 := by
  rcases List.eq_nil_or_concat line with rfl | ⟨init, z, rfl⟩
  · exact Nat.zero_le 1
  · rw [List.concat_eq_append] at h hp ⊢
    have hnodup := List.nodup_append.1 h.nodup
    have hinit : init.countP p = 0 := by
      refine List.countP_eq_zero.2 fun x hx => ?_
      have hne : (init ++ [z]).getLast? ≠ some x := by
        rw [List.getLast?_append]
        intro heq
        exact hnodup.2.2 x hx z (List.mem_singleton_self z) (Option.some.inj heq).symm
      rw [hp x (List.mem_append_left _ hx) hne]
      exact Bool.false_ne_true
    have hlast : [z].countP p ≤ 1 := List.countP_le_length
    rw [List.countP_append]
    omega

/-! ## Writes that keep a succession -/

/-- Rows rewritten in place, with their keys and successors kept. -/
theorem Succession.map (h : Succession key next rows) {f : ρ → ρ}
    (hkey : ∀ r ∈ rows, key (f r) = key r) (hnext : ∀ r ∈ rows, next (f r) = next r) :
    Succession key next (rows.map f) where
  keyed := by
    have hkeys : (rows.map f).map key = rows.map key := by
      rw [List.map_map]
      exact List.map_congr_left hkey
    rw [Keyed, hkeys]
    exact h.keyed
  found := by
    intro r hr k hk
    obtain ⟨r₀, hr₀, rfl⟩ := List.mem_map.1 hr
    rw [hnext r₀ hr₀] at hk
    obtain ⟨s, hs, rfl⟩ := h.found r₀ hr₀ k hk
    exact ⟨f s, List.mem_map_of_mem hs, hkey s hs⟩
  later := by
    rw [List.pairwise_map]
    refine h.later.imp_of_mem fun {a b} ha hb hab => ?_
    rw [hnext b hb, hkey a ha]
    exact hab
  ne_self := by
    intro r hr
    obtain ⟨r₀, hr₀, rfl⟩ := List.mem_map.1 hr
    rw [hnext r₀ hr₀, hkey r₀ hr₀]
    exact h.ne_self r₀ hr₀
  unique := by
    intro r hr r' hr' k hk hk'
    obtain ⟨r₀, hr₀, rfl⟩ := List.mem_map.1 hr
    obtain ⟨r₁, hr₁, rfl⟩ := List.mem_map.1 hr'
    rw [hnext r₀ hr₀] at hk
    rw [hnext r₁ hr₁] at hk'
    rw [h.unique r₀ hr₀ r₁ hr₁ k hk hk']

/-- A new row that has not been replaced. -/
theorem Succession.snoc (h : Succession key next rows) {s : ρ} (hfresh : ∀ r ∈ rows, key r ≠ key s)
    (hs : next s = none) : Succession key next (rows ++ [s]) where
  keyed := by
    rw [Keyed, List.map_append, List.map_singleton]
    refine List.nodup_append.2 ⟨h.keyed, List.nodup_singleton _, fun a ha b hb => ?_⟩
    obtain ⟨r, hr, rfl⟩ := List.mem_map.1 ha
    rw [List.mem_singleton.1 hb]
    exact hfresh r hr
  found := by
    intro r hr k hk
    rcases List.mem_append.1 hr with hr | hr
    · obtain ⟨x, hx, rfl⟩ := h.found r hr k hk
      exact ⟨x, List.mem_append_left _ hx, rfl⟩
    · rw [List.mem_singleton.1 hr, hs] at hk
      cases hk
  later := by
    refine List.pairwise_append.2 ⟨h.later, List.pairwise_singleton _ _, fun a _ b hb => ?_⟩
    rw [List.mem_singleton.1 hb, hs]
    exact (Option.some_ne_none _).symm
  ne_self := by
    intro r hr
    rcases List.mem_append.1 hr with hr | hr
    · exact h.ne_self r hr
    · rw [List.mem_singleton.1 hr, hs]
      exact (Option.some_ne_none _).symm
  unique := by
    intro r hr r' hr' k hk hk'
    rcases List.mem_append.1 hr with hr | hr
    · rcases List.mem_append.1 hr' with hr' | hr'
      · exact h.unique r hr r' hr' k hk hk'
      · rw [List.mem_singleton.1 hr', hs] at hk'
        cases hk'
    · rw [List.mem_singleton.1 hr, hs] at hk
      cases hk

/-- A row whose successor becomes a new row. -/
theorem Succession.replace (h : Succession key next rows) {r s : ρ} {f : ρ → ρ} (hr : r ∈ rows)
    (hfresh : ∀ x ∈ rows, key x ≠ key s) (hs : next s = none)
    (hkey : ∀ x ∈ rows, key (f x) = key x) (hthis : next (f r) = some (key s))
    (hother : ∀ x ∈ rows, x ≠ r → next (f x) = next x) :
    Succession key next (rows.map f ++ [s]) where
  keyed := by
    have hkeys : (rows.map f).map key = rows.map key := by
      rw [List.map_map]
      exact List.map_congr_left hkey
    rw [Keyed, List.map_append, hkeys, List.map_singleton]
    refine List.nodup_append.2 ⟨h.keyed, List.nodup_singleton _, fun a ha b hb => ?_⟩
    obtain ⟨x, hx, rfl⟩ := List.mem_map.1 ha
    rw [List.mem_singleton.1 hb]
    exact hfresh x hx
  found := by
    intro x hx k hk
    rcases List.mem_append.1 hx with hx | hx
    · obtain ⟨x₀, hx₀, rfl⟩ := List.mem_map.1 hx
      by_cases hxr : x₀ = r
      · rw [hxr, hthis] at hk
        exact ⟨s, List.mem_append_right _ List.mem_cons_self, Option.some.inj hk⟩
      · rw [hother x₀ hx₀ hxr] at hk
        obtain ⟨y, hy, rfl⟩ := h.found x₀ hx₀ k hk
        exact ⟨f y, List.mem_append_left _ (List.mem_map_of_mem hy), hkey y hy⟩
    · rw [List.mem_singleton.1 hx, hs] at hk
      cases hk
  later := by
    refine List.pairwise_append.2 ⟨?_, List.pairwise_singleton _ _, fun a _ b hb => ?_⟩
    · rw [List.pairwise_map]
      refine h.later.imp_of_mem fun {a b} ha hb hab => ?_
      rw [hkey a ha]
      by_cases hbr : b = r
      · rw [hbr, hthis]
        exact fun heq => hfresh a ha (Option.some.inj heq).symm
      · rw [hother b hb hbr]
        exact hab
    · rw [List.mem_singleton.1 hb, hs]
      exact (Option.some_ne_none _).symm
  ne_self := by
    intro x hx
    rcases List.mem_append.1 hx with hx | hx
    · obtain ⟨x₀, hx₀, rfl⟩ := List.mem_map.1 hx
      rw [hkey x₀ hx₀]
      by_cases hxr : x₀ = r
      · rw [hxr, hthis]
        exact fun heq => hfresh r hr (Option.some.inj heq).symm
      · rw [hother x₀ hx₀ hxr]
        exact h.ne_self x₀ hx₀
    · rw [List.mem_singleton.1 hx, hs]
      exact (Option.some_ne_none _).symm
  unique := by
    -- the new row is the successor of `r` only: no row named it before
    have hnew : ∀ x ∈ rows, next x ≠ some (key s) := fun x hx heq => by
      obtain ⟨y, hy, hykey⟩ := h.found x hx _ heq
      exact hfresh y hy hykey
    intro x hx x' hx' k hk hk'
    rcases List.mem_append.1 hx with hx | hx
    · rcases List.mem_append.1 hx' with hx' | hx'
      · obtain ⟨x₀, hx₀, rfl⟩ := List.mem_map.1 hx
        obtain ⟨x₁, hx₁, rfl⟩ := List.mem_map.1 hx'
        by_cases hxr : x₀ = r
        · by_cases hxr' : x₁ = r
          · rw [hxr, hxr']
          · rw [hxr, hthis] at hk
            rw [hother x₁ hx₁ hxr', ← hk] at hk'
            exact absurd hk' (hnew x₁ hx₁)
        · rw [hother x₀ hx₀ hxr] at hk
          by_cases hxr' : x₁ = r
          · rw [hxr', hthis] at hk'
            rw [← hk'] at hk
            exact absurd hk (hnew x₀ hx₀)
          · rw [hother x₁ hx₁ hxr'] at hk'
            rw [h.unique x₀ hx₀ x₁ hx₁ k hk hk']
      · rw [List.mem_singleton.1 hx', hs] at hk'
        cases hk'
    · rw [List.mem_singleton.1 hx, hs] at hk
      cases hk

end SmartLogistics.Library.Table
