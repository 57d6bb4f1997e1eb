import Highlighter.Pattern.CaseFold
import Highlighter.Proofs.Unicode.Case

/-!
# Ranges with their other case, and their normal form

`closed` adds the letters of the other case to ranges of ASCII
characters. Together with two characters outside ASCII, these are all
that has a case variant in the given ranges (`holds_closed`). The
normal form of ranges holds what they held (`holds_merged`): the
induction is along `joinSorted`, with the ranges sorted by their
starts. Both steps lead from proper ranges to proper ones.
-/

set_option autoImplicit false

namespace Highlighter.Pattern

theorem rangeHolds_iff {code : Nat} {range : CodeRange} :
    rangeHolds code range = true ↔ range.1 ≤ code ∧ code ≤ range.2 := by
  obtain ⟨start, stop⟩ := range
  rw [rangeHolds, Bool.and_eq_true, decide_eq_true_eq, decide_eq_true_eq]

/-! ### The other case -/

/-- A range between two characters, in order. -/
structure IsProper (range : CodeRange) : Prop where
  start_le : range.1 ≤ range.2
  valid_start : range.1.isValidChar
  valid_stop : range.2.isValidChar

theorem isProper_of_ascii {range : CodeRange} (hle : range.1 ≤ range.2) (h : range.2 ≤ 0x7F) :
    IsProper range :=
  ⟨hle, .inl (by omega), .inl (by omega)⟩

/-- The letters of a range come in the other case as well. -/
theorem holds_withOtherCase (range : CodeRange) (code : Nat) :
    (withOtherCase range).any (rangeHolds code) = true ↔
      rangeHolds code range = true ∨
      ((0x61 ≤ code ∧ code ≤ 0x7A) ∧ rangeHolds (code - 0x20) range = true) ∨
      (0x41 ≤ code ∧ code ≤ 0x5A) ∧ rangeHolds (code + 0x20) range = true := by
  obtain ⟨start, stop⟩ := range
  have hguarded : ∀ {p : Prop} [Decidable p] (range : CodeRange),
      (if p then [range] else []).any (rangeHolds code) = true
        ↔ p ∧ rangeHolds code range = true := by
    intro p _ range
    by_cases hp : p <;> simp [hp]
  rw [withOtherCase, List.cons_append, List.any_cons, List.any_append, Bool.or_eq_true,
    Bool.or_eq_true, hguarded, hguarded, rangeHolds_iff, rangeHolds_iff, rangeHolds_iff,
    rangeHolds_iff, rangeHolds_iff]
  simp only [Bool.and_eq_true, decide_eq_true_eq]
  omega

theorem isProper_withOtherCase {range : CodeRange} (h : IsProper range) :
    ∀ other ∈ withOtherCase range, IsProper other := by
  obtain ⟨start, stop⟩ := range
  have hle : start ≤ stop := h.start_le
  intro other hother
  rw [withOtherCase, List.cons_append, List.mem_cons, List.mem_append] at hother
  rcases hother with rfl | hlower | hupper
  · exact h
  · split at hlower
    · rename_i hletter
      simp only [Bool.and_eq_true, decide_eq_true_eq] at hletter
      cases List.mem_singleton.mp hlower
      exact isProper_of_ascii (by simp only; omega) (by simp only; omega)
    · cases hlower
  · split at hupper
    · rename_i hletter
      simp only [Bool.and_eq_true, decide_eq_true_eq] at hletter
      cases List.mem_singleton.mp hupper
      exact isProper_of_ascii (by simp only; omega) (by simp only; omega)
    · cases hupper

section Closed

variable {given : List CodeRange}

/-- What the ranges and those of the other case hold. -/
theorem holds_both (code : Nat) :
    (given.flatMap withOtherCase).any (rangeHolds code) = true ↔
      given.any (rangeHolds code) = true ∨
      ((0x61 ≤ code ∧ code ≤ 0x7A) ∧ given.any (rangeHolds (code - 0x20)) = true) ∨
      (0x41 ≤ code ∧ code ≤ 0x5A) ∧ given.any (rangeHolds (code + 0x20)) = true := by
  rw [List.any_flatMap, List.any_eq_true, List.any_eq_true, List.any_eq_true, List.any_eq_true]
  simp only [holds_withOtherCase]
  constructor
  · rintro ⟨range, hrange, hholds | ⟨hletter, hholds⟩ | ⟨hletter, hholds⟩⟩
    · exact .inl ⟨range, hrange, hholds⟩
    · exact .inr (.inl ⟨hletter, range, hrange, hholds⟩)
    · exact .inr (.inr ⟨hletter, range, hrange, hholds⟩)
  · rintro (⟨range, hrange, hholds⟩ | ⟨hletter, range, hrange, hholds⟩ |
      ⟨hletter, range, hrange, hholds⟩)
    · exact ⟨range, hrange, .inl hholds⟩
    · exact ⟨range, hrange, .inr (.inl ⟨hletter, hholds⟩)⟩
    · exact ⟨range, hrange, .inr (.inr ⟨hletter, hholds⟩)⟩

theorem holds_closed_iff (code : Nat) :
    (closed given).any (rangeHolds code) = true ↔
      (given.flatMap withOtherCase).any (rangeHolds code) = true ∨
      (code = 0x212A ∧ (given.flatMap withOtherCase).any (rangeHolds 0x6B) = true) ∨
      code = 0x17F ∧ (given.flatMap withOtherCase).any (rangeHolds 0x73) = true := by
  have hsingle : ∀ other : Nat, rangeHolds code (other, other) = true ↔ code = other := by
    intro other
    rw [rangeHolds_iff]
    exact ⟨fun h => Nat.le_antisymm h.2 h.1, fun h => ⟨Nat.le_of_eq h.symm, Nat.le_of_eq h⟩⟩
  unfold closed variantsOutsideAscii
  generalize given.flatMap withOtherCase = both
  have houtside : ∀ (letter other : Char) (rest : List (Char × Char)),
      ((((letter, other) :: rest).filter fun pair => both.any (rangeHolds pair.1.toNat)).map
          fun pair => (pair.2.toNat, pair.2.toNat)).any (rangeHolds code) = true
        ↔ (code = other.toNat ∧ both.any (rangeHolds letter.toNat) = true) ∨
          ((rest.filter fun pair => both.any (rangeHolds pair.1.toNat)).map
            fun pair => (pair.2.toNat, pair.2.toNat)).any (rangeHolds code) = true := by
    intro letter other rest
    cases hholds : both.any (rangeHolds letter.toNat) <;> simp [hholds, hsingle]
  rw [List.any_append, Bool.or_eq_true]
  refine or_congr_right ((houtside _ _ _).trans (or_congr_right ((houtside _ _ _).trans ?_)))
  simp

theorem le_of_holds (h : ∀ range ∈ given, range.2 ≤ 0x7F) {code : Nat}
    (hholds : given.any (rangeHolds code) = true) : code ≤ 0x7F := by
  obtain ⟨range, hrange, hcode⟩ := List.any_eq_true.mp hholds
  exact Nat.le_trans (rangeHolds_iff.mp hcode).2 (h range hrange)

/-- What comes with the other case is a variant of what is given. -/
theorem exists_of_holds_both {code : Nat}
    (h : (given.flatMap withOtherCase).any (rangeHolds code) = true) :
    ∃ other ∈ Unicode.variants code, given.any (rangeHolds other) = true := by
  rcases (holds_both code).mp h with hgiven | ⟨hlower, hgiven⟩ | ⟨hupper, hgiven⟩
  · exact ⟨code, Unicode.self_mem_variants code, hgiven⟩
  · refine ⟨code - 0x20, (Unicode.mem_variants_letter (show code - 0x61 < 26 by omega)
      (.inr ?_)).mpr (.inl ?_), hgiven⟩ <;> omega
  · refine ⟨code + 0x20, (Unicode.mem_variants_letter (show code - 0x41 < 26 by omega)
      (.inl ?_)).mpr (.inr (.inl ?_)), hgiven⟩ <;> omega

/-- The ASCII variants of what is given come with the other case. -/
theorem holds_both_of_mem_variants (h : ∀ range ∈ given, range.2 ≤ 0x7F) {code other : Nat}
    (hcode : code < 0x80) (hother : other ∈ Unicode.variants code)
    (hgiven : given.any (rangeHolds other) = true) :
    (given.flatMap withOtherCase).any (rangeHolds code) = true := by
  have hsame : other = code → (given.flatMap withOtherCase).any (rangeHolds code) = true := by
    rintro rfl
    exact (holds_both other).mpr (.inl hgiven)
  have houtside : ∀ index, other ∉ Unicode.outsideAscii index := fun index hmem =>
    absurd (Unicode.le_of_mem_outsideAscii hmem) (Nat.not_le.mpr
      (Nat.lt_succ_of_le (le_of_holds h hgiven)))
  by_cases hupper : 0x41 ≤ code ∧ code ≤ 0x5A
  · rcases (Unicode.mem_variants_letter (show code - 0x41 < 26 by omega)
      (.inl (by omega))).mp hother with heq | heq | hmem
    · exact hsame (by omega)
    · have hlower : other = code + 0x20 := by omega
      exact (holds_both code).mpr (.inr (.inr ⟨hupper, hlower ▸ hgiven⟩))
    · exact absurd hmem (houtside _)
  · by_cases hlower : 0x61 ≤ code ∧ code ≤ 0x7A
    · rcases (Unicode.mem_variants_letter (show code - 0x61 < 26 by omega)
        (.inr (by omega))).mp hother with heq | heq | hmem
      · have hupper : other = code - 0x20 := by omega
        exact (holds_both code).mpr (.inr (.inl ⟨hlower, hupper ▸ hgiven⟩))
      · exact hsame (by omega)
      · exact absurd hmem (houtside _)
    · rw [Unicode.variants_of_not_alpha hcode hupper hlower] at hother
      exact hsame (List.mem_singleton.mp hother)

/-- Where all given ranges are ASCII, the ranges with their other case
hold what has a variant in the given ones. -/
theorem holds_closed (h : ∀ range ∈ given, range.2 ≤ 0x7F) (code : Nat) :
    (closed given).any (rangeHolds code) = true
      ↔ ∃ other ∈ Unicode.variants code, given.any (rangeHolds other) = true := by
  rw [holds_closed_iff]
  constructor
  · rintro (hholds | ⟨rfl, hholds⟩ | ⟨rfl, hholds⟩)
    · exact exists_of_holds_both hholds
    · rw [Unicode.variants_kelvin]
      exact exists_of_holds_both hholds
    · rw [Unicode.variants_longS]
      exact exists_of_holds_both hholds
  · rintro ⟨other, hother, hgiven⟩
    rcases Unicode.of_mem_variants_ascii hother (Nat.lt_succ_of_le (le_of_holds h hgiven)) with
      hcode | rfl | rfl
    · exact .inl (holds_both_of_mem_variants h hcode hother hgiven)
    · rw [Unicode.variants_longS] at hother
      exact .inr (.inr ⟨rfl, holds_both_of_mem_variants h (by decide) hother hgiven⟩)
    · rw [Unicode.variants_kelvin] at hother
      exact .inr (.inl ⟨rfl, holds_both_of_mem_variants h (by decide) hother hgiven⟩)

theorem isProper_closed (h : ∀ range ∈ given, IsProper range) :
    ∀ range ∈ closed given, IsProper range := by
  intro range hrange
  rcases List.mem_append.mp hrange with hboth | houtside
  · obtain ⟨other, hother, hmem⟩ := List.mem_flatMap.mp hboth
    exact isProper_withOtherCase (h other hother) range hmem
  · have hvalid : ∀ pair ∈ variantsOutsideAscii, pair.2.toNat.isValidChar := fun pair _ =>
      pair.2.valid
    obtain ⟨pair, hpair, rfl⟩ := List.mem_map.mp houtside
    have hpair := hvalid pair (List.mem_filter.mp hpair).1
    exact ⟨Nat.le_refl _, hpair, hpair⟩

theorem closed_ne_nil (h : given ≠ []) : closed given ≠ [] := by
  cases given with
  | nil => exact absurd rfl h
  | cons range given =>
    obtain ⟨start, stop⟩ := range
    exact List.cons_ne_nil _ _

end Closed

/-! ### The normal form -/

theorem rangeLe_iff {a b : CodeRange} :
    rangeLe a b = true ↔ a.1 < b.1 ∨ a.1 = b.1 ∧ b.2 ≤ a.2 := by
  rw [rangeLe, Bool.or_eq_true, Bool.and_eq_true, decide_eq_true_eq, decide_eq_true_eq, beq_iff_eq]

/-- A range that starts in another one or right after it joins it. -/
theorem rangeHolds_join {current next : CodeRange} (hle : current.1 ≤ next.1)
    (htouch : next.1 ≤ current.2 + 1) (code : Nat) :
    rangeHolds code (current.1, max current.2 next.2)
      = (rangeHolds code current || rangeHolds code next) := by
  rw [Bool.eq_iff_iff, Bool.or_eq_true, rangeHolds_iff, rangeHolds_iff, rangeHolds_iff]
  simp only
  omega

/-- A joined range starts where the first of the two did. -/
theorem sorted_join {current next : CodeRange} {rest : List CodeRange}
    (hsorted : (current :: next :: rest).Pairwise fun a b => a.1 ≤ b.1) :
    ((current.1, max current.2 next.2) :: rest).Pairwise fun a b => a.1 ≤ b.1 := by
  obtain ⟨hcurrent, hrest⟩ := List.pairwise_cons.mp hsorted
  exact List.pairwise_cons.mpr ⟨(List.forall_mem_cons.mp hcurrent).2, (List.pairwise_cons.mp hrest).2⟩

/-- Sorted ranges that are joined hold what they held. -/
theorem holds_joinSorted {current : CodeRange} {rest : List CodeRange}
    (hsorted : (current :: rest).Pairwise fun a b => a.1 ≤ b.1) (code : Nat) :
    (joinSorted current rest).any (rangeHolds code)
      = (current :: rest).any (rangeHolds code) := by
  induction rest generalizing current with
  | nil => rfl
  | cons next rest ih =>
    obtain ⟨hcurrent, hrest⟩ := List.pairwise_cons.mp hsorted
    rw [joinSorted]
    by_cases htouch : next.1 ≤ current.2 + 1
    · rw [if_pos htouch, ih (sorted_join hsorted), List.any_cons, List.any_cons, List.any_cons,
        rangeHolds_join (hcurrent next List.mem_cons_self) htouch, Bool.or_assoc]
    · rw [if_neg htouch, List.any_cons, ih hrest, List.any_cons (l := next :: rest)]

/-- What is true of two ranges and of the range they are joined to is true of all that is joined. -/
theorem forall_joinSorted {P : CodeRange → Prop}
    (hjoin : ∀ first second : CodeRange, P first → P second → P (first.1, max first.2 second.2))
    {current : CodeRange} {rest : List CodeRange} (h : ∀ range ∈ current :: rest, P range) :
    ∀ range ∈ joinSorted current rest, P range := by
  induction rest generalizing current with
  | nil => exact h
  | cons next rest ih =>
    obtain ⟨hcurrent, hrest⟩ := List.forall_mem_cons.mp h
    obtain ⟨hnext, hothers⟩ := List.forall_mem_cons.mp hrest
    rw [joinSorted]
    by_cases htouch : next.1 ≤ current.2 + 1
    · rw [if_pos htouch]
      exact ih (List.forall_mem_cons.mpr ⟨hjoin current next hcurrent hnext, hothers⟩)
    · rw [if_neg htouch]
      exact List.forall_mem_cons.mpr ⟨hcurrent, ih hrest⟩

theorem IsProper.join {first second : CodeRange} (hfirst : IsProper first)
    (hsecond : IsProper second) : IsProper (first.1, max first.2 second.2) := by
  refine ⟨Nat.le_trans hfirst.start_le (Nat.le_max_left _ _), hfirst.valid_start, ?_⟩
  show (max first.2 second.2).isValidChar
  rcases Nat.le_total first.2 second.2 with hle | hle
  · rw [Nat.max_eq_right hle]
    exact hsecond.valid_stop
  · rw [Nat.max_eq_left hle]
    exact hfirst.valid_stop

theorem joinSorted_ne_nil (current : CodeRange) (rest : List CodeRange) :
    joinSorted current rest ≠ [] := by
  induction rest generalizing current with
  | nil => exact List.cons_ne_nil _ _
  | cons next rest ih =>
    rw [joinSorted]
    split
    · exact ih _
    · exact List.cons_ne_nil _ _

/-- The normal form is that of the sorted ranges. -/
theorem merged_cases (given : List CodeRange) :
    given = [] ∧ merged given = [] ∨
      ∃ first rest, (first :: rest).Perm given ∧
        (first :: rest).Pairwise (fun a b => a.1 ≤ b.1) ∧ merged given = joinSorted first rest := by
  have hperm := List.mergeSort_perm given rangeLe
  have hsorted : (given.mergeSort rangeLe).Pairwise fun a b => rangeLe a b = true :=
    List.pairwise_mergeSort
      (fun a b c hab hbc => by rw [rangeLe_iff] at hab hbc ⊢; omega)
      (fun a b => by rw [Bool.or_eq_true, rangeLe_iff, rangeLe_iff]; omega) given
  have hstarts : (given.mergeSort rangeLe).Pairwise fun a b => a.1 ≤ b.1 :=
    hsorted.imp fun hle => by rw [rangeLe_iff] at hle; omega
  unfold merged
  split
  · rename_i hnil
    rw [hnil] at hperm
    exact .inl ⟨List.nil_perm.mp hperm, rfl⟩
  · rename_i first rest hcons
    rw [hcons] at hperm hstarts
    exact .inr ⟨first, rest, hperm, hstarts, rfl⟩

/-- In their normal form, ranges hold what they held. -/
theorem holds_merged (given : List CodeRange) (code : Nat) :
    (merged given).any (rangeHolds code) = given.any (rangeHolds code) := by
  rcases merged_cases given with ⟨rfl, hmerged⟩ | ⟨first, rest, hperm, hsorted, hmerged⟩
  · rw [hmerged]
  · rw [hmerged, holds_joinSorted hsorted, hperm.any_eq]

theorem isProper_merged {given : List CodeRange} (h : ∀ range ∈ given, IsProper range) :
    ∀ range ∈ merged given, IsProper range := by
  rcases merged_cases given with ⟨rfl, hmerged⟩ | ⟨first, rest, hperm, -, hmerged⟩
  · rw [hmerged]
    exact fun range hrange => nomatch hrange
  · rw [hmerged]
    exact forall_joinSorted (fun _ _ => IsProper.join) fun range hrange =>
      h range (hperm.mem_iff.mp hrange)

theorem merged_ne_nil {given : List CodeRange} (h : given ≠ []) : merged given ≠ [] := by
  rcases merged_cases given with ⟨hnil, -⟩ | ⟨first, rest, -, -, hmerged⟩
  · exact absurd hnil h
  · rw [hmerged]
    exact joinSorted_ne_nil first rest

end Highlighter.Pattern
