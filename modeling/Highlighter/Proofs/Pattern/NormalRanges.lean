import Highlighter.Proofs.Pattern.CaseFold

/-!
# Folded ranges in normal form

Ranges are in normal form (`IsNormal`) when each of them is in order, they are sorted, and there is
a gap between any two. Sorted ranges that are joined are (`isNormal_joinSorted`): the induction is
along `joinSorted`, and what carries it is that no joined range starts before the one at hand.
Code points have one normal form only (`IsNormal.eq_of_holds`), so what `merged` gives depends on
the code points that are held, and not on the ranges that hold them (`merged_eq_merged_iff`).

`foldedRanges_exact` puts this together with what `closed` adds. As long as all codes are ASCII, the
ranges that a folded class is written with are the normal form of the case variants of what its
members list. `CaseReached` spells the variants out, letter by letter, without the tables.
-/

set_option autoImplicit false

namespace Highlighter.Pattern

/-! ### Normal forms -/

/-- Ranges in order, sorted, apart from each other, and none next to another. -/
structure IsNormal (ranges : List CodeRange) : Prop where
  start_le : ∀ range ∈ ranges, range.1 ≤ range.2
  apart : ranges.Pairwise fun a b => a.2 + 1 < b.1

theorem isNormal_nil : IsNormal [] :=
  ⟨fun _ hrange => absurd hrange List.not_mem_nil, .nil⟩

theorem isNormal_cons {range : CodeRange} {rest : List CodeRange} :
    IsNormal (range :: rest) ↔
      range.1 ≤ range.2 ∧ (∀ other ∈ rest, range.2 + 1 < other.1) ∧ IsNormal rest := by
  constructor
  · intro h
    obtain ⟨hrange, hrest⟩ := List.forall_mem_cons.mp h.start_le
    obtain ⟨hgap, hapart⟩ := List.pairwise_cons.mp h.apart
    exact ⟨hrange, hgap, hrest, hapart⟩
  · rintro ⟨hrange, hgap, hrest⟩
    exact ⟨List.forall_mem_cons.mpr ⟨hrange, hrest.start_le⟩,
      List.pairwise_cons.mpr ⟨hgap, hrest.apart⟩⟩

/-- Sorted ranges that are joined are in normal form. -/
theorem isNormal_joinSorted {current : CodeRange} {rest : List CodeRange}
    (hsorted : (current :: rest).Pairwise fun a b => a.1 ≤ b.1)
    (horder : ∀ range ∈ current :: rest, range.1 ≤ range.2) :
    IsNormal (joinSorted current rest) := by
  induction rest generalizing current with
  | nil => exact ⟨horder, List.pairwise_singleton _ _⟩
  | cons next rest ih =>
    obtain ⟨hcurrent, horder⟩ := List.forall_mem_cons.mp horder
    rw [joinSorted]
    by_cases htouch : next.1 ≤ current.2 + 1
    · rw [if_pos htouch]
      refine ih (sorted_join hsorted) (List.forall_mem_cons.mpr ⟨?_, fun range hrange =>
        horder range (List.mem_cons_of_mem next hrange)⟩)
      exact Nat.le_trans hcurrent (Nat.le_max_left _ _)
    · rw [if_neg htouch]
      have hrest := (List.pairwise_cons.mp hsorted).2
      -- Whatever is joined later starts where the next range does, or after that.
      have hlater : ∀ range ∈ joinSorted next rest, next.1 ≤ range.1 :=
        forall_joinSorted (fun _ _ hfirst _ => hfirst)
          (List.forall_mem_cons.mpr ⟨Nat.le_refl _, (List.pairwise_cons.mp hrest).1⟩)
      refine isNormal_cons.mpr ⟨hcurrent, fun range hrange => ?_, ih hrest horder⟩
      exact Nat.lt_of_lt_of_le (Nat.lt_of_not_le htouch) (hlater range hrange)

theorem isNormal_merged {given : List CodeRange} (h : ∀ range ∈ given, range.1 ≤ range.2) :
    IsNormal (merged given) := by
  rcases merged_cases given with ⟨rfl, hmerged⟩ | ⟨first, rest, hperm, hsorted, hmerged⟩
  · rw [hmerged]
    exact isNormal_nil
  · rw [hmerged]
    exact isNormal_joinSorted hsorted fun range hrange => h range (hperm.mem_iff.mp hrange)

/-! ### One normal form -/

section Unique

variable {range other : CodeRange} {rest others : List CodeRange}

/-- The first range holds the least code point. -/
theorem IsNormal.start_le_of_holds (h : IsNormal (range :: rest)) {code : Nat}
    (hcode : (range :: rest).any (rangeHolds code) = true) : range.1 ≤ code := by
  obtain ⟨hrange, hgap, -⟩ := isNormal_cons.mp h
  obtain ⟨found, hfound, hholds⟩ := List.any_eq_true.mp hcode
  obtain ⟨hstart, -⟩ := rangeHolds_iff.mp hholds
  rcases List.mem_cons.mp hfound with rfl | hrest
  · exact hstart
  · have hlt := hgap found hrest
    omega

/-- Up to the gap after the first range, the first range decides. -/
theorem IsNormal.holds_iff_of_le (h : IsNormal (range :: rest)) {code : Nat}
    (hcode : code ≤ range.2 + 1) :
    (range :: rest).any (rangeHolds code) = true ↔ range.1 ≤ code ∧ code ≤ range.2 := by
  obtain ⟨-, hgap, -⟩ := isNormal_cons.mp h
  rw [List.any_cons, Bool.or_eq_true, rangeHolds_iff]
  refine or_iff_left fun hrest => ?_
  obtain ⟨found, hfound, hholds⟩ := List.any_eq_true.mp hrest
  have hlt := hgap found hfound
  have hstart := (rangeHolds_iff.mp hholds).1
  omega

/-- The first range does not reach beyond the first range of a normal form of more code points. -/
theorem IsNormal.stop_le (hfirst : IsNormal (range :: rest)) (hsecond : IsNormal (other :: others))
    (hstart : range.1 = other.1)
    (h : ∀ code, (range :: rest).any (rangeHolds code) = true →
      (other :: others).any (rangeHolds code) = true) : range.2 ≤ other.2 := by
  refine Nat.le_of_not_lt fun hlt => ?_
  have horder := (isNormal_cons.mp hsecond).1
  have hholds := h (other.2 + 1) ((hfirst.holds_iff_of_le (by omega)).mpr (by omega))
  have hnone := ((hsecond.holds_iff_of_le (Nat.le_refl _)).mp hholds).2
  omega

theorem IsNormal.holds_start (h : IsNormal (range :: rest)) :
    (range :: rest).any (rangeHolds range.1) = true :=
  List.any_eq_true.mpr ⟨range, List.mem_cons_self,
    rangeHolds_iff.mpr ⟨Nat.le_refl _, (isNormal_cons.mp h).1⟩⟩

/-- After the first range, the rest holds what lies above it. -/
theorem IsNormal.any_rest (h : IsNormal (range :: rest)) (code : Nat) :
    rest.any (rangeHolds code)
      = ((range :: rest).any (rangeHolds code) && decide (range.2 < code)) := by
  obtain ⟨-, hgap, -⟩ := isNormal_cons.mp h
  rw [Bool.eq_iff_iff, Bool.and_eq_true, decide_eq_true_eq, List.any_cons, Bool.or_eq_true,
    rangeHolds_iff]
  constructor
  · intro hrest
    obtain ⟨found, hfound, hholds⟩ := List.any_eq_true.mp hrest
    have hlt := hgap found hfound
    have hstart := (rangeHolds_iff.mp hholds).1
    exact ⟨.inr hrest, by omega⟩
  · rintro ⟨hfirst | hrest, habove⟩
    · exact absurd hfirst.2 (Nat.not_le_of_lt habove)
    · exact hrest

/-- Code points are held by one normal form only. -/
theorem IsNormal.eq_of_holds {first second : List CodeRange} (hfirst : IsNormal first)
    (hsecond : IsNormal second)
    (h : ∀ code, first.any (rangeHolds code) = second.any (rangeHolds code)) : first = second := by
  induction first generalizing second with
  | nil =>
    cases second with
    | nil => rfl
    | cons other others => exact absurd ((h other.1).trans hsecond.holds_start) Bool.false_ne_true
  | cons range rest ih =>
    cases second with
    | nil => exact absurd ((h range.1).symm.trans hfirst.holds_start) Bool.false_ne_true
    | cons other others =>
      have hstart : range.1 = other.1 := Nat.le_antisymm
        (hfirst.start_le_of_holds ((h other.1).trans hsecond.holds_start))
        (hsecond.start_le_of_holds ((h range.1).symm.trans hfirst.holds_start))
      have hstop : range.2 = other.2 := Nat.le_antisymm
        (hfirst.stop_le hsecond hstart fun code hcode => (h code).symm.trans hcode)
        (hsecond.stop_le hfirst hstart.symm fun code hcode => (h code).trans hcode)
      -- The first ranges are the same, and both rests hold what lies above them.
      obtain rfl : range = other := Prod.ext hstart hstop
      refine congrArg (range :: ·) (ih (isNormal_cons.mp hfirst).2.2
        (isNormal_cons.mp hsecond).2.2 fun code => ?_)
      rw [hfirst.any_rest, hsecond.any_rest, h]

end Unique

/-- Ranges that hold the same code points have the same normal form. -/
theorem merged_eq_merged_iff {given other : List CodeRange}
    (hgiven : ∀ range ∈ given, range.1 ≤ range.2) (hother : ∀ range ∈ other, range.1 ≤ range.2) :
    merged given = merged other ↔
      ∀ code, given.any (rangeHolds code) = other.any (rangeHolds code) := by
  constructor
  · intro heq code
    rw [← holds_merged given, heq, holds_merged]
  · intro h
    refine (isNormal_merged hgiven).eq_of_holds (isNormal_merged hother) fun code => ?_
    rw [holds_merged, holds_merged, h]

/-! ### The case variants of what is listed -/

/-- The code points with a variant in the given ranges, letter by letter: the given ones, their
letters in both cases, and two characters outside ASCII. -/
inductive CaseReached (given : List CodeRange) : Nat → Prop where
  | given {code : Nat} (h : given.any (rangeHolds code) = true) : CaseReached given code
  | lower {code : Nat} (hletter : 0x41 ≤ code ∧ code ≤ 0x5A)
      (h : given.any (rangeHolds code) = true) : CaseReached given (code + 0x20)
  | upper {code : Nat} (hletter : 0x61 ≤ code ∧ code ≤ 0x7A)
      (h : given.any (rangeHolds code) = true) : CaseReached given (code - 0x20)
  | kelvin {code : Nat} (hletter : code = 0x4B ∨ code = 0x6B)
      (h : given.any (rangeHolds code) = true) : CaseReached given 0x212A
  | longS {code : Nat} (hletter : code = 0x53 ∨ code = 0x73)
      (h : given.any (rangeHolds code) = true) : CaseReached given 0x17F

section CaseReached

variable {given : List CodeRange}

/-- A small letter is held with the other case if either letter is given. -/
theorem holds_both_lower {lower : Nat} (hlower : 0x61 ≤ lower ∧ lower ≤ 0x7A) :
    (given.flatMap withOtherCase).any (rangeHolds lower) = true ↔
      given.any (rangeHolds (lower - 0x20)) = true ∨ given.any (rangeHolds lower) = true := by
  have hupper :
      ¬((0x41 ≤ lower ∧ lower ≤ 0x5A) ∧ given.any (rangeHolds (lower + 0x20)) = true) := by
    omega
  rw [holds_both, and_iff_right hlower, or_iff_left hupper, or_comm]

theorem caseReached_of_holds_both {code : Nat}
    (h : (given.flatMap withOtherCase).any (rangeHolds code) = true) : CaseReached given code := by
  rcases (holds_both code).mp h with hgiven | ⟨hlower, hgiven⟩ | ⟨hupper, hgiven⟩
  · exact .given hgiven
  · have hreached := CaseReached.lower (by omega) hgiven
    rwa [Nat.sub_add_cancel (by omega)] at hreached
  · have hreached := CaseReached.upper (by omega) hgiven
    rwa [Nat.add_sub_cancel] at hreached

/-- What the ranges with all case variants hold, for any given ranges. -/
theorem holds_closed_iff_caseReached (code : Nat) :
    (closed given).any (rangeHolds code) = true ↔ CaseReached given code := by
  have hk : 0x61 ≤ 0x6B ∧ 0x6B ≤ 0x7A := by decide
  have hs : 0x61 ≤ 0x73 ∧ 0x73 ≤ 0x7A := by decide
  rw [holds_closed_iff, holds_both_lower hk, holds_both_lower hs]
  constructor
  · rintro (h | ⟨rfl, h⟩ | ⟨rfl, h⟩)
    · exact caseReached_of_holds_both h
    · exact h.elim (.kelvin (.inl rfl)) (.kelvin (.inr rfl))
    · exact h.elim (.longS (.inl rfl)) (.longS (.inr rfl))
  · intro h
    cases h with
    | given h => exact .inl ((holds_both code).mpr (.inl h))
    | @lower upper hletter h =>
      rw [holds_both, Nat.add_sub_cancel]
      exact .inl (.inr (.inl ⟨by omega, h⟩))
    | @upper lower hletter h =>
      rw [holds_both, Nat.sub_add_cancel (by omega)]
      exact .inl (.inr (.inr ⟨by omega, h⟩))
    | kelvin hletter h =>
      rcases hletter with rfl | rfl
      · exact .inr (.inl ⟨rfl, .inl h⟩)
      · exact .inr (.inl ⟨rfl, .inr h⟩)
    | longS hletter h =>
      rcases hletter with rfl | rfl
      · exact .inr (.inr ⟨rfl, .inl h⟩)
      · exact .inr (.inr ⟨rfl, .inr h⟩)

/-- The variants of a given letter. -/
theorem caseReached_of_letter {index letter code : Nat} (hindex : index < 26)
    (hletter : letter = 0x41 + index ∨ letter = 0x61 + index)
    (hgiven : given.any (rangeHolds letter) = true) (hcode : code ∈ Unicode.variants letter) :
    CaseReached given code := by
  have hself : code = letter → CaseReached given code := by
    rintro rfl
    exact .given hgiven
  -- The variant in one case is the letter itself or the one across from it.
  rcases (Unicode.mem_variants_letter hindex hletter).mp hcode with hupper | hlower | houtside
  · by_cases heq : code = letter
    · exact hself heq
    · obtain rfl : code = letter - 0x20 := by omega
      exact .upper (by omega) hgiven
  · by_cases heq : code = letter
    · exact hself heq
    · obtain rfl : code = letter + 0x20 := by omega
      exact .lower (by omega) hgiven
  · unfold Unicode.outsideAscii at houtside
    split at houtside
    · cases List.mem_singleton.mp houtside
      exact .kelvin hletter hgiven
    · cases List.mem_singleton.mp houtside
      exact .longS hletter hgiven
    · cases houtside

/-- The letters tell what the tables tell, as long as what is given is ASCII. -/
theorem caseReached_iff_variants (h : ∀ range ∈ given, range.2 ≤ 0x7F) (code : Nat) :
    CaseReached given code ↔
      ∃ listed, given.any (rangeHolds listed) = true ∧ code ∈ Unicode.variants listed := by
  constructor
  · intro hreached
    cases hreached with
    | given hgiven => exact ⟨code, hgiven, Unicode.self_mem_variants code⟩
    | @lower upper hletter hgiven =>
      refine ⟨upper, hgiven, (Unicode.mem_variants_letter (show upper - 0x41 < 26 by omega)
        (.inl ?_)).mpr (.inr (.inl ?_))⟩ <;> omega
    | @upper lower hletter hgiven =>
      refine ⟨lower, hgiven, (Unicode.mem_variants_letter (show lower - 0x61 < 26 by omega)
        (.inr ?_)).mpr (.inl ?_)⟩ <;> omega
    | kelvin hletter hgiven =>
      have houtside : 0x212A ∈ Unicode.outsideAscii 10 := List.mem_singleton_self _
      exact ⟨_, hgiven,
        (Unicode.mem_variants_letter (by decide) hletter).mpr (.inr (.inr houtside))⟩
    | longS hletter hgiven =>
      have houtside : 0x17F ∈ Unicode.outsideAscii 18 := List.mem_singleton_self _
      exact ⟨_, hgiven,
        (Unicode.mem_variants_letter (by decide) hletter).mpr (.inr (.inr houtside))⟩
  · rintro ⟨listed, hgiven, hcode⟩
    have hle := le_of_holds h hgiven
    by_cases hupper : 0x41 ≤ listed ∧ listed ≤ 0x5A
    · have hindex : listed - 0x41 < 26 := by omega
      exact caseReached_of_letter hindex (.inl (by omega)) hgiven hcode
    · by_cases hlower : 0x61 ≤ listed ∧ listed ≤ 0x7A
      · have hindex : listed - 0x61 < 26 := by omega
        exact caseReached_of_letter hindex (.inr (by omega)) hgiven hcode
      · rw [Unicode.variants_of_not_alpha (Nat.lt_succ_of_le hle) hupper hlower] at hcode
        cases List.mem_singleton.mp hcode
        exact .given hgiven

end CaseReached

/-- Each code point among the members is in one of the ranges that they make. -/
theorem holds_ranges_of_code_mem {first : Bool} {items : List ClassItem} {value : Nat}
    (horder : ∀ range ∈ ranges first items, range.1 ≤ range.2) (h : .code value ∈ items) :
    (ranges first items).any (rangeHolds value) = true := by
  fun_induction ranges first items with
  | case1 => cases h
  | case2 first letter rest ih =>
    exact ih horder ((List.mem_cons.mp h).resolve_left (by simp))
  | _ =>
    -- The code is that of the first range, or it is found in the rest.
    rename_i ih
    obtain ⟨hrange, hrest⟩ := List.forall_mem_cons.mp horder
    rw [List.any_cons, Bool.or_eq_true, rangeHolds_iff]
    have ih := ih hrest
    simp only [List.mem_cons, ClassItem.code.injEq, reduceCtorEq, false_or] at h ih
    grind

/-- The ranges of a folded class are exact: they are in normal form, and they hold the case variants
of what the members list, which includes each code among them, and nothing else. -/
theorem merged_closed_exact {items : List ClassItem}
    (hascii : ∀ value, ClassItem.code value ∈ items → value ≤ 0x7F)
    (horder : ∀ range ∈ ranges true items, range.1 ≤ range.2) :
    IsNormal (merged (closed (ranges true items))) ∧
      (∀ code, (merged (closed (ranges true items))).any (rangeHolds code) = true ↔
        ∃ listed, (ranges true items).any (rangeHolds listed) = true ∧
          code ∈ Unicode.variants listed) ∧
      (∀ code, (merged (closed (ranges true items))).any (rangeHolds code) = true ↔
        CaseReached (ranges true items) code) ∧
      ∀ value, ClassItem.code value ∈ items →
        (ranges true items).any (rangeHolds value) = true := by
  have hstop : ∀ range ∈ ranges true items, range.2 ≤ 0x7F := stop_le_of_ascii hascii
  have hclosed : ∀ range ∈ closed (ranges true items), IsProper range :=
    isProper_closed fun range hrange =>
      isProper_of_ascii (horder range hrange) (hstop range hrange)
  refine ⟨isNormal_merged fun range hrange => (hclosed range hrange).start_le, fun code => ?_,
    fun code => ?_, fun value hvalue => holds_ranges_of_code_mem horder hvalue⟩
  · rw [holds_merged, holds_closed_iff_caseReached, caseReached_iff_variants hstop]
  · rw [holds_merged, holds_closed_iff_caseReached]

/-- A hyphen, a range over the gap between the letters, and one beyond the small letters. -/
def straddling : List ClassItem :=
  [.dash, .code 0x58, .dash, .code 0x63, .shorthand 'd', .code 0x4B, .code 0x72, .dash, .code 0x7B]

theorem merged_closed_straddling :
    (∀ value, ClassItem.code value ∈ straddling → value ≤ 0x7F) ∧
      (∀ range ∈ ranges true straddling, range.1 ≤ range.2) ∧
      merged (closed (ranges true straddling)) =
        [(0x2D, 0x2D), (0x41, 0x43), (0x4B, 0x4B), (0x52, 0x63), (0x6B, 0x6B), (0x72, 0x7B),
          (0x17F, 0x17F), (0x212A, 0x212A)] ∧
      ∃ listed, (ranges true straddling).any (rangeHolds listed) = true ∧
        0x212A ∈ Unicode.variants listed := by
  have hascii : ∀ value, ClassItem.code value ∈ straddling → value ≤ 0x7F := by
    simp [straddling]
  have horder : ∀ range ∈ ranges true straddling, range.1 ≤ range.2 := by
    decide
  obtain ⟨hnormal, hvariants, -, -⟩ := merged_closed_exact hascii horder
  have hmerged : merged (closed (ranges true straddling)) =
      [(0x2D, 0x2D), (0x41, 0x43), (0x4B, 0x4B), (0x52, 0x63), (0x6B, 0x6B), (0x72, 0x7B),
        (0x17F, 0x17F), (0x212A, 0x212A)] := by
    refine hnormal.eq_of_holds ⟨by decide, by decide⟩ fun code => ?_
    have hclosed : closed (ranges true straddling) =
        [(0x2D, 0x2D), (0x58, 0x63), (0x78, 0x7A), (0x41, 0x43), (0x4B, 0x4B), (0x6B, 0x6B),
          (0x72, 0x7B), (0x52, 0x5A), (0x212A, 0x212A), (0x17F, 0x17F)] := by
      decide
    rw [holds_merged, hclosed, Bool.eq_iff_iff]
    simp only [List.any_cons, List.any_nil, Bool.or_eq_true, rangeHolds_iff, Bool.false_eq_true,
      or_false]
    omega
  refine ⟨hascii, horder, hmerged, (hvariants 0x212A).mp ?_⟩
  rw [hmerged]
  decide

end Highlighter.Pattern
