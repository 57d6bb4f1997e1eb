import Highlighter.Proofs.Unicode.Case
import Highlighter.Regex.Class

/-!
# Word characters, digits and blanks come in no other case

What has another case form is a word character, no decimal digit and no
blank (`isWordChar_of_isCased`, `isDecimalDigit_of_isCased`,
`isBlank_of_isCased`). So a class with a letter of its own holds all
case variants of a character or none (`members_of_mem_variants`), and
letter case makes no difference to it.

That the table of categories says so is computed along both tables at
once: they are sorted (`runsAscend_runs`), and each row of other case
forms is covered by runs of categories (`casedWithin_runs`). A run that
is found by halving is the one that holds the code point
(`findRun_of_mem`).
-/

set_option autoImplicit false
set_option maxRecDepth 8000

namespace Highlighter.Unicode

/-! ### The table of categories -/

/-- The runs of the table, one after the other. -/
def runs : List CategoryRun :=
  categoryRuns1.toList ++ categoryRuns2.toList ++ categoryRuns3.toList ++ categoryRuns4.toList
    ++ categoryRuns5.toList

theorem toList_categoryRuns : categoryRuns.toList = runs := by
  unfold categoryRuns runs
  simp only [Array.toList_append]

/-- Whether runs come in increasing order, the first one from `least`
on. -/
def runsAscend (least : Nat) : List CategoryRun → Bool
  | [] => true
  | (first, last, _) :: rest => least.ble first && first.ble last && runsAscend (last + 1) rest

theorem runsAscend_runs : runsAscend 0 runs = true := by decide +kernel

/-- Runs in increasing order lie apart from each other. -/
theorem pairwise_of_runsAscend {least : Nat} {entries : List CategoryRun}
    (h : runsAscend least entries = true) :
    (∀ run ∈ entries, least ≤ run.1 ∧ run.1 ≤ run.2.1) ∧
      entries.Pairwise fun a b => a.2.1 < b.1 := by
  induction entries generalizing least with
  | nil => exact ⟨fun run hrun => (nomatch hrun), .nil⟩
  | cons run rest ih =>
    obtain ⟨first, last, label⟩ := run
    simp only [runsAscend, Bool.and_eq_true, Nat.ble_eq] at h
    obtain ⟨⟨hleast, hle⟩, hrest⟩ := h
    obtain ⟨hall, hpairs⟩ := ih hrest
    refine ⟨List.forall_mem_cons.mpr ⟨⟨hleast, hle⟩, fun run hrun => ?_⟩,
      List.pairwise_cons.mpr ⟨fun run hrun => ?_, hpairs⟩⟩
    · have := hall run hrun
      exact ⟨by omega, this.2⟩
    · have := hall run hrun
      show last < run.1
      omega

section

variable {entries : Array CategoryRun} {code : Nat} {run : CategoryRun}

/-- Where runs are in increasing order, halving finds the run that holds
a code point. -/
theorem findRun_of_getElem? (hle : ∀ run ∈ entries.toList, run.1 ≤ run.2.1)
    (hpairs : entries.toList.Pairwise fun a b => a.2.1 < b.1) {index : Nat}
    (hindex : entries[index]? = some run) (hfirst : run.1 ≤ code) (hlast : code ≤ run.2.1)
    {lo hi : Nat} (hlo : lo ≤ index) (hhi : index < hi) (hsize : hi ≤ entries.size) :
    findRun entries code lo hi = some run.2.2 := by
  -- Runs further on start after this one has stopped.
  have hbefore : ∀ {i j : Nat} {a b : CategoryRun}, entries[i]? = some a → entries[j]? = some b →
      i < j → a.2.1 < b.1 := by
    intro i j a b ha hb hij
    obtain ⟨hi, rfl⟩ := Array.getElem?_eq_some_iff.mp ha
    obtain ⟨hj, rfl⟩ := Array.getElem?_eq_some_iff.mp hb
    have := List.pairwise_iff_getElem.mp hpairs i j (by simpa using hi) (by simpa using hj) hij
    simpa using this
  have hproper : ∀ {i : Nat} {a : CategoryRun}, entries[i]? = some a → a.1 ≤ a.2.1 :=
    fun ha => hle _ (Array.mem_toList_iff.mpr (Array.mem_of_getElem? ha))
  fun_induction findRun entries code lo hi with
  | case1 lo hi hlt mid hnone =>
    have : mid < entries.size := by omega
    rw [Array.getElem?_eq_getElem this] at hnone
    cases hnone
  | case2 lo hi hlt mid first last label hmid hcode ih =>
    -- The run in the middle starts too late, and so do all after it.
    refine ih hlo ?_ (by omega)
    rcases Nat.lt_trichotomy index mid with hless | heq | hmore
    · exact hless
    · rw [heq, hmid] at hindex
      cases hindex
      exact absurd hfirst (Nat.not_le.mpr hcode)
    · have hstop := hbefore hmid hindex hmore
      have hfull := hproper hmid
      simp only at hstop hfull
      omega
  | case3 lo hi hlt mid first last label hmid hcode hcode' ih =>
    refine ih ?_ hhi hsize
    rcases Nat.lt_trichotomy index mid with hless | heq | hmore
    · have hstart := hbefore hindex hmid hless
      simp only at hstart
      omega
    · rw [heq, hmid] at hindex
      cases hindex
      exact absurd hlast (Nat.not_le.mpr hcode')
    · exact hmore
  | case4 lo hi hlt mid first last label hmid hcode hcode' =>
    rcases Nat.lt_trichotomy index mid with hless | heq | hmore
    · have hstart := hbefore hindex hmid hless
      simp only at hstart
      omega
    · rw [heq, hmid] at hindex
      cases hindex
      rfl
    · have hstop := hbefore hmid hindex hmore
      simp only at hstop
      omega
  | case5 lo hi hlt => omega

/-- The category of a code point is that of the run that holds it. -/
theorem category_of_mem (hrun : run ∈ runs) (hfirst : run.1 ≤ code) (hlast : code ≤ run.2.1) :
    category code = run.2.2 := by
  obtain ⟨hall, hpairs⟩ := pairwise_of_runsAscend runsAscend_runs
  rw [← toList_categoryRuns] at hall hpairs hrun
  unfold category
  generalize categoryRuns = entries at hall hpairs hrun
  obtain ⟨index, hindex⟩ := List.mem_iff_getElem?.mp hrun
  rw [Array.getElem?_toList] at hindex
  rw [findRun_of_getElem? (fun run hrun => (hall run hrun).2) hpairs hindex hfirst hlast
    (Nat.zero_le index) (Array.getElem?_eq_some_iff.mp hindex).1 (Nat.le_refl _)]
  rfl

end

/-! ### Other case forms -/

/-- Letters, marks and letter numbers. -/
def Category.isWordly (label : Category) : Bool :=
  label.group == .letter || label.group == .mark || label == .nl

/-- Whether one of some ranges holds all code points from the first one
up to the second one. -/
def coversAll (ranges : List (Nat × Nat)) (first last : Nat) : Bool :=
  ranges.any fun range => range.1.ble first && last.ble range.2

/-- The ranges of code points that a run of a category leaves, of those
that come in increasing order. What it covers must be alphabetic or a
mark, and no decimal digit, and nothing may come before the run. -/
def leftAfter? : CategoryRun → List (Nat × Nat) → Option (List (Nat × Nat))
  | _, [] => some []
  | (first, last, label), (lo, hi) :: ranges =>
    if last.blt lo then some ((lo, hi) :: ranges)
    else if first.ble lo && label != .nd &&
        (label.isWordly || coversAll Ranges.otherAlphabetic lo (min hi last)) then
      if hi.ble last then leftAfter? (first, last, label) ranges
      else some ((last + 1, hi) :: ranges)
    else none

/-- Whether runs of categories leave nothing of some ranges. -/
def casedWithin : List CategoryRun → List (Nat × Nat) → Bool
  | [], ranges => ranges.isEmpty
  | run :: rest, ranges =>
    match leftAfter? run ranges with
    | some left => casedWithin rest left
    | none => false

theorem casedWithin_runs : casedWithin runs casedRanges = true := by decide +kernel

/-- Whether a code point is alphabetic or a mark, and no decimal
digit. -/
def isWordlyCode (code : Nat) : Bool :=
  category code != .nd &&
    ((category code).isWordly || inRanges Ranges.otherAlphabetic code)

/-- Whether all code points of some ranges are alphabetic or marks, and
no decimal digits. -/
def AllWordly (ranges : List (Nat × Nat)) : Prop :=
  ∀ range ∈ ranges, ∀ code, range.1 ≤ code → code ≤ range.2 → isWordlyCode code = true

/-- What a run covers is as its category says. -/
theorem isWordlyCode_of_covers {first last lo hi code : Nat} {label : Category}
    (hrun : (first, last, label) ∈ runs)
    (h : (first.ble lo && label != .nd &&
      (label.isWordly || coversAll Ranges.otherAlphabetic lo (min hi last))) = true)
    (hlo : lo ≤ code) (hhi : code ≤ min hi last) : isWordlyCode code = true := by
  simp only [Bool.and_eq_true, Nat.ble_eq, bne_iff_ne, Bool.or_eq_true] at h
  obtain ⟨⟨hfirst, hdigit⟩, hword⟩ := h
  have hcategory : category code = label :=
    category_of_mem hrun (show first ≤ code by omega) (show code ≤ last by omega)
  unfold isWordlyCode
  rw [hcategory, bne_iff_ne.mpr hdigit, Bool.true_and, Bool.or_eq_true]
  refine hword.imp id fun hcovers => ?_
  obtain ⟨range, hrange, hwithin⟩ := List.any_eq_true.mp hcovers
  simp only [Bool.and_eq_true, Nat.ble_eq] at hwithin
  refine List.any_eq_true.mpr ⟨range, hrange, ?_⟩
  simp only [Bool.and_eq_true, decide_eq_true_eq]
  omega

/-- A run leaves only what it does not cover. -/
theorem allWordly_of_leftAfter {run : CategoryRun} (hrun : run ∈ runs)
    {ranges left : List (Nat × Nat)} (h : leftAfter? run ranges = some left)
    (hleft : AllWordly left) : AllWordly ranges := by
  fun_induction leftAfter? run ranges with
  | case1 => exact fun range hrange => nomatch hrange
  | case2 =>
    cases h
    exact hleft
  | case3 first last label lo hi ranges _ hcovers hdone ih =>
    have hstop := Nat.le_of_ble_eq_true hdone
    refine List.forall_mem_cons.mpr ⟨fun code hlo hhi => ?_, ih hrun h⟩
    simp only at hlo hhi
    exact isWordlyCode_of_covers hrun hcovers hlo (by omega)
  | case4 first last label lo hi ranges _ hcovers hopen =>
    cases h
    obtain ⟨hrest, hothers⟩ := List.forall_mem_cons.mp hleft
    refine List.forall_mem_cons.mpr ⟨fun code hlo hhi => ?_, hothers⟩
    simp only at hlo hhi
    by_cases hbefore : code ≤ last
    · exact isWordlyCode_of_covers hrun hcovers hlo (by omega)
    · exact hrest code (by show last + 1 ≤ code; omega) hhi
  | case5 => cases h

theorem allWordly_of_casedWithin {rest : List CategoryRun} {ranges : List (Nat × Nat)}
    (hrest : ∀ run ∈ rest, run ∈ runs) (h : casedWithin rest ranges = true) :
    AllWordly ranges := by
  induction rest generalizing ranges with
  | nil =>
    rw [casedWithin, List.isEmpty_iff] at h
    subst h
    exact fun range hrange => nomatch hrange
  | cons run rest ih =>
    obtain ⟨hrun, hothers⟩ := List.forall_mem_cons.mp hrest
    rw [casedWithin] at h
    split at h
    · rename_i left hleft
      exact allWordly_of_leftAfter hrun hleft (ih hothers h)
    · cases h

theorem isWordlyCode_of_isCasedCode {code : Nat} (h : isCasedCode code = true) :
    isWordlyCode code = true := by
  obtain ⟨range, hmem, hrange⟩ := List.any_eq_true.mp h
  simp only [Bool.and_eq_true, decide_eq_true_eq] at hrange
  exact allWordly_of_casedWithin (fun run hrun => hrun) casedWithin_runs range hmem code
    hrange.1 hrange.2

/-- The alphanumeric code points of ASCII are its letters and digits. -/
theorem isAlphanumeric_ascii {code : Nat} (h : code < 0x80) :
    isAlphanumeric code = (Char.ofNat code).isAlphanum := by
  have hall : (List.range 0x80).all (fun code => runs.any fun run =>
      run.1.ble code && code.ble run.2.1 &&
        ((run.2.2.group == .letter || run.2.2 == .nl || inRanges Ranges.otherAlphabetic code ||
          run.2.2.group == .number) == (Char.ofNat code).isAlphanum)) = true := by decide +kernel
  obtain ⟨run, hrun, hholds⟩ :=
    List.any_eq_true.mp (List.all_eq_true.mp hall code (List.mem_range.mpr h))
  simp only [Bool.and_eq_true, beq_iff_eq, Nat.ble_eq] at hholds
  obtain ⟨⟨hfirst, hlast⟩, hlabel⟩ := hholds
  rw [← hlabel, ← category_of_mem hrun hfirst hlast]
  rfl

/-- The letters of ASCII come after its digits. -/
theorem le_code_of_isAlpha {c : Char} (h : c.isAlpha = true) : 0x41 ≤ c.toNat := by
  rcases Bool.or_eq_true_iff.mp h with hupper | hlower
  · change decide (c.val ≥ 'A'.val ∧ c.val ≤ 'Z'.val) = true at hupper
    exact UInt32.le_iff_toNat_le.mp (of_decide_eq_true hupper).1
  · change (decide (c.val ≥ 'a'.val) && decide (c.val ≤ 'z'.val)) = true at hlower
    exact Nat.le_trans (by decide : 0x41 ≤ 0x61)
      (UInt32.le_iff_toNat_le.mp (of_decide_eq_true (Bool.and_eq_true_iff.mp hlower).1))

/-- The ASCII characters with another case form are the letters. -/
theorem isAlpha_of_isCased {c : Char} (h : isCased c = true) (hascii : c.val < 0x80) :
    c.isAlpha = true := by
  have hrows : ∀ range ∈ casedRanges, range.1 < 0x80 →
      range = (0x41, 0x5A) ∨ range = (0x61, 0x7A) := by decide +kernel
  obtain ⟨range, hmem, hrange⟩ := List.any_eq_true.mp h
  simp only [Bool.and_eq_true, decide_eq_true_eq] at hrange
  have hcode : c.toNat < 0x80 := hascii
  refine Bool.or_eq_true_iff.mpr ?_
  rcases hrows range hmem (by omega) with rfl | rfl
  · left
    change decide (c.val ≥ 'A'.val ∧ c.val ≤ 'Z'.val) = true
    simpa [UInt32.le_iff_toNat_le] using hrange
  · right
    change (decide (c.val ≥ 'a'.val) && decide (c.val ≤ 'z'.val)) = true
    simpa [UInt32.le_iff_toNat_le] using hrange

end Highlighter.Unicode

namespace Highlighter

open Unicode

theorem isWordChar_of_isCased {c : Char} (h : isCased c = true) : isWordChar c = true := by
  unfold isWordChar
  by_cases hascii : c.val < 0x80
  · rw [if_pos hascii]
    unfold isAsciiWord Char.isAlphanum
    rw [isAlpha_of_isCased h hascii]
    rfl
  · rw [if_neg hascii]
    have hword : isWordlyCode c.toNat = true := isWordlyCode_of_isCasedCode h
    unfold isWordlyCode at hword
    generalize category c.toNat = found at hword ⊢
    rcases Bool.or_eq_true_iff.mp (Bool.and_eq_true_iff.mp hword).2 with hwordly | halpha
    · -- Letters, marks and letter numbers are among the word characters.
      cases found <;> first
        | exact absurd hwordly (by decide)
        | rfl
    · rw [halpha]
      cases found <;> rfl

theorem isDecimalDigit_of_isCased {c : Char} (h : isCased c = true) : isDecimalDigit c = false := by
  unfold isDecimalDigit
  by_cases hascii : c.val < 0x80
  · rw [if_pos hascii]
    have hle : 0x41 ≤ c.toNat := le_code_of_isAlpha (isAlpha_of_isCased h hascii)
    refine Bool.and_eq_false_iff.mpr (.inr (decide_eq_false fun hdigit => ?_))
    exact absurd (Nat.le_trans hle (UInt32.le_iff_toNat_le.mp hdigit)) (by decide)
  · rw [if_neg hascii]
    have hword : isWordlyCode c.toNat = true := isWordlyCode_of_isCasedCode h
    simp only [isWordlyCode, Bool.and_eq_true, bne_iff_ne] at hword
    exact beq_eq_false_iff_ne.mpr hword.1

theorem isBlank_of_isCased {c : Char} (h : isCased c = true) : isBlank c = false := by
  have hapart : ∀ cased ∈ casedRanges, ∀ blank ∈ Ranges.whiteSpace,
      cased.2 < blank.1 ∨ blank.2 < cased.1 := by decide +kernel
  obtain ⟨range, hmem, hrange⟩ := List.any_eq_true.mp h
  simp only [Bool.and_eq_true, decide_eq_true_eq] at hrange
  refine List.any_eq_false.mpr fun blank hblank => ?_
  simp only [Bool.and_eq_true, decide_eq_true_eq]
  have := hapart range hmem blank hblank
  omega

namespace Regex

/-- A class with a letter of its own holds all case variants of a
character, or none of them. -/
theorem ShortClass.members_of_mem_variants (kind : ShortClass) {c : Char} {code : Nat}
    (h : code ∈ variants c.toNat) :
    kind.members true (Char.ofNat code) = kind.members true c := by
  by_cases heq : code = c.toNat
  · rw [heq, Char.ofNat_toNat]
  · obtain ⟨hcased, hother⟩ := isCased_of_mem_variants h heq
    have hcased' : isCased (Char.ofNat code) = true := by
      unfold isCased
      rwa [toNat_ofNat_of_mem_variants h]
    unfold members
    cases kind with
    | digit =>
      simp only [if_true]
      rw [isDecimalDigit_of_isCased hcased', isDecimalDigit_of_isCased hcased]
    | space =>
      simp only [if_true]
      rw [isBlank_of_isCased hcased', isBlank_of_isCased hcased]
    | word =>
      simp only [if_true]
      rw [isWordChar_of_isCased hcased', isWordChar_of_isCased hcased]

end Regex

end Highlighter
