import Highlighter.Unicode.Case

/-!
# Case variants and other case forms

`Unicode.variants` and `Unicode.isCased` come from different tables.
What ties them is that only characters with another case form have case
variants: `mem_variants_of_not_isCased` for a character, and
`isCased_of_mem_variants` for the variants themselves.

The variants of the ASCII letters are told in full (`variants_letter`).
The other way round, two characters outside ASCII have variants inside
it (`of_mem_variants_ascii`).
-/

set_option autoImplicit false
set_option maxRecDepth 8000

namespace Highlighter.Unicode

/-! ### What the tables hold -/

/-- Whether a code point has another case form. -/
def isCasedCode (code : Nat) : Bool :=
  casedRanges.any fun (first, last) => first ≤ code && code ≤ last

/-- Whether one row of the table of other case forms holds a range. -/
def isCasedRange (start stop : Nat) : Bool :=
  casedRanges.any fun range => range.1.ble start && stop.ble range.2

/-- The smaller members of the pairs of a run. -/
def FoldRun.members (run : FoldRun) : List Nat :=
  (List.range ((run.last - run.first) / run.step + 1)).map fun index =>
    run.first + index * run.step

/-- Whether all pairs of a run have other case forms. Most runs lie in
one row of the table, and so do their other members. -/
def FoldRun.isCased (run : FoldRun) : Bool :=
  isCasedRange run.first run.last &&
      isCasedRange (run.first + run.distance) (run.last + run.distance) ||
    run.members.all fun code =>
      isCasedRange code code && isCasedRange (code + run.distance) (code + run.distance)

theorem isCased_foldRuns : ∀ run ∈ foldRuns, 0 < run.step ∧ run.isCased = true := by
  decide +kernel

theorem isCased_foldClasses :
    ∀ members ∈ foldClasses, ∀ code ∈ members, isCasedRange code code = true := by
  decide

/-- No row of the table holds a code that is no character. -/
theorem valid_casedRanges :
    ∀ range ∈ casedRanges, range.2 < 0xD800 ∨ 0xDFFF < range.1 ∧ range.2 < 0x110000 := by
  decide

theorem isCasedCode_of_range {start stop code : Nat} (h : isCasedRange start stop = true)
    (hle : start ≤ code) (hle' : code ≤ stop) : isCasedCode code = true := by
  obtain ⟨range, hmem, hrange⟩ := List.any_eq_true.mp h
  obtain ⟨hfirst, hlast⟩ := Bool.and_eq_true_iff.mp hrange
  have hfirst := Nat.le_of_ble_eq_true hfirst
  have hlast := Nat.le_of_ble_eq_true hlast
  refine List.any_eq_true.mpr ⟨range, hmem, ?_⟩
  simp only [Bool.and_eq_true, decide_eq_true_eq]
  omega

/-- What has another case form is a character. -/
theorem isValidChar_of_isCasedCode {code : Nat} (h : isCasedCode code = true) :
    code.isValidChar := by
  obtain ⟨range, hmem, hrange⟩ := List.any_eq_true.mp h
  simp only [Bool.and_eq_true, decide_eq_true_eq] at hrange
  have hvalid := valid_casedRanges range hmem
  unfold Nat.isValidChar
  omega

/-! ### Variants -/

theorem FoldRun.isCased_of_holds {run : FoldRun} (hrun : run ∈ foldRuns) {code : Nat}
    (h : run.holds code = true) :
    isCasedCode code = true ∧ isCasedCode (code + run.distance) = true := by
  obtain ⟨hstep, hcased⟩ := isCased_foldRuns run hrun
  simp only [FoldRun.holds, Bool.and_eq_true, decide_eq_true_eq, beq_iff_eq] at h
  obtain ⟨⟨hfirst, hlast⟩, hmod⟩ := h
  rcases Bool.or_eq_true_iff.mp hcased with hrow | hall
  · obtain ⟨hlower, hupper⟩ := Bool.and_eq_true_iff.mp hrow
    exact ⟨isCasedCode_of_range hlower hfirst hlast,
      isCasedCode_of_range hupper (by omega) (by omega)⟩
  · -- The code is that of a member, by its number in the run.
    have hmem : code ∈ run.members := by
      refine List.mem_map.mpr ⟨(code - run.first) / run.step, ?_, ?_⟩
      · exact List.mem_range.mpr (Nat.lt_succ_of_le (Nat.div_le_div_right (by omega)))
      · rw [Nat.div_mul_cancel (Nat.dvd_of_mod_eq_zero hmod)]
        omega
    obtain ⟨hlower, hupper⟩ := Bool.and_eq_true_iff.mp (List.all_eq_true.mp hall code hmem)
    exact ⟨isCasedCode_of_range hlower (Nat.le_refl _) (Nat.le_refl _),
      isCasedCode_of_range hupper (Nat.le_refl _) (Nat.le_refl _)⟩

/-- The two members of a pair. -/
theorem FoldRun.of_partner {run : FoldRun} {code other : Nat} (h : run.partner? code = some other) :
    (run.holds code = true ∧ other = code + run.distance) ∨
      run.holds other = true ∧ code = other + run.distance := by
  unfold FoldRun.partner? at h
  split at h
  · rename_i hholds
    exact .inl ⟨hholds, (Option.some.inj h).symm⟩
  · split at h
    · rename_i hholds
      simp only [Bool.and_eq_true, decide_eq_true_eq] at hholds
      cases h
      exact .inr ⟨hholds.2, by omega⟩
    · cases h

/-- What makes a code point a variant of another one. -/
theorem of_mem_variants {code other : Nat} (h : other ∈ variants code) :
    other = code ∨ (∃ members ∈ foldClasses, code ∈ members ∧ other ∈ members) ∨
      ∃ run ∈ foldRuns, run.partner? code = some other := by
  unfold variants at h
  split at h
  · exact .inl (List.mem_singleton.mp h)
  · split at h
    · rename_i members hfind
      exact .inr (.inl ⟨members, List.mem_of_find?_eq_some hfind,
        List.contains_iff_mem.mp (List.find?_some (p := fun members : List Nat => members.contains code) hfind), h⟩)
    · split at h
      · rename_i partner hpartner
        obtain ⟨run, hrun, hsome⟩ := List.exists_of_findSome?_eq_some hpartner
        rcases List.mem_cons.mp h with rfl | hother
        · exact .inl rfl
        · cases List.mem_singleton.mp hother
          exact .inr (.inr ⟨run, hrun, hsome⟩)
      · exact .inl (List.mem_singleton.mp h)

/-- Variants of each other have other case forms. -/
theorem isCased_of_mem_variants {code other : Nat} (h : other ∈ variants code) (hne : other ≠ code) :
    isCasedCode code = true ∧ isCasedCode other = true := by
  rcases of_mem_variants h with heq | ⟨members, hmembers, hcode, hother⟩ | ⟨run, hrun, hpartner⟩
  · exact absurd heq hne
  · have hcased := isCased_foldClasses members hmembers
    exact ⟨isCasedCode_of_range (hcased code hcode) (Nat.le_refl _) (Nat.le_refl _),
      isCasedCode_of_range (hcased other hother) (Nat.le_refl _) (Nat.le_refl _)⟩
  · rcases FoldRun.of_partner hpartner with ⟨hholds, rfl⟩ | ⟨hholds, rfl⟩
    · exact FoldRun.isCased_of_holds hrun hholds
    · exact (FoldRun.isCased_of_holds hrun hholds).symm

/-- A code point is among its variants. -/
theorem self_mem_variants (code : Nat) : code ∈ variants code := by
  unfold variants
  split
  · exact List.mem_singleton_self code
  · split
    · rename_i members hfind
      exact List.contains_iff_mem.mp (List.find?_some (p := fun members : List Nat => members.contains code) hfind)
    · split
      · exact List.mem_cons_self
      · exact List.mem_singleton_self code

/-- Without another case form, a character has no variants but itself. -/
theorem mem_variants_of_not_isCased {code : Nat} (h : isCasedCode code = false) {other : Nat} :
    other ∈ variants code ↔ other = code := by
  constructor
  · intro hmem
    by_cases heq : other = code
    · exact heq
    · exact absurd ((isCased_of_mem_variants hmem heq).1.symm.trans h) (by decide)
  · rintro rfl
    exact self_mem_variants other

theorem toNat_ofNat {code : Nat} (h : code.isValidChar) : (Char.ofNat code).toNat = code := by
  unfold Char.ofNat
  rw [dif_pos h]
  rfl

/-- The variants of a character are characters. -/
theorem toNat_ofNat_of_mem_variants {c : Char} {code : Nat} (h : code ∈ variants c.toNat) :
    (Char.ofNat code).toNat = code := by
  by_cases heq : code = c.toNat
  · rw [heq, Char.ofNat_toNat]
  · exact toNat_ofNat (isValidChar_of_isCasedCode (isCased_of_mem_variants h heq).2)

/-! ### ASCII -/

/-- The variant outside ASCII of a letter, by the letter's place in the
alphabet: the Kelvin sign and the long s. -/
def outsideAscii : Nat → List Nat
  | 10 => [0x212A]
  | 18 => [0x17F]
  | _ => []

/-- The variants of the letters, by their places in the alphabet. -/
theorem variants_letter : ∀ index < 26,
    (variants (0x41 + index)).Perm ((0x41 + index) :: (0x61 + index) :: outsideAscii index) ∧
      (variants (0x61 + index)).Perm ((0x41 + index) :: (0x61 + index) :: outsideAscii index) := by
  decide

theorem mem_variants_letter {index code other : Nat} (hindex : index < 26)
    (hcode : code = 0x41 + index ∨ code = 0x61 + index) :
    other ∈ variants code
      ↔ other = 0x41 + index ∨ other = 0x61 + index ∨ other ∈ outsideAscii index := by
  obtain ⟨hupper, hlower⟩ := variants_letter index hindex
  rcases hcode with rfl | rfl
  · rw [hupper.mem_iff, List.mem_cons, List.mem_cons]
  · rw [hlower.mem_iff, List.mem_cons, List.mem_cons]

/-- The Kelvin sign is a letter in another form. -/
theorem variants_kelvin : variants 0x212A = variants 0x6B := rfl

/-- So is the long s. -/
theorem variants_longS : variants 0x17F = variants 0x73 := rfl

theorem le_of_mem_outsideAscii {index code : Nat} (h : code ∈ outsideAscii index) : 0x80 ≤ code := by
  unfold outsideAscii at h
  split at h
  · cases List.mem_singleton.mp h
    decide
  · cases List.mem_singleton.mp h
    decide
  · cases h

/-- The ASCII characters that are no letters have no case variants. -/
theorem variants_of_not_alpha {code : Nat} (h : code < 0x80)
    (halpha : ¬(0x41 ≤ code ∧ code ≤ 0x5A)) (halpha' : ¬(0x61 ≤ code ∧ code ≤ 0x7A)) :
    variants code = [code] := by
  by_cases hlow : code < 0x41
  · rw [variants, if_pos hlow]
  · have hcases : code = 0x5B ∨ code = 0x5C ∨ code = 0x5D ∨ code = 0x5E ∨ code = 0x5F ∨
        code = 0x60 ∨ code = 0x7B ∨ code = 0x7C ∨ code = 0x7D ∨ code = 0x7E ∨ code = 0x7F := by
      omega
    rcases hcases with rfl | rfl | rfl | rfl | rfl | rfl | rfl | rfl | rfl | rfl | rfl <;> rfl

/-- What has a variant inside ASCII. -/
theorem of_mem_variants_ascii {code other : Nat} (h : other ∈ variants code)
    (hascii : other < 0x80) : code < 0x80 ∨ code = 0x17F ∨ code = 0x212A := by
  have hclasses : ∀ members ∈ foldClasses, ∀ other ∈ members, other < 0x80 →
      ∀ code ∈ members, code < 0x80 ∨ code = 0x17F ∨ code = 0x212A := by decide
  have hruns : ∀ run ∈ foldRuns, run.first < 0x80 → run.last + run.distance < 0x80 := by
    decide
  rcases of_mem_variants h with rfl | ⟨members, hmembers, hcode, hother⟩ | ⟨run, hrun, hpartner⟩
  · exact .inl hascii
  · exact hclasses members hmembers other hother hascii code hcode
  · left
    rcases FoldRun.of_partner hpartner with ⟨hholds, rfl⟩ | ⟨hholds, rfl⟩
    · omega
    · simp only [FoldRun.holds, Bool.and_eq_true, decide_eq_true_eq] at hholds
      have hlast := hruns run hrun (by omega)
      omega

end Highlighter.Unicode
