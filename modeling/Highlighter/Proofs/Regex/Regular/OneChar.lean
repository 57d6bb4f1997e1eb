import Highlighter.Proofs.Regex.Regular.Quiet

/-!
# Texts of one character in the regular dialect

A text is one character (`ReadsChar`) if it is read as one item
wherever an item may start: the item matches the character, and what
comes after it is read as it would have been read after any other item.
So are a character that is written as it is (`readsChar_literal`), a
character after a backslash (`readsChar_escaped`) and one that is
written by its code (`readsChar_coded`).

Where letter case is spelt out, the item also matches the variants of
the character: an ASCII letter is the class of its variants
(`readsChar_letter`), and other texts stand in a group in which letter
case does not count (`ReadsChar.ignoring`).

All of this holds in verbose patterns too, as long as the text is not
passed over as blank.
-/

set_option autoImplicit false

namespace Highlighter.Regex

open Pattern Unicode

/-! ### What a character matches -/

/-- The mode in which a character of a member is matched. Where letter
case is spelt out, it does not count. -/
def foldedMode (folded : Bool) (mode : CharMode) : CharMode :=
  { mode with ignoreCase := folded || mode.ignoreCase }

/-- ASCII, and the characters outside of it that are variants of its
letters. -/
def nearAscii : List Nat := List.range 0x80 ++ [0x17F, 0x212A]

/-- All variants of a letter have the same variants. -/
theorem perm_variants : ∀ code ∈ nearAscii, ∀ other ∈ variants code,
    other ∈ nearAscii ∧ (variants other).Perm (variants code) := by
  decide +kernel

theorem mem_nearAscii_of_mem_variants {code other : Nat} (h : other ∈ variants code)
    (hother : other ∈ nearAscii) : code ∈ nearAscii := by
  have hclasses : ∀ members ∈ foldClasses, ∀ other ∈ [0x17F, 0x212A], other ∈ members →
      ∀ code ∈ members, code ∈ nearAscii := by decide +kernel
  have hruns : ∀ run ∈ foldRuns, ∀ other ∈ [0x17F, 0x212A],
      run.holds other = false ∧ run.holds (other - run.distance) = false := by decide +kernel
  rcases List.mem_append.mp hother with hascii | houtside
  · rcases of_mem_variants_ascii h (List.mem_range.mp hascii) with hcode | rfl | rfl
    · exact List.mem_append_left _ (List.mem_range.mpr hcode)
    · decide
    · decide
  · rcases of_mem_variants h with rfl | ⟨members, hmembers, hcode, hmem⟩ | ⟨run, hrun, hpartner⟩
    · exact hother
    · exact hclasses members hmembers other houtside hmem code hcode
    · obtain ⟨hup, hdown⟩ := hruns run hrun other houtside
      rcases FoldRun.of_partner hpartner with ⟨hholds, rfl⟩ | ⟨hholds, rfl⟩
      · rw [Nat.add_sub_cancel, hholds] at hdown
        cases hdown
      · rw [hholds] at hup
        cases hup

theorem isCaseClosed_of_letter {c : Char} (h : c.isAlpha = true) :
    CharSet.IsCaseClosed fun d => (variants c.toNat).contains d.toNat := by
  intro d code hcode
  rw [Bool.eq_iff_iff, List.contains_iff_mem, List.contains_iff_mem,
    toNat_ofNat_of_mem_variants hcode]
  have hnear : c.toNat ∈ nearAscii := by
    obtain ⟨index, hindex, rfl | rfl⟩ := exists_index_of_isAlpha h
    · rw [toNat_ofNat (.inl (by omega))]
      exact List.mem_append_left _ (List.mem_range.mpr (by omega))
    · rw [toNat_ofNat (.inl (by omega))]
      exact List.mem_append_left _ (List.mem_range.mpr (by omega))
  constructor
  · intro hmem
    obtain ⟨hnear', hperm⟩ := perm_variants _ hnear _ hmem
    obtain ⟨-, hperm'⟩ := perm_variants _ (mem_nearAscii_of_mem_variants hcode hnear') _ hcode
    exact (hperm'.symm.trans hperm).mem_iff.mp (self_mem_variants _)
  · intro hmem
    exact (perm_variants _ hnear _ hmem).2.mem_iff.mp hcode

/-- The class of a letter holds the variants of the letter. -/
theorem meaning_foldedLetter {c : Char} (h : c.isAlpha = true) (ignoreCase : Bool) :
    (listedClass false ((foldedLetter c).map .one)).meaning? ⟨ignoreCase, true⟩
      = some (CharSet.ofChar ⟨true, true⟩ c) := by
  obtain ⟨-, hholds⟩ := classLists_foldedLetter h
  rw [meaning_listedClass, Expr.ofChar_ignoring]
  unfold listedSet
  simp only [hholds, (isCaseClosed_of_letter h).fold_eq, Bool.bne_false]

/-- A character without variants is matched alike in all modes. -/
theorem ofChar_of_uncased {c : Char} (h : isCased c = false) (ignoreCase : Bool) :
    CharSet.ofChar ⟨true, true⟩ c = CharSet.ofChar ⟨ignoreCase, true⟩ c := by
  cases ignoreCase with
  | false => exact Expr.ofChar_of_not_isCased h
  | true => rfl

/-! ### Blanks -/

theorem length_skipVerbose_le (inComment : Bool) (cs : List Char) :
    (skipVerbose inComment cs).length ≤ cs.length := by
  induction cs generalizing inComment with
  | nil => exact Nat.le_refl _
  | cons c cs ih =>
    have hle : ∀ inComment, (skipVerbose inComment cs).length ≤ (c :: cs).length := fun inComment =>
      Nat.le_succ_of_le (ih inComment)
    unfold skipVerbose
    split
    · exact hle _
    · split
      · exact hle _
      · split
        · exact hle _
        · exact Nat.le_refl _

/-- Whether a text is passed over depends on its first character. -/
theorem skipBlank_append {verbose : Bool} {c : Char} {cs : List Char}
    (h : skipBlank verbose (c :: cs) = c :: cs) (rest : List Char) :
    skipBlank verbose (c :: rest) = c :: rest := by
  have hlonger : ∀ inComment, skipVerbose inComment cs ≠ c :: cs := by
    intro inComment heq
    have hle := length_skipVerbose_le inComment cs
    rw [heq, List.length_cons] at hle
    omega
  cases verbose with
  | false => rfl
  | true =>
    rw [skipBlank, if_pos rfl, skipVerbose, if_neg Bool.false_ne_true] at h
    rw [skipBlank, if_pos rfl, skipVerbose, if_neg Bool.false_ne_true]
    split at h
    · exact absurd h (hlonger _)
    · rename_i hblank
      split at h
      · exact absurd h (hlonger _)
      · rename_i hcomment
        rw [if_neg hblank, if_neg hcomment]

theorem skipBlank_skipBlank (verbose : Bool) (cs : List Char) :
    skipBlank verbose (skipBlank verbose cs) = skipBlank verbose cs := by
  cases verbose with
  | false => rfl
  | true =>
    have hskip : ∀ (inComment : Bool) (cs : List Char),
        skipVerbose false (skipVerbose inComment cs) = skipVerbose inComment cs := by
      intro inComment cs
      induction cs generalizing inComment with
      | nil => rfl
      | cons c cs ih =>
        rw [skipVerbose]
        split_ifs with hinside hblank hcomment
        · exact ih _
        · exact ih _
        · exact ih _
        · rw [skipVerbose, if_neg Bool.false_ne_true, if_neg hblank, if_neg hcomment]
    exact hskip false cs

namespace Regular

variable {c : Char} {text : List Char}

/-- Wherever an item may start and the text is not passed over as blank,
it is read as one item, which matches the character, and reading goes
on after it. -/
def ReadsChar (folded : Bool) (c : Char) (text : List Char) : Prop :=
  ∀ (steps : Nat) (reading : Reading) (items : List Ast) (rest : List Char),
    text.length ≤ steps → skipBlank reading.verbose text = text →
    ∃ item : Ast, item.isRepeatable = true ∧
      (∀ modes : Modes, (folded = true → modes.unicode = true) →
        item.meaning? modes
          = some (.char (CharSet.ofChar (foldedMode folded modes.chars) c), modes)) ∧
      parseItems? (steps + 1) reading items (text ++ rest)
        = parseItems? steps reading (item :: items) rest

/-- A character without variants is matched the same where letter case
is spelt out. -/
theorem ReadsChar.folded (h : ReadsChar false c text) (hcased : isCased c = false) :
    ReadsChar true c text := by
  intro steps reading items rest hsteps hshown
  obtain ⟨item, hrepeatable, hmeaning, hread⟩ := h steps reading items rest hsteps hshown
  refine ⟨item, hrepeatable, fun modes hunicode => ?_, hread⟩
  have hset : CharSet.ofChar (foldedMode true modes.chars) c
      = CharSet.ofChar (foldedMode false modes.chars) c := by
    unfold foldedMode Modes.chars
    rw [hunicode rfl]
    exact ofChar_of_uncased hcased _
  rw [hmeaning modes (fun hfolded => absurd hfolded Bool.false_ne_true), hset]

/-- What is read as a character by itself. -/
theorem readsChar_of_primitive {first : Char} {others : List Char} (hmark : isMark first = false)
    (h : ∀ (verbose : Bool) (rest : List Char), ∃ left,
      parsePrimitive? verbose (first :: (others ++ rest)) = some (.literal c false, left) ∧
        skipBlank verbose left = skipBlank verbose rest) :
    ReadsChar false c (first :: others) := by
  intro steps reading items rest _ hshown
  obtain ⟨left, hpiece, hleft⟩ := h reading.verbose rest
  refine ⟨.primitive (.literal c false), rfl, fun modes _ => rfl, ?_⟩
  have hsame : ∀ items, parseItems? steps reading items left
      = parseItems? steps reading items rest := by
    intro items
    cases steps with
    | zero => rfl
    | succ steps => rw [parseItems?, parseItems?, hleft]
  rw [List.cons_append, parseItems_primitive steps items (skipBlank_append hshown _) hmark, hpiece,
    Option.bind_some, hsame]

/-- A character that is written as it is. -/
theorem readsChar_literal (h : isLiteral c = true) : ReadsChar false c [c] := by
  have hslash : c ≠ '\\' := by
    rintro rfl
    exact absurd h (by decide)
  refine readsChar_of_primitive (parsePrimitive_literal h []).1 fun verbose rest => ⟨rest, ?_, rfl⟩
  have hmode : parsePrimitive? verbose (c :: rest) = parsePrimitive? false (c :: rest) := by
    unfold parsePrimitive?
    split <;> simp_all
  exact hmode.trans (parsePrimitive_literal h rest).2

/-- A character after a backslash. -/
theorem readsChar_escaped (h : isEscapable c = true) : ReadsChar false c ['\\', c] := by
  refine readsChar_of_primitive rfl fun verbose rest => ⟨rest, ?_, rfl⟩
  show parseEscape? verbose (c :: rest) = _
  unfold parseEscape?
  simp only
  split
  case h_24 => rw [if_pos h]
  all_goals exact absurd h (by decide)

/-! ### Codes -/

theorem untilBrace_digits {digits : List Char}
    (h : ∀ d ∈ digits, isHexDigit d = true ∧ isBlank d = false) (verbose : Bool)
    (rest : List Char) {steps : Nat} (hsteps : digits.length < steps) :
    untilBrace? verbose steps (digits ++ '}' :: rest) = some (digits, rest) := by
  induction digits generalizing steps with
  | nil =>
    obtain ⟨steps, rfl⟩ := Nat.exists_eq_add_of_lt hsteps
    rw [List.nil_append, untilBrace?, skipBlank_cons (by decide) (by decide)]
    rfl
  | cons d digits ih =>
    obtain ⟨⟨hhex, hblank⟩, hdigits⟩ := List.forall_mem_cons.mp h
    have hne : ∀ e ∈ ['}', '#'], d ≠ e := ne_of_any isHexDigit (by decide) hhex
    obtain ⟨steps, rfl⟩ : ∃ fewer, steps = fewer + 1 := ⟨steps - 1, by omega⟩
    rw [List.cons_append, untilBrace?, skipBlank_cons hblank (hne '#' (by decide))]
    split
    · rename_i heq
      cases heq
    · rename_i heq
      exact absurd (List.cons.inj heq).1 (hne '}' (by decide))
    · rename_i heq
      cases heq
      rw [ih hdigits (Nat.lt_of_succ_lt_succ hsteps)]
      rfl

/-- A character that is written by its code, in braces. -/
theorem readsChar_coded {digits : List Char}
    (h : ∀ d ∈ digits, isHexDigit d = true ∧ isBlank d = false) (hcode : coded? digits = some c) :
    ReadsChar false c ('\\' :: 'x' :: '\x7b' :: (digits ++ ['\x7d'])) := by
  refine readsChar_of_primitive rfl fun verbose rest => ⟨skipBlank verbose rest, ?_,
    skipBlank_skipBlank verbose rest⟩
  obtain ⟨code, hnumber, hchar⟩ := Option.bind_eq_some_iff.mp hcode
  have hinner := untilBrace_digits h verbose rest
    (show digits.length < (digits ++ '}' :: rest).length + 1 by rw [List.length_append]; omega)
  show parseCode? verbose 2 ('{' :: ((digits ++ ['}']) ++ rest)) = _
  rw [List.append_assoc, List.singleton_append, parseCode?, skipBlank_cons (by decide) (by decide)]
  simp only [hinner, bind, Option.bind_some, hnumber, hchar]
  rfl

/-! ### Letter case spelt out -/

/-- Cased characters are shown in all patterns. -/
theorem skipBlank_cased {d : Char} (h : isCased d = true) (verbose : Bool) (rest : List Char) :
    skipBlank verbose (d :: rest) = d :: rest := by
  have hne : ∀ e ∈ ['#'], d ≠ e := ne_of_any isCased (by decide) h
  exact skipBlank_cons (isBlank_of_isCased h) (hne '#' (by decide)) verbose rest

/-- A cased character is a member of a class by itself. -/
theorem parseRange_cased {d e : Char} (h : isCased d = true) {verbose : Bool} {rest : List Char}
    (hshown : skipBlank verbose (e :: rest) = e :: rest) (hhyphen : e ≠ '-') :
    parseRange? verbose (d :: e :: rest) = some (.literal d, e :: rest) := by
  have hslash : d ≠ '\\' := by
    rintro rfl
    exact absurd h (by decide)
  have hmember : parseMember? verbose (d :: e :: rest) = some (.literal d false, e :: rest) := by
    unfold parseMember?
    split <;> simp_all
  unfold parseRange?
  simp only [hmember, bind, Option.bind_some, hshown]
  split
  · rename_i heq
    cases heq
  · rename_i heq
    exact absurd (List.cons.inj heq).1 hhyphen
  · rfl

theorem parseMembers_cased {members : List Char} (h : ∀ d ∈ members, isCased d = true)
    (verbose : Bool) (items : List ClassSet) (rest : List Char) {steps : Nat}
    (hsteps : members.length < steps) :
    parseMembers? verbose steps none items (members ++ ']' :: rest)
      = some (closeOperand none ((members.map ClassSet.literal).reverse ++ items), rest) := by
  induction members generalizing steps items with
  | nil =>
    obtain ⟨steps, rfl⟩ := Nat.exists_eq_add_of_lt hsteps
    rw [List.nil_append, parseMembers?, skipBlank_cons (by decide) (by decide)]
    rfl
  | cons d members ih =>
    obtain ⟨hd, hmembers⟩ := List.forall_mem_cons.mp h
    obtain ⟨steps, rfl⟩ : ∃ fewer, steps = fewer + 1 := ⟨steps - 1, by omega⟩
    have hread : parseRange? verbose (d :: (members ++ ']' :: rest))
        = some (.literal d, members ++ ']' :: rest) := by
      cases members with
      | nil => exact parseRange_cased hd (skipBlank_cons (by decide) (by decide) _ _) (by decide)
      | cons e members =>
        have he := hmembers e List.mem_cons_self
        refine parseRange_cased hd (skipBlank_cased he _ _) ?_
        rintro rfl
        exact absurd he (by decide)
    have hne : ∀ e ∈ "]&-~[".toList, d ≠ e := ne_of_any isCased (by decide) hd
    have hitem : parseMembers? verbose (steps + 1) none items (d :: (members ++ ']' :: rest))
        = parseMembers? verbose steps none (.literal d :: items) (members ++ ']' :: rest) := by
      rw [parseMembers?, skipBlank_cased hd]
      split
      case h_7 => rw [hread]; rfl
      all_goals
        rename_i heq
        first
          | exact absurd (List.cons.inj heq).1 (hne _ (by decide))
          | cases heq
    rw [List.cons_append, hitem, ih hmembers _ (Nat.lt_of_succ_lt_succ hsteps)]
    simp

/-- A class of cased characters lists them. -/
theorem parseClass_cased {members : List Char} (h : ∀ d ∈ members, isCased d = true)
    (hnonempty : members ≠ []) (verbose : Bool) (rest : List Char) :
    parseClass? verbose (members ++ ']' :: rest)
      = some (listedClass false (members.map .one), rest) := by
  have hopen : openClass? verbose (members ++ ']' :: rest)
      = some (false, [], members ++ ']' :: rest) := by
    obtain ⟨d, others, rfl⟩ := List.exists_cons_of_ne_nil hnonempty
    have hd := h d List.mem_cons_self
    have hne : ∀ e ∈ "^-]".toList, d ≠ e := ne_of_any isCased (by decide) hd
    rw [List.cons_append]
    have hlead : leadingHyphens? verbose ((d :: (others ++ ']' :: rest)).length + 1)
        (d :: (others ++ ']' :: rest)) = some ([], d :: (others ++ ']' :: rest)) := by
      rw [leadingHyphens?]
      · simp
      · intro rest' heq
        exact hne '-' (by decide) (List.cons.inj heq).1
    unfold openClass?
    simp only [skipBlank_cased hd]
    split
    · rename_i heq
      exact absurd (List.cons.inj heq).1 (hne '^' (by decide))
    · simp only [hlead, bind, Option.bind_some]
      split
      · rename_i heq
        exact absurd (List.cons.inj heq).1 (hne ']' (by decide))
      · rfl
  have hread := parseMembers_cased h verbose [] rest
    (show members.length < (members ++ ']' :: rest).length + 1 by rw [List.length_append]; omega)
  unfold parseClass?
  simp only [hopen, bind, Option.bind_some, List.reverse_nil, hread]
  simp [listedClass, closeOperand, Listed.toClass, Function.comp_def]

theorem isCased_of_mem_foldedLetter (h : c.isAlpha = true) : ∀ d ∈ foldedLetter c, isCased d = true := by
  have hall : ∀ index < 26, [Char.ofNat (0x41 + index), Char.ofNat (0x61 + index)].all
      (fun c => (foldedLetter c).all isCased) = true := by decide +kernel
  obtain ⟨index, hindex, hc⟩ := exists_index_of_isAlpha h
  exact List.all_eq_true.mp (List.all_eq_true.mp (hall index hindex) c (by simpa using hc))

/-- An ASCII letter as the class of its variants. -/
theorem readsChar_letter (h : c.isAlpha = true) :
    ReadsChar true c ('[' :: (foldedLetter c ++ [']'])) := by
  intro steps reading items rest _ _
  have hshape : '[' :: (foldedLetter c ++ [']']) ++ rest
      = '[' :: (foldedLetter c ++ ']' :: rest) := by
    simp
  have hread : parseItems? (steps + 1) reading items ('[' :: (foldedLetter c ++ ']' :: rest)) = _ :=
    parseItems_class_eq steps items _
  rw [parseClass_cased (isCased_of_mem_foldedLetter h) (List.cons_ne_nil _ _), Option.bind_some,
    ← hshape] at hread
  refine ⟨_, rfl, fun modes hunicode => ?_, hread⟩
  have hmodes : modes.chars = ⟨modes.ignoreCase, true⟩ := by
    rw [Modes.chars, hunicode rfl]
  rw [Ast.meaning?, hmodes, meaning_foldedLetter h]
  rfl

/-- A text in a group in which letter case does not count. -/
theorem ReadsChar.ignoring (h : ReadsChar false c text)
    (hshown : ∀ verbose, skipBlank verbose text = text) :
    ReadsChar true c (ignoringCase text) := by
  intro steps reading items rest hsteps _
  have hlong : text.length + 5 ≤ steps := by
    rw [ignoringCase, List.length_append, List.length_append] at hsteps
    have hopening : "(?i:".toList.length = 4 := by decide
    rw [hopening, List.length_singleton] at hsteps
    omega
  -- The opening, the branch in the group and the item in the branch take a step each.
  obtain ⟨fewer, rfl⟩ : ∃ fewer, steps = fewer + 3 := ⟨steps - 3, by omega⟩
  obtain ⟨item, hrepeatable, hmeaning, hread⟩ :=
    h (fewer + 1) reading [] (')' :: rest) (by omega) (hshown _)
  have hend : parseItems? (fewer + 1) reading [item] (')' :: rest)
      = some ([item], reading, ')' :: rest) := by
    rw [parseItems?, skipBlank_cons (by decide) (by decide)]
    rfl
  have hbranch : parseBranches? (fewer + 3) reading [] (text ++ ')' :: rest)
      = some (item, reading, ')' :: rest) := by
    rw [parseBranches?, hread, hend]
    rfl
  have hopening : parseOpening? reading ('?' :: 'i' :: ':' :: (text ++ ')' :: rest))
      = some (.group (.flagged [(.ignoreCase, true)]), reading, text ++ ')' :: rest) := by
    unfold parseOpening?
    simp only [skipBlank_cons (show isBlank '?' = false by decide) (by decide)]
    rfl
  have hshape : ignoringCase text ++ rest
      = '(' :: '?' :: 'i' :: ':' :: (text ++ ')' :: rest) := by
    simp [ignoringCase]
  refine ⟨.group (.flagged [(.ignoreCase, true)]) (reading.placeOf (ignoringCase text ++ rest)) item,
    rfl, fun modes hunicode => ?_, ?_⟩
  · rw [Ast.meaning?]
    simp only [hmeaning (modes.apply [(.ignoreCase, true)]) (fun hfolded => absurd hfolded Bool.false_ne_true), bind,
      Option.bind_some]
    rfl
  · rw [hshape, parseItems?, skipBlank_cons (by decide) (by decide)]
    simp only [hopening, bind, Option.bind_some]
    rw [show FlagChange.value? [(Flag.ignoreCase, true)] .verbose = none from rfl,
      Option.getD_none, hbranch]
    rfl

end Regular

end Highlighter.Regex
