import Highlighter.Proofs.Regex.Extended.Reading
import Highlighter.Proofs.Regex.Regular.OneChar

/-!
# Texts of one character in the extended dialect

The extended dialect reads the same texts of one character as the
regular one (`ReadsChar`), each as a tree that matches the character and
has nothing else to it: what follows may repeat it, and no group is
opened. The trees are single pieces, so they are matched alike whether
the pattern around them is left to a regular expression or not.

A group in which letter case does not count needs room for one more
open group, and the branch in it is refused where numbers and names of
groups have been mixed before.
-/

set_option autoImplicit false

namespace Highlighter.Regex.Extended

open Pattern Unicode

variable {c : Char} {text : List Char}

/-! ### Filler -/

theorem length_le_of_skipFiller {verbose : Bool} {filler : Filler} {cs left : List Char}
    (h : skipFiller? verbose filler cs = some left) : left.length ≤ cs.length := by
  fun_induction skipFiller? verbose filler cs generalizing left with
  | case4 => cases h; exact Nat.le_refl _
  | case8 => cases h
  | case11 => cases h; exact Nat.le_refl _
  | case12 => cases h; exact Nat.le_refl _
  | _ =>
    rename_i ih
    have hle := ih h
    simp only [List.length_cons]
    omega

/-- What is passed over where no comment in parentheses starts. -/
theorem skipFiller_cons (hopen : c ≠ '(') (verbose : Bool) (rest : List Char) :
    skipFiller? verbose .none (c :: rest)
      = if verbose && c == '#' then skipFiller? verbose .line rest
        else if verbose && (c == ' ' || c == '\t' || c == '\n' || c == '\r') then
          skipFiller? verbose .none rest
        else some (c :: rest) := by
  rw [skipFiller?]
  exact fun _ hc _ => hopen hc

/-- Whether a text is passed over depends on its first character. -/
theorem Reading.skip_append {reading : Reading} {cs : List Char} (hopen : c ≠ '(')
    (h : reading.skip? (c :: cs) = some (c :: cs)) (rest : List Char) :
    reading.skip? (c :: rest) = some (c :: rest) := by
  have hlonger : ∀ filler, skipFiller? reading.flags.verbose filler cs ≠ some (c :: cs) := by
    intro filler heq
    have hle := length_le_of_skipFiller heq
    rw [List.length_cons] at hle
    omega
  unfold Reading.skip? at h ⊢
  rw [skipFiller_cons hopen] at h ⊢
  split at h
  · exact absurd h (hlonger _)
  · rename_i hline
    split at h
    · exact absurd h (hlonger _)
    · rename_i hblank
      rw [if_neg hline, if_neg hblank]

/-- What opens a group with flags is no comment. -/
theorem Reading.skip_flags (reading : Reading) (rest : List Char) :
    reading.skip? ('(' :: '?' :: 'i' :: rest) = some ('(' :: '?' :: 'i' :: rest) := by
  unfold Reading.skip?
  cases reading.flags.verbose <;> rfl

/-- What is neither blank nor starts a comment is not passed over. -/
theorem Reading.skip_cons (reading : Reading) (h : "( \t\n\r#".toList.contains c = false)
    (rest : List Char) : reading.skip? (c :: rest) = some (c :: rest) := by
  simp only [String.reduceToList, List.contains_cons, List.contains_nil, Bool.or_eq_false_iff] at h
  obtain ⟨hopen, hspace, htab, hfeed, hreturn, hcomment, -⟩ := h
  unfold Reading.skip?
  rw [skipFiller_cons (beq_eq_false_iff_ne.mp hopen), hspace, htab, hfeed, hreturn, hcomment]
  simp

/-! ### Reading on -/

theorem readOn_eq {steps depth : Nat} {reading : Reading} {items : List Tree} {tree : Tree}
    (htree : tree.isEmpty = false) (rest : List Char) :
    readOn? steps depth reading items tree rest
      = (parseSuffix? reading tree rest).bind fun found =>
        parseItems? steps depth reading (found.1 :: items) found.2 := by
  unfold readOn?
  cases hfound : parseSuffix? reading tree rest with
  | none => rfl
  | some found => rw [Option.bind_some, Option.bind_some, isEmpty_parseSuffix htree hfound]; rfl

/-- An escape is read that leaves the reader as it is. -/
theorem parseItems_escape {steps depth : Nat} {reading : Reading} {items : List Tree}
    {cs left : List Char} {escape : Escape} {tree : Tree}
    (hescape : parseEscape? reading false cs = some (escape, reading, left))
    (htree : escape.toTree? reading = some tree) :
    parseItems? (steps + 1) depth reading items ('\\' :: cs)
      = readOn? steps depth reading items tree left := by
  rw [readOn_eq (isEmpty_toTree htree), parseItems?, reading.skip_cons (by decide)]
  simp only [bind, Option.bind_some, hescape, htree]

/-! ### Texts -/

/-- Wherever an item may start and the text is not passed over as blank,
it is read as one tree, which matches the character, and reading goes on
after it. -/
def ReadsChar (folded : Bool) (c : Char) (text : List Char) : Prop :=
  ∀ (steps depth : Nat) (reading : Reading) (items : List Tree) (rest : List Char),
    text.length ≤ steps → reading.skip? text = some text →
    (folded = true → depth < maxDepth ∧ (reading.numbered && !reading.names.isEmpty) = false) →
    ∃ tree : Tree, tree.isSingle = true ∧ tree.minSize = 1 ∧
      tree.regular? = some (.char
        (CharSet.ofChar (foldedMode folded ⟨reading.flags.ignoreCase, true⟩) c)) ∧
      parseItems? (steps + 1) depth reading items (text ++ rest)
        = readOn? steps depth reading items tree rest

/-- A character without variants is matched the same where letter case
is spelt out. -/
theorem ReadsChar.folded (h : ReadsChar false c text) (hcased : isCased c = false) :
    ReadsChar true c text := by
  intro steps depth reading items rest hsteps hshown _
  obtain ⟨tree, hsingle, hsize, hregular, hread⟩ :=
    h steps depth reading items rest hsteps hshown fun hfolded => absurd hfolded Bool.false_ne_true
  refine ⟨tree, hsingle, hsize, ?_, hread⟩
  rw [hregular]
  exact congrArg (fun set => some (Node.char set)) (ofChar_of_uncased hcased _).symm

/-- A character that is written as it is. -/
theorem readsChar_literal (h : isLiteral c = true) : ReadsChar false c [c] := by
  intro steps depth reading items rest _ hshown _
  have hne : ∀ d ∈ "|)([?*+\\.^$".toList, c ≠ d := ne_of_any isLiteral (by decide) h
  have hskip := Reading.skip_append (hne '(' (by decide)) hshown rest
  refine ⟨.literal c reading.flags.ignoreCase, rfl, rfl, rfl, ?_⟩
  rw [readOn_eq rfl, List.singleton_append, parseItems?, hskip]
  simp only [bind, Option.bind_some]
  -- All other cases start with a mark.
  split
  case h_10 =>
    rename_i heq
    cases heq
    split
    · exact absurd rfl (hne _ (by decide))
    · exact absurd rfl (hne _ (by decide))
    · exact absurd rfl (hne _ (by decide))
    · rfl
  all_goals
    rename_i heq
    cases heq
    try exact absurd rfl (hne _ (by decide))

/-- A character after a backslash. -/
theorem readsChar_escaped (h : isEscapable c = true) : ReadsChar false c ['\\', c] := by
  intro steps depth reading items rest _ _ _
  have hescape : isEscape c = true := by
    simp only [isEscapable, Bool.and_eq_true] at h
    simp only [isEscape, h, Bool.and_self, Bool.or_true]
  have hcased : isCased c = false := by
    have hspelt := Expr.isCased_unescaped (c := c) (by rw [isClassSpelling, h, Bool.or_true])
    rwa [Regular.unescaped_of_isEscapable h] at hspelt
  refine ⟨.literal c false, rfl, rfl, ?_, ?_⟩
  · exact congrArg (fun set => some (Node.char set))
      ((ofChar_of_uncased hcased _).symm.trans (ofChar_of_uncased hcased _))
  · refine parseItems_escape (parseEscape_escaped hescape reading rest) ?_
    rw [Regular.unescaped_of_isEscapable h]
    rfl

/-- A character that is written by its code, in braces. -/
theorem readsChar_coded {digits : List Char} (h : ∀ d ∈ digits, isHexDigit d = true)
    (hlength : digits.length ≤ 8) (hcode : coded? digits = some c) :
    ReadsChar false c ('\\' :: 'x' :: '\x7b' :: (digits ++ ['\x7d'])) := by
  intro steps depth reading items rest _ _ _
  have hbrace : '}' ∉ digits := fun hmem => absurd (h '}' hmem) (by decide)
  have hread : parseCode? 2 ('{' :: (digits ++ '}' :: rest)) = some (c, rest) := by
    rw [parseCode_braces (by decide) hbrace, if_pos ⟨List.all_eq_true.mpr h, hlength⟩, hcode]
    rfl
  have hescape : parseEscape? reading false ('x' :: '{' :: (digits ++ '}' :: rest))
      = some (.char c reading.flags.ignoreCase, reading, rest) := by
    show (parseCode? 2 ('{' :: (digits ++ '}' :: rest))).bind _ = _
    rw [hread]
    rfl
  refine ⟨.literal c reading.flags.ignoreCase, rfl, rfl, rfl, ?_⟩
  have hshape : '\\' :: 'x' :: '{' :: (digits ++ ['}']) ++ rest
      = '\\' :: 'x' :: '{' :: (digits ++ '}' :: rest) := by
    simp
  rw [hshape]
  exact parseItems_escape hescape rfl

/-- An ASCII letter as the class of its variants. -/
theorem readsChar_letter (h : c.isAlpha = true) :
    ReadsChar true c ('[' :: (foldedLetter c ++ [']'])) := by
  intro steps depth reading items rest _ _ _
  have hlists := (classLists_foldedLetter h).1.mono fun _ _ => Denotes.spelt
  refine ⟨.set (listedClass false ((foldedLetter c).map .one)) reading.flags.ignoreCase, rfl, rfl,
    ?_, ?_⟩
  · rw [Tree.regular?, meaning_foldedLetter h]
    rfl
  · have hshape : '[' :: (foldedLetter c ++ [']']) ++ rest
        = '[' :: (foldedLetter c ++ ']' :: rest) := by
      simp
    rw [hshape, readOn_eq rfl, parseItems?, reading.skip_cons (by decide)]
    simp only [bind, Option.bind_some, parseBracket_body hlists.isClassBody,
      extendedClass_lists hlists, Option.map_some]

/-- What opens a group in which letter case does not count. -/
theorem parseOpening_ignoring (reading : Reading) (rest : List Char) :
    parseOpening? reading ('?' :: 'i' :: ':' :: rest) = some (.flagged, reading.ignoring, rest) := by
  have hcolon : ∀ steps, parseFlags? true (some 'i') reading.ignoring (steps + 1) (':' :: rest)
      = some (.flagged, reading.ignoring, rest) := by
    intro steps
    rw [parseFlags?, reading.ignoring.skip_cons (by decide)]
    simp
  unfold parseOpening?
  simp only [reading.skip_cons (show "( \t\n\r#".toList.contains '?' = false by decide), bind,
    Option.bind_some]
  show parseFlags? true none reading ((rest.length + 2) + 1) ('i' :: ':' :: rest) = _
  rw [parseFlags?, reading.skip_cons (by decide)]
  exact hcolon _

/-- A text in a group in which letter case does not count. -/
theorem ReadsChar.ignoring (h : ReadsChar false c text)
    (hshown : ∀ reading : Reading, reading.skip? text = some text) :
    ReadsChar true c (ignoringCase text) := by
  intro steps depth reading items rest hsteps _ hroom
  obtain ⟨hdepth, hmixed⟩ := hroom rfl
  have hlong : text.length + 5 ≤ steps := by
    rw [ignoringCase, List.length_append, List.length_append] at hsteps
    have hopening : "(?i:".toList.length = 4 := by decide
    rw [hopening, List.length_singleton] at hsteps
    omega
  -- The opening, the branch in the group and the item in the branch take a step each.
  obtain ⟨fewer, rfl⟩ : ∃ fewer, steps = fewer + 4 := ⟨steps - 4, by omega⟩
  obtain ⟨tree, hsingle, hsize, hregular, hread⟩ :=
    h (fewer + 1) (depth + 1) reading.ignoring [] (')' :: rest) (by omega) (hshown _)
      fun hfolded => absurd hfolded Bool.false_ne_true
  have hempty : tree.isEmpty = false := by
    cases tree <;> first | rfl | cases hsize
  have hend : readOn? (fewer + 1) (depth + 1) reading.ignoring [] tree (')' :: rest)
      = some ([tree], reading.ignoring, ')' :: rest) := by
    have hskip := reading.ignoring.skip_cons (show "( \t\n\r#".toList.contains ')' = false by decide)
    rw [readOn_eq hempty, parseSuffix?, hskip]
    show parseItems? (fewer + 1) (depth + 1) reading.ignoring [tree] (')' :: rest) = _
    rw [parseItems?, hskip]
    rfl
  have hbranch : parseBranches? (fewer + 3) (depth + 1) reading.ignoring [] (text ++ ')' :: rest)
      = some (tree, reading.ignoring, ')' :: rest) := by
    have hmixed' : (reading.ignoring.numbered && !reading.ignoring.names.isEmpty) = false := hmixed
    rw [parseBranches?, hread, hend]
    simp only [bind, Option.bind_some, hmixed']
    rfl
  have hgroup : parseGroup? (fewer + 4) (depth + 1) reading
      ('?' :: 'i' :: ':' :: (text ++ ')' :: rest)) = some (tree, reading, rest) := by
    rw [parseGroup?, if_neg (by omega), parseOpening_ignoring]
    simp only [bind, Option.bind_some, hbranch, Reading.close?,
      reading.ignoring.skip_cons (show "( \t\n\r#".toList.contains ')' = false by decide)]
    rfl
  have hshape : ignoringCase text ++ rest
      = '(' :: '?' :: 'i' :: ':' :: (text ++ ')' :: rest) := by
    simp [ignoringCase]
  refine ⟨tree, hsingle, hsize, hregular, ?_⟩
  rw [hshape, parseItems?, reading.skip_flags]
  simp only [bind, Option.bind_some, hgroup]
  rfl

end Highlighter.Regex.Extended
