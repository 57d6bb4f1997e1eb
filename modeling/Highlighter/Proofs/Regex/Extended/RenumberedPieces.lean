import Highlighter.Proofs.Regex.Extended.ClassText
import Highlighter.Proofs.Regex.Extended.Renumbered

/-!
# Pieces of texts with later references

Escapes, classes, counts and the marks that open groups are read alike from related texts
(`Renumbered`). Only references differ, by the number that has been added to them.
-/

set_option autoImplicit false

namespace Highlighter.Regex.Extended

open Pattern

variable {base : Nat} {more cs ds left : List Char} {c : Char}

/-! ### Codes and properties -/

theorem drop_takeWhile {α : Type} (test : α → Bool) (xs : List α) :
    xs.drop (xs.takeWhile test).length = xs.dropWhile test := by
  have hleft : (xs.takeWhile test ++ xs.dropWhile test).drop (xs.takeWhile test).length
      = xs.dropWhile test := List.drop_left
  rwa [List.takeWhile_append_dropWhile] at hleft

namespace Renumbered

theorem bracedCode (h : Renumbered base more cs ds) {found : Char}
    (hcode : bracedCode? cs = some (found, left)) :
    ∃ left', bracedCode? ds = some (found, left') ∧ Renumbered base more left left' := by
  cases cs with
  | nil => cases hcode
  | cons c rest =>
    by_cases hbrace : c = '{'
    · subst hbrace
      obtain ⟨others, rfl, hrest⟩ := h.uncons_inside (by decide) (by decide)
      obtain ⟨htaken, hleft⟩ := hrest.run (show isHexDigit '\\' = false by decide)
        (show isHexDigit ')' = false by decide)
      have hdrop := drop_takeWhile isHexDigit others
      rw [htaken] at hdrop
      unfold bracedCode? at hcode ⊢
      simp only [drop_takeWhile, htaken, hdrop] at hcode ⊢
      generalize rest.dropWhile isHexDigit = after at hcode hleft
      generalize others.dropWhile isHexDigit = after' at hleft ⊢
      split at hcode
      · obtain ⟨left', rfl, hafter⟩ := hleft.uncons_inside (by decide) (by decide)
        split at hcode
        · rename_i hle
          obtain ⟨c, hc, heq⟩ := Option.map_eq_some_iff.mp hcode
          cases heq
          refine ⟨left', ?_, hafter⟩
          simp only [if_pos hle, hc]
          rfl
        · cases hcode
      · cases hcode
    · rw [Highlighter.Regex.Extended.bracedCode?] at hcode
      · cases hcode
      · intro others heq
        cases heq
        exact hbrace rfl

theorem parseCode (h : Renumbered base more cs ds) {digits : Nat} (hdigits : digits ≠ 0)
    {found : Char} (hcode : parseCode? digits cs = some (found, left)) :
    ∃ left', parseCode? digits ds = some (found, left') ∧ Renumbered base more left left' := by
  by_cases hfixed : (cs.take digits).length = digits ∧ ∀ c ∈ cs.take digits, isHexDigit c = true
  · obtain ⟨hlength, hhex⟩ := hfixed
    have hsplit := List.take_append_drop digits cs
    have hword : ∀ c ∈ cs.take digits, c ≠ '\\' ∧ c ≠ ')' := fun c hc =>
      ⟨fun heq => absurd (hhex c hc) (by rw [heq]; decide),
        fun heq => absurd (hhex c hc) (by rw [heq]; decide)⟩
    rw [← hsplit] at h
    obtain ⟨others, rfl, hrest⟩ := h.take _ hword
    have hread := parseCode_digits hhex
    rw [hlength] at hread
    rw [← hsplit, hread] at hcode
    rw [hread]
    obtain ⟨c, hc, heq⟩ := Option.map_eq_some_iff.mp hcode
    cases heq
    exact ⟨others, by rw [hc]; rfl, hrest⟩
  · have hbrace := parseCode_otherwise hfixed
    rw [hbrace] at hcode
    obtain ⟨left', hleft', hleft⟩ := h.bracedCode hcode
    refine ⟨left', ?_, hleft⟩
    rw [parseCode_otherwise, hleft']
    -- A code in braces starts with a brace in both texts.
    rintro ⟨hlength, hhex⟩
    have hhead : ds.head? = some '{' := by
      rw [h.head?_eq]
      unfold bracedCode? at hcode
      split at hcode
      · rfl
      · cases hcode
    obtain ⟨others, rfl⟩ := List.head?_eq_some_iff.mp hhead
    obtain ⟨count, rfl⟩ := Nat.exists_eq_succ_of_ne_zero hdigits
    exact absurd (hhex '{' List.mem_cons_self) (by decide)

theorem parsePropertyText (h : Renumbered base more cs ds) {text : List Char}
    (hplain : text.contains '\\' = false) (hfound : parsePropertyText? cs = some (text, left)) :
    ∃ left', parsePropertyText? ds = some (text, left') ∧ GoesOn base more left left' := by
  unfold Highlighter.Regex.Extended.parsePropertyText? at hfound
  split at hfound
  · cases hfound
  · rename_i rest
    obtain ⟨others, rfl, hrest⟩ := h.uncons_inside (by decide) (by decide)
    split at hfound
    · rename_i after hafter
      cases hfound
      have hname : '\\' ∉ rest.takeWhile (· != '}') := by
        intro hmem
        rw [List.contains_iff_mem.mpr (by simp [hmem])] at hplain
        cases hplain
      obtain ⟨htaken, hleft⟩ := hrest.run_of hname (by rw [hafter]; exact List.cons_ne_nil _ _)
      rw [hafter] at hleft
      obtain ⟨left', hleft', hleft⟩ := hleft.uncons_inside (by decide) (by decide)
      refine ⟨left', ?_, .inr hleft⟩
      simp only [Highlighter.Regex.Extended.parsePropertyText?, hleft', htaken]
    · cases hfound
  · rename_i c rest hbrace
    cases hfound
    have hslash : c ≠ '\\' := by
      rintro rfl
      cases hplain
    obtain ⟨others, rfl, hrest⟩ := h.uncons hslash
    refine ⟨others, ?_, hrest⟩
    rw [Highlighter.Regex.Extended.parsePropertyText?]
    exact hbrace

end Renumbered

/-! ### Escapes -/

/-- The escape with its reference numbered `base` later. -/
def Escape.shift (base : Nat) : Escape → Escape
  | backref group => backref (base + group)
  | escape => escape

/-- Assertions are read from both texts. -/
theorem Renumbered.parseAssertion (h : Renumbered base more cs ds)
    (hescape : escapesPlainly c cs = true) (reading' : Reading) {reading after : Reading}
    {escape : Escape} (hread : parseAssertion? reading (c :: cs) = some (escape, after, left)) :
    (∀ group, escape ≠ .backref group) ∧ after = reading ∧ left = cs ∧
      parseAssertion? reading' (c :: ds) = some (escape, reading', ds) := by
  have hbrace : (∀ rest, cs ≠ '{' :: rest) → ∀ others, ds ≠ '{' :: others := by
    rintro hne others rfl
    obtain ⟨rest, rfl⟩ := List.head?_eq_some_iff.mp h.head?_eq.symm
    exact hne rest rfl
  unfold parseAssertion? at hread
  split at hread
  case h_5 rest hne heq =>
    cases heq
    cases hread
    refine ⟨(fun _ heq => by cases heq), rfl, rfl, ?_⟩
    rw [Highlighter.Regex.Extended.parseAssertion?]
    exact hbrace fun rest heq => hne rest (by rw [heq])
  case h_6 rest hne heq =>
    cases heq
    cases hread
    refine ⟨(fun _ heq => by cases heq), rfl, rfl, ?_⟩
    rw [Highlighter.Regex.Extended.parseAssertion?]
    exact hbrace fun rest heq => hne rest (by rw [heq])
  case h_11 heq =>
    cases heq
    cases hescape
  case h_12 heq =>
    cases heq
    cases hescape
  case h_13 heq =>
    cases heq
    have hdigit : c.isDigit = false := by
      have hplain := (Bool.and_eq_true_iff.mp (Bool.and_eq_true_iff.mp hescape).1).1
      simpa using hplain
    rw [if_neg (by simp [hdigit])] at hread
    cases hread
  case h_14 heq => cases heq
  all_goals
    rename_i heq
    cases heq
    cases hread
  all_goals exact ⟨(fun _ heq => by cases heq), rfl, rfl, rfl⟩

theorem plainEscape_ne_backref {inClass : Bool} {escape : Escape}
    (h : plainEscape? inClass c = some escape) (group : Nat) : escape ≠ .backref group := by
  rintro rfl
  unfold plainEscape? at h
  repeat' split at h
  all_goals cases h

/-- An escape that is no reference is read from both texts, and the reader learns nothing. -/
theorem Renumbered.parseEscape (h : Renumbered base more cs ds)
    (hescape : escapesPlainly c cs = true) {reading after : Reading} (reading' : Reading)
    (hflags : reading'.flags = reading.flags) {inClass : Bool} {escape : Escape}
    (hread : parseEscape? reading inClass (c :: cs) = some (escape, after, left)) :
    (∀ group, escape ≠ .backref group) ∧ after = reading ∧ ∃ left',
      parseEscape? reading' inClass (c :: ds) = some (escape, reading', left') ∧
        GoesOn base more left left' := by
  obtain ⟨hplain, hproperty⟩ := Bool.and_eq_true_iff.mp hescape
  obtain ⟨hdigit, hname⟩ := Bool.and_eq_true_iff.mp hplain
  have hdigit : c.isDigit = false := by simpa using hdigit
  have hcode : ∀ {digits : Nat}, digits ≠ 0 →
      parseEscape?.code reading digits cs = some (escape, after, left) →
      (∀ group, escape ≠ .backref group) ∧ after = reading ∧ ∃ left',
        parseEscape?.code reading' digits ds = some (escape, reading', left') ∧
          GoesOn base more left left' := by
    intro digits hdigits hread
    obtain ⟨⟨d, rest⟩, hd, heq⟩ := Option.bind_eq_some_iff.mp hread
    cases heq
    obtain ⟨left', hleft', hleft⟩ := h.parseCode hdigits hd
    refine ⟨(fun _ heq => by cases heq), rfl, left', ?_, .inr hleft⟩
    rw [parseEscape?.code, hleft', hflags]
    rfl
  have hnamed : ∀ {letter : Char}, (c = 'p' ∨ c = 'P') →
      parseEscape?.property reading letter cs = some (escape, after, left) →
      (∀ group, escape ≠ .backref group) ∧ after = reading ∧ ∃ left',
        parseEscape?.property reading' letter ds = some (escape, reading', left') ∧
          GoesOn base more left left' := by
    intro letter hc hread
    obtain ⟨⟨text, rest⟩, htext, heq⟩ := Option.bind_eq_some_iff.mp hread
    cases heq
    have hslash : text.contains '\\' = false := by
      rcases hc with rfl | rfl <;> simpa [htext] using hproperty
    obtain ⟨left', hleft', hleft⟩ := h.parsePropertyText hslash htext
    refine ⟨(fun _ heq => by cases heq), rfl, left', ?_, hleft⟩
    rw [parseEscape?.property, hleft']
    rfl
  by_cases hassertion : (!inClass && startsAssertion c) = true
  · have hassert : ∀ (reading : Reading) (cs : List Char),
        parseEscape? reading inClass (c :: cs) = parseAssertion? reading (c :: cs) :=
      fun _ _ => if_pos hassertion
    rw [hassert] at hread
    obtain ⟨hnone, rfl, rfl, hread'⟩ := h.parseAssertion hescape reading' hread
    exact ⟨hnone, rfl, ds, (hassert _ _).trans hread', .inr h⟩
  · unfold parseEscape? at hread ⊢
    dsimp only at hread ⊢
    rw [if_neg hassertion, if_neg (by simp [hdigit])] at hread ⊢
    split at hread
    · exact hcode (by decide) hread
    · exact hcode (by decide) hread
    · exact hcode (by decide) hread
    · exact hnamed (.inl rfl) hread
    · exact hnamed (.inr rfl) hread
    · obtain ⟨plain, hplain, heq⟩ := Option.bind_eq_some_iff.mp hread
      cases heq
      refine ⟨plainEscape_ne_backref hplain, rfl, ds, ?_, .inr h⟩
      rw [hplain]
      rfl

/-! ### Classes -/

/-- In a class, there are no references. -/
theorem Renumbered.classEscape (h : Renumbered base more ('\\' :: cs) ds) {text : List Char}
    (hread : classEscape? cs = some (text, left)) :
    ∃ others left', ds = '\\' :: others ∧ classEscape? others = some (text, left') ∧
      GoesOn base more left left' := by
  obtain ⟨⟨escape, after, rest⟩, hescape, htext⟩ := Option.bind_eq_some_iff.mp hread
  obtain ⟨written, hwritten, heq⟩ := Option.map_eq_some_iff.mp htext
  cases heq
  rcases h.uncons_slash with ⟨c, cs', ds', rfl, rfl, hplain, hrest⟩ |
    ⟨number, cs', ds', rfl, -, -, -, -⟩
  · obtain ⟨-, -, left', hread', hleft⟩ := hrest.parseEscape hplain .blank rfl hescape
    refine ⟨_, left', rfl, ?_, hleft⟩
    rw [classEscape?, hread', Option.bind_some, hwritten]
    rfl
  · obtain ⟨digit, digits, hdigits, hdigit⟩ := head_toDigits number
    rw [hdigits, List.cons_append] at hescape
    unfold parseEscape? at hescape
    dsimp only at hescape
    rw [if_neg (by simp), if_pos hdigit] at hescape
    cases hescape

/-- How many brackets are open after a character. -/
def depthAfter (depth : Nat) (c : Char) : Nat :=
  if c = ']' then depth - 1 else if c = '[' then depth + 1 else depth

/-- A character that escapes nothing, and then the rest of a class. -/
theorem classText_cons (hslash : c ≠ '\\') (reading : Reading) (depth steps : Nat) (cs : List Char) :
    classText? reading depth (steps + 1) (c :: cs)
      = if c = ']' ∧ depth ≤ 1 then some ([']'], cs)
        else (classText? reading (depthAfter depth c) steps cs).map fun found =>
          ([c] ++ found.1, found.2) := by
  have hbind : ∀ {depth : Nat}, ((classText? reading depth steps cs).bind fun found =>
      some (c :: found.1, found.2)) = (classText? reading depth steps cs).map fun found =>
        ([c] ++ found.1, found.2) := Option.map_eq_bind.symm
  by_cases hclose : c = ']'
  · subst hclose
    by_cases hdepth : depth ≤ 1
    · rw [if_pos ⟨rfl, hdepth⟩, classText?, if_pos hdepth]
    · rw [if_neg (fun h => hdepth h.2), classText?, if_neg hdepth]
      exact hbind
  · rw [if_neg fun h => hclose h.1]
    by_cases hopen : c = '['
    · subst hopen
      exact hbind
    · rw [depthAfter, if_neg hclose, if_neg hopen, classText?]
      · exact hbind
      · exact hslash
      · exact hclose
      · exact hopen

/-- A class is resolved up to its closing bracket in both texts. -/
theorem GoesOn.classText (h : GoesOn base more cs ds) {reading reading' : Reading}
    {depth steps steps' : Nat} {text text' left' : List Char}
    (hread : classText? reading depth steps cs = some (text, left))
    (hread' : classText? reading' depth steps' ds = some (text', left')) :
    text' = text ∧ Renumbered base more left left' := by
  induction steps generalizing depth steps' cs ds text text' with
  | zero => cases hread
  | succ steps ih =>
    rcases h with rfl | h
    · cases hread
    · cases steps' with
      | zero => cases hread'
      | succ steps' =>
        have hmore : ∀ {depth : Nat} {start : List Char} {cs ds : List Char},
            GoesOn base more cs ds →
            ((classText? reading depth steps cs).map fun found => (start ++ found.1, found.2))
              = some (text, left) →
            ((classText? reading' depth steps' ds).map fun found => (start ++ found.1, found.2))
              = some (text', left') →
            text' = text ∧ Renumbered base more left left' := by
          intro depth start cs ds h hread hread'
          obtain ⟨found, hfound, heq⟩ := Option.map_eq_some_iff.mp hread
          obtain ⟨found', hfound', heq'⟩ := Option.map_eq_some_iff.mp hread'
          cases heq
          cases heq'
          obtain ⟨htext, hleft⟩ := ih h hfound hfound'
          exact ⟨congrArg (start ++ ·) htext, hleft⟩
        cases cs with
        | nil => cases hread
        | cons c cs =>
          by_cases hslash : c = '\\'
          · subst hslash
            rw [classText_escape] at hread
            obtain ⟨⟨written, after⟩, hescape, hread⟩ := Option.bind_eq_some_iff.mp hread
            obtain ⟨others, after', rfl, hescape', hafter⟩ := h.classEscape hescape
            rw [classText_escape, hescape', Option.bind_some] at hread'
            exact hmore hafter hread hread'
          · rw [classText_cons hslash] at hread
            by_cases hend : c = ']' ∧ depth ≤ 1
            · rw [if_pos hend] at hread
              cases hread
              obtain ⟨others, rfl, hrest⟩ :=
                h.uncons_inside hslash (by rw [hend.1]; decide)
              rw [classText_cons hslash, if_pos hend] at hread'
              cases hread'
              exact ⟨rfl, hrest⟩
            · obtain ⟨others, rfl, hrest⟩ := h.uncons hslash
              rw [if_neg hend] at hread
              rw [classText_cons hslash, if_neg hend] at hread'
              exact hmore hrest hread hread'

/-- What a class opens with, and the text after that. -/
def openBracket : List Char → List Char × List Char
  | '^' :: ']' :: rest => (['[', '^', ']'], rest)
  | '^' :: rest => (['[', '^'], rest)
  | ']' :: rest => (['[', ']'], rest)
  | cs => (['['], cs)

theorem openBracket_caret (h : cs.head? ≠ some ']') : openBracket ('^' :: cs) = (['[', '^'], cs) := by
  rw [openBracket]
  rintro rest rfl
  exact h rfl

theorem openBracket_plain (hcaret : cs.head? ≠ some '^') (hclose : cs.head? ≠ some ']') :
    openBracket cs = (['['], cs) := by
  rw [openBracket]
  · rintro rest rfl
    exact hcaret rfl
  · rintro rest rfl
    exact hcaret rfl
  · rintro rest rfl
    exact hclose rfl

theorem parseBracket_eq (reading : Reading) (cs : List Char) :
    parseBracket? reading cs
      = (classText? reading 1 ((openBracket cs).2.length + 1) (openBracket cs).2).bind fun found =>
          (writtenSet? ((openBracket cs).1 ++ found.1)).map fun set =>
            (.set set reading.flags.ignoreCase, found.2) :=
  parseBracket_opening _ _ rfl

theorem Renumbered.openBracket (h : Renumbered base more cs ds) :
    (openBracket ds).1 = (openBracket cs).1 ∧
      Renumbered base more (openBracket cs).2 (openBracket ds).2 := by
  have hhead := h.head?_eq
  by_cases hcaret : cs.head? = some '^'
  · obtain ⟨rest, rfl⟩ := List.head?_eq_some_iff.mp hcaret
    obtain ⟨others, rfl, hrest⟩ := h.uncons_inside (by decide) (by decide)
    by_cases hclose : rest.head? = some ']'
    · obtain ⟨rest, rfl⟩ := List.head?_eq_some_iff.mp hclose
      obtain ⟨others, rfl, hinner⟩ := hrest.uncons_inside (by decide) (by decide)
      exact ⟨rfl, hinner⟩
    · rw [openBracket_caret hclose, openBracket_caret (by rwa [hrest.head?_eq])]
      exact ⟨rfl, hrest⟩
  · by_cases hclose : cs.head? = some ']'
    · obtain ⟨rest, rfl⟩ := List.head?_eq_some_iff.mp hclose
      obtain ⟨others, rfl, hrest⟩ := h.uncons_inside (by decide) (by decide)
      exact ⟨rfl, hrest⟩
    · rw [openBracket_plain hcaret hclose, openBracket_plain (by rwa [hhead]) (by rwa [hhead])]
      exact ⟨rfl, h⟩

theorem Renumbered.parseBracket (h : Renumbered base more cs ds) {reading reading' : Reading}
    (hflags : reading'.flags = reading.flags) {tree tree' : Tree} {left' : List Char}
    (hread : parseBracket? reading cs = some (tree, left))
    (hread' : parseBracket? reading' ds = some (tree', left')) :
    tree' = tree ∧ (∃ set ignoreCase, tree = .set set ignoreCase) ∧
      Renumbered base more left left' := by
  obtain ⟨hopening, hrest⟩ := h.openBracket
  rw [parseBracket_eq] at hread hread'
  obtain ⟨⟨text, after⟩, htext, hread⟩ := Option.bind_eq_some_iff.mp hread
  obtain ⟨⟨text', after'⟩, htext', hread'⟩ := Option.bind_eq_some_iff.mp hread'
  obtain ⟨set, hset, heq⟩ := Option.map_eq_some_iff.mp hread
  obtain ⟨set', hset', heq'⟩ := Option.map_eq_some_iff.mp hread'
  obtain ⟨rfl, hleft⟩ := GoesOn.classText (.inr hrest) htext htext'
  rw [hopening, hset] at hset'
  cases hset'
  cases heq
  cases heq'
  exact ⟨by rw [hflags], ⟨_, _, rfl⟩, hleft⟩

/-! ### Groups -/

/-- What readers of related texts know: the same, up to the numbers of groups. The second reader may
have met other groups before, which `known` refers to. -/
structure Reading.Shifted (base : Nat) (known : List Nat) (reading later : Reading) : Prop where
  flags_eq : later.flags = reading.flags
  groups_eq : later.groups = base + reading.groups
  targets_eq : later.targets = reading.targets.map (base + ·) ++ known
  targets_within : ∀ target ∈ reading.targets, 1 ≤ target ∧ target ≤ reading.groups

/-- How a group opens, with groups numbered `base` later. -/
def Opening.shift (base : Nat) : Opening → Opening
  | capture index => capture (base + index)
  | backref group => backref (base + group)
  | opening => opening

section Groups

variable {reading later after after' : Reading} {left' : List Char} {opening opening' : Opening}
  {known : List Nat}

theorem GoesOn.skip (h : GoesOn base more cs ds) (hflags : later.flags = reading.flags)
    (hskip : reading.skip? cs = some left) :
    left = [] ∨ ∃ left', later.skip? ds = some left' ∧ Renumbered base more left left' := by
  rcases h with rfl | h
  · cases hskip
    exact .inl rfl
  · unfold Reading.skip? at hskip ⊢
    rw [hflags]
    exact h.skipFiller hskip

/-- Both readers pass over something, or neither does. -/
theorem Renumbered.skips_eq (h : Renumbered base more cs ds) (hflags : later.flags = reading.flags)
    (hskip : reading.skip? cs = some left) (hskip' : later.skip? ds = some left') :
    (left'.length == ds.length) = (left.length == cs.length) := by
  unfold Reading.skip? at hskip hskip'
  rw [hflags] at hskip'
  have hstarts := startsFiller_eq h reading.flags.verbose
  cases hfiller : startsFiller reading.flags.verbose cs with
  | false =>
    rw [hfiller] at hstarts
    rw [skipFiller_of_not_starts hfiller] at hskip
    rw [skipFiller_of_not_starts hstarts] at hskip'
    cases hskip
    cases hskip'
    rw [beq_self_eq_true, beq_self_eq_true]
  | true =>
    rw [hfiller] at hstarts
    have hless := length_skipFiller_of_starts hfiller hskip
    have hless' := length_skipFiller_of_starts hstarts hskip'
    rw [beq_eq_false_iff_ne.mpr (Nat.ne_of_lt hless), beq_eq_false_iff_ne.mpr (Nat.ne_of_lt hless')]

theorem GoesOn.close (h : GoesOn base more cs ds) (hflags : later.flags = reading.flags)
    (hread : reading.close? cs = some left) (hread' : later.close? ds = some left') :
    GoesOn base more left left' := by
  obtain ⟨shown, hskip, hread⟩ := Option.bind_eq_some_iff.mp hread
  obtain ⟨shown', hskip', hread'⟩ := Option.bind_eq_some_iff.mp hread'
  split at hread
  · cases hread
    rcases h.skip hflags hskip with hnil | ⟨left', hleft', hleft⟩
    · cases hnil
    · obtain ⟨others, rfl, hrest⟩ := hleft.uncons (by decide)
      rw [hskip'] at hleft'
      cases hleft'
      cases hread'
      exact hrest
  · cases hread

/-- Flags are read from both texts. -/
theorem GoesOn.parseFlags (h : GoesOn base more cs ds) (hflags : later.flags = reading.flags)
    {on : Bool} {previous : Option Char} {steps steps' : Nat}
    (hread : parseFlags? on previous reading steps cs = some (opening, after, left))
    (hread' : parseFlags? on previous later steps' ds = some (opening', after', left')) :
    opening' = opening ∧ (opening = .flags ∨ opening = .flagged) ∧
      after = { reading with flags := after.flags } ∧
      after' = { later with flags := after.flags } ∧ GoesOn base more left left' := by
  induction steps generalizing on previous reading later steps' cs ds with
  | zero => cases hread
  | succ steps ih =>
    cases steps' with
    | zero => cases hread'
    | succ steps' =>
      obtain ⟨shown, hskip, hread⟩ := Option.bind_eq_some_iff.mp hread
      obtain ⟨shown', hskip', hread'⟩ := Option.bind_eq_some_iff.mp hread'
      rcases h with rfl | h
      · cases hskip
        cases hread
      rcases GoesOn.skip (.inr h) hflags hskip with rfl | ⟨_, hshown, hrest⟩
      · cases hread
      rw [hskip'] at hshown
      cases hshown
      simp only [h.skips_eq hflags hskip hskip'] at hread'
      generalize (if (shown.length == cs.length) = true then previous else some ' ') = previous
        at hread hread'
      dsimp only at hread hread'
      split at hread
      · cases hread
      · obtain ⟨others, rfl, hinner⟩ := hrest.uncons (by decide)
        simp only at hread'
        split at hread
        · cases hread
        · rename_i hprevious
          rw [if_neg hprevious] at hread'
          cases hread
          cases hread'
          exact ⟨rfl, .inl rfl, rfl, by rw [← hflags], hinner⟩
      · obtain ⟨others, rfl, hinner⟩ := hrest.uncons (by decide)
        simp only at hread'
        split at hread
        · cases hread
        · rename_i hprevious
          rw [if_neg hprevious] at hread'
          cases hread
          cases hread'
          exact ⟨rfl, .inr rfl, rfl, by rw [← hflags], hinner⟩
      · obtain ⟨others, rfl, hinner⟩ := hrest.uncons (by decide)
        simp only at hread'
        split at hread
        · rename_i hon
          rw [if_pos hon] at hread'
          exact ih hinner hflags hread hread'
        · cases hread
      · rename_i c rest hclose hcolon hhyphen
        obtain ⟨flags, hset, hread⟩ := Option.bind_eq_some_iff.mp hread
        have hslash : c ≠ '\\' := by
          rintro rfl
          cases hset
        obtain ⟨others, rfl, hinner⟩ := hrest.uncons hslash
        split at hread'
        · cases hread'
        · rename_i heq
          exact (hclose (List.cons.inj heq).1).elim
        · rename_i heq
          exact (hcolon (List.cons.inj heq).1).elim
        · rename_i heq
          exact (hhyphen (List.cons.inj heq).1).elim
        · rename_i heq
          cases heq
          rw [hflags, hset] at hread'
          have hsame :
              ({ later with flags } : Reading).flags = ({ reading with flags } : Reading).flags :=
            rfl
          obtain ⟨hopening, hkind, hafter, hafter', hleft⟩ :=
            ih hinner hsame hread hread'
          exact ⟨hopening, hkind, hafter, hafter', hleft⟩

/-- Open a group whose name comes next. -/
def openNamed? (reading : Reading) (cs : List Char) : Option (Opening × Reading × List Char) :=
  (parseName? '>' cs).bind fun found =>
    some ((reading.capture (some (String.ofList found.1))).1,
      (reading.capture (some (String.ofList found.1))).2, found.2)

/-- Read what follows an opening parenthesis and filler. -/
def openShown? (reading : Reading) : List Char → Option (Opening × Reading × List Char)
  | '?' :: '=' :: rest => some (.look false false, reading, rest)
  | '?' :: '!' :: rest => some (.look false true, reading, rest)
  | '?' :: '<' :: '=' :: rest => some (.look true false, reading, rest)
  | '?' :: '<' :: '!' :: rest => some (.look true true, reading, rest)
  | '?' :: '<' :: rest => openNamed? reading rest
  | '?' :: 'P' :: '<' :: rest => openNamed? reading rest
  | '?' :: 'P' :: '=' :: rest => (parseName? ')' rest).bind fun found =>
    (reading.group? found.1).map fun group => (.backref group, reading, found.2)
  | '?' :: '>' :: rest => some (.atomic, reading, rest)
  | '?' :: '(' :: rest => some (.cond, reading, rest)
  | '?' :: rest => parseFlags? true none reading (rest.length + 1) rest
  | cs => some ((reading.capture none).1, (reading.capture none).2, cs)

theorem parseOpening_eq (reading : Reading) (cs : List Char) :
    parseOpening? reading cs = (reading.skip? cs).bind (openShown? reading) := by
  unfold parseOpening?
  show (reading.skip? cs).bind _ = _
  congr 1
  funext shown
  unfold openShown?
  split <;> simp [openNamed?, Option.map_eq_bind, Function.comp_def]

theorem opensPlainly_shown (h : opensPlainly cs = true) {verbose : Bool} {shown : List Char}
    (hskip : skipFiller? verbose .none cs = some shown) :
    (∀ rest, shown ≠ '?' :: '(' :: rest) ∧ ∀ rest, shown ≠ '?' :: 'P' :: '=' :: rest := by
  have hverbose := List.all_eq_true.mp h verbose (by cases verbose <;> decide)
  rw [hskip] at hverbose
  constructor <;>
  · rintro rest rfl
    cases hverbose

/-- Whether a group opens neither with a number nor as a condition. -/
def Opening.isPlain : Opening → Bool
  | look _ _ | atomic | flags | flagged => true
  | _ => false

/-- Whether a group opens that is neither a reference nor a condition. -/
def Opening.isGroup : Opening → Bool
  | backref _ | cond => false
  | _ => true

theorem Opening.isGroup_shift (base : Nat) (opening : Opening) :
    (opening.shift base).isGroup = opening.isGroup := by
  cases opening <;> rfl

theorem isGroup_parseFlags {on : Bool} {previous : Option Char} {steps : Nat}
    (h : parseFlags? on previous reading steps cs = some (opening, after, left)) :
    opening.isGroup = true := by
  induction steps generalizing on previous reading cs with
  | zero => cases h
  | succ steps ih =>
    obtain ⟨shown, -, h⟩ := Option.bind_eq_some_iff.mp h
    generalize (if (shown.length == cs.length) = true then previous else some ' ') = previous at h
    dsimp only at h
    split at h
    · cases h
    · split at h
      · cases h
      · cases h
        rfl
    · split at h
      · cases h
      · cases h
        rfl
    · split at h
      · exact ih h
      · cases h
    · obtain ⟨flags, -, h⟩ := Option.bind_eq_some_iff.mp h
      exact ih h

theorem isGroup_parseOpening (hopen : opensPlainly cs = true)
    (h : parseOpening? reading cs = some (opening, after, left)) : opening.isGroup = true := by
  rw [parseOpening_eq] at h
  obtain ⟨shown, hskip, h⟩ := Option.bind_eq_some_iff.mp h
  obtain ⟨hcond, hname⟩ := opensPlainly_shown hopen hskip
  unfold openShown? at h
  split at h
  case h_5 | h_6 =>
    obtain ⟨found, -, heq⟩ := Option.bind_eq_some_iff.mp h
    cases heq
    rfl
  case h_7 rest => exact absurd rfl (hname rest)
  case h_9 rest => exact absurd rfl (hcond rest)
  case h_10 => exact isGroup_parseFlags h
  all_goals
    cases h
    rfl

/-- How a group opens is read from both texts. -/
structure OpensAlike (base : Nat) (known : List Nat) (reading after after' : Reading)
    (opening opening' : Opening) : Prop where
  opening_eq : opening' = opening.shift base
  readers : after.Shifted base known after'
  groups_le : reading.groups ≤ after.groups
  capture : ∀ index, opening = .capture index → 1 ≤ index ∧ index ≤ after.groups

theorem Reading.Shifted.captureAlike (h : reading.Shifted base known later)
    (name name' : Option String) :
    OpensAlike base known reading (reading.capture name).2 (later.capture name').2
      (reading.capture name).1 (later.capture name').1 where
  opening_eq := congrArg Opening.capture (by rw [h.groups_eq, Nat.add_assoc])
  readers := {
    flags_eq := h.flags_eq
    groups_eq := (congrArg (· + 1) h.groups_eq).trans (Nat.add_assoc _ _ _)
    targets_eq := h.targets_eq
    targets_within := fun target htarget =>
      ⟨(h.targets_within target htarget).1, Nat.le_succ_of_le (h.targets_within target htarget).2⟩ }
  groups_le := Nat.le_succ _
  capture index hindex := by
    cases hindex
    exact ⟨Nat.succ_pos _, Nat.le_refl _⟩

theorem Reading.Shifted.openAlike (h : reading.Shifted base known later)
    (hplain : opening.isPlain = true) :
    OpensAlike base known reading reading later opening opening where
  opening_eq := by cases opening <;> first | rfl | cases hplain
  readers := h
  groups_le := Nat.le_refl _
  capture := by
    rintro index rfl
    cases hplain

theorem Renumbered.parseOpening (h : Renumbered base more cs ds) (hopen : opensPlainly cs = true)
    (hreaders : reading.Shifted base known later)
    (hread : parseOpening? reading cs = some (opening, after, left))
    (hread' : parseOpening? later ds = some (opening', after', left')) :
    left = [] ∨ OpensAlike base known reading after after' opening opening' ∧
      Renumbered base more left left' := by
  rw [parseOpening_eq] at hread hread'
  obtain ⟨shown, hskip, hread⟩ := Option.bind_eq_some_iff.mp hread
  obtain ⟨shown', hskip', hread'⟩ := Option.bind_eq_some_iff.mp hread'
  obtain ⟨hcond, hname⟩ := opensPlainly_shown hopen hskip
  rcases GoesOn.skip (.inr h) hreaders.flags_eq hskip with rfl | ⟨_, hshown, hrest⟩
  · cases hread
    exact .inl rfl
  rw [hskip'] at hshown
  cases hshown
  have hnamed : ∀ {cs ds : List Char}, Renumbered base more cs ds →
      openNamed? reading cs = some (opening, after, left) →
      openNamed? later ds = some (opening', after', left') →
      OpensAlike base known reading after after' opening opening' ∧
        Renumbered base more left left' := by
    intro cs ds h hread hread'
    obtain ⟨⟨name, rest⟩, hname, heq⟩ := Option.bind_eq_some_iff.mp hread
    obtain ⟨others, hname', hrest⟩ := h.parseName (by decide) (by decide) hname
    rw [openNamed?, hname', Option.bind_some] at hread'
    cases heq
    cases hread'
    exact ⟨hreaders.captureAlike _ _, hrest⟩
  have hfixed : ∀ (mark : Opening) (word : List Char) {rest : List Char},
      (∀ c ∈ word, c ≠ '\\' ∧ c ≠ ')') →
      mark.isPlain = true → shown = word ++ rest →
      (∀ rest, openShown? later (word ++ rest) = some (mark, later, rest)) →
      some (mark, reading, rest) = some (opening, after, left) →
      left = [] ∨ OpensAlike base known reading after after' opening opening' ∧
        Renumbered base more left left' := by
    rintro mark word rest hword hplain rfl hopened heq
    obtain ⟨others, rfl, hinner⟩ := hrest.take word hword
    rw [hopened] at hread'
    cases heq
    cases hread'
    exact .inr ⟨hreaders.openAlike hplain, hinner⟩
  unfold openShown? at hread
  split at hread
  case h_1 rest =>
    exact hfixed (.look false false) ['?', '='] (by simp) rfl rfl (fun _ => rfl) hread
  case h_2 rest =>
    exact hfixed (.look false true) ['?', '!'] (by simp) rfl rfl (fun _ => rfl) hread
  case h_3 rest =>
    exact hfixed (.look true false) ['?', '<', '='] (by simp) rfl rfl (fun _ => rfl) hread
  case h_4 rest =>
    exact hfixed (.look true true) ['?', '<', '!'] (by simp) rfl rfl (fun _ => rfl) hread
  case h_5 rest hahead hnegated =>
    obtain ⟨others, rfl, hinner⟩ := hrest.take ['?', '<'] (by simp)
    have hopened : openShown? later (['?', '<'] ++ others) = openNamed? later others := by
      rw [List.cons_append, List.cons_append, List.nil_append, openShown?]
      · exact hinner.not_starts ['='] (by simp) hahead
      · exact hinner.not_starts ['!'] (by simp) hnegated
    rw [hopened] at hread'
    exact .inr (hnamed hinner hread hread')
  case h_6 rest =>
    obtain ⟨others, rfl, hinner⟩ := hrest.take ['?', 'P', '<'] (by simp)
    exact .inr (hnamed hinner hread hread')
  case h_7 rest => exact absurd rfl (hname rest)
  case h_8 rest =>
    exact hfixed .atomic ['?', '>'] (by simp) rfl rfl (fun _ => rfl) hread
  case h_9 rest => exact absurd rfl (hcond rest)
  case h_10 rest h1 h2 h3 h4 h5 h6 h7 h8 h9 =>
    obtain ⟨others, rfl, hinner⟩ := hrest.take ['?'] (by simp)
    have hopened : openShown? later (['?'] ++ others)
        = parseFlags? true none later (others.length + 1) others := by
      rw [List.cons_append, List.nil_append, openShown?]
      · exact hinner.not_starts ['='] (by simp) h1
      · exact hinner.not_starts ['!'] (by simp) h2
      · exact hinner.not_starts ['<', '='] (by simp) h3
      · exact hinner.not_starts ['<', '!'] (by simp) h4
      · exact hinner.not_starts ['<'] (by simp) h5
      · exact hinner.not_starts ['P', '<'] (by simp) h6
      · exact hinner.not_starts ['P', '='] (by simp) h7
      · exact hinner.not_starts ['>'] (by simp) h8
      · exact hinner.not_starts ['('] (by simp) h9
    rw [hopened] at hread'
    obtain ⟨rfl, hkind, hafter, hafter', hgoes⟩ :=
      GoesOn.parseFlags (.inr hinner) hreaders.flags_eq hread hread'
    rcases hgoes with rfl | hgoes
    · exact .inl rfl
    have hafters : after.Shifted base known after' := by
      rw [hafter, hafter']
      exact { hreaders with flags_eq := rfl }
    have hgroups : reading.groups = after.groups := by rw [hafter]
    have hplain : opening'.isPlain = true := by rcases hkind with rfl | rfl <;> rfl
    exact .inr ⟨{ hafters.openAlike hplain with groups_le := Nat.le_of_eq hgroups }, hgoes⟩
  case h_11 h1 h2 h3 h4 h5 h6 h7 h8 h9 h10 =>
    have hopened : openShown? later shown'
        = some ((later.capture none).1, (later.capture none).2, shown') := by
      rw [openShown?]
      · exact hrest.not_starts ['?', '='] (by simp) h1
      · exact hrest.not_starts ['?', '!'] (by simp) h2
      · exact hrest.not_starts ['?', '<', '='] (by simp) h3
      · exact hrest.not_starts ['?', '<', '!'] (by simp) h4
      · exact hrest.not_starts ['?', '<'] (by simp) h5
      · exact hrest.not_starts ['?', 'P', '<'] (by simp) h6
      · exact hrest.not_starts ['?', 'P', '='] (by simp) h7
      · exact hrest.not_starts ['?', '>'] (by simp) h8
      · exact hrest.not_starts ['?', '('] (by simp) h9
      · exact hrest.not_starts ['?'] (by simp) h10
    rw [hopened] at hread'
    cases hread
    cases hread'
    exact .inr ⟨hreaders.captureAlike none none, hrest⟩

end Groups

end Highlighter.Regex.Extended
