import Highlighter.Proofs.Regex.Extended.OneChar
import Highlighter.Proofs.Union.Groups

/-!
# Numbers that stand for characters

In a member of a union, a number that refers to no group is spelt as the
character with that code (`codePart`). The spelling is that of a class,
where other characters have a meaning than outside of it: a character
of `isBareSign` is left as it is, and is then no character any more. Any
other one is read as one character in both dialects
(`readsChar_codePart`), with its variants where letter case is spelt
out.

Parts are rewritten one by one, so nothing else depends on which
character it is: `members_set` puts any part in its place that neither
opens a group nor refers to one, and all other parts and all numbers of
groups stay as they are.
-/

set_option autoImplicit false

namespace Highlighter.Union

open Pattern Regex

variable {parts rest : List Part} {place index opened number : Nat} {part atom : Part}

/-! ### A part in the place of another -/

/-- Whether a part has nothing to do with the numbers of groups. -/
def isApart : Part → Bool
  | .opening _ => false
  | .numeric _ => false
  | _ => true

theorem captures_of_isApart (h : isApart part = true) : captures part = false := by
  cases part <;> first | rfl | cases h

theorem resolvedPart_of_isApart (h : isApart part = true) (opened : Nat) :
    resolvedPart opened part = part := by
  cases part <;> first | rfl | cases h

theorem renumberedPart_of_isApart (h : isApart part = true) (base : Nat) (kept : List Nat)
    (opened : Nat) : renumberedPart base kept opened part = part := by
  cases part <;> first | rfl | cases h

theorem captureCount_set (hpart : parts[place]? = some part) (hcaptures : captures part = false)
    (hatom : captures atom = false) : captureCount (parts.set place atom) = captureCount parts := by
  induction parts generalizing place with
  | nil => rfl
  | cons first rest ih =>
    cases place with
    | zero =>
      cases hpart
      rw [List.set_cons_zero, captureCount_cons, captureCount_cons, hcaptures, hatom]
    | succ place => rw [List.set_cons_succ, captureCount_cons, captureCount_cons, ih hpart]

theorem resolve_set (hpart : parts[place]? = some part) (hcaptures : captures part = false)
    (hatom : isApart atom = true) (opened : Nat) :
    resolve opened (parts.set place atom) = (resolve opened parts).set place atom := by
  induction parts generalizing place opened with
  | nil => rfl
  | cons first rest ih =>
    cases place with
    | zero =>
      cases hpart
      rw [List.set_cons_zero, resolve_cons, resolve_cons, List.set_cons_zero, hcaptures,
        captures_of_isApart hatom, resolvedPart_of_isApart hatom]
    | succ place =>
      rw [List.set_cons_succ, resolve_cons, resolve_cons, List.set_cons_succ, ih hpart]

theorem renumber_set (hpart : parts[place]? = some part) (hcaptures : captures part = false)
    (hatom : isApart atom = true) (base : Nat) (kept : List Nat) (opened : Nat) :
    renumber base kept opened (parts.set place atom)
      = (renumber base kept opened parts).set place atom := by
  induction parts generalizing place opened with
  | nil => rfl
  | cons first rest ih =>
    cases place with
    | zero =>
      cases hpart
      rw [List.set_cons_zero, renumber_cons, renumber_cons, List.set_cons_zero, hcaptures,
        captures_of_isApart hatom, renumberedPart_of_isApart hatom]
    | succ place =>
      rw [List.set_cons_succ, renumber_cons, renumber_cons, List.set_cons_succ, ih hpart]

theorem contains_set (hpart : parts[place]? = some part) (hapart : isApart part = true)
    (hatom : isApart atom = true) (number : Nat) :
    (parts.set place atom).contains (.numeric number) = parts.contains (.numeric number) := by
  have hne : ∀ {other : Part}, isApart other = true → (Part.numeric number == other) = false := by
    intro other hother
    refine beq_eq_false_iff_ne.mpr ?_
    rintro rfl
    cases hother
  induction parts generalizing place with
  | nil => rfl
  | cons first rest ih =>
    cases place with
    | zero =>
      cases hpart
      rw [List.set_cons_zero, List.contains_cons, List.contains_cons, hne hapart, hne hatom]
    | succ place => rw [List.set_cons_succ, List.contains_cons, List.contains_cons, ih hpart]

theorem targets_set (hpart : parts[place]? = some part) (hapart : isApart part = true)
    (hatom : isApart atom = true) : targets (parts.set place atom) = targets parts := by
  unfold targets
  rw [captureCount_set hpart (captures_of_isApart hapart) (captures_of_isApart hatom)]
  simp only [contains_set hpart hapart hatom]

/-! ### A number in a member -/

theorem isApart_codePart (code : Nat) : isApart (codePart code) = true := by
  rcases codePart_cases code with ⟨text, htext⟩ | ⟨text, htext⟩
  · rw [htext]
    rfl
  · rw [htext]
    rfl

/-- A number stands for a character where no group with that number has
opened before. -/
def IsCode (parts : List Part) (place number : Nat) : Prop :=
  parts[place]? = some (.numeric number) ∧ ∀ opener < place, ¬Opens parts opener number

theorem IsCode.resolve (h : IsCode parts place number) :
    (resolve 0 parts)[place]? = some (codePart number) := by
  obtain ⟨hnumber, hopens⟩ := h
  have hnone : ¬(1 ≤ number ∧ number ≤ captureCount (parts.take place)) := by
    rintro ⟨hpos, hle⟩
    obtain ⟨opener, hopener⟩ := exists_opens hpos hle
    obtain ⟨hopener, hlt⟩ := hopener.of_take
    exact hopens opener hlt hopener
  rw [getElem?_resolve, hnumber, Option.map_some, Nat.zero_add, resolvedPart, if_neg]
  rwa [Bool.and_eq_true, decide_eq_true_iff, decide_eq_true_iff]

/-- It is spelt where it stands. -/
theorem IsCode.member (h : IsCode parts place number) (base : Nat) :
    (member base parts).1[place]? = some (codePart number) := by
  show (renumber base _ 0 (Union.resolve 0 parts))[place]? = _
  rw [getElem?_renumber, h.resolve, Option.map_some, renumberedPart_of_isApart (isApart_codePart _)]

/-- Anything else in its place leaves the rest of the member as it is. -/
theorem IsCode.member_set (h : IsCode parts place number) (hatom : isApart atom = true)
    (base : Nat) :
    Union.member base (parts.set place atom)
      = ((Union.member base parts).1.set place atom, (Union.member base parts).2) := by
  have hresolve := resolve_set h.1 rfl hatom 0
  have hcode := isApart_codePart number
  have htargets : targets ((Union.resolve 0 parts).set place atom)
      = targets (Union.resolve 0 parts) := targets_set h.resolve hcode hatom
  have hmember : ∀ parts, Union.member base parts
      = (renumber base (targets (Union.resolve 0 parts)) 0 (Union.resolve 0 parts),
        base + (targets (Union.resolve 0 parts)).length) := fun _ => rfl
  rw [hmember, hmember, hresolve, htargets,
    renumber_set h.resolve (captures_of_isApart hcode) hatom]

/-- A change of one list that leaves the numbers of groups as they are
leaves the other members as they are. -/
theorem members_modify {change : List Part → List Part} {lists : List (List Part)}
    (hparts : lists[index]? = some parts)
    (h : ∀ base, member base (change parts) = (change (member base parts).1, (member base parts).2))
    (base : Nat) :
    members base (lists.modify index change)
      = ((members base lists).1.modify index change, (members base lists).2) := by
  induction lists generalizing base index with
  | nil => cases hparts
  | cons first others ih =>
    cases index with
    | zero =>
      cases hparts
      show ((member base (change parts)).1 :: (members (member base (change parts)).2 others).1,
        (members (member base (change parts)).2 others).2) = _
      rw [h]
      rfl
    | succ index =>
      have hrest := ih hparts (member base first).2
      show ((member base first).1 :: (members (member base first).2 (others.modify index change)).1,
        (members (member base first).2 (others.modify index change)).2) = _
      rw [hrest]
      rfl

/-! ### The text of a member -/

/-- The text of a part, with letter case spelt out or not. -/
def partText (folded : Bool) (part : Part) : List Char :=
  if folded then part.renderFolded else part.render

/-- Carets are left out on both sides of another part alike. -/
theorem dropCarets_append_cons (hpart : part ≠ .caret) (parts rest : List Part) :
    dropCarets (parts ++ part :: rest) = dropCarets parts ++ part :: dropCarets rest := by
  have hhead : dropCarets (part :: rest) = part :: dropCarets rest := by
    rw [dropCarets]
    · exact fun _ heq _ => hpart heq
    · exact hpart
  fun_induction dropCarets parts with
  | case1 others ih =>
    rw [List.cons_append, List.cons_append, dropCarets, ← List.cons_append, ih, List.cons_append]
  | case2 others hsingle ih =>
    rw [List.cons_append, dropCarets, ih]
    rintro others' heq
    cases others with
    | nil => exact hpart (List.cons.inj heq).1
    | cons other others => exact hsingle others (by rw [(List.cons.inj heq).1])
  | case3 other others hdouble hother ih =>
    rw [List.cons_append, dropCarets, ih]
    · rfl
    · exact fun _ heq _ => hother heq
    · exact hother
  | case4 => exact hhead

/-- The text of a member goes part by part, but for its carets. -/
theorem memberText_split (folded : Bool) (hpart : parts[place]? = some part) (hcaret : part ≠ .caret) :
    memberText folded parts = memberText folded (parts.take place) ++ partText folded part ++
      memberText folded (parts.drop (place + 1)) := by
  obtain ⟨hlt, hget⟩ := List.getElem?_eq_some_iff.mp hpart
  have hsplit : parts = parts.take place ++ part :: parts.drop (place + 1) := by
    rw [← hget, List.getElem_cons_drop, List.take_append_drop]
  conv => lhs; rw [hsplit]
  unfold memberText
  rw [dropCarets_append_cons hcaret, List.flatMap_append, List.flatMap_cons, List.append_assoc]
  rfl

/-! ### The spelling of a code -/

/-- Whether a character means something of its own where it is written
as it is outside of classes, but not inside. -/
def isBareSign (c : Char) : Bool := "$().*+?\x7b|".toList.contains c

/-- In what ways a code is spelt. -/
theorem codePart_spelling (h : number.isValidChar) :
    ("\\-][^&~".toList.contains (Char.ofNat number) = false ∧
      codePart number = .literal [Char.ofNat number]) ∨
    ("\\-][^".toList.contains (Char.ofNat number) = true ∧
      codePart number = .escape ['\\', Char.ofNat number]) ∨
    (number < 0x80 ∧
      codePart number = .escape ('\\' :: 'x' :: '\x7b' :: (Nat.toDigits 16 number ++ ['\x7d']))) := by
  unfold codePart
  rcases quotedCode_cases h with ⟨hplain, htext⟩ | ⟨hquoted, htext⟩ | ⟨hascii, htext⟩
  · refine .inl ⟨hplain, ?_⟩
    rw [htext]
    split
    · rename_i heq
      have hslash := (List.cons.inj heq).1
      rw [hslash] at hplain
      exact absurd hplain (by decide)
    · rfl
  · exact .inr (.inl ⟨hquoted, by rw [htext]; rfl⟩)
  · exact .inr (.inr ⟨hascii, by rw [htext]; rfl⟩)

/-- A character with its variants, where letter case is spelt out. -/
theorem readsChar_foldChar {c : Char} (h : isLiteral c = true) :
    Regular.ReadsChar true c (foldChar c) ∧ Extended.ReadsChar true c (foldChar c) := by
  have hregular := Regular.readsChar_literal h
  have hextended := Extended.readsChar_literal h
  by_cases halpha : c.isAlpha = true
  · rw [foldChar_letter halpha]
    exact ⟨Regular.readsChar_letter halpha, Extended.readsChar_letter halpha⟩
  · rw [foldChar, if_neg halpha]
    split
    · rename_i hcased
      have hcased := (Bool.and_eq_true_iff.mp hcased).2
      refine ⟨hregular.ignoring fun verbose => Regular.skipBlank_cased hcased verbose [],
        hextended.ignoring fun reading => reading.skip_cons ?_ []⟩
      exact contains_eq_false Unicode.isCased (by decide) hcased
    · rename_i hcased
      have hself : Unicode.isCased c = false := by
        by_cases hascii : c.toNat < 0x80
        · exact Expr.isCased_of_ascii hascii (Bool.not_eq_true _ ▸ halpha)
        · rw [Bool.and_eq_true, decide_eq_true_eq, not_and, Bool.not_eq_true] at hcased
          exact hcased (by omega)
      exact ⟨hregular.folded hself, hextended.folded hself⟩

/-- A code is read as one character, unless that character is left as
it is and means something else there. -/
theorem readsChar_codePart (h : number.isValidChar)
    (hbare : isBareSign (Char.ofNat number) = false) (folded : Bool) :
    Regular.ReadsChar folded (Char.ofNat number) (partText folded (codePart number)) ∧
      Extended.ReadsChar folded (Char.ofNat number) (partText folded (codePart number)) := by
  rcases codePart_spelling h with ⟨hplain, hpart⟩ | ⟨hquoted, hpart⟩ | ⟨hascii, hpart⟩
  · have hliteral : isLiteral (Char.ofNat number) = true := by
      unfold isBareSign at hbare
      unfold isLiteral
      simp_all
    rw [hpart]
    cases folded with
    | false => exact ⟨Regular.readsChar_literal hliteral, Extended.readsChar_literal hliteral⟩
    | true =>
      have htext : partText true (.literal [Char.ofNat number]) = foldChar (Char.ofNat number) :=
        List.append_nil _
      rw [htext]
      exact readsChar_foldChar hliteral
  · have hall : "\\-][^".toList.all (fun c => isEscapable c && !isCasedEscape c &&
        !Unicode.isCased c) = true := by decide
    have hsign := List.all_eq_true.mp hall _ (List.contains_iff_mem.mp hquoted)
    simp only [Bool.and_eq_true, Bool.not_eq_true'] at hsign
    obtain ⟨⟨hescapable, hletter⟩, hcased⟩ := hsign
    have hregular := Regular.readsChar_escaped hescapable
    have hextended := Extended.readsChar_escaped hescapable
    rw [hpart]
    cases folded with
    | false => exact ⟨hregular, hextended⟩
    | true =>
      have htext : partText true (.escape ['\\', Char.ofNat number]) = ['\\', Char.ofNat number] :=
        Expr.foldEscape_of_not_isCasedEscape hletter []
      rw [htext]
      exact ⟨hregular.folded hcased, hextended.folded hcased⟩
  · have hall : ∀ code < 0x80, ((Nat.toDigits 16 code).all fun d => isHexDigit d && !isBlank d) =
        true ∧ (Nat.toDigits 16 code).length ≤ 8 ∧
          coded? (Nat.toDigits 16 code) = some (Char.ofNat code) := by decide +kernel
    obtain ⟨hdigits, hlength, hcode⟩ := hall number hascii
    have hdigits : ∀ d ∈ Nat.toDigits 16 number, isHexDigit d = true ∧ isBlank d = false := by
      simpa using hdigits
    have hregular := Regular.readsChar_coded hdigits hcode
    have hextended := Extended.readsChar_coded (fun d hd => (hdigits d hd).1) hlength hcode
    rw [hpart]
    cases folded with
    | false => exact ⟨hregular, hextended⟩
    | true =>
      exact ⟨hregular.ignoring fun verbose => Regular.skipBlank_cons (by decide) (by decide) verbose _,
        hextended.ignoring fun reading => reading.skip_cons (by decide) _⟩

/-! ### Unions -/

/-- The branch of a pattern is the text of its member, in a group. -/
theorem getElem?_branches (rule : CaseRule) {patterns : List Pattern} {pattern : Pattern}
    (hpattern : patterns[index]? = some pattern) (hparts : (rewritten patterns)[index]? = some parts) :
    (branches rule patterns)[index]?
      = some ("(?:".toList ++ memberText (rule == .mixed && pattern.ignoreCase) parts ++ [')']) := by
  have htext : (List.zipWith (fun pattern parts =>
      memberText (rule == .mixed && pattern.ignoreCase) parts) patterns (rewritten patterns))[index]?
        = some (memberText (rule == .mixed && pattern.ignoreCase) parts) := by
    rw [List.getElem?_zipWith, hpattern, hparts]
  have hbranch := congrArg (Option.map fun text => "(?:".toList ++ text ++ [')']) htext
  rw [← List.getElem?_map, Option.map_some] at hbranch
  have hlt := (List.getElem?_eq_some_iff.mp hbranch).1
  exact (List.getElem?_append_left hlt).trans hbranch

/-- A pattern with the code of a letter after a group, next to one in
which letter case counts. -/
def letterAfterGroup : List Pattern := [⟨"(b)\\107", true, false⟩, ⟨"c", false, false⟩]

end Highlighter.Union
