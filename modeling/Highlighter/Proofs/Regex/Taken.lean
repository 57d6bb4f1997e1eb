import Highlighter.Proofs.Pattern.CaseFold
import Highlighter.Proofs.Regex.ClassBody

/-!
# What the readers of classes take of a text

A reader answers with what is left of the text, so what it has taken
stands before that. The lemmas here say so for the readers of codes,
escapes, members and classes: `parseCode_eq_some` also says which digits
have been read, and `parseClass_eq_some` that a class ends with its
closing bracket. The inductions follow the fuel of the readers.
-/

set_option autoImplicit false

namespace Highlighter.Regex

open Pattern

variable {cs left : List Char}

/-! ### Codes -/

/-- The value of a row of hexadecimal digits, on top of those before. -/
def hexFold (value : Nat) (digits : List Char) : Option Nat :=
  digits.foldlM (fun value c => do return 16 * value + (← hexValue? c)) value

theorem hexFold_cons (value : Nat) (c : Char) (digits : List Char) :
    hexFold value (c :: digits) = (hexValue? c).bind fun digit =>
      hexFold (16 * value + digit) digits := by
  unfold hexFold
  rw [List.foldlM_cons]
  cases hexValue? c <;> rfl

theorem isHexDigit_of_hexFold {value code : Nat} {digits : List Char}
    (h : hexFold value digits = some code) : ∀ d ∈ digits, isHexDigit d = true := by
  induction digits generalizing value with
  | nil => exact fun d hd => nomatch hd
  | cons c digits ih =>
    rw [hexFold_cons] at h
    obtain ⟨digit, hdigit, hrest⟩ := Option.bind_eq_some_iff.mp h
    exact List.forall_mem_cons.mpr ⟨Option.isSome_of_eq_some hdigit, ih hrest⟩

theorem hexNumber_eq_hexFold {digits : List Char} (h : digits ≠ []) :
    hexNumber? digits = hexFold 0 digits := by
  cases digits with
  | nil => exact absurd rfl h
  | cons c digits => rfl

theorem isHexDigit_of_hexNumber {code : Nat} {digits : List Char}
    (h : hexNumber? digits = some code) : ∀ d ∈ digits, isHexDigit d = true := by
  cases digits with
  | nil => cases h
  | cons c digits => exact isHexDigit_of_hexFold h

theorem parseHexDigits_eq_some {count value code : Nat}
    (h : parseHexDigits? false count value cs = some (code, left)) :
    ∃ digits, cs = digits ++ left ∧ digits.length = count ∧ hexFold value digits = some code := by
  induction count generalizing value cs with
  | zero =>
    cases h
    exact ⟨[], rfl, rfl, rfl⟩
  | succ count ih =>
    cases cs with
    | nil => cases h
    | cons c cs =>
      rw [parseHexDigits?] at h
      obtain ⟨digit, hdigit, hrest⟩ := Option.bind_eq_some_iff.mp h
      obtain ⟨digits, rfl, hlength, hcode⟩ := ih hrest
      refine ⟨c :: digits, rfl, by rw [List.length_cons, hlength], ?_⟩
      rw [hexFold_cons, hdigit]
      exact hcode

/-- Braces end with the first one that closes. -/
theorem untilBrace_eq_some {steps : Nat} {inner : List Char}
    (h : untilBrace? false steps cs = some (inner, left)) :
    cs = inner ++ '}' :: left ∧ '}' ∉ inner := by
  induction steps generalizing cs inner with
  | zero => cases h
  | succ steps ih =>
    rw [untilBrace?, skipBlank_false] at h
    split at h
    · cases h
    · cases h
      exact ⟨rfl, List.not_mem_nil⟩
    · rename_i c rest hclose
      obtain ⟨⟨body, left'⟩, hbody, hrest⟩ := Option.bind_eq_some_iff.mp h
      cases hrest
      obtain ⟨rfl, hmem⟩ := ih hbody
      refine ⟨rfl, fun hbrace => ?_⟩
      rcases List.mem_cons.mp hbrace with rfl | hbrace
      · exact hclose rfl
      · exact hmem hbrace

/-- The two ways in which the code of a character is written, after the
letter of its escape. -/
inductive CodeText (width : Nat) : List Char → List Char → Prop where
  | braced (digits : List Char) : CodeText width ('{' :: (digits ++ ['}'])) digits
  | fixed {digits : List Char} (hwidth : digits.length = width) : CodeText width digits digits

theorem parseCode_eq_some {width : Nat} (hwidth : width ≠ 0) {piece : Primitive}
    (h : parseCode? false width cs = some (piece, left)) :
    ∃ text digits code c byte, cs = text ++ left ∧ CodeText width text digits ∧
      hexNumber? digits = some code ∧ charOfCode? code = some c ∧ piece = .literal c byte := by
  unfold parseCode? at h
  rw [skipBlank_false] at h
  split at h
  · rename_i rest
    obtain ⟨⟨inner, after⟩, hinner, h⟩ := Option.bind_eq_some_iff.mp h
    obtain ⟨code, hcode, h⟩ := Option.bind_eq_some_iff.mp h
    obtain ⟨c, hc, h⟩ := Option.bind_eq_some_iff.mp h
    cases h
    obtain ⟨rfl, -⟩ := untilBrace_eq_some hinner
    exact ⟨_, inner, code, c, false, by simp [skipBlank_false], .braced inner, hcode, hc, rfl⟩
  · obtain ⟨⟨code, after⟩, hdigits, h⟩ := Option.bind_eq_some_iff.mp h
    obtain ⟨c, hc, h⟩ := Option.bind_eq_some_iff.mp h
    cases h
    obtain ⟨digits, rfl, hlength, hcode⟩ := parseHexDigits_eq_some hdigits
    have hne : digits ≠ [] := by
      rintro rfl
      exact hwidth hlength.symm
    exact ⟨digits, digits, code, c, _, rfl, .fixed hlength,
      (hexNumber_eq_hexFold hne).trans hcode, hc, rfl⟩

/-! ### Escapes and members -/

/-- A reader takes at least one character. -/
def Takes {α : Type} (read : List Char → Option (α × List Char)) : Prop :=
  ∀ cs found left, read cs = some (found, left) → ∃ d text, cs = d :: (text ++ left)

theorem parseProperty_eq_some {negated : Bool} {piece : Primitive}
    (h : parseProperty? false negated cs = some (piece, left)) :
    ∃ text, cs = text ++ left ∧ ∃ query, piece = .property query negated := by
  unfold parseProperty? at h
  rw [skipBlank_false] at h
  split at h
  · cases h
  · obtain ⟨⟨inner, after⟩, hinner, h⟩ := Option.bind_eq_some_iff.mp h
    cases h
    obtain ⟨rfl, -⟩ := untilBrace_eq_some hinner
    exact ⟨'{' :: (inner ++ ['}']), by simp, _, rfl⟩
  · cases h
  · rename_i c rest _ _
    cases h
    exact ⟨[c], rfl, _, rfl⟩

/-- The name of a word boundary is taken, and nothing else. -/
theorem boundaryName_eq (steps : Nat) (cs : List Char) :
    (boundaryName false steps cs).1 ++ (boundaryName false steps cs).2 = cs ∧
      ∀ c ∈ (boundaryName false steps cs).1, isBoundaryNameChar c = true := by
  induction steps generalizing cs with
  | zero => exact ⟨rfl, List.forall_mem_nil _⟩
  | succ steps ih =>
    cases cs with
    | nil => exact ⟨rfl, List.forall_mem_nil _⟩
    | cons c rest =>
      rw [boundaryName]
      split
      · rename_i hc
        exact ⟨congrArg (c :: ·) (ih rest).1, List.forall_mem_cons.mpr ⟨hc, (ih rest).2⟩⟩
      · exact ⟨rfl, List.forall_mem_nil _⟩

/-- A word boundary takes nothing after its letter, or a name in
braces. -/
theorem parseBoundary_eq_some {found : Primitive}
    (h : parseBoundary? false cs = some (found, left)) :
    cs = left ∨ ∃ name, cs = '{' :: (name ++ '}' :: left) ∧
      ∀ c ∈ name, isBoundaryNameChar c = true := by
  unfold parseBoundary? at h
  split at h
  · rename_i rest
    rw [skipBlank_false] at h
    split at h
    · cases h
    · rename_i c inner
      split at h
      · cases h
        exact .inl rfl
      · -- Whatever the name means, it stands before what is left.
        obtain ⟨happend, hname⟩ := boundaryName_eq (inner.length + 1) (c :: inner)
        split at h
        · rename_i name after heq
          have hleft : left = after := by
            split at h <;> cases h <;> rfl
          rw [heq] at happend hname
          subst hleft
          exact .inr ⟨name, by rw [happend], hname⟩
        · cases h
  · cases h
    exact .inl rfl

theorem takes_parseEscape : Takes (parseEscape? false) := by
  intro cs piece left h
  cases cs with
  | nil => cases h
  | cons c rest =>
    refine ⟨c, ?_⟩
    have hcode : ∀ {width : Nat}, width ≠ 0 →
        parseCode? false width rest = some (piece, left) → ∃ text, c :: rest = c :: (text ++ left) := by
      intro width hwidth hread
      obtain ⟨text, -, -, -, -, rfl, -⟩ := parseCode_eq_some hwidth hread
      exact ⟨text, rfl⟩
    have hproperty : ∀ {negated : Bool}, parseProperty? false negated rest = some (piece, left) →
        ∃ text, c :: rest = c :: (text ++ left) := by
      intro negated hread
      obtain ⟨text, rfl, -⟩ := parseProperty_eq_some hread
      exact ⟨text, rfl⟩
    by_cases hletter : "xuUpPb".toList.contains c = true
    · have hcases : c = 'x' ∨ c = 'u' ∨ c = 'U' ∨ c = 'p' ∨ c = 'P' ∨ c = 'b' := by
        simpa using hletter
      rcases hcases with rfl | rfl | rfl | rfl | rfl | rfl
      · exact hcode (by decide) h
      · exact hcode (by decide) h
      · exact hcode (by decide) h
      · exact hproperty h
      · exact hproperty h
      · rcases parseBoundary_eq_some h with rfl | ⟨name, rfl, -⟩
        · exact ⟨[], rfl⟩
        · exact ⟨'{' :: (name ++ ['}']), by simp⟩
    · rw [parseEscape_letter (by simpa using hletter)] at h
      obtain ⟨found, -, heq⟩ := Option.map_eq_some_iff.mp h
      cases heq
      exact ⟨[], rfl⟩

theorem takes_parseMember : Takes (parseMember? false) := by
  intro cs piece left h
  unfold parseMember? at h
  split at h
  · cases h
  · obtain ⟨d, text, rfl⟩ := takes_parseEscape _ _ _ h
    exact ⟨'\\', d :: text, rfl⟩
  · cases h
    exact ⟨_, [], rfl⟩

/-- The three ways in which a member or a range of a class is read: a
member that no hyphen follows, one that a hyphen follows which makes no
range, or a range. -/
inductive RangeRead (cs : List Char) (item : ClassSet) (left : List Char) : Prop where
  | single {first : Primitive} (hfirst : parseMember? false cs = some (first, left))
    (hclass : first.toClass? = some item) (hne : left ≠ [])
    (hhyphen : ∀ rest, left ≠ '-' :: rest)
  | hyphen {first : Primitive} {rest : List Char}
    (hfirst : parseMember? false cs = some (first, '-' :: rest))
    (hclass : first.toClass? = some item) (hleft : left = '-' :: rest)
    (hnext : rest.head? = some ']' ∨ rest.head? = some '-')
  | range {lo hi : Char} {byte byte' : Bool} {rest : List Char}
    (hfirst : parseMember? false cs = some (.literal lo byte, '-' :: rest))
    (hsecond : parseMember? false rest = some (.literal hi byte', left)) (hle : lo ≤ hi)
    (hitem : item = .range lo hi) (hclose : rest.head? ≠ some ']')
    (hhyphen : rest.head? ≠ some '-')

theorem parseRange_eq_some {item : ClassSet} (h : parseRange? false cs = some (item, left)) :
    RangeRead cs item left := by
  cases hfirst : parseMember? false cs with
  | none =>
    rw [parseRange?, hfirst] at h
    cases h
  | some found =>
    obtain ⟨first, after⟩ := found
    cases after with
    | nil =>
      rw [parseRange?, hfirst] at h
      cases h
    | cons c rest =>
      by_cases hc : c = '-'
      · subst hc
        by_cases hnext : rest.head? = some ']' ∨ rest.head? = some '-'
        · rw [parseRange_hyphen hfirst hnext] at h
          obtain ⟨item', hclass, heq⟩ := Option.map_eq_some_iff.mp h
          cases heq
          exact .hyphen hfirst hclass rfl hnext
        · obtain ⟨hclose, hhyphen⟩ := not_or.mp hnext
          rw [parseRange_range hfirst hclose hhyphen] at h
          obtain ⟨⟨second, after⟩, hsecond, h⟩ := Option.bind_eq_some_iff.mp h
          obtain ⟨item', hrange, heq⟩ := Option.map_eq_some_iff.mp h
          cases heq
          simp only [rangeOf?] at hrange
          split at hrange
          · split at hrange
            · rename_i hle
              cases hrange
              exact .range hfirst hsecond hle rfl hclose hhyphen
            · cases hrange
          · cases hrange
      · have hhyphen : ∀ others, c :: rest ≠ '-' :: others := fun others heq =>
          hc (List.cons.inj heq).1
        rw [parseRange_single hfirst (List.cons_ne_nil c rest) hhyphen] at h
        obtain ⟨item', hclass, heq⟩ := Option.map_eq_some_iff.mp h
        cases heq
        exact .single hfirst hclass (List.cons_ne_nil c rest) hhyphen

theorem RangeRead.takes {item : ClassSet} (h : RangeRead cs item left) :
    ∃ d text, cs = d :: (text ++ left) := by
  cases h with
  | single hfirst => exact takes_parseMember _ _ _ hfirst
  | hyphen hfirst _ hleft _ =>
    subst hleft
    exact takes_parseMember _ _ _ hfirst
  | range hfirst hsecond =>
    obtain ⟨d, text, rfl⟩ := takes_parseMember _ _ _ hfirst
    obtain ⟨e, others, rfl⟩ := takes_parseMember _ _ _ hsecond
    exact ⟨d, text ++ '-' :: e :: others, by simp⟩

/-! ### Classes -/

/-- What is read of a named class after its colon and its sign. -/
def posixNamed? (negated : Bool) (cs : List Char) : Option (ClassSet × List Char) :=
  match cs.dropWhile (· != ':') with
  | ':' :: ']' :: rest => do
    let kind ← PosixClass.ofName? (String.ofList (cs.takeWhile (· != ':')))
    return (.posix kind negated, rest)
  | _ => none

theorem posixNamed_eq_some {negated : Bool} {item : ClassSet}
    (h : posixNamed? negated cs = some (item, left)) :
    ∃ name kind, cs = name ++ ':' :: ']' :: left ∧
      PosixClass.ofName? (String.ofList name) = some kind ∧ item = .posix kind negated := by
  unfold posixNamed? at h
  split at h
  · rename_i rest hdrop
    obtain ⟨kind, hkind, heq⟩ := Option.bind_eq_some_iff.mp h
    cases heq
    refine ⟨_, kind, ?_, hkind, rfl⟩
    rw [← hdrop, List.takeWhile_append_dropWhile]
  · cases h

theorem parsePosix_sign (cs : List Char) : parsePosix? (':' :: '^' :: cs) = posixNamed? true cs :=
  rfl

theorem parsePosix_plain (h : ∀ rest, cs ≠ '^' :: rest) :
    parsePosix? (':' :: cs) = posixNamed? false cs := by
  unfold posixNamed? parsePosix?
  split
  · rename_i heq
    cases heq
    split
    · rename_i heq
      split at heq
      · exact absurd rfl (h _)
      · cases heq
        rfl
  · rename_i hne
    exact absurd rfl (hne cs)

/-- A named class is read with its colons and its bracket. -/
theorem parsePosix_eq_some {item : ClassSet} (h : parsePosix? cs = some (item, left)) :
    ∃ negated name kind, cs = ':' :: (negation negated ++ (name ++ ':' :: ']' :: left)) ∧
      PosixClass.ofName? (String.ofList name) = some kind ∧ item = .posix kind negated := by
  have hcolon : ∃ rest, cs = ':' :: rest := by
    unfold parsePosix? at h
    split at h
    · exact ⟨_, rfl⟩
    · cases h
  obtain ⟨rest, rfl⟩ := hcolon
  by_cases hsign : ∃ others, rest = '^' :: others
  · obtain ⟨others, rfl⟩ := hsign
    obtain ⟨name, kind, rfl, hkind, hitem⟩ := posixNamed_eq_some ((parsePosix_sign others).symm.trans h)
    exact ⟨true, name, kind, rfl, hkind, hitem⟩
  · obtain ⟨name, kind, rfl, hkind, hitem⟩ :=
      posixNamed_eq_some ((parsePosix_plain fun others heq => hsign ⟨others, heq⟩).symm.trans h)
    exact ⟨false, name, kind, rfl, hkind, hitem⟩

theorem takes_parsePosix : Takes parsePosix? := by
  intro cs item left h
  obtain ⟨negated, name, -, rfl, -⟩ := parsePosix_eq_some h
  exact ⟨':', negation negated ++ (name ++ [':', ']']), by simp⟩

theorem leadingHyphens_eq_some {steps : Nat} {items : List ClassSet}
    (h : leadingHyphens? false steps cs = some (items, left)) :
    ∃ count, cs = List.replicate count '-' ++ left ∧
      items = List.replicate count (.literal '-') ∧ left ≠ [] ∧ left.head? ≠ some '-' := by
  induction steps generalizing cs items with
  | zero => cases h
  | succ steps ih =>
    unfold leadingHyphens? at h
    split at h
    · cases h
    · rw [skipBlank_false] at h
      obtain ⟨⟨others, after⟩, hothers, heq⟩ := Option.bind_eq_some_iff.mp h
      cases heq
      obtain ⟨count, rfl, rfl, hne, hhead⟩ := ih hothers
      exact ⟨count + 1, rfl, rfl, hne, hhead⟩
    · rename_i hne hhyphen
      cases h
      refine ⟨0, rfl, rfl, hne, fun hhead => ?_⟩
      obtain ⟨rest, rfl⟩ := List.head?_eq_some_iff.mp hhead
      exact hhyphen rest rfl

/-- What a class starts with: the sign of a negated class, and then a
closing bracket that is a member, or any number of hyphens. -/
structure Opened (cs : List Char) (negated : Bool) (items : List ClassSet) (left : List Char)
    (rest : List Char) : Prop where
  eq_append : cs = negation negated ++ rest
  head?_ne : negated = false → rest.head? ≠ some '^'
  cases : (rest = ']' :: left ∧ items = [.literal ']']) ∨
    ∃ count, rest = List.replicate count '-' ++ left ∧
      items = List.replicate count (.literal '-') ∧ left.head? ≠ some '-' ∧
      (count = 0 → left.head? ≠ some ']')

theorem openClass_eq_some {negated : Bool} {items : List ClassSet}
    (h : openClass? false cs = some (negated, items, left)) :
    ∃ rest, Opened cs negated items left rest := by
  have hopen : ∀ {sign : Bool} {rest : List Char},
      openMembers? sign rest = some (negated, items, left) → sign = negated ∧
        ((rest = ']' :: left ∧ items = [.literal ']']) ∨
          ∃ count, rest = List.replicate count '-' ++ left ∧
            items = List.replicate count (.literal '-') ∧ left.head? ≠ some '-' ∧
            (count = 0 → left.head? ≠ some ']')) := by
    intro sign rest h
    obtain ⟨⟨lead, after⟩, hlead, h⟩ := Option.bind_eq_some_iff.mp h
    obtain ⟨count, rfl, rfl, -, hhead⟩ := leadingHyphens_eq_some hlead
    simp only at h
    split at h
    · rename_i hnil hcons
      have hcount : count = 0 := by simpa using hnil
      subst hcount
      split at h
      · cases h
      · cases h
        exact ⟨rfl, .inl ⟨rfl, rfl⟩⟩
    · rename_i hclose _
      cases h
      refine ⟨rfl, .inr ⟨count, rfl, rfl, hhead, ?_⟩⟩
      rintro rfl hhead'
      obtain ⟨others, rfl⟩ := List.head?_eq_some_iff.mp hhead'
      exact hclose others rfl rfl
  by_cases hcaret : ∃ rest, cs = '^' :: rest
  · obtain ⟨rest, rfl⟩ := hcaret
    have hmembers : openMembers? true rest = some (negated, items, left) := h
    obtain ⟨rfl, hcases⟩ := hopen hmembers
    exact ⟨rest, rfl, fun hnot => (nomatch hnot), hcases⟩
  · rw [openClass_members fun rest heq => hcaret ⟨rest, heq⟩] at h
    obtain ⟨rfl, hcases⟩ := hopen h
    refine ⟨cs, rfl, fun _ hhead => hcaret ?_, hcases⟩
    exact List.head?_eq_some_iff.mp hhead

/-- All that a step along the members of a class can do: end the class,
start an operand, or read a named class, a nested class, a member or a
range. -/
inductive MembersStep (steps : Nat) (pending : Option (ClassOp × ClassSet))
    (items : List ClassSet) (cs : List Char) (set : ClassSet) (left : List Char) : Prop where
  | close (hcs : cs = ']' :: left) (hset : set = closeOperand pending items)
  | op {c : Char} {op : ClassOp} {rest : List Char} (hop : doubledOp? c = some op)
    (hcs : cs = c :: c :: rest)
    (hrest : parseMembers? false steps (some (op, closeOperand pending items)) [] rest
      = some (set, left))
  | posix {item : ClassSet} {rest after : List Char} (hcs : cs = '[' :: rest)
    (hposix : parsePosix? rest = some (item, after))
    (hrest : parseMembers? false steps pending (item :: items) after = some (set, left))
  | nested {negated : Bool} {inner : List ClassSet} {body : ClassSet}
    {rest opened after : List Char} (hcs : cs = '[' :: rest) (hposix : parsePosix? rest = none)
    (hopen : openClass? false rest = some (negated, inner, opened))
    (hbody : parseMembers? false steps none inner.reverse opened = some (body, after))
    (hrest : parseMembers? false steps pending (.bracket negated body :: items) after
      = some (set, left))
  | item {c : Char} {tail after : List Char} {item : ClassSet} (hcs : cs = c :: tail)
    (hopen : c ≠ '[') (hclose : c ≠ ']') (hop : tail.head? = some c → doubledOp? c = none)
    (hrange : RangeRead cs item after)
    (hrest : parseMembers? false steps pending (item :: items) after = some (set, left))

theorem parseMembers_bracket (steps : Nat) (pending : Option (ClassOp × ClassSet))
    (items : List ClassSet) (tail : List Char) :
    parseMembers? false (steps + 1) pending items ('[' :: tail)
      = match parsePosix? tail with
        | some (item, rest) => parseMembers? false steps pending (item :: items) rest
        | none => (openClass? false tail).bind fun opened =>
            (parseMembers? false steps none opened.2.1.reverse opened.2.2).bind fun body =>
              parseMembers? false steps pending (.bracket opened.1 body.1 :: items) body.2 :=
  rfl

theorem parseMembers_eq_some {steps : Nat} {pending : Option (ClassOp × ClassSet)}
    {items : List ClassSet} {set : ClassSet}
    (h : parseMembers? false (steps + 1) pending items cs = some (set, left)) :
    MembersStep steps pending items cs set left := by
  cases cs with
  | nil => cases h
  | cons c tail =>
    by_cases hclose : c = ']'
    · subst hclose
      cases h
      exact .close rfl rfl
    by_cases hopen : c = '['
    · subst hopen
      rw [parseMembers_bracket] at h
      split at h
      · rename_i hposix
        exact .posix rfl hposix h
      · rename_i hposix
        obtain ⟨⟨negated, inner, opened⟩, hopen, h⟩ := Option.bind_eq_some_iff.mp h
        obtain ⟨⟨body, after⟩, hbody, h⟩ := Option.bind_eq_some_iff.mp h
        exact .nested rfl hposix hopen hbody h
    by_cases hdoubled : tail.head? = some c ∧ doubledOp? c ≠ none
    · obtain ⟨hhead, hop⟩ := hdoubled
      obtain ⟨op, hop⟩ := Option.ne_none_iff_exists'.mp hop
      obtain ⟨rest, rfl⟩ := List.head?_eq_some_iff.mp hhead
      rw [parseMembers_op hop] at h
      exact .op hop rfl h
    · have hop : tail.head? = some c → doubledOp? c = none := by simpa using hdoubled
      rw [parseMembers_item hopen hclose hop] at h
      obtain ⟨⟨item, after⟩, hrange, h⟩ := Option.bind_eq_some_iff.mp h
      exact .item rfl hopen hclose hop (parseRange_eq_some hrange) h

/-- What a class starts with stands before what is left. -/
theorem Opened.exists_append {negated : Bool} {items : List ClassSet} {rest : List Char}
    (h : Opened cs negated items left rest) : ∃ start, cs = negation negated ++ (start ++ left) := by
  rcases h.cases with ⟨rfl, -⟩ | ⟨count, rfl, -⟩
  · exact ⟨[']'], h.eq_append⟩
  · exact ⟨_, h.eq_append⟩

/-- Members are read up to a closing bracket. -/
theorem exists_of_parseMembers {steps : Nat} {pending : Option (ClassOp × ClassSet)}
    {items : List ClassSet} {set : ClassSet}
    (h : parseMembers? false steps pending items cs = some (set, left)) :
    ∃ text, cs = text ++ ']' :: left := by
  induction steps generalizing pending items cs set left with
  | zero => cases h
  | succ steps ih =>
    cases parseMembers_eq_some h with
    | close hcs _ => exact ⟨[], hcs⟩
    | @op c _ _ _ hcs hrest =>
      obtain ⟨text, rfl⟩ := ih hrest
      exact ⟨c :: c :: text, hcs⟩
    | posix hcs hposix hrest =>
      obtain ⟨text, rfl⟩ := ih hrest
      obtain ⟨d, named, rfl⟩ := takes_parsePosix _ _ _ hposix
      exact ⟨'[' :: d :: (named ++ text), by rw [hcs]; simp⟩
    | @nested negated _ _ _ _ _ hcs _ hopen hbody hrest =>
      obtain ⟨inside, rfl⟩ := ih hbody
      obtain ⟨text, rfl⟩ := ih hrest
      obtain ⟨rest, hopened⟩ := openClass_eq_some hopen
      obtain ⟨start, rfl⟩ := hopened.exists_append
      exact ⟨'[' :: (negation negated ++ (start ++ (inside ++ ']' :: text))), by rw [hcs]; simp⟩
    | item hcs _ _ _ hrange hrest =>
      obtain ⟨text, rfl⟩ := ih hrest
      obtain ⟨d, others, rfl⟩ := hrange.takes
      exact ⟨d :: (others ++ text), by simp⟩

end Highlighter.Regex
