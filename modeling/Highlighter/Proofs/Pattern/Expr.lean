import Highlighter.Pattern.Part
import Highlighter.Regex.Extended.Parser

/-!
# Patterns as trees

An `Expr` is a pattern of the common core of both dialects: characters
and escapes, classes, groups, branches, repetitions, look-around and
references by number. `Expr.render` writes it. `Expr.WellFormed` says
that the text can be read back: branches and rows are bracketed where
they have to be, and nothing runs into what follows, as a digit after
a reference would.

Groups are numbered as they open; `Expr.RefsOpened` says that each
reference is to a group that has opened before.
-/

set_option autoImplicit false

namespace Highlighter.Pattern

/-! ### Counts -/

/-- How often something is repeated. -/
inductive Count where
  | optional
  | star
  | plus
  | exactly (count : Nat)
  | atLeast (min : Nat)
  | between (min max : Nat)
  deriving DecidableEq, Repr

namespace Count

/-- The least number of times. -/
def min : Count → Nat
  | optional | star => 0
  | plus => 1
  | exactly count => count
  | atLeast min => min
  | between min _ => min

/-- The largest number of times, if there is one. -/
def max? : Count → Option Nat
  | optional => some 1
  | star | plus | atLeast _ => none
  | exactly count => some count
  | between _ max => some max

/-- Whether a count is written in braces. -/
def isBraced : Count → Bool
  | optional | star | plus => false
  | exactly _ | atLeast _ | between _ _ => true

/-- The text of a count. -/
def render : Count → List Char
  | optional => ['?']
  | star => ['*']
  | plus => ['+']
  | exactly count => '{' :: Nat.toDigits 10 count ++ ['}']
  | atLeast min => '{' :: Nat.toDigits 10 min ++ [',', '}']
  | between min max => '{' :: Nat.toDigits 10 min ++ ',' :: Nat.toDigits 10 max ++ ['}']

/-- Whether the bounds are in order, and not too large to be read as
numbers. -/
def WellFormed : Count → Prop
  | optional | star | plus => True
  | exactly count => count < Regex.Extended.numberLimit
  | atLeast min => min < Regex.Extended.numberLimit
  | between min max => min ≤ max ∧ max < Regex.Extended.numberLimit

theorem WellFormed.min_le {count : Count} (h : count.WellFormed) :
    ∀ max ∈ count.max?, count.min ≤ max := by
  intro max hmax
  cases count <;> cases hmax
  · exact Nat.zero_le _
  · exact Nat.le_refl _
  · exact h.1

end Count

/-- Whether a character starts a count. -/
def isCountStart (c : Char) : Bool := c == '?' || c == '*' || c == '+' || c == '{'

/-! ### Numbers -/

/-- A number is read up to what is no digit. -/
theorem takeWhile_toDigits (number : Nat) {rest : List Char}
    (h : ∀ c ∈ rest.head?, c.isDigit = false) :
    (Nat.toDigits 10 number ++ rest).takeWhile Char.isDigit = Nat.toDigits 10 number := by
  have hdigits : ∀ c ∈ Nat.toDigits 10 number, c.isDigit = true := fun c hc =>
    Nat.isDigit_of_mem_toDigits (by decide) (by decide) hc
  have hrest : rest.takeWhile Char.isDigit = [] := by
    cases rest with
    | nil => rfl
    | cons c rest => rw [List.takeWhile_cons, h c rfl, if_neg Bool.false_ne_true]
  rw [List.takeWhile_append_of_pos hdigits, hrest, List.append_nil]

theorem dropWhile_toDigits (number : Nat) {rest : List Char}
    (h : ∀ c ∈ rest.head?, c.isDigit = false) :
    (Nat.toDigits 10 number ++ rest).dropWhile Char.isDigit = rest := by
  have hdigits : ∀ c ∈ Nat.toDigits 10 number, c.isDigit = true := fun c hc =>
    Nat.isDigit_of_mem_toDigits (by decide) (by decide) hc
  rw [List.dropWhile_append_of_pos hdigits]
  cases rest with
  | nil => rfl
  | cons c rest => rw [List.dropWhile_cons, h c rfl, if_neg Bool.false_ne_true]

/-- A number starts with a digit. -/
theorem head_toDigits (number : Nat) :
    ∃ digit digits, Nat.toDigits 10 number = digit :: digits ∧ digit.isDigit = true := by
  cases hdigits : Nat.toDigits 10 number with
  | nil => exact absurd hdigits Nat.toDigits_ne_nil
  | cons digit digits =>
    have hmem : digit ∈ Nat.toDigits 10 number := hdigits ▸ List.mem_cons_self
    exact ⟨digit, digits, rfl, Nat.isDigit_of_mem_toDigits (by decide) (by decide) hmem⟩

/-- A number is the value of its digits. -/
theorem foldl_toDigits (number : Nat) :
    (Nat.toDigits 10 number).foldl (fun value c => 10 * value + (c.toNat - '0'.toNat)) 0
      = number :=
  Nat.ofDigitChars_ten_toDigits

/-! ### Characters -/

/-- Whether a character that is written as it is stands for itself. -/
def isLiteral (c : Char) : Bool := !"\\.+*?()|[\x7b^$".toList.contains c

/-- A character of some sort is none of the letters of another sort. -/
theorem ne_of_any (is : Char → Bool) {letters : List Char} {c : Char}
    (hletters : letters.any is = false) (h : is c = true) : ∀ d ∈ letters, c ≠ d := by
  rintro d hd rfl
  exact List.any_eq_false.mp hletters c hd h

theorem contains_eq_false (is : Char → Bool) {letters : List Char} {c : Char}
    (hletters : letters.any is = false) (h : is c = true) : letters.contains c = false := by
  cases hmem : letters.contains c with
  | false => rfl
  | true => exact absurd rfl (ne_of_any is hletters h c (List.contains_iff_mem.mp hmem))

/-- The letters of escapes that stand for control characters. -/
def isControlLetter (c : Char) : Bool := "aeftnrv".toList.contains c

/-- Whether a character with a backslash before it stands for one
character. -/
def isEscape (c : Char) : Bool := isControlLetter c || !c.isAlphanum && c != '<' && c != '>'

theorem isDigit_of_isEscape {c : Char} (h : isEscape c = true) : c.isDigit = false := by
  cases hdigit : c.isDigit with
  | false => rfl
  | true =>
    have hcontrol : isControlLetter c = false :=
      contains_eq_false Char.isDigit (by decide) hdigit
    unfold isEscape at h
    rw [hcontrol, Char.isAlphanum, hdigit] at h
    simp at h

/-- The character that an escape stands for. -/
def unescaped : Char → Char
  | 'a' => '\x07'
  | 'e' => '\x1b'
  | 'f' => '\x0c'
  | 't' => '\t'
  | 'n' => '\n'
  | 'r' => '\r'
  | 'v' => '\x0b'
  | c => c

/-- How many digits a code without braces has, by the letter of its
escape. -/
def codeWidth : Char → Nat
  | 'x' => 2
  | 'u' => 4
  | 'U' => 8
  | _ => 0

/-- The text of a code. -/
def codeText (braced : Bool) (digits : List Char) : List Char :=
  if braced then '{' :: (digits ++ ['}']) else digits

/-- The character with a code that is written so. -/
def coded? (digits : List Char) : Option Char := (hexNumber? digits).bind charOfCode?

/-- The letter of a class with a letter of its own. -/
def shortLetter : Regex.ShortClass → Bool → Char
  | .digit, false => 'd'
  | .digit, true => 'D'
  | .space, false => 's'
  | .space, true => 'S'
  | .word, false => 'w'
  | .word, true => 'W'

/-- Whether an escape in a class ends inside `rest`, and is no number. -/
def isClassEscape (letter : Char) (rest : List Char) : Bool :=
  if "xuUpP".toList.contains letter then
    match rest with
    | [] => false
    | '{' :: rest => rest.contains '}'
    | c :: _ => c != '\\'
  else !letter.isDigit

/-- Whether the members of a class end with them: no bracket nests in
them or closes the class. -/
def areMembers : List Char → Bool
  | [] => true
  | ['\\'] => false
  | '\\' :: c :: rest => isClassEscape c rest && areMembers rest
  | c :: rest => c != '[' && c != ']' && areMembers rest

/-- Whether a text can stand between the brackets of a class. A closing
bracket that comes first is a member. -/
def isClassBody : List Char → Bool
  | '^' :: ']' :: rest => areMembers rest
  | '^' :: rest => !rest.isEmpty && areMembers rest
  | ']' :: rest => areMembers rest
  | body => !body.isEmpty && areMembers body

/-! ### Expressions -/

/-- A pattern. Groups have no numbers of their own: they are counted as
they open. -/
inductive Expr where
  | empty
  | char (c : Char)
  | escaped (c : Char)
  /-- A character by its code. -/
  | coded (letter : Char) (braced : Bool) (digits : List Char)
  /-- Any character but a line feed. -/
  | dot
  /-- Any character. -/
  | anyChar
  | short (kind : Regex.ShortClass) (negated : Bool)
  /-- A class, by what is between its brackets. -/
  | bracket (body : List Char)
  | wordBoundary
  | textStart
  | textEnd
  | capture (body : Expr)
  /-- Brackets that capture nothing. -/
  | bare (body : Expr)
  /-- Brackets inside which letter case does not count. -/
  | ignoring (body : Expr)
  | look (behind negated : Bool) (body : Expr)
  /-- What a group has matched. -/
  | backref (number : Nat)
  | seq (first second : Expr)
  | alt (first second : Expr)
  | repeated (count : Count) (greedy : Bool) (body : Expr)
  deriving DecidableEq, Repr

namespace Expr

/-- The mark of a look-around. -/
def lookMark : Bool → Bool → List Char
  | false, false => ['=']
  | false, true => ['!']
  | true, false => ['<', '=']
  | true, true => ['<', '!']

/-- The text of a count, with the mark of a lazy one. -/
def countText (count : Count) (greedy : Bool) : List Char :=
  count.render ++ if greedy then [] else ['?']

/-- The text of a pattern. -/
def render : Expr → List Char
  | empty => []
  | char c => [c]
  | escaped c => ['\\', c]
  | coded letter braced digits => '\\' :: letter :: codeText braced digits
  | dot => ['.']
  | anyChar => ['(', '?', 's', ':', '.', ')']
  | short kind negated => ['\\', shortLetter kind negated]
  | bracket body => '[' :: (body ++ [']'])
  | wordBoundary => ['\\', 'b']
  | textStart => ['^']
  | textEnd => ['$']
  | capture body => '(' :: (body.render ++ [')'])
  | bare body => '(' :: '?' :: ':' :: (body.render ++ [')'])
  | ignoring body => '(' :: '?' :: 'i' :: ':' :: (body.render ++ [')'])
  | look behind negated body => '(' :: '?' :: (lookMark behind negated ++ (body.render ++ [')']))
  | backref number => '\\' :: Nat.toDigits 10 number
  | seq first second => first.render ++ second.render
  | alt first second => first.render ++ '|' :: second.render
  | repeated count greedy body => body.render ++ countText count greedy

/-- How many groups a pattern captures. -/
def captures : Expr → Nat
  | capture body => body.captures + 1
  | bare body | ignoring body | look _ _ body | repeated _ _ body => body.captures
  | seq first second | alt first second => first.captures + second.captures
  | _ => 0

/-- Whether a pattern is a row: it has no branches of its own. -/
def isRow : Expr → Bool
  | alt _ _ => false
  | _ => true

/-- Whether a count may follow. -/
def isItem : Expr → Bool
  | empty | textStart | seq _ _ | alt _ _ | repeated _ _ _ => false
  | _ => true

/-- Whether the text of a pattern ends in a part of some sort. -/
def endsIn (is : Expr → Bool) : Expr → Bool
  | seq first second => second.endsIn is || (second.render.isEmpty && first.endsIn is)
  | alt _ second => second.endsIn is
  | expr => is expr

/-- Whether a pattern is a reference. -/
def isNumber : Expr → Bool
  | backref _ => true
  | _ => false

/-- Whether a pattern is a word boundary. -/
def isBoundary : Expr → Bool
  | wordBoundary => true
  | _ => false

/-- Whether what follows does not run into a pattern: no digit follows
a reference, and no brace a word boundary. -/
def Apart (expr : Expr) (rest : List Char) : Prop :=
  (expr.endsIn isNumber = true → ∀ c ∈ rest.head?, c.isDigit = false) ∧
    (expr.endsIn isBoundary = true → ∀ c ∈ rest.head?, c ≠ '{')

/-- Whether the text of a pattern can be read back. -/
def WellFormed : Expr → Prop
  | char c => isLiteral c = true
  | escaped c => isEscape c = true
  | coded letter braced digits =>
    (codeWidth letter ≠ 0 ∧ digits ≠ [] ∧ ∀ c ∈ digits, isHexDigit c = true) ∧
      (braced = false → digits.length = codeWidth letter)
  | bracket body => isClassBody body = true
  | capture body | bare body | ignoring body | look _ _ body => body.WellFormed
  | seq first second =>
    (first.isRow = true ∧ second.isRow = true) ∧ (first.WellFormed ∧ second.WellFormed) ∧
      first.Apart second.render
  | alt first second => first.isRow = true ∧ first.WellFormed ∧ second.WellFormed
  | repeated count _ body =>
    (body.isItem = true ∧ count.WellFormed) ∧ body.WellFormed ∧
      (body.isBoundary = true → count.isBraced = false)
  | _ => True

/-- Whether a pattern refers to a group. -/
def refersTo (group : Nat) : Expr → Bool
  | capture body | bare body | ignoring body | look _ _ body | repeated _ _ body =>
    body.refersTo group
  | backref number => number == group
  | seq first second | alt first second => first.refersTo group || second.refersTo group
  | _ => false

/-- Whether each reference is to a group that has opened before.
`opened` groups have opened before the pattern. -/
def RefsOpened (opened : Nat) : Expr → Prop
  | capture body => body.RefsOpened (opened + 1)
  | bare body | ignoring body | look _ _ body | repeated _ _ body => body.RefsOpened opened
  | backref number => 1 ≤ number ∧ number ≤ opened
  | seq first second | alt first second =>
    first.RefsOpened opened ∧ second.RefsOpened (opened + first.captures)
  | _ => True

/-- Whether a pattern neither changes how letter case counts nor
holds an assertion of the start. -/
def isPlain : Expr → Bool
  | anyChar | textStart | ignoring _ => false
  | capture body | bare body | look _ _ body | repeated _ _ body => body.isPlain
  | seq first second | alt first second => first.isPlain && second.isPlain
  | _ => true

/-- Whether no group opens in a look-around. -/
def looksBare : Expr → Bool
  | look _ _ body => body.captures == 0 && body.looksBare
  | capture body | bare body | ignoring body | repeated _ _ body => body.looksBare
  | seq first second | alt first second => first.looksBare && second.looksBare
  | _ => true

/-- Whether a pattern asks neither for what stands around it nor for
what a group has matched. -/
def isEasy : Expr → Bool
  | wordBoundary | look _ _ _ | backref _ => false
  | capture body | bare body | ignoring body | repeated _ _ body => body.isEasy
  | seq first second | alt first second => first.isEasy && second.isEasy
  | _ => true

/-- The start of the text, and then a pattern. With branches, this is
the start of the first one only. -/
def afterStart : Expr → Expr
  | alt first second => alt first.afterStart second
  | expr => seq textStart expr

/-! ### What texts start with -/

/-- No pattern starts with a count, and none with a closing
parenthesis. -/
theorem head?_render {expr : Expr} (h : expr.WellFormed) :
    ∀ c ∈ expr.render.head?, isCountStart c = false ∧ c ≠ ')' := by
  induction expr with
  | char c =>
    rintro d ⟨⟩
    have hc : isLiteral c = true := h
    constructor
    · unfold isLiteral at hc
      simp only [isCountStart, Bool.or_eq_false_iff, beq_eq_false_iff_ne]
      refine ⟨⟨⟨?_, ?_⟩, ?_⟩, ?_⟩ <;> · rintro rfl; revert hc; decide
    · rintro rfl
      revert hc
      decide
  | seq first second ihFirst ihSecond =>
    obtain ⟨-, ⟨hfirst, hsecond⟩, -⟩ := h
    intro c hc
    rw [render] at hc
    cases hrender : first.render with
    | nil =>
      rw [hrender] at hc
      exact ihSecond hsecond c hc
    | cons d rest =>
      rw [hrender] at hc ihFirst
      exact ihFirst hfirst c hc
  | alt first second ihFirst ihSecond =>
    obtain ⟨-, hfirst, -⟩ := h
    intro c hc
    rw [render] at hc
    cases hrender : first.render with
    | nil =>
      rw [hrender] at hc
      cases hc
      decide
    | cons d rest =>
      rw [hrender] at hc ihFirst
      exact ihFirst hfirst c hc
  | repeated count greedy body ih =>
    obtain ⟨⟨hitem, -⟩, hbody, -⟩ := h
    intro c hc
    rw [render] at hc
    -- An item is never without text.
    cases hrender : body.render with
    | nil => cases body <;> simp_all [render, isItem]
    | cons d rest =>
      rw [hrender] at hc ih
      exact ih hbody c hc
  | empty => rintro c ⟨⟩
  | _ =>
    rintro c ⟨⟩
    decide

/-- A pattern starts with no count, unless what follows it does. -/
theorem head?_render_append {expr : Expr} (h : expr.WellFormed) {rest : List Char}
    (hrest : ∀ c ∈ rest.head?, isCountStart c = false) :
    ∀ c ∈ (expr.render ++ rest).head?, isCountStart c = false := by
  intro c hc
  cases hrender : expr.render with
  | nil =>
    rw [hrender] at hc
    exact hrest c hc
  | cons d others =>
    have hhead : expr.render.head? = some d := by rw [hrender]; rfl
    rw [hrender] at hc
    cases hc
    exact (head?_render h _ hhead).1

/-- Neither does a pattern that stands before a closing parenthesis
start with a count. -/
theorem head?_render_close {expr : Expr} (h : expr.WellFormed) (rest : List Char) :
    ∀ c ∈ (expr.render ++ ')' :: rest).head?, isCountStart c = false :=
  head?_render_append h (by rintro c ⟨⟩; rfl)

/-- A count consists of digits and marks. -/
theorem mem_countText {count : Count} {greedy : Bool} {c : Char}
    (h : c ∈ countText count greedy) : c.isDigit = true ∨ "?*+\x7b,\x7d".toList.contains c = true := by
  have hdigits : ∀ number, c ∈ Nat.toDigits 10 number → c.isDigit = true := fun number hc =>
    Nat.isDigit_of_mem_toDigits (by decide) (by decide) hc
  have hlazy : c ∈ (if greedy then [] else ['?']) → c = '?' := by
    cases greedy <;> simp
  rcases List.mem_append.mp h with hc | hc
  · cases count with
    | optional => exact .inr (List.all_eq_true.mp rfl c hc)
    | star => exact .inr (List.all_eq_true.mp rfl c hc)
    | plus => exact .inr (List.all_eq_true.mp rfl c hc)
    | exactly count =>
      simp only [Count.render, List.cons_append, List.mem_cons, List.mem_append] at hc
      rcases hc with rfl | hc | rfl | ⟨⟨⟩⟩
      · exact .inr rfl
      · exact .inl (hdigits count hc)
      · exact .inr rfl
    | atLeast min =>
      simp only [Count.render, List.cons_append, List.mem_cons, List.mem_append] at hc
      rcases hc with rfl | hc | rfl | rfl | ⟨⟨⟩⟩
      · exact .inr rfl
      · exact .inl (hdigits min hc)
      · exact .inr rfl
      · exact .inr rfl
    | between min max =>
      simp only [Count.render, List.cons_append, List.mem_cons, List.mem_append,
        List.append_assoc] at hc
      rcases hc with rfl | hc | rfl | hc | rfl | ⟨⟨⟩⟩
      · exact .inr rfl
      · exact .inl (hdigits min hc)
      · exact .inr rfl
      · exact .inl (hdigits max hc)
      · exact .inr rfl
  · rw [hlazy hc]
    exact .inr rfl

/-- These start no part of their own. -/
theorem isPlain_countText (count : Count) (greedy : Bool) :
    ∀ c ∈ countText count greedy, Part.isPlain c = true := by
  intro c hc
  rcases mem_countText hc with hdigit | hmark
  · unfold Part.isPlain
    simp only [Bool.and_eq_true, bne_iff_ne]
    refine ⟨⟨⟨⟨?_, ?_⟩, ?_⟩, ?_⟩, ?_⟩ <;> · rintro rfl; revert hdigit; decide
  · have hmarks : "?*+\x7b,\x7d".toList.all Part.isPlain = true := by decide
    exact List.all_eq_true.mp hmarks c (List.contains_iff_mem.mp hmark)

/-! ### What runs into what -/

/-- A mark that is no digit and no brace keeps everything apart. -/
theorem apart_cons {expr : Expr} {c : Char} (hdigit : c.isDigit = false) (hbrace : c ≠ '{')
    (rest : List Char) : expr.Apart (c :: rest) := by
  constructor
  · rintro - d ⟨⟩
    exact hdigit
  · rintro - d ⟨⟩
    exact hbrace

theorem apart_close (expr : Expr) (rest : List Char) : expr.Apart (')' :: rest) :=
  apart_cons (by decide) (by decide) rest

theorem Apart.second {first second : Expr} {rest : List Char} (h : (seq first second).Apart rest) :
    second.Apart rest :=
  ⟨fun hends => h.1 (Bool.or_eq_true_iff.mpr (.inl hends)),
    fun hends => h.2 (Bool.or_eq_true_iff.mpr (.inl hends))⟩

/-- The first part of a row is apart from the second one and from what
comes after that. -/
theorem Apart.first {first second : Expr} {rest : List Char}
    (hwf : (seq first second).WellFormed) (h : (seq first second).Apart rest) :
    first.Apart (second.render ++ rest) := by
  obtain ⟨-, -, happart⟩ := hwf
  cases hrender : second.render with
  | nil =>
    have hends : ∀ is, first.endsIn is = true → (seq first second).endsIn is = true := by
      intro is hfirst
      rw [endsIn, hrender, hfirst]
      exact Bool.or_true _
    exact ⟨fun hfirst => h.1 (hends _ hfirst), fun hfirst => h.2 (hends _ hfirst)⟩
  | cons c others =>
    rw [hrender] at happart
    exact happart

/-- What is repeated is apart from its count. -/
theorem apart_countText {count : Count} {greedy : Bool} {body : Expr}
    (hwf : (repeated count greedy body).WellFormed) (rest : List Char) :
    body.Apart (countText count greedy ++ rest) := by
  obtain ⟨⟨hitem, -⟩, -, hboundary⟩ := hwf
  constructor
  · intro _ c hc
    cases count <;> (cases hc; decide)
  · intro hends c hc
    have hbraced : count.isBraced = false := by
      apply hboundary
      cases body <;> first | exact hends | cases hitem
    cases count <;> first | (cases hc; decide) | cases hbraced

/-! ### Easy patterns -/

/-- An easy pattern runs into nothing. -/
theorem apart_of_isEasy {expr : Expr} (h : expr.isEasy = true) (rest : List Char) :
    expr.Apart rest := by
  have hends : ∀ is : Expr → Bool, (∀ expr : Expr, expr.isEasy = true → is expr = false) →
      expr.endsIn is = false := by
    intro is his
    induction expr with
    | seq first second ihFirst ihSecond =>
      obtain ⟨hfirst, hsecond⟩ := Bool.and_eq_true_iff.mp h
      rw [endsIn, ihFirst hfirst, ihSecond hsecond, Bool.and_false]
      rfl
    | alt first second ihFirst ihSecond => exact ihSecond (Bool.and_eq_true_iff.mp h).2
    | _ => exact his _ h
  have hnumber := hends isNumber fun expr heasy => by cases expr <;> first | rfl | cases heasy
  have hboundary := hends isBoundary fun expr heasy => by cases expr <;> first | rfl | cases heasy
  exact ⟨fun htrue => absurd (hnumber.symm.trans htrue) Bool.false_ne_true,
    fun htrue => absurd (hboundary.symm.trans htrue) Bool.false_ne_true⟩

theorem looksBare_of_isEasy {expr : Expr} (h : expr.isEasy = true) : expr.looksBare = true := by
  induction expr with
  | capture body ih => exact ih h
  | bare body ih => exact ih h
  | ignoring body ih => exact ih h
  | repeated count greedy body ih => exact ih h
  | look behind negated body => cases h
  | seq first second ihFirst ihSecond =>
    obtain ⟨hfirst, hsecond⟩ := Bool.and_eq_true_iff.mp h
    exact Bool.and_eq_true_iff.mpr ⟨ihFirst hfirst, ihSecond hsecond⟩
  | alt first second ihFirst ihSecond =>
    obtain ⟨hfirst, hsecond⟩ := Bool.and_eq_true_iff.mp h
    exact Bool.and_eq_true_iff.mpr ⟨ihFirst hfirst, ihSecond hsecond⟩
  | _ => rfl

/-- An easy pattern refers to no group. -/
theorem refersTo_of_isEasy {expr : Expr} (h : expr.isEasy = true) (group : Nat) :
    expr.refersTo group = false := by
  induction expr with
  | capture body ih => exact ih h
  | bare body ih => exact ih h
  | ignoring body ih => exact ih h
  | repeated count greedy body ih => exact ih h
  | backref number => cases h
  | look behind negated body => cases h
  | seq first second ihFirst ihSecond =>
    obtain ⟨hfirst, hsecond⟩ := Bool.and_eq_true_iff.mp h
    exact Bool.or_eq_false_iff.mpr ⟨ihFirst hfirst, ihSecond hsecond⟩
  | alt first second ihFirst ihSecond =>
    obtain ⟨hfirst, hsecond⟩ := Bool.and_eq_true_iff.mp h
    exact Bool.or_eq_false_iff.mpr ⟨ihFirst hfirst, ihSecond hsecond⟩
  | _ => rfl

end Expr

end Highlighter.Pattern
