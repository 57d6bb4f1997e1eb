import Highlighter.Text.Hex

/-!
# The parts of a pattern

`Part.split` takes a pattern apart: classes, escapes, the punctuation of groups, carets, and runs of
everything else. It reads any text, also one that is no pattern: what is left open reaches to the
end.

Each part is read by `Part.read`, which answers with the part and with how many characters it takes
after its first one. So the parts cover the text without gaps.
-/

set_option autoImplicit false

namespace Highlighter.Pattern

/-- How a group opens. -/
inductive Opening where
  | capture
  /-- A capturing group with a name. `written` is what stands after the parenthesis. -/
  | named (written : List Char)
  /-- Flags for the group. Without flags, the group only brackets. -/
  | flagged (flags : List Char)
  /-- Look-around; `mark` is what stands after the question mark. -/
  | look (mark : List Char)
  /-- A question mark with something else after it. -/
  | special
  deriving DecidableEq, Repr

namespace Opening

/-- Whether a group is captured. -/
def isCapturing : Opening → Bool
  | capture | named _ => true
  | _ => false

/-- The text of an opening. -/
def render : Opening → List Char
  | capture => ['(']
  | named written => '(' :: written
  | flagged flags => '(' :: '?' :: flags ++ [':']
  | look mark => '(' :: '?' :: mark
  | special => ['(', '?']

end Opening

/-- A part of a pattern. -/
inductive Part where
  /-- A class, brackets included. -/
  | bracket (text : List Char)
  /-- An escape, backslash included. -/
  | escape (text : List Char)
  /-- A backslash with a decimal number: a reference to a group, or a character by its code. -/
  | numeric (number : Nat)
  | opening (kind : Opening)
  | close
  /-- Flags for what follows. -/
  | flags (letters : List Char)
  | caret
  /-- A run of anything else. -/
  | literal (text : List Char)
  deriving DecidableEq, Repr

namespace Part

/-- The text of a part. -/
def render : Part → List Char
  | bracket text => text
  | escape text => text
  | numeric number => '\\' :: Nat.toDigits 10 number
  | opening kind => kind.render
  | close => [')']
  | flags letters => '(' :: '?' :: letters ++ [')']
  | caret => ['^']
  | literal text => text

/-! ## How far parts reach -/

/-- How many characters of a class are left, inside `depth` nested brackets. -/
def classRest (depth : Nat) : List Char → Nat
  | [] => 0
  | ['\\'] => 1
  | '\\' :: _ :: rest => classRest depth rest + 2
  | '[' :: rest => classRest (depth + 1) rest + 1
  | ']' :: rest => if depth = 0 then 1 else classRest (depth - 1) rest + 1
  | _ :: rest => classRest depth rest + 1

/-- How many characters a class takes after its bracket. A closing bracket that comes first is a
member. -/
def classExtent : List Char → Nat
  | '^' :: ']' :: rest => classRest 0 rest + 2
  | '^' :: rest => classRest 0 rest + 1
  | ']' :: rest => classRest 0 rest + 1
  | rest => classRest 0 rest

/-- How many characters there are up to a closing mark, which is counted too. -/
def closingExtent (close : Char) : List Char → Nat
  | [] => 0
  | c :: rest => if c == close then 1 else closingExtent close rest + 1

/-- How many hexadecimal digits come next, of which at most `most` count. -/
def hexExtent (most : Nat) (cs : List Char) : Nat :=
  ((cs.take most).takeWhile isHexDigit).length

/-- How many characters an escape takes after its letter. -/
def escapeExtent (letter : Char) (cs : List Char) : Nat :=
  let braced := cs.head? == some '{'
  if braced && "xuUpPbB".toList.contains letter then closingExtent '}' cs
  else match letter with
    | 'x' => hexExtent 2 cs
    | 'u' => hexExtent 4 cs
    | 'U' => hexExtent 8 cs
    | 'p' => min 1 cs.length
    | 'P' => min 1 cs.length
    | 'k' => if cs.head? == some '<' then closingExtent '>' cs else 0
    | _ => 0

/-! ## Reading parts -/

/-- The first number that is too large for an escape. -/
def numberLimit : Nat := 4294967296

/-- The value of a row of decimal digits. -/
def decimal (digits : List Char) : Nat :=
  digits.foldl (fun value c => 10 * value + (c.toNat - '0'.toNat)) 0

/-- Read an escape, after its backslash. -/
def readEscape (cs : List Char) : Part × Nat :=
  match cs with
  | [] => (escape ['\\'], 0)
  | letter :: rest =>
    if letter.isDigit then
      let digits := cs.takeWhile Char.isDigit
      if decimal digits < numberLimit then (numeric (decimal digits), digits.length)
      else (escape ('\\' :: digits), digits.length)
    else
      let extent := escapeExtent letter rest + 1
      (escape ('\\' :: cs.take extent), extent)

/-- How many characters the name of a capturing group takes with what is around it, after the
opening parenthesis. -/
def nameExtent? : List Char → Option Nat
  | '?' :: 'P' :: '<' :: rest =>
    if rest.contains '>' then some (closingExtent '>' rest + 3) else none
  | '?' :: '<' :: '=' :: _ => none
  | '?' :: '<' :: '!' :: _ => none
  | '?' :: '<' :: rest => if rest.contains '>' then some (closingExtent '>' rest + 2) else none
  | _ => none

/-- Whether a character may stand among flags. -/
def isFlagChar (c : Char) : Bool := c.isAlpha || c == '-'

/-- Read what follows the parenthesis and the question mark of a group without a name. -/
def readDirective (cs : List Char) : Part × Nat :=
  match cs with
  | '=' :: _ => (opening (.look ['=']), 1)
  | '!' :: _ => (opening (.look ['!']), 1)
  | '<' :: '=' :: _ => (opening (.look ['<', '=']), 2)
  | '<' :: '!' :: _ => (opening (.look ['<', '!']), 2)
  | cs =>
    let letters := cs.takeWhile isFlagChar
    match cs.drop letters.length with
    | ':' :: _ => (opening (.flagged letters), letters.length + 1)
    | ')' :: _ => (flags letters, letters.length + 1)
    | _ => (opening .special, 0)

/-- Read an opening parenthesis and what belongs to it, after the parenthesis. -/
def readOpening (cs : List Char) : Part × Nat :=
  match nameExtent? cs with
  | some extent => (opening (.named (cs.take extent)), extent)
  | none =>
    match cs with
    | '?' :: rest =>
      let (part, extent) := readDirective rest
      (part, extent + 1)
    | _ => (opening .capture, 0)

/-- Whether a character starts no part of its own. -/
def isPlain (c : Char) : Bool :=
  c != '[' && c != '\\' && c != '(' && c != ')' && c != '^'

/-- The part that starts with a character, and how many characters it takes after that one. -/
def read (c : Char) (rest : List Char) : Part × Nat :=
  match c with
  | '[' =>
    let extent := classExtent rest
    (bracket ('[' :: rest.take extent), extent)
  | '\\' => readEscape rest
  | '(' => readOpening rest
  | ')' => (close, 0)
  | '^' => (caret, 0)
  | c =>
    let run := rest.takeWhile isPlain
    (literal (c :: run), run.length)

/-- The parts of a pattern. -/
def split : List Char → List Part
  | [] => []
  | c :: rest => (read c rest).1 :: split (rest.drop (read c rest).2)
termination_by text => text.length
decreasing_by
  simp only [List.length_drop, List.length_cons]
  omega

/-- The flag letters of a part, if it is a flag group. -/
def flagLetters? : Part → Option (List Char)
  | flags letters => some letters
  | opening (.flagged letters) => some letters
  | _ => none

/-- Whether a part turns on the flag by which the anchors also hold at line ends. -/
def setsMultiline (part : Part) : Bool :=
  match part.flagLetters? with
  | some letters => (letters.takeWhile (· != '-')).contains 'm'
  | none => false

end Part

end Highlighter.Pattern
