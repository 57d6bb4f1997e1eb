import Highlighter.Pattern.Part
import Highlighter.Unicode.Case

/-!
# Spelling out case variants

A part of a pattern that ignores letter case can be spelt so that it matches the same where letter
case counts: letters become classes of their variants, and the ranges of a class are joined by those
of the other case. Where that cannot be spelt out, the part becomes a group of its own that ignores
letter case.

`ClassItem.ofBody` reads the members of a class, `ranges` takes the members for ranges, `closed`
adds the other case, and `merged` brings ranges into a normal form: sorted, apart from each other,
none next to another.
-/

set_option autoImplicit false

namespace Highlighter.Pattern

/-- A code point as it is written in a class. -/
def quotedCode (code : Nat) : List Char :=
  let byCode := "\\x\x7b".toList ++ Nat.toDigits 16 code ++ ['}']
  if code.isValidChar && 0x20 ≤ code then
    let c := Char.ofNat code
    if c == '&' || c == '~' then byCode
    else if "\\-][^".toList.contains c then ['\\', c]
    else [c]
  else byCode

/-- The ASCII letters with a variant outside ASCII: the Kelvin sign and the long s. -/
def variantsOutsideAscii : List (Char × Char) := [('k', '\u212a'), ('s', '\u017f')]

/-- A group in which letter case does not count. -/
def ignoringCase (text : List Char) : List Char := "(?i:".toList ++ text ++ [')']

/-! ## Members of a class -/

/-- A member of a class without nested classes. -/
inductive ClassItem where
  | code (value : Nat)
  /-- A class with a letter of its own, such as `\d`. -/
  | shorthand (letter : Char)
  /-- A hyphen, which makes a range or stands for itself. -/
  | dash
  deriving DecidableEq, Repr

namespace ClassItem

/-- The value of a row of hexadecimal digits, and zero where it is too large or there is none. -/
def hexValue (digits : List Char) : Nat :=
  let value := (hexNumber? digits).getD 0
  if value < Part.numberLimit then value else 0

/-- Read the code of a character, after the letter of the escape: in braces, or at most `most`
digits. -/
def readCode (most : Nat) (cs : List Char) : ClassItem × List Char :=
  match cs with
  | '{' :: rest =>
    let digits := rest.takeWhile isHexDigit
    match rest.drop digits.length with
    | '}' :: rest => (code (hexValue digits), rest)
    | rest => (code (hexValue digits), rest)
  | cs =>
    let digits := (cs.take most).takeWhile isHexDigit
    (code (hexValue digits), cs.drop digits.length)

/-- Read an escape in a class, after its backslash. -/
def readEscape (cs : List Char) : ClassItem × List Char :=
  match cs with
  | [] => (code '\\'.toNat, [])
  | letter :: rest =>
    match letter with
    | 'x' => readCode 2 rest
    | 'u' => readCode 4 rest
    | 'n' => (code 0x0A, rest)
    | 't' => (code 0x09, rest)
    | 'r' => (code 0x0D, rest)
    | 'f' => (code 0x0C, rest)
    | 'v' => (code 0x0B, rest)
    | 'a' => (code 0x07, rest)
    | 'e' => (code 0x1B, rest)
    | letter =>
      if "dDsSwW".toList.contains letter then (shorthand letter, rest)
      else (code letter.toNat, rest)

/-- The members that the body of a class lists. The count bounds the steps. -/
def ofBodyWithin : Nat → List Char → List ClassItem
  | 0, _ => []
  | steps + 1, cs =>
    match cs with
    | [] => []
    | '\\' :: rest =>
      let (item, rest) := readEscape rest
      item :: ofBodyWithin steps rest
    | '-' :: rest => dash :: ofBodyWithin steps rest
    | c :: rest => code c.toNat :: ofBodyWithin steps rest

/-- The members that the body of a class lists. Every member takes a character, so the length of
the body bounds the steps. -/
def ofBody (body : List Char) : List ClassItem := ofBodyWithin body.length body

/-- Whether a member is no ASCII character. -/
def isOutsideAscii : ClassItem → Bool
  | code value => 0x7F < value
  | _ => false

/-- The shorthand that a member is, as it is written. -/
def shorthandText : ClassItem → List Char
  | shorthand letter => ['\\', letter]
  | _ => []

end ClassItem

/-! ## Ranges of code points -/

/-- The code points from the first one up to the second one. -/
abbrev CodeRange := Nat × Nat

/-- The ranges that members make. A hyphen between two code points makes a range, unless the first
of them is a hyphen at the start of the class. -/
def ranges (first : Bool) : List ClassItem → List CodeRange
  | [] => []
  | .shorthand _ :: rest => ranges false rest
  | .dash :: .dash :: .code stop :: rest =>
    if first then (0x2D, 0x2D) :: ranges false (.dash :: .code stop :: rest)
    else (0x2D, stop) :: ranges false rest
  | .dash :: rest => (0x2D, 0x2D) :: ranges false rest
  | .code start :: .dash :: .code stop :: rest =>
    if first && start == 0x2D then (start, start) :: ranges false (.dash :: .code stop :: rest)
    else (start, stop) :: ranges false rest
  | .code start :: rest => (start, start) :: ranges false rest

/-- A range and the same letters in the other case. -/
def withOtherCase : CodeRange → List CodeRange
  | (start, stop) =>
    let lower :=
      if 0x41 ≤ stop && start ≤ 0x5A then [(max start 0x41 + 0x20, min stop 0x5A + 0x20)] else []
    let upper :=
      if 0x61 ≤ stop && start ≤ 0x7A then [(max start 0x61 - 0x20, min stop 0x7A - 0x20)] else []
    (start, stop) :: lower ++ upper

/-- Whether a range holds a code point. -/
def rangeHolds (code : Nat) : CodeRange → Bool
  | (start, stop) => start ≤ code && code ≤ stop

/-- The ranges with all case variants of their members. -/
def closed (given : List CodeRange) : List CodeRange :=
  let both := given.flatMap withOtherCase
  let outside := variantsOutsideAscii.filter fun (letter, _) => both.any (rangeHolds letter.toNat)
  both ++ outside.map fun (_, other) => (other.toNat, other.toNat)

/-- The order of ranges: by their start, the longer one first. -/
def rangeLe (a b : CodeRange) : Bool :=
  a.1 < b.1 || (a.1 == b.1 && b.2 ≤ a.2)

/-- A range joined with the sorted ranges after it, as far as they touch. -/
def joinSorted (current : CodeRange) : List CodeRange → List CodeRange
  | [] => [current]
  | next :: rest =>
    if next.1 ≤ current.2 + 1 then joinSorted (current.1, max current.2 next.2) rest
    else current :: joinSorted next rest

/-- Ranges in their normal form. -/
def merged (given : List CodeRange) : List CodeRange :=
  match given.mergeSort rangeLe with
  | [] => []
  | first :: rest => joinSorted first rest

/-- A range as it is written in a class. -/
def rangeText : CodeRange → List Char
  | (start, stop) => if start < stop then quotedCode start ++ '-' :: quotedCode stop
    else quotedCode start

/-! ## Parts -/

/-- Whether one text stands somewhere in another. -/
def standsIn (part : List Char) : List Char → Bool
  | [] => part.isEmpty
  | c :: rest => part.isPrefixOf (c :: rest) || standsIn part rest

/-- What is between the brackets of a class. A class that is not closed counts as a whole. -/
def betweenBrackets (text : List Char) : List Char :=
  match text with
  | '[' :: rest => if rest.getLast? == some ']' then rest.dropLast else text
  | _ => text

/-- Whether the members of a class are more than characters, ranges and shorthands. -/
def isComplex (body : List Char) : Bool :=
  body.contains '[' ||
    ["&&", "--", "~~", "\\p", "\\P"].any fun operation => standsIn operation.toList body

/-- A class with all case variants of its members. -/
def foldClass (text : List Char) : List Char :=
  let inner := betweenBrackets text
  let (negation, body) := match inner with
    | '^' :: rest => (['^'], rest)
    | inner => ([], inner)
  let items := ClassItem.ofBody body
  if isComplex body || items.any ClassItem.isOutsideAscii then ignoringCase text
  else
    '[' :: negation ++ items.flatMap ClassItem.shorthandText ++
      (merged (closed (ranges true items))).flatMap rangeText ++ [']']

/-- A character with all its case variants. -/
def foldChar (c : Char) : List Char :=
  if c.isAlpha then
    let outside := (variantsOutsideAscii.lookup c.toLower).toList
    '[' :: c.toUpper :: c.toLower :: outside ++ [']']
  else if 0x80 ≤ c.toNat && Unicode.isCased c then ignoringCase [c]
  else [c]

/-- Whether an escape of this letter can stand for a character with case variants. -/
def isCasedEscape (letter : Char) : Bool := "pPxuU".toList.contains letter

/-- An escape with all case variants of what it stands for. -/
def foldEscape (text : List Char) : List Char :=
  match text with
  | '\\' :: letter :: _ => if isCasedEscape letter then ignoringCase text else text
  | text => text

/-- The text of a part, spelt so that letter case does not count. -/
def Part.renderFolded : Part → List Char
  | bracket text => foldClass text
  | literal text => text.flatMap foldChar
  | escape text => foldEscape text
  | part => part.render

/-- Whether a class spells out a character that has case variants, or might. -/
def spellsCase : List Char → Bool
  | '\\' :: letter :: rest => isCasedEscape letter || spellsCase rest
  | c :: rest => Unicode.isCased c || spellsCase rest
  | [] => false

/-- Whether a part spells out characters that have case variants. -/
def Part.isCased : Part → Bool
  | literal text => text.any Unicode.isCased
  | bracket text => spellsCase text
  | escape text => foldEscape text != text
  | _ => false

end Highlighter.Pattern
