import Highlighter.Unicode.CategoryTable
import Highlighter.Unicode.Ranges

/-!
# Classes of characters

`category` looks a code point up in the table of categories. The tests below it say which
characters are white space, digits, word characters and so on. A word character is alphabetic, a
mark, a decimal digit, connector punctuation or a joiner.
-/

set_option autoImplicit false

namespace Highlighter.Unicode

/-- The label of the run that holds `code`, among the entries from `lo` up to `hi`. -/
def findRun (entries : Array CategoryRun) (code lo hi : Nat) : Option Category :=
  if lo < hi then
    let mid := (lo + hi) / 2
    match entries[mid]? with
    | none => none
    | some (first, last, label) =>
      if code < first then findRun entries code lo mid
      else if last < code then findRun entries code (mid + 1) hi
      else some label
  else none
termination_by hi - lo
decreasing_by all_goals omega

/-- The general category of a code point. -/
def category (code : Nat) : Category :=
  (findRun categoryRuns code 0 categoryRuns.size).getD .cn

/-- Whether one of the ranges holds the code point. -/
def inRanges (ranges : List (Nat × Nat)) (code : Nat) : Bool :=
  ranges.any fun (first, last) => first ≤ code && code ≤ last

/-- Letters, letter numbers and what else counts as alphabetic. -/
def isAlphabetic (code : Nat) : Bool :=
  let found := category code
  found.group == .letter || found == .nl || inRanges Ranges.otherAlphabetic code

/-- Numbers of every kind. -/
def isNumeric (code : Nat) : Bool :=
  (category code).group == .number

/-- Alphabetic or numeric code points. -/
def isAlphanumeric (code : Nat) : Bool :=
  isAlphabetic code || isNumeric code

/-- Code points that extend the grapheme before them. -/
def isGraphemeExtend (code : Nat) : Bool :=
  let found := category code
  found == .mn || found == .me || inRanges Ranges.otherGraphemeExtend code

/-- Code points that stand for themselves when text is shown: all but controls, format characters,
surrogates, private and unassigned code points, and separators other than the space. -/
def isPrintable (code : Nat) : Bool :=
  code == 0x20 ||
    match (category code).group with
    | .other | .separator => false
    | _ => true

end Highlighter.Unicode

namespace Highlighter

/-- White space, in the sense of the property of that name. -/
def isBlank (c : Char) : Bool :=
  Unicode.inRanges Unicode.Ranges.whiteSpace c.toNat

/-- Decimal digits of every script. -/
def isDecimalDigit (c : Char) : Bool :=
  if c.val < 0x80 then c.isDigit else Unicode.category c.toNat == .nd

/-- The ASCII letters and digits and the low line. -/
def isAsciiWord (c : Char) : Bool :=
  c.isAlphanum || c == '_'

/-- Word characters of every script. -/
def isWordChar (c : Char) : Bool :=
  if c.val < 0x80 then isAsciiWord c
  else
    let found := Unicode.category c.toNat
    match found.group with
    | .letter | .mark => true
    | _ => found == .nd || found == .nl || found == .pc ||
        Unicode.inRanges Unicode.Ranges.otherAlphabetic c.toNat ||
        Unicode.inRanges Unicode.Ranges.joinControl c.toNat

end Highlighter
