import Highlighter.Pattern.Part

/-!
# Patterns

A `Pattern` is the text of a regular expression with two flags: whether letter case counts, and
whether the anchors also hold at line ends. A pattern is meant to match at the start of what is left
of the source.
-/

set_option autoImplicit false

namespace Highlighter

/-- A pattern with its flags. -/
structure Pattern where
  source : String
  ignoreCase : Bool
  multiline : Bool
  deriving DecidableEq, Repr

namespace Pattern

/-- The pattern that a text writes. A leading `(?i)` becomes a flag. -/
def ofSource (text : String) : Pattern :=
  match text.toList with
  | '(' :: '?' :: 'i' :: ')' :: rest => ⟨String.ofList rest, true, false⟩
  | _ => ⟨text, false, false⟩

/-- The pattern that a text writes, where letter case does not count. -/
def caseInsensitive (text : String) : Pattern :=
  { ofSource text with ignoreCase := true }

/-- The pattern with its anchors also holding at line ends. -/
def withMultiline (pattern : Pattern) : Pattern :=
  { pattern with multiline := true }

/-- The parts of a pattern. -/
def parts (pattern : Pattern) : List Part :=
  Part.split pattern.source.toList

/-- Whether the anchors also hold at line ends, by the flag or by a flag group. -/
def isMultiline (pattern : Pattern) : Bool :=
  pattern.multiline || pattern.parts.any Part.setsMultiline

/-- The text for matching the pattern at the start of a token. -/
def anchored (pattern : Pattern) : String :=
  let body := "^(?:" ++ pattern.source ++ ")"
  if pattern.ignoreCase then "(?i)" ++ body else body

end Pattern

end Highlighter
