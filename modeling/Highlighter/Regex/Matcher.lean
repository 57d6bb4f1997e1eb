import Highlighter.Error
import Highlighter.Regex.Extended.Parser
import Highlighter.Regex.Extended.Plan
import Highlighter.Regex.Regular.Parser
import Highlighter.Regex.Run
import Highlighter.Regex.Weight
import Highlighter.Text

/-!
# Compiled patterns

`Matcher.ofPattern?` reads a pattern in the regular dialect, and where that fails in the extended
one. Patterns that need the extended dialect may have to retry; how often they may do so is
limited.

Matches are reported by character numbers (`search`) or by byte offsets (`findAt`, `captures`).
Wherever a match is reported, it lies inside the text (`stop_whole_le_size`).
-/

set_option autoImplicit false

namespace Highlighter.Regex

/-- How often a match may retry. -/
def retryLimit : Nat := 1000000

/-- A compiled pattern. -/
structure Matcher where
  /-- The pattern as it is written. -/
  source : String
  node : Node
  /-- How many groups the pattern has. -/
  groups : Nat
  /-- Whether the pattern needs the extended dialect. -/
  isBacktracking : Bool
  /-- How often a match may retry, if that is limited. -/
  limit : Option Nat

/-- The parts of a text that a match covers, by character numbers. -/
structure Found where
  whole : Span
  groups : List (Option Span)

/-- The parts of a text that a match and its first two groups cover, by byte offsets. -/
structure Captures where
  whole : Span
  first : Option Span
  second : Option Span
  deriving DecidableEq, Repr

/-- The part of a text that a group covers, if the group took part in the match. -/
def Slots.span? (slots : Slots) (size index : Nat) : Option Span :=
  match slots[2 * index]?.join, slots[2 * index + 1]?.join with
  | some start, some stop => some (.within size start stop)
  | _, _ => none

/-- The parts that a match covers. The match may be reported to start later than it does. -/
def Found.ofSlots (size stop : Nat) (slots : Slots) : Found where
  whole := .within size (slots[0]?.join.getD stop) stop
  groups := (List.range (slots.size / 2)).map (slots.span? size)

/-- The part that a group covers. -/
def Found.group? (found : Found) (index : Nat) : Option Span := (found.groups[index]?).join

theorem Found.stop_whole_le_size (size stop : Nat) (slots : Slots) :
    (ofSlots size stop slots).whole.stop ≤ size :=
  Span.stop_within_le _ _ _

namespace Matcher

/-- Read a pattern of the regular dialect. It must not be too large. -/
def ofRegular? (pattern : List Char) : Option Matcher := do
  let (ast, groups) ← Regular.parse? pattern
  if maxWeight < ast.weight then none
  let (node, _) ← ast.meaning? .initial
  return ⟨String.ofList pattern, node, groups, false, none⟩

/-- Read a pattern of the extended dialect. A pattern that is not hard is never retried. -/
def ofExtended? (pattern : List Char) : Option Matcher := do
  let ⟨tree, groups, targets⟩ ← Extended.parse? pattern
  let hard := tree.isHard targets
  if !hard && maxWeight < tree.weight then none
  let node ← if hard then tree.plan? targets true else tree.regular?
  return ⟨String.ofList pattern, node, groups, true, if hard then some retryLimit else none⟩

/-- Read a pattern. -/
def ofPattern? (pattern : String) : Option Matcher :=
  ofRegular? pattern.toList <|> ofExtended? pattern.toList

/-- Read a pattern, or say which one cannot be read. -/
def ofPattern (pattern : String) : Except GrammarError Matcher :=
  match ofPattern? pattern with
  | some matcher => .ok matcher
  | none => .error (.invalidPattern pattern)

/-- The leftmost match that starts at a character of the text or after it. -/
def search (matcher : Matcher) (text : Array Char) (start : Nat) :
    Except Failure (Option Found) :=
  match Search.find ⟨text, start, matcher.limit⟩ matcher.node matcher.groups with
  | .found stop slots _ => .ok (some (.ofSlots text.size stop slots))
  | .failed _ => .ok none
  | .exhausted => .error .retriesExhausted

/-- The leftmost match that starts at a byte offset of the text or after it. -/
def findAt (matcher : Matcher) (text : List Char) (offset : Nat) :
    Except Failure (Option Span) := do
  let found ← matcher.search text.toArray (Text.indexOf offset text)
  return found.map fun found => found.whole.inBytes text

/-- The leftmost match and its first two groups. -/
def captures (matcher : Matcher) (text : List Char) : Except Failure (Option Captures) := do
  let found ← matcher.search text.toArray 0
  return found.map fun found =>
    ⟨found.whole.inBytes text, (found.group? 1).map (Span.inBytes text),
      (found.group? 2).map (Span.inBytes text)⟩

end Matcher

end Highlighter.Regex
