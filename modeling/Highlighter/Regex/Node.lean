import Highlighter.Unicode.Char

/-!
# Regular expressions, ready to be matched

A `Node` is what the two dialects of patterns are brought to. Its first constructors are those of
regular languages, with groups. The last ones reach further: references to what a group matched,
look-around, pieces that are matched once and never retried, and conditions.

The loops say what an iteration that consumes nothing does. In `more`, such an iteration fails. In
`plus`, the first iteration may consume nothing, and then the loop is left.
-/

set_option autoImplicit false

namespace Highlighter.Regex

/-- A set of characters, as its membership test. -/
abbrev CharSet := Char → Bool

/-- A condition on a position in a text. -/
inductive Anchor where
  | textStart
  | textEnd
  | lineStart
  | lineEnd
  /-- As `lineStart`, where a carriage return with a line feed after it is one line end. -/
  | crlfLineStart
  | crlfLineEnd
  /-- Exactly one of the two neighbours is in the set of word characters. -/
  | wordBoundary (word : CharSet)
  | notWordBoundary (word : CharSet)
  | wordStart (word : CharSet)
  | wordEnd (word : CharSet)
  /-- The character before is no word character. -/
  | wordStartHalf (word : CharSet)
  /-- The character after is no word character. -/
  | wordEndHalf (word : CharSet)

/-- A regular expression. Groups are numbered from 1; group 0 is the whole match. -/
inductive Node where
  | empty
  /-- One character of a set. -/
  | char (set : CharSet)
  | anchor (condition : Anchor)
  | seq (first second : Node)
  /-- Either branch, the first one preferred. -/
  | alt (first second : Node)
  | group (index : Nat) (body : Node)
  /-- The body `count` times in a row. -/
  | exactly (count : Nat) (body : Node)
  /-- The body at most `count` times. -/
  | upTo (count : Nat) (greedy : Bool) (body : Node)
  /-- The body any number of times; each iteration consumes something. -/
  | more (greedy : Bool) (body : Node)
  /-- The body at least once; only the first iteration may consume nothing. -/
  | plus (greedy : Bool) (body : Node)
  /-- The text that a group matched, once more. -/
  | backref (index : Nat)
  /-- Holds where a group has begun to match. -/
  | groupSet (index : Nat)
  /-- The body matches from here; the position stays. -/
  | ahead (body : Node)
  /-- The body does not match from here. -/
  | notAhead (body : Node)
  /-- The body matches from `count` characters before here. -/
  | behind (count : Nat) (body : Node)
  | notBehind (count : Nat) (body : Node)
  /-- The first way in which the body matches, and no other. -/
  | atomic (body : Node)
  /-- As `atomic`, and retries inside do not count. The groups from `lo` up to `hi` start afresh. -/
  | once (lo hi : Nat) (body : Node)
  /-- The second part where the condition matches, the third part where it does not. -/
  | cond (condition yes no : Node)
  /-- The match is reported to start here. -/
  | keepOut
  /-- Holds up to where the search started. -/
  | searchStart

namespace Node

/-- The nodes in a row. -/
def seqAll : List Node → Node
  | [] => empty
  | [node] => node
  | node :: rest => seq node (seqAll rest)

/-- The branches in order of preference. No branch is the branch that never matches. -/
def altAll : List Node → Node
  | [] => char fun _ => false
  | [node] => node
  | node :: rest => alt node (altAll rest)

end Node

end Highlighter.Regex
