import Highlighter.Regex.Primitive

/-!
# Patterns of the regular dialect

An `Ast` is a pattern of the dialect without look-around and references to groups, as it is
written. It keeps where groups, classes and flags stand: places count characters from the start of
the pattern.
-/

set_option autoImplicit false

namespace Highlighter.Regex.Regular

/-- A part of a pattern, from `start` up to `stop`. -/
structure Place where
  start : Nat
  stop : Nat
  deriving DecidableEq, Repr

/-- The flags of a pattern, by their letters. -/
inductive Flag where
  /-- `i`: letter case does not count. -/
  | ignoreCase
  /-- `m`: the anchors also hold at line ends. -/
  | multiline
  /-- `s`: the dot also matches a line feed. -/
  | dotAll
  /-- `U`: greedy and lazy change places. -/
  | swapGreed
  /-- `u`: classes reach beyond ASCII. -/
  | unicode
  /-- `R`: a carriage return also ends a line. -/
  | crlf
  /-- `x`: blanks and comments mean nothing. -/
  | verbose
  deriving DecidableEq, Repr

/-- The flag of a letter. -/
def Flag.ofLetter? : Char → Option Flag
  | 'i' => some ignoreCase
  | 'm' => some multiline
  | 's' => some dotAll
  | 'U' => some swapGreed
  | 'u' => some unicode
  | 'R' => some crlf
  | 'x' => some verbose
  | _ => none

/-- Flags that are turned on or off, each at most once. -/
abbrev FlagChange := List (Flag × Bool)

/-- What a flag group does to a flag. -/
def FlagChange.value? (change : FlagChange) (flag : Flag) : Option Bool :=
  change.lookup flag

/-- The ways in which a group opens. -/
inductive GroupKind where
  | capturing (index : Nat) (name : Option String)
  | flagged (change : FlagChange)
  deriving DecidableEq, Repr

/-- A pattern as it is written. -/
inductive Ast where
  | empty
  /-- Flags for the rest of the enclosing group. -/
  | flags (change : FlagChange) (place : Place)
  | primitive (piece : Primitive)
  | bracket (set : ClassSet) (place : Place)
  | repetition (min : Nat) (max : Option Nat) (greedy : Bool) (body : Ast)
  /-- A group; `start` is where its opening parenthesis stands. -/
  | group (kind : GroupKind) (start : Nat) (body : Ast)
  | alternation (branches : List Ast)
  | concat (items : List Ast)
  deriving Repr

namespace Ast

/-- The items in a row; a single item stands for itself. -/
def ofItems : List Ast → Ast
  | [] => empty
  | [item] => item
  | items => concat items

/-- The branches; a single branch stands for itself. -/
def ofBranches : List Ast → Ast
  | [branch] => branch
  | branches => alternation branches

mutual

/-- How deep a pattern nests. -/
def depth : Ast → Nat
  | empty => 0
  | flags _ _ => 0
  | primitive _ => 0
  | bracket set _ => set.depth
  | repetition _ _ _ body => body.depth + 1
  | group _ _ body => body.depth + 1
  | alternation branches => depthAll branches + 1
  | concat items => depthAll items + 1

/-- How deep the deepest of the patterns nests. -/
def depthAll : List Ast → Nat
  | [] => 0
  | item :: rest => max item.depth (depthAll rest)

end

end Ast

end Highlighter.Regex.Regular
