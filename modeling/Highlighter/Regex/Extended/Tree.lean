import Highlighter.Regex.Class

/-!
# Patterns of the extended dialect

A `Tree` is a pattern of the dialect with look-around, references to groups, atomic groups and
conditions. Its flags are resolved while it is read.

Three measures decide how a tree is matched. `minSize` is the least number of characters that it
consumes. `isConstSize` says that it always consumes as many. `isHard` says that a regular
expression cannot stand for it: a group that is referred to is hard, since another way to match it
may be asked for.
-/

set_option autoImplicit false

namespace Highlighter.Regex.Extended

/-- An anchor of the extended dialect. -/
inductive Sign where
  | textStart | textEnd | lineStart | lineEnd
  | wordBoundary | notWordBoundary | wordStart | wordEnd
  deriving DecidableEq, Repr

/-- Word boundaries are not left to regular expressions. -/
def Sign.isHard : Sign → Bool
  | wordBoundary | notWordBoundary | wordStart | wordEnd => true
  | _ => false

/-- A pattern of the extended dialect. -/
inductive Tree where
  | empty
  /-- Any character, a line feed among them if `newline` is set. -/
  | any (newline : Bool)
  | literal (c : Char) (ignoreCase : Bool)
  | set (body : ClassSet) (ignoreCase : Bool)
  | anchor (sign : Sign)
  | concat (items : List Tree)
  | alternation (branches : List Tree)
  | group (index : Nat) (body : Tree)
  | repetition (min : Nat) (max : Option Nat) (greedy : Bool) (body : Tree)
  | look (behind negated : Bool) (body : Tree)
  | backref (index : Nat)
  | atomic (body : Tree)
  | keepOut
  | searchStart
  | groupSet (index : Nat)
  | cond (condition yes no : Tree)
  deriving Repr

namespace Tree

/-- Whether a tree is the empty one. -/
def isEmpty : Tree → Bool
  | empty => true
  | _ => false

/-- Whether a repetition may follow. -/
def isRepeatable : Tree → Bool
  | empty | look _ _ _ | anchor _ => false
  | _ => true

/-- The items in a row; a single item stands for itself. -/
def ofItems : List Tree → Tree
  | [] => empty
  | [item] => item
  | items => concat items

mutual

/-- The least number of characters that a tree consumes. -/
def minSize : Tree → Nat
  | empty | anchor _ | look _ _ _ | backref _ | keepOut | searchStart | groupSet _ => 0
  | any _ | literal _ _ | set _ _ => 1
  | concat items => sumSize items
  | alternation branches => leastSize branches
  | group _ body => body.minSize
  | repetition min _ _ body => body.minSize * min
  | atomic body => body.minSize
  | cond condition yes no => condition.minSize + min yes.minSize no.minSize

/-- The least number of characters that the trees consume in a row. -/
def sumSize : List Tree → Nat
  | [] => 0
  | item :: rest => item.minSize + sumSize rest

/-- The least number of characters that one of the trees consumes. -/
def leastSize : List Tree → Nat
  | [] => 0
  | [branch] => branch.minSize
  | branch :: rest => min branch.minSize (leastSize rest)

end

mutual

/-- Whether a tree always consumes the same number of characters. -/
def isConstSize : Tree → Bool
  | empty | anchor _ | look _ _ _ | keepOut | searchStart | groupSet _ => true
  | backref _ => false
  | any _ | literal _ _ | set _ _ => true
  | concat items => allConstSize items
  | alternation branches => allConstSize branches && sameSize branches
  | group _ body => body.isConstSize
  | repetition min max _ body => body.isConstSize && max == some min
  | atomic body => body.isConstSize
  | cond condition yes no =>
    condition.isConstSize && yes.isConstSize && no.isConstSize &&
      condition.minSize + yes.minSize == no.minSize

/-- Whether each tree always consumes the same number of characters. -/
def allConstSize : List Tree → Bool
  | [] => true
  | item :: rest => item.isConstSize && allConstSize rest

/-- Whether the trees consume as many characters as each other. -/
def sameSize : List Tree → Bool
  | [] => true
  | [_] => true
  | first :: second :: rest => first.minSize == second.minSize && sameSize (second :: rest)

end

mutual

/-- Whether a regular expression cannot stand for a tree. The groups in `targets` are referred
to. -/
def isHard (targets : List Nat) : Tree → Bool
  | empty | any _ | literal _ _ | set _ _ => false
  | anchor sign => sign.isHard
  | concat items => anyHard targets items
  | alternation branches => anyHard targets branches
  | group index body => targets.contains index || body.isHard targets
  | repetition _ _ _ body => body.isHard targets
  | look _ _ _ | backref _ | atomic _ | keepOut | searchStart | groupSet _ | cond _ _ _ => true

/-- Whether a regular expression cannot stand for one of the trees. -/
def anyHard (targets : List Nat) : List Tree → Bool
  | [] => false
  | item :: rest => item.isHard targets || anyHard targets rest

end

mutual

/-- The numbers of the groups in a tree. -/
def groups : Tree → List Nat
  | concat items => groupsAll items
  | alternation branches => groupsAll branches
  | group index body => index :: body.groups
  | repetition _ _ _ body => body.groups
  | look _ _ body => body.groups
  | atomic body => body.groups
  | cond condition yes no => condition.groups ++ yes.groups ++ no.groups
  | _ => []

/-- The numbers of the groups in the trees. -/
def groupsAll : List Tree → List Nat
  | [] => []
  | item :: rest => item.groups ++ groupsAll rest

end

end Tree

end Highlighter.Regex.Extended
