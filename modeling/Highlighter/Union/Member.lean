import Highlighter.Pattern.Basic
import Highlighter.Pattern.CaseFold

/-!
# Patterns as members of a union

When patterns are joined, their groups share one numbering. A group keeps its number only if its own
pattern refers to it after it has opened; all other groups just bracket. Each reference then gets
the number that its group has in the union. A number that refers to no group is a character by its
code, and is spelt so that it cannot become a reference.

`members` gives the parts of patterns as members of a union, one pattern after the other.
`memberText` gives the text of such parts. It leaves single carets out, since a member may match
anywhere, and keeps the first of two carets in a row.
-/

set_option autoImplicit false

namespace Highlighter.Union

open Pattern

/-- A character by its code, spelt so that it stands for itself. -/
def codePart (code : Nat) : Part :=
  match quotedCode code with
  | '\\' :: rest => .escape ('\\' :: rest)
  | text => .literal text

/-- The parts with every number that refers to no group so far spelt as a character. `opened` groups
have opened before. -/
def resolve (opened : Nat) : List Part → List Part
  | [] => []
  | .opening kind :: rest =>
    .opening kind :: resolve (if kind.isCapturing then opened + 1 else opened) rest
  | .numeric number :: rest =>
    (if 1 ≤ number && number ≤ opened then .numeric number else codePart number) ::
      resolve opened rest
  | part :: rest => part :: resolve opened rest

/-- How many groups the parts capture. -/
def captureCount : List Part → Nat
  | [] => 0
  | .opening kind :: rest => captureCount rest + if kind.isCapturing then 1 else 0
  | _ :: rest => captureCount rest

/-- The groups that the parts refer to, in order. -/
def targets (parts : List Part) : List Nat :=
  (List.range (captureCount parts + 1)).filter fun group => parts.contains (.numeric group)

/-- The parts with the groups in `kept` numbered from `base + 1` on, and all others not captured.
`opened` groups have opened before. -/
def renumber (base : Nat) (kept : List Nat) (opened : Nat) : List Part → List Part
  | [] => []
  | .opening kind :: rest =>
    if kind.isCapturing then
      (if kept.contains (opened + 1) then .opening .capture else .opening (.flagged [])) ::
        renumber base kept (opened + 1) rest
    else .opening kind :: renumber base kept opened rest
  | .numeric number :: rest =>
    .numeric (base + kept.idxOf number + 1) :: renumber base kept opened rest
  | part :: rest => part :: renumber base kept opened rest

/-- The parts of one member, and how many groups are numbered after it. -/
def member (base : Nat) (parts : List Part) : List Part × Nat :=
  let resolved := resolve 0 parts
  let kept := targets resolved
  (renumber base kept 0 resolved, base + kept.length)

/-- The parts of all members, and how many groups are numbered in all. -/
def members (base : Nat) : List (List Part) → List (List Part) × Nat
  | [] => ([], base)
  | parts :: rest =>
    let (first, base) := member base parts
    let (others, base) := members base rest
    (first :: others, base)

/-- The parts without the carets that stand alone. -/
def dropCarets : List Part → List Part
  | .caret :: .caret :: rest => .caret :: dropCarets (.caret :: rest)
  | .caret :: rest => dropCarets rest
  | part :: rest => part :: dropCarets rest
  | [] => []

/-- The text of a member. `folded` says that letter case is spelt out. -/
def memberText (folded : Bool) (parts : List Part) : List Char :=
  (dropCarets parts).flatMap fun part => if folded then part.renderFolded else part.render

end Highlighter.Union
