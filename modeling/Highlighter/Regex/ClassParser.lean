import Highlighter.Regex.Primitive

/-!
# Reading character classes

`parseClass?` reads a bracketed class from the start of a pattern. Hyphens at the start of a class,
or a closing bracket there, are members. `&&`, `--` and `~~` are operations; all bind alike, to the
left.
-/

set_option autoImplicit false

namespace Highlighter.Regex

/-- An operation on two classes. -/
inductive ClassOp where
  | intersection | difference | symmetricDifference
  deriving DecidableEq, Repr

/-- The class that an operation makes of its operands. -/
def ClassOp.apply : ClassOp → ClassSet → ClassSet → ClassSet
  | intersection => .intersection
  | difference => .difference
  | symmetricDifference => .symmetricDifference

/-- A single piece as a member of a class. Dots and anchors are none. -/
def Primitive.toClass? : Primitive → Option ClassSet
  | literal c _ => some (.literal c)
  | short kind negated => some (.short kind negated)
  | property query negated => some (.property query negated)
  | dot => none
  | anchor _ => none

/-- Read one member of a class. All but escapes stand for themselves. -/
def parseMember? (verbose : Bool) : List Char → Option (Primitive × List Char)
  | [] => none
  | '\\' :: rest => parseEscape? verbose rest
  | c :: rest => some (.literal c false, rest)

/-- The next character that is no blank; a number sign is passed over once. -/
def peekMember (verbose : Bool) (cs : List Char) : Option Char :=
  if verbose then
    match cs.dropWhile isBlank with
    | '#' :: rest => (rest.dropWhile isBlank).head?
    | rest => rest.head?
  else cs.head?

/-- Read a member or a range of a class. A hyphen before a closing bracket or another hyphen makes
no range. -/
def parseRange? (verbose : Bool) (cs : List Char) : Option (ClassSet × List Char) := do
  let (first, cs) ← parseMember? verbose cs
  match skipBlank verbose cs with
  | [] => none
  | '-' :: rest =>
    let next := peekMember verbose rest
    if next == some ']' || next == some '-' then
      return (← first.toClass?, '-' :: rest)
    else
      match first, ← parseMember? verbose (skipBlank verbose rest) with
      | .literal lo _, (.literal hi _, rest) => if lo ≤ hi then some (.range lo hi, rest) else none
      | _, _ => none
  | cs => return (← first.toClass?, cs)

/-- Read a class such as `[:alpha:]`, after its bracket. -/
def parsePosix? (cs : List Char) : Option (ClassSet × List Char) := do
  match cs with
  | ':' :: rest =>
    let (negated, rest) := match rest with
      | '^' :: rest => (true, rest)
      | rest => (false, rest)
    match rest.dropWhile (· != ':') with
    | ':' :: ']' :: after =>
      let kind ← PosixClass.ofName? (String.ofList (rest.takeWhile (· != ':')))
      return (.posix kind negated, after)
    | _ => none
  | _ => none

/-- The hyphens at the start of a class, and the text after them, which must not be empty. -/
def leadingHyphens? (verbose : Bool) : Nat → List Char → Option (List ClassSet × List Char)
  | 0, _ => none
  | steps + 1, cs =>
    match cs with
    | [] => none
    | '-' :: rest => do
      let (items, rest) ← leadingHyphens? verbose steps (skipBlank verbose rest)
      return (.literal '-' :: items, rest)
    | cs => some ([], cs)

/-- Read what a class starts with, after its bracket: whether it is negated, and the members that
could not stand elsewhere unescaped. -/
def openClass? (verbose : Bool) (cs : List Char) : Option (Bool × List ClassSet × List Char) := do
  let cs := skipBlank verbose cs
  let (negated, cs) := match cs with
    | '^' :: rest => (true, skipBlank verbose rest)
    | cs => (false, cs)
  let (items, cs) ← leadingHyphens? verbose (cs.length + 1) cs
  match items, cs with
  | [], ']' :: rest =>
    match skipBlank verbose rest with
    | [] => none
    | rest => return (negated, [.literal ']'], rest)
  | items, cs => return (negated, items, cs)

/-- The class made of the members so far, latest first, and of the operation before them. -/
def closeOperand (pending : Option (ClassOp × ClassSet)) (items : List ClassSet) : ClassSet :=
  let operand := ClassSet.unionAll items.reverse
  match pending with
  | none => operand
  | some (op, left) => op.apply left operand

/-- Read the members of a class up to its closing bracket. Every step reads a character, so the
length of the text bounds the steps. -/
def parseMembers? (verbose : Bool) :
    Nat → Option (ClassOp × ClassSet) → List ClassSet → List Char → Option (ClassSet × List Char)
  | 0, _, _, _ => none
  | steps + 1, pending, items, cs =>
    match skipBlank verbose cs with
    | [] => none
    | ']' :: rest => some (closeOperand pending items, rest)
    | '&' :: '&' :: rest =>
      parseMembers? verbose steps (some (.intersection, closeOperand pending items)) [] rest
    | '-' :: '-' :: rest =>
      parseMembers? verbose steps (some (.difference, closeOperand pending items)) [] rest
    | '~' :: '~' :: rest =>
      parseMembers? verbose steps (some (.symmetricDifference, closeOperand pending items)) [] rest
    | '[' :: rest =>
      match parsePosix? rest with
      | some (item, rest) => parseMembers? verbose steps pending (item :: items) rest
      | none => do
        let (negated, inner, rest) ← openClass? verbose rest
        let (body, rest) ← parseMembers? verbose steps none inner.reverse rest
        parseMembers? verbose steps pending (.bracket negated body :: items) rest
    | cs => do
      let (item, rest) ← parseRange? verbose cs
      parseMembers? verbose steps pending (item :: items) rest

/-- Read a bracketed class, after its bracket. -/
def parseClass? (verbose : Bool) (cs : List Char) : Option (ClassSet × List Char) := do
  let (negated, items, rest) ← openClass? verbose cs
  let (body, rest) ← parseMembers? verbose (rest.length + 1) none items.reverse rest
  return (.bracket negated body, rest)

end Highlighter.Regex
