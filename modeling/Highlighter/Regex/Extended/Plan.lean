import Highlighter.Regex.Extended.Tree
import Highlighter.Regex.Regular.Meaning
import Highlighter.Regex.Weight

/-!
# How patterns of the extended dialect are matched

`plan?` turns a tree into a `Node`. Trees that a regular expression can stand for are matched in
one go: what comes after them cannot ask for another way. Inside a hard tree, only rows of a
constant size are matched so, since their end is the same in every way.

A look behind needs a body of constant size. Branches of different sizes look behind one by one.
-/

set_option autoImplicit false

namespace Highlighter.Regex.Extended

/-- What an anchor asks for. -/
def Sign.meaning : Sign → Anchor
  | textStart => .textStart
  | textEnd => .textEnd
  | lineStart => .lineStart
  | lineEnd => .lineEnd
  | wordBoundary => .wordBoundary isWordChar
  | notWordBoundary => .notWordBoundary isWordChar
  | wordStart => .wordStart isWordChar
  | wordEnd => .wordEnd isWordChar

namespace Tree

/-- The largest count that a repetition may give where a regular expression stands for it. -/
def maxCount : Nat := 4294967295

mutual

/-- The regular expression that stands for a tree that is not hard. -/
def regular? : Tree → Option Node
  | empty => some .empty
  | any newline => some (.char fun c => newline || c != '\n')
  | literal c ignoreCase => some (.char (CharSet.ofChar ⟨ignoreCase, true⟩ c))
  | set body ignoreCase => (body.meaning? ⟨ignoreCase, true⟩).map .char
  | anchor sign => some (.anchor sign.meaning)
  | concat items => (regularAll? items).map .seqAll
  | alternation branches => (regularAll? branches).map .altAll
  | group index body => body.regular?.map (.group index)
  | repetition min max greedy body => do
    let node ← body.regular?
    if maxCount < max.getD min || max.getD min < min then none
    else if node.consumesNothing then
      return .repeated (Nat.min min 1) (some (Nat.min (max.getD 1) 1)) greedy node
    else return .repeated min max greedy node
  | _ => none

/-- The regular expressions that stand for the trees. -/
def regularAll? : List Tree → Option (List Node)
  | [] => some []
  | item :: rest => do return (← item.regular?) :: (← regularAll? rest)

end

/-- Whether there is only one way to match a tree: it is a single character, or it consumes
nothing. -/
def isSingle : Tree → Bool
  | empty | any _ | literal _ _ | set _ _ | anchor _ => true
  | _ => false

/-- A row of trees that are not hard, matched in one go. It must not be too large. -/
def inOneGo? (items : List Tree) : Option Node := do
  if maxWeight < weightAll items then none
  let node := Node.seqAll (← regularAll? items)
  if items.all isSingle then return node
  else
    let groups := groupsAll items
    let first := groups.headD 0
    return .once first (first + groups.length) node

/-- Whether a tree that is not hard has a constant size. -/
def isEasyConst (targets : List Nat) (tree : Tree) : Bool :=
  tree.isConstSize && !tree.isHard targets

/-- How many trees at the start of a row are matched in one go. -/
def easyStart (targets : List Nat) (items : List Tree) : Nat :=
  (items.takeWhile (isEasyConst targets)).length

/-- How many of the other trees, at the end of a row, are matched in one go. -/
def easyEnd (targets : List Nat) (hard : Bool) (items : List Tree) : Nat :=
  let others := items.drop (easyStart targets items)
  if hard then (others.reverse.takeWhile (isEasyConst targets)).length
  else (others.reverse.takeWhile fun tree => !tree.isHard targets).length

/-- The nodes around the middle of a row. -/
def aroundRow? (targets : List Nat) (hard : Bool) (items : List Tree) (middle : List Node) :
    Option Node := do
  let first := items.take (easyStart targets items)
  let last := items.drop (items.length - easyEnd targets hard items)
  let first ← if first.isEmpty then some [] else (inOneGo? first).map ([·])
  let last ← if last.isEmpty then some [] else (inOneGo? last).map ([·])
  return .seqAll (first ++ middle ++ last)

/-- The body repeated where it may be retried. -/
def repeatedHard (min : Nat) (max : Option Nat) (greedy : Bool) (body : Node) : Node :=
  match max with
  | none => if min = 0 then .more greedy body else .seq (.exactly min body) (.more greedy body)
  | some max =>
    if max ≤ min then .exactly max body
    else if min = 0 then .upTo max greedy body
    else .seq (.exactly min body) (.upTo (max - min) greedy body)

/-- A look ahead. -/
def lookAhead (negated : Bool) (body : Node) : Node :=
  if negated then .notAhead body else .ahead body

/-- A look behind, over as many characters as its body consumes. -/
def lookBehind (negated : Bool) (size : Nat) (body : Node) : Node :=
  if negated then .notBehind size body else .behind size body

mutual

/-- How a tree is matched. `hard` says that the tree is part of a hard one. -/
def plan? (targets : List Nat) (hard : Bool) : Tree → Option Node
  | empty => some .empty
  | any newline => regular? (any newline)
  | literal c ignoreCase => regular? (literal c ignoreCase)
  | set body ignoreCase => regular? (set body ignoreCase)
  | anchor sign => some (.anchor sign.meaning)
  | concat items =>
    if !hard && !anyHard targets items then inOneGo? [concat items]
    else do
      let start := easyStart targets items
      let middle ←
        planRow? targets start (items.length - start - easyEnd targets hard items) items
      aroundRow? targets hard items middle
  | alternation branches =>
    if !hard && !anyHard targets branches then inOneGo? [alternation branches]
    else (planAll? targets hard branches).map .altAll
  | group index body =>
    if !hard && !(group index body).isHard targets then inOneGo? [group index body]
    else (body.plan? targets hard).map (.group index)
  | repetition min max greedy body =>
    if !hard && !body.isHard targets then inOneGo? [repetition min max greedy body]
    else if min == 0 && max == some 1 then (body.plan? targets hard).map (.upTo 1 greedy)
    else (body.plan? targets (hard || body.isHard targets)).map (repeatedHard min max greedy)
  | look false negated body => (body.plan? targets false).map (lookAhead negated)
  | look true negated (alternation branches) =>
    if (alternation branches).isConstSize then
      let size := (alternation branches).minSize
      if !anyHard targets branches then
        (inOneGo? [alternation branches]).map (lookBehind negated size)
      else (planAll? targets false branches).map fun nodes =>
        lookBehind negated size (.altAll nodes)
    else (planBehind? targets negated branches).map fun nodes =>
      if negated then .seqAll nodes else .altAll nodes
  | look true negated body =>
    if body.isConstSize then
      (body.plan? targets false).map (lookBehind negated body.minSize)
    else none
  | backref index => some (.backref index)
  | atomic body => (body.plan? targets false).map .atomic
  | keepOut => some .keepOut
  | searchStart => some .searchStart
  | groupSet index => some (.groupSet index)
  | cond condition yes no => do
    return .cond (← condition.plan? targets hard) (← yes.plan? targets hard)
      (← no.plan? targets hard)

/-- How each of the trees is matched. -/
def planAll? (targets : List Nat) (hard : Bool) : List Tree → Option (List Node)
  | [] => some []
  | item :: rest => do return (← item.plan? targets hard) :: (← planAll? targets hard rest)

/-- How the `count` trees after the first `skip` are matched, as parts of a hard tree. -/
def planRow? (targets : List Nat) (skip count : Nat) : List Tree → Option (List Node)
  | [] => some []
  | item :: rest =>
    if skip ≠ 0 then planRow? targets (skip - 1) count rest
    else if count = 0 then some []
    else do return (← item.plan? targets true) :: (← planRow? targets 0 (count - 1) rest)

/-- How each of the trees looks behind. -/
def planBehind? (targets : List Nat) (negated : Bool) : List Tree → Option (List Node)
  | [] => some []
  | item :: rest => do
    if !item.isConstSize then none
    let node ← item.plan? targets false
    return lookBehind negated item.minSize node :: (← planBehind? targets negated rest)

end

end Tree

end Highlighter.Regex.Extended
