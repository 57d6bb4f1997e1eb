import Highlighter.Regex.Regular.Ast

/-!
# What patterns of the regular dialect mean

`Ast.meaning?` turns a pattern into a `Node`. Flags hold from where they stand to the end of the
enclosing group, also in the branches that follow.
-/

set_option autoImplicit false

namespace Highlighter.Regex

/-- Whether a node consumes nothing in whatever way it matches. -/
def Node.consumesNothing : Node → Bool
  | empty => true
  | anchor _ => true
  | seq first second => first.consumesNothing && second.consumesNothing
  | alt first second => first.consumesNothing && second.consumesNothing
  | group _ body => body.consumesNothing
  | exactly _ body => body.consumesNothing
  | upTo _ _ body => body.consumesNothing
  | more _ body => body.consumesNothing
  | plus _ body => body.consumesNothing
  | _ => false

/-- The body at least once, or not at all. -/
def Node.star (greedy : Bool) (body : Node) : Node :=
  if greedy then alt (plus greedy body) empty else alt empty (plus greedy body)

/-- The body repeated as a regular pattern asks. -/
def Node.repeated (min : Nat) (max : Option Nat) (greedy : Bool) (body : Node) : Node :=
  match min, max with
  | 0, none => star greedy body
  | 1, none => plus greedy body
  | min + 1, none => seq (exactly min body) (plus greedy body)
  | 0, some max => upTo max greedy body
  | min, some max =>
    if min = max then exactly min body
    else seq (exactly min body) (upTo (max - min) greedy body)

namespace Regular

/-- The flags in force at a place of a pattern. -/
structure Modes where
  ignoreCase : Bool
  multiline : Bool
  dotAll : Bool
  swapGreed : Bool
  unicode : Bool
  crlf : Bool
  deriving DecidableEq, Repr

namespace Modes

/-- The flags in force where a pattern starts. -/
def initial : Modes := ⟨false, false, false, false, true, false⟩

/-- The flags in force after a change. -/
def apply (modes : Modes) (change : FlagChange) : Modes where
  ignoreCase := (change.value? .ignoreCase).getD modes.ignoreCase
  multiline := (change.value? .multiline).getD modes.multiline
  dotAll := (change.value? .dotAll).getD modes.dotAll
  swapGreed := (change.value? .swapGreed).getD modes.swapGreed
  unicode := (change.value? .unicode).getD modes.unicode
  crlf := (change.value? .crlf).getD modes.crlf

/-- The modes that characters and classes depend on. -/
def chars (modes : Modes) : CharMode := ⟨modes.ignoreCase, modes.unicode⟩

/-- The word characters that the word boundaries go by. -/
def word (modes : Modes) : CharSet := if modes.unicode then isWordChar else isAsciiWord

end Modes

/-- What an anchor asks for. -/
def anchorMeaning (modes : Modes) : AnchorSign → Anchor
  | .caret =>
    if !modes.multiline then .textStart else if modes.crlf then .crlfLineStart else .lineStart
  | .dollar =>
    if !modes.multiline then .textEnd else if modes.crlf then .crlfLineEnd else .lineEnd
  | .textStart => .textStart
  | .textEnd => .textEnd
  | .wordBoundary => .wordBoundary modes.word
  | .notWordBoundary => .notWordBoundary modes.word
  | .wordStart => .wordStart modes.word
  | .wordEnd => .wordEnd modes.word
  | .wordStartHalf => .wordStartHalf modes.word
  | .wordEndHalf => .wordEndHalf modes.word

/-- The characters that a dot matches. -/
def dotMeaning (modes : Modes) : CharSet :=
  if modes.dotAll then fun _ => true
  else if modes.crlf then fun c => c != '\n' && c != '\r'
  else fun c => c != '\n'

/-- What a single piece of a pattern means. Without Unicode, a dot or a byte beyond ASCII would
match less than a character. -/
def primitiveMeaning? (modes : Modes) : Primitive → Option Node
  | .literal c byte =>
    if byte && !modes.unicode && 0x80 ≤ c.val then none
    else some (.char (CharSet.ofChar modes.chars c))
  | .dot => if modes.unicode then some (.char (dotMeaning modes)) else none
  | .anchor sign => some (.anchor (anchorMeaning modes sign))
  | .short kind negated =>
    (CharSet.negate? modes.chars negated (kind.members modes.unicode)).map .char
  | .property query negated => (query.members? modes.chars negated).map .char

namespace Ast

mutual

/-- What a pattern means under the flags in force, and the flags in force after it. -/
def meaning? (modes : Modes) : Ast → Option (Node × Modes)
  | empty => some (.empty, modes)
  | flags change _ => some (.empty, modes.apply change)
  | primitive piece => (primitiveMeaning? modes piece).map (·, modes)
  | bracket set _ => (set.meaning? modes.chars).map (.char ·, modes)
  | repetition min max greedy body => do
    let (node, after) ← body.meaning? modes
    let greedy := greedy != modes.swapGreed
    if node.consumesNothing then
      return (.repeated (Nat.min min 1) (some (Nat.min (max.getD 1) 1)) greedy node, after)
    else return (.repeated min max greedy node, after)
  | group kind _ body =>
    match kind with
    | .capturing index _ => do
      let (node, _) ← body.meaning? modes
      return (.group index node, modes)
    | .flagged change => do
      let (node, _) ← body.meaning? (modes.apply change)
      return (node, modes)
  | alternation branches => do
    let (nodes, after) ← meanings? modes branches
    return (.altAll nodes, after)
  | concat items => do
    let (nodes, after) ← meanings? modes items
    return (.seqAll nodes, after)

/-- What the patterns mean one after the other, flags being passed on. -/
def meanings? (modes : Modes) : List Ast → Option (List Node × Modes)
  | [] => some ([], modes)
  | item :: rest => do
    let (node, after) ← item.meaning? modes
    let (nodes, after) ← meanings? after rest
    return (node :: nodes, after)

end

end Ast

end Regular

end Highlighter.Regex
