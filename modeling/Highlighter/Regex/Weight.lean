import Highlighter.Regex.Extended.Tree
import Highlighter.Regex.Regular.Ast

/-!
# How large patterns are

A pattern whose repetitions are written out in full may be too large to be matched. The weight of a
pattern estimates how many bytes it takes then: each state takes `stateWeight`, and a set of
characters takes more the more scattered its members are. Patterns heavier than `maxWeight` are
refused.
-/

set_option autoImplicit false

namespace Highlighter.Regex

/-- What one state takes. -/
def stateWeight : Nat := 32

/-- The most that a pattern may take. -/
def maxWeight : Nat := 33554432

/-- What a single character takes. -/
def charWeight (ignoreCase : Bool) (c : Char) : Nat :=
  if ignoreCase then 2 * stateWeight * c.utf8Size else stateWeight * c.utf8Size

/-- What a set takes that holds most characters. -/
def wideSetWeight : Nat := 400

/-- What a class with a letter of its own takes. -/
def ShortClass.weight : ShortClass → Nat
  | digit => 10000
  | space => 500
  | word => 48000

/-- What the characters with a property take. -/
def propertyWeight : Nat := 24000

/-- What a class takes. -/
def ClassSet.weight : ClassSet → Nat
  | none => 0
  | literal c => 8 * c.utf8Size
  | range _ hi => if hi.val < 0x80 then 8 else wideSetWeight
  | posix _ _ => stateWeight
  | short kind _ => kind.weight
  | property _ _ => propertyWeight
  | union first second => first.weight + second.weight
  | bracket negated body => body.weight + if negated then wideSetWeight else stateWeight
  | intersection first second => first.weight + second.weight
  | difference first second => first.weight + second.weight
  | symmetricDifference first second => first.weight + second.weight

/-- What a repetition takes, given what one copy of its body takes. -/
def repetitionWeight (min : Nat) (max : Option Nat) (body : Nat) : Nat :=
  match max with
  | some max => min * body + (max - min) * (body + 2 * stateWeight)
  | none => Nat.max min 1 * body + 2 * stateWeight

namespace Regular

/-- What a single piece takes. -/
def primitiveWeight : Primitive → Nat
  | .literal c _ => charWeight false c
  | .dot => wideSetWeight
  | .anchor _ => stateWeight
  | .short kind _ => kind.weight
  | .property _ _ => propertyWeight

namespace Ast

mutual

/-- What a pattern takes. -/
def weight : Ast → Nat
  | empty => stateWeight
  | flags _ _ => stateWeight
  | primitive piece => primitiveWeight piece
  | bracket set _ => set.weight
  | repetition min max _ body => repetitionWeight min max body.weight
  | group kind _ body =>
    match kind with
    | .capturing _ _ => body.weight + 2 * stateWeight
    | .flagged _ => body.weight
  | alternation branches => weightAll branches + 2 * stateWeight
  | concat items => weightAll items

/-- What patterns take together. -/
def weightAll : List Ast → Nat
  | [] => 0
  | item :: rest => item.weight + weightAll rest

end

end Ast

end Regular

namespace Extended.Tree

mutual

/-- What a pattern takes. -/
def weight : Tree → Nat
  | any _ => wideSetWeight
  | literal c ignoreCase => charWeight ignoreCase c
  | set body _ => body.weight
  | concat items => weightAll items
  | alternation branches => weightAll branches + 2 * stateWeight
  | group _ body => body.weight + 2 * stateWeight
  | repetition min max _ body => repetitionWeight min max body.weight
  | _ => stateWeight

/-- What patterns take together. -/
def weightAll : List Tree → Nat
  | [] => 0
  | item :: rest => item.weight + weightAll rest

end

end Extended.Tree

end Highlighter.Regex
