import Highlighter.Style

/-!
# Streams of decorations

A decoration marks where a style begins. A stream of decorations in the order of their offsets
styles a source from its first byte to its last one: each decoration holds up to the next one.

`compact` brings decorations in any order into the one stream that styles the same. `runs` gives the
parts of a source that a stream styles.
-/

set_option autoImplicit false

namespace Highlighter

/-- The start of a style. -/
structure Decoration where
  offset : Nat
  style : Style
  deriving DecidableEq, Repr

/-- A part of a source with its style. -/
structure Run where
  start : Nat
  stop : Nat
  style : Style
  deriving DecidableEq, Repr

/-- Decorations, one after the other. -/
abbrev Stream := List Decoration

namespace Stream

/-- Decorations with the greatest offset first, and one more, which replaces one at its offset. -/
def insertDown (decoration : Decoration) : Stream → Stream
  | [] => [decoration]
  | first :: rest =>
    if first.offset < decoration.offset then decoration :: first :: rest
    else if first.offset = decoration.offset then decoration :: rest
    else first :: insertDown decoration rest

/-- Decorations in the order of their offsets. Of those at one offset, the last one counts. -/
def sorted (raw : Stream) : Stream :=
  (raw.foldl (fun stream decoration => insertDown decoration stream) []).reverse

/-- A stream without the decorations that repeat the style before them. -/
def dropRepeats (style : Option Style) : Stream → Stream
  | [] => []
  | first :: rest =>
    if style = some first.style then dropRepeats style rest
    else first :: dropRepeats (some first.style) rest

/-- A stream without its last decoration, if that one is at the end of the source. -/
def dropAtEnd (stop : Nat) (stream : Stream) : Stream :=
  match stream.getLast? with
  | some last => if last.offset = stop then stream.dropLast else stream
  | none => stream

/-- The stream that styles as given decorations do, for a source of `size` bytes that starts at
`base`. Its offsets grow, and neighbours differ in their style. -/
def compact (raw : Stream) (base size : Nat) : Stream :=
  dropAtEnd (base + size) (dropRepeats none (sorted raw))

/-- The parts of a source that ends at `stop`, each up to where the next one starts. Parts that are
empty are left out. -/
def runsUpTo (stop : Nat) : Stream → List Run
  | [] => []
  | first :: rest =>
    let next := match rest with
      | [] => stop
      | second :: _ => second.offset
    if first.offset < next then ⟨first.offset, next, first.style⟩ :: runsUpTo stop rest
    else runsUpTo stop rest

/-- The parts of a source of `size` bytes that starts at `base`. -/
def runs (stream : Stream) (base size : Nat) : List Run :=
  runsUpTo (base + size) stream

end Stream

end Highlighter
