import Highlighter.Regex.Node

/-!
# Matching

`Node.run` matches a node from a position on and hands every way in which it matches, best first,
to what comes after it, until one succeeds. Positions count characters. A match that had to retry
more often than its limit allows is given up.

`findFrom` looks for the leftmost match, and among the matches that start there for the best one.
-/

set_option autoImplicit false

namespace Highlighter.Regex

/-- Where each group began and where it ended: entry `2 * i` and entry `2 * i + 1` for group `i`. -/
abbrev Slots := Array (Option Nat)

/-- How a match ends. The count says how often it retried. -/
inductive Verdict where
  | found (stop : Nat) (slots : Slots) (spent : Nat)
  | failed (spent : Nat)
  | exhausted

/-- What is left to be matched, from a position, the groups so far and the retries so far. -/
abbrev Rest := Nat → Slots → Nat → Verdict

/-- A text to be matched and the circumstances of the search. -/
structure Search where
  text : Array Char
  /-- Where the search started. -/
  start : Nat
  /-- How many retries are allowed, if they are limited. -/
  limit : Option Nat

/-- The character before a position. -/
def before? (text : Array Char) (pos : Nat) : Option Char :=
  if pos = 0 then none else text[pos - 1]?

/-- Whether the condition holds at a position of the text. -/
def Anchor.holds (text : Array Char) (pos : Nat) : Anchor → Bool
  | textStart => pos == 0
  | textEnd => pos == text.size
  | lineStart => pos == 0 || before? text pos == some '\n'
  | lineEnd => pos == text.size || text[pos]? == some '\n'
  | crlfLineStart =>
    pos == 0 || before? text pos == some '\n' ||
      (before? text pos == some '\r' && text[pos]? != some '\n')
  | crlfLineEnd =>
    pos == text.size || text[pos]? == some '\r' ||
      (text[pos]? == some '\n' && before? text pos != some '\r')
  | wordBoundary word => (before? text pos).any word != text[pos]?.any word
  | notWordBoundary word => (before? text pos).any word == text[pos]?.any word
  | wordStart word => !(before? text pos).any word && text[pos]?.any word
  | wordEnd word => (before? text pos).any word && !text[pos]?.any word
  | wordStartHalf word => !(before? text pos).any word
  | wordEndHalf word => !text[pos]?.any word

/-- Go on with `other` where the verdict is a failure. This is one retry. -/
def Verdict.orElse (limit : Option Nat) (verdict : Verdict) (other : Nat → Verdict) : Verdict :=
  match verdict with
  | .failed spent =>
    match limit with
    | some most => if most ≤ spent then .exhausted else other (spent + 1)
    | none => other spent
  | verdict => verdict

/-- Whether `part` stands in the text at a position. -/
def standsAt (text : Array Char) (pos : Nat) : List Char → Bool
  | [] => true
  | c :: rest => text[pos]? == some c && standsAt text (pos + 1) rest

/-- The body `count` times in a row, then `rest`. -/
def repeatExactly (body : Rest → Rest) (rest : Rest) : Nat → Rest
  | 0 => rest
  | count + 1 => fun pos slots spent => body (repeatExactly body rest count) pos slots spent

/-- The body at most `count` times, then `rest`. -/
def repeatUpTo (limit : Option Nat) (greedy : Bool) (body : Rest → Rest) (rest : Rest) :
    Nat → Rest
  | 0 => rest
  | count + 1 => fun pos slots spent =>
    if greedy then
      (body (repeatUpTo limit greedy body rest count) pos slots spent).orElse limit
        fun spent => rest pos slots spent
    else
      (rest pos slots spent).orElse limit
        fun spent => body (repeatUpTo limit greedy body rest count) pos slots spent

/-- The body any number of times, each time consuming something, then `rest`. As many iterations
as `fuel` says are enough when no more characters are left. -/
def repeatMore (limit : Option Nat) (greedy : Bool) (body : Rest → Rest) (rest : Rest) :
    Nat → Rest
  | 0 => rest
  | fuel + 1 => fun pos slots spent =>
    let again : Rest := fun next slots spent =>
      if next == pos then .failed spent
      else repeatMore limit greedy body rest fuel next slots spent
    if greedy then
      (body again pos slots spent).orElse limit fun spent => rest pos slots spent
    else
      (rest pos slots spent).orElse limit fun spent => body again pos slots spent

/-- Match a node from a position on, then what comes after it. -/
def Node.run (search : Search) (limit : Option Nat) : Node → Rest → Rest
  | empty, rest => rest
  | char set, rest => fun pos slots spent =>
    match search.text[pos]? with
    | some c => if set c then rest (pos + 1) slots spent else .failed spent
    | none => .failed spent
  | anchor condition, rest => fun pos slots spent =>
    if condition.holds search.text pos then rest pos slots spent else .failed spent
  | seq first second, rest => first.run search limit (second.run search limit rest)
  | alt first second, rest => fun pos slots spent =>
    (first.run search limit rest pos slots spent).orElse limit
      fun spent => second.run search limit rest pos slots spent
  | group index body, rest => fun pos slots spent =>
    body.run search limit
      (fun stop slots spent => rest stop (slots.setIfInBounds (2 * index + 1) (some stop)) spent)
      pos (slots.setIfInBounds (2 * index) (some pos)) spent
  | exactly count body, rest => repeatExactly (body.run search limit) rest count
  | upTo count greedy body, rest => repeatUpTo limit greedy (body.run search limit) rest count
  | more greedy body, rest => fun pos slots spent =>
    repeatMore limit greedy (body.run search limit) rest (search.text.size + 1 - pos)
      pos slots spent
  | plus greedy body, rest => fun pos slots spent =>
    body.run search limit
      (fun next slots spent =>
        if next == pos then rest next slots spent
        else
          repeatMore limit greedy (body.run search limit) rest (search.text.size + 1 - next)
            next slots spent)
      pos slots spent
  | backref index, rest => fun pos slots spent =>
    match slots[2 * index]?.join, slots[2 * index + 1]?.join with
    | some start, some stop =>
      if standsAt search.text pos (search.text.extract start stop).toList then
        rest (pos + (stop - start)) slots spent
      else .failed spent
    | _, _ => .failed spent
  | groupSet index, rest => fun pos slots spent =>
    if (slots[2 * index]?.join).isSome then rest pos slots spent else .failed spent
  | ahead body, rest => fun pos slots spent =>
    body.run search limit (fun _ slots spent => rest pos slots spent) pos slots spent
  | notAhead body, rest => fun pos slots spent =>
    match body.run search limit .found pos slots spent with
    | .found _ _ spent => .failed spent
    | verdict => verdict.orElse limit fun spent => rest pos slots spent
  | behind count body, rest => fun pos slots spent =>
    if count ≤ pos then
      body.run search limit (fun _ slots spent => rest pos slots spent) (pos - count) slots spent
    else .failed spent
  | notBehind count body, rest => fun pos slots spent =>
    if count ≤ pos then
      match body.run search limit .found (pos - count) slots spent with
      | .found _ _ spent => .failed spent
      | verdict => verdict.orElse limit fun spent => rest pos slots spent
    else (Verdict.failed spent).orElse limit fun spent => rest pos slots spent
  | atomic body, rest => fun pos slots spent =>
    match body.run search limit .found pos slots spent with
    | .found stop slots spent => rest stop slots spent
    | verdict => verdict
  | once lo hi body, rest => fun pos slots spent =>
    let fresh :=
      if lo < hi then slots.mapIdx fun i slot => if 2 * lo ≤ i && i < 2 * hi then none else slot
      else slots
    match body.run search none .found pos fresh 0 with
    | .found stop slots _ => rest stop slots spent
    | _ => .failed spent
  | cond condition yes no, rest => fun pos slots spent =>
    match condition.run search limit .found pos slots spent with
    | .found stop slots spent => yes.run search limit rest stop slots spent
    | verdict => verdict.orElse limit fun spent => no.run search limit rest pos slots spent
  | keepOut, rest => fun pos slots spent =>
    rest pos (slots.setIfInBounds 0 (some pos)) spent
  | searchStart, rest => fun pos slots spent =>
    if pos ≤ search.start then rest pos slots spent else .failed spent

/-- Look for a match that starts at `pos` or at one of the `fuel` positions after it. -/
def findFrom (search : Search) (node : Node) (groups : Nat) (pos spent : Nat) :
    Nat → Verdict
  | 0 => .failed spent
  | fuel + 1 =>
    let slots := Array.replicate (2 * (groups + 1)) none
    ((Node.group 0 node).run search search.limit .found pos slots spent).orElse search.limit
      fun spent => findFrom search node groups (pos + 1) spent fuel

/-- The leftmost match that starts at the start of the search or after it. -/
def Search.find (search : Search) (node : Node) (groups : Nat) : Verdict :=
  findFrom search node groups search.start 0 (search.text.size + 1 - search.start)

end Highlighter.Regex
