import Highlighter.Regex.Node
import Highlighter.Unicode.Property

/-!
# Character classes

A `ClassSet` is a class as a pattern writes it: members, ranges, named classes, nested classes and
the operations on them. `ClassSet.meaning` is the set of characters that it stands for. It depends
on two modes: whether letter case counts, and whether classes reach beyond ASCII.

Where letter case does not count, a class holds the case variants of its members. The variants are
added before a class is negated and before an operation is applied.
-/

set_option autoImplicit false

namespace Highlighter.Regex

/-- The classes with a letter of their own: `\d`, `\s` and `\w`. -/
inductive ShortClass where
  | digit | space | word
  deriving DecidableEq, Repr

/-- The classes that a bracketed name such as `[:alpha:]` stands for. -/
inductive PosixClass where
  | alnum | alpha | ascii | blank | cntrl | digit | graph | lower | print | punct | space | upper
  | word | xdigit
  deriving DecidableEq, Repr

/-- How a pattern names a property of characters. -/
inductive PropertyQuery where
  | named (name : String)
  /-- A property and its value; `differs` asks for any other value. -/
  | valued (name value : String) (differs : Bool)
  deriving DecidableEq, Repr

/-- A character class. -/
inductive ClassSet where
  | none
  | literal (c : Char)
  | range (lo hi : Char)
  | posix (kind : PosixClass) (negated : Bool)
  | short (kind : ShortClass) (negated : Bool)
  | property (query : PropertyQuery) (negated : Bool)
  | union (first second : ClassSet)
  | bracket (negated : Bool) (body : ClassSet)
  | intersection (first second : ClassSet)
  | difference (first second : ClassSet)
  | symmetricDifference (first second : ClassSet)
  deriving DecidableEq, Repr

/-- The modes that the meaning of a character or a class depends on. -/
structure CharMode where
  ignoreCase : Bool
  unicode : Bool
  deriving DecidableEq, Repr

namespace CharSet

/-- The characters outside a set. -/
def complement (set : CharSet) : CharSet := fun c => !set c

/-- The characters with a case variant in the set. -/
def closeCase (set : CharSet) : CharSet := fun c =>
  (Unicode.variants c.toNat).any fun code => set (Char.ofNat code)

/-- The characters with an ASCII case variant in the set. -/
def closeAsciiCase (set : CharSet) : CharSet := fun c =>
  set c || set c.toLower || set c.toUpper

/-- The case variants of the members of a set, where letter case does not count. -/
def fold (mode : CharMode) (set : CharSet) : CharSet :=
  if mode.ignoreCase then
    if mode.unicode then closeCase set else closeAsciiCase set
  else set

/-- The characters that one written character stands for. -/
def ofChar (mode : CharMode) (c : Char) : CharSet :=
  if mode.ignoreCase then
    if mode.unicode then
      match Unicode.variants c.toNat with
      | [_] => fun d => d == c
      | codes => fun d => codes.contains d.toNat
    else fun d => d == c || d == c.toLower || d == c.toUpper
  else fun d => d == c

end CharSet

/-- The members of a class with a letter of its own. -/
def ShortClass.members (unicode : Bool) : ShortClass → CharSet
  | digit => if unicode then isDecimalDigit else Char.isDigit
  | space =>
    if unicode then isBlank
    else fun c => c == ' ' || ('\t' ≤ c && c ≤ '\r')
  | word => if unicode then isWordChar else isAsciiWord

namespace PosixClass

/-- The class of that name. -/
def ofName? : String → Option PosixClass
  | "alnum" => some alnum
  | "alpha" => some alpha
  | "ascii" => some ascii
  | "blank" => some blank
  | "cntrl" => some cntrl
  | "digit" => some digit
  | "graph" => some graph
  | "lower" => some lower
  | "print" => some print
  | "punct" => some punct
  | "space" => some space
  | "upper" => some upper
  | "word" => some word
  | "xdigit" => some xdigit
  | _ => none

/-- The members of a class, all of them ASCII. -/
def members : PosixClass → CharSet
  | alnum => Char.isAlphanum
  | alpha => Char.isAlpha
  | ascii => fun c => c.val < 0x80
  | blank => fun c => c == ' ' || c == '\t'
  | cntrl => fun c => c.val < 0x20 || c.val == 0x7F
  | digit => Char.isDigit
  | graph => fun c => '!' ≤ c && c ≤ '~'
  | lower => Char.isLower
  | print => fun c => ' ' ≤ c && c ≤ '~'
  | punct => fun c => '!' ≤ c && c ≤ '~' && !c.isAlphanum
  | space => fun c => c == ' ' || ('\t' ≤ c && c ≤ '\r')
  | upper => Char.isUpper
  | word => isAsciiWord
  | xdigit => fun c => c.isDigit || ('a' ≤ c && c ≤ 'f') || ('A' ≤ c && c ≤ 'F')

end PosixClass

/-- The property that a query names, and whether it asks for what does not have it. -/
def PropertyQuery.find? : PropertyQuery → Option (Unicode.Property × Bool)
  | named name => (Unicode.Property.named? name).map (·, false)
  | valued name value differs => (Unicode.Property.valued? name value).map (·, differs)

/-- The set of characters with a property, or of those without it. Properties reach beyond ASCII. -/
def PropertyQuery.members? (mode : CharMode) (negated : Bool) (query : PropertyQuery) :
    Option CharSet :=
  if !mode.unicode then none
  else query.find?.map fun (property, differs) =>
    let set := CharSet.fold mode fun c => property c.toNat
    if negated != differs then set.complement else set

/-- A negated set. Without Unicode it would hold bytes that are no characters. -/
def CharSet.negate? (mode : CharMode) (negated : Bool) (set : CharSet) : Option CharSet :=
  if !negated then some set else if mode.unicode then some set.complement else none

/-- The set of characters that a class stands for, or nothing where the class is not allowed. -/
def ClassSet.meaning? (mode : CharMode) : ClassSet → Option CharSet
  | none => some fun _ => false
  | literal c => if mode.unicode || c.val < 0x80 then some fun d => d == c else Option.none
  | range lo hi =>
    if mode.unicode || hi.val < 0x80 then some fun d => lo ≤ d && d ≤ hi else Option.none
  | posix kind negated => (CharSet.fold mode kind.members).negate? mode negated
  | short kind negated => CharSet.negate? mode negated (kind.members mode.unicode)
  | property query negated => query.members? mode negated
  | union first second => do
    let a ← first.meaning? mode
    let b ← second.meaning? mode
    return fun c => a c || b c
  | bracket negated body => do
    let set ← body.meaning? mode
    (CharSet.fold mode set).negate? mode negated
  | intersection first second => do
    let a ← first.meaning? mode
    let b ← second.meaning? mode
    return fun c => CharSet.fold mode a c && CharSet.fold mode b c
  | difference first second => do
    let a ← first.meaning? mode
    let b ← second.meaning? mode
    return fun c => CharSet.fold mode a c && !CharSet.fold mode b c
  | symmetricDifference first second => do
    let a ← first.meaning? mode
    let b ← second.meaning? mode
    return fun c => CharSet.fold mode a c != CharSet.fold mode b c

/-- Whether a class is written as several members in a row. -/
def ClassSet.isUnion : ClassSet → Bool
  | union _ _ => true
  | _ => false

/-- The members in a row. -/
def ClassSet.unionAll : List ClassSet → ClassSet
  | [] => none
  | [item] => item
  | item :: rest => union item (unionAll rest)

/-- How deep classes and operations nest. The members of a class count as one level together. -/
def ClassSet.depth : ClassSet → Nat
  | union first second =>
    max (first.depth + 1) (if second.isUnion then second.depth else second.depth + 1)
  | bracket _ body => body.depth + 1
  | intersection first second => max first.depth second.depth + 1
  | difference first second => max first.depth second.depth + 1
  | symmetricDifference first second => max first.depth second.depth + 1
  | _ => 0

end Highlighter.Regex
