import Highlighter.Regex.Class
import Highlighter.Text.Hex

/-!
# Escapes and other single pieces of a pattern

`parsePrimitive?` reads one character, escape, dot or anchor from the start of a pattern. The
readers here answer with what they read and with the text after it, and with nothing where the
pattern is malformed.

In verbose patterns, blanks and comments mean nothing, and they may stand even inside an escape.
-/

set_option autoImplicit false

namespace Highlighter.Regex

/-- An anchor as it is written. -/
inductive AnchorSign where
  | caret | dollar | textStart | textEnd
  | wordBoundary | notWordBoundary | wordStart | wordEnd | wordStartHalf | wordEndHalf
  deriving DecidableEq, Repr

/-- A piece of a pattern that is no group, class, repetition or alternation. -/
inductive Primitive where
  /-- One character; `byte` marks one that is written as `\x` with two digits. -/
  | literal (c : Char) (byte : Bool)
  | dot
  | anchor (sign : AnchorSign)
  | short (kind : ShortClass) (negated : Bool)
  | property (query : PropertyQuery) (negated : Bool)
  deriving DecidableEq, Repr

/-- What is left of a verbose pattern after blanks and comments. A comment reaches from a number
sign to the end of the line. -/
def skipVerbose (inComment : Bool) : List Char → List Char
  | [] => []
  | c :: rest =>
    if inComment then skipVerbose (c != '\n') rest
    else if isBlank c then skipVerbose false rest
    else if c == '#' then skipVerbose true rest
    else c :: rest

/-- What is left of a pattern after what means nothing in it. -/
def skipBlank (verbose : Bool) (cs : List Char) : List Char :=
  if verbose then skipVerbose false cs else cs

/-- Read exactly `count` hexadecimal digits. -/
def parseHexDigits? (verbose : Bool) : Nat → Nat → List Char → Option (Nat × List Char)
  | 0, value, cs => some (value, cs)
  | _ + 1, _, [] => none
  | count + 1, value, c :: rest => do
    let digit ← hexValue? c
    parseHexDigits? verbose count (16 * value + digit) (skipBlank verbose rest)

/-- The text up to a closing brace, blanks dropped in verbose patterns, and the text after it. The
count bounds the steps. -/
def untilBrace? (verbose : Bool) : Nat → List Char → Option (List Char × List Char)
  | 0, _ => none
  | steps + 1, cs =>
    match skipBlank verbose cs with
    | [] => none
    | '}' :: rest => some ([], rest)
    | c :: rest => do
      let (body, rest) ← untilBrace? verbose steps rest
      return (c :: body, rest)

/-- Read the rest of an escape that gives the code of a character, after its letter. -/
def parseCode? (verbose : Bool) (digits : Nat) (cs : List Char) :
    Option (Primitive × List Char) := do
  match skipBlank verbose cs with
  | '{' :: rest =>
    let (body, rest) ← untilBrace? verbose (rest.length + 1) rest
    let c ← charOfCode? (← hexNumber? body)
    return (.literal c false, skipBlank verbose rest)
  | cs =>
    let (code, rest) ← parseHexDigits? verbose digits 0 cs
    let c ← charOfCode? code
    return (.literal c (digits == 2), rest)

/-- Split a text at the first place where `mark` stands. -/
def splitAt? (mark : List Char) : List Char → Option (List Char × List Char)
  | [] => none
  | c :: rest =>
    if mark.isPrefixOf (c :: rest) then some ([], (c :: rest).drop mark.length)
    else (splitAt? mark rest).map fun (head, tail) => (c :: head, tail)

/-- The property named between braces. -/
def propertyQuery (body : List Char) : PropertyQuery :=
  match splitAt? ['!', '='] body with
  | some (name, value) => .valued (String.ofList name) (String.ofList value) true
  | none =>
    match splitAt? [':'] body with
    | some (name, value) => .valued (String.ofList name) (String.ofList value) false
    | none =>
      match splitAt? ['='] body with
      | some (name, value) => .valued (String.ofList name) (String.ofList value) false
      | none => .named (String.ofList body)

/-- Read the rest of a property escape, after its letter. -/
def parseProperty? (verbose negated : Bool) (cs : List Char) : Option (Primitive × List Char) := do
  match skipBlank verbose cs with
  | [] => none
  | '{' :: rest =>
    let (body, rest) ← untilBrace? verbose (rest.length + 1) rest
    return (.property (propertyQuery body) negated, rest)
  | '\\' :: _ => none
  | c :: rest => return (.property (.named (String.singleton c)) negated, skipBlank verbose rest)

/-- Letters and hyphens, which name the special word boundaries. -/
def isBoundaryNameChar (c : Char) : Bool := c.isAlpha || c == '-'

/-- The name of a special word boundary, and the text after it. -/
def boundaryName (verbose : Bool) : Nat → List Char → List Char × List Char
  | 0, cs => ([], cs)
  | steps + 1, cs =>
    match cs with
    | [] => ([], [])
    | c :: rest =>
      if isBoundaryNameChar c then
        let (name, rest) := boundaryName verbose steps (skipBlank verbose rest)
        (c :: name, rest)
      else ([], cs)

/-- Read what follows `\b`: the name of a special word boundary in braces, or nothing. Braces that
hold no name belong to a repetition. -/
def parseBoundary? (verbose : Bool) (cs : List Char) : Option (Primitive × List Char) :=
  match cs with
  | '{' :: rest =>
    match skipBlank verbose rest with
    | [] => none
    | c :: inner =>
      if !isBoundaryNameChar c then some (.anchor .wordBoundary, cs)
      else
        match boundaryName verbose (inner.length + 1) (c :: inner) with
        | (name, '}' :: rest) =>
          match String.ofList name with
          | "start" => some (.anchor .wordStart, rest)
          | "end" => some (.anchor .wordEnd, rest)
          | "start-half" => some (.anchor .wordStartHalf, rest)
          | "end-half" => some (.anchor .wordEndHalf, rest)
          | _ => none
        | _ => none
  | _ => some (.anchor .wordBoundary, cs)

/-- Whether a character that a backslash precedes stands for itself: ASCII, and no letter, digit
or angle bracket. -/
def isEscapable (c : Char) : Bool :=
  c.val < 0x80 && !c.isAlphanum && c != '<' && c != '>'

/-- Read an escape, after its backslash. -/
def parseEscape? (verbose : Bool) : List Char → Option (Primitive × List Char)
  | [] => none
  | c :: rest =>
    match c with
    | 'x' => parseCode? verbose 2 rest
    | 'u' => parseCode? verbose 4 rest
    | 'U' => parseCode? verbose 8 rest
    | 'p' => parseProperty? verbose false rest
    | 'P' => parseProperty? verbose true rest
    | 'd' => some (.short .digit false, rest)
    | 's' => some (.short .space false, rest)
    | 'w' => some (.short .word false, rest)
    | 'D' => some (.short .digit true, rest)
    | 'S' => some (.short .space true, rest)
    | 'W' => some (.short .word true, rest)
    | 'a' => some (.literal '\x07' false, rest)
    | 'f' => some (.literal '\x0c' false, rest)
    | 't' => some (.literal '\t' false, rest)
    | 'n' => some (.literal '\n' false, rest)
    | 'r' => some (.literal '\r' false, rest)
    | 'v' => some (.literal '\x0b' false, rest)
    | 'A' => some (.anchor .textStart, rest)
    | 'z' => some (.anchor .textEnd, rest)
    | 'b' => parseBoundary? verbose rest
    | 'B' => some (.anchor .notWordBoundary, rest)
    | '<' => some (.anchor .wordStart, rest)
    | '>' => some (.anchor .wordEnd, rest)
    | c => if isEscapable c then some (.literal c false, rest) else none

/-- Read a piece that is neither a group nor a class nor a repetition. -/
def parsePrimitive? (verbose : Bool) : List Char → Option (Primitive × List Char)
  | [] => none
  | '\\' :: rest => parseEscape? verbose rest
  | '.' :: rest => some (.dot, rest)
  | '^' :: rest => some (.anchor .caret, rest)
  | '$' :: rest => some (.anchor .dollar, rest)
  | c :: rest => some (.literal c false, rest)

end Highlighter.Regex
