import Highlighter.Regex.ClassParser
import Highlighter.Regex.Extended.Tree
import Highlighter.Text

/-!
# Reading patterns of the extended dialect

`parse?` reads a whole pattern, or answers nothing where it is malformed. A group can be referred
to by its number or by its name, and only after it has opened. Numbers and names do not mix: a
pattern with named groups has no numbered references.

A brace that starts no repetition stands for itself. Classes are those of the regular dialect, with
the escapes of this one.
-/

set_option autoImplicit false

namespace Highlighter.Regex.Extended

/-- The flags in force at a place of a pattern. -/
structure Flags where
  ignoreCase : Bool
  multiline : Bool
  dotAll : Bool
  swapGreed : Bool
  verbose : Bool
  deriving DecidableEq, Repr

/-- What the reader knows of the pattern so far. -/
structure Reading where
  /-- How many bytes the whole pattern has. -/
  size : Nat
  flags : Flags
  /-- How many groups have opened. -/
  groups : Nat
  names : List (String × Nat)
  /-- Whether a group has been referred to by its number. -/
  numbered : Bool
  /-- The groups that have been referred to. -/
  targets : List Nat

/-- What the reader of filler is in: nothing, a comment in parentheses, or a comment that reaches to
the end of its line. -/
inductive Filler where
  | none | group | line

/-- What is left of a pattern after comments and, in verbose patterns, blanks. In parentheses, a
backslash takes the character after it along. -/
def skipFiller? (verbose : Bool) : Filler → List Char → Option (List Char)
  | .none, '(' :: '?' :: '#' :: rest => skipFiller? verbose .group rest
  | .none, c :: rest =>
    if verbose && c == '#' then skipFiller? verbose .line rest
    else if verbose && (c == ' ' || c == '\t' || c == '\n' || c == '\r') then
      skipFiller? verbose .none rest
    else some (c :: rest)
  | .group, ')' :: rest => skipFiller? verbose .none rest
  | .group, '\\' :: _ :: rest => skipFiller? verbose .group rest
  | .group, _ :: rest => skipFiller? verbose .group rest
  | .group, [] => Option.none
  | .line, '\n' :: rest => skipFiller? verbose .none rest
  | .line, _ :: rest => skipFiller? verbose .line rest
  | .none, [] => some []
  | .line, [] => some []

/-- What is left of a pattern after what means nothing in it. -/
def Reading.skip? (reading : Reading) (cs : List Char) : Option (List Char) :=
  skipFiller? reading.flags.verbose .none cs

/-- The first number that is too large to be written. -/
def numberLimit : Nat := 18446744073709551616

/-- Read a decimal number. -/
def parseNumber? (cs : List Char) : Option (Nat × List Char) :=
  match cs.takeWhile Char.isDigit with
  | [] => none
  | digits =>
    let value := digits.foldl (fun value c => 10 * value + (c.toNat - '0'.toNat)) 0
    if value < numberLimit then some (value, cs.dropWhile Char.isDigit) else none

/-! ## References to groups -/

/-- Whether a character may stand in the name of a group. -/
def isNameChar (c : Char) : Bool := c == '_' || Unicode.isAlphanumeric c.toNat

/-- Read the name of a group up to its closing mark. -/
def parseName? (close : Char) (cs : List Char) : Option (List Char × List Char) :=
  match cs.takeWhile isNameChar, cs.dropWhile isNameChar with
  | [], _ => none
  | name, c :: rest => if c == close then some (name, rest) else none
  | _, [] => none

/-- The group with a name or a number, if it has opened. -/
def Reading.group? (reading : Reading) (name : List Char) : Option Nat := do
  let group ← match reading.names.lookup (String.ofList name) with
    | some group => some group
    | none =>
      match parseNumber? name with
      | some (group, []) => some group
      | _ => none
  if group ≤ reading.groups then some group else none

/-- Read a reference up to its closing mark: a name, a number, or how many groups back. -/
def Reading.parseReference? (reading : Reading) (close : Char) (cs : List Char) :
    Option (Nat × List Char) :=
  match cs with
  | '-' :: rest => do
    let (back, rest) ← parseNumber? rest
    match rest with
    | c :: rest =>
      if c == close && 0 < back && back ≤ reading.groups + 1 then
        some (reading.groups + 1 - back, rest)
      else none
    | [] => none
  | cs => do
    let (name, rest) ← parseName? close cs
    return (← reading.group? name, rest)

/-- Read a reference by number. -/
def Reading.parseNumbered? (reading : Reading) (cs : List Char) :
    Option (Nat × Reading × List Char) := do
  let (group, rest) ← parseNumber? cs
  if group < reading.size / 2 && group ≤ reading.groups then
    some (group, { reading with numbered := true, targets := group :: reading.targets }, rest)
  else none

/-- Note that a group is referred to. -/
def Reading.refer (reading : Reading) (group : Nat) : Reading :=
  { reading with targets := group :: reading.targets }

/-! ## Escapes and classes -/

/-- What an escape stands for. -/
inductive Escape where
  | char (c : Char) (ignoreCase : Bool)
  /-- A class, as the regular dialect writes it. -/
  | set (written : List Char)
  | anchor (sign : Sign)
  | keepOut
  | searchStart
  | backref (group : Nat)

/-- Read the code of a character: a fixed number of digits, or up to eight in braces. -/
def parseCode? (digits : Nat) (cs : List Char) : Option (Char × List Char) := do
  let fixed := cs.take digits
  if fixed.length == digits && fixed.all fun c => (hexValue? c).isSome then
    return (← charOfCode? (← hexNumber? fixed), cs.drop digits)
  else
    match cs with
    | '{' :: rest =>
      let body := rest.takeWhile fun c => (hexValue? c).isSome
      match rest.drop body.length with
      | '}' :: rest =>
        if body.length ≤ 8 then return (← charOfCode? (← hexNumber? body), rest) else none
      | _ => none
    | _ => none

/-- Read a property escape up to its end, after its letter. -/
def parsePropertyText? (cs : List Char) : Option (List Char × List Char) :=
  match cs with
  | [] => none
  | '{' :: rest =>
    match rest.dropWhile (· != '}') with
    | '}' :: after => some ('{' :: rest.takeWhile (· != '}') ++ ['}'], after)
    | _ => none
  | c :: rest => some ([c], rest)

/-- The letters that are escapes outside classes, and stand for themselves inside. -/
def standsInClass (c : Char) : Bool := "kAzBKG".toList.contains c

/-- What an escape stands for that is a letter and has no more parts. -/
def plainEscape? (inClass : Bool) (c : Char) : Option Escape :=
  match c with
  | 'a' => some (.char '\x07' false)
  | 'f' => some (.char '\x0c' false)
  | 'n' => some (.char '\n' false)
  | 'r' => some (.char '\r' false)
  | 't' => some (.char '\t' false)
  | 'v' => some (.char '\x0b' false)
  | 'e' => some (.char '\x1b' false)
  | 'h' => some (.set "[0-9A-Fa-f]".toList)
  | 'H' => some (.set "[^0-9A-Fa-f]".toList)
  | c =>
    if "dDsSwW".toList.contains c then some (.set ['\\', c])
    else if inClass && c == 'b' then some (.char '\x08' false)
    else if c.isAlpha && !(inClass && standsInClass c) then none
    else some (.char c false)

/-- Read an escape outside classes that does not stand for a character or a set. Special word
boundaries in braces are not of this dialect. -/
def parseAssertion? (reading : Reading) (cs : List Char) :
    Option (Escape × Reading × List Char) := do
  match cs with
  | 'A' :: rest => some (.anchor .textStart, reading, rest)
  | 'z' :: rest => some (.anchor .textEnd, reading, rest)
  | 'b' :: '{' :: _ => none
  | 'B' :: '{' :: _ => none
  | 'b' :: rest => some (.anchor .wordBoundary, reading, rest)
  | 'B' :: rest => some (.anchor .notWordBoundary, reading, rest)
  | '<' :: rest => some (.anchor .wordStart, reading, rest)
  | '>' :: rest => some (.anchor .wordEnd, reading, rest)
  | 'K' :: rest => some (.keepOut, reading, rest)
  | 'G' :: rest => some (.searchStart, reading, rest)
  | 'k' :: '<' :: rest =>
    let (group, rest) ← reading.parseReference? '>' rest
    some (.backref group, reading.refer group, rest)
  | 'k' :: '\'' :: rest =>
    let (group, rest) ← reading.parseReference? '\'' rest
    some (.backref group, reading.refer group, rest)
  | c :: rest =>
    if c.isDigit then
      let (group, reading, rest) ← reading.parseNumbered? (c :: rest)
      some (.backref group, reading, rest)
    else none
  | [] => none

/-- Whether an escape of this character is read by `parseAssertion?`. -/
def startsAssertion (c : Char) : Bool := c.isDigit || "kAzbBKG<>".toList.contains c

/-- Read an escape, after its backslash. -/
def parseEscape? (reading : Reading) (inClass : Bool) (cs : List Char) :
    Option (Escape × Reading × List Char) := do
  match cs with
  | [] => none
  | c :: rest =>
    if !inClass && startsAssertion c then parseAssertion? reading cs
    else if c.isDigit then none
    else match c with
      | 'x' => code 2 rest
      | 'u' => code 4 rest
      | 'U' => code 8 rest
      | 'p' => property 'p' rest
      | 'P' => property 'P' rest
      | c => return (← plainEscape? inClass c, reading, rest)
where
  code (digits : Nat) (rest : List Char) : Option (Escape × Reading × List Char) := do
    let (c, rest) ← parseCode? digits rest
    return (.char c reading.flags.ignoreCase, reading, rest)
  property (letter : Char) (rest : List Char) : Option (Escape × Reading × List Char) := do
    let (text, rest) ← parsePropertyText? rest
    return (.set ('\\' :: letter :: text), reading, rest)

/-- A character as it is written where it stands for itself in a class. -/
def quoted (c : Char) : List Char :=
  if "\\.+*?()|[]\x7b\x7d^$#&-~".toList.contains c then ['\\', c] else [c]

/-- A class up to its closing bracket, with the escapes of this dialect resolved, and the text
after it. Brackets nest; `depth` of them are open. The count bounds the steps. -/
def classText? (reading : Reading) (depth : Nat) :
    Nat → List Char → Option (List Char × List Char)
  | 0, _ => none
  | steps + 1, cs =>
    match cs with
    | [] => none
    | '\\' :: rest => do
      let (escape, _, rest) ← parseEscape? reading true rest
      let (text, rest) ← classText? reading depth steps rest
      match escape with
      | .char c _ => return (quoted c ++ text, rest)
      | .set written => return (written ++ text, rest)
      | _ => none
    | ']' :: rest =>
      if depth ≤ 1 then some ([']'], rest)
      else do
        let (text, rest) ← classText? reading (depth - 1) steps rest
        return (']' :: text, rest)
    | '[' :: rest => do
      let (text, rest) ← classText? reading (depth + 1) steps rest
      return ('[' :: text, rest)
    | c :: rest => do
      let (text, rest) ← classText? reading depth steps rest
      return (c :: text, rest)

/-- The set that the regular dialect writes so. -/
def writtenSet? (written : List Char) : Option ClassSet := do
  match written with
  | '[' :: rest =>
    match ← parseClass? false rest with
    | (set, []) => if set.depth ≤ 250 then some set else none
    | _ => none
  | cs =>
    match ← parseMember? false cs with
    | (piece, []) => piece.toClass?
    | _ => none

/-- Read a class, after its bracket. A closing bracket that comes first is a member. -/
def parseBracket? (reading : Reading) (cs : List Char) : Option (Tree × List Char) := do
  let (opening, cs) := match cs with
    | '^' :: ']' :: rest => (['[', '^', ']'], rest)
    | '^' :: rest => (['[', '^'], rest)
    | ']' :: rest => (['[', ']'], rest)
    | cs => (['['], cs)
  let (text, rest) ← classText? reading 1 (cs.length + 1) cs
  return (.set (← writtenSet? (opening ++ text)) reading.flags.ignoreCase, rest)

/-- The pattern that an escape stands for. -/
def Escape.toTree? (reading : Reading) : Escape → Option Tree
  | char c ignoreCase => some (.literal c ignoreCase)
  | set written => (writtenSet? written).map (.set · reading.flags.ignoreCase)
  | anchor sign => some (.anchor sign)
  | keepOut => some .keepOut
  | searchStart => some .searchStart
  | backref group => some (.backref group)

/-! ## Repetitions -/

/-- Read the bounds of a repetition, after the opening brace. A missing lower bound is zero. -/
def parseBounds? (reading : Reading) (cs : List Char) : Option (Nat × Option Nat × List Char) := do
  let cs ← reading.skip? cs
  let (min, cs) ← match cs with
    | ',' :: _ => some (0, cs)
    | _ => parseNumber? cs
  match ← reading.skip? cs with
  | '}' :: rest => return (min, some min, rest)
  | ',' :: rest =>
    let cs ← reading.skip? rest
    let (max, cs) := match parseNumber? cs with
      | some (max, rest) => (some max, rest)
      | none => (none, cs)
    match ← reading.skip? cs with
    | '}' :: rest => return (min, max, rest)
    | _ => none
  | _ => none

/-- Read how often a piece is repeated, if it is. -/
def parseRepetition? (reading : Reading) (cs : List Char) :
    Option (Nat × Option Nat × List Char) :=
  match cs with
  | '?' :: rest => some (0, some 1, rest)
  | '*' :: rest => some (0, none, rest)
  | '+' :: rest => some (1, none, rest)
  | '{' :: rest => parseBounds? reading rest
  | _ => none

/-- Read what may follow a piece: a repetition, which a question mark makes lazy and a plus sign
after that keeps from being retried. -/
def parseSuffix? (reading : Reading) (tree : Tree) (cs : List Char) :
    Option (Tree × List Char) := do
  let cs ← reading.skip? cs
  match parseRepetition? reading cs with
  | none => return (tree, cs)
  | some (min, max, rest) =>
    if !tree.isRepeatable then none
    else
      let (greedy, rest) := match ← reading.skip? rest with
        | '?' :: rest => (false, rest)
        | rest => (true, rest)
      let tree := .repetition min max (greedy != reading.flags.swapGreed) tree
      match rest with
      | '+' :: rest => return (.atomic tree, rest)
      | rest => return (tree, rest)

/-! ## Groups -/

/-- What follows an opening parenthesis. -/
inductive Opening where
  | look (behind negated : Bool)
  | capture (index : Nat)
  | atomic
  | backref (group : Nat)
  | cond
  /-- Flags for what follows, up to the end of the pattern. -/
  | flags
  /-- Flags for the group only. -/
  | flagged

/-- Turn a flag on or off. Unicode cannot be turned off. -/
def Flags.set? (flags : Flags) (on : Bool) : Char → Option Flags
  | 'i' => some { flags with ignoreCase := on }
  | 'm' => some { flags with multiline := on }
  | 's' => some { flags with dotAll := on }
  | 'U' => some { flags with swapGreed := on }
  | 'x' => some { flags with verbose := on }
  | 'u' => if on then some flags else none
  | _ => none

/-- Read the flags of a group up to its colon or its end. `previous` is the character before, and
nothing right after the question mark. The count bounds the steps. -/
def parseFlags? (on : Bool) (previous : Option Char) (reading : Reading) :
    Nat → List Char → Option (Opening × Reading × List Char)
  | 0, _ => none
  | steps + 1, cs => do
    let skipped ← reading.skip? cs
    let previous := if skipped.length == cs.length then previous else some ' '
    match skipped with
    | [] => none
    | ')' :: rest =>
      if previous.isNone || previous == some '-' then none else some (.flags, reading, rest)
    | ':' :: rest => if previous == some '-' then none else some (.flagged, reading, rest)
    | '-' :: rest => if on then parseFlags? false (some '-') reading steps rest else none
    | c :: rest =>
      let flags ← reading.flags.set? on c
      parseFlags? on (some c) { reading with flags } steps rest

/-- Open a group with a name. -/
def Reading.capture (reading : Reading) (name : Option String) : Opening × Reading :=
  let index := reading.groups + 1
  let names := match name with
    | some name => (name, index) :: reading.names
    | none => reading.names
  (.capture index, { reading with groups := index, names })

/-- Read what follows the opening parenthesis of a group. -/
def parseOpening? (reading : Reading) (cs : List Char) :
    Option (Opening × Reading × List Char) := do
  let named (cs : List Char) : Option (Opening × Reading × List Char) := do
    let (name, rest) ← parseName? '>' cs
    let (opening, reading) := reading.capture (some (String.ofList name))
    return (opening, reading, rest)
  match ← reading.skip? cs with
  | '?' :: '=' :: rest => some (.look false false, reading, rest)
  | '?' :: '!' :: rest => some (.look false true, reading, rest)
  | '?' :: '<' :: '=' :: rest => some (.look true false, reading, rest)
  | '?' :: '<' :: '!' :: rest => some (.look true true, reading, rest)
  | '?' :: '<' :: rest => named rest
  | '?' :: 'P' :: '<' :: rest => named rest
  | '?' :: 'P' :: '=' :: rest =>
    let (name, rest) ← parseName? ')' rest
    some (.backref (← reading.group? name), reading, rest)
  | '?' :: '>' :: rest => some (.atomic, reading, rest)
  | '?' :: '(' :: rest => some (.cond, reading, rest)
  | '?' :: rest => parseFlags? true none reading (rest.length + 1) rest
  | cs =>
    let (opening, reading) := reading.capture none
    some (opening, reading, cs)

/-- Read the closing parenthesis of a group. -/
def Reading.close? (reading : Reading) (cs : List Char) : Option (List Char) := do
  match ← reading.skip? cs with
  | ')' :: rest => some rest
  | _ => none

/-- A condition tests whether a group is set, where it refers to one. -/
def asCondition : Tree → Tree
  | .backref group => .groupSet group
  | tree => tree

/-- The condition with the branches that its body gives: the first one where it holds, the others
where it does not. -/
def condTree (condition body : Tree) : Tree :=
  let (yes, no) := match body with
    | .alternation [yes, no] => (yes, no)
    | .alternation (yes :: others) => (yes, .alternation others)
    | body => (body, .empty)
  if yes.isEmpty && no.isEmpty then asCondition condition
  else .cond (asCondition condition) yes no

/-- How many groups may be open at once. -/
def maxDepth : Nat := 63

/-- An anchor that depends on whether lines count. -/
def Flags.anchor (flags : Flags) (line text : Sign) : Tree :=
  .anchor (if flags.multiline then line else text)

mutual

/-- Read the branches of an alternation, up to a closing parenthesis or the end. The branches so
far are given latest first. -/
def parseBranches? (steps depth : Nat) (reading : Reading) (branches : List Tree)
    (cs : List Char) : Option (Tree × Reading × List Char) :=
  match steps with
  | 0 => none
  | steps + 1 => do
    let (items, reading, cs) ← parseItems? steps depth reading [] cs
    let branch := Tree.ofItems items
    match branches, cs with
    | branches, '|' :: rest => parseBranches? steps depth reading (branch :: branches) rest
    | [], cs =>
      if reading.numbered && !reading.names.isEmpty then none else return (branch, reading, cs)
    | branches, cs => return (.alternation (branch :: branches).reverse, reading, cs)
termination_by structural steps

/-- Read the pieces of a branch. The pieces so far are given latest first. Every step reads a
character, so the length of the text bounds the steps. -/
def parseItems? (steps depth : Nat) (reading : Reading) (items : List Tree) (cs : List Char) :
    Option (List Tree × Reading × List Char) :=
  match steps with
  | 0 => none
  | steps + 1 => do
    match ← reading.skip? cs with
    | [] => return (items.reverse, reading, [])
    | '|' :: rest => return (items.reverse, reading, '|' :: rest)
    | ')' :: rest => return (items.reverse, reading, ')' :: rest)
    | '+' :: _ => none
    | '*' :: _ => none
    | '?' :: _ => none
    | '(' :: rest =>
      let (tree, reading, rest) ← parseGroup? steps (depth + 1) reading rest
      let (tree, rest) ← parseSuffix? reading tree rest
      parseItems? steps depth reading (if tree.isEmpty then items else tree :: items) rest
    | '[' :: rest =>
      let (tree, rest) ← parseBracket? reading rest
      let (tree, rest) ← parseSuffix? reading tree rest
      parseItems? steps depth reading (tree :: items) rest
    | '\\' :: rest =>
      let (escape, reading, rest) ← parseEscape? reading false rest
      let (tree, rest) ← parseSuffix? reading (← escape.toTree? reading) rest
      parseItems? steps depth reading (tree :: items) rest
    | c :: rest =>
      let tree : Tree := match c with
        | '.' => .any reading.flags.dotAll
        | '^' => reading.flags.anchor .lineStart .textStart
        | '$' => reading.flags.anchor .lineEnd .textEnd
        | c => .literal c reading.flags.ignoreCase
      let (tree, rest) ← parseSuffix? reading tree rest
      parseItems? steps depth reading (tree :: items) rest
termination_by structural steps

/-- Read a group, after its opening parenthesis. -/
def parseGroup? (steps depth : Nat) (reading : Reading) (cs : List Char) :
    Option (Tree × Reading × List Char) :=
  match steps with
  | 0 => none
  | steps + 1 => do
    if maxDepth < depth then none
    let (opening, inside, rest) ← parseOpening? reading cs
    match opening with
    | .backref group => return (.backref group, inside, rest)
    | .flags => return (.empty, inside, rest)
    | .cond =>
      let (condition, inside, rest) ← parseCondition? steps depth inside rest
      let start ← inside.close? rest
      let (body, inside, rest) ← parseBranches? steps depth inside [] start
      if rest.length == start.length then
        match condition with
        | .backref group => return (.groupSet group, inside, ← inside.close? rest)
        | _ => none
      else return (condTree condition body, inside, ← inside.close? rest)
    | opening =>
      let (body, inside, rest) ← parseBranches? steps depth inside [] rest
      let rest ← inside.close? rest
      match opening with
      | .look behind negated => return (.look behind negated body, inside, rest)
      | .capture index => return (.group index body, inside, rest)
      | .atomic => return (.atomic body, inside, rest)
      | _ => return (body, { inside with flags := reading.flags }, rest)
termination_by structural steps

/-- Read a condition: a group that is to be set, or a pattern that is to match. -/
def parseCondition? (steps depth : Nat) (reading : Reading) (cs : List Char) :
    Option (Tree × Reading × List Char) :=
  match steps with
  | 0 => none
  | steps + 1 => do
    match cs with
    | '\'' :: rest =>
      let (group, rest) ← reading.parseReference? '\'' rest
      return (.backref group, reading.refer group, rest)
    | '<' :: rest =>
      let (group, rest) ← reading.parseReference? '>' rest
      return (.backref group, reading.refer group, rest)
    | c :: rest =>
      if c.isDigit then
        let (group, reading, rest) ← reading.parseNumbered? (c :: rest)
        return (.backref group, reading, rest)
      else parseBranches? steps depth reading [] (c :: rest)
    | [] => none
termination_by structural steps

end

/-- A pattern that was read, with the number of its groups and the groups that it refers to. -/
structure Parsed where
  tree : Tree
  groups : Nat
  targets : List Nat

/-- Read a pattern. -/
def parse? (pattern : List Char) : Option Parsed := do
  let reading : Reading :=
    ⟨Text.byteSize pattern, ⟨false, false, false, false, false⟩, 0, [], false, []⟩
  let (tree, reading, rest) ← parseBranches? (4 * pattern.length + 4) 0 reading [] pattern
  match rest with
  | [] => some ⟨tree, reading.groups, reading.targets⟩
  | _ => none

end Highlighter.Regex.Extended
