import Highlighter.Regex.ClassParser
import Highlighter.Regex.Regular.Ast

/-!
# Reading patterns of the regular dialect

`parse?` reads a whole pattern, or answers nothing where it is malformed. A pattern is malformed
also where it nests too deep or names two groups alike.
-/

set_option autoImplicit false

namespace Highlighter.Regex.Regular

/-- What the reader knows of the pattern so far. -/
structure Reading where
  /-- How many characters the whole pattern has. -/
  length : Nat
  verbose : Bool
  /-- How many capturing groups have opened. -/
  groups : Nat
  names : List String

/-- How many characters stand before the rest of a pattern. -/
def Reading.placeOf (reading : Reading) (rest : List Char) : Nat :=
  reading.length - rest.length

/-- Read flags up to the end of a flag group. -/
def parseFlags? (on : Bool) (change : FlagChange) : List Char → Option (FlagChange × List Char)
  | [] => none
  | ')' :: rest => some (change, ')' :: rest)
  | ':' :: rest => some (change, ':' :: rest)
  | '-' :: rest =>
    match rest with
    | c :: _ => if on && c != ')' && c != ':' then parseFlags? false change rest else none
    | [] => none
  | c :: rest => do
    let flag ← Flag.ofLetter? c
    if (change.value? flag).isSome then none
    else parseFlags? on (change ++ [(flag, on)]) rest

/-- Whether a character may stand in the name of a group. -/
def isNameChar (first : Bool) (c : Char) : Bool :=
  if first then c == '_' || Unicode.isAlphabetic c.toNat
  else
    c == '_' || c == '.' || c == '[' || c == ']' || Unicode.isAlphanumeric c.toNat

/-- Read the name of a group up to its angle bracket. -/
def parseName? (cs : List Char) : Option (String × List Char) :=
  match cs.dropWhile (· != '>') with
  | '>' :: rest =>
    match cs.takeWhile (· != '>') with
    | [] => none
    | c :: others =>
      if isNameChar true c && others.all (isNameChar false) then
        some (String.ofList (c :: others), rest)
      else none
  | _ => none

/-- How a group opens. -/
inductive Opening where
  | flags (change : FlagChange)
  | group (kind : GroupKind)

/-- Read what follows the opening parenthesis of a group. Look-around is not of this dialect. -/
def parseOpening? (reading : Reading) (cs : List Char) : Option (Opening × Reading × List Char) :=
  let capture (name : Option String) (rest : List Char) :
      Option (Opening × Reading × List Char) :=
    let index := reading.groups + 1
    let names := name.toList ++ reading.names
    some (.group (.capturing index name), { reading with groups := index, names }, rest)
  let named (cs : List Char) : Option (Opening × Reading × List Char) := do
    let (name, rest) ← parseName? cs
    if reading.names.contains name then none else capture (some name) rest
  match skipBlank reading.verbose cs with
  | '?' :: '=' :: _ => none
  | '?' :: '!' :: _ => none
  | '?' :: '<' :: '=' :: _ => none
  | '?' :: '<' :: '!' :: _ => none
  | '?' :: 'P' :: '<' :: rest => named rest
  | '?' :: '<' :: rest => named rest
  | '?' :: rest => do
    match ← parseFlags? true [] rest with
    | ([], ')' :: _) => none
    | (change, ')' :: rest) => some (.flags change, reading, rest)
    | (change, ':' :: rest) => some (.group (.flagged change), reading, rest)
    | _ => none
  | cs => capture none cs

/-- The largest count that a repetition may give. -/
def maxCount : Nat := 4294967295

/-- The digits at the start of a text, which blanks may separate in verbose patterns. -/
def countDigits (verbose : Bool) : Nat → List Char → List Char × List Char
  | 0, cs => ([], cs)
  | steps + 1, cs =>
    match cs with
    | [] => ([], [])
    | c :: rest =>
      if c.isDigit then
        let (digits, rest) := countDigits verbose steps (skipBlank verbose rest)
        (c :: digits, rest)
      else ([], cs)

/-- Read a count of a repetition, if there is one, with the blanks around it. The count is nothing
where there are no digits; it must not be too large. -/
def parseCount? (verbose : Bool) (cs : List Char) : Option (Option Nat × List Char) :=
  let cs := cs.dropWhile isBlank
  let (digits, rest) := countDigits verbose (cs.length + 1) cs
  let rest := skipBlank verbose (rest.dropWhile isBlank)
  match digits with
  | [] => some (none, rest)
  | digits =>
    let count := digits.foldl (fun value c => 10 * value + (c.toNat - '0'.toNat)) 0
    if count ≤ maxCount then some (some count, rest) else none

/-- Read the bounds of a repetition, after the opening brace. The upper bound is nothing where
there is none. -/
def parseBounds? (verbose : Bool) (cs : List Char) : Option (Nat × Option Nat × List Char) := do
  let (first, cs) ← parseCount? verbose (skipBlank verbose cs)
  let min ← first
  match cs with
  | '}' :: rest => return (min, some min, rest)
  | ',' :: rest =>
    match skipBlank verbose rest with
    | '}' :: rest => return (min, none, rest)
    | cs =>
      let (second, cs) ← parseCount? verbose cs
      let max ← second
      match cs with
      | '}' :: rest => if min ≤ max then return (min, some max, rest) else none
      | _ => none
  | _ => none

/-- The items with the latest one repeated. Nothing and flags cannot be repeated. -/
def repeatLatest? (min : Nat) (max : Option Nat) (greedy : Bool) :
    List Ast → Option (List Ast)
  | [] => none
  | .empty :: _ => none
  | .flags _ _ :: _ => none
  | item :: items => some (.repetition min max greedy item :: items)

/-- A question mark that makes a repetition lazy, and the text after it. -/
def lazyMark : List Char → Bool × List Char
  | '?' :: rest => (false, rest)
  | cs => (true, cs)

mutual

/-- Read the branches of an alternation, up to a closing parenthesis or the end. The branches so
far are given latest first. -/
def parseBranches? (steps : Nat) (reading : Reading) (branches : List Ast) (cs : List Char) :
    Option (Ast × Reading × List Char) :=
  match steps with
  | 0 => none
  | steps + 1 => do
    let (items, reading, cs) ← parseItems? steps reading [] cs
    let branch := Ast.ofItems items
    match cs with
    | '|' :: rest => parseBranches? steps reading (branch :: branches) rest
    | cs => return (Ast.ofBranches (branch :: branches).reverse, reading, cs)
termination_by structural steps

/-- Read the items of a branch. The items so far are given latest first. Every step reads a
character, so the length of the text bounds the steps. -/
def parseItems? (steps : Nat) (reading : Reading) (items : List Ast) (cs : List Char) :
    Option (List Ast × Reading × List Char) :=
  match steps with
  | 0 => none
  | steps + 1 =>
    match skipBlank reading.verbose cs with
    | [] => some (items.reverse, reading, [])
    | '|' :: rest => some (items.reverse, reading, '|' :: rest)
    | ')' :: rest => some (items.reverse, reading, ')' :: rest)
    | '(' :: rest => do
      let start := reading.placeOf ('(' :: rest)
      match ← parseOpening? reading rest with
      | (.flags change, reading, rest) =>
        let place := ⟨start, reading.placeOf rest⟩
        let verbose := (change.value? .verbose).getD reading.verbose
        parseItems? steps { reading with verbose } (.flags change place :: items) rest
      | (.group kind, inside, rest) =>
        let verbose := match kind with
          | .flagged change => (change.value? .verbose).getD reading.verbose
          | .capturing _ _ => reading.verbose
        let (body, inside, rest) ← parseBranches? steps { inside with verbose } [] rest
        match rest with
        | ')' :: rest =>
          parseItems? steps { inside with verbose := reading.verbose }
            (.group kind start body :: items) rest
        | _ => none
    | '[' :: rest => do
      let start := reading.placeOf ('[' :: rest)
      let (set, rest) ← parseClass? reading.verbose rest
      parseItems? steps reading (.bracket set ⟨start, reading.placeOf rest⟩ :: items) rest
    | '?' :: rest => do
      let (greedy, rest) := lazyMark rest
      parseItems? steps reading (← repeatLatest? 0 (some 1) greedy items) rest
    | '*' :: rest => do
      let (greedy, rest) := lazyMark rest
      parseItems? steps reading (← repeatLatest? 0 none greedy items) rest
    | '+' :: rest => do
      let (greedy, rest) := lazyMark rest
      parseItems? steps reading (← repeatLatest? 1 none greedy items) rest
    | '{' :: rest => do
      let (min, max, rest) ← parseBounds? reading.verbose rest
      let (greedy, rest) := lazyMark (skipBlank reading.verbose rest)
      parseItems? steps reading (← repeatLatest? min max greedy items) rest
    | cs => do
      let (piece, rest) ← parsePrimitive? reading.verbose cs
      parseItems? steps reading (.primitive piece :: items) rest
termination_by structural steps

end

/-- The deepest that a pattern may nest. -/
def maxDepth : Nat := 250

/-- Read a pattern, and count its groups. -/
def parse? (pattern : List Char) : Option (Ast × Nat) := do
  let reading : Reading := ⟨pattern.length, false, 0, []⟩
  let (ast, reading, rest) ← parseBranches? (2 * pattern.length + 2) reading [] pattern
  match rest with
  | [] => if ast.depth ≤ maxDepth then some (ast, reading.groups) else none
  | _ => none

end Highlighter.Regex.Regular
