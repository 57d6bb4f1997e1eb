import Highlighter.Regex.Matcher
import Highlighter.Union.Member

/-!
# Unions of patterns

A union joins patterns into one, which finds the next token of a source. Earlier patterns are
preferred. The last branch is any single character, so there is always a token, and it is never
empty.

Letter case: where no member depends on it, the union ignores it as a whole. Where members differ,
those that ignore it have it spelt out.
-/

set_option autoImplicit false

namespace Highlighter

/-- A union of patterns. -/
structure Union where
  matcher : Regex.Matcher
  /-- Whether letter case does not count in the whole union. -/
  ignoreCase : Bool
  /-- Whether letter case is spelt out in members that ignore it. -/
  folded : Bool
  /-- How many groups the union captures. -/
  groups : Nat

namespace Union

/-- How a union treats letter case. -/
inductive CaseRule where
  | counts
  | ignored
  /-- Spelt out in the members that ignore it. -/
  | mixed
  deriving DecidableEq, Repr

/-- How the union of some patterns treats letter case. -/
def caseRule (patterns : List Pattern) : CaseRule :=
  if !patterns.any Pattern.ignoreCase then .counts
  else if patterns.any fun pattern =>
      !pattern.ignoreCase && pattern.parts.any Pattern.Part.isCased then .mixed
  else .ignored

/-- What every union ends with: any single character. -/
def catchAll : List Char := "(?s:.)".toList

/-- The texts of the branches of a union. -/
def branches (rule : CaseRule) (patterns : List Pattern) : List (List Char) :=
  let parts := (members 0 (patterns.map Pattern.parts)).1
  let texts := List.zipWith
    (fun pattern parts => memberText (rule == .mixed && pattern.ignoreCase) parts)
    patterns parts
  texts.map (fun text => "(?:".toList ++ text ++ [')']) ++ [catchAll]

/-- The text of the union of some patterns. -/
def text (patterns : List Pattern) : List Char :=
  let rule := caseRule patterns
  let body := List.intercalate ['|'] (branches rule patterns)
  if rule == .ignored then "(?i)".toList ++ body else body

/-- Join patterns, in order of preference. Anchors that also hold at line ends would not mean the
same in a union. -/
def ofPatterns (patterns : List Pattern) : Except GrammarError Union := do
  match patterns.find? Pattern.isMultiline with
  | some pattern => throw (.multilinePattern pattern.source)
  | none =>
    let rule := caseRule patterns
    let matcher ← Regex.Matcher.ofPattern (String.ofList (text patterns))
    let groups := (members 0 (patterns.map Pattern.parts)).2
    return ⟨matcher, rule == .ignored, rule == .mixed, groups⟩

/-- How many characters the token at a position has after its first one. A match that is empty or
starts elsewhere gives a token of one character. -/
def tokenExtent (union : Union) (text : Array Char) (pos : Nat) : Except Failure Nat := do
  match ← union.matcher.search text pos with
  | some found =>
    if found.whole.start == pos && pos < found.whole.stop then
      return found.whole.stop - pos - 1
    else return 0
  | none => return 0

/-- The token at a byte offset. At the end of the text, nothing is left for it. -/
def tokenAt (union : Union) (text : List Char) (offset : Nat) : Except Failure Span := do
  let pos := Text.indexOf offset text
  let extent ← union.tokenExtent text.toArray pos
  return Span.inBytes text ⟨pos, pos + 1 + extent, by omega⟩

/-- Cut the rest of a text into tokens. The rest starts at a position of the text. -/
def tokensFrom (union : Union) (text : Array Char) (pos : Nat) :
    List Char → Except Failure (List (List Char))
  | [] => .ok []
  | c :: rest =>
    match union.tokenExtent text pos with
    | .error failure => .error failure
    | .ok extent =>
      match union.tokensFrom text (pos + 1 + extent) (rest.drop extent) with
      | .error failure => .error failure
      | .ok tokens => .ok ((c :: rest.take extent) :: tokens)
termination_by rest => rest.length
decreasing_by
  simp only [List.length_drop, List.length_cons]
  omega

/-- Cut a text into tokens. -/
def tokens (union : Union) (text : List Char) : Except Failure (List (List Char)) :=
  union.tokensFrom text.toArray 0 text

/-- The byte offsets at which tokens end, where the first one starts at `start`. -/
def tokenEnds (start : Nat) : List (List Char) → List Nat
  | [] => []
  | token :: rest =>
    let stop := start + Text.byteSize token
    stop :: tokenEnds stop rest

end Union

end Highlighter
