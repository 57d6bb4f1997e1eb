import Highlighter.Grammar
import Highlighter.Registry
import Highlighter.Toml.Parser

/-!
# Grammar files

A grammar can be written in a TOML file: the identifiers of the language, its rules in the lists
`shortcut` and `fallback`, and the grammars that it brings along in the list `auxiliary`.

Rules and auxiliary grammars are tables. They can also be arrays, which list the fields in order;
what comes after the last field is not looked at, and a rule then has to give its characters. A
field with another name is a fault.
-/

set_option autoImplicit false

namespace Highlighter

/-- A rule as it is written in a file. -/
structure RuleSpec where
  style : String
  pattern : String
  /-- The characters that lead straight to the rule. -/
  chars : Option String
  ignoreCase : Bool
  deriving DecidableEq, Repr

/-- A grammar that a file brings along. -/
structure AuxiliarySpec where
  ids : List String
  shortcut : List RuleSpec
  fallback : List RuleSpec
  deriving DecidableEq, Repr

/-- A grammar as it is written in a file. -/
structure GrammarFile where
  ids : List String
  shortcut : List RuleSpec
  fallback : List RuleSpec
  auxiliary : List AuxiliarySpec
  deriving DecidableEq, Repr

open Toml (Value Entries)

/-! ## Fields -/

/-- A string. -/
def string? : Value → Option String
  | .string text => some text
  | _ => none

/-- A truth value. -/
def bool? : Value → Option Bool
  | .bool value => some value
  | _ => none

/-- A list of things that are read alike. -/
def list? {α : Type} (read : Value → Option α) : Value → Option (List α)
  | .array _ items => items.mapM read
  | _ => none

/-- The entry for a key, which has to be there. -/
def required? {α : Type} (read : Value → Option α) (value : Option Value) : Option α := do
  read (← value)

/-- The entry for a key, or something else if it is not there. -/
def orDefault? {α : Type} (default : α) (read : Value → Option α) (value : Option Value) :
    Option α :=
  match value with
  | some value => read value
  | none => some default

/-- Whether all keys are among some names. -/
def hasOnly (names : List String) (entries : Entries) : Bool :=
  entries.all fun (key, _) => names.contains key

/-! ## Reading -/

namespace RuleSpec

/-- Read a rule. -/
def ofValue? : Value → Option RuleSpec
  | .table _ entries => do
    if !hasOnly ["style", "pattern", "chars", "case_insensitive"] entries then none
    return {
      style := ← required? string? (entries.lookup "style")
      pattern := ← required? string? (entries.lookup "pattern")
      chars := ← orDefault? none (fun value => (string? value).map some) (entries.lookup "chars")
      ignoreCase := ← orDefault? false bool? (entries.lookup "case_insensitive") }
  | .array _ (style :: pattern :: chars :: rest) => do
    return {
      style := ← string? style
      pattern := ← string? pattern
      chars := some (← string? chars)
      ignoreCase := ← orDefault? false bool? rest.head? }
  | _ => none

/-- The rule that is meant. Its style must be known. -/
def toRule (spec : RuleSpec) : Except GrammarError Rule :=
  match Style.ofName? spec.style with
  | none => .error (.unknownStyle spec.style)
  | some style =>
    let pattern : Pattern :=
      if spec.ignoreCase then .caseInsensitive spec.pattern else .ofSource spec.pattern
    .ok (Rule.withShortcut ⟨style, pattern, []⟩ (spec.chars.getD ""))

end RuleSpec

/-- The grammar of two lists of rules. The first style that is not known is the fault. -/
def grammarOf (shortcut fallback : List RuleSpec) (auxiliary : List (Named Grammar)) :
    Except GrammarError Grammar := do
  return ⟨← shortcut.mapM RuleSpec.toRule, ← fallback.mapM RuleSpec.toRule, auxiliary⟩

namespace AuxiliarySpec

/-- Read a grammar that a file brings along. -/
def ofValue? : Value → Option AuxiliarySpec
  | .table _ entries => do
    if !hasOnly ["ids", "shortcut", "fallback"] entries then none
    return {
      ids := ← required? (list? string?) (entries.lookup "ids")
      shortcut := ← orDefault? [] (list? RuleSpec.ofValue?) (entries.lookup "shortcut")
      fallback := ← orDefault? [] (list? RuleSpec.ofValue?) (entries.lookup "fallback") }
  | .array _ (ids :: rest) => do
    return {
      ids := ← list? string? ids
      shortcut := ← orDefault? [] (list? RuleSpec.ofValue?) rest.head?
      fallback := ← orDefault? [] (list? RuleSpec.ofValue?) (rest.drop 1).head? }
  | _ => none

/-- The grammar that is meant, with its identifiers. -/
def toGrammar (spec : AuxiliarySpec) : Except GrammarError (Named Grammar) := do
  return ⟨spec.ids, ← grammarOf spec.shortcut spec.fallback []⟩

end AuxiliarySpec

namespace GrammarFile

/-- Read the entries of a file. -/
def ofEntries? (entries : Entries) : Option GrammarFile := do
  if !hasOnly ["ids", "shortcut", "fallback", "auxiliary"] entries then none
  return {
    ids := ← required? (list? string?) (entries.lookup "ids")
    shortcut := ← orDefault? [] (list? RuleSpec.ofValue?) (entries.lookup "shortcut")
    fallback := ← orDefault? [] (list? RuleSpec.ofValue?) (entries.lookup "fallback")
    auxiliary := ← orDefault? [] (list? AuxiliarySpec.ofValue?) (entries.lookup "auxiliary") }

/-- Read a file. It has to name a language. -/
def parse (contents : String) : Except GrammarError GrammarFile :=
  match (Toml.parse? contents.toList).bind ofEntries? with
  | none => .error .malformedFile
  | some file => if file.ids.isEmpty then .error .noLanguage else .ok file

/-- The grammar that is meant. Of several styles that are not known, those of the file's own rules
come first. -/
def toGrammar (file : GrammarFile) : Except GrammarError Grammar := do
  let own ← grammarOf file.shortcut file.fallback []
  return { own with auxiliary := ← file.auxiliary.mapM AuxiliarySpec.toGrammar }

end GrammarFile

/-- The text of a file, if there is one. -/
def fileText (contents : Option ByteArray) : Except Failure String :=
  match contents with
  | none => .error .missingFile
  | some bytes =>
    match String.fromUTF8? bytes with
    | some text => .ok text
    | none => .error .notUtf8

/-- Register the grammar of a file. -/
def Registry.registerFile (registry : Registry) (contents : Option ByteArray) :
    Except Failure Unit × Registry :=
  let described : Except Failure (List String × Grammar) := do
    let file ← (GrammarFile.parse (← fileText contents)).mapError Failure.config
    let grammar ← file.toGrammar.mapError Failure.config
    return (file.ids, grammar)
  match described with
  | .error failure => (.error failure, registry)
  | .ok (ids, grammar) =>
    let (result, after) := registry.register ids (.described grammar)
    (result.mapError Failure.config, after)

end Highlighter
