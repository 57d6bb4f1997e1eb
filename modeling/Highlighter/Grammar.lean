import Highlighter.Pattern.Basic
import Highlighter.Style

/-!
# Grammars

A grammar lists rules. A rule gives a style to the tokens that its pattern matches. Rules with
shortcut characters are preferred for tokens that start with one of them. A grammar may bring other
grammars along, for what is embedded in its tokens.
-/

set_option autoImplicit false

namespace Highlighter

/-- A pattern and the style of what it matches. -/
structure Rule where
  style : Style
  pattern : Pattern
  /-- The characters that lead straight to the rule, each once. -/
  shortcut : List Char := []
  deriving DecidableEq, Repr

/-- The characters of a text in order of their first occurrence, each once, after those in `seen`,
which are left out. -/
def distinctAfter (seen : List Char) : List Char → List Char
  | [] => []
  | c :: rest =>
    if seen.contains c then distinctAfter seen rest else c :: distinctAfter (c :: seen) rest

/-- The rule with more shortcut characters. -/
def Rule.withShortcut (rule : Rule) (chars : String) : Rule :=
  { rule with shortcut := rule.shortcut ++ distinctAfter rule.shortcut chars.toList }

/-- What is registered together: something and the names that it answers to. -/
structure Named (α : Type) where
  ids : List String
  grammar : α

/-- The rules of a language. -/
structure Grammar where
  /-- The rules that only tokens with a shortcut character come to. -/
  shortcuts : List Rule
  /-- The rules that are tried one after the other. -/
  fallbacks : List Rule
  /-- The grammars that are registered when this one is compiled. -/
  auxiliary : List (Named Grammar) := []

namespace Grammar

/-- All rules, in the order in which they are declared. -/
def rules (grammar : Grammar) : List Rule := grammar.shortcuts ++ grammar.fallbacks

end Grammar

end Highlighter
