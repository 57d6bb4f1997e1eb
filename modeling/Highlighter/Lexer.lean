import Highlighter.Grammar
import Highlighter.Union.Basic

/-!
# Lexers

A lexer is a grammar that has been compiled. It cuts a source into tokens (`tokenize`) and says what
a token is (`classify`).

A character leads to the last rule that names it; two rules of different styles may not name the
same one. A token is tried on the rule that its first character leads to, and then on the fallback
rules in order. The first one that matches decides.
-/

set_option autoImplicit false

namespace Highlighter

/-- A rule that has been compiled. -/
structure CompiledRule where
  style : Style
  matcher : Regex.Matcher

/-- A character that leads to a rule, by the number of the rule and its style. -/
structure Shortcut where
  char : Char
  rule : Nat
  style : Style
  deriving DecidableEq, Repr

/-- A grammar that has been compiled. -/
structure Lexer where
  /-- The shortcut rules, then the fallback rules. -/
  rules : List CompiledRule
  /-- The number of the first fallback rule. -/
  fallbackStart : Nat
  /-- Which rule each character leads to. The first entry for a character counts. -/
  shortcuts : List Shortcut
  tokenizer : Union

/-- What a token is, and the groups that its rule matched, if a rule did. -/
structure Classification where
  style : Style
  captures : Option Regex.Captures
  deriving DecidableEq, Repr

namespace Shortcut

/-- The shortcuts of rules that are numbered from `first` on. -/
def ofRulesFrom (first : Nat) : List Rule → List Shortcut
  | [] => []
  | rule :: rest =>
    rule.shortcut.map (fun c => ⟨c, first, rule.style⟩) ++ ofRulesFrom (first + 1) rest

/-- The shortcut for a character that counts. -/
def on? (c : Char) (shortcuts : List Shortcut) : Option Shortcut :=
  shortcuts.find? (·.char == c)

/-- Enter shortcuts one by one, the latest one first. Those for one character must agree on the
style. -/
def enter (entered : List Shortcut) : List Shortcut → Except GrammarError (List Shortcut)
  | [] => .ok entered
  | shortcut :: rest =>
    match on? shortcut.char entered with
    | some earlier =>
      if earlier.style = shortcut.style then enter (shortcut :: entered) rest
      else .error
        (.conflictingShortcut shortcut.char earlier.style.display shortcut.style.display)
    | none => enter (shortcut :: entered) rest

end Shortcut

/-- Compile a rule. Its pattern is to match at the start of a token. -/
def CompiledRule.ofRule (rule : Rule) : Except GrammarError CompiledRule := do
  return ⟨rule.style, ← Regex.Matcher.ofPattern rule.pattern.anchored⟩

namespace Lexer

/-- Compile a grammar. Of several conflicts and faults, a conflict of shortcuts comes first, and
then the patterns in order. A pattern that was there before never gets its turn, and is left out of
the union. -/
def ofGrammar (grammar : Grammar) : Except GrammarError Lexer := do
  let shortcuts ← Shortcut.enter [] (Shortcut.ofRulesFrom 0 grammar.rules)
  let rules ← grammar.rules.mapM CompiledRule.ofRule
  let tokenizer ← Union.ofPatterns (grammar.rules.map Rule.pattern).eraseDups
  return ⟨rules, grammar.shortcuts.length, shortcuts, tokenizer⟩

/-- Cut a source into tokens. -/
def tokenize (lexer : Lexer) (source : List Char) : Except Failure (List (List Char)) :=
  lexer.tokenizer.tokens source

/-- The number of the rule that the first character of a token leads to. -/
def shortcutRule? (lexer : Lexer) (token : List Char) : Option Nat := do
  let shortcut ← Shortcut.on? (← token.head?) lexer.shortcuts
  return shortcut.rule

/-- The rules that a token is tried on, in order. -/
def candidates (lexer : Lexer) (token : List Char) : List CompiledRule :=
  let shortcut := lexer.shortcutRule? token
  let fallbacks := lexer.rules.zipIdx.filter fun (_, number) =>
    lexer.fallbackStart ≤ number && shortcut != some number
  (shortcut.bind (lexer.rules[·]?)).toList ++ fallbacks.map Prod.fst

/-- What a token is by the first of some rules that matches it. -/
def classifyBy (token : List Char) : List CompiledRule → Except Failure Classification
  | [] => .ok ⟨.plain, none⟩
  | rule :: rest =>
    match rule.matcher.captures token with
    | .error failure => .error failure
    | .ok (some captures) => .ok ⟨rule.style, some captures⟩
    | .ok none => classifyBy token rest

/-- What a token is. A token that no rule matches is plain. -/
def classify (lexer : Lexer) (token : List Char) : Except Failure Classification :=
  classifyBy token (lexer.candidates token)

end Lexer

end Highlighter
