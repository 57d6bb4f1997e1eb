import Highlighter.Grammar

/-!
# Grammars of program sources

Most programming languages differ only in their keywords, comments and strings. A `CodeStyle` says
what they are, and `CodeStyle.grammar` is the grammar that follows from it.
-/

set_option autoImplicit false

namespace Highlighter.Languages

/-- A rule for a pattern. -/
def rule (style : Style) (pattern : String) : Rule := ⟨style, .ofSource pattern, []⟩

/-- A rule for a pattern where letter case does not count. -/
def ruleIgnoringCase (style : Style) (pattern : String) : Rule :=
  ⟨style, .caseInsensitive pattern, []⟩

/-- Which comments start with a number sign. -/
inductive HashComments where
  | none
  /-- Up to the end of the line. -/
  | line
  /-- As `line`, and blocks between three number signs. -/
  | block
  deriving DecidableEq, Repr

/-- Which strings there are. -/
inductive Strings where
  /-- In single or double quotes, up to the end of the line. -/
  | singleLine
  /-- In single, double or back quotes, over several lines. -/
  | multiLine
  /-- As `multiLine`, with three single or double quotes instead of back quotes. -/
  | tripleQuoted
  deriving DecidableEq, Repr

/-- Whether regular expressions stand between slashes. -/
inductive RegexLiterals where
  | none | singleLine | multiLine
  deriving DecidableEq, Repr

/-- What a programming language looks like. -/
structure CodeStyle where
  keywords : List String := []
  hashComments : HashComments := .none
  /-- Whether comments start with two slashes, or stand between slashes and asterisks. -/
  slashComments : Bool := false
  strings : Strings := .singleLine
  /-- Whether a string after an at sign has no escapes. -/
  verbatimStrings : Bool := false
  regexLiterals : RegexLiterals := .none
  /-- Names of types beyond those that start with a capital letter. -/
  types : Option String := Option.none

/-- What a regular expression between slashes may come after. -/
def regexPreceder : String :=
  ("(?:^^\\.?|[+-]|[!=]=?=?|#|%=?|&&?=?|\\(|\\*=?|[+\\-]=|->|/=?|::?|<<?=?|>>?>?=?|,|;|\\?|" ++
    "@|\\[|~|\\\x7b|\\^\\^?=?|\\|\\|?=?|break|case|continue|delete|do|else|finally|" ++
    "instanceof|return|throw|try|typeof)\\s*")

/-- A regular expression between slashes. The first slash starts no comment. `excluded` is what may
not stand in it, and `any` is what an escape may be of. -/
def slashedRegex (excluded any : String) : String :=
  "/(?=[^/*" ++ excluded ++ "])(?:[^/\\x5B\\x5C" ++ excluded ++ "]|\\x5C" ++ any ++
    "|\\x5B(?:[^\\x5C\\x5D" ++ excluded ++ "]|\\x5C" ++ any ++ ")*(?:\\x5D|$))+/"

namespace Strings

/-- The rule for the strings of a language. -/
def rule : Strings → Rule
  | tripleQuoted =>
    (Languages.rule .string
      ("^(?:'''(?:[^'\\\\]|\\\\[\\s\\S]|'\x7b1,2\x7d(?=[^']))*(?:'''|$)|\"\"\"(?:[^\"\\\\]|" ++
        "\\\\[\\s\\S]|\"\x7b1,2\x7d(?=[^\"]))*(?:\"\"\"|$)|'(?:[^\\\\']|\\\\[\\s\\S])*(?:'|" ++
        "$)|\"(?:[^\\\\\"]|\\\\[\\s\\S])*(?:\"|$))")).withShortcut
      "'\""
  | multiLine =>
    (Languages.rule .string
      ("^(?:'(?:[^\\\\']|\\\\[\\s\\S])*(?:'|$)|\"(?:[^\\\\\"]|\\\\[\\s\\S])*(?:\"|$)|" ++
        "`(?:[^\\\\`]|\\\\[\\s\\S])*(?:`|$))")).withShortcut
      "'\"`"
  | singleLine =>
    (Languages.rule .string
      "^(?:'(?:[^\\\\'\\r\\n]|\\\\.)*(?:'|$)|\"(?:[^\\\\\"\\r\\n]|\\\\.)*(?:\"|$))").withShortcut
      "\"'"

end Strings

namespace CodeStyle

/-- The rule for comments after a number sign. Beside slash comments, a number sign also starts a
directive, which ends before a comment. -/
def hashRule? (style : CodeStyle) : Option Rule :=
  let comment (pattern : String) := (rule .comment pattern).withShortcut "#"
  match style.hashComments, style.slashComments with
  | .none, _ => Option.none
  | .block, true => some (comment
    "^#(?:##(?:[^#]|#(?!##))*(?:###|$)|.*)")
  | .line, true => some (comment
    ("^#(?:(?:define|e(?:l|nd)if|else|error|ifn?def|include|line|pragma|undef|warning)\\b|" ++
      "[^\\r\\n]*)"))
  | _, false => some (comment
    "^#[^\\r\\n]*")

/-- The rule for file names in angle brackets. -/
def includedFileRule : Rule := rule .string
  "^<(?:(?:(?:\\.\\./)*|/?)(?:[\\w-]+(?:/[\\w-]+)+)?[\\w-]+\\.h(?:h|pp|\\+\\+)?|[a-z]\\w*)>"

/-- The rule for regular expressions between slashes. -/
def regexRule? (style : CodeStyle) : Option Rule :=
  let embedding (literal : String) :=
    rule (.embedded "regex") ("^" ++ regexPreceder ++ "(" ++ literal ++ ")")
  match style.regexLiterals with
  | .none => Option.none
  | .singleLine => some (embedding (slashedRegex "\\n\\r" "."))
  | .multiLine => some (embedding (slashedRegex "" "[\\S\\s]"))

/-- The rule for keywords. -/
def keywordRule? (style : CodeStyle) : Option Rule :=
  if style.keywords.isEmpty then Option.none
  else some (rule .keyword ("^(?:" ++ String.intercalate "|" style.keywords ++ ")\\b"))

/-- The rule for punctuation. It leaves a slash to what may be a regular expression. -/
def punctuationRule (style : CodeStyle) : Rule :=
  let run :=
    "^.[^\\s\\w.$@'\"`/\\\\]*"
  rule .punctuation (if style.regexLiterals = .none then run else run ++ "(?!\\s*/)")

/-- The rules that are tried first on tokens with one of their characters. -/
def shortcutRules (style : CodeStyle) : List Rule :=
  style.strings.rule :: style.hashRule?.toList ++
    [(rule .plain "^\\s+").withShortcut " \r\n\t\u00a0"]

/-- The rules for strings and comments that have no character of their own. -/
def textRules (style : CodeStyle) : List Rule :=
  (if style.verbatimStrings then [rule .string "^@\"(?:[^\"]|\"\")*(?:\"|$)"] else []) ++
  (if style.hashComments ≠ .none && style.slashComments then [includedFileRule] else []) ++
  (if style.slashComments then
    [rule .comment "^//[^\\r\\n]*",
     rule .comment "^/\\*[\\s\\S]*?(?:\\*/|$)"]
  else [])

/-- The rules for names, numbers and what is left. -/
def wordRules (style : CodeStyle) : List Rule :=
  [ruleIgnoringCase .literal "^@[a-z_$][a-z_$@0-9]*",
   rule .type "^(?:[@_]?[A-Z]+[a-z][A-Za-z_$@0-9]*|\\w+_t\\b)",
   ruleIgnoringCase .plain "^[a-z_$][a-z_$@0-9]*",
   (ruleIgnoringCase .literal
     "^(?:0x[a-f0-9]+|(?:\\d(?:_\\d+)*\\d*(?:\\.\\d*)?|\\.\\d\\+)(?:e[+\\-]?\\d+)?)[a-z]*").withShortcut
     "0123456789",
   rule .plain "^\\\\[\\s\\S]?",
   style.punctuationRule]

/-- The grammar of a language that looks so. -/
def grammar (style : CodeStyle) : Grammar where
  shortcuts := style.shortcutRules
  fallbacks :=
    style.textRules ++ style.regexRule?.toList ++ (style.types.map (rule .type)).toList ++
      style.keywordRule?.toList ++ style.wordRules

end CodeStyle

end Highlighter.Languages
