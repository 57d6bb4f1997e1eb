import Highlighter.Languages.Code
import Highlighter.Languages.Keywords

/-!
# Grammars of programming languages

Most of them follow from how the language looks. Two are written out: in Go, only comments are
styled, and in Lua, long brackets close on as many equals signs as they open with.
-/

set_option autoImplicit false

namespace Highlighter.Languages

/-- The names of types in C and its kin. -/
def cTypes : String :=
  ("^(DIR|FILE|vector|(de|priority_)?queue|list|stack|(const_)?iterator|(multi)?(set|map)|" ++
    "bitset|u?(int|float)\\d*)\\b")

/-- The names of types in protocol buffer definitions. -/
def protoTypes : String :=
  "^(bool|(double|s?fixed|[su]?int)(32|64)|float|string)\\b"

/-- The grammar for code in an unknown language: the words of many languages together. -/
def anyCode : Grammar := CodeStyle.grammar {
  keywords := Keywords.flow ++ Keywords.c ++ Keywords.objects ++ Keywords.cpp ++ Keywords.java ++
    Keywords.csharp ++ Keywords.script ++ Keywords.perl ++ Keywords.python ++ Keywords.ruby ++
    Keywords.shell
  hashComments := .line
  slashComments := true
  strings := .multiLine
  regexLiterals := .singleLine }

/-- The grammar of C and C++. -/
def c : Grammar := CodeStyle.grammar {
  keywords := Keywords.flow ++ Keywords.c ++ Keywords.objects ++ Keywords.cpp
  hashComments := .line
  slashComments := true
  types := some cTypes }

/-- The grammar of JSON. -/
def json : Grammar := CodeStyle.grammar { keywords := ["null", "true", "false"] }

/-- The grammar of C#. -/
def csharp : Grammar := CodeStyle.grammar {
  keywords := Keywords.flow ++ Keywords.c ++ Keywords.objects ++ Keywords.java ++ Keywords.csharp
  hashComments := .line
  slashComments := true
  verbatimStrings := true
  types := some cTypes }

/-- The grammar of Java. -/
def java : Grammar := CodeStyle.grammar {
  keywords := Keywords.flow ++ Keywords.c ++ Keywords.objects ++ Keywords.java
  slashComments := true }

/-- The grammar of shells. -/
def shell : Grammar := CodeStyle.grammar {
  keywords := Keywords.flow ++ Keywords.shell
  hashComments := .line
  strings := .multiLine }

/-- The grammar of Python. -/
def python : Grammar := CodeStyle.grammar {
  keywords := Keywords.flow ++ Keywords.python
  hashComments := .line
  strings := .tripleQuoted }

/-- The grammar of Perl. -/
def perl : Grammar := CodeStyle.grammar {
  keywords := Keywords.perl
  hashComments := .line
  strings := .multiLine
  regexLiterals := .multiLine }

/-- The grammar of Ruby. -/
def ruby : Grammar := CodeStyle.grammar {
  keywords := Keywords.flow ++ Keywords.ruby
  hashComments := .line
  strings := .multiLine
  regexLiterals := .singleLine }

/-- The grammar of JavaScript. -/
def javascript : Grammar := CodeStyle.grammar {
  keywords := Keywords.flow ++ Keywords.c ++ Keywords.objects ++ Keywords.script
  slashComments := true
  regexLiterals := .singleLine }

/-- The grammar of CoffeeScript. -/
def coffee : Grammar := CodeStyle.grammar {
  keywords := Keywords.coffee
  hashComments := .block
  slashComments := true
  strings := .tripleQuoted
  regexLiterals := .singleLine }

/-- The grammar of Rust. -/
def rust : Grammar := CodeStyle.grammar {
  keywords := Keywords.flow ++ Keywords.rust
  slashComments := true }

/-- The grammar of protocol buffer definitions. -/
def proto : Grammar := CodeStyle.grammar {
  keywords := Keywords.proto
  slashComments := true
  types := some protoTypes }

/-- The grammar of what is between the slashes of a regular expression. -/
def regex : Grammar where
  shortcuts := []
  fallbacks := [rule .string "^[\\s\\S]+"]

/-- The grammar of Go. Its names and types cannot be told apart here, so only comments have a
style. -/
def go : Grammar where
  shortcuts :=
    [(rule .plain "^[\\t\\n\\r \\xA0]+").withShortcut "\t\n\r \u00a0",
     (rule .plain
       ("^(?:\"(?:[^\"\\\\]|\\\\[\\s\\S])*(?:\"|$)|'(?:[^'\\\\]|\\\\[\\s\\S])+(?:'|$)|" ++
         "`[^`]*(?:`|$))")).withShortcut
       "\"'"]
  fallbacks :=
    [rule .comment "^(?://[^\\r\\n]*|/\\*[\\s\\S]*?\\*/)",
     ruleIgnoringCase .plain "^(?:[^/\"'`]|/(?![/*]))+"]

/-- The grammar of Lua. -/
def lua : Grammar where
  shortcuts :=
    [(rule .plain "^[\\t\\n\\r \\xA0]+").withShortcut "\t\n\r \u00a0",
     (rule .string
       "^(?:\"(?:[^\"\\\\]|\\\\[\\s\\S])*(?:\"|$)|'(?:[^'\\\\]|\\\\[\\s\\S])*(?:'|$))").withShortcut
       "\"'"]
  fallbacks :=
    [rule .comment
       "^--(?:\\[(=*)\\[[\\s\\S]*?(?:\\]\\1\\]|$)|[^\\r\\n]*)",
     rule .string "^\\[(=*)\\[[\\s\\S]*?(?:\\]\\1\\]|$)",
     rule .keyword
       ("^(?:and|break|do|else|elseif|end|false|for|function|if|in|local|nil|not|or|repeat|" ++
         "return|then|true|until|while)\\b"),
     ruleIgnoringCase .literal
       "^[+-]?(?:0x[\\da-f]+|(?:(?:\\.\\d+|\\d+(?:\\.\\d*)?)(?:e[+\\-]?\\d+)?))",
     ruleIgnoringCase .plain "^[a-z_]\\w*",
     rule .punctuation
       "^[^\\w\\t\\n\\r \\xA0][^\\w\\n\\r \\xA0\"'\\-+=]*"]

end Highlighter.Languages
