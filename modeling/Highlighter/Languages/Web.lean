import Highlighter.Languages.Code

/-!
# Grammars of the web

A document is split into text, comments, declarations and tags. Scripts and style sheets in it are
handed on to their languages. A tag is handed on to `in.tag`, which styles names, attributes and
values.
-/

set_option autoImplicit false

namespace Highlighter.Languages

/-- The grammar of HTML, XML and their kin. -/
def markup : Grammar where
  shortcuts := []
  fallbacks :=
    [rule .plain "^[^<?]+",
     rule .declaration "^<!\\w[^>]*(?:>|$)",
     rule .comment "^<!--[\\s\\S]*?(?:-->|$)",
     rule (.embedded "") "^<\\?([\\s\\S]+?)(?:\\?>|$)",
     rule (.embedded "") "^<%([\\s\\S]+?)(?:%>|$)",
     rule .punctuation "^(?:<[%?]|[%?]>)",
     ruleIgnoringCase (.embedded "") "^<xmp\\b[^>]*>([\\s\\S]+?)</xmp\\b[^>]*>",
     ruleIgnoringCase (.embedded "js")
       "^<script\\b[^>]*>([\\s\\S]*?)(</script\\b[^>]*>)",
     ruleIgnoringCase (.embedded "css")
       "^<style\\b[^>]*>([\\s\\S]*?)(</style\\b[^>]*>)",
     ruleIgnoringCase (.embedded "in.tag") "^(</?[a-z][^<>]*>)"]

/-- The grammar of a tag. -/
def inTag : Grammar where
  shortcuts :=
    [(rule .plain "^\\s+").withShortcut " \t\r\n",
     (rule .attribValue "^(?:\"[^\"]*\"?|'[^']*'?)").withShortcut "\"'"]
  fallbacks :=
    [ruleIgnoringCase .tag "^^</?[a-z](?:[\\w.:-]*\\w)?|/?>$",
     ruleIgnoringCase .attribName "^(?!style[\\s=]|on)[a-z](?:[\\w:-]*\\w)?",
     ruleIgnoringCase (.embedded "uq.val")
       "^=\\s*([^>'\"\\s]*(?:[^>'\"\\s/]|/(?=\\s)))",
     rule .punctuation "^[=<>/]+",
     ruleIgnoringCase (.embedded "js") "^on\\w+\\s*=\\s*\"([^\"]+)\"",
     ruleIgnoringCase (.embedded "js") "^on\\w+\\s*=\\s*'([^']+)'",
     ruleIgnoringCase (.embedded "js") "^on\\w+\\s*=\\s*([^\"'>\\s]+)",
     ruleIgnoringCase (.embedded "css") "^style\\s*=\\s*\"([^\"]+)\"",
     ruleIgnoringCase (.embedded "css") "^style\\s*=\\s*'([^']+)'",
     ruleIgnoringCase (.embedded "css") "^style\\s*=\\s*([^\"'>\\s]+)"]

/-- The grammar of an attribute value without quotes. -/
def unquotedValue : Grammar where
  shortcuts := []
  fallbacks := [rule .attribValue "^[\\s\\S]+"]

/-- A name in a style sheet. -/
def cssName : String :=
  "-?(?:[_a-z]|(?:\\\\[0-9a-f]+ ?))(?:[_a-z0-9\\-]|\\\\(?:\\\\[0-9a-f]+ ?))*"

/-- The grammar of the names of properties. -/
def cssKeyword : Grammar where
  shortcuts := []
  fallbacks := [ruleIgnoringCase .keyword ("^" ++ cssName)]

/-- The grammar of addresses without quotes. -/
def cssAddress : Grammar where
  shortcuts := []
  fallbacks := [rule .string "^[^)\"']+"]

/-- The grammar of style sheets. Names of properties and addresses have grammars of their own. -/
def css : Grammar where
  shortcuts := [(rule .plain "^[ \\t\\r\\n\\f]+").withShortcut " \t\r\n\x0c"]
  fallbacks :=
    [rule .string "^\"(?:[^\\n\\r\\f\\\\\"]|\\\\(?:\\r\\n?|\\n|\\f)|\\\\[\\s\\S])*\"",
     rule .string "^'(?:[^\\n\\r\\f\\\\']|\\\\(?:\\r\\n?|\\n|\\f)|\\\\[\\s\\S])*'",
     ruleIgnoringCase (.embedded "css-str") "^url\\(([^)\"']+)\\)",
     ruleIgnoringCase .keyword
       "^(?:url|rgb|!important|@import|@page|@media|@charset|inherit)(?=[^\\-\\w]|$)",
     ruleIgnoringCase (.embedded "css-kw") ("^(" ++ cssName ++ ")\\s*:"),
     rule .comment "^/\\*[^*]*\\*+(?:[^/*][^*]*\\*+)*/",
     rule .comment "^(?:<!--|-->)",
     ruleIgnoringCase .literal "^(?:\\d+|\\d*\\.\\d+)(?:%|[a-z]+)?",
     ruleIgnoringCase .literal "^#(?:[0-9a-f]\x7b3\x7d)\x7b1,2\x7d\\b",
     ruleIgnoringCase .plain ("^" ++ cssName),
     ruleIgnoringCase .punctuation "^[^\\s\\w'\"]+"]
  auxiliary := [⟨["css-kw"], cssKeyword⟩, ⟨["css-str"], cssAddress⟩]

end Highlighter.Languages
