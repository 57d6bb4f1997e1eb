/-!
# Keywords

The words that the built-in grammars style as keywords, in the order in which they are tried.
-/

set_option autoImplicit false

namespace Highlighter.Languages.Keywords

/-- The words of loops and branches that many languages share. -/
def flow : List String :=
  ["break", "continue", "do", "else", "for", "if", "return", "while"]

/-- The words of C. -/
def c : List String :=
  ["auto", "case", "char", "const", "default", "double", "enum", "extern", "float", "goto",
   "inline", "int", "long", "register", "short", "signed", "sizeof", "static", "struct", "switch",
   "typedef", "union", "unsigned", "void", "volatile"]

/-- The words that languages with classes share. -/
def objects : List String :=
  ["catch", "class", "delete", "false", "import", "new", "operator", "private", "protected",
   "public", "this", "throw", "true", "try", "typeof"]

/-- The words of C++. -/
def cpp : List String :=
  ["alignof", "align_union", "asm", "axiom", "bool", "concept", "concept_map", "const_cast",
   "constexpr", "decltype", "delegate", "dynamic_cast", "explicit", "export", "friend", "generic",
   "late_check", "mutable", "namespace", "nullptr", "property", "reinterpret_cast",
   "static_assert", "static_cast", "template", "typeid", "typename", "using", "virtual", "where"]

/-- The words of Java. -/
def java : List String :=
  ["abstract", "assert", "boolean", "byte", "extends", "final", "finally", "implements", "import",
   "instanceof", "interface", "null", "native", "package", "strictfp", "super", "synchronized",
   "throws", "transient"]

/-- The words of C#. -/
def csharp : List String :=
  ["as", "base", "by", "checked", "decimal", "delegate", "descending", "dynamic", "event",
   "fixed", "foreach", "from", "group", "implicit", "in", "internal", "into", "is", "let", "lock",
   "object", "out", "override", "orderby", "params", "partial", "readonly", "ref", "sbyte",
   "sealed", "stackalloc", "string", "select", "uint", "ulong", "unchecked", "unsafe", "ushort",
   "var", "virtual", "where"]

/-- The words of JavaScript. -/
def script : List String :=
  ["debugger", "eval", "export", "function", "get", "null", "set", "undefined", "var", "with",
   "Infinity", "NaN"]

/-- The words of CoffeeScript. -/
def coffee : List String :=
  ["all", "and", "by", "catch", "class", "else", "extends", "false", "finally", "for", "if", "in",
   "is", "isnt", "loop", "new", "no", "not", "null", "of", "off", "on", "or", "return", "super",
   "then", "throw", "true", "try", "unless", "until", "when", "while", "yes"]

/-- The words of Perl. -/
def perl : List String :=
  ["caller", "delete", "die", "do", "dump", "elsif", "eval", "exit", "foreach", "for", "goto",
   "if", "import", "last", "local", "my", "next", "no", "our", "print", "package", "redo",
   "require", "sub", "undef", "unless", "until", "use", "wantarray", "while", "BEGIN", "END"]

/-- The words of Python. -/
def python : List String :=
  ["and", "as", "assert", "class", "def", "del", "elif", "except", "exec", "finally", "from",
   "global", "import", "in", "is", "lambda", "nonlocal", "not", "or", "pass", "print", "raise",
   "try", "with", "yield", "False", "True", "None"]

/-- The words of Ruby. -/
def ruby : List String :=
  ["alias", "and", "begin", "case", "class", "def", "defined", "elsif", "end", "ensure", "false",
   "in", "module", "next", "nil", "not", "or", "redo", "rescue", "retry", "self", "super", "then",
   "true", "undef", "unless", "until", "when", "yield", "BEGIN", "END"]

/-- The words of shells. -/
def shell : List String :=
  ["case", "done", "elif", "esac", "eval", "fi", "function", "in", "local", "set", "then",
   "until"]

/-- The words of Rust. -/
def rust : List String :=
  ["as", "assert", "const", "copy", "drop", "enum", "extern", "fail", "false", "fn", "impl",
   "let", "log", "loop", "match", "mod", "move", "mut", "priv", "pub", "pure", "ref", "self",
   "static", "struct", "true", "trait", "type", "unsafe", "use"]

/-- The words of protocol buffer definitions. -/
def proto : List String :=
  ["bytes", "default", "double", "enum", "extend", "extensions", "false", "group", "import",
   "max", "message", "option", "optional", "package", "repeated", "required", "returns", "rpc",
   "service", "syntax", "to", "true"]

end Highlighter.Languages.Keywords
