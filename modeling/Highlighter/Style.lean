/-!
# Styles

A style says what a piece of source is: a keyword, a comment, plain text and so on. One style says
more: `embedded` hands a part of the piece to the grammar of another language.

Main statement: a style is read back from the name it is shown by (`ofName?_display`).
-/

set_option autoImplicit false

namespace Highlighter

/-- What a piece of source is. -/
inductive Style where
  | string
  | keyword
  | comment
  | type
  | literal
  | punctuation
  | plain
  | tag
  | declaration
  /-- Source in another language that could not be decorated. -/
  | source
  | attribName
  | attribValue
  /-- Text beside the source, such as line numbers. -/
  | noCode
  | openBracket
  | closeBracket
  /-- A part is written in another language. The empty name leaves the language to be guessed. -/
  | embedded (language : String)
  deriving DecidableEq, Repr

namespace Style

/-- The styles other than embeddings, with their names. -/
def named : List (String × Style) :=
  [("str", string), ("kwd", keyword), ("com", comment), ("typ", type), ("lit", literal),
   ("pun", punctuation), ("pln", plain), ("tag", tag), ("dec", declaration), ("src", source),
   ("atn", attribName), ("atv", attribValue), ("nocode", noCode), ("opn", openBracket),
   ("clo", closeBracket)]

/-- What the name of an embedding starts with. -/
def embeddedMark : List Char := ['l', 'a', 'n', 'g', '-']

/-- The short name of a style. All embeddings share one. -/
def name : Style → String
  | string => "str"
  | keyword => "kwd"
  | comment => "com"
  | type => "typ"
  | literal => "lit"
  | punctuation => "pun"
  | plain => "pln"
  | tag => "tag"
  | declaration => "dec"
  | source => "src"
  | attribName => "atn"
  | attribValue => "atv"
  | noCode => "nocode"
  | openBracket => "opn"
  | closeBracket => "clo"
  | embedded _ => "lang"

/-- How a style is shown. An embedding shows its language. -/
def display : Style → String
  | embedded language => String.ofList (embeddedMark ++ language.toList)
  | style => style.name

/-- The style with a name. Every name that starts with `lang-` is an embedding. -/
def ofName? (name : String) : Option Style :=
  if embeddedMark.isPrefixOf name.toList then
    some (embedded (String.ofList (name.toList.drop embeddedMark.length)))
  else named.lookup name

theorem ofName?_display (style : Style) : ofName? style.display = some style := by
  cases style with
  | embedded language => simp [ofName?, display, embeddedMark]
  | _ => decide

/-- Whether a style hands a part on to another grammar. -/
def isEmbedded : Style → Bool
  | embedded _ => true
  | _ => false

/-- The language that an embedding names. -/
def language? : Style → Option String
  | embedded language => if language.isEmpty then none else some language
  | _ => none

end Style

end Highlighter
