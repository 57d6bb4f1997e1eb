import Highlighter.Unicode.Case
import Highlighter.Unicode.Char
import Highlighter.Unicode.Script

/-!
# Properties by name

A pattern names a property of characters in one of three ways: by a single letter, by one name, or
by the name of a property and one of its values. `Property.named?` and `Property.valued?` find the
characters meant. Names are compared loosely: letter case, spaces, hyphens, low lines and a leading
`is` do not count.
-/

set_option autoImplicit false

namespace Highlighter.Unicode

/-- A property, as the test that it puts to a code point. -/
abbrev Property := Nat → Bool

namespace Property

/-- A name in the form in which names are compared. -/
def loosely (name : String) : String :=
  let kept := fun (chars : List Char) =>
    (chars.filter fun c => c.val < 0x80 && c != ' ' && c != '_' && c != '-').map Char.toLower
  match name.toList with
  | i :: s :: rest =>
    if i.toLower == 'i' && s.toLower == 's' then
      let body := kept rest
      if body == ['c'] then "isc" else String.ofList body
    else String.ofList (kept (i :: s :: rest))
  | chars => String.ofList (kept chars)

/-- The code points with one of the given categories. -/
def ofCategories (categories : List Category) : Property := fun code =>
  categories.contains (category code)

/-- The code points of a group of categories. -/
def ofGroup (group : CategoryGroup) : Property := fun code =>
  (category code).group == group

/-- The code points with a general category, or a union of categories, of that name. -/
def generalCategory? (name : String) : Option Property :=
  match name with
  | "any" => some fun _ => true
  | "assigned" => some fun code => category code != .cn
  | "ascii" => some fun code => code < 0x80
  | "l" | "letter" => some (ofGroup .letter)
  | "lc" | "casedletter" => some (ofCategories [.lu, .ll, .lt])
  | "lu" | "uppercaseletter" => some (ofCategories [.lu])
  | "ll" | "lowercaseletter" => some (ofCategories [.ll])
  | "lt" | "titlecaseletter" => some (ofCategories [.lt])
  | "lm" | "modifierletter" => some (ofCategories [.lm])
  | "lo" | "otherletter" => some (ofCategories [.lo])
  | "m" | "mark" | "combiningmark" => some (ofGroup .mark)
  | "mn" | "nonspacingmark" => some (ofCategories [.mn])
  | "mc" | "spacingmark" => some (ofCategories [.mc])
  | "me" | "enclosingmark" => some (ofCategories [.me])
  | "n" | "number" => some (ofGroup .number)
  | "nd" | "decimalnumber" | "digit" => some (ofCategories [.nd])
  | "nl" | "letternumber" => some (ofCategories [.nl])
  | "no" | "othernumber" => some (ofCategories [.no])
  | "p" | "punctuation" | "punct" => some (ofGroup .punctuation)
  | "pc" | "connectorpunctuation" => some (ofCategories [.pc])
  | "pd" | "dashpunctuation" => some (ofCategories [.pd])
  | "ps" | "openpunctuation" => some (ofCategories [.ps])
  | "pe" | "closepunctuation" => some (ofCategories [.pe])
  | "pi" | "initialpunctuation" => some (ofCategories [.pi])
  | "pf" | "finalpunctuation" => some (ofCategories [.pf])
  | "po" | "otherpunctuation" => some (ofCategories [.po])
  | "s" | "symbol" => some (ofGroup .symbol)
  | "sm" | "mathsymbol" => some (ofCategories [.sm])
  | "sc" | "currencysymbol" => some (ofCategories [.sc])
  | "sk" | "modifiersymbol" => some (ofCategories [.sk])
  | "so" | "othersymbol" => some (ofCategories [.so])
  | "z" | "separator" => some (ofGroup .separator)
  | "zs" | "spaceseparator" => some (ofCategories [.zs])
  | "zl" | "lineseparator" => some (ofCategories [.zl])
  | "zp" | "paragraphseparator" => some (ofCategories [.zp])
  | "c" | "other" => some (ofGroup .other)
  | "cc" | "control" | "cntrl" => some (ofCategories [.cc])
  | "cf" | "format" => some (ofCategories [.cf])
  | "cs" | "surrogate" => some (ofCategories [.cs])
  | "co" | "privateuse" => some (ofCategories [.co])
  | "cn" | "unassigned" => some (ofCategories [.cn])
  | _ => none

/-- The code points of the script of that name. -/
def script? (name : String) : Option Property :=
  (scripts.find? (·.names.contains name)).map fun found => inRanges found.ranges

/-- Lowercase code points. -/
def isLowercase (code : Nat) : Bool :=
  category code == .ll || inRanges Ranges.otherLowercase code

/-- Uppercase code points. -/
def isUppercase (code : Nat) : Bool :=
  category code == .lu || inRanges Ranges.otherUppercase code

/-- Lowercase, uppercase and titlecase code points. -/
def hasCaseProperty (code : Nat) : Bool :=
  isLowercase code || isUppercase code || category code == .lt

/-- Code points that may start an identifier. -/
def isIdStart (code : Nat) : Bool :=
  let found := category code
  (found.group == .letter || found == .nl || inRanges Ranges.otherIdStart code) &&
    !inRanges Ranges.notIdStart code

/-- Code points that may continue an identifier. -/
def isIdContinue (code : Nat) : Bool :=
  isIdStart code || [.mn, .mc, .nd, .pc].contains (category code) ||
    inRanges Ranges.otherIdContinue code

/-- Code points that may start an identifier in every normalization. -/
def isXidStart (code : Nat) : Bool :=
  isIdStart code && !inRanges Ranges.notXidStart code

/-- Code points that may continue an identifier in every normalization. -/
def isXidContinue (code : Nat) : Bool :=
  isIdContinue code && !inRanges Ranges.notXidContinue code

/-- Code points that case mapping looks through. -/
def isCaseIgnorable (code : Nat) : Bool :=
  [.mn, .me, .cf, .lm, .sk].contains (category code) || inRanges Ranges.otherCaseIgnorable code

/-- Code points that start a grapheme of their own. -/
def isGraphemeBase (code : Nat) : Bool :=
  (category code).group != .other && !([.zl, .zp].contains (category code)) &&
    !isGraphemeExtend code

/-- The code points with the binary property of that name. -/
def binary? (name : String) : Option Property :=
  match name with
  | "asciihexdigit" | "ahex" => some (inRanges Ranges.asciiHexDigit)
  | "alphabetic" | "alpha" => some isAlphabetic
  | "bidicontrol" | "bidic" => some (inRanges Ranges.bidiControl)
  | "bidimirrored" | "bidim" => some (inRanges Ranges.bidiMirrored)
  | "caseignorable" | "ci" => some isCaseIgnorable
  | "cased" => some hasCaseProperty
  | "changeswhencasemapped" | "cwcm" => some (inRanges casedRanges)
  | "dash" => some (inRanges Ranges.dash)
  | "defaultignorablecodepoint" | "di" => some (inRanges Ranges.defaultIgnorableCodePoint)
  | "deprecated" | "dep" => some (inRanges Ranges.deprecated)
  | "diacritic" | "dia" => some (inRanges Ranges.diacritic)
  | "emoji" => some (inRanges Ranges.emoji)
  | "emojicomponent" | "ecomp" => some (inRanges Ranges.emojiComponent)
  | "emojimodifier" | "emod" => some (inRanges Ranges.emojiModifier)
  | "emojimodifierbase" | "ebase" => some (inRanges Ranges.emojiModifierBase)
  | "emojipresentation" | "epres" => some (inRanges Ranges.emojiPresentation)
  | "extendedpictographic" | "extpict" => some (inRanges Ranges.extendedPictographic)
  | "extender" | "ext" => some (inRanges Ranges.extender)
  | "graphemebase" | "grbase" => some isGraphemeBase
  | "graphemeextend" | "grext" => some isGraphemeExtend
  | "hexdigit" | "hex" => some (inRanges Ranges.hexDigit)
  | "idsbinaryoperator" | "idsb" => some (inRanges Ranges.idsBinaryOperator)
  | "idstrinaryoperator" | "idst" => some (inRanges Ranges.idsTrinaryOperator)
  | "idcontinue" | "idc" => some isIdContinue
  | "idstart" | "ids" => some isIdStart
  | "ideographic" | "ideo" => some (inRanges Ranges.ideographic)
  | "joincontrol" | "joinc" => some (inRanges Ranges.joinControl)
  | "logicalorderexception" | "loe" => some (inRanges Ranges.logicalOrderException)
  | "lowercase" | "lower" => some isLowercase
  | "math" => some fun code => category code == .sm || inRanges Ranges.otherMath code
  | "noncharactercodepoint" | "nchar" => some (inRanges Ranges.noncharacterCodePoint)
  | "patternsyntax" | "patsyn" => some (inRanges Ranges.patternSyntax)
  | "patternwhitespace" | "patws" => some (inRanges Ranges.patternWhiteSpace)
  | "quotationmark" | "qmark" => some (inRanges Ranges.quotationMark)
  | "radical" => some (inRanges Ranges.radical)
  | "regionalindicator" | "ri" => some (inRanges Ranges.regionalIndicator)
  | "sentenceterminal" | "sterm" => some (inRanges Ranges.sentenceTerminal)
  | "softdotted" | "sd" => some (inRanges Ranges.softDotted)
  | "terminalpunctuation" | "term" => some (inRanges Ranges.terminalPunctuation)
  | "unifiedideograph" | "uideo" => some (inRanges Ranges.unifiedIdeograph)
  | "uppercase" | "upper" => some isUppercase
  | "variationselector" | "vs" => some (inRanges Ranges.variationSelector)
  | "whitespace" | "wspace" | "space" => some (inRanges Ranges.whiteSpace)
  | "xidcontinue" | "xidc" => some isXidContinue
  | "xidstart" | "xids" => some isXidStart
  | _ => none

/-- The property meant by one name: a binary property, a category or a script, in this order. -/
def named? (name : String) : Option Property :=
  let name := loosely name
  binary? name <|> generalCategory? name <|> script? name

/-- The property meant by the name of a property and one of its values. -/
def valued? (name value : String) : Option Property :=
  match loosely name with
  | "generalcategory" | "gc" => generalCategory? (loosely value)
  | "script" | "sc" => script? (loosely value)
  | _ => none

end Property

end Highlighter.Unicode
