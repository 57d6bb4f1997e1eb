import Highlighter.Text.Hex
import Highlighter.Toml.Value

/-!
# Reading TOML documents

`parse?` reads a document, or answers nothing where it is malformed. The readers here answer with
what they read and with the text after it. A carriage return before a line feed is dropped first, so
that lines end in one way only.
-/

set_option autoImplicit false

namespace Highlighter.Toml

/-- The text with every line ending in a line feed alone. -/
def unifyLines : List Char → List Char
  | '\r' :: '\n' :: rest => '\n' :: unifyLines rest
  | c :: rest => c :: unifyLines rest
  | [] => []

/-- Whether a character may not stand in a line. -/
def isControl (c : Char) : Bool := (c.val < 0x20 && c != '\t') || c.val == 0x7F

/-- Whether a character separates words in a line. -/
def isSpace (c : Char) : Bool := c == ' ' || c == '\t'

/-- What is left of a text after blank lines and comments, or inside a comment after the rest of it
too. -/
def skipLines? (inComment : Bool) : List Char → Option (List Char)
  | [] => some []
  | c :: rest =>
    if c == '\n' then skipLines? false rest
    else if inComment then if isControl c then none else skipLines? true rest
    else if isSpace c then skipLines? false rest
    else if c == '#' then skipLines? true rest
    else some (c :: rest)

/-- What is left of a line after spaces. -/
def skipSpaces (cs : List Char) : List Char := cs.dropWhile isSpace

/-- Whether nothing but spaces and a comment are left in a line. -/
def endsLine (cs : List Char) : Bool :=
  match skipSpaces cs with
  | [] => true
  | c :: _ => c == '\n' || c == '#'

/-! ## Strings -/

/-- Read the end of a string: the quotes that still belong to it, and the text after it. A string
over several lines ends at three quotes, and up to two more before them belong to it. -/
def closeText? (quote : Char) (multi : Bool) (cs : List Char) :
    Option (List Char × List Char) :=
  let quotes := (cs.takeWhile (· == quote)).length
  if multi then
    if quotes < 3 then none
    else some (List.replicate (min quotes 5 - 3) quote, cs.drop (min quotes 5))
  else if quotes = 0 then none else some ([], cs.drop 1)

/-- Read the code of a character. -/
def parseCode? (digits : Nat) (cs : List Char) : Option (Char × List Char) := do
  let written := cs.take digits
  if written.length == digits then return (← charOfCode? (← hexNumber? written), cs.drop digits)
  else none

/-- Read an escape, after its backslash. -/
def parseEscape? (cs : List Char) : Option (Char × List Char) :=
  match cs with
  | 'b' :: rest => some ('\x08', rest)
  | 't' :: rest => some ('\t', rest)
  | 'n' :: rest => some ('\n', rest)
  | 'f' :: rest => some ('\x0c', rest)
  | 'r' :: rest => some ('\r', rest)
  | '"' :: rest => some ('"', rest)
  | '\\' :: rest => some ('\\', rest)
  | 'u' :: rest => parseCode? 4 rest
  | 'U' :: rest => parseCode? 8 rest
  | _ => none

/-- Read what stands at one place of a string. A backslash at the end of a line stands for nothing,
and takes all space after it along. -/
def parsePiece? (quote : Char) (multi : Bool) (cs : List Char) :
    Option (List Char × List Char) := do
  match cs with
  | [] => none
  | c :: rest =>
    if c == '\\' && quote == '"' then
      if multi && (skipSpaces rest).head? == some '\n' then
        return ([], rest.dropWhile fun c => isSpace c || c == '\n')
      else
        let (c, rest) ← parseEscape? rest
        return ([c], rest)
    else if c == '\n' then if multi then some ([c], rest) else none
    else if isControl c then none
    else some ([c], rest)

/-- Read a string, after its opening quotes. The count bounds the steps. -/
def parseText? (quote : Char) (multi : Bool) :
    Nat → List Char → Option (List Char × List Char)
  | 0, _ => none
  | steps + 1, cs =>
    match closeText? quote multi cs with
    | some closed => some closed
    | none => do
      let (piece, rest) ← parsePiece? quote multi cs
      let (body, rest) ← parseText? quote multi steps rest
      return (piece ++ body, rest)

/-- Read a string that begins here. A line feed right after three opening quotes is dropped. -/
def parseString? (cs : List Char) : Option (String × List Char) := do
  let read (quote : Char) (multi : Bool) (cs : List Char) : Option (String × List Char) := do
    let (body, rest) ← parseText? quote multi (cs.length + 1) cs
    return (String.ofList body, rest)
  match cs with
  | '"' :: '"' :: '"' :: '\n' :: rest => read '"' true rest
  | '"' :: '"' :: '"' :: rest => read '"' true rest
  | '"' :: rest => read '"' false rest
  | '\'' :: '\'' :: '\'' :: '\n' :: rest => read '\'' true rest
  | '\'' :: '\'' :: '\'' :: rest => read '\'' true rest
  | '\'' :: rest => read '\'' false rest
  | _ => none

/-! ## Keys -/

/-- Whether a character may stand in a key without quotes. -/
def isKeyChar (c : Char) : Bool := c.isAlphanum || c == '-' || c == '_'

/-- Read a key without dots. -/
def parseKey? (cs : List Char) : Option (String × List Char) := do
  match cs with
  | '"' :: rest =>
    let (body, rest) ← parseText? '"' false (rest.length + 1) rest
    return (String.ofList body, rest)
  | '\'' :: rest =>
    let (body, rest) ← parseText? '\'' false (rest.length + 1) rest
    return (String.ofList body, rest)
  | cs =>
    match cs.takeWhile isKeyChar with
    | [] => none
    | key => return (String.ofList key, cs.dropWhile isKeyChar)

/-- Read a dotted key. The count bounds the steps. -/
def parsePathWithin? : Nat → List Char → Option (List String × List Char)
  | 0, _ => none
  | steps + 1, cs => do
    let (key, rest) ← parseKey? (skipSpaces cs)
    match skipSpaces rest with
    | '.' :: rest =>
      let (path, rest) ← parsePathWithin? steps rest
      return (key :: path, rest)
    | rest => return ([key], rest)

/-- Read a dotted key. -/
def parsePath? (cs : List Char) : Option (List String × List Char) :=
  parsePathWithin? (cs.length + 1) cs

/-! ## Numbers and dates -/

/-- Whether a text is a row of digits, where low lines may stand between two of them. -/
def areDigits (isDigit : Char → Bool) : List Char → Bool
  | [] => false
  | [c] => isDigit c
  | c :: '_' :: rest => isDigit c && areDigits isDigit rest
  | c :: rest => isDigit c && areDigits isDigit rest

/-- Whether a text is a whole number to the base ten, without a sign. -/
def isDecimal (cs : List Char) : Bool :=
  areDigits Char.isDigit cs && (cs.length == 1 || cs.head? != some '0')

/-- What is left of a text after a sign. -/
def dropSign : List Char → List Char
  | '+' :: rest => rest
  | '-' :: rest => rest
  | cs => cs

/-- The largest whole number. -/
def maxInteger : Nat := 9223372036854775807

/-- Whether a text is a whole number that fits 64 bits. -/
def isInteger (cs : List Char) : Bool :=
  let fits (base : Nat) (digits : List Char) (limit : Nat) : Bool :=
    (digits.filter (· != '_')).foldl (fun value c => base * value + (hexValue? c).getD 0) 0 ≤ limit
  match cs with
  | '0' :: 'x' :: digits => areDigits isHexDigit digits && fits 16 digits maxInteger
  | '0' :: 'o' :: digits =>
    areDigits (fun c => '0' ≤ c && c ≤ '7') digits && fits 8 digits maxInteger
  | '0' :: 'b' :: digits =>
    areDigits (fun c => c == '0' || c == '1') digits && fits 2 digits maxInteger
  | '-' :: digits => isDecimal digits && fits 10 digits (maxInteger + 1)
  | cs => isDecimal (dropSign cs) && fits 10 (dropSign cs) maxInteger

/-- Whether a text is a number with a fraction or an exponent. -/
def isFloat (cs : List Char) : Bool :=
  let cs := dropSign cs
  let isExponentMark (c : Char) := c == 'e' || c == 'E'
  let (mantissa, exponent) := cs.span fun c => !isExponentMark c
  let (whole, fraction) := mantissa.span (· != '.')
  cs == "inf".toList || cs == "nan".toList ||
    (isDecimal whole && (!fraction.isEmpty || !exponent.isEmpty) &&
      (fraction.isEmpty || areDigits Char.isDigit (fraction.drop 1)) &&
      (exponent.isEmpty || areDigits Char.isDigit (dropSign (exponent.drop 1))))

/-- Read a number of two digits that lies between two bounds. -/
def parseTwo? (low high : Nat) : List Char → Option (List Char)
  | a :: b :: rest =>
    let value := 10 * (a.toNat - '0'.toNat) + (b.toNat - '0'.toNat)
    if a.isDigit && b.isDigit && low ≤ value && value ≤ high then some rest else none
  | _ => none

/-- Read a date. -/
def parseDate? (cs : List Char) : Option (List Char) := do
  if !((cs.take 4).length == 4 && (cs.take 4).all Char.isDigit) then none
  match cs.drop 4 with
  | '-' :: rest =>
    match ← parseTwo? 1 12 rest with
    | '-' :: rest => parseTwo? 1 31 rest
    | _ => none
  | _ => none

/-- Read a time of day. -/
def parseTime? (cs : List Char) : Option (List Char) := do
  match ← parseTwo? 0 23 cs with
  | ':' :: rest =>
    match ← parseTwo? 0 59 rest with
    | ':' :: rest =>
      match ← parseTwo? 0 60 rest with
      | '.' :: c :: rest => if c.isDigit then some (rest.dropWhile Char.isDigit) else none
      | rest => some rest
    | _ => none
  | _ => none

/-- Read how far a time is from universal time. -/
def parseZone? (cs : List Char) : Option (List Char) := do
  match cs with
  | 'Z' :: rest => some rest
  | 'z' :: rest => some rest
  | sign :: rest =>
    if sign == '+' || sign == '-' then
      match ← parseTwo? 0 23 rest with
      | ':' :: rest => parseTwo? 0 59 rest
      | _ => none
    else some cs
  | [] => some []

/-- Read a date, a time of day or both. -/
def parseDateTime? (cs : List Char) : Option (List Char) :=
  match parseDate? cs with
  | some (mark :: rest) =>
    if mark == 'T' || mark == 't' || (mark == ' ' && rest.head?.any Char.isDigit) then
      (parseTime? rest).bind parseZone?
    else some (mark :: rest)
  | some [] => some []
  | none => parseTime? cs

/-- Whether a character may stand in a number, a date or a truth value. -/
def isWordChar (c : Char) : Bool := c.isAlphanum || "+-._:".toList.contains c

/-- Read a value that is neither quoted nor bracketed. -/
def parseWord? (cs : List Char) : Option (Value × List Char) :=
  let word := cs.takeWhile isWordChar
  let rest := cs.dropWhile isWordChar
  if word == "true".toList then some (.bool true, rest)
  else if word == "false".toList then some (.bool false, rest)
  else if isInteger word || isFloat word then some (.scalar (String.ofList word), rest)
  else (parseDateTime? cs).map fun rest =>
    (.scalar (String.ofList (cs.take (cs.length - rest.length))), rest)

/-! ## Values -/

mutual

/-- Read a value. Every step reads a character, so the length of the text bounds the steps. -/
def parseValue? (steps : Nat) (cs : List Char) : Option (Value × List Char) :=
  match steps with
  | 0 => none
  | steps + 1 => do
    match cs with
    | '[' :: rest => parseItems? steps [] rest
    | '{' :: rest =>
      match skipSpaces rest with
      | '}' :: rest => return (.table .braced [], rest)
      | rest => parseFields? steps [] rest
    | c :: rest =>
      if c == '"' || c == '\'' then
        let (text, rest) ← parseString? (c :: rest)
        return (.string text, rest)
      else parseWord? (c :: rest)
    | [] => none
termination_by structural steps

/-- Read the items of an array, after its bracket or after a comma. The items so far are given
latest first. -/
def parseItems? (steps : Nat) (items : List Value) (cs : List Char) :
    Option (Value × List Char) :=
  match steps with
  | 0 => none
  | steps + 1 => do
    match ← skipLines? false cs with
    | ']' :: rest => return (.array .bracketed items.reverse, rest)
    | cs =>
      let (item, rest) ← parseValue? steps cs
      match ← skipLines? false rest with
      | ',' :: rest => parseItems? steps (item :: items) rest
      | ']' :: rest => return (.array .bracketed (item :: items).reverse, rest)
      | _ => none
termination_by structural steps

/-- Read the entries of a table in braces, after its brace or after a comma. -/
def parseFields? (steps : Nat) (entries : Entries) (cs : List Char) :
    Option (Value × List Char) :=
  match steps with
  | 0 => none
  | steps + 1 => do
    let (path, rest) ← parsePath? cs
    match rest with
    | '=' :: rest =>
      let (value, rest) ← parseValue? steps (skipSpaces rest)
      let entries ← entries.put? value path
      match skipSpaces rest with
      | ',' :: rest => parseFields? steps entries rest
      | '}' :: rest => return (.table .braced entries, rest)
      | _ => none
    | _ => none
termination_by structural steps

end

/-! ## Documents -/

/-- Read the entries of a section, up to the next header or the end. The count bounds the steps. -/
def parseBody? : Nat → Entries → List Char → Option (Entries × List Char)
  | 0, _, _ => none
  | steps + 1, entries, cs => do
    match ← skipLines? false cs with
    | [] => return (entries, [])
    | '[' :: rest => return (entries, '[' :: rest)
    | cs =>
      let (path, rest) ← parsePath? cs
      match rest with
      | '=' :: rest =>
        let (value, rest) ← parseValue? (rest.length + 1) (skipSpaces rest)
        let entries ← entries.put? value path
        if endsLine rest then parseBody? steps entries rest else none
      | _ => none

/-- Read a header, after its brackets: its path and the text after the closing brackets. -/
def parseHeader? (close : List Char) (cs : List Char) : Option (List String × List Char) := do
  let (path, rest) ← parsePath? cs
  if close.isPrefixOf rest && endsLine (rest.drop close.length) then
    return (path, rest.drop close.length)
  else none

/-- Read the sections of a document and add them to what was before them. The count bounds the
steps. -/
def parseSections? : Nat → Entries → List Char → Option Entries
  | 0, _, _ => none
  | steps + 1, entries, cs => do
    match cs with
    | '[' :: '[' :: rest =>
      let (path, rest) ← parseHeader? [']', ']'] rest
      let (body, rest) ← parseBody? (rest.length + 1) [] rest
      parseSections? steps (← entries.change? (Entries.headItem? body) path) rest
    | '[' :: rest =>
      let (path, rest) ← parseHeader? [']'] rest
      let (body, rest) ← parseBody? (rest.length + 1) [] rest
      parseSections? steps (← entries.change? (Entries.headTable? body) path) rest
    | _ => return entries

/-- Read a document. A byte order mark at its start is dropped. -/
def parse? (text : List Char) : Option Entries := do
  let text := match text with
    | '\ufeff' :: rest => unifyLines rest
    | text => unifyLines text
  let (entries, rest) ← parseBody? (text.length + 1) [] text
  parseSections? (rest.length + 1) entries rest

end Highlighter.Toml
