import Highlighter.Unicode.Char

/-!
# What can go wrong

A `GrammarError` is a fault of a grammar or of its registration. A `Failure` is that, or a source
that could not be matched or read. `message` gives the text that is shown for each.

A character is shown between single quotes. What cannot be told apart by sight is shown by its
code: controls, and marks that would join the quote before them.
-/

set_option autoImplicit false

namespace Highlighter

/-- The digits of a number to the base 16. -/
def hexText (code : Nat) : String := String.ofList (Nat.toDigits 16 code)

/-- A character by its code, in braces. -/
def shownCode (c : Char) : String := "\\u\x7b" ++ hexText c.toNat ++ "\x7d"

/-- A character as it is shown between single quotes. -/
def shownChar (c : Char) : String :=
  let body :=
    match c with
    | '\x00' => "\\0"
    | '\t' => "\\t"
    | '\r' => "\\r"
    | '\n' => "\\n"
    | '\'' => "\\'"
    | '\\' => "\\\\"
    | c =>
      if Unicode.isGraphemeExtend c.toNat || !Unicode.isPrintable c.toNat then shownCode c
      else String.singleton c
  "'" ++ body ++ "'"

/-- A fault of a grammar or of its registration. -/
inductive GrammarError where
  /-- A pattern whose anchors hold at line ends cannot be joined with others. -/
  | multilinePattern (pattern : String)
  /-- Two rules of different styles name one character. -/
  | conflictingShortcut (c : Char) (first second : String)
  | duplicateLanguage (id : String)
  | unknownLanguage (id : String)
  | invalidPattern (pattern : String)
  | unknownStyle (style : String)
  /-- A grammar file that names no language. -/
  | noLanguage
  | malformedFile
  deriving DecidableEq, Repr

/-- The text that is shown for a fault. -/
def GrammarError.message : GrammarError → String
  | multilinePattern pattern =>
    "pattern /" ++ pattern ++ "/ uses multiline mode and cannot join a single-pass tokenizer"
  | conflictingShortcut c first second =>
    "shortcut character " ++ shownChar c ++ " is claimed by rules styled `" ++ first ++ "` and `" ++
      second ++ "`"
  | duplicateLanguage id => "language `" ++ id ++ "` is already registered"
  | unknownLanguage id => "no grammar registered for `" ++ id ++ "`"
  | invalidPattern pattern => "invalid pattern /" ++ pattern ++ "/: it cannot be read"
  | unknownStyle style => "unknown style `" ++ style ++ "`"
  | noLanguage => "malformed grammar file: `ids` must name at least one language"
  | malformedFile => "malformed grammar file: it cannot be read"

/-- Why an operation failed. -/
inductive Failure where
  | config (error : GrammarError)
  /-- A match was given up, since it had to retry too often. -/
  | retriesExhausted
  /-- A token is embedded as a whole, over and over. -/
  | endlessEmbedding
  | missingFile
  | notUtf8
  deriving DecidableEq, Repr

namespace Failure

/-- Whether a failure is the fault of a grammar or of its registration. -/
def isConfig : Failure → Bool
  | config _ => true
  | _ => false

/-- The text that is shown for a failure. -/
def message : Failure → String
  | config error => "configuration error: " ++ error.message
  | retriesExhausted =>
    "matching failed while decorating: Error executing regex: " ++
      "Max limit for backtracking count exceeded"
  | endlessEmbedding => "matching failed while decorating: the embedding never ends"
  | missingFile => "I/O error: No such file or directory (os error 2)"
  | notUtf8 => "I/O error: stream did not contain valid UTF-8"

end Failure

end Highlighter
