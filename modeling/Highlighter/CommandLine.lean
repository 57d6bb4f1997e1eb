import Highlighter.Embedding
import Highlighter.GrammarFile
import Highlighter.Languages.Builtin

/-!
# The command

The command prints the parts of a source, one in a line: where the part starts, where it ends, its
style, and how its text begins. `Request.ofArguments` reads the arguments, and `Request.outcome`
says what the command prints, given the files that it asks for.
-/

set_option autoImplicit false

namespace Highlighter.CommandLine

/-- What the command is to work on. -/
structure Options where
  /-- The identifier of the language. -/
  lang : Option String := none
  /-- The grammar files to be registered. -/
  grammars : List String := []
  /-- The file with the source, if it is not the input of the command. -/
  file : Option String := none
  deriving DecidableEq, Repr

/-- What the command is asked for. -/
inductive Request where
  | help
  | version
  | highlight (options : Options)
  deriving DecidableEq, Repr

/-- Read arguments. A later one replaces an earlier one of its kind, except that grammar files add
up. An option that lacks its value at the end sets no language and adds no file. -/
def Request.ofArgumentsAfter (options : Options) : List String → Request
  | [] => .highlight options
  | argument :: rest =>
    if argument = "--help" ∨ argument = "-h" then .help
    else if argument = "--version" ∨ argument = "-V" then .version
    else if argument = "--lang" ∨ argument = "-l" then
      match rest with
      | lang :: rest => ofArgumentsAfter { options with lang := some lang } rest
      | [] => .highlight { options with lang := none }
    else if argument = "--grammar" ∨ argument = "-g" then
      match rest with
      | path :: rest =>
        ofArgumentsAfter { options with grammars := options.grammars ++ [path] } rest
      | [] => .highlight options
    else if argument = "-" then ofArgumentsAfter { options with file := none } rest
    else ofArgumentsAfter { options with file := some argument } rest

/-- Read the arguments of the command. -/
def Request.ofArguments (arguments : List String) : Request := ofArgumentsAfter {} arguments

/-- The name and version of the command. -/
def versionText : String := "codelex 0.1.0"

/-- What the command prints when it is asked for help. -/
def helpText : String :=
  String.intercalate "\n"
    [versionText ++ " - data-driven lexical highlighter",
     "",
     "Usage: codelex [OPTIONS] [FILE]",
     "",
     "Reads FILE (or standard input) and prints one line per style run:",
     "start offset, end offset, style and the start of the run's text.",
     "",
     "Options:",
     "  -l, --lang ID        Language identifier (default: file extension, then a guess)",
     "  -g, --grammar FILE   Register a TOML grammar file (repeatable)",
     "  -h, --help           Show this help message",
     "  -V, --version        Show version information",
     "",
     "Set RUST_LOG (e.g. RUST_LOG=codelex=debug) to log grammar compilation.",
     ""]

/-! ## Lines of output -/

/-- How many characters of a part are printed at most. -/
def excerptLength : Nat := 40

/-- A character as it is printed: ASCII as it is, except for controls, quotes and the backslash. -/
def printedChar (c : Char) : String :=
  match c with
  | '\t' => "\\t"
  | '\r' => "\\r"
  | '\n' => "\\n"
  | '\'' => "\\'"
  | '"' => "\\\""
  | '\\' => "\\\\"
  | c => if ' ' ≤ c && c ≤ '~' then String.singleton c else shownCode c

/-- How the text of a part begins. -/
def excerpt (text : List Char) : String :=
  String.join ((text.take excerptLength).map printedChar)

/-- The line for a part of a source. -/
def runLine (source : List Char) (run : Run) : String :=
  let text :=
    if h : run.start ≤ run.stop then
      ((Text.cut? ⟨run.start, run.stop, h⟩ source).map Text.Cut.body).getD []
    else []
  String.intercalate "\t"
    [toString run.start, toString run.stop, run.style.display, excerpt text] ++ "\n"

/-- The lines for all parts of a source. -/
def output (source : List Char) (stream : Stream) : String :=
  String.join ((stream.runs 0 (Text.byteSize source)).map (runLine source))

/-! ## Running the command -/

/-- The last part of a path, which names a file. -/
def fileName? (path : String) : Option (List Char) :=
  let names := (path.toList.splitOn '/').filter fun name => name != [] && name != ['.']
  match names.getLast? with
  | some name => if name == ['.', '.'] then none else some name
  | none => none

/-- What follows the last dot in the name of a file, unless the dot comes first. -/
def extension? (path : String) : Option String := do
  let name ← fileName? path
  let ending := name.reverse.takeWhile (· != '.')
  if ending.length + 1 < name.length then some (String.ofList ending.reverse) else none

/-- The language that is asked for, or else the one that the name of the file tells. -/
def Options.language? (options : Options) : Option String :=
  options.lang <|> options.file.bind extension?

/-- Register grammar files, up to the first one that fails. -/
def registerFiles (registry : Registry) : List (Option ByteArray) → Except Failure Registry
  | [] => .ok registry
  | contents :: rest =>
    match registry.registerFile contents with
    | (.error failure, _) => .error failure
    | (.ok (), after) => registerFiles after rest

/-- What the command prints, given the contents of files and of its input. -/
def Options.output (options : Options) (files : String → Option ByteArray) (input : ByteArray) :
    Except Failure String := do
  let builtins ← Registry.withBuiltins.mapError Failure.config
  let registry ← registerFiles builtins (options.grammars.map files)
  let (compiled, registry) := registry.warmUp
  compiled.mapError Failure.config
  let source ← fileText (match options.file with
    | some path => files path
    | none => some input)
  let stream ← (registry.decorate options.language? source.toList 0).1
  return CommandLine.output source.toList stream

/-- What the command leaves behind. -/
structure Outcome where
  exitCode : Nat
  stdout : String
  stderr : String
  deriving DecidableEq, Repr

/-- What the command does, given the contents of files and of its input. -/
def Request.outcome (request : Request) (files : String → Option ByteArray) (input : ByteArray) :
    Outcome :=
  match request with
  | .help => ⟨0, helpText, ""⟩
  | .version => ⟨0, versionText ++ "\n", ""⟩
  | .highlight options =>
    match options.output files input with
    | .ok text => ⟨0, text, ""⟩
    | .error failure => ⟨1, "", "Error: " ++ failure.message ++ "\n"⟩

/-- The files that the command asks for. -/
def Request.paths : Request → List String
  | .highlight options => options.grammars ++ options.file.toList
  | _ => []

end Highlighter.CommandLine
