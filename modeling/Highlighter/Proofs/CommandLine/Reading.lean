import Highlighter.CommandLine

/-!
# Reading what the command prints

A line of the output has four fields with tabs between them: two
offsets, the name of a style, and an excerpt of the text, in which some
characters are written as escapes. `Line.ofText?` reads a line back, and
`readOutput?` reads all of an output.

* `unescape?_excerpt`: the escapes of an excerpt can be undone, for
  every character there is.
* `ofText?_runLine`: a line that is printed for a run is read back, as
  long as its style is no embedding. The name of an embedding could have
  a tab in it.
* `readOutput?_output`: so is an output, line by line.

Nothing that is printed in a field is a tab or the end of a line, since
all of it is printable ASCII (`Printable`). This is why the fields and
the lines can be told apart.
-/

set_option autoImplicit false

namespace Highlighter.CommandLine

/-! ### Hexadecimal numbers -/

theorem hexValue?_digitChar {digit : Nat} (h : digit < 16) :
    hexValue? digit.digitChar = some digit := by
  revert digit
  decide

theorem exists_of_mem_toDigits {number : Nat} {c : Char} (h : c ∈ Nat.toDigits 16 number) :
    ∃ digit < 16, c = digit.digitChar := by
  induction number using Nat.strongRecOn with
  | ind number ih =>
    rw [Nat.toDigits_eq_if (by decide)] at h
    split at h
    · rename_i hlt
      exact ⟨number, hlt, List.mem_singleton.mp h⟩
    · rcases List.mem_append.mp h with hfront | hlast
      · exact ih (number / 16) (by omega) hfront
      · exact ⟨number % 16, Nat.mod_lt _ (by decide), List.mem_singleton.mp hlast⟩

theorem hexNumber?_of_ne_nil {digits : List Char} (h : digits ≠ []) :
    hexNumber? digits
      = digits.foldlM (fun value c => do return 16 * value + (← hexValue? c)) 0 := by
  cases digits with
  | nil => exact absurd rfl h
  | cons c digits => rfl

/-- One more digit at the end of a hexadecimal number. -/
theorem hexNumber?_concat {digits : List Char} {value digit : Nat}
    (h : hexNumber? digits = some value) (hdigit : digit < 16) :
    hexNumber? (digits ++ [digit.digitChar]) = some (16 * value + digit) := by
  have hne : digits ≠ [] := by
    rintro rfl
    cases h
  rw [hexNumber?_of_ne_nil hne] at h
  rw [hexNumber?_of_ne_nil (by simp), List.foldlM_append, h]
  simp [hexValue?_digitChar hdigit]

/-- A hexadecimal number is the value of its digits. -/
theorem hexNumber?_toDigits (number : Nat) :
    hexNumber? (Nat.toDigits 16 number) = some number := by
  induction number using Nat.strongRecOn with
  | ind number ih =>
    rw [Nat.toDigits_eq_if (by decide)]
    split
    · rename_i hlt
      simp [hexNumber?, hexValue?_digitChar hlt]
    · rw [hexNumber?_concat (ih (number / 16) (by omega)) (Nat.mod_lt _ (by decide))]
      exact congrArg some (Nat.div_add_mod number 16)

theorem charOfCode?_toNat (c : Char) : charOfCode? c.toNat = some c := by
  have hvalid : c.toNat.isValidChar := c.valid
  unfold charOfCode?
  rw [if_pos hvalid, Char.ofNat_toNat]

/-! ### Escapes -/

/-- Where a reader of escaped text is. -/
inductive EscapeState where
  /-- Outside of all escapes. -/
  | outside
  /-- After a backslash. -/
  | begun
  /-- After a backslash and a `u`. -/
  | brace
  /-- Among the digits of a code, some of which have been read. -/
  | code (digits : List Char)

/-- The character that a letter after a backslash stands for. -/
def escaped? (letter : Char) : Option Char :=
  if letter = 't' then some '\t'
  else if letter = 'r' then some '\r'
  else if letter = 'n' then some '\n'
  else if letter = '\'' ∨ letter = '"' ∨ letter = '\\' then some letter
  else none

/-- Whether a character is printable ASCII. -/
def isPrintable (c : Char) : Bool := ' ' ≤ c && c ≤ '~'

/-- Whether a character stands for itself in escaped text. -/
def isUnescaped (c : Char) : Bool := isPrintable c && !(c == '\'' || c == '"' || c == '\\')

/-- Undo the escapes in a text, from some place in it on. -/
def unescapeFrom? : EscapeState → List Char → Option (List Char)
  | .outside, [] => some []
  | _, [] => none
  | .outside, c :: rest =>
    if c = '\\' then unescapeFrom? .begun rest
    else if isUnescaped c then (unescapeFrom? .outside rest).map (c :: ·)
    else none
  | .begun, c :: rest =>
    if c = 'u' then unescapeFrom? .brace rest
    else (escaped? c).bind fun original => (unescapeFrom? .outside rest).map (original :: ·)
  | .brace, c :: rest => if c = '{' then unescapeFrom? (.code []) rest else none
  | .code digits, c :: rest =>
    if c = '}' then
      ((hexNumber? digits).bind charOfCode?).bind fun original =>
        (unescapeFrom? .outside rest).map (original :: ·)
    else unescapeFrom? (.code (digits ++ [c])) rest

/-- Undo the escapes in a text. -/
def unescape? (text : List Char) : Option (List Char) := unescapeFrom? .outside text

/-- The digits of a code are read up to the brace. -/
theorem unescapeFrom?_code {digits : List Char} (h : '}' ∉ digits) (before rest : List Char) :
    unescapeFrom? (.code before) (digits ++ '}' :: rest)
      = ((hexNumber? (before ++ digits)).bind charOfCode?).bind fun original =>
          (unescapeFrom? .outside rest).map (original :: ·) := by
  induction digits generalizing before with
  | nil =>
    rw [List.append_nil]
    rfl
  | cons c digits ih =>
    rw [List.mem_cons, not_or] at h
    rw [List.cons_append, unescapeFrom?, if_neg (Ne.symm h.1), ih h.2, List.append_assoc]
    rfl

/-- A character by its code is read back. -/
theorem unescapeFrom?_shownCode (c : Char) (rest : List Char) :
    unescapeFrom? .outside ((shownCode c).toList ++ rest)
      = (unescapeFrom? .outside rest).map (c :: ·) := by
  -- The brace that ends a code is not one of its digits.
  have hbrace : '}' ∉ Nat.toDigits 16 c.toNat := by
    intro hmem
    obtain ⟨digit, hdigit, heq⟩ := exists_of_mem_toDigits hmem
    have hvalue := hexValue?_digitChar hdigit
    rw [← heq] at hvalue
    cases hvalue
  have htext : (shownCode c).toList ++ rest
      = '\\' :: 'u' :: '{' :: (Nat.toDigits 16 c.toNat ++ '}' :: rest) := by
    simp [shownCode, hexText]
  rw [htext]
  -- Three characters lead from outside to the digits.
  show unescapeFrom? (.code []) _ = _
  rw [unescapeFrom?_code hbrace, List.nil_append, hexNumber?_toDigits, Option.bind_some,
    charOfCode?_toNat, Option.bind_some]

/-- Every character is read back from the way it is printed. -/
theorem unescapeFrom?_printedChar (c : Char) (rest : List Char) :
    unescapeFrom? .outside ((printedChar c).toList ++ rest)
      = (unescapeFrom? .outside rest).map (c :: ·) := by
  unfold printedChar
  split
  case h_7 hapostrophe hquote hbackslash =>
    split
    · -- Printable, and none of the characters with a meaning of their own.
      rename_i hprintable
      have hunescaped : isUnescaped c = true := by
        simp only [isUnescaped, isPrintable, hprintable, Bool.true_and, Bool.not_eq_true',
          Bool.or_eq_false_iff, beq_eq_false_iff_ne, ne_eq]
        exact ⟨⟨hapostrophe, hquote⟩, hbackslash⟩
      rw [String.toList_singleton, List.singleton_append, unescapeFrom?, if_neg hbackslash,
        if_pos hunescaped]
    · exact unescapeFrom?_shownCode c rest
  all_goals rfl

/-- The escapes of an excerpt can be undone: what comes out is the start
of the text. -/
theorem unescape?_excerpt (text : List Char) :
    unescape? (excerpt text).toList = some (text.take 40) := by
  unfold unescape? excerpt
  rw [String.toList_join, show excerptLength = 40 from rfl]
  induction text.take 40 with
  | nil => rfl
  | cons c rest ih =>
    rw [List.map_cons, List.flatMap_cons, unescapeFrom?_printedChar, ih]
    rfl

example : unescape? "caf\\u\x7be9\x7d\\n\\\\".toList = some ['c', 'a', 'f', 'é', '\n', '\\'] := by
  decide

/-! ### Fields -/

/-- Whether all characters of a text are printable. -/
def Printable (text : List Char) : Prop := ∀ c ∈ text, isPrintable c = true

namespace Printable

variable {first second text : List Char} {c : Char}

/-- The characters of a given text can be looked at one by one. -/
theorem of_all (h : text.all isPrintable = true) : Printable text := List.all_eq_true.mp h

/-- A character that is not printable is not in the text, such as a tab
or the end of a line. -/
theorem not_mem (h : Printable text) (hc : isPrintable c = false) : c ∉ text := by
  intro hmem
  rw [h c hmem] at hc
  cases hc

theorem append (hfirst : Printable first) (hsecond : Printable second) :
    Printable (first ++ second) :=
  List.forall_mem_append.mpr ⟨hfirst, hsecond⟩

end Printable

theorem printable_toDigits (number : Nat) : Printable (Nat.toDigits 10 number) := by
  intro c hc
  have hdigit := Nat.isDigit_of_mem_toDigits (by decide) (by decide) hc
  simp only [Char.isDigit, Bool.and_eq_true, decide_eq_true_eq] at hdigit
  simp only [isPrintable, Bool.and_eq_true, decide_eq_true_eq, Char.le_def]
  have hlow : ' '.val ≤ '0'.val := by decide
  have hhigh : '9'.val ≤ '~'.val := by decide
  exact ⟨UInt32.le_trans hlow hdigit.1, UInt32.le_trans hdigit.2 hhigh⟩

/-- The name of a style is printable, unless it says which language is
embedded. -/
theorem printable_display {style : Style} (h : style.isEmbedded = false) :
    Printable style.display.toList := by
  cases style with
  | embedded language => cases h
  | _ => exact .of_all (by decide)

theorem printable_shownCode (c : Char) : Printable (shownCode c).toList := by
  have hdigits : Printable (Nat.toDigits 16 c.toNat) := by
    intro d hd
    obtain ⟨digit, hdigit, rfl⟩ := exists_of_mem_toDigits hd
    have hall : ∀ digit < 16, isPrintable (Nat.digitChar digit) = true := by decide
    exact hall digit hdigit
  have htext : (shownCode c).toList
      = ['\\', 'u', '{'] ++ (Nat.toDigits 16 c.toNat ++ ['}']) := by
    simp [shownCode, hexText]
  have hopen : Printable ['\\', 'u', '{'] := .of_all (by decide)
  have hclose : Printable ['}'] := .of_all (by decide)
  rw [htext]
  exact hopen.append (hdigits.append hclose)

theorem printable_printedChar (c : Char) : Printable (printedChar c).toList := by
  unfold printedChar
  split
  case h_7 =>
    split
    · rename_i hprintable
      intro d hd
      rw [String.toList_singleton, List.mem_singleton] at hd
      rw [hd]
      exact hprintable
    · exact printable_shownCode c
  all_goals exact .of_all (by decide)

theorem printable_excerpt (text : List Char) : Printable (excerpt text).toList := by
  unfold excerpt
  rw [String.toList_join]
  intro c hc
  obtain ⟨shown, hshown, hmem⟩ := List.mem_flatMap.mp hc
  obtain ⟨original, -, rfl⟩ := List.mem_map.mp hshown
  exact printable_printedChar original c hmem

/-! ### Lines -/

/-- What a line of the output says: a run, and how its text begins. -/
structure Line where
  run : Run
  excerpt : List Char
  deriving DecidableEq, Repr

/-- The number that some digits write. -/
def number? (digits : List Char) : Option Nat :=
  if digits ≠ [] ∧ digits.all Char.isDigit then some (Nat.ofDigitChars 10 digits 0) else none

theorem number?_toDigits (number : Nat) : number? (Nat.toDigits 10 number) = some number := by
  have hdigits : (Nat.toDigits 10 number).all Char.isDigit = true :=
    List.all_eq_true.mpr fun c hc => Nat.isDigit_of_mem_toDigits (by decide) (by decide) hc
  rw [number?, if_pos ⟨Nat.toDigits_ne_nil, hdigits⟩, Nat.ofDigitChars_ten_toDigits]

/-- Read a line: four fields with tabs between them. -/
def Line.ofText? (text : List Char) : Option Line :=
  match text.splitOn '\t' with
  | [start, stop, style, excerpt] => do
    let start ← number? start
    let stop ← number? stop
    let style ← Style.ofName? (String.ofList style)
    let excerpt ← unescape? excerpt
    return ⟨⟨start, stop, style⟩, excerpt⟩
  | _ => none

/-- Read an output: lines, each of which is ended. -/
def readOutput? (text : String) : Option (List Line) :=
  let pieces := text.toList.splitOn '\n'
  if pieces.getLast? = some [] then pieces.dropLast.mapM Line.ofText? else none

/-- The text of a run, as the command cuts it out of the source. -/
def runText (source : List Char) (run : Run) : List Char :=
  if h : run.start ≤ run.stop then
    ((Text.cut? ⟨run.start, run.stop, h⟩ source).map Text.Cut.body).getD []
  else []

/-- What the line for a run says. -/
def Line.ofRun (source : List Char) (run : Run) : Line := ⟨run, (runText source run).take 40⟩

/-- The fields of the line for a run. -/
def runFields (source : List Char) (run : Run) : List (List Char) :=
  [Nat.toDigits 10 run.start, Nat.toDigits 10 run.stop, run.style.display.toList,
    (excerpt (runText source run)).toList]

theorem toList_runLine (source : List Char) (run : Run) :
    (runLine source run).toList = ['\t'].intercalate (runFields source run) ++ ['\n'] := by
  have hline : runLine source run = String.intercalate "\t"
      [toString run.start, toString run.stop, run.style.display, excerpt (runText source run)]
        ++ "\n" := rfl
  rw [hline, String.toList_append, String.toList_intercalate]
  simp [runFields]

variable (source : List Char) {run : Run}

theorem printable_of_mem_runFields (h : run.style.isEmbedded = false) :
    ∀ field ∈ runFields source run, Printable field := by
  simp only [runFields, List.forall_mem_cons]
  exact ⟨printable_toDigits _, printable_toDigits _, printable_display h, printable_excerpt _,
    fun _ hmem => nomatch hmem⟩

/-- The fields of a line are read back. -/
theorem ofText?_runFields (h : run.style.isEmbedded = false) :
    Line.ofText? (['\t'].intercalate (runFields source run)) = some (.ofRun source run) := by
  have hfields := printable_of_mem_runFields source h
  have hsplit : (['\t'].intercalate (runFields source run)).splitOn '\t' = runFields source run :=
    List.splitOn_intercalate '\t' (fun field hmem => (hfields field hmem).not_mem (by decide))
      (by simp [runFields])
  unfold Line.ofText?
  rw [hsplit]
  -- There are four fields, and each reader undoes its writer.
  simp only [runFields, number?_toDigits, String.ofList_toList, Style.ofName?_display,
    unescape?_excerpt, Option.bind_eq_bind, Option.bind_some, Option.pure_def]
  rfl

/-- What is no separator and in no field is not between fields
either. -/
theorem notMem_intercalate {separator c : Char} {fields : List (List Char)} (hc : c ≠ separator)
    (h : ∀ field ∈ fields, c ∉ field) : c ∉ [separator].intercalate fields := by
  induction fields with
  | nil => simp
  | cons field fields ih =>
    obtain ⟨hfield, hfields⟩ := List.forall_mem_cons.mp h
    -- The separator is there only if another field comes after it.
    cases fields with
    | nil => simpa [List.intercalate] using hfield
    | cons second others =>
      rw [List.intercalate_cons_of_ne_nil (List.cons_ne_nil _ _)]
      simp only [List.mem_append, List.mem_singleton, not_or]
      exact ⟨⟨hfield, hc⟩, ih hfields⟩

/-- A line is read back, and does not end before its end. -/
theorem exists_runLine (h : run.style.isEmbedded = false) :
    ∃ text, (runLine source run).toList = text ++ ['\n'] ∧ '\n' ∉ text ∧
      Line.ofText? text = some (.ofRun source run) := by
  have hfields := printable_of_mem_runFields source h
  exact ⟨_, toList_runLine source run,
    notMem_intercalate (by decide) fun field hmem => (hfields field hmem).not_mem (by decide),
    ofText?_runFields source h⟩

/-- Cut at the ends of its lines, an output gives the lines, and nothing
after the last one. -/
theorem exists_splitOn_join {runs : List Run} (h : ∀ run ∈ runs, run.style.isEmbedded = false) :
    ∃ texts, (String.join (runs.map (runLine source))).toList.splitOn '\n' = texts ++ [[]] ∧
      texts.mapM Line.ofText? = some (runs.map (.ofRun source)) := by
  induction runs with
  | nil => exact ⟨[], rfl, rfl⟩
  | cons run runs ih =>
    obtain ⟨hrun, hruns⟩ := List.forall_mem_cons.mp h
    obtain ⟨text, htext, hnewline, hread⟩ := exists_runLine source hrun
    obtain ⟨texts, hsplit, hreads⟩ := ih hruns
    refine ⟨text :: texts, ?_, ?_⟩
    · rw [List.map_cons, String.join_cons, String.toList_append, htext, List.append_assoc,
        List.singleton_append, List.splitOn_append_cons_self_of_not_mem hnewline, hsplit]
      rfl
    · rw [List.mapM_cons, hread, hreads]
      rfl

/-- An output is read back: it has one line for each run of the
stream. -/
theorem readOutput?_output {stream : Stream}
    (h : ∀ run ∈ stream.runs 0 (Text.byteSize source), run.style.isEmbedded = false) :
    readOutput? (output source stream)
      = some ((stream.runs 0 (Text.byteSize source)).map (.ofRun source)) := by
  obtain ⟨texts, hsplit, hreads⟩ := exists_splitOn_join source h
  -- The output ends with the end of a line, so the last piece is empty.
  unfold readOutput? output
  simp only [hsplit, List.getLast?_concat, if_true, List.dropLast_concat, hreads]

example : readOutput? "0\t2\tkwd\tif\n2\t5\tpln\t\\n\\t \n"
    = some [⟨⟨0, 2, .keyword⟩, ['i', 'f']⟩, ⟨⟨2, 5, .plain⟩, ['\n', '\t', ' ']⟩] := by
  decide +kernel

end Highlighter.CommandLine
