import Highlighter.Proofs.Regex.Regular.Meaning
import Highlighter.Regex.Regular.Parser

/-!
# Reading the text of an expression in the regular dialect

Where the regular dialect reads the text of an expression, what it
reads means what the expression means (`hasWays_of_parse`). The reader
may refuse the text, since look-around and references are not of this
dialect; it never reads something else.

The induction is on the expression. A row is read item by item up to
what follows (`ReadsRow`), and branches are read up to the end of their
group (`ReadsBranches`).
-/

set_option autoImplicit false

namespace Highlighter.Regex.Regular

open Pattern

/-! ### Single steps of the reader -/

theorem Reading.skipBlank_eq {reading : Reading} (h : reading.verbose = false) (cs : List Char) :
    skipBlank reading.verbose cs = cs := by
  rw [h]
  rfl

/-- Whether a character is read by itself, and not as a single piece. -/
def isMark (c : Char) : Bool := "|)([?*+\x7b".toList.contains c

/-- A row ends where its group ends. -/
theorem parseItems_end {steps : Nat} {reading : Reading} {items : List Ast} {rest : List Char}
    {result : List Ast × Reading × List Char} (hverbose : reading.verbose = false)
    (hrest : ∀ c ∈ rest.head?, c = ')' ∨ c = '|')
    (h : parseItems? steps reading items rest = some result) :
    result = (items.reverse, reading, rest) := by
  cases steps with
  | zero => cases h
  | succ steps =>
    rw [parseItems?, Reading.skipBlank_eq hverbose] at h
    cases rest with
    | nil =>
      cases h
      rfl
    | cons c rest =>
      rcases hrest c rfl with rfl | rfl
      · cases h
        rfl
      · cases h
        rfl

/-- A single piece is read. -/
theorem parseItems_piece {steps : Nat} {reading : Reading} {items : List Ast} {c : Char}
    {cs : List Char} {result : List Ast × Reading × List Char}
    (hverbose : reading.verbose = false) (hmark : isMark c = false)
    (h : parseItems? steps reading items (c :: cs) = some result) :
    ∃ steps' piece rest, parsePrimitive? false (c :: cs) = some (piece, rest) ∧
      parseItems? steps' reading (.primitive piece :: items) rest = some result := by
  have hne : ∀ d ∈ "|)([?*+\x7b".toList, c ≠ d := by
    rintro d hd rfl
    rw [isMark, List.contains_iff_mem.mpr hd] at hmark
    cases hmark
  cases steps with
  | zero => cases h
  | succ steps =>
    rw [parseItems?, Reading.skipBlank_eq hverbose] at h
    -- All other cases start with a mark.
    split at h
    case h_10 =>
      rw [hverbose] at h
      cases hpiece : parsePrimitive? false (c :: cs) with
      | none =>
        rw [hpiece] at h
        cases h
      | some found =>
        rw [hpiece] at h
        exact ⟨steps, found.1, found.2, rfl, h⟩
    all_goals
      rename_i heq
      cases heq
      try exact absurd rfl (hne _ (by decide))

/-- What is read after the opening of a group: its branches and its
closing parenthesis. -/
theorem parseItems_inside {steps : Nat} {verbose : Bool} {inside : Reading} {rest : List Char}
    {items : List Ast} {ast : Ast → Ast} {result : List Ast × Reading × List Char}
    (hverbose : verbose = false)
    (h : (do
      let (body, after, left) ← parseBranches? steps inside [] rest
      match left with
      | ')' :: left => parseItems? steps { after with verbose } (ast body :: items) left
      | _ => none) = some result) :
    ∃ steps' body after left, parseBranches? steps' inside [] rest = some (body, after, ')' :: left) ∧
      parseItems? steps' { after with verbose := false } (ast body :: items) left = some result := by
  cases hbody : parseBranches? steps inside [] rest with
  | none =>
    rw [hbody] at h
    cases h
  | some found =>
    obtain ⟨body, after, left⟩ := found
    rw [hbody] at h
    simp only [bind, Option.bind_some] at h
    split at h
    · rename_i left
      rw [hverbose] at h
      exact ⟨steps, body, after, left, hbody, h⟩
    · cases h

/-- A group is read. -/
theorem parseItems_group {steps : Nat} {reading inside : Reading} {items : List Ast}
    {cs rest : List Char} {kind : GroupKind} {result : List Ast × Reading × List Char}
    (hverbose : reading.verbose = false) (hinside : inside.verbose = false)
    (hplain : ∀ change, kind = .flagged change → change.value? .verbose = none)
    (hopening : parseOpening? reading cs = some (.group kind, inside, rest))
    (h : parseItems? steps reading items ('(' :: cs) = some result) :
    ∃ steps' start body after left, parseBranches? steps' inside [] rest
        = some (body, after, ')' :: left) ∧
      parseItems? steps' { after with verbose := false } (.group kind start body :: items) left
        = some result := by
  cases steps with
  | zero => cases h
  | succ steps =>
    have hwith : { inside with verbose := false } = inside := by
      rw [← hinside]
    rw [parseItems?, Reading.skipBlank_eq hverbose] at h
    simp only [hopening, bind, Option.bind_some] at h
    cases kind with
    | capturing index name =>
      simp only [hverbose, hwith] at h
      obtain ⟨steps', body, after, left, hbody, hleft⟩ := parseItems_inside rfl h
      exact ⟨steps', _, body, after, left, hbody, hleft⟩
    | flagged change =>
      simp only [hplain change rfl, Option.getD_none, hverbose, hwith] at h
      obtain ⟨steps', body, after, left, hbody, hleft⟩ := parseItems_inside rfl h
      exact ⟨steps', _, body, after, left, hbody, hleft⟩

/-- A class is read. -/
theorem parseItems_bracket {steps : Nat} {reading : Reading} {items : List Ast}
    {body rest : List Char} {result : List Ast × Reading × List Char}
    (hverbose : reading.verbose = false) (hbody : isClassBody body = true)
    (h : parseItems? steps reading items ('[' :: (body ++ ']' :: rest)) = some result) :
    ∃ steps' set place, regularClass? body = some set ∧
      parseItems? steps' reading (.bracket set place :: items) rest = some result := by
  cases steps with
  | zero => cases h
  | succ steps =>
    rw [parseItems?, Reading.skipBlank_eq hverbose] at h
    simp only [hverbose, parseClass_body hbody, bind] at h
    cases hset : regularClass? body with
    | none =>
      rw [hset] at h
      cases h
    | some set =>
      rw [hset] at h
      exact ⟨steps, set, _, rfl, h⟩

/-! ### Escapes -/

theorem unescaped_of_isEscapable {c : Char} (h : isEscapable c = true) : unescaped c = c := by
  unfold unescaped
  split <;> first
    | rfl
    | exact absurd h (by decide)

theorem variants_of_isEscapable {c : Char} (h : isEscapable c = true) :
    Unicode.variants c.toNat = [c.toNat] := by
  unfold isEscapable at h
  simp only [Bool.and_eq_true, Bool.not_eq_true', decide_eq_true_eq] at h
  obtain ⟨⟨⟨hascii, halnum⟩, -⟩, -⟩ := h
  change (decide (c.val ≥ 'A'.val ∧ c.val ≤ 'Z'.val) ||
    (decide (c.val ≥ 'a'.val) && decide (c.val ≤ 'z'.val)) || c.isDigit) = false at halnum
  simp only [Bool.or_eq_false_iff, decide_eq_false_iff_not] at halnum
  obtain ⟨⟨hupper, hlower⟩, -⟩ := halnum
  refine Unicode.variants_of_not_alpha (UInt32.lt_iff_toNat_lt.mp hascii) ?_ ?_
  · rintro ⟨hle, hle'⟩
    exact hupper ⟨UInt32.le_iff_toNat_le.mpr hle, UInt32.le_iff_toNat_le.mpr hle'⟩
  · rintro ⟨hle, hle'⟩
    rw [Bool.and_eq_false_iff, decide_eq_false_iff_not, decide_eq_false_iff_not] at hlower
    rcases hlower with hlower | hlower
    · exact hlower (UInt32.le_iff_toNat_le.mpr hle)
    · exact hlower (UInt32.le_iff_toNat_le.mpr hle')

/-- Escapes that the dialect reads stand for a character without case
variants. -/
theorem parseEscape_escaped {c : Char} (h : isEscape c = true) {rest left : List Char}
    {piece : Primitive} (hread : parseEscape? false (c :: rest) = some (piece, left)) :
    piece = .literal (unescaped c) false ∧ left = rest ∧
      Unicode.variants (unescaped c).toNat = [(unescaped c).toNat] := by
  unfold parseEscape? at hread
  simp only at hread
  split at hread
  case h_24 =>
    split at hread
    · rename_i hescapable
      cases hread
      rw [unescaped_of_isEscapable hescapable]
      exact ⟨rfl, rfl, variants_of_isEscapable hescapable⟩
    · cases hread
  all_goals first
    | (cases hread; exact ⟨rfl, rfl, by decide +kernel⟩)
    | exact absurd h (by decide)

/-- A number is no escape of this dialect. -/
theorem parseEscape_digit {c : Char} (h : c.isDigit = true) (rest : List Char) :
    parseEscape? false (c :: rest) = none := by
  unfold parseEscape?
  simp only
  split <;> first
    | exact absurd h (by decide)
    | skip
  rw [if_neg]
  rw [isEscapable, Char.isAlphanum, h]
  simp

/-! ### Codes -/

theorem parseHexDigits_append {digits : List Char} (h : ∀ c ∈ digits, isHexDigit c = true)
    (value : Nat) (rest : List Char) :
    parseHexDigits? false digits.length value (digits ++ rest)
      = (digits.foldlM (fun value c => do return 16 * value + (← hexValue? c)) value).map
          (·, rest) := by
  induction digits generalizing value with
  | nil => rfl
  | cons c digits ih =>
    have hrest := ih (fun d hd => h d (List.mem_cons_of_mem c hd))
    obtain ⟨digit, hdigit⟩ := Option.isSome_iff_exists.mp (h c List.mem_cons_self)
    simp only [List.length_cons, List.cons_append, parseHexDigits?, hdigit, bind, Option.bind_some,
      skipBlank_false, List.foldlM_cons, hrest]
    rfl

/-- A code is read as the character that it gives. -/
theorem parseCode_codeText {letter : Char} {braced : Bool} {digits : List Char}
    (h : (Expr.coded letter braced digits).WellFormed) (rest : List Char) {piece : Primitive}
    {left : List Char}
    (hread : parseCode? false (codeWidth letter) (codeText braced digits ++ rest)
      = some (piece, left)) :
    ∃ c byte, coded? digits = some c ∧ piece = .literal c byte ∧ left = rest := by
  obtain ⟨⟨-, hne, hhex⟩, hwidth⟩ := h
  have hbrace : '}' ∉ digits := fun hmem => absurd (hhex '}' hmem) (by decide)
  -- Whichever way the code is written, it is read if it is that of a character.
  have hchar : ∀ {byte : Bool} {code : Nat}, hexNumber? digits = some code →
      ((charOfCode? code).bind fun c => some (Primitive.literal c byte, rest)) = some (piece, left) →
      ∃ c byte, coded? digits = some c ∧ piece = .literal c byte ∧ left = rest := by
    intro byte code hcode hfound
    cases hc : charOfCode? code with
    | none =>
      rw [hc] at hfound
      cases hfound
    | some c =>
      rw [hc] at hfound
      cases hfound
      exact ⟨c, byte, by rw [coded?, hcode, Option.bind_some, hc], rfl, rfl⟩
  cases braced with
  | true =>
    have hshape : codeText true digits ++ rest = '{' :: (digits ++ '}' :: rest) := by
      simp [codeText]
    have hinner := untilBrace_inner hbrace rest
      (show digits.length < (digits ++ '}' :: rest).length + 1 by
        rw [List.length_append]; omega)
    rw [hshape, parseCode?, skipBlank_false] at hread
    simp only [hinner, bind, Option.bind_some] at hread
    cases hcode : hexNumber? digits with
    | none =>
      rw [hcode] at hread
      cases hread
    | some code =>
      rw [hcode] at hread
      exact hchar hcode hread
  | false =>
    obtain ⟨d, others, rfl⟩ := List.exists_cons_of_ne_nil hne
    have hopen : d ≠ '{' := by
      rintro rfl
      exact absurd (hhex '{' List.mem_cons_self) (by decide)
    have hnumber : hexNumber? (d :: others)
        = (d :: others).foldlM (fun value c => do return 16 * value + (← hexValue? c)) 0 := rfl
    have hdigits := parseHexDigits_append hhex 0 rest
    rw [hwidth rfl, ← hnumber] at hdigits
    rw [show codeText false (d :: others) ++ rest = d :: (others ++ rest) from rfl, parseCode?,
      skipBlank_false] at hread
    split at hread
    · rename_i heq
      exact absurd (List.cons.inj heq).1 hopen
    · rw [show d :: (others ++ rest) = d :: others ++ rest from rfl, hdigits] at hread
      cases hcode : hexNumber? (d :: others) with
      | none =>
        rw [hcode] at hread
        cases hread
      | some code =>
        rw [hcode] at hread
        exact hchar hcode hread

/-! ### Counts -/

theorem countDigits_eq {steps : Nat} {cs : List Char} (h : cs.length < steps) :
    countDigits false steps cs = (cs.takeWhile Char.isDigit, cs.dropWhile Char.isDigit) := by
  induction steps generalizing cs with
  | zero => cases h
  | succ steps ih =>
    cases cs with
    | nil => rfl
    | cons c rest =>
      by_cases hc : c.isDigit = true
      · rw [countDigits, if_pos hc, List.takeWhile_cons_of_pos hc, List.dropWhile_cons_of_pos hc,
          skipBlank_false, ih (Nat.lt_of_succ_lt_succ h)]
      · rw [countDigits, if_neg hc, List.takeWhile_cons_of_neg hc, List.dropWhile_cons_of_neg hc]

theorem isBlank_of_isDigit {c : Char} (h : c.isDigit = true) : isBlank c = false := by
  unfold Char.isDigit at h
  simp only [Bool.and_eq_true, decide_eq_true_eq] at h
  obtain ⟨hle, hle'⟩ := h
  have hlow : 48 ≤ c.toNat := UInt32.le_iff_toNat_le.mp hle
  have hhigh : c.toNat ≤ 57 := UInt32.le_iff_toNat_le.mp hle'
  have hall : ∀ code, 48 ≤ code → code ≤ 57 →
      Unicode.inRanges Unicode.Ranges.whiteSpace code = false := by
    intro code hcode hcode'
    have hcases : code = 48 ∨ code = 49 ∨ code = 50 ∨ code = 51 ∨ code = 52 ∨ code = 53 ∨
        code = 54 ∨ code = 55 ∨ code = 56 ∨ code = 57 := by omega
    rcases hcases with rfl | rfl | rfl | rfl | rfl | rfl | rfl | rfl | rfl | rfl <;> decide
  exact hall c.toNat hlow hhigh

/-- A count is read up to what is no digit. -/
theorem parseCount_toDigits {c : Char} (hdigit : c.isDigit = false) (hblank : isBlank c = false)
    (number : Nat) (rest : List Char) :
    parseCount? false (Nat.toDigits 10 number ++ c :: rest)
      = if number ≤ maxCount then some (some number, c :: rest) else none := by
  have hrest : ∀ d ∈ (c :: rest).head?, d.isDigit = false := by
    rintro d ⟨⟩
    exact hdigit
  obtain ⟨digit, digits, hdigits, hfirst⟩ := head_toDigits number
  have hstart : (Nat.toDigits 10 number ++ c :: rest).dropWhile isBlank
      = Nat.toDigits 10 number ++ c :: rest := by
    rw [hdigits, List.cons_append, List.dropWhile_cons_of_neg]
    rw [isBlank_of_isDigit hfirst]
    exact Bool.false_ne_true
  have hend : (c :: rest).dropWhile isBlank = c :: rest := by
    rw [List.dropWhile_cons_of_neg]
    rw [hblank]
    exact Bool.false_ne_true
  have hvalue := foldl_toDigits number
  have htake := takeWhile_toDigits number hrest
  simp only [parseCount?, hstart, countDigits_eq (Nat.lt_succ_self _), htake,
    dropWhile_toDigits number hrest, hend, skipBlank_false]
  rw [hdigits] at hvalue ⊢
  simp only [hvalue]

theorem parseBounds_exactly {number : Nat} {rest : List Char}
    {found : Nat × Option Nat × List Char}
    (h : parseBounds? false (Nat.toDigits 10 number ++ '}' :: rest) = some found) :
    found = (number, some number, rest) := by
  simp only [parseBounds?, skipBlank_false, parseCount_toDigits (c := '}') (by decide) (by decide)] at h
  split at h
  · cases h
    rfl
  · cases h

theorem parseBounds_atLeast {min : Nat} {rest : List Char} {found : Nat × Option Nat × List Char}
    (h : parseBounds? false (Nat.toDigits 10 min ++ ',' :: '}' :: rest) = some found) :
    found = (min, none, rest) := by
  simp only [parseBounds?, skipBlank_false, parseCount_toDigits (c := ',') (by decide) (by decide)] at h
  split at h
  · cases h
    rfl
  · cases h

theorem parseBounds_between {min max : Nat} {rest : List Char}
    {found : Nat × Option Nat × List Char}
    (h : parseBounds? false (Nat.toDigits 10 min ++ ',' :: (Nat.toDigits 10 max ++ '}' :: rest))
      = some found) :
    found = (min, some max, rest) := by
  obtain ⟨digit, digits, hdigits, hfirst⟩ := head_toDigits max
  simp only [parseBounds?, skipBlank_false, parseCount_toDigits (c := ',') (by decide) (by decide)] at h
  split at h
  · simp only [bind, Option.bind_some] at h
    split at h
    · rename_i heq
      rw [hdigits] at heq
      cases heq
      exact absurd hfirst (by decide)
    · rw [parseCount_toDigits (c := '}') (by decide) (by decide)] at h
      split at h
      · simp only [Option.bind_some] at h
        split at h
        · cases h
          rfl
        · cases h
      · cases h
  · cases h

/-- What is repeated gets its count. -/
theorem parseItems_count {steps : Nat} {reading : Reading} {item : Ast} {items : List Ast}
    {count : Count} {greedy : Bool} {rest : List Char} {result : List Ast × Reading × List Char}
    (hverbose : reading.verbose = false) (hrest : ∀ c ∈ rest.head?, isCountStart c = false)
    (h : parseItems? steps reading (item :: items) (Expr.countText count greedy ++ rest)
      = some result) :
    ∃ steps', parseItems? steps' reading
      (.repetition count.min count.max? greedy item :: items) rest = some result := by
  have hlazy : lazyMark ((if greedy then [] else ['?']) ++ rest) = (greedy, rest) := by
    cases greedy with
    | false => rfl
    | true =>
      cases rest with
      | nil => rfl
      | cons c rest =>
        have hc : c ≠ '?' := by
          rintro rfl
          exact absurd (hrest '?' rfl) (by decide)
        show lazyMark (c :: rest) = _
        rw [lazyMark]
        exact fun others heq => hc (List.cons.inj heq).1
  -- The count goes to the latest item, which is the one in front.
  have hlatest : ∀ {min : Nat} {max : Option Nat} {steps : Nat},
      ((repeatLatest? min max greedy (item :: items)).bind fun latest =>
        parseItems? steps reading latest rest) = some result →
      parseItems? steps reading (.repetition min max greedy item :: items) rest = some result := by
    intro min max steps hfound
    cases item <;> first | exact hfound | cases hfound
  cases steps with
  | zero => cases h
  | succ steps =>
    refine ⟨steps, ?_⟩
    rw [parseItems?, Reading.skipBlank_eq hverbose] at h
    cases count with
    | optional =>
      simp only [Expr.countText, Count.render, List.cons_append, List.nil_append, hlazy, bind] at h
      exact hlatest h
    | star =>
      simp only [Expr.countText, Count.render, List.cons_append, List.nil_append, hlazy, bind] at h
      exact hlatest h
    | plus =>
      simp only [Expr.countText, Count.render, List.cons_append, List.nil_append, hlazy, bind] at h
      exact hlatest h
    | exactly number =>
      have hshape : Expr.countText (.exactly number) greedy ++ rest
          = '{' :: (Nat.toDigits 10 number ++ '}' :: ((if greedy then [] else ['?']) ++ rest)) := by
        simp [Expr.countText, Count.render]
      simp only [hshape, hverbose, skipBlank_false, bind] at h
      obtain ⟨found, hfound, h⟩ := Option.bind_eq_some_iff.mp h
      cases parseBounds_exactly hfound
      simp only [hlazy] at h
      exact hlatest h
    | atLeast number =>
      have hshape : Expr.countText (.atLeast number) greedy ++ rest
          = '{' :: (Nat.toDigits 10 number ++ ',' :: '}' ::
            ((if greedy then [] else ['?']) ++ rest)) := by
        simp [Expr.countText, Count.render]
      simp only [hshape, hverbose, skipBlank_false, bind] at h
      obtain ⟨found, hfound, h⟩ := Option.bind_eq_some_iff.mp h
      cases parseBounds_atLeast hfound
      simp only [hlazy] at h
      exact hlatest h
    | between min max =>
      have hshape : Expr.countText (.between min max) greedy ++ rest
          = '{' :: (Nat.toDigits 10 min ++ ',' :: (Nat.toDigits 10 max ++ '}' ::
            ((if greedy then [] else ['?']) ++ rest))) := by
        simp [Expr.countText, Count.render]
      simp only [hshape, hverbose, skipBlank_false, bind] at h
      obtain ⟨found, hfound, h⟩ := Option.bind_eq_some_iff.mp h
      cases parseBounds_between hfound
      simp only [hlazy] at h
      exact hlatest h

/-! ### Rows and branches -/

/-- The text of a row is read as items that mean what it means, up to
what follows. -/
def ReadsRow (expr : Expr) : Prop :=
  ∀ (steps : Nat) (reading : Reading) (items : List Ast) (rest : List Char)
    (result : List Ast × Reading × List Char), reading.verbose = false →
    (expr.isItem = false → ∀ c ∈ rest.head?, isCountStart c = false) → expr.Apart rest →
    parseItems? steps reading items (expr.render ++ rest) = some result →
    ∃ steps' reading' pieces, reading'.verbose = false ∧ Row pieces expr ∧
      (expr.isItem = true → ∃ piece, pieces = [piece]) ∧
      parseItems? steps' reading' (pieces.reverse ++ items) rest = some result

/-- The text of branches is read as branches that mean what it means, up
to the end of their group. -/
def ReadsBranches (expr : Expr) : Prop :=
  ∀ (steps : Nat) (reading : Reading) (branches : List Ast) (rest : List Char)
    (result : Ast × Reading × List Char), reading.verbose = false →
    (∀ c ∈ rest.head?, c = ')') →
    parseBranches? steps reading branches (expr.render ++ rest) = some result →
    ∃ reading' more, reading'.verbose = false ∧ Branches more expr ∧
      result = (Ast.ofBranches (branches.reverse ++ more), reading', rest)

/-- A row that is read is a single branch. -/
theorem ReadsRow.branches {expr : Expr} (h : ReadsRow expr) : ReadsBranches expr := by
  intro steps reading branches rest result hverbose hrest hread
  have hfollow : expr.isItem = false → ∀ c ∈ rest.head?, isCountStart c = false := by
    rintro - c hc
    rw [hrest c hc]
    rfl
  have happart : expr.Apart rest := by
    constructor
    · rintro - c hc
      rw [hrest c hc]
      decide
    · rintro - c hc
      rw [hrest c hc]
      decide
  cases steps with
  | zero => cases hread
  | succ steps =>
    rw [parseBranches?] at hread
    obtain ⟨found, hfound, hread⟩ := Option.bind_eq_some_iff.mp hread
    obtain ⟨steps', reading', pieces, hverbose', hrow, -, hitems⟩ :=
      h steps reading [] rest found hverbose hfollow happart hfound
    cases parseItems_end hverbose' (fun c hc => .inl (hrest c hc)) hitems
    refine ⟨reading', [Ast.ofItems pieces], hverbose', Branches.single hrow, ?_⟩
    rw [List.append_nil, List.reverse_reverse] at hread
    cases rest with
    | nil =>
      cases hread
      rw [List.reverse_cons]
    | cons c rest =>
      cases hrest c rfl
      cases hread
      rw [List.reverse_cons]

/-! ### Rows of one item -/

/-- A row of one piece. -/
theorem readsRow_piece {expr : Expr} {c : Char} {cs : List Char} (hrender : expr.render = c :: cs)
    (hmark : isMark c = false)
    (hread : ∀ rest piece left, expr.Apart rest →
      parsePrimitive? false (c :: (cs ++ rest)) = some (piece, left) →
      left = rest ∧ Row [.primitive piece] expr) : ReadsRow expr := by
  intro steps reading items rest result hverbose _ happart h
  rw [hrender, List.cons_append] at h
  obtain ⟨steps', piece, left, hpiece, hleft⟩ := parseItems_piece hverbose hmark h
  obtain ⟨rfl, hrow⟩ := hread rest piece left happart hpiece
  exact ⟨steps', reading, [.primitive piece], hverbose, hrow, fun _ => ⟨_, rfl⟩, hleft⟩

/-- A character that stands for itself. -/
theorem parsePrimitive_literal {c : Char} (h : isLiteral c = true) (rest : List Char) :
    isMark c = false ∧ parsePrimitive? false (c :: rest) = some (.literal c false, rest) := by
  have hne : ∀ d ∈ "\\.+*?()|[\x7b^$".toList, c ≠ d := by
    rintro d hd rfl
    rw [isLiteral, List.contains_iff_mem.mpr hd] at h
    cases h
  constructor
  · exact contains_eq_false isLiteral (by decide) h
  · unfold parsePrimitive?
    split
    · rename_i heq
      cases heq
    · rename_i heq
      cases heq
      exact absurd rfl (hne _ (by decide))
    · rename_i heq
      cases heq
      exact absurd rfl (hne _ (by decide))
    · rename_i heq
      cases heq
      exact absurd rfl (hne _ (by decide))
    · rename_i heq
      cases heq
      exact absurd rfl (hne _ (by decide))
    · rename_i heq
      cases heq
      rfl

/-- A group whose opening is known. -/
theorem readsRow_group {expr : Expr} (body : Expr) (opening : List Char)
    (kind : Reading → GroupKind) (inside : Reading → Reading) (hrender : expr.render = '(' :: (opening ++ (body.render ++ [')'])))
    (hopening : ∀ reading rest, reading.verbose = false →
      parseOpening? reading (opening ++ (body.render ++ ')' :: rest))
        = some (.group (kind reading), inside reading, body.render ++ ')' :: rest))
    (hinside : ∀ reading : Reading, reading.verbose = false → (inside reading).verbose = false)
    (hplain : ∀ reading change, kind reading = .flagged change → change.value? .verbose = none)
    (hbody : ReadsBranches body)
    (hrow : ∀ reading start branches, Branches branches body →
      Row [.group (kind reading) start (.ofBranches branches)] expr) : ReadsRow expr := by
  intro steps reading items rest result hverbose _ _ h
  have hshape : expr.render ++ rest = '(' :: (opening ++ (body.render ++ ')' :: rest)) := by
    rw [hrender]
    simp
  rw [hshape] at h
  obtain ⟨steps', start, ast, after, left, hbranches, hleft⟩ :=
    parseItems_group hverbose (hinside reading hverbose) (hplain reading)
      (hopening reading rest hverbose) h
  obtain ⟨reading', more, hverbose', hmore, hresult⟩ :=
    hbody steps' (inside reading) [] (')' :: rest) _ (hinside reading hverbose)
      (by rintro c ⟨⟩; rfl) hbranches
  cases hresult
  exact ⟨_, _, [.group (kind reading) start (.ofBranches more)], rfl,
    hrow reading start more hmore, fun _ => ⟨_, rfl⟩, hleft⟩

/-- What opens a group that captures. -/
theorem parseOpening_capture {reading : Reading} (hverbose : reading.verbose = false)
    {cs : List Char} (h : ∀ c ∈ cs.head?, isCountStart c = false) :
    parseOpening? reading cs
      = some (.group (.capturing (reading.groups + 1) none),
        { reading with groups := reading.groups + 1 }, cs) := by
  have hne : ∀ rest, cs ≠ '?' :: rest := by
    rintro rest rfl
    exact absurd (h '?' rfl) (by decide)
  unfold parseOpening?
  simp only [Reading.skipBlank_eq hverbose]
  split
  case h_8 => rfl
  all_goals exact absurd rfl (hne _)

/-- What opens a group with flags. -/
theorem parseOpening_flags {reading : Reading} (hverbose : reading.verbose = false)
    (rest : List Char) :
    parseOpening? reading ('?' :: ':' :: rest)
        = some (.group (.flagged []), reading, rest) ∧
      parseOpening? reading ('?' :: 'i' :: ':' :: rest)
        = some (.group (.flagged [(.ignoreCase, true)]), reading, rest) ∧
      parseOpening? reading ('?' :: 's' :: ':' :: rest)
        = some (.group (.flagged [(.dotAll, true)]), reading, rest) := by
  unfold parseOpening?
  simp only [Reading.skipBlank_eq hverbose]
  exact ⟨rfl, rfl, rfl⟩

/-- Look-around is not of this dialect. -/
theorem parseOpening_look {reading : Reading} (hverbose : reading.verbose = false)
    (behind negated : Bool) (rest : List Char) :
    parseOpening? reading ('?' :: (Expr.lookMark behind negated ++ rest)) = none := by
  unfold parseOpening?
  cases behind <;> cases negated <;>
    simp only [Reading.skipBlank_eq hverbose, Expr.lookMark, List.cons_append, List.nil_append]

theorem readsRow_anyChar : ReadsRow .anyChar := by
  intro steps reading items rest result hverbose _ _ h
  have hopening := (parseOpening_flags hverbose ('.' :: ')' :: rest)).2.2
  have hplain : ∀ change, GroupKind.flagged [(.dotAll, true)] = .flagged change →
      change.value? .verbose = none := by
    rintro change ⟨⟩
    rfl
  obtain ⟨steps', start, ast, after, left, hbranches, hleft⟩ :=
    parseItems_group hverbose hverbose hplain hopening h
  cases steps' with
  | zero => cases hbranches
  | succ steps' =>
    rw [parseBranches?] at hbranches
    obtain ⟨found, hfound, hbranches⟩ := Option.bind_eq_some_iff.mp hbranches
    obtain ⟨steps'', piece, others, hpiece, hitems⟩ := parseItems_piece hverbose (by decide) hfound
    cases hpiece
    cases parseItems_end hverbose (by rintro c ⟨⟩; exact .inl rfl) hitems
    cases hbranches
    exact ⟨_, _, [.group (.flagged [(.dotAll, true)]) start (.primitive .dot)], rfl,
      Row.anyChar start, fun _ => ⟨_, rfl⟩, hleft⟩

/-! ### Every expression -/

/-- Two rows are read one after the other. -/
theorem ReadsRow.seq {first second : Expr} (hwf : (Expr.seq first second).WellFormed)
    (hfirst : ReadsRow first) (hsecond : ReadsRow second) : ReadsRow (.seq first second) := by
  intro steps reading items rest result hverbose hfollow happart h
  have hrest : ∀ c ∈ rest.head?, isCountStart c = false := hfollow rfl
  have hnext : ∀ c ∈ (second.render ++ rest).head?, isCountStart c = false :=
    Expr.head?_render_append hwf.2.1.2 hrest
  rw [Expr.render, List.append_assoc] at h
  obtain ⟨steps', reading', left, hverbose', hleft, -, h⟩ :=
    hfirst steps reading items _ result hverbose (fun _ => hnext) (Expr.Apart.first hwf happart) h
  obtain ⟨steps'', reading'', right, hverbose'', hright, -, h⟩ :=
    hsecond steps' reading' _ rest result hverbose' (fun _ => hrest) happart.second h
  refine ⟨steps'', reading'', left ++ right, hverbose'', hleft.append hright,
    fun hitem => absurd hitem Bool.false_ne_true, ?_⟩
  rw [List.reverse_append, List.append_assoc]
  exact h

/-- A row is read, and then other branches. -/
theorem ReadsBranches.alt {first second : Expr} (hfirst : ReadsRow first)
    (hsecond : ReadsBranches second) : ReadsBranches (.alt first second) := by
  intro steps reading branches rest result hverbose hrest h
  have hshape : (Expr.alt first second).render ++ rest
      = first.render ++ '|' :: (second.render ++ rest) := by simp [Expr.render]
  rw [hshape] at h
  cases steps with
  | zero => cases h
  | succ steps =>
    rw [parseBranches?] at h
    obtain ⟨found, hfound, h⟩ := Option.bind_eq_some_iff.mp h
    obtain ⟨steps', reading', pieces, hverbose', hrow, -, hitems⟩ :=
      hfirst steps reading [] _ found hverbose (by rintro - c ⟨⟩; rfl)
        (Expr.apart_cons (by decide) (by decide) _) hfound
    cases parseItems_end hverbose' (by rintro c ⟨⟩; exact .inr rfl) hitems
    rw [List.append_nil, List.reverse_reverse] at h
    obtain ⟨reading'', more, hverbose'', hmore, hresult⟩ :=
      hsecond steps reading' (Ast.ofItems pieces :: branches) rest result hverbose' hrest h
    refine ⟨reading'', Ast.ofItems pieces :: more, hverbose'', Branches.cons hrow hmore, ?_⟩
    rw [hresult, List.reverse_cons, List.append_assoc]
    rfl

/-- An item is read, and then its count. -/
theorem ReadsRow.repeated {count : Count} {greedy : Bool} {body : Expr}
    (hwf : (Expr.repeated count greedy body).WellFormed) (hbody : ReadsRow body) :
    ReadsRow (.repeated count greedy body) := by
  intro steps reading items rest result hverbose hfollow happart h
  obtain ⟨hitem, hcount⟩ := hwf.1
  have hfollow' : body.isItem = false → ∀ c ∈ (Expr.countText count greedy ++ rest).head?,
      isCountStart c = false := by
    rw [hitem]
    exact fun htrue => absurd htrue.symm Bool.false_ne_true
  rw [Expr.render, List.append_assoc] at h
  obtain ⟨steps', reading', pieces, hverbose', hrow, hsingle, h⟩ :=
    hbody steps reading items _ result hverbose hfollow' (Expr.apart_countText hwf rest) h
  obtain ⟨piece, rfl⟩ := hsingle hitem
  obtain ⟨steps'', h⟩ := parseItems_count hverbose' (hfollow rfl) h
  exact ⟨steps'', reading', [_], hverbose', Row.repeated greedy hcount hrow,
    fun hitem => absurd hitem Bool.false_ne_true, h⟩

/-- Look-around is refused. -/
theorem readsRow_look (behind negated : Bool) (body : Expr) :
    ReadsRow (.look behind negated body) := by
  intro steps reading items rest result hverbose _ _ h
  have hshape : (Expr.look behind negated body).render ++ rest
      = '(' :: '?' :: (Expr.lookMark behind negated ++ (body.render ++ ')' :: rest)) := by
    simp [Expr.render]
  rw [hshape] at h
  cases steps with
  | zero => cases h
  | succ steps =>
    rw [parseItems?, Reading.skipBlank_eq hverbose] at h
    simp only [parseOpening_look hverbose] at h
    cases h

/-- The text of every expression is read as something that means the
same, if at all. -/
theorem reads {expr : Expr} (h : expr.WellFormed) :
    (expr.isRow = true → ReadsRow expr) ∧ ReadsBranches expr := by
  -- Rows are read as items, and so as single branches. Only alternatives are no row.
  have hboth : ∀ {expr : Expr}, ReadsRow expr →
      (expr.isRow = true → ReadsRow expr) ∧ ReadsBranches expr :=
    fun hrow => ⟨fun _ => hrow, hrow.branches⟩
  induction expr with
  | empty =>
    refine hboth ?_
    intro steps reading items rest result hverbose _ _ hread
    exact ⟨steps, reading, [], hverbose, Row.empty, fun hitem => absurd hitem Bool.false_ne_true, hread⟩
  | char c =>
    have hmark := (parsePrimitive_literal h []).1
    refine hboth (readsRow_piece rfl hmark fun rest piece left _ hread => ?_)
    rw [List.nil_append, (parsePrimitive_literal h rest).2] at hread
    cases hread
    exact ⟨rfl, Row.char c⟩
  | escaped c =>
    refine hboth (readsRow_piece rfl (by decide) fun rest piece left _ hread => ?_)
    obtain ⟨rfl, rfl, hvariants⟩ := parseEscape_escaped h hread
    exact ⟨rfl, Row.escaped hvariants⟩
  | coded letter braced digits =>
    refine hboth (readsRow_piece rfl (by decide) fun rest piece left _ hread => ?_)
    have hcode : parseEscape? false (letter :: (codeText braced digits ++ rest))
        = parseCode? false (codeWidth letter) (codeText braced digits ++ rest) := by
      have hletter := h.1.1
      unfold codeWidth at hletter ⊢
      split at hletter
      · rfl
      · rfl
      · rfl
      · exact absurd rfl hletter
    obtain ⟨c, byte, hchar, rfl, rfl⟩ := parseCode_codeText h rest (hcode.symm.trans hread)
    exact ⟨rfl, Row.coded hchar⟩
  | dot =>
    refine hboth (readsRow_piece rfl (by decide) fun rest piece left _ hread => ?_)
    cases hread
    exact ⟨rfl, Row.dot⟩
  | anyChar => exact hboth readsRow_anyChar
  | short kind negated =>
    refine hboth (readsRow_piece rfl (by decide) fun rest piece left _ hread => ?_)
    cases kind <;> cases negated <;>
    · cases hread
      exact ⟨rfl, Row.short _ _⟩
  | bracket body =>
    refine hboth ?_
    intro steps reading items rest result hverbose _ _ hread
    have hshape : (Expr.bracket body).render ++ rest = '[' :: (body ++ ']' :: rest) := by
      simp [Expr.render]
    rw [hshape] at hread
    obtain ⟨steps', set, place, hset, hleft⟩ := parseItems_bracket hverbose h hread
    exact ⟨steps', reading, [.bracket set place], hverbose, Row.bracket place hset,
      fun _ => ⟨_, rfl⟩, hleft⟩
  | wordBoundary =>
    refine hboth (readsRow_piece rfl (by decide) fun rest piece left happart hread => ?_)
    have hboundary : parseBoundary? false rest = some (.anchor .wordBoundary, rest) := by
      unfold parseBoundary?
      split
      · rename_i others
        exact absurd rfl (happart.2 rfl '\x7b' rfl)
      · rfl
    cases hboundary.symm.trans hread
    exact ⟨rfl, Row.wordBoundary⟩
  | textStart =>
    refine hboth (readsRow_piece rfl (by decide) fun rest piece left _ hread => ?_)
    cases hread
    exact ⟨rfl, Row.textStart⟩
  | textEnd =>
    refine hboth (readsRow_piece rfl (by decide) fun rest piece left _ hread => ?_)
    cases hread
    exact ⟨rfl, Row.textEnd⟩
  | capture body ih =>
    refine hboth (readsRow_group body [] (fun reading => .capturing (reading.groups + 1) none)
      (fun reading => { reading with groups := reading.groups + 1 }) rfl (fun reading rest hverbose => ?_) (fun _ hverbose => hverbose)
      (fun reading change heq => by cases heq) (ih h).2
      fun reading start branches hbody => Row.capture (Nat.succ_ne_zero _) start none hbody)
    exact parseOpening_capture hverbose
      (Expr.head?_render_close (show body.WellFormed from h) rest)
  | bare body ih =>
    refine hboth (readsRow_group body ['?', ':'] (fun _ => .flagged []) id rfl (fun reading rest hverbose => ?_) (fun _ hverbose => hverbose) ?_ (ih h).2
      fun _ start branches hbody => Row.bare start hbody)
    · exact (parseOpening_flags hverbose _).1
    · rintro reading change ⟨⟩
      rfl
  | ignoring body ih =>
    refine hboth (readsRow_group body ['?', 'i', ':']
      (fun _ => .flagged [(.ignoreCase, true)]) id rfl (fun reading rest hverbose => ?_)
      (fun _ hverbose => hverbose) ?_ (ih h).2
      fun _ start branches hbody => Row.ignoring start hbody)
    · exact (parseOpening_flags hverbose _).2.1
    · rintro reading change ⟨⟩
      rfl
  | look behind negated body ih => exact hboth (readsRow_look behind negated body)
  | backref number =>
    -- This dialect has no references.
    obtain ⟨digit, digits, hdigits, hdigit⟩ := head_toDigits number
    refine hboth (readsRow_piece rfl (by decide) fun rest piece left _ hread => ?_)
    rw [hdigits] at hread
    cases (parseEscape_digit hdigit (digits ++ rest)).symm.trans hread
  | seq first second ihFirst ihSecond =>
    have hfirst := (ihFirst h.2.1.1).1 h.1.1
    have hsecond := (ihSecond h.2.1.2).1 h.1.2
    exact hboth (ReadsRow.seq h hfirst hsecond)
  | alt first second ihFirst ihSecond =>
    have hfirst := (ihFirst h.2.1).1 h.1
    exact ⟨fun hrow => absurd hrow Bool.false_ne_true, ReadsBranches.alt hfirst (ihSecond h.2.2).2⟩
  | repeated count greedy body ih =>
    have hrow : body.isRow = true := by
      have hitem := h.1.1
      cases body <;> first | rfl | cases hitem
    exact hboth (ReadsRow.repeated h ((ih h.2.1).1 hrow))

/-- Where the regular dialect reads the text of an expression, the
result has the ways of the expression. -/
theorem hasWays_of_parse {expr : Expr} (h : expr.WellFormed) {ast : Ast} {groups : Nat}
    (hparse : parse? expr.render = some (ast, groups)) {node : Node} {after : Modes}
    (hmeaning : ast.meaning? .initial = some (node, after)) : HasWays node false expr := by
  unfold parse? at hparse
  obtain ⟨found, hfound, hparse⟩ := Option.bind_eq_some_iff.mp hparse
  rw [← List.append_nil expr.render] at hfound
  obtain ⟨reading', more, -, hmore, rfl⟩ :=
    (reads h).2 _ _ [] [] found rfl (fun c hc => (nomatch hc)) hfound
  simp only at hparse
  split at hparse
  · cases hparse
    exact ((hmore false).meaning hmeaning).2
  · cases hparse

end Highlighter.Regex.Regular
