import Highlighter.Proofs.Regex.Ignoring
import Highlighter.Proofs.Regex.Regular.Alike

/-!
# Reading quiet patterns in the regular dialect

Where nothing cased is seen in the text of a pattern, what is read means
the same whether letter case counts or not. The pattern is read twice,
alone and after flags; the second reading knows of a longer text, and
starts with the flags as an item. Otherwise both go the same steps.

The induction is on the steps, for rows and for branches at once. Along
the way goes that nothing cased is seen in the text that is left
(`QuietItems`), which says enough of an item in each case.
-/

set_option autoImplicit false

namespace Highlighter.Regex.Regular

open Pattern Unicode

variable {cs left rest : List Char} {reading inside : Reading}

/-! ### Pieces -/

theorem alike_parseEscape {letter : Char} {piece : Primitive}
    (hquiet : QuietFrom ('\\' :: letter :: rest))
    (h : parseEscape? false (letter :: rest) = some (piece, left)) :
    Ast.Alike (.primitive piece) (.primitive piece) ∧ QuietItems left := by
  have hdigit : letter.isDigit = false := by
    rw [← Bool.not_eq_true]
    intro hdigit
    rw [parseEscape_digit hdigit] at h
    cases h
  have hname : letter ≠ 'k' := by
    rintro rfl
    cases h
  obtain ⟨hletter, hrest⟩ := hquiet.escape hdigit hname
  have hitems : QuietItems rest := hrest.imp id And.right
  by_cases hword : letter = 'b'
  · subst hword
    have h : parseBoundary? false rest = some (piece, left) := h
    obtain ⟨sign, hsign⟩ := parseBoundary_anchor h
    have hpiece : piece = .anchor sign := hsign
    subst hpiece
    refine ⟨Ast.alike_anchor sign, ?_⟩
    rcases parseBoundary_eq_some h with rfl | ⟨name, rfl, hname⟩
    · exact hitems
    · refine .inl (hitems.braces fun c hc => ⟨isPlain_of_isFlagChar (hname c hc), ?_⟩)
      rintro rfl
      exact absurd (hname '}' hc) (by decide)
  · unfold parseEscape? at h
    dsimp only at h
    split at h <;> first
      | exact absurd hletter (by decide)
      | exact absurd rfl hword
      | (cases h; exact ⟨Ast.alike_short _ _, hitems⟩)
      | (cases h; exact ⟨Ast.alike_anchor _, hitems⟩)
      | (cases h; exact ⟨Ast.alike_literal (by decide) false, hitems⟩)
      | skip
    split at h
    · rename_i hescapable
      cases h
      have hcased := Expr.isCased_unescaped (Bool.or_eq_true_iff.mpr (.inr hescapable))
      rw [unescaped_of_isEscapable hescapable] at hcased
      exact ⟨Ast.alike_literal hcased false, hitems⟩
    · cases h

theorem alike_parsePrimitive {c : Char} {piece : Primitive} (hmark : isMark c = false)
    (hquiet : QuietFrom (c :: rest)) (h : parsePrimitive? false (c :: rest) = some (piece, left)) :
    Ast.Alike (.primitive piece) (.primitive piece) ∧ QuietItems left := by
  unfold parsePrimitive? at h
  split at h
  · cases h
  · rename_i others heq
    cases heq
    cases rest with
    | nil => cases h
    | cons letter rest => exact alike_parseEscape hquiet h
  · rename_i heq
    cases heq
    cases h
    exact ⟨Ast.alike_dot, .inl (hquiet.plain (by decide)).2⟩
  · rename_i heq
    cases heq
    cases h
    exact ⟨Ast.alike_anchor _, .inl hquiet.caret⟩
  · rename_i heq
    cases heq
    cases h
    exact ⟨Ast.alike_anchor _, .inl (hquiet.plain (by decide)).2⟩
  · rename_i hslash hdot hcaret hdollar heq
    cases heq
    cases h
    have hne : ∀ d, isMark d = true → c ≠ d := by
      rintro d hd rfl
      exact absurd (hmark.symm.trans hd) Bool.false_ne_true
    have hplain : Part.isPlain c = true := by
      have hslash : c ≠ '\\' := hslash
      have hcaret : c ≠ '^' := hcaret
      simp [Part.isPlain, hslash, hcaret, hne '[' rfl, hne '(' rfl, hne ')' rfl]
    exact ⟨Ast.alike_literal (hquiet.plain hplain).1 false, .inl (hquiet.plain hplain).2⟩

/-! ### Counts -/

/-- What stands in the braces of a repetition. -/
def isBoundsChar (c : Char) : Bool := c.isDigit || isBlank c || c == ','

theorem isPlain_of_isBoundsChar {c : Char} (h : isBoundsChar c = true) :
    Part.isPlain c = true ∧ c ≠ '}' := by
  have hne : ∀ d, isBoundsChar d = false → c ≠ d := by
    rintro d hd rfl
    exact absurd (hd.symm.trans h) Bool.false_ne_true
  exact ⟨by simp [Part.isPlain, hne '[' (by decide), hne '\\' (by decide), hne '(' (by decide),
    hne ')' (by decide), hne '^' (by decide)], hne '}' (by decide)⟩

theorem parseCount_eq_some {count : Option Nat} (h : parseCount? false cs = some (count, left)) :
    ∃ text, cs = text ++ left ∧ ∀ c ∈ text, isBoundsChar c = true := by
  have hleft : left
      = ((cs.dropWhile isBlank).dropWhile Char.isDigit).dropWhile isBlank := by
    unfold parseCount? at h
    simp only [countDigits_eq (Nat.lt_succ_self _), skipBlank_false] at h
    split at h
    · cases h
      rfl
    · split at h
      · cases h
        rfl
      · cases h
  have hsplit : ∀ (is : Char → Bool) (text : List Char), (∀ c, is c = true → isBoundsChar c = true) →
      ∃ taken, text = taken ++ text.dropWhile is ∧ ∀ c ∈ taken, isBoundsChar c = true := by
    intro is text his
    exact ⟨text.takeWhile is, List.takeWhile_append_dropWhile.symm,
      fun c hc => his c (List.all_eq_true.mp List.all_takeWhile c hc)⟩
  have hblank : ∀ c, isBlank c = true → isBoundsChar c = true := by
    intro c hc
    simp [isBoundsChar, hc]
  have hdigit : ∀ c, c.isDigit = true → isBoundsChar c = true := by
    intro c hc
    simp [isBoundsChar, hc]
  obtain ⟨first, hfirst, hfirst'⟩ := hsplit isBlank cs hblank
  obtain ⟨second, hsecond, hsecond'⟩ := hsplit Char.isDigit (cs.dropWhile isBlank) hdigit
  obtain ⟨third, hthird, hthird'⟩ :=
    hsplit isBlank ((cs.dropWhile isBlank).dropWhile Char.isDigit) hblank
  refine ⟨first ++ (second ++ third), ?_, ?_⟩
  · rw [hleft, List.append_assoc, List.append_assoc, ← hthird, ← hsecond, ← hfirst]
  · simp only [List.forall_mem_append]
    exact ⟨hfirst', hsecond', hthird'⟩

theorem parseBounds_eq_some {min : Nat} {max : Option Nat}
    (hbounds : parseBounds? false cs = some (min, max, left)) :
    ∃ inner, cs = inner ++ '}' :: left ∧ ∀ c ∈ inner, isBoundsChar c = true := by
  obtain ⟨⟨first, after⟩, hfirst, h⟩ := Option.bind_eq_some_iff.mp hbounds
  obtain ⟨text, htext, hchars⟩ := parseCount_eq_some hfirst
  rw [skipBlank_false] at htext
  obtain ⟨least, -, h⟩ := Option.bind_eq_some_iff.mp h
  simp only [skipBlank_false] at h
  split at h
  · cases h
    exact ⟨text, htext, hchars⟩
  · split at h
    · cases h
      refine ⟨text ++ [','], by simp [htext], ?_⟩
      rw [List.forall_mem_append]
      exact ⟨hchars, List.forall_mem_singleton.mpr rfl⟩
    · obtain ⟨⟨second, after⟩, hsecond, h⟩ := Option.bind_eq_some_iff.mp h
      obtain ⟨more, hmore, hmore'⟩ := parseCount_eq_some hsecond
      obtain ⟨most, -, h⟩ := Option.bind_eq_some_iff.mp h
      simp only at h
      split at h
      · split at h
        · cases h
          refine ⟨text ++ ',' :: more, by simp [htext, hmore], ?_⟩
          rw [List.forall_mem_append, List.forall_mem_cons]
          exact ⟨hchars, rfl, hmore'⟩
        · cases h
      · cases h
  · cases h

/-! ### Groups -/

theorem isFlagChar_of_ofLetter {c : Char} {flag : Flag} (h : Flag.ofLetter? c = some flag) :
    Part.isFlagChar c = true := by
  unfold Flag.ofLetter? at h
  split at h <;> first
    | rfl
    | cases h

/-- Flags up to the mark that ends them. There are none if there are no
letters, and hyphens need letters. -/
theorem parseFlags_eq_some {on : Bool} {change changed : FlagChange}
    (h : parseFlags? on change cs = some (changed, left)) :
    ∃ letters mark after, cs = letters ++ mark :: after ∧ left = mark :: after ∧
      (mark = ':' ∨ mark = ')') ∧ (∀ c ∈ letters, Part.isFlagChar c = true) ∧
      ((∀ c ∈ letters, c = '-') → letters = [] ∧ changed = change) := by
  fun_induction parseFlags? on change cs with
  | case1 => cases h
  | case2 =>
    cases h
    exact ⟨[], ')', _, rfl, rfl, .inr rfl, List.forall_mem_nil _, fun _ => ⟨rfl, rfl⟩⟩
  | case3 =>
    cases h
    exact ⟨[], ':', _, rfl, rfl, .inl rfl, List.forall_mem_nil _, fun _ => ⟨rfl, rfl⟩⟩
  | case4 on change c rest hcond ih =>
    simp only [Bool.and_eq_true, bne_iff_ne] at hcond
    obtain ⟨letters, mark, after, heq, hleft, hmark, hletters, hempty⟩ := ih h
    refine ⟨'-' :: letters, mark, after, congrArg ('-' :: ·) heq, hleft, hmark,
      List.forall_mem_cons.mpr ⟨rfl, hletters⟩, fun hall => ?_⟩
    -- What follows the hyphen is no mark.
    obtain ⟨rfl, -⟩ := hempty (List.forall_mem_cons.mp hall).2
    have hc := (List.cons.inj heq).1
    rcases hmark with rfl | rfl
    · exact absurd hc hcond.2
    · exact absurd hc hcond.1.2
  | case5 => cases h
  | case6 => cases h
  | case7 on change c rest _ _ hhyphen ih =>
    obtain ⟨flag, hflag, h⟩ := Option.bind_eq_some_iff.mp h
    split at h
    · cases h
    · obtain ⟨letters, mark, after, heq, hleft, hmark, hletters, -⟩ := ih flag h
      refine ⟨c :: letters, mark, after, congrArg (c :: ·) heq, hleft, hmark,
        List.forall_mem_cons.mpr ⟨isFlagChar_of_ofLetter hflag, hletters⟩, fun hall => ?_⟩
      exact (hhyphen (hall c List.mem_cons_self)).elim

theorem isNameChar_ascii {first : Bool} {c : Char} (h : isNameChar first c = true)
    (hascii : c.toNat < 0x80) : c.isAlphanum = true ∨ c ∈ "_.[]".toList := by
  have hword : isAlphanumeric c.toNat = true → c.isAlphanum = true := by
    intro hword
    rwa [isAlphanumeric_ascii hascii, Char.ofNat_toNat] at hword
  cases first with
  | true =>
    rcases Bool.or_eq_true_iff.mp h with hlow | halpha
    · rw [beq_iff_eq.mp hlow]
      exact .inr (by decide)
    · exact .inl (hword (Bool.or_eq_true_iff.mpr (.inl halpha)))
  | false =>
    simp only [isNameChar, Bool.false_eq_true, if_false, Bool.or_eq_true, beq_iff_eq] at h
    rcases h with (((rfl | rfl) | rfl) | rfl) | h
    · exact .inr (by decide)
    · exact .inr (by decide)
    · exact .inr (by decide)
    · exact .inr (by decide)
    · exact .inl (hword h)

theorem isPlain_of_isNameChar {first : Bool} {c : Char} (h : isNameChar first c = true) :
    Part.isPlain c = true ∨ c = '[' := by
  have hne : ∀ d : Char, d.toNat < 0x80 → d.isAlphanum = false → d ∉ "_.[]".toList → c ≠ d := by
    rintro d hascii hword hmark rfl
    rcases isNameChar_ascii h hascii with hword' | hmark'
    · exact absurd (hword.symm.trans hword') Bool.false_ne_true
    · exact hmark hmark'
  by_cases hopen : c = '['
  · exact .inr hopen
  · refine .inl ?_
    simp [Part.isPlain, hopen, hne '\\' (by decide) (by decide) (by decide),
      hne '(' (by decide) (by decide) (by decide), hne ')' (by decide) (by decide) (by decide),
      hne '^' (by decide) (by decide) (by decide)]

theorem parseName_eq_some {name : String} (h : parseName? cs = some (name, left)) :
    ∃ text, cs = text ++ '>' :: left ∧ text ≠ [] ∧ text.head? ≠ some '=' ∧ text.head? ≠ some '!' ∧
      ∀ c ∈ text, (Part.isPlain c = true ∨ c = '[') ∧ c ≠ '>' := by
  unfold parseName? at h
  split at h
  · rename_i rest hdrop
    have htake : ∀ c ∈ cs.takeWhile (· != '>'), c ≠ '>' := fun c hc =>
      bne_iff_ne.mp (List.all_eq_true.mp List.all_takeWhile c hc)
    split at h
    · cases h
    · rename_i c others heq
      split at h
      · rename_i hchars
        cases h
        obtain ⟨hc, hothers⟩ := Bool.and_eq_true_iff.mp hchars
        refine ⟨c :: others, ?_, List.cons_ne_nil _ _, ?_, ?_, fun d hd => ⟨?_, ?_⟩⟩
        · rw [← heq, ← hdrop, List.takeWhile_append_dropWhile]
        · rintro ⟨⟩
          exact absurd (isNameChar_ascii hc (by decide)) (by decide)
        · rintro ⟨⟩
          exact absurd (isNameChar_ascii hc (by decide)) (by decide)
        · rcases List.mem_cons.mp hd with rfl | hd
          · exact isPlain_of_isNameChar hc
          · exact isPlain_of_isNameChar (List.all_eq_true.mp hothers d hd)
        · exact htake d (heq ▸ hd)
      · cases h
  · cases h

/-- A group opens without flags. -/
theorem parseOpening_quiet {opening : Opening} (hverbose : reading.verbose = false)
    (hquiet : QuietFrom ('(' :: cs))
    (h : parseOpening? reading cs = some (opening, inside, rest)) :
    (∃ kind, opening = .group kind ∧ ∀ change, kind = .flagged change → change = []) ∧
      inside.verbose = false ∧ QuietFrom rest := by
  have hnamed : ∀ {mark text : List Char}, mark = ['?', 'P', '<'] ∨ mark = ['?', '<'] →
      cs = mark ++ text → ((parseName? text).bind fun found =>
        if reading.names.contains found.1 then none
        else some (Opening.group (.capturing (reading.groups + 1) (some found.1)),
          { reading with groups := reading.groups + 1, names := found.1 :: reading.names },
          found.2))
        = some (opening, inside, rest) →
      (∃ kind, opening = .group kind ∧ ∀ change, kind = .flagged change → change = []) ∧
        inside.verbose = false ∧ QuietFrom rest := by
    intro mark text hmark hcs hread
    obtain ⟨⟨name, after⟩, hname, hread⟩ := Option.bind_eq_some_iff.mp hread
    obtain ⟨chars, htext, hne, hequals, hbang, hchars⟩ := parseName_eq_some hname
    simp only at hread
    split at hread
    · cases hread
    · cases hread
      subst hcs htext
      exact ⟨⟨_, rfl, by rintro change ⟨⟩⟩, hverbose,
        hquiet.named hmark hchars ⟨hequals, hbang⟩ hne⟩
  unfold parseOpening? at h
  simp only [Reading.skipBlank_eq hverbose] at h
  split at h
  · cases h
  · cases h
  · cases h
  · cases h
  · exact hnamed (.inl rfl) rfl h
  · exact hnamed (.inr rfl) rfl h
  · rename_i flags _ _ _ _ _ _
    obtain ⟨⟨change, after⟩, hflags, h⟩ := Option.bind_eq_some_iff.mp h
    obtain ⟨letters, mark, others, rfl, rfl, hmark, hletters, hempty⟩ := parseFlags_eq_some hflags
    obtain ⟨hhyphens, hrest⟩ := hquiet.flags hmark hletters
    obtain ⟨-, rfl⟩ := hempty hhyphens
    rcases hmark with rfl | rfl
    · cases h
      exact ⟨⟨_, rfl, fun change heq => by cases heq; rfl⟩, hverbose, hrest⟩
    · cases h
  · rename_i hquestion
    cases h
    refine ⟨⟨_, rfl, by rintro change ⟨⟩⟩, hverbose, hquiet.capture fun hhead => ?_⟩
    obtain ⟨others, rfl⟩ := List.head?_eq_some_iff.mp hhead
    exact hquestion others rfl

/-! ### Reading twice -/

/-- The same reader in a longer or shorter text. -/
def Reading.sized (reading : Reading) (length : Nat) : Reading := { reading with length }

theorem parseOpening_sized (reading : Reading) (length : Nat) (cs : List Char) :
    parseOpening? (reading.sized length) cs
      = (parseOpening? reading cs).map fun found => (found.1, found.2.1.sized length, found.2.2) := by
  unfold parseOpening? Reading.sized
  simp only
  split
  · rfl
  · rfl
  · rfl
  · rfl
  case h_5 text _ | h_6 text _ _ _ =>
    cases parseName? text with
    | none => rfl
    | some found =>
      simp only [bind, Option.bind_some]
      split
      · rfl
      · rfl
  · rename_i text _ _ _ _ _ _ _
    cases parseFlags? true [] text with
    | none => rfl
    | some found =>
      simp only [bind, Option.bind_some]
      split
      · rfl
      · rfl
      · rfl
      · rfl
  · rfl

/-- A group is read as a group, whatever it has in it. -/
theorem parseItems_opening (steps : Nat) (items : List Ast) (hverbose : reading.verbose = false)
    (hinside : inside.verbose = false) {kind : GroupKind}
    (hkind : ∀ change, kind = .flagged change → change = [])
    (hopening : parseOpening? reading cs = some (.group kind, inside, rest)) :
    parseItems? (steps + 1) reading items ('(' :: cs)
      = (parseBranches? steps inside [] rest).bind fun found =>
        match found.2.2 with
        | ')' :: left => parseItems? steps { found.2.1 with verbose := false }
            (.group kind (reading.placeOf ('(' :: cs)) found.1 :: items) left
        | _ => none := by
  have hwith : { inside with verbose := false } = inside := by
    rw [← hinside]
  rw [parseItems?, Reading.skipBlank_eq hverbose]
  cases kind with
  | capturing index name =>
    simp only [hopening, bind, Option.bind_some, hverbose, hwith]
    all_goals rfl
  | flagged change =>
    obtain rfl := hkind change rfl
    simp only [hopening, bind, Option.bind_some, hverbose, FlagChange.value?, List.lookup_nil,
      Option.getD_none, hwith]
    all_goals rfl

/-- What is neither blank nor starts a comment is not passed over. -/
theorem skipBlank_cons {c : Char} (hblank : isBlank c = false) (hcomment : c ≠ '#') (verbose : Bool)
    (rest : List Char) : skipBlank verbose (c :: rest) = c :: rest := by
  cases verbose with
  | false => rfl
  | true => simp [skipBlank, skipVerbose, hblank, hcomment]

theorem parseItems_class_eq (steps : Nat) (items : List Ast) (cs : List Char) :
    parseItems? (steps + 1) reading items ('[' :: cs)
      = (parseClass? reading.verbose cs).bind fun found => parseItems? steps reading
          (.bracket found.1 ⟨reading.placeOf ('[' :: cs), reading.placeOf found.2⟩ :: items)
          found.2 := by
  rw [parseItems?, skipBlank_cons (by decide) (by decide)]
  rfl

/-- A repetition, from its first mark on. -/
def repetition? : List Char → Option (Nat × Option Nat × Bool × List Char)
  | '?' :: rest => some (0, some 1, lazyMark rest)
  | '*' :: rest => some (0, none, lazyMark rest)
  | '+' :: rest => some (1, none, lazyMark rest)
  | '{' :: rest => (parseBounds? false rest).map fun (min, max, rest) => (min, max, lazyMark rest)
  | _ => none

theorem parseItems_repetition (steps : Nat) (items : List Ast) (hverbose : reading.verbose = false)
    {c : Char} (hc : c ∈ "?*+\x7b".toList) (cs : List Char) :
    parseItems? (steps + 1) reading items (c :: cs)
      = (repetition? (c :: cs)).bind fun (min, max, greedy, rest) =>
        (repeatLatest? min max greedy items).bind fun items =>
          parseItems? steps reading items rest := by
  simp only [String.reduceToList, List.mem_cons, List.not_mem_nil, or_false] at hc
  rw [parseItems?, Reading.skipBlank_eq hverbose]
  rcases hc with rfl | rfl | rfl | rfl
  · rfl
  · rfl
  · rfl
  · simp only [hverbose, skipBlank_false, repetition?]
    cases parseBounds? false cs with
    | none => rfl
    | some found => rfl

theorem parseItems_primitive (steps : Nat) (items : List Ast) {c : Char} {rest : List Char}
    (hshown : skipBlank reading.verbose cs = c :: rest) (hmark : isMark c = false) :
    parseItems? (steps + 1) reading items cs
      = (parsePrimitive? reading.verbose (c :: rest)).bind fun found =>
        parseItems? steps reading (.primitive found.1 :: items) found.2 := by
  have hne : ∀ d ∈ "|)([?*+\x7b".toList, c ≠ d := by
    rintro d hd rfl
    rw [isMark, List.contains_iff_mem.mpr hd] at hmark
    cases hmark
  rw [parseItems?, hshown]
  -- All other cases start with a mark.
  split
  case h_10 => rfl
  all_goals
    rename_i heq
    cases heq
    try exact absurd rfl (hne _ (by decide))

/-! ### Rows and branches -/

/-- What can be repeated. -/
def Ast.isRepeatable : Ast → Bool
  | empty => false
  | flags _ _ => false
  | _ => true

theorem repeatLatest_cons {item : Ast} (h : item.isRepeatable = true) (min : Nat)
    (max : Option Nat) (greedy : Bool) (items : List Ast) :
    repeatLatest? min max greedy (item :: items)
      = some (.repetition min max greedy item :: items) := by
  cases item <;> first
    | rfl
    | cases h

theorem repeatLatest_eq_some {min : Nat} {max : Option Nat} {greedy : Bool}
    {items repeated : List Ast} (h : repeatLatest? min max greedy items = some repeated) :
    ∃ item before, items = item :: before ∧ repeated = .repetition min max greedy item :: before := by
  unfold repeatLatest? at h
  split at h
  · cases h
  · cases h
  · cases h
  · cases h
    exact ⟨_, _, rfl, rfl⟩

/-- Items that are alike, and can be repeated. -/
def AlikeItem (item other : Ast) : Prop := other.isRepeatable = true ∧ item.Alike other

/-- A row of items, read alone and after flags in a text of another
length. -/
def RowAlike (length steps : Nat) : Prop :=
  ∀ (flags : List Ast) {reading after : Reading} {items others out : List Ast}
    {cs left : List Char} {more : Nat}, reading.verbose = false → QuietItems cs →
    List.Forall₂ AlikeItem items others → steps ≤ more →
    parseItems? steps reading items cs = some (out, after, left) →
    after.verbose = false ∧ QuietFrom left ∧ ∃ out', List.Forall₂ AlikeItem out out' ∧
      parseItems? more (reading.sized length) (others ++ flags) cs
        = some (flags.reverse ++ out', after.sized length, left)

/-- Branches, read after some others and in a text of another length. -/
def BranchesAlike (length steps : Nat) : Prop :=
  ∀ (before' : List Ast) {reading after : Reading} {before : List Ast} {ast : Ast}
    {cs left : List Char} {more : Nat}, reading.verbose = false → QuietFrom cs → steps ≤ more →
    parseBranches? steps reading before cs = some (ast, after, left) →
    after.verbose = false ∧ QuietFrom left ∧ ∃ out out', List.Forall₂ Ast.Alike out out' ∧
      out ≠ [] ∧ ast = .ofBranches (before.reverse ++ out) ∧
      parseBranches? more (reading.sized length) before' cs
        = some (.ofBranches (before'.reverse ++ out'), after.sized length, left)

theorem forall₂_alike {items others : List Ast} (h : List.Forall₂ AlikeItem items others) :
    List.Forall₂ Ast.Alike items others :=
  h.imp fun _ _ halike => halike.2

theorem branchesAlike_succ {length steps : Nat} (hrow : RowAlike length steps)
    (hbranches : BranchesAlike length steps) : BranchesAlike length (steps + 1) := by
  intro before' reading after before ast cs left more hverbose hquiet hmore h
  obtain ⟨more, rfl⟩ : ∃ fewer, more = fewer + 1 := ⟨more - 1, by omega⟩
  have hmore := Nat.le_of_succ_le_succ hmore
  rw [parseBranches?] at h
  obtain ⟨⟨items, between, rest⟩, hitems, h⟩ := Option.bind_eq_some_iff.mp h
  obtain ⟨hverbose', hquiet', others, hothers, hread⟩ :=
    hrow [] hverbose (.inl hquiet) .nil hmore hitems
  have halike : Ast.Alike (.ofItems items) (.ofItems others) :=
    Ast.alike_ofItems (Ast.allAlike (forall₂_alike hothers))
  have hread : parseItems? more (reading.sized length) [] cs
      = some (others, between.sized length, rest) := hread
  simp only at h
  split at h
  · rename_i rest
    obtain ⟨hverbose'', hquiet'', out, out', hout, -, hast, hrest⟩ :=
      hbranches (.ofItems others :: before') hverbose' (hquiet'.plain (by decide)).2 hmore h
    refine ⟨hverbose'', hquiet'', .ofItems items :: out, .ofItems others :: out', .cons halike hout,
      List.cons_ne_nil _ _, ?_, ?_⟩
    · rw [hast, List.reverse_cons, List.append_assoc]
      rfl
    · rw [parseBranches?, hread]
      simp only [bind, Option.bind_some]
      rw [hrest, List.reverse_cons, List.append_assoc]
      rfl
  · cases h
    refine ⟨hverbose', hquiet', [.ofItems items], [.ofItems others], .cons halike .nil,
      List.cons_ne_nil _ _, by rw [List.reverse_cons], ?_⟩
    rw [parseBranches?, hread]
    simp only [bind, Option.bind_some]
    rw [List.reverse_cons]
    rfl

/-- A row ends before a bar, a closing parenthesis or the end. -/
theorem parseItems_stop (steps : Nat) (items : List Ast) (hverbose : reading.verbose = false)
    (hrest : ∀ c ∈ rest.head?, c = ')' ∨ c = '|') :
    parseItems? (steps + 1) reading items rest = some (items.reverse, reading, rest) := by
  rw [parseItems?, Reading.skipBlank_eq hverbose]
  cases rest with
  | nil => rfl
  | cons c rest => rcases hrest c rfl with rfl | rfl <;> rfl

theorem repetition_quiet {c : Char} {min : Nat} {max : Option Nat} {greedy : Bool}
    (hc : c ∈ "?*+\x7b".toList) (hquiet : QuietItems (c :: cs))
    (h : repetition? (c :: cs) = some (min, max, greedy, left)) : QuietFrom left := by
  have hlazy : ∀ {rest : List Char}, QuietFrom rest → lazyMark rest = (greedy, left) →
      QuietFrom left := by
    intro rest hrest hmark
    unfold lazyMark at hmark
    split at hmark
    · cases hmark
      exact (hrest.plain (by decide)).2
    · cases hmark
      exact hrest
  have hinj : ∀ {least : Nat} {most : Option Nat} {mark : Bool × List Char},
      some (least, most, mark) = some (min, max, greedy, left) → mark = (greedy, left) :=
    fun heq => (Prod.mk.inj (Prod.mk.inj (Option.some.inj heq)).2).2
  have hplain : c ≠ '\x7b' → Part.isPlain c = true → QuietFrom cs := by
    intro hbrace hplain
    have hhead : (c :: cs).head? ≠ some '\x7b' := fun heq => hbrace (Option.some.inj heq)
    exact ((hquiet.quietFrom hhead).plain hplain).2
  simp only [String.reduceToList, List.mem_cons, List.not_mem_nil, or_false] at hc
  rcases hc with rfl | rfl | rfl | rfl
  · exact hlazy (hplain (by decide) (by decide)) (hinj h)
  · exact hlazy (hplain (by decide) (by decide)) (hinj h)
  · exact hlazy (hplain (by decide) (by decide)) (hinj h)
  · obtain ⟨⟨least, most, after⟩, hbounds, heq⟩ := Option.map_eq_some_iff.mp h
    obtain ⟨inner, rfl, hinner⟩ := parseBounds_eq_some hbounds
    exact hlazy (hquiet.braces fun c hc => isPlain_of_isBoundsChar (hinner c hc))
      (hinj (congrArg some heq))

/-- A row goes on with one more item. -/
theorem RowAlike.push {length steps more : Nat} (hrow : RowAlike length steps) {flags : List Ast}
    {after : Reading} {item other : Ast} {items others out : List Ast}
    (hverbose : reading.verbose = false) (hquiet : QuietItems cs) (halike : AlikeItem item other)
    (hitems : List.Forall₂ AlikeItem items others) (hmore : steps ≤ more)
    (h : parseItems? steps reading (item :: items) cs = some (out, after, left)) :
    after.verbose = false ∧ QuietFrom left ∧ ∃ out', List.Forall₂ AlikeItem out out' ∧
      parseItems? more (reading.sized length) (other :: (others ++ flags)) cs
        = some (flags.reverse ++ out', after.sized length, left) :=
  hrow flags hverbose hquiet (.cons halike hitems) hmore h

theorem rowAlike_succ {length steps : Nat} (hrow : RowAlike length steps)
    (hbranches : BranchesAlike length steps) : RowAlike length (steps + 1) := by
  intro flags reading after items others out cs left more hverbose hquiet hitems hmore h
  obtain ⟨more, rfl⟩ : ∃ fewer, more = fewer + 1 := ⟨more - 1, by omega⟩
  have hmore := Nat.le_of_succ_le_succ hmore
  have hsized : (reading.sized length).verbose = false := hverbose
  by_cases hstop : ∀ c ∈ cs.head?, c = ')' ∨ c = '|'
  · rw [parseItems_stop steps items hverbose hstop] at h
    cases h
    have hbrace : cs.head? ≠ some '\x7b' := fun hhead => by
      rcases hstop '\x7b' hhead with hsame | hsame <;> cases hsame
    refine ⟨hverbose, hquiet.quietFrom hbrace, others.reverse,
      List.forall₂_reverse_iff.mpr hitems, ?_⟩
    rw [parseItems_stop more (others ++ flags) hsized hstop, List.reverse_append]
  cases cs with
  | nil => exact absurd (fun c hc => nomatch hc) hstop
  | cons c cs =>
    have hend : c ≠ ')' ∧ c ≠ '|' := by
      constructor
      · rintro rfl
        exact hstop fun d hd => .inl (Option.some.inj hd).symm
      · rintro rfl
        exact hstop fun d hd => .inr (Option.some.inj hd).symm
    by_cases hrepeat : c ∈ "?*+\x7b".toList
    · -- The latest item is repeated.
      rw [parseItems_repetition steps items hverbose hrepeat] at h
      obtain ⟨⟨min, max, greedy, rest⟩, hmark, h⟩ := Option.bind_eq_some_iff.mp h
      obtain ⟨repeated, hlatest, h⟩ := Option.bind_eq_some_iff.mp h
      obtain ⟨item, before, rfl, rfl⟩ := repeatLatest_eq_some hlatest
      cases hitems with
      | @cons _ other _ others hitem hbefore =>
        obtain ⟨hrepeatable, halike⟩ := hitem
        rw [parseItems_repetition more (other :: others ++ flags) hsized hrepeat, hmark,
          List.cons_append]
        simp only [Option.bind_some, repeatLatest_cons hrepeatable]
        exact hrow.push hverbose (.inl (repetition_quiet hrepeat hquiet hmark))
          ⟨rfl, Ast.alike_repetition halike min max greedy⟩ hbefore hmore h
    have hbrace : (c :: cs).head? ≠ some '\x7b' := by
      intro hhead
      exact hrepeat (by rw [Option.some.inj hhead]; decide)
    have hquiet := hquiet.quietFrom hbrace
    by_cases hgroup : c = '('
    · -- A group has branches in it.
      subst hgroup
      cases hopening : parseOpening? reading cs with
      | none =>
        rw [parseItems?, Reading.skipBlank_eq hverbose] at h
        simp only [hopening] at h
        cases h
      | some found =>
        obtain ⟨opening, inside, rest⟩ := found
        obtain ⟨⟨kind, rfl, hkind⟩, hinside, hrest⟩ := parseOpening_quiet hverbose hquiet hopening
        have hopening' : parseOpening? (reading.sized length) cs
            = some (.group kind, inside.sized length, rest) := by
          rw [parseOpening_sized, hopening]
          rfl
        rw [parseItems_opening steps items hverbose hinside hkind hopening] at h
        have hinside' : (inside.sized length).verbose = false := hinside
        rw [parseItems_opening more (others ++ flags) hsized hinside' hkind hopening']
        obtain ⟨⟨body, between, closed⟩, hbody, h⟩ := Option.bind_eq_some_iff.mp h
        obtain ⟨hbetween, hclosed, out, out', hbranches, hne, rfl, hbody'⟩ :=
          hbranches [] hinside hrest hmore hbody
        have hne' : out' ≠ [] := by
          rintro rfl
          cases hbranches
          exact hne rfl
        have halike := Ast.alike_group
          (Ast.alike_ofBranches (Ast.allAlike hbranches) hne hne') hkind
        rw [hbody', Option.bind_some]
        simp only at h ⊢
        split at h
        · have hwith : { between with verbose := false } = between := by
            rw [← hbetween]
          rw [hwith] at h
          have hwith : { between.sized length with verbose := false } = between.sized length := by
            rw [← hbetween]
            rfl
          simp only [hwith]
          exact hrow.push hbetween (.inl hclosed.close) ⟨rfl, halike _ _⟩ hitems hmore h
        · cases h
    by_cases hclass : c = '['
    · -- A class is read.
      subst hclass
      rw [parseItems_class_eq steps items, hverbose] at h
      obtain ⟨⟨set, rest⟩, hset, h⟩ := Option.bind_eq_some_iff.mp h
      obtain ⟨hignores, hrest⟩ := ignoresCase_of_parseClass hquiet hset
      rw [parseItems_class_eq more (others ++ flags), hsized, hset]
      exact hrow.push hverbose (.inl hrest) ⟨rfl, Ast.alike_bracket hignores _ _⟩ hitems hmore h
    -- A single piece is read.
    have hmark : isMark c = false := by
      simp only [String.reduceToList, List.mem_cons, List.not_mem_nil, or_false, not_or] at hrepeat
      simp [isMark, hend, hgroup, hclass, hrepeat]
    rw [parseItems_primitive steps items (Reading.skipBlank_eq hverbose _) hmark, hverbose] at h
    obtain ⟨⟨piece, rest⟩, hpiece, h⟩ := Option.bind_eq_some_iff.mp h
    obtain ⟨halike, hrest⟩ := alike_parsePrimitive hmark hquiet hpiece
    rw [parseItems_primitive more (others ++ flags) (Reading.skipBlank_eq hsized _) hmark, hsized, hpiece]
    exact hrow.push hverbose hrest ⟨rfl, halike⟩ hitems hmore h

theorem readsAlike (length steps : Nat) : RowAlike length steps ∧ BranchesAlike length steps := by
  induction steps with
  | zero =>
    refine ⟨?_, ?_⟩
    · intro flags reading after items others out cs left more _ _ _ _ h
      cases h
    · intro before' reading after before ast cs left more _ _ _ h
      cases h
  | succ steps ih => exact ⟨rowAlike_succ ih.1 ih.2, branchesAlike_succ ih.1 ih.2⟩

/-! ### Whole patterns -/

/-- A pattern, and the same one after flags: the flags stand in its first
branch, and all else is alike. -/
structure AfterFlags (ast other : Ast) (items others branches branches' : List Ast)
    (place : Place) : Prop where
  alone : ast = .ofBranches (.ofItems items :: branches)
  flagged : other = .ofBranches (.ofItems (.flags [(.ignoreCase, true)] place :: others) :: branches')
  items : List.Forall₂ AlikeItem items others
  branches : List.Forall₂ Ast.Alike branches branches'

theorem parse_ignoreFlags {source : List Char} {ast : Ast} {groups : Nat}
    (hquiet : QuietFrom source) (h : parse? source = some (ast, groups)) :
    ∃ other items others branches branches' place,
      AfterFlags ast other items others branches branches' place ∧
        parse? (ignoreFlags ++ source)
          = if other.depth ≤ maxDepth then some (other, groups) else none := by
  obtain ⟨⟨whole, after, rest⟩, hread, h⟩ := Option.bind_eq_some_iff.mp h
  simp only at h
  split at h
  case h_2 => cases h
  split at h
  case isFalse => cases h
  cases h
  let start : Reading := ⟨source.length + 4, false, 0, []⟩
  obtain ⟨place, hflags⟩ := parseItems_ignoreFlags start rfl (2 * source.length + 8) source
  rw [parseBranches?] at hread
  obtain ⟨⟨items, between, rest⟩, hitems, hread⟩ := Option.bind_eq_some_iff.mp hread
  obtain ⟨hverbose, hrest, others, hothers, hitems'⟩ := (readsAlike (source.length + 4) _).1
    [.flags [(.ignoreCase, true)] place] rfl (.inl hquiet) .nil
    (show 2 * source.length + 1 ≤ 2 * source.length + 8 by omega) hitems
  have hfirst : parseItems? (2 * source.length + 9) start [] (ignoreFlags ++ source)
      = some (.flags [(.ignoreCase, true)] place :: others,
        between.sized (source.length + 4), rest) := hflags.trans hitems'
  have hparse : ∀ {other : Ast},
      parseBranches? (2 * source.length + 10) start [] (ignoreFlags ++ source)
        = some (other, after.sized (source.length + 4), []) →
      parse? (ignoreFlags ++ source)
        = if other.depth ≤ maxDepth then some (other, after.groups) else none := by
    intro other hother
    have hbranches : parseBranches? (2 * (ignoreFlags ++ source).length + 2)
        ⟨(ignoreFlags ++ source).length, false, 0, []⟩ [] (ignoreFlags ++ source)
        = some (other, after.sized (source.length + 4), []) := hother
    unfold parse?
    simp only [hbranches, bind, Option.bind_some]
    rfl
  simp only at hread
  split at hread
  · rename_i rest
    obtain ⟨-, -, branches, branches', halike, -, hast, hbranches⟩ :=
      (readsAlike (source.length + 4) _).2
        [.ofItems (.flags [(.ignoreCase, true)] place :: others)] hverbose
        (hrest.plain (by decide)).2
        (show 2 * source.length + 1 ≤ 2 * source.length + 9 by omega) hread
    refine ⟨_, items, others, branches, branches', place, ⟨hast, rfl, hothers, halike⟩, hparse ?_⟩
    rw [parseBranches?, hfirst]
    exact hbranches
  · cases hread
    refine ⟨_, items, others, [], [], place, ⟨rfl, rfl, hothers, .nil⟩, hparse ?_⟩
    rw [parseBranches?, hfirst]
    rfl

theorem rangesAll_cons (item : Ast) (items : List Ast) :
    Ast.rangesAll (item :: items) = item.ranges ++ Ast.rangesAll items := rfl

/-- Flags in front take no part in what is matched. -/
theorem run_altAll_flags (first rest : List Node) (search : Search) (limit : Option Nat) :
    (Node.altAll (.seqAll (.empty :: first) :: rest)).run search limit
      = (Node.altAll (.seqAll first :: rest)).run search limit := by
  have hfirst : (Node.seqAll (.empty :: first)).run search limit
      = (Node.seqAll first).run search limit := by
    cases first with
    | nil => rfl
    | cons node first =>
      funext rest
      show (Node.seq .empty (.seqAll (node :: first))).run search limit rest = _
      rw [Node.run, Node.run]
  cases rest with
  | nil => exact hfirst
  | cons node rest =>
    funext rest'
    show (Node.alt (.seqAll (.empty :: first)) (.altAll (node :: rest))).run search limit rest'
      = (Node.alt (.seqAll first) (.altAll (node :: rest))).run search limit rest'
    rw [Node.run, Node.run, hfirst]

theorem AfterFlags.meaning {ast other : Ast} {items others branches branches' : List Ast}
    {place : Place} (h : AfterFlags ast other items others branches branches' place)
    (hranges : AreCaseClosed ast.ranges) :
    ∃ node node' after, ast.meaning? .initial = some (node, .initial) ∧
      other.meaning? .initial = some (node', after) ∧
      ∀ search limit, node'.run search limit = node.run search limit := by
  obtain ⟨rfl, rfl, hitems, hbranches⟩ := h
  rw [Ast.ranges_ofBranches (List.cons_ne_nil _ _), rangesAll_cons, Ast.ranges_ofItems] at hranges
  obtain ⟨hclosed, hclosed'⟩ := areCaseClosed_append.mp hranges
  obtain ⟨first, hfirst, hfirst'⟩ := Ast.allAlike (forall₂_alike hitems) hclosed
  obtain ⟨rest, hrest, hrest'⟩ := Ast.allAlike hbranches hclosed'
  have hrow : Ast.meanings? .initial (.ofItems items :: branches)
      = some (.seqAll first :: rest, .initial) :=
    Ast.meanings_cons_of (Ast.meaning_ofItems_of hfirst) hrest
  have hflags : Ast.meanings? .initial (.flags [(.ignoreCase, true)] place :: others)
      = some (.empty :: first, .plain true) := Ast.meanings_cons_of rfl hfirst'
  have hrow' : Ast.meanings? .initial
        (.ofItems (.flags [(.ignoreCase, true)] place :: others) :: branches')
      = some (.seqAll (.empty :: first) :: rest, .plain true) :=
    Ast.meanings_cons_of (Ast.meaning_ofItems_of hflags) hrest'
  exact ⟨_, _, _, Ast.meaning_ofBranches_of (List.cons_ne_nil _ _) hrow,
    Ast.meaning_ofBranches_of (List.cons_ne_nil _ _) hrow', run_altAll_flags first rest⟩

end Highlighter.Regex.Regular
