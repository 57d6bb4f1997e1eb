import Highlighter.Proofs.Regex.ClassExtent
import Highlighter.Proofs.Regex.Regular.Derivation

/-!
# What is read and what is split

One thing that the regular dialect reads is one part that `Part.read` splits off: an escape, a class,
what opens a group, flags. Here this is said for each of them, with what is left after it. Only the
braces after a word boundary differ: where they hold no name, they repeat the boundary, and the
splitter takes them along with it (`Seen`).
-/

set_option autoImplicit false

namespace Highlighter.Regex.Regular

open Pattern

variable {cs left rest : List Char} {reading inside : Reading}

/-! ### Escapes -/

/-- What the splitter has left where the reader has `left`: the same, or what follows braces that
the splitter has taken along. -/
def Seen (left seen : List Char) : Prop :=
  seen = left ∨ left.head? = some '{' ∧ seen = left.drop (Part.closingExtent '}' left)

theorem Seen.eq {seen : List Char} (h : Seen left seen) (hbrace : left.head? ≠ some '{') :
    seen = left := by
  rcases h with rfl | ⟨hhead, -⟩
  · rfl
  · exact absurd hhead hbrace

theorem eq_codeText {width : Nat} {text digits : List Char}
    (h : CodeText width text digits) :
    ∃ braced, text = codeText braced digits ∧ (braced = false → digits.length = width) := by
  cases h with
  | braced => exact ⟨true, rfl, nofun⟩
  | fixed hwidth => exact ⟨false, rfl, fun _ => hwidth⟩

theorem drop_escapeExtent_of_code {letter : Char} {piece : Primitive} (hwidth : codeWidth letter ≠ 0)
    (h : parseCode? false (codeWidth letter) rest = some (piece, left)) :
    rest.drop (Part.escapeExtent letter rest) = left := by
  obtain ⟨text, digits, code, c, byte, rfl, htext, hcode, -, -⟩ := parseCode_eq_some hwidth h
  have hdigits : digits ≠ [] := by
    rintro rfl
    cases hcode
  have hhex := isHexDigit_of_hexNumber hcode
  obtain ⟨braced, rfl, hlength⟩ := eq_codeText htext
  have hwf : (Expr.coded letter braced digits).WellFormed := ⟨⟨hwidth, hdigits, hhex⟩, hlength⟩
  rw [Part.escapeExtent_code hwf, List.drop_left]

theorem closingExtent_braces {inner : List Char} (h : '}' ∉ inner) (left : List Char) :
    Part.closingExtent '}' ('{' :: (inner ++ '}' :: left)) = inner.length + 2 := by
  rw [Part.closingExtent, closingExtent_append h]
  rfl

theorem drop_braces (inner left : List Char) :
    ('{' :: (inner ++ '}' :: left)).drop (inner.length + 2) = left := by
  simp

theorem drop_escapeExtent_of_property {letter : Char} {negated : Bool} {piece : Primitive}
    (hletter : letter = 'p' ∨ letter = 'P')
    (h : parseProperty? false negated rest = some (piece, left)) :
    rest.drop (Part.escapeExtent letter rest) = left := by
  unfold parseProperty? at h
  rw [skipBlank_false] at h
  split at h
  · cases h
  · obtain ⟨⟨inner, after⟩, hinner, h⟩ := Option.bind_eq_some_iff.mp h
    cases h
    obtain ⟨rfl, hmem⟩ := untilBrace_eq_some hinner
    have hextent : Part.escapeExtent letter ('{' :: (inner ++ '}' :: left)) = inner.length + 2 := by
      rw [← closingExtent_braces hmem left]
      rcases hletter with rfl | rfl <;> rfl
    rw [hextent, drop_braces]
  · cases h
  · rename_i c after hbrace _
    cases h
    have hextent : Part.escapeExtent letter (c :: after) = 1 := by
      have hhead : ¬c = '{' := hbrace
      rcases hletter with rfl | rfl <;> simp [Part.escapeExtent, hhead]
    rw [hextent, List.drop_one, List.tail_cons, skipBlank_false]

/-- After the letter of a word boundary, the splitter takes along whatever stands in braces. -/
theorem seen_boundary {letter : Char} (hletter : letter = 'b' ∨ letter = 'B') (left : List Char) :
    Seen left (left.drop (Part.escapeExtent letter left)) := by
  by_cases hhead : left.head? = some '{'
  · refine .inr ⟨hhead, ?_⟩
    rcases hletter with rfl | rfl <;> simp [Part.escapeExtent, hhead]
  · refine .inl ?_
    rcases hletter with rfl | rfl <;> simp [Part.escapeExtent, hhead]

theorem isDigit_of_parseEscape {letter : Char} {piece : Primitive}
    (h : parseEscape? false (letter :: rest) = some (piece, left)) : letter.isDigit = false :=
  Bool.eq_false_iff.mpr fun hdigit => by
    rw [parseEscape_digit hdigit] at h
    cases h

/-- An escape other than a word boundary is as long for the splitter as for the reader. -/
theorem drop_escapeExtent_of_parseEscape {letter : Char} {piece : Primitive}
    (h : parseEscape? false (letter :: rest) = some (piece, left))
    (hboundary : letter ≠ 'b' ∧ letter ≠ 'B') :
    rest.drop (Part.escapeExtent letter rest) = left := by
  by_cases hletter : "xuUpPb".toList.contains letter = true
  · have hcases : letter = 'x' ∨ letter = 'u' ∨ letter = 'U' ∨ letter = 'p' ∨ letter = 'P' ∨
        letter = 'b' := by simpa using hletter
    rcases hcases with rfl | rfl | rfl | rfl | rfl | rfl
    · exact drop_escapeExtent_of_code (by decide) h
    · exact drop_escapeExtent_of_code (by decide) h
    · exact drop_escapeExtent_of_code (by decide) h
    · exact drop_escapeExtent_of_property (.inl rfl) h
    · exact drop_escapeExtent_of_property (.inr rfl) h
    · exact absurd rfl hboundary.1
  · have hletter := Bool.eq_false_iff.mpr hletter
    rw [parseEscape_letter hletter] at h
    obtain ⟨found, hfound, heq⟩ := Option.map_eq_some_iff.mp h
    cases heq
    have hname : letter ≠ 'k' := by
      rintro rfl
      cases hfound
    rw [Expr.escapeExtent_eq_zero (by simp_all), List.drop_zero]

theorem drop_escapeExtent_of_name {name : List Char} (h : ∀ c ∈ name, isBoundaryNameChar c = true)
    (left : List Char) :
    ('{' :: (name ++ '}' :: left)).drop (Part.escapeExtent 'b' ('{' :: (name ++ '}' :: left)))
      = left := by
  have hmem : '}' ∉ name := fun hmem => absurd (h '}' hmem) (by decide)
  have hextent : Part.escapeExtent 'b' ('{' :: (name ++ '}' :: left)) = name.length + 2 :=
    closingExtent_braces hmem left
  rw [hextent, drop_braces]

/-- An escape is as long for the splitter as for the reader, but for braces after a word
boundary. -/
theorem seen_of_parseEscape {letter : Char} {piece : Primitive}
    (h : parseEscape? false (letter :: rest) = some (piece, left)) :
    letter.isDigit = false ∧ Seen left (rest.drop (Part.escapeExtent letter rest)) := by
  refine ⟨isDigit_of_parseEscape h, ?_⟩
  by_cases hb : letter = 'b'
  · subst hb
    rcases parseBoundary_eq_some h with rfl | ⟨name, rfl, hname⟩
    · exact seen_boundary (.inl rfl) _
    · exact .inl (drop_escapeExtent_of_name hname left)
  by_cases hword : letter = 'B'
  · subst hword
    cases h
    exact seen_boundary (.inr rfl) _
  · exact .inl (drop_escapeExtent_of_parseEscape h ⟨hb, hword⟩)

/-! ### Classes and repetitions -/

theorem drop_classExtent {set : ClassSet} (h : parseClass? false rest = some (set, left))
    (hknown : set.IsKnown) (hhides : hidesEnd rest = false) :
    rest.drop (Part.classExtent rest) = left := by
  obtain ⟨text, rfl, hextent⟩ := classExtent_of_parseClass h hknown hhides
  rw [hextent, List.drop_left]

theorem plain_of_lazyMark {greedy : Bool} (h : lazyMark rest = (greedy, left)) :
    ∃ text, rest = text ++ left ∧ ∀ c ∈ text, Part.isPlain c = true := by
  unfold lazyMark at h
  split at h
  · cases h
    exact ⟨['?'], rfl, List.forall_mem_singleton.mpr rfl⟩
  · cases h
    exact ⟨[], rfl, List.forall_mem_nil _⟩

/-- What repeats a piece is no part of its own, whether or not the splitter has taken the braces
along. -/
theorem plain_of_counted {min : Nat} {max : Option Nat} {greedy : Bool} {seen : List Char}
    (h : counted? false cs = some (min, max, greedy, left)) (hseen : Seen cs seen) :
    ∃ text, seen = text ++ left ∧ ∀ c ∈ text, Part.isPlain c = true := by
  have hsign : ∀ {c : Char} {after : List Char}, cs = c :: after → c ≠ '{' →
      Part.isPlain c = true → lazyMark after = (greedy, left) →
      ∃ text, seen = text ++ left ∧ ∀ c ∈ text, Part.isPlain c = true := by
    rintro c after rfl hbrace hplain hlazy
    obtain ⟨text, rfl, htext⟩ := plain_of_lazyMark hlazy
    refine ⟨c :: text, hseen.eq fun hhead => hbrace (Option.some.inj hhead), ?_⟩
    exact List.forall_mem_cons.mpr ⟨hplain, htext⟩
  unfold counted? at h
  split at h
  · obtain ⟨-, -, h⟩ : _ ∧ _ ∧ _ := by simpa using h
    exact hsign rfl (by decide) rfl h
  · obtain ⟨-, -, h⟩ : _ ∧ _ ∧ _ := by simpa using h
    exact hsign rfl (by decide) rfl h
  · obtain ⟨-, -, h⟩ : _ ∧ _ ∧ _ := by simpa using h
    exact hsign rfl (by decide) rfl h
  · obtain ⟨⟨least, most, after⟩, hbounds, heq⟩ := Option.map_eq_some_iff.mp h
    obtain ⟨inner, rfl, hinner⟩ := parseBounds_eq_some hbounds
    have hlazy : lazyMark after = (greedy, left) := by
      simpa [skipBlank_false] using (Prod.mk.inj (Prod.mk.inj heq).2).2
    obtain ⟨text, rfl, htext⟩ := plain_of_lazyMark hlazy
    rcases hseen with rfl | ⟨-, rfl⟩
    · refine ⟨'{' :: (inner ++ '}' :: text), by simp, ?_⟩
      exact List.forall_mem_cons.mpr ⟨rfl, List.forall_mem_append.mpr
        ⟨fun c hc => (isPlain_of_isBoundsChar (hinner c hc)).1,
          List.forall_mem_cons.mpr ⟨rfl, htext⟩⟩⟩
    · have hmem : '}' ∉ inner := fun hmem => (isPlain_of_isBoundsChar (hinner '}' hmem)).2 rfl
      exact ⟨text, by rw [closingExtent_braces hmem, drop_braces], htext⟩
  · cases h

/-! ### What opens a group -/

/-- What flag letters do, where `on` says whether a hyphen has come yet. -/
def flagChange (on : Bool) : List Char → FlagChange
  | [] => []
  | '-' :: rest => flagChange false rest
  | c :: rest => (Flag.ofLetter? c).toList.map (·, on) ++ flagChange on rest

theorem flagChange_of_parseFlags {on : Bool} {change changed : FlagChange}
    (h : parseFlags? on change cs = some (changed, left)) :
    ∃ letters, cs = letters ++ left ∧ (∀ c ∈ letters, Part.isFlagChar c = true) ∧
      changed = change ++ flagChange on letters := by
  fun_induction parseFlags? on change cs with
  | case1 => cases h
  | case2 =>
    cases h
    exact ⟨[], rfl, List.forall_mem_nil _, (List.append_nil _).symm⟩
  | case3 =>
    cases h
    exact ⟨[], rfl, List.forall_mem_nil _, (List.append_nil _).symm⟩
  | case4 on change c rest hcond ih =>
    obtain ⟨letters, heq, hletters, rfl⟩ := ih h
    exact ⟨'-' :: letters, congrArg ('-' :: ·) heq, List.forall_mem_cons.mpr ⟨rfl, hletters⟩, rfl⟩
  | case5 => cases h
  | case6 => cases h
  | case7 on change c rest _ _ hhyphen ih =>
    obtain ⟨flag, hflag, h⟩ := Option.bind_eq_some_iff.mp h
    split at h
    · cases h
    · obtain ⟨letters, heq, hletters, rfl⟩ := ih flag h
      refine ⟨c :: letters, congrArg (c :: ·) heq,
        List.forall_mem_cons.mpr ⟨isFlagChar_of_ofLetter hflag, hletters⟩, ?_⟩
      have hc : c ≠ '-' := hhyphen
      rw [flagChange, hflag, List.append_assoc]
      · rfl
      · exact hc

/-- The part that opens a group of a kind. -/
inductive Opens : GroupKind → Pattern.Opening → Prop where
  | capturing (index : Nat) (name : Option String) {opening : Pattern.Opening}
    (hcapture : opening.isCapturing = true) : Opens (.capturing index name) opening
  | flagged (letters : List Char) : Opens (.flagged (flagChange true letters)) (.flagged letters)

/-- How many groups a group captures, itself only. -/
def GroupKind.captures : GroupKind → Nat
  | capturing _ _ => 1
  | flagged _ => 0

/-- What follows an opening parenthesis, for the reader and for the splitter. -/
inductive OpeningRead (reading : Reading) (cs : List Char) (inside : Reading) (left : List Char) :
    Regular.Opening → Prop where
  | flags {letters : List Char} (hcs : cs = '?' :: (letters ++ ')' :: left))
    (hletters : ∀ c ∈ letters, Part.isFlagChar c = true) (hinside : inside = reading) :
    OpeningRead reading cs inside left (.flags (flagChange true letters))
  | group {text : List Char} {kind : GroupKind} {opening : Pattern.Opening}
    (hcs : cs = text ++ left) (hread : Part.readOpening cs = (.opening opening, text.length))
    (hopens : Opens kind opening) (hlength : inside.length = reading.length)
    (hverbose : inside.verbose = reading.verbose)
    (hgroups : inside.groups = reading.groups + kind.captures) :
    OpeningRead reading cs inside left (.group kind)

theorem readOpening_capture {cs : List Char} (h : cs.head? ≠ some '?') :
    Part.readOpening cs = (.opening .capture, 0) := by
  have hname : Part.nameExtent? cs = none := by
    unfold Part.nameExtent?
    split
    · exact absurd rfl h
    · rfl
    · rfl
    · exact absurd rfl h
    · rfl
  unfold Part.readOpening
  simp only [hname]
  split
  · exact absurd rfl h
  · rfl

theorem openingRead_of_parseOpening {opening : Regular.Opening} (hverbose : reading.verbose = false)
    (h : parseOpening? reading cs = some (opening, inside, left)) :
    OpeningRead reading cs inside left opening := by
  have hnamed : ∀ {mark text : List Char}, mark = ['?', 'P', '<'] ∨ mark = ['?', '<'] →
      cs = mark ++ text → ((parseName? text).bind fun found =>
        if reading.names.contains found.1 then none
        else some (Opening.group (.capturing (reading.groups + 1) (some found.1)),
          { reading with groups := reading.groups + 1, names := found.1 :: reading.names },
          found.2))
        = some (opening, inside, left) → OpeningRead reading cs inside left opening := by
    intro mark text hmark hcs hread
    obtain ⟨⟨name, after⟩, hname, hread⟩ := Option.bind_eq_some_iff.mp hread
    obtain ⟨chars, htext, hne, hequals, hbang, hchars⟩ := parseName_eq_some hname
    simp only at hread
    split at hread
    · cases hread
    · cases hread
      subst hcs htext
      have hopen := readOpening_named hmark (fun hmem => (hchars '>' hmem).2 rfl) ⟨hequals, hbang⟩
        hne left
      exact .group (by simp) hopen (.capturing _ _ rfl) rfl rfl rfl
  unfold parseOpening? at h
  simp only [Reading.skipBlank_eq hverbose] at h
  split at h
  · cases h
  · cases h
  · cases h
  · cases h
  · exact hnamed (.inl rfl) rfl h
  · exact hnamed (.inr rfl) rfl h
  · rename_i flags _ _ _ _ _ _
    obtain ⟨⟨change, after⟩, hflags, h⟩ := Option.bind_eq_some_iff.mp h
    obtain ⟨letters, rfl, hletters, rfl⟩ := flagChange_of_parseFlags hflags
    simp only [List.nil_append] at h
    split at h
    · cases h
    · rename_i heq
      cases h
      cases heq
      exact .flags rfl hletters rfl
    · rename_i heq
      cases h
      cases heq
      have hopen : Part.readOpening ('?' :: (letters ++ ':' :: left))
          = (.opening (.flagged letters), ('?' :: (letters ++ [':'])).length) := by
        rw [readOpening_flags (.inl rfl) hletters, if_pos rfl]
        simp
      exact .group (by simp) hopen (.flagged letters) rfl rfl rfl
    · cases h
  · rename_i hquestion
    cases h
    have hhead : cs.head? ≠ some '?' := fun hhead => by
      obtain ⟨others, rfl⟩ := List.head?_eq_some_iff.mp hhead
      exact hquestion others rfl
    exact .group (List.nil_append _).symm (readOpening_capture hhead) (.capturing _ _ rfl) rfl rfl rfl

end Highlighter.Regex.Regular
