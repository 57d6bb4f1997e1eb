import Highlighter.Proofs.Pattern.Folded

/-!
# Texts in which splitting sees nothing cased

Whether a pattern is cased is decided part by part. The lemmas here say
what that tells of its text character by character, whatever the reader
of patterns makes of it: `Quiet view cs` says that nothing cased is seen
in the rest of a pattern, where splitting has come to a given place,
outside of classes or inside of one at some depth. From there one step
is taken over a character (`Quiet.plain`), an escape
(`Quiet.escape_inside`, `quiet_escape`) or a bracket (`Quiet.open_inside`,
`Quiet.close_inside`).

Two texts are split differently from what the reader makes of them. A
class that nests one which starts with its closing bracket
(`nestsClosing`) is left too early, and is excluded by `Part.isQuiet`. A
hyphen before an opening bracket makes splitting stay in a class for too
long, which does no harm: everything that is in a class is looked at.
-/

set_option autoImplicit false

namespace Highlighter.Pattern

open Regex Unicode

/-! ### Quiet parts -/

/-- Whether a class, after its first bracket, nests one that starts with
its closing bracket. -/
def nestsClosing : List Char → Bool
  | '\\' :: _ :: rest => nestsClosing rest
  | '[' :: rest =>
    rest.head? == some ']' || (rest.head? == some '^' && rest.tail.head? == some ']') ||
      nestsClosing rest
  | _ :: rest => nestsClosing rest
  | [] => false

namespace Part

/-- Whether a part turns flags on or off. -/
def setsFlags (part : Part) : Bool := part.flagLetters?.any fun letters => !letters.isEmpty

/-- Whether a part is a class that nests one which starts with its
closing bracket. -/
def isMissplit : Part → Bool
  | bracket text => nestsClosing text.tail
  | _ => false

/-- Whether a part spells nothing cased, sets no flags, and ends where
the reader of patterns ends it. -/
def isQuiet (part : Part) : Bool := !part.isCased && !part.setsFlags && !part.isMissplit

theorem isQuiet_iff (part : Part) : part.isQuiet = true ↔
    part.isCased = false ∧ part.setsFlags = false ∧ part.isMissplit = false := by
  simp [isQuiet, and_assoc]

/-- A run is quiet if each of its characters is. -/
theorem isQuiet_of_mem_fine {parts : List Part} (h : ∀ part ∈ parts, part.isQuiet = true) :
    ∀ part ∈ fine parts, part.isQuiet = true := by
  intro piece hpiece
  obtain ⟨part, hpart, hpiece⟩ := List.mem_flatMap.mp hpiece
  have hquiet := h part hpart
  unfold fineOf at hpiece
  split at hpiece
  · obtain ⟨d, hd, rfl⟩ := List.mem_map.mp hpiece
    have hcased := List.any_eq_false.mp ((isQuiet_iff _).mp hquiet).1 d hd
    refine (isQuiet_iff _).mpr ⟨?_, rfl, rfl⟩
    show [d].any Unicode.isCased = false
    simpa using hcased
  · rw [List.mem_singleton.mp hpiece]
    exact hquiet

end Part

/-! ### Quiet texts -/

/-- Outside of classes, all parts are quiet. -/
def QuietOutside (cs : List Char) : Prop :=
  ∀ part ∈ Part.fine (Part.split cs), part.isQuiet = true

/-- Inside of a class of which some characters are left. -/
structure QuietClass (extent : Nat) (cs : List Char) : Prop where
  spells : spellsCase (cs.take extent) = false
  nests : nestsClosing (cs.take extent) = false
  after : QuietOutside (cs.drop extent)

/-- Nothing cased is seen in the rest of a pattern. Splitting has come to
a place outside of classes, or inside of one with some brackets nested
in it. -/
def Quiet : Option Nat → List Char → Prop
  | none, cs => QuietOutside cs
  | some depth, cs => QuietClass (Part.classRest depth cs) cs

/-- As `Quiet`, where a class has just opened. -/
def QuietOpened (cs : List Char) : Prop := QuietClass (Part.classExtent cs) cs

/-- As `Quiet`, before braces that splitting takes for those of an
escape. -/
structure QuietBraces (cs : List Char) : Prop where
  head : cs.head? = some '{'
  after : QuietOutside (cs.drop (Part.closingExtent '}' cs))

variable {cs : List Char} {c : Char}

/-! ### Steps in a class -/

theorem spellsCase_cons (hslash : c ≠ '\\') (rest : List Char) :
    spellsCase (c :: rest) = (isCased c || spellsCase rest) := by
  rw [spellsCase]
  exact fun letter others heq => absurd heq hslash

theorem nestsClosing_cons (hslash : c ≠ '\\') (hopen : c ≠ '[') (rest : List Char) :
    nestsClosing (c :: rest) = nestsClosing rest := by
  rw [nestsClosing]
  · exact fun d others heq => absurd heq hslash
  · exact hopen

/-- A character that is a member, and the rest of the class after it. -/
theorem QuietClass.cons {extent : Nat} (h : QuietClass (extent + 1) (c :: cs)) (hslash : c ≠ '\\')
    (hopen : c ≠ '[') : isCased c = false ∧ QuietClass extent cs := by
  obtain ⟨hspells, hnests, hafter⟩ := h
  rw [List.take_succ_cons, spellsCase_cons hslash, Bool.or_eq_false_iff] at hspells
  rw [List.take_succ_cons, nestsClosing_cons hslash hopen] at hnests
  exact ⟨hspells.1, hspells.2, hnests, hafter⟩

/-- An escape in a class stands for nothing cased. -/
theorem Quiet.escape_inside {depth : Nat} {letter : Char}
    (h : Quiet (some depth) ('\\' :: letter :: cs)) :
    isCasedEscape letter = false ∧ Quiet (some depth) cs := by
  obtain ⟨hspells, hnests, hafter⟩ := h
  rw [Part.classRest] at hspells hnests hafter
  obtain ⟨hletter, hspells⟩ := Bool.or_eq_false_iff.mp hspells
  exact ⟨hletter, hspells, hnests, hafter⟩

/-- A class that nests does not start with its closing bracket. -/
theorem Quiet.open_inside {depth : Nat} (h : Quiet (some depth) ('[' :: cs)) :
    Quiet (some (depth + 1)) cs ∧ cs.head? ≠ some ']' ∧ ∀ rest, cs ≠ '^' :: ']' :: rest := by
  obtain ⟨hspells, hnests, hafter⟩ := h
  rw [Part.classRest] at hspells hnests hafter
  rw [List.take_succ_cons, spellsCase_cons (by decide), Bool.or_eq_false_iff] at hspells
  rw [List.take_succ_cons, nestsClosing, Bool.or_eq_false_iff, Bool.or_eq_false_iff] at hnests
  obtain ⟨⟨hclose, hcaret⟩, hnests⟩ := hnests
  refine ⟨⟨hspells.2, hnests, hafter⟩, fun hhead => ?_, fun rest heq => ?_⟩
  · obtain ⟨rest, rfl⟩ := List.head?_eq_some_iff.mp hhead
    rw [Part.classRest] at hclose
    cases hclose
  · subst heq
    rw [Part.classRest_plain (by decide) (by decide) (by decide), Part.classRest] at hcaret
    cases hcaret

/-- A closing bracket closes the class, or one that nests in it. -/
theorem Quiet.close_inside {depth : Nat} (h : Quiet (some depth) (']' :: cs)) :
    Quiet (if depth = 0 then none else some (depth - 1)) cs := by
  have h : QuietClass (Part.classRest depth (']' :: cs)) (']' :: cs) := h
  rw [Part.classRest] at h
  by_cases hdepth : depth = 0
  · rw [if_pos hdepth] at h ⊢
    exact (h.cons (by decide) (by decide)).2.after
  · rw [if_neg hdepth] at h ⊢
    exact (h.cons (by decide) (by decide)).2

theorem Quiet.member {depth : Nat} (h : Quiet (some depth) (c :: cs)) (hslash : c ≠ '\\')
    (hopen : c ≠ '[') (hclose : c ≠ ']') : isCased c = false ∧ Quiet (some depth) cs := by
  have h : QuietClass (Part.classRest depth (c :: cs)) (c :: cs) := h
  rw [Part.classRest_plain hslash hopen hclose] at h
  exact h.cons hslash hopen

/-- What a class starts with: a bracket that is a member. -/
theorem QuietOpened.bracket (negated : Bool) (h : QuietOpened (negation negated ++ ']' :: cs)) :
    Quiet (some 0) cs := by
  cases negated with
  | false =>
    have h : QuietClass (Part.classRest 0 cs + 1) (']' :: cs) := h
    exact (h.cons (by decide) (by decide)).2
  | true =>
    have h : QuietClass (Part.classRest 0 cs + 2) ('^' :: ']' :: cs) := h
    exact ((h.cons (by decide) (by decide)).2.cons (by decide) (by decide)).2

/-- What a class starts with: members as they stand elsewhere. -/
theorem QuietOpened.members (negated : Bool) (h : QuietOpened (negation negated ++ cs))
    (hclose : cs.head? ≠ some ']') (hcaret : negated = false → cs.head? ≠ some '^') :
    Quiet (some 0) cs := by
  have hclose : ∀ rest, cs ≠ ']' :: rest := by
    rintro rest rfl
    exact hclose rfl
  unfold QuietOpened at h
  cases negated with
  | false =>
    have hcaret : ∀ rest, cs ≠ '^' :: rest := by
      rintro rest rfl
      exact hcaret rfl rfl
    have hextent : Part.classExtent cs = Part.classRest 0 cs := by
      unfold Part.classExtent
      split
      · exact absurd rfl (hcaret _)
      · exact absurd rfl (hcaret _)
      · exact absurd rfl (hclose _)
      · rfl
    rw [show negation false ++ cs = cs from rfl, hextent] at h
    exact h
  | true =>
    have hextent : Part.classExtent ('^' :: cs) = Part.classRest 0 cs + 1 := by
      unfold Part.classExtent
      split
      · rename_i heq
        cases heq
        exact absurd rfl (hclose _)
      · rename_i heq
        cases heq
        rfl
      · rename_i heq
        cases heq
      · rename_i hne _
        exact absurd rfl (hne cs)
    rw [show negation true ++ cs = '^' :: cs from rfl, hextent] at h
    exact (h.cons (by decide) (by decide)).2

/-! ### Steps outside of classes -/

/-- Nothing cased is seen in the rest of a pattern, wherever splitting has
come to. -/
def QuietFrom (cs : List Char) : Prop := ∃ view, Quiet view cs

theorem quietOutside_cons {part : Part} {rest : List Char}
    (hsplit : Part.split cs = part :: Part.split rest) (hfine : Part.fineOf part = [part])
    (h : QuietOutside cs) : part.isQuiet = true ∧ QuietOutside rest := by
  unfold QuietOutside at h
  rw [hsplit, Part.fine_cons, hfine] at h
  exact List.forall_mem_cons.mp h

/-- A character that starts no part of its own. -/
theorem QuietFrom.plain (h : QuietFrom (c :: cs)) (hplain : Part.isPlain c = true) :
    isCased c = false ∧ QuietFrom cs := by
  obtain ⟨view, h⟩ := h
  cases view with
  | none =>
    have h : QuietOutside (c :: cs) := h
    unfold QuietOutside at h
    rw [Part.fine_split_plain hplain] at h
    obtain ⟨hc, hrest⟩ := List.forall_mem_cons.mp h
    have hcased := ((Part.isQuiet_iff _).mp hc).1
    rw [Part.isCased, List.any_cons, List.any_nil, Bool.or_false] at hcased
    exact ⟨hcased, none, hrest⟩
  | some depth =>
    by_cases hclose : c = ']'
    · subst hclose
      exact ⟨by decide, _, h.close_inside⟩
    · have hslash : c ≠ '\\' := by
        rintro rfl
        cases hplain
      have hopen : c ≠ '[' := by
        rintro rfl
        cases hplain
      exact ⟨(h.member hslash hopen hclose).1, _, (h.member hslash hopen hclose).2⟩

theorem QuietFrom.plains {text : List Char} (h : QuietFrom (text ++ cs))
    (hplain : ∀ c ∈ text, Part.isPlain c = true) :
    (∀ c ∈ text, isCased c = false) ∧ QuietFrom cs := by
  induction text with
  | nil => exact ⟨List.forall_mem_nil _, h⟩
  | cons c text ih =>
    obtain ⟨hc, htext⟩ := List.forall_mem_cons.mp hplain
    obtain ⟨hcased, hrest⟩ := h.plain hc
    exact ⟨List.forall_mem_cons.mpr ⟨hcased, (ih hrest htext).1⟩, (ih hrest htext).2⟩

/-- A character that is punctuation outside of classes, and a part of its
own there. -/
theorem QuietFrom.mark {part : Part} (h : QuietFrom (c :: cs))
    (hread : ∀ rest, Part.read c rest = (part, 0)) (hfine : Part.fineOf part = [part])
    (hslash : c ≠ '\\') (hopen : c ≠ '[') (hclose : c ≠ ']') : QuietFrom cs := by
  obtain ⟨view, h⟩ := h
  cases view with
  | none =>
    have hsplit : Part.split (c :: cs) = part :: Part.split cs := by
      rw [Part.split_cons, hread, List.drop_zero]
    exact ⟨none, (quietOutside_cons hsplit hfine h).2⟩
  | some depth => exact ⟨_, (h.member hslash hopen hclose).2⟩

theorem QuietFrom.close (h : QuietFrom (')' :: cs)) : QuietFrom cs :=
  h.mark (fun _ => rfl) rfl (by decide) (by decide) (by decide)

theorem QuietFrom.caret (h : QuietFrom ('^' :: cs)) : QuietFrom cs :=
  h.mark (fun _ => rfl) rfl (by decide) (by decide) (by decide)

/-- A bracket opens a class, or one more in the class where splitting
is. -/
theorem QuietFrom.bracket (h : QuietFrom ('[' :: cs)) : QuietOpened cs ∨
    ∃ depth, Quiet (some (depth + 1)) cs ∧ cs.head? ≠ some ']' ∧
      ∀ rest, cs ≠ '^' :: ']' :: rest := by
  obtain ⟨view, h⟩ := h
  cases view with
  | none =>
    have hsplit : Part.split ('[' :: cs) = .bracket ('[' :: cs.take (Part.classExtent cs)) ::
        Part.split (cs.drop (Part.classExtent cs)) := by
      rw [Part.split_cons]
      rfl
    obtain ⟨hquiet, hrest⟩ := quietOutside_cons hsplit rfl h
    obtain ⟨hcased, -, hmissplit⟩ := (Part.isQuiet_iff _).mp hquiet
    rw [Part.isCased, spellsCase_cons (by decide), Bool.or_eq_false_iff] at hcased
    exact .inl ⟨hcased.2, hmissplit, hrest⟩
  | some depth => exact .inr ⟨depth, h.open_inside⟩

theorem read_escape {letter : Char} (hdigit : letter.isDigit = false) (rest : List Char) :
    Part.read '\\' (letter :: rest)
      = (.escape ('\\' :: letter :: rest.take (Part.escapeExtent letter rest)),
        Part.escapeExtent letter rest + 1) := by
  show Part.readEscape (letter :: rest) = _
  simp only [Part.readEscape, hdigit, Bool.false_eq_true, if_false, List.take_succ_cons]

/-- An escape that is no number. After a word boundary, splitting may
take braces along. -/
theorem QuietFrom.escape {letter : Char} (h : QuietFrom ('\\' :: letter :: cs))
    (hdigit : letter.isDigit = false) (hname : letter ≠ 'k') :
    isCasedEscape letter = false ∧
      (QuietFrom cs ∨ (letter = 'b' ∨ letter = 'B') ∧ QuietBraces cs) := by
  obtain ⟨view, h⟩ := h
  cases view with
  | some depth => exact ⟨h.escape_inside.1, .inl ⟨_, h.escape_inside.2⟩⟩
  | none =>
    have hsplit : Part.split ('\\' :: letter :: cs)
        = .escape ('\\' :: letter :: cs.take (Part.escapeExtent letter cs)) ::
          Part.split (cs.drop (Part.escapeExtent letter cs)) := by
      rw [Part.split_cons, read_escape hdigit, List.drop_succ_cons]
    obtain ⟨hquiet, hrest⟩ := quietOutside_cons hsplit rfl h
    have hcased := ((Part.isQuiet_iff _).mp hquiet).1
    have hletter : isCasedEscape letter = false := by
      rw [← Bool.not_eq_true]
      intro hletter
      rw [Part.isCased, bne_eq_false_iff_eq, foldEscape, if_pos hletter] at hcased
      cases hcased
    refine ⟨hletter, ?_⟩
    by_cases hbraces : (letter = 'b' ∨ letter = 'B') ∧ cs.head? = some '{'
    · obtain ⟨hword, hhead⟩ := hbraces
      refine .inr ⟨hword, hhead, ?_⟩
      have hextent : Part.escapeExtent letter cs = Part.closingExtent '}' cs := by
        rcases hword with rfl | rfl <;> simp [Part.escapeExtent, hhead]
      rwa [hextent] at hrest
    · have hextent : Part.escapeExtent letter cs = 0 := by
        by_cases hlong : "xuUpPbBk".toList.contains letter = true
        · have hword : letter = 'b' ∨ letter = 'B' := by
            have hmem := List.contains_iff_mem.mp hlong
            simp only [String.reduceToList, List.mem_cons, List.not_mem_nil, or_false] at hmem
            rcases hmem with rfl | rfl | rfl | rfl | rfl | rfl | rfl | rfl <;>
              first
              | exact .inl rfl
              | exact .inr rfl
              | exact absurd hletter (by decide)
              | exact absurd rfl hname
          have hhead : cs.head? ≠ some '{' := fun hhead => hbraces ⟨hword, hhead⟩
          rcases hword with rfl | rfl <;> simp [Part.escapeExtent, hhead]
        · exact Expr.escapeExtent_eq_zero (Bool.not_eq_true _ ▸ hlong)
      rw [hextent] at hrest
      exact .inl ⟨none, hrest⟩

/-! ### Groups -/

/-- What opens a group is a part, or members of a class. -/
theorem QuietFrom.opening (text : List Char) {part : Part} (h : QuietFrom ('(' :: (text ++ cs)))
    (hread : Part.readOpening (text ++ cs) = (part, text.length))
    (hfine : Part.fineOf part = [part]) :
    (part.isQuiet = true ∧ QuietFrom cs) ∨ QuietFrom (text ++ cs) := by
  obtain ⟨view, h⟩ := h
  cases view with
  | none =>
    have hsplit : Part.split ('(' :: (text ++ cs)) = part :: Part.split cs := by
      have hread : Part.read '(' (text ++ cs) = (part, text.length) := hread
      rw [Part.split_cons, hread, List.drop_left]
    obtain ⟨hquiet, hrest⟩ := quietOutside_cons hsplit hfine h
    exact .inl ⟨hquiet, none, hrest⟩
  | some depth => exact .inr ⟨_, (h.member (by decide) (by decide) (by decide)).2⟩

theorem QuietFrom.capture (h : QuietFrom ('(' :: cs)) (hquestion : cs.head? ≠ some '?') :
    QuietFrom cs := by
  have hread : Part.readOpening ([] ++ cs) = (.opening .capture, 0) := by
    cases cs with
    | nil => rfl
    | cons c rest =>
      have hc : c ≠ '?' := fun heq => hquestion (congrArg some heq)
      simp [Part.readOpening, Part.nameExtent?, hc]
  rcases QuietFrom.opening [] h hread rfl with ⟨-, hrest⟩ | hrest
  · exact hrest
  · exact hrest

/-- Letters of ASCII are cased. -/
theorem isCased_of_isAlpha (h : c.isAlpha = true) : isCased c = true := by
  have hall : ∀ index < 26, isCased (Char.ofNat (0x41 + index)) = true ∧
      isCased (Char.ofNat (0x61 + index)) = true := by
    decide +kernel
  obtain ⟨index, hindex, rfl | rfl⟩ := exists_index_of_isAlpha h
  · exact (hall index hindex).1
  · exact (hall index hindex).2

theorem isPlain_of_isFlagChar (h : Part.isFlagChar c = true) : Part.isPlain c = true := by
  have hne : ∀ d, Part.isFlagChar d = false → c ≠ d := by
    rintro d hd rfl
    exact absurd (hd.symm.trans h) Bool.false_ne_true
  simp [Part.isPlain, hne '[' rfl, hne '\\' rfl, hne '(' rfl, hne ')' rfl, hne '^' rfl]

theorem readOpening_flags {letters : List Char} {mark : Char} (hmark : mark = ':' ∨ mark = ')')
    (hletters : ∀ c ∈ letters, Part.isFlagChar c = true) (rest : List Char) :
    Part.readOpening ('?' :: (letters ++ mark :: rest))
      = (if mark = ':' then .opening (.flagged letters) else .flags letters,
        letters.length + 2) := by
  have hend : Part.isFlagChar mark = false := by
    rcases hmark with rfl | rfl <;> decide
  have hangle : mark ≠ '<' := by
    rcases hmark with rfl | rfl <;> decide
  -- What follows the question mark is a flag or the mark.
  have hhead : ∀ {c others}, letters ++ mark :: rest = c :: others →
      Part.isFlagChar c = true ∨ c = mark := by
    intro c others heq
    cases letters with
    | nil => exact .inr (List.cons.inj heq).1.symm
    | cons d letters =>
      rw [← (List.cons.inj heq).1]
      exact .inl (hletters d List.mem_cons_self)
  have hname : Part.nameExtent? ('?' :: (letters ++ mark :: rest)) = none := by
    unfold Part.nameExtent?
    split
    · rename_i others heq
      have heq := (List.cons.inj heq).2
      cases letters with
      | nil =>
        have hsame := (List.cons.inj heq).1
        rcases hmark with rfl | rfl <;> cases hsame
      | cons d letters =>
        have heq := (List.cons.inj heq).2
        cases letters with
        | nil => exact absurd (List.cons.inj heq).1 hangle
        | cons e letters =>
          have he := hletters e (List.mem_cons_of_mem d List.mem_cons_self)
          rw [(List.cons.inj heq).1] at he
          exact absurd he (by decide)
    · rfl
    · rfl
    · rename_i others _ _ heq
      rcases hhead (List.cons.inj heq).2 with hflag | hsame
      · exact absurd hflag (by decide)
      · exact absurd hsame.symm hangle
    · rfl
  have hdirective : Part.readDirective (letters ++ mark :: rest)
      = (if mark = ':' then .opening (.flagged letters) else .flags letters,
        letters.length + 1) := by
    have hother : ∀ {c others}, letters ++ mark :: rest = c :: others →
        Part.isFlagChar c = false → c ≠ ':' → c ≠ ')' → False := by
      intro c others heq hflag hcolon hclose
      rcases hhead heq with hflag' | rfl
      · exact absurd (hflag.symm.trans hflag') Bool.false_ne_true
      · rcases hmark with rfl | rfl
        · exact hcolon rfl
        · exact hclose rfl
    have htake : (letters ++ mark :: rest).takeWhile Part.isFlagChar = letters := by
      rw [List.takeWhile_append_of_pos hletters, List.takeWhile_cons_of_neg (by rw [hend]; decide),
        List.append_nil]
    unfold Part.readDirective
    split
    · rename_i heq
      exact (hother heq (by decide) (by decide) (by decide)).elim
    · rename_i heq
      exact (hother heq (by decide) (by decide) (by decide)).elim
    · rename_i heq
      exact (hother heq (by decide) (by decide) (by decide)).elim
    · rename_i heq
      exact (hother heq (by decide) (by decide) (by decide)).elim
    · simp only [htake, List.drop_left]
      rcases hmark with rfl | rfl <;> rfl
  unfold Part.readOpening
  simp only [hname, hdirective]

/-- Flags are letters, so there are none. -/
theorem QuietFrom.flags {letters : List Char} {mark : Char}
    (h : QuietFrom ('(' :: '?' :: (letters ++ mark :: cs))) (hmark : mark = ':' ∨ mark = ')')
    (hletters : ∀ c ∈ letters, Part.isFlagChar c = true) :
    (∀ c ∈ letters, c = '-') ∧ QuietFrom cs := by
  have hshape : '?' :: (letters ++ mark :: cs) = ('?' :: (letters ++ [mark])) ++ cs := by simp
  have hread := readOpening_flags hmark hletters cs
  rw [hshape] at h hread
  have hlength : letters.length + 2 = ('?' :: (letters ++ [mark])).length := by simp
  rw [hlength] at hread
  have hfine : ∀ part : Part, (∃ kind, part = .opening kind) ∨ (∃ text, part = .flags text) →
      Part.fineOf part = [part] := by
    rintro part (⟨kind, rfl⟩ | ⟨text, rfl⟩) <;> rfl
  rcases QuietFrom.opening _ h hread (hfine _ (by
    rcases hmark with rfl | rfl
    · exact .inl ⟨_, rfl⟩
    · exact .inr ⟨_, rfl⟩)) with ⟨hquiet, hrest⟩ | hrest
  · -- Splitting sees the flags.
    have hnone : letters = [] := by
      obtain ⟨-, hflags, -⟩ := (Part.isQuiet_iff _).mp hquiet
      have hempty : letters.isEmpty = true := by
        rcases hmark with rfl | rfl <;> simpa [Part.setsFlags, Part.flagLetters?] using hflags
      exact List.isEmpty_iff.mp hempty
    subst hnone
    exact ⟨List.forall_mem_nil _, hrest⟩
  · -- Splitting sees letters in a class.
    rw [← hshape] at hrest
    obtain ⟨hcased, hrest⟩ := (hrest.plain (by decide)).2.plains
      fun c hc => isPlain_of_isFlagChar (hletters c hc)
    refine ⟨fun c hc => ?_, ?_⟩
    · rcases Bool.or_eq_true_iff.mp (hletters c hc) with halpha | hhyphen
      · exact absurd ((hcased c hc).symm.trans (isCased_of_isAlpha halpha)) Bool.false_ne_true
      · exact beq_iff_eq.mp hhyphen
    · rcases hmark with rfl | rfl
      · exact (hrest.plain (by decide)).2
      · exact hrest.close

theorem closingExtent_append {close : Char} {text : List Char} (h : close ∉ text)
    (rest : List Char) : Part.closingExtent close (text ++ close :: rest) = text.length + 1 := by
  induction text with
  | nil => simp [Part.closingExtent]
  | cons c text ih =>
    obtain ⟨hc, htext⟩ := not_or.mp (List.mem_cons.not.mp h)
    rw [List.cons_append, Part.closingExtent, if_neg (by simpa using fun heq => hc heq.symm),
      ih htext]
    rfl

/-- The name of a group, where splitting sees a class around it. The name
may have brackets, and so open or close classes. -/
theorem QuietFrom.name {name : List Char} (hname : ∀ c ∈ name, Part.isPlain c = true ∨ c = '[')
    (h : QuietFrom (name ++ '>' :: cs) ∨ QuietOpened (name ++ '>' :: cs)) : QuietFrom cs := by
  -- An opened class has a closing bracket as its first member, or members.
  have hopened : ∀ {c : Char} {rest : List Char}, Part.isPlain c = true ∨ c = '[' →
      QuietOpened (c :: rest) → QuietFrom (c :: rest) ∨ QuietFrom rest := by
    intro c rest hc hopened
    by_cases hclose : c = ']'
    · subst hclose
      exact .inr ⟨_, QuietOpened.bracket false hopened⟩
    · refine .inl ⟨_, QuietOpened.members false hopened
        (fun heq => hclose (Option.some.inj heq)) fun _ heq => ?_⟩
      cases Option.some.inj heq
      rcases hc with hc | hc
      · exact absurd hc (by decide)
      · exact absurd hc (by decide)
  induction name with
  | nil =>
    rcases h with h | h
    · exact (h.plain (by decide)).2
    · rcases hopened (.inl (by decide)) h with h | h
      · exact (h.plain (by decide)).2
      · exact h
  | cons c name ih =>
    obtain ⟨hc, hrest⟩ := List.forall_mem_cons.mp hname
    have hstep : QuietFrom (c :: (name ++ '>' :: cs)) →
        QuietFrom (name ++ '>' :: cs) ∨ QuietOpened (name ++ '>' :: cs) := by
      intro hquiet
      rcases hc with hc | rfl
      · exact .inl (hquiet.plain hc).2
      · rcases hquiet.bracket with hopened | ⟨depth, hinside, -⟩
        · exact .inr hopened
        · exact .inl ⟨_, hinside⟩
    rcases h with h | h
    · exact ih hrest (hstep h)
    · rcases hopened hc h with h | h
      · exact ih hrest (hstep h)
      · exact ih hrest (.inl h)

/-- A name in angle brackets belongs to what opens a group. -/
theorem readOpening_named {mark name : List Char} (hmark : mark = ['?', 'P', '<'] ∨ mark = ['?', '<'])
    (hname : '>' ∉ name) (hfirst : name.head? ≠ some '=' ∧ name.head? ≠ some '!') (hne : name ≠ [])
    (cs : List Char) :
    Part.readOpening (mark ++ (name ++ '>' :: cs))
      = (.opening (.named (mark ++ (name ++ ['>']))), (mark ++ (name ++ ['>'])).length) := by
  have hshape : mark ++ (name ++ '>' :: cs) = (mark ++ (name ++ ['>'])) ++ cs := by simp
  have hextent : Part.closingExtent '>' (name ++ '>' :: cs) = name.length + 1 :=
    closingExtent_append hname cs
  have hcontains : (name ++ '>' :: cs).contains '>' = true := by simp
  have hnamed : Part.nameExtent? (mark ++ (name ++ '>' :: cs))
      = some (mark ++ (name ++ ['>'])).length := by
    rcases hmark with rfl | rfl
    · show (if (name ++ '>' :: cs).contains '>' then some (Part.closingExtent '>' (name ++ '>' :: cs) + 3)
        else none) = _
      rw [if_pos hcontains, hextent]
      simp
    · cases name with
      | nil => exact absurd rfl hne
      | cons c name =>
        have hequals : c ≠ '=' := fun heq => hfirst.1 (congrArg some heq)
        have hbang : c ≠ '!' := fun heq => hfirst.2 (congrArg some heq)
        have hread : Part.nameExtent? ('?' :: '<' :: c :: (name ++ '>' :: cs))
            = if (c :: (name ++ '>' :: cs)).contains '>' then
              some (Part.closingExtent '>' (c :: (name ++ '>' :: cs)) + 2) else none := by
          simp [Part.nameExtent?, hequals, hbang]
        show Part.nameExtent? ('?' :: '<' :: c :: (name ++ '>' :: cs)) = _
        rw [hread, ← List.cons_append, if_pos hcontains, hextent]
        simp
  unfold Part.readOpening
  simp only [hnamed]
  rw [hshape, List.take_left]

/-- A group with a name. -/
theorem QuietFrom.named {mark name : List Char} (hmark : mark = ['?', 'P', '<'] ∨ mark = ['?', '<'])
    (h : QuietFrom ('(' :: (mark ++ (name ++ '>' :: cs))))
    (hname : ∀ c ∈ name, (Part.isPlain c = true ∨ c = '[') ∧ c ≠ '>')
    (hfirst : name.head? ≠ some '=' ∧ name.head? ≠ some '!') (hne : name ≠ []) : QuietFrom cs := by
  have hshape : mark ++ (name ++ '>' :: cs) = (mark ++ (name ++ ['>'])) ++ cs := by simp
  have hread := readOpening_named hmark (fun hmem => (hname _ hmem).2 rfl) hfirst hne cs
  rw [hshape] at h hread
  rcases QuietFrom.opening _ h hread rfl with ⟨-, hrest⟩ | hrest
  · exact hrest
  · rw [← hshape] at hrest
    have hplain : mark.all Part.isPlain = true := by
      rcases hmark with rfl | rfl <;> rfl
    exact QuietFrom.name (fun c hc => (hname c hc).1)
      (.inl (hrest.plains (List.all_eq_true.mp hplain)).2)

/-! ### Braces -/

/-- Where an item of a row starts. -/
def QuietItems (cs : List Char) : Prop := QuietFrom cs ∨ QuietBraces cs

theorem QuietItems.quietFrom (h : QuietItems cs) (hbrace : cs.head? ≠ some '{') : QuietFrom cs := by
  rcases h with h | h
  · exact h
  · exact absurd h.head hbrace

/-- Braces, which splitting may take along after a word boundary. -/
theorem QuietItems.braces {inner : List Char} (h : QuietItems ('{' :: (inner ++ '}' :: cs)))
    (hinner : ∀ c ∈ inner, Part.isPlain c = true ∧ c ≠ '}') : QuietFrom cs := by
  rcases h with h | h
  · have hrest := ((h.plain (by decide)).2.plains fun c hc => (hinner c hc).1).2
    exact (hrest.plain (by decide)).2
  · have hextent : Part.closingExtent '}' ('{' :: (inner ++ '}' :: cs)) = inner.length + 2 := by
      rw [Part.closingExtent, closingExtent_append fun hmem => (hinner _ hmem).2 rfl]
      rfl
    have hafter := h.after
    rw [hextent, List.drop_succ_cons, show inner.length + 1 = (inner ++ ['}']).length by simp,
      show inner ++ '}' :: cs = (inner ++ ['}']) ++ cs by simp, List.drop_left] at hafter
    exact ⟨none, hafter⟩

end Highlighter.Pattern
