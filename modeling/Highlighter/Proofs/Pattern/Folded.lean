import Highlighter.Proofs.Pattern.CaseFold
import Highlighter.Proofs.Pattern.Parts
import Highlighter.Proofs.Regex.ClassList

/-!
# Patterns with letter case spelt out

Spelling out letter case is done part by part. On expressions it is
`Expr.folded`, whose text is that of the folded parts
(`render_folded`). Where classes list characters and ranges, a folded
pattern matches with letter case as the pattern does without it
(`ways_folded`).

A pattern none of whose parts is cased matches the same either way
(`ways_of_not_isCased`). Ranges are the exception here: only their ends
are looked at. So a range has to have a cased end, or to hold nothing
that is cased (`IsListing`).
-/

set_option autoImplicit false

namespace Highlighter.Pattern

open Regex

/-! ### Sorts of patterns -/

/-- A class that lists characters and ranges. Where letter case is
spelt out, its text is read right. -/
def IsFoldable (body : List Char) : Prop :=
  (∃ negated items, ClassLists Spells body negated items) ∧ opensJoined body = false

/-- A class that lists characters and ranges, with ranges that show by
their ends whether they hold cased characters. -/
def IsListing (body : List Char) : Prop :=
  ∃ negated items, ClassLists Spells body negated items ∧
    ∀ lo hi, .range lo hi ∈ items → (Unicode.isCased lo = true ∨ Unicode.isCased hi = true) ∨
      ∀ c, lo ≤ c → c ≤ hi → Unicode.isCased c = false

namespace Expr

/-- Whether a pattern consists of characters, classes of some sort,
groups, branches and repetitions. Besides these, it may assert the
start and the end of the text. -/
def IsSimple (isClass : List Char → Prop) : Expr → Prop
  | bracket body => isClass body
  | wordBoundary | ignoring _ | look _ _ _ | backref _ => False
  | capture body | bare body | repeated _ _ body => body.IsSimple isClass
  | seq first second | alt first second => first.IsSimple isClass ∧ second.IsSimple isClass
  | _ => True

theorem IsSimple.isEasy {isClass : List Char → Prop} {expr : Expr} (h : expr.IsSimple isClass) :
    expr.isEasy = true := by
  induction expr with
  | capture body ih => exact ih h
  | bare body ih => exact ih h
  | repeated count greedy body ih => exact ih h
  | seq first second ihFirst ihSecond =>
    exact Bool.and_eq_true_iff.mpr ⟨ihFirst h.1, ihSecond h.2⟩
  | alt first second ihFirst ihSecond =>
    exact Bool.and_eq_true_iff.mpr ⟨ihFirst h.1, ihSecond h.2⟩
  | wordBoundary => exact h.elim
  | ignoring body => exact h.elim
  | look behind negated body => exact h.elim
  | backref number => exact h.elim
  | _ => rfl

/-! ### Folding -/

/-- A character with all its case variants. -/
def foldedChar (c : Char) : Expr :=
  if c.isAlpha then bracket (foldedLetter c)
  else if 0x80 ≤ c.toNat && Unicode.isCased c then ignoring (char c)
  else char c

/-- A class with all case variants of its members. -/
def foldedClass (body : List Char) : Expr :=
  match foldedBody? body with
  | some folded => bracket folded
  | none => ignoring (bracket body)

/-- A pattern with letter case spelt out. -/
def folded : Expr → Expr
  | char c => foldedChar c
  | coded letter braced digits => ignoring (coded letter braced digits)
  | bracket body => foldedClass body
  | capture body => capture body.folded
  | bare body => bare body.folded
  | ignoring body => ignoring body.folded
  | look behind negated body => look behind negated body.folded
  | seq first second => seq first.folded second.folded
  | alt first second => alt first.folded second.folded
  | repeated count greedy body => repeated count greedy body.folded
  | expr => expr

/-! ### The text of a folded pattern -/

theorem render_foldedChar (c : Char) : (foldedChar c).render = foldChar c := by
  unfold foldedChar
  by_cases halpha : c.isAlpha = true
  · rw [if_pos halpha, foldChar_letter halpha]
    rfl
  · rw [if_neg halpha, foldChar, if_neg halpha]
    split <;> rfl

theorem render_foldedClass (body : List Char) :
    (foldedClass body).render = foldClass ('[' :: (body ++ [']'])) := by
  rw [foldClass_brackets, foldedClass]
  cases foldedBody? body with
  | some folded => rfl
  | none => rfl

/-- Only escapes of codes and properties are cased. -/
theorem foldEscape_of_not_isCasedEscape {letter : Char} (h : isCasedEscape letter = false)
    (rest : List Char) : foldEscape ('\\' :: letter :: rest) = '\\' :: letter :: rest := by
  show (if isCasedEscape letter then _ else _) = _
  rw [h, if_neg Bool.false_ne_true]

theorem isCasedEscape_of_codeWidth {letter : Char} (h : codeWidth letter ≠ 0) :
    isCasedEscape letter = true := by
  unfold codeWidth at h
  split at h <;> first | rfl | exact absurd rfl h

/-- The marks of counts are not cased. -/
theorem foldChar_countText {count : Count} {greedy : Bool} {c : Char}
    (h : c ∈ countText count greedy) : foldChar c = [c] := by
  have hplain : c.isAlpha = false ∧ c.toNat < 0x80 := by
    rcases mem_countText h with hdigit | hmark
    · obtain ⟨hle, hle'⟩ : 0x30 ≤ c.toNat ∧ c.toNat ≤ 0x39 := by
        simpa [Char.isDigit, UInt32.le_iff_toNat_le] using hdigit
      refine ⟨?_, by omega⟩
      rw [← Bool.not_eq_true]
      intro halpha
      obtain ⟨index, hindex, rfl | rfl⟩ := exists_index_of_isAlpha halpha <;>
      · rw [Unicode.toNat_ofNat (.inl (by omega))] at hle'
        omega
    · have hmarks : "?*+\x7b,\x7d".toList.all (fun c => !c.isAlpha && c.toNat < 0x80) = true := by
        decide
      simpa using List.all_eq_true.mp hmarks c (List.contains_iff_mem.mp hmark)
  have hascii : (0x80 ≤ c.toNat && Unicode.isCased c) = false := by
    rw [decide_eq_false (Nat.not_le.mpr hplain.2), Bool.false_and]
  unfold foldChar
  rw [hplain.1, if_neg Bool.false_ne_true, hascii, if_neg Bool.false_ne_true]

/-- The text of a folded pattern is that of the folded parts. -/
theorem render_folded {expr : Expr} (h : expr.WellFormed) :
    expr.folded.render = expr.parts.flatMap Part.renderFolded := by
  -- A count has nothing to fold, and a group folds what is inside it.
  have hcount : ∀ text : List Char, (∀ c ∈ text, foldChar c = [c]) →
      (text.map fun c => Part.literal [c]).flatMap Part.renderFolded = text := by
    intro text htext
    induction text with
    | nil => rfl
    | cons c text ih =>
      obtain ⟨hc, htext⟩ := List.forall_mem_cons.mp htext
      rw [List.map_cons, List.flatMap_cons, ih htext]
      show [c].flatMap foldChar ++ text = _
      rw [List.flatMap_singleton, hc]
      rfl
  have hgroup : ∀ (kind : Opening) (parts : List Part),
      (Part.opening kind :: (parts ++ [.close])).flatMap Part.renderFolded
        = kind.render ++ (parts.flatMap Part.renderFolded ++ [')']) := by
    intro kind parts
    rw [List.flatMap_cons, List.flatMap_append]
    rfl
  induction expr with
  | char c =>
    show (foldedChar c).render = [c].flatMap foldChar ++ []
    rw [render_foldedChar, List.flatMap_singleton, List.append_nil]
  | escaped c =>
    have hcased : isCasedEscape c = false := contains_eq_false isEscape (by decide) h
    show _ = foldEscape ['\\', c] ++ []
    rw [foldEscape_of_not_isCasedEscape hcased, List.append_nil]
    rfl
  | coded letter braced digits =>
    have hcased := isCasedEscape_of_codeWidth h.1.1
    show _ = foldEscape ('\\' :: letter :: codeText braced digits) ++ []
    unfold foldEscape
    simp only [hcased, if_true, List.append_nil]
    rfl
  | short kind negated =>
    show _ = foldEscape ['\\', shortLetter kind negated] ++ []
    rw [foldEscape_of_not_isCasedEscape (by cases kind <;> cases negated <;> rfl), List.append_nil]
    rfl
  | bracket body =>
    show (foldedClass body).render = foldClass ('[' :: (body ++ [']'])) ++ []
    rw [render_foldedClass, List.append_nil]
  | capture body ih =>
    rw [parts, hgroup, ← ih h]
    rfl
  | bare body ih =>
    rw [parts, hgroup, ← ih h]
    rfl
  | ignoring body ih =>
    rw [parts, hgroup, ← ih h]
    rfl
  | look behind negated body ih =>
    rw [parts, hgroup, ← ih h]
    cases behind <;> cases negated <;> rfl
  | seq first second ihFirst ihSecond =>
    rw [parts, List.flatMap_append, ← ihFirst h.2.1.1, ← ihSecond h.2.1.2]
    rfl
  | alt first second ihFirst ihSecond =>
    rw [parts, List.flatMap_append, List.flatMap_cons, ← ihFirst h.2.1, ← ihSecond h.2.2]
    rfl
  | repeated count greedy body ih =>
    rw [parts, List.flatMap_append, ← ih h.2.1, hcount _ fun c hc => foldChar_countText hc]
    rfl
  | backref number =>
    rw [parts, List.flatMap_singleton]
    rfl
  | _ => rfl

/-! ### What folding keeps -/

theorem captures_folded (expr : Expr) : expr.folded.captures = expr.captures := by
  induction expr with
  | char c =>
    show (foldedChar c).captures = 0
    unfold foldedChar
    split
    · rfl
    · split <;> rfl
  | bracket body =>
    show (foldedClass body).captures = 0
    unfold foldedClass
    split <;> rfl
  | capture body ih => exact congrArg (· + 1) ih
  | bare body ih => exact ih
  | ignoring body ih => exact ih
  | look behind negated body ih => exact ih
  | repeated count greedy body ih => exact ih
  | seq first second ihFirst ihSecond => rw [folded, captures, captures, ihFirst, ihSecond]
  | alt first second ihFirst ihSecond => rw [folded, captures, captures, ihFirst, ihSecond]
  | _ => rfl

/-- Folding keeps what sort of part a pattern is. -/
theorem sort_folded (expr : Expr) :
    (expr.folded.isRow = expr.isRow ∧ expr.folded.isItem = expr.isItem) ∧
      expr.folded.isBoundary = expr.isBoundary := by
  cases expr with
  | char c =>
    show ((foldedChar c).isRow = true ∧ (foldedChar c).isItem = true) ∧ _
    unfold folded foldedChar
    split
    · exact ⟨⟨rfl, rfl⟩, rfl⟩
    · split <;> exact ⟨⟨rfl, rfl⟩, rfl⟩
  | bracket body =>
    show ((foldedClass body).isRow = true ∧ (foldedClass body).isItem = true) ∧ _
    unfold folded foldedClass
    split <;> exact ⟨⟨rfl, rfl⟩, rfl⟩
  | _ => exact ⟨⟨rfl, rfl⟩, rfl⟩

theorem isEasy_folded {expr : Expr} (h : expr.isEasy = true) : expr.folded.isEasy = true := by
  induction expr with
  | char c =>
    show (foldedChar c).isEasy = true
    unfold foldedChar
    split
    · rfl
    · split <;> rfl
  | bracket body =>
    show (foldedClass body).isEasy = true
    unfold foldedClass
    split <;> rfl
  | capture body ih => exact ih h
  | bare body ih => exact ih h
  | ignoring body ih => exact ih h
  | look behind negated body => cases h
  | repeated count greedy body ih => exact ih h
  | seq first second ihFirst ihSecond =>
    obtain ⟨hfirst, hsecond⟩ := Bool.and_eq_true_iff.mp h
    exact Bool.and_eq_true_iff.mpr ⟨ihFirst hfirst, ihSecond hsecond⟩
  | alt first second ihFirst ihSecond =>
    obtain ⟨hfirst, hsecond⟩ := Bool.and_eq_true_iff.mp h
    exact Bool.and_eq_true_iff.mpr ⟨ihFirst hfirst, ihSecond hsecond⟩
  | _ => exact h

/-- A folded class can be read back. -/
theorem wellFormed_foldedClass {body : List Char} (hwf : isClassBody body = true)
    (h : IsFoldable body) : (foldedClass body).WellFormed := by
  obtain ⟨⟨negated, items, hlists⟩, hjoined⟩ := h
  unfold foldedClass
  split
  · rename_i folded hfolded
    obtain ⟨more, hmore, -⟩ := classLists_foldedBody hlists hjoined hfolded
    exact hmore.isClassBody
  · exact hwf

/-- The text of a folded pattern can be read back. -/
theorem wellFormed_folded {expr : Expr} (hwf : expr.WellFormed) (h : expr.IsSimple IsFoldable) :
    expr.folded.WellFormed := by
  induction expr with
  | char c =>
    show (foldedChar c).WellFormed
    unfold foldedChar
    split
    · rename_i halpha
      exact ((classLists_foldedLetter halpha).1.mono fun _ _ => .spelt).isClassBody
    · split <;> exact hwf
  | bracket body => exact wellFormed_foldedClass hwf h
  | capture body ih => exact ih hwf h
  | bare body ih => exact ih hwf h
  | seq first second ihFirst ihSecond =>
    obtain ⟨⟨hrow, hrow'⟩, ⟨hfirst, hsecond⟩, -⟩ := hwf
    refine ⟨⟨?_, ?_⟩, ⟨ihFirst hfirst h.1, ihSecond hsecond h.2⟩,
      apart_of_isEasy (isEasy_folded h.1.isEasy) _⟩
    · rw [(sort_folded first).1.1, hrow]
    · rw [(sort_folded second).1.1, hrow']
  | alt first second ihFirst ihSecond =>
    obtain ⟨hrow, hfirst, hsecond⟩ := hwf
    refine ⟨?_, ihFirst hfirst h.1, ihSecond hsecond h.2⟩
    rw [(sort_folded first).1.1, hrow]
  | repeated count greedy body ih =>
    obtain ⟨⟨hitem, hcount⟩, hbody, hboundary⟩ := hwf
    refine ⟨⟨?_, hcount⟩, ih hbody h, ?_⟩
    · rw [(sort_folded body).1.2, hitem]
    · rw [(sort_folded body).2]
      exact hboundary
  | wordBoundary => exact h.elim
  | ignoring body => exact h.elim
  | look behind negated body => exact h.elim
  | backref number => exact h.elim
  | _ => exact hwf

/-! ### The ways of a folded pattern -/

/-- Where letter case does not count, a character stands for its
variants. -/
theorem ofChar_ignoring (c : Char) :
    CharSet.ofChar ⟨true, true⟩ c = fun d => (Unicode.variants c.toNat).contains d.toNat := by
  unfold CharSet.ofChar
  rw [if_pos rfl, if_pos rfl]
  split
  · rename_i code hsingle
    have hself := Unicode.self_mem_variants c.toNat
    rw [hsingle, List.mem_singleton] at hself
    funext d
    rw [hsingle, Bool.eq_iff_iff, List.contains_iff_mem, List.mem_singleton, beq_iff_eq, ← hself,
      Char.toNat_inj]
  · rfl

/-- A character without another case form stands for itself. -/
theorem ofChar_of_not_isCased {c : Char} (h : Unicode.isCased c = false) :
    CharSet.ofChar ⟨true, true⟩ c = CharSet.ofChar ⟨false, true⟩ c := by
  rw [ofChar_ignoring]
  funext d
  show _ = (d == c)
  rw [Bool.eq_iff_iff, List.contains_iff_mem, beq_iff_eq, Unicode.mem_variants_of_not_isCased h,
    Char.toNat_inj]

/-- ASCII characters that are no letters have no other case form. -/
theorem isCased_of_ascii {c : Char} (hascii : c.toNat < 0x80) (halpha : c.isAlpha = false) :
    Unicode.isCased c = false := by
  have hall : ∀ code < 0x80, (Char.ofNat code).isAlpha = false →
      Unicode.isCasedCode code = false := by decide +kernel
  refine hall c.toNat hascii ?_
  rw [Char.ofNat_toNat]
  exact halpha

section Ways

variable {sense : Sense} (hsense : ReadsLists sense)

include hsense

theorem ways_foldedChar (c : Char) (opened : Nat) (place : Nat × Marks) :
    (foldedChar c).ways sense false opened place = (char c).ways sense true opened place := by
  unfold foldedChar
  by_cases halpha : c.isAlpha = true
  · obtain ⟨hlists, hholds⟩ := classLists_foldedLetter halpha
    have hmembers : classMembers sense false (foldedLetter c) = CharSet.ofChar ⟨true, true⟩ c := by
      rw [classMembers_lists hsense (hlists.mono fun _ _ => .spelt), ofChar_ignoring]
      funext d
      show (((foldedLetter c).map Listed.one).any (·.holds d) != false) = _
      rw [hholds, Bool.bne_false]
    rw [if_pos halpha, ways, ways, hmembers]
  · rw [if_neg halpha]
    split
    · rfl
    · rename_i hcased
      rw [Bool.and_eq_true, decide_eq_true_eq, not_and, Bool.not_eq_true] at hcased
      have hself : Unicode.isCased c = false := by
        by_cases hascii : c.toNat < 0x80
        · exact isCased_of_ascii hascii (Bool.not_eq_true _ ▸ halpha)
        · exact hcased (by omega)
      rw [ways, ways, ofChar_of_not_isCased hself]

theorem ways_foldedClass {body : List Char} (h : IsFoldable body) (opened : Nat)
    (place : Nat × Marks) :
    (foldedClass body).ways sense false opened place
      = (bracket body).ways sense true opened place := by
  obtain ⟨⟨negated, items, hlists⟩, hjoined⟩ := h
  unfold foldedClass
  split
  · rename_i folded hfolded
    obtain ⟨more, hmore, hholds⟩ := classLists_foldedBody hlists hjoined hfolded
    have hmembers : classMembers sense false folded = classMembers sense true body := by
      rw [classMembers_lists hsense hmore,
        classMembers_lists hsense (hlists.mono fun _ _ => .spelt)]
      funext c
      show (more.any (·.holds c) != negated) = _
      rw [hholds]
      rfl
    rw [ways, ways, hmembers]
  · rfl

/-- A folded pattern matches with letter case as the pattern does
without it. -/
theorem ways_folded {expr : Expr} (h : expr.IsSimple IsFoldable) (opened : Nat)
    (place : Nat × Marks) :
    expr.folded.ways sense false opened place = expr.ways sense true opened place := by
  induction expr generalizing opened place with
  | char c => exact ways_foldedChar hsense c opened place
  | bracket body => exact ways_foldedClass hsense h opened place
  | capture body ih =>
    obtain ⟨pos, marks⟩ := place
    rw [folded, ways, ways, ih h]
  | bare body ih => exact ih h opened place
  | seq first second ihFirst ihSecond =>
    rw [folded, ways, ways, ihFirst h.1, captures_folded]
    exact congrArg (List.flatMap · _) (funext fun next => ihSecond h.2 _ next)
  | alt first second ihFirst ihSecond =>
    rw [folded, ways, ways, ihFirst h.1, ihSecond h.2, captures_folded]
  | repeated count greedy body ih =>
    rw [folded, ways, ways, funext (ih h opened)]
  | wordBoundary => exact h.elim
  | ignoring body => exact h.elim
  | look behind negated body => exact h.elim
  | backref number => exact h.elim
  | _ => rfl

end Ways

/-- Dialects that read lists alike match simple patterns alike. -/
theorem ways_sense_eq {sense sense' : Sense} (hsense : ReadsLists sense)
    (hsense' : ReadsLists sense') (htext : sense.text = sense'.text)
    (hretry : sense.retry = sense'.retry) {expr : Expr} (h : expr.IsSimple IsListing)
    (ignoreCase : Bool) (opened : Nat) (place : Nat × Marks) :
    expr.ways sense ignoreCase opened place = expr.ways sense' ignoreCase opened place := by
  induction expr generalizing opened place with
  | bracket body =>
    obtain ⟨negated, items, hlists, -⟩ := h
    have hdenotes := hlists.mono fun _ _ => Denotes.spelt
    rw [ways, ways, classMembers_lists hsense hdenotes, classMembers_lists hsense' hdenotes, htext]
  | capture body ih =>
    obtain ⟨pos, marks⟩ := place
    rw [ways, ways, ih h]
  | bare body ih => exact ih h opened place
  | seq first second ihFirst ihSecond =>
    rw [ways, ways, ihFirst h.1]
    exact congrArg (List.flatMap · _) (funext fun next => ihSecond h.2 _ next)
  | alt first second ihFirst ihSecond =>
    rw [ways, ways, ihFirst h.1, ihSecond h.2]
  | repeated count greedy body ih =>
    rw [ways, ways, funext (ih h opened), htext, hretry]
  | wordBoundary => exact h.elim
  | ignoring body => exact h.elim
  | look behind negated body => exact h.elim
  | backref number => exact h.elim
  | empty => rfl
  | _ => simp only [ways, htext]

/-! ### Patterns without cased characters -/

theorem isCased_unescaped {c : Char} (h : isClassSpelling c = true) :
    Unicode.isCased (unescaped c) = false := by
  rcases Bool.or_eq_true_iff.mp h with hcontrol | hescapable
  · have hall : "aftnrv".toList.all (fun c => !Unicode.isCased (unescaped c)) = true := by
      decide +kernel
    simpa using List.all_eq_true.mp hall c (List.contains_iff_mem.mp hcontrol)
  · rw [Regular.unescaped_of_isEscapable hescapable]
    unfold isEscapable Char.isAlphanum at hescapable
    simp only [Bool.and_eq_true, Bool.not_eq_true', Bool.or_eq_false_iff, decide_eq_true_eq]
      at hescapable
    exact isCased_of_ascii (UInt32.lt_iff_toNat_lt.mp hescapable.1.1.1) hescapable.1.1.2.1

/-- Where nothing cased is spelt, a character is not cased. -/
theorem isCased_of_spells {text : List Char} {c : Char} (h : Spells text c) {rest : List Char}
    (hcased : spellsCase (text ++ rest) = false) :
    Unicode.isCased c = false ∧ spellsCase rest = false := by
  cases h with
  | plain hplain =>
    have hslash := (ne_of_plain hplain).1
    rw [List.singleton_append, spellsCase, Bool.or_eq_false_iff] at hcased
    · exact hcased
    · exact fun letter others heq _ => hslash heq
  | escaped hspelling =>
    exact ⟨isCased_unescaped hspelling, (Bool.or_eq_false_iff.mp hcased).2⟩

end Expr

/-- The characters that a member of a class spells. -/
def Listed.ends : Listed → List Char
  | .one c => [c]
  | .range lo hi => [lo, hi]

theorem Lists.isCased_ends {body : List Char} {items : List Listed} (h : Lists Spells body items)
    {rest : List Char} (hcased : spellsCase (body ++ rest) = false) :
    ∀ item ∈ items, ∀ c ∈ item.ends, Unicode.isCased c = false := by
  induction h with
  | nil => exact fun item hitem => nomatch hitem
  | one htext _ _ _ ih =>
    rw [List.append_assoc] at hcased
    obtain ⟨hc, hrest⟩ := Expr.isCased_of_spells htext hcased
    exact List.forall_mem_cons.mpr ⟨List.forall_mem_singleton.mpr hc, ih hrest⟩
  | range hfirst hsecond _ _ _ _ ih =>
    rw [List.append_assoc] at hcased
    obtain ⟨hlo, hrest⟩ := Expr.isCased_of_spells hfirst hcased
    rw [List.cons_append, List.append_assoc] at hrest
    obtain ⟨hhi, hrest⟩ := Expr.isCased_of_spells hsecond (Bool.or_eq_false_iff.mp hrest).2
    exact List.forall_mem_cons.mpr
      ⟨List.forall_mem_cons.mpr ⟨hlo, List.forall_mem_singleton.mpr hhi⟩, ih hrest⟩

theorem ClassLists.isCased_ends {body : List Char} {negated : Bool} {items : List Listed}
    (h : ClassLists Spells body negated items) {rest : List Char}
    (hcased : spellsCase (body ++ rest) = false) :
    ∀ item ∈ items, ∀ c ∈ item.ends, Unicode.isCased c = false := by
  have hclose : ∀ c ∈ (Listed.one ']').ends, Unicode.isCased c = false :=
    List.forall_mem_singleton.mpr (Expr.isCased_of_ascii (by decide) (by decide))
  cases h with
  | plain _ _ h => exact h.isCased_ends hcased
  | negated _ h => exact h.isCased_ends (Bool.or_eq_false_iff.mp hcased).2
  | bracket h =>
    exact List.forall_mem_cons.mpr
      ⟨hclose, h.isCased_ends (Bool.or_eq_false_iff.mp hcased).2⟩
  | negatedBracket h =>
    have hmembers := (Bool.or_eq_false_iff.mp hcased).2
    exact List.forall_mem_cons.mpr
      ⟨hclose, h.isCased_ends (Bool.or_eq_false_iff.mp hmembers).2⟩

/-- A set without cased characters has all variants of its members. -/
theorem closeCase_of_not_isCased {set : CharSet}
    (h : ∀ c, set c = true → Unicode.isCased c = false) : CharSet.closeCase set = set := by
  funext c
  rw [Bool.eq_iff_iff, CharSet.closeCase, List.any_eq_true]
  constructor
  · rintro ⟨code, hcode, hholds⟩
    have hself := Unicode.toNat_ofNat_of_mem_variants hcode
    by_cases hsame : code = c.toNat
    · rw [hsame, Char.ofNat_toNat] at hholds
      exact hholds
    · -- Otherwise it is cased, as a variant of something else.
      have hcased := (Unicode.isCased_of_mem_variants hcode hsame).2
      rw [← hself] at hcased
      exact absurd ((h _ hholds).symm.trans hcased) Bool.false_ne_true
  · intro hholds
    refine ⟨c.toNat, Unicode.self_mem_variants _, ?_⟩
    rw [Char.ofNat_toNat]
    exact hholds

/-- A class that spells nothing cased holds the same either way. -/
theorem classMembers_of_not_isCased {sense : Sense} (hsense : ReadsLists sense)
    {body : List Char} (h : IsListing body) {rest : List Char}
    (hcased : spellsCase (body ++ rest) = false) :
    Expr.classMembers sense true body = Expr.classMembers sense false body := by
  obtain ⟨negated, items, hlists, hranges⟩ := h
  have hends := hlists.isCased_ends hcased
  have hholds : ∀ c, items.any (·.holds c) = true → Unicode.isCased c = false := by
    intro c hholds
    obtain ⟨item, hitem, hc⟩ := List.any_eq_true.mp hholds
    have hitem' := hends item hitem
    cases item with
    | one d =>
      cases beq_iff_eq.mp hc
      exact hitem' c List.mem_cons_self
    | range lo hi =>
      rcases hranges lo hi hitem with hcased | hnone
      · have hlo := hitem' lo List.mem_cons_self
        have hhi := hitem' hi (List.mem_cons_of_mem lo List.mem_cons_self)
        rcases hcased with hcased | hcased
        · exact absurd (hlo.symm.trans hcased) Bool.false_ne_true
        · exact absurd (hhi.symm.trans hcased) Bool.false_ne_true
      · obtain ⟨hle, hle'⟩ := Bool.and_eq_true_iff.mp hc
        exact hnone c (of_decide_eq_true hle) (of_decide_eq_true hle')
  have hdenotes := hlists.mono fun _ _ => Denotes.spelt
  rw [classMembers_lists hsense hdenotes, classMembers_lists hsense hdenotes]
  funext c
  show (CharSet.closeCase (fun d => items.any (·.holds d)) c != negated) = _
  rw [closeCase_of_not_isCased hholds]
  rfl

/-- A pattern none of whose parts is cased matches the same with and
without letter case. -/
theorem Expr.ways_of_not_isCased {sense : Sense} (hsense : ReadsLists sense) {expr : Expr}
    (hwf : expr.WellFormed) (h : expr.IsSimple IsListing) (hcased : ∀ part ∈ expr.parts, part.isCased = false)
    (opened : Nat) (place : Nat × Marks) :
    expr.ways sense true opened place = expr.ways sense false opened place := by
  induction expr generalizing opened place with
  | char c =>
    have hc := hcased (.literal [c]) List.mem_cons_self
    rw [Part.isCased, List.any_cons, List.any_nil, Bool.or_false] at hc
    rw [ways, ways, ofChar_of_not_isCased hc]
  | coded letter braced digits =>
    have hspelt := hcased (.escape ('\\' :: letter :: codeText braced digits)) List.mem_cons_self
    have hescape : isCasedEscape letter = true := isCasedEscape_of_codeWidth hwf.1.1
    have hsame : foldEscape ('\\' :: letter :: codeText braced digits)
        = '\\' :: letter :: codeText braced digits := bne_eq_false_iff_eq.mp hspelt
    rw [foldEscape, if_pos hescape] at hsame
    exact absurd (List.cons.inj hsame).1 (by decide)
  | bracket body =>
    have hbody : spellsCase ('[' :: (body ++ [']'])) = false :=
      hcased (.bracket ('[' :: (body ++ [']']))) List.mem_cons_self
    rw [ways, ways, classMembers_of_not_isCased hsense h (Bool.or_eq_false_iff.mp hbody).2]
  | capture body ih =>
    obtain ⟨pos, marks⟩ := place
    rw [ways, ways, ih hwf h fun part hpart => hcased part (by simp [parts, hpart])]
  | bare body ih =>
    exact ih hwf h (fun part hpart => hcased part (by simp [parts, hpart])) opened place
  | seq first second ihFirst ihSecond =>
    have hfirst := ihFirst hwf.2.1.1 h.1 fun part hpart => hcased part (by simp [parts, hpart])
    have hsecond := ihSecond hwf.2.1.2 h.2 fun part hpart => hcased part (by simp [parts, hpart])
    rw [ways, ways, hfirst]
    exact congrArg (List.flatMap · _) (funext fun next => hsecond _ next)
  | alt first second ihFirst ihSecond =>
    have hfirst := ihFirst hwf.2.1 h.1 fun part hpart => hcased part (by simp [parts, hpart])
    have hsecond := ihSecond hwf.2.2 h.2 fun part hpart => hcased part (by simp [parts, hpart])
    rw [ways, ways, hfirst, hsecond]
  | repeated count greedy body ih =>
    have hbody := ih hwf.2.1 h (fun part hpart => hcased part (by simp [parts, hpart])) opened
    rw [ways, ways, funext hbody]
  | wordBoundary => exact h.elim
  | ignoring body => exact h.elim
  | look behind negated body => exact h.elim
  | backref number => exact h.elim
  | _ => rfl

end Highlighter.Pattern
