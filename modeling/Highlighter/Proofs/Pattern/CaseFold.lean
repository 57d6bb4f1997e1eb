import Highlighter.Proofs.Pattern.CaseRanges
import Highlighter.Proofs.Pattern.ClassList

/-!
# Folded classes list the case variants of what they listed

The text of a class that lists ASCII characters and ranges is read as
the ranges that it lists (`ranges_ofBody`), and the text that is
written for ranges lists them again (`lists_rangeText`). So a folded
class lists the characters with a case variant among those that the
class listed (`classLists_foldedBody`). A letter on its own becomes the
class of its variants (`classLists_foldedLetter`).

One text is not read right: a closing bracket that a class starts with
is a member, but if a hyphen and another member follow, it is taken for
the start of a range (`opensJoined`).
-/

set_option autoImplicit false

namespace Highlighter.Pattern

/-! ### Reading members -/

namespace ClassItem

/-- How a character of a class is read, by its text. -/
def ofText (text : List Char) (c : Char) : ClassItem :=
  if text = ['-'] then dash else code c.toNat

theorem ofText_of_ne {text : List Char} (h : text ≠ ['-']) (c : Char) :
    ofText text c = code c.toNat :=
  if_neg h

theorem readEscape_classSpelling {c : Char} (h : isClassSpelling c = true) (rest : List Char) :
    readEscape (c :: rest) = (code (unescaped c).toNat, rest) := by
  rcases Bool.or_eq_true_iff.mp h with hcontrol | hescapable
  · have hcases : c = 'a' ∨ c = 'f' ∨ c = 't' ∨ c = 'n' ∨ c = 'r' ∨ c = 'v' := by
      simpa using hcontrol
    rcases hcases with rfl | rfl | rfl | rfl | rfl | rfl <;> rfl
  · have hshort : "dDsSwW".toList.contains c = false :=
      contains_eq_false Regex.isEscapable (by decide) hescapable
    have hself : unescaped c = c := by
      unfold unescaped
      split <;> first
        | rfl
        | exact absurd hescapable (by decide)
    rw [hself]
    unfold readEscape
    dsimp only
    split <;> first
      | exact absurd hescapable (by decide)
      | rw [hshort, if_neg Bool.false_ne_true]

theorem ofBodyWithin_plain {c : Char} (hslash : c ≠ '\\') (steps : Nat) (rest : List Char) :
    ofBodyWithin (steps + 1) (c :: rest) = ofText [c] c :: ofBodyWithin steps rest := by
  by_cases hdash : c = '-'
  · rw [hdash]
    rfl
  · rw [ofBodyWithin, ofText_of_ne fun heq => hdash (List.cons.inj heq).1]
    · exact fun heq => hslash heq
    · exact fun heq => hdash heq

/-- A character of a class is read. -/
theorem ofBodyWithin_spells {text : List Char} {c : Char} (h : Spells text c) (steps : Nat)
    (rest : List Char) :
    ofBodyWithin (steps + 1) (text ++ rest) = ofText text c :: ofBodyWithin steps rest := by
  cases h with
  | plain h => exact ofBodyWithin_plain (ne_of_plain h).1 steps rest
  | escaped h =>
    show ofBodyWithin (steps + 1) ('\\' :: _ :: rest) = _
    rw [ofBodyWithin, readEscape_classSpelling h, ofText_of_ne (by simp)]

theorem fst_readEscape_ne_dash (cs : List Char) : (readEscape cs).1 ≠ dash := by
  have hcode : ∀ (most : Nat) (cs : List Char), (readCode most cs).1 ≠ dash := by
    intro most cs
    unfold readCode
    split
    · dsimp only
      split <;> simp
    · simp
  unfold readEscape
  split
  · simp
  · split <;> first
      | exact hcode _ _
      | (split <;> simp)
      | simp

/-- Only what starts with a hyphen is read as one. -/
theorem head?_ofBodyWithin {steps : Nat} {cs : List Char}
    (h : (ofBodyWithin steps cs).head? = some dash) : cs.head? = some '-' := by
  unfold ofBodyWithin at h
  split at h
  · cases h
  · split at h
    · cases h
    · exact absurd (Option.some.inj h) (fst_readEscape_ne_dash _)
    · rfl
    · cases h

end ClassItem

/-! ### Ranges -/

/-- The code points of a member of a class. -/
def Listed.span : Listed → CodeRange
  | .one c => (c.toNat, c.toNat)
  | .range lo hi => (lo.toNat, hi.toNat)

theorem Listed.holds_span (item : Listed) (c : Char) :
    rangeHolds c.toNat item.span = item.holds c := by
  cases item with
  | one d =>
    rw [Bool.eq_iff_iff, rangeHolds_iff]
    constructor
    · rintro ⟨hle, hle'⟩
      exact beq_iff_eq.mpr (Char.toNat_inj.mp (Nat.le_antisymm hle' hle))
    · intro heq
      cases beq_iff_eq.mp heq
      exact ⟨Nat.le_refl _, Nat.le_refl _⟩
  | range lo hi => rfl

open ClassItem in
/-- A single character makes a range of its own, unless a hyphen and
another member follow. -/
theorem ranges_one {c : Char} {steps : Nat} {rest : List Char}
    (h : rest.head? = some '-' → rest = ['-']) (first : Bool) :
    ranges first (code c.toNat :: ofBodyWithin steps rest)
      = (c.toNat, c.toNat) :: ranges false (ofBodyWithin steps rest) := by
  have hnext : ∀ stop items, ofBodyWithin steps rest ≠ dash :: code stop :: items := by
    intro stop items heq
    have hhead : rest.head? = some '-' := head?_ofBodyWithin (by rw [heq]; rfl)
    rw [h hhead] at heq
    cases steps with
    | zero => cases heq
    | succ steps => cases steps <;> cases heq
  rw [ranges]
  intro stop items heq
  exact hnext stop items heq

open ClassItem in
/-- A hyphen that stands alone makes a range of its own. -/
theorem ranges_dash {steps : Nat} {rest : List Char} (h : rest.head? ≠ some '-') (first : Bool) :
    ranges first (dash :: ofBodyWithin steps rest)
      = (0x2D, 0x2D) :: ranges false (ofBodyWithin steps rest) := by
  rw [ranges]
  intro stop items heq
  exact h (head?_ofBodyWithin (by rw [heq]; rfl))

/-- A hyphen that starts a range has a backslash. -/
theorem Spells.escaped_of_hyphen {d c : Char} {tail : List Char} (h : Spells (d :: tail) c)
    (hc : c = '-') (hne : d :: tail ≠ ['-']) : d = '\\' ∧ tail = ['-'] := by
  cases h with
  | plain _ => exact absurd (by rw [hc]) hne
  | @escaped letter hspelling =>
    refine ⟨rfl, ?_⟩
    unfold unescaped at hc
    split at hc <;> first
      | exact absurd hc (by decide)
      | rw [hc]

open ClassItem in
/-- What a class lists is read as the ranges that it lists, and no
shorthands. At the start, a hyphen with a backslash is not the start of
a range. -/
theorem ranges_lists {body : List Char} {items : List Listed} (h : Lists Spells body items)
    {first : Bool} (hfirst : first = true → ∀ rest, body ≠ '\\' :: '-' :: '-' :: rest) {steps : Nat}
    (hsteps : body.length ≤ steps) :
    ranges first (ofBodyWithin steps body) = items.map Listed.span ∧
      (ofBodyWithin steps body).flatMap shorthandText = [] := by
  induction h generalizing first steps with
  | nil => cases steps <;> exact ⟨rfl, rfl⟩
  | @one text rest c items htext hhyphen hdoubled _ ih =>
    obtain ⟨d, tail, rfl, -⟩ := (Denotes.spelt htext).exists_cons
    simp only [List.length_append, List.length_cons] at hsteps
    obtain ⟨steps, rfl⟩ : ∃ count, steps = count + 1 := ⟨steps - 1, by omega⟩
    obtain ⟨hrest, hnone⟩ := ih (fun heq => absurd heq Bool.false_ne_true)
      (show rest.length ≤ steps by omega)
    rw [ofBodyWithin_spells htext, List.map_cons, ← hrest, List.flatMap_cons, hnone]
    by_cases hdash : d :: tail = ['-']
    · cases hdash
      cases htext
      exact ⟨ranges_dash (hdoubled '-' rfl rfl) first, rfl⟩
    · rw [ofText_of_ne hdash]
      exact ⟨ranges_one hhyphen first, rfl⟩
  | @range left right rest lo hi items hleft hright hstart hhyphen _ _ ih =>
    simp only [List.length_append, List.length_cons] at hsteps
    obtain ⟨d, tail, rfl, -⟩ := (Denotes.spelt hleft).exists_cons
    obtain ⟨e, others, rfl, -⟩ := (Denotes.spelt hright).exists_cons
    simp only [List.length_cons] at hsteps
    obtain ⟨steps, rfl⟩ : ∃ count, steps = count + 3 := ⟨steps - 3, by omega⟩
    obtain ⟨hrest, hnone⟩ := ih (fun heq => absurd heq Bool.false_ne_true)
      (show rest.length ≤ steps by omega)
    -- A first hyphen would be read by itself, and not as the start of a range.
    have hopen : (first && lo.toNat == 0x2D) = false := by
      cases first with
      | false => rfl
      | true =>
        rw [Bool.true_and, beq_eq_false_iff_ne]
        intro hlo
        obtain ⟨rfl, rfl⟩ := hleft.escaped_of_hyphen (Char.toNat_inj.mp hlo) hstart
        exact hfirst rfl _ rfl
    have hright' : e :: others ≠ ['-'] := fun heq => hhyphen (congrArg List.head? heq)
    have hread : ofBodyWithin (steps + 3) (d :: tail ++ '-' :: (e :: others ++ rest))
        = code lo.toNat :: dash :: code hi.toNat :: ofBodyWithin steps rest := by
      rw [ofBodyWithin_spells hleft, ofBodyWithin_plain (by decide), ofBodyWithin_spells hright,
        ofText_of_ne hstart, ofText_of_ne hright']
      rfl
    rw [hread, List.map_cons, ← hrest]
    refine ⟨?_, hnone⟩
    rw [ranges, hopen]
    rfl

/-- A class without operations does not start with two hyphens the first
of which has a backslash. -/
theorem ne_of_not_isComplex {body : List Char} (h : isComplex body = false) (rest : List Char) :
    body ≠ '\\' :: '-' :: '-' :: rest := by
  rintro rfl
  have hany := (Bool.or_eq_false_iff.mp h).2
  exact absurd rfl (List.any_eq_false.mp hany "--" (by decide))

/-- The sign of a negated class, and the members of a class. -/
def splitNegation : List Char → List Char × List Char
  | '^' :: rest => (['^'], rest)
  | body => ([], body)

/-- What stands before the members of a class. -/
def negation (negated : Bool) : List Char := if negated then ['^'] else []

/-- Whether a class starts with a closing bracket that a hyphen and
another member follow. -/
def opensJoined (body : List Char) : Bool :=
  match (splitNegation body).2 with
  | ']' :: '-' :: _ :: _ => true
  | _ => false

open ClassItem in
/-- The text of a class is read as the ranges that it lists. -/
theorem ranges_ofBody {body : List Char} {negated : Bool} {items : List Listed}
    (h : ClassLists Spells body negated items) (hjoined : opensJoined body = false)
    (hcomplex : isComplex (splitNegation body).2 = false) :
    (splitNegation body).1 = negation negated ∧
      ranges true (ofBody (splitNegation body).2) = items.map Listed.span ∧
      (ofBody (splitNegation body).2).flatMap shorthandText = [] := by
  have hlists : ∀ {body : List Char} {items : List Listed}, Lists Spells body items →
      isComplex body = false →
      ranges true (ofBody body) = items.map Listed.span ∧
        (ofBody body).flatMap shorthandText = [] :=
    fun h hcomplex => ranges_lists h (fun _ => ne_of_not_isComplex hcomplex) (Nat.le_refl _)
  -- A closing bracket in front is a member, and joins no range.
  have hbracket : ∀ {body : List Char} {items : List Listed}, Lists Spells body items →
      opensJoined (']' :: body) = false →
      ranges true (ofBody (']' :: body)) = (Listed.one ']' :: items).map Listed.span ∧
        (ofBody (']' :: body)).flatMap shorthandText = [] := by
    intro body items h hopens
    have hhyphen : body.head? = some '-' → body = ['-'] := by
      intro hhead
      match body with
      | [] => cases hhead
      | [c] =>
        cases hhead
        rfl
      | c :: d :: rest =>
        cases hhead
        cases hopens
    have hread : ofBody (']' :: body) = code ']'.toNat :: ofBodyWithin body.length body :=
      ofBodyWithin_plain (by decide) _ _
    obtain ⟨hrest, hnone⟩ := ranges_lists h (fun heq => absurd heq Bool.false_ne_true)
      (Nat.le_refl body.length)
    rw [hread, List.map_cons, ← hrest]
    exact ⟨ranges_one hhyphen true, hnone⟩
  cases h with
  | plain hne hcaret h =>
    have hsplit : splitNegation body = ([], body) := by
      unfold splitNegation
      split
      · exact absurd rfl hcaret
      · rfl
    rw [hsplit] at hcomplex ⊢
    exact ⟨rfl, hlists h hcomplex⟩
  | negated hne h => exact ⟨rfl, hlists h hcomplex⟩
  | bracket h => exact ⟨rfl, hbracket h hjoined⟩
  | negatedBracket h => exact ⟨rfl, hbracket h hjoined⟩

/-- The ends of ranges are hyphens or codes of members. -/
theorem stop_of_mem_ranges {first : Bool} {items : List ClassItem} {range : CodeRange}
    (h : range ∈ ranges first items) : range.2 = 0x2D ∨ .code range.2 ∈ items := by
  fun_induction ranges first items with
  | case1 => cases h
  | case2 first letter rest ih => exact (ih h).imp_right (List.mem_cons_of_mem _)
  | _ =>
    -- Here a range comes first, and its stop is among what was read for it.
    rename_i ih
    rcases List.mem_cons.mp h with rfl | hrest
    · simp
    · exact (ih hrest).imp_right fun hcode => by grind

/-- The ranges of a class whose codes are all ASCII. -/
theorem stop_le_of_ascii {first : Bool} {items : List ClassItem}
    (h : ∀ value, ClassItem.code value ∈ items → value ≤ 0x7F) :
    ∀ range ∈ ranges first items, range.2 ≤ 0x7F := by
  intro range hrange
  rcases stop_of_mem_ranges hrange with hhyphen | hcode
  · omega
  · exact h range.2 hcode

theorem le_of_not_isOutsideAscii {items : List ClassItem}
    (h : items.any ClassItem.isOutsideAscii = false) {value : Nat} (hcode : .code value ∈ items) :
    value ≤ 0x7F := by
  have hinside := List.any_eq_false.mp h _ hcode
  simp only [ClassItem.isOutsideAscii, decide_eq_true_eq] at hinside
  omega

/-- Ranges that are listed start where they stop or before. -/
theorem ClassLists.start_le {spells : List Char → Char → Prop} {body : List Char} {negated : Bool}
    {items : List Listed} (h : ClassLists spells body negated items) :
    ∀ range ∈ items.map Listed.span, range.1 ≤ range.2 := by
  have hlists : ∀ {body : List Char} {items : List Listed}, Lists spells body items →
      ∀ range ∈ items.map Listed.span, range.1 ≤ range.2 := by
    intro body items h
    induction h with
    | nil => exact fun range hrange => nomatch hrange
    | one _ _ _ _ ih => exact List.forall_mem_cons.mpr ⟨Nat.le_refl _, ih⟩
    | range _ _ _ _ hle _ ih => exact List.forall_mem_cons.mpr ⟨hle, ih⟩
  cases h with
  | plain _ _ h => exact hlists h
  | negated _ h => exact hlists h
  | bracket h => exact List.forall_mem_cons.mpr ⟨Nat.le_refl _, hlists h⟩
  | negatedBracket h => exact List.forall_mem_cons.mpr ⟨Nat.le_refl _, hlists h⟩

/-! ### Writing ranges -/

/-- A code that is written as a number denotes its character. -/
theorem denotes_byCode {code : Nat} (h : code < 0x80) :
    Denotes ("\\x\x7b".toList ++ Nat.toDigits 16 code ++ ['}']) (Char.ofNat code) := by
  have hall : ∀ code < 0x80, ((Nat.toDigits 16 code).all isHexDigit = true ∧
      (Nat.toDigits 16 code).length ≤ 8) ∧
        coded? (Nat.toDigits 16 code) = some (Char.ofNat code) := by decide +kernel
  obtain ⟨⟨hhex, hlength⟩, hcode⟩ := hall code h
  exact .coded (List.all_eq_true.mp hhex) hlength hcode

/-- The ways in which a character is written in a class: as it is, with
a backslash, or by its code. -/
theorem quotedCode_cases {code : Nat} (h : code.isValidChar) :
    ("\\-][^&~".toList.contains (Char.ofNat code) = false ∧ quotedCode code = [Char.ofNat code]) ∨
    ("\\-][^".toList.contains (Char.ofNat code) = true ∧
      quotedCode code = ['\\', Char.ofNat code]) ∨
    (code < 0x80 ∧ quotedCode code = "\\x\x7b".toList ++ Nat.toDigits 16 code ++ ['}']) := by
  unfold quotedCode
  rw [decide_eq_true h, Bool.true_and]
  by_cases hcontrol : 0x20 ≤ code
  · rw [if_pos (decide_eq_true hcontrol)]
    have hcode : (Char.ofNat code).toNat = code := Unicode.toNat_ofNat h
    generalize Char.ofNat code = c at hcode
    by_cases hoperator : (c == '&' || c == '~') = true
    · have hascii : code < 0x80 := by
        rw [← hcode]
        rcases Bool.or_eq_true_iff.mp hoperator with heq | heq <;>
        · rw [beq_iff_eq.mp heq]
          decide
      simp only [hoperator, if_true]
      exact .inr (.inr ⟨hascii, trivial⟩)
    · by_cases hquoted : "\\-][^".toList.contains c = true
      · simp only [hoperator, hquoted, if_true]
        exact .inr (.inl ⟨trivial, if_neg Bool.false_ne_true⟩)
      · simp only [hoperator, hquoted]
        refine .inl ⟨?_, rfl⟩
        simp_all
  · rw [if_neg (by simpa using hcontrol)]
    exact .inr (.inr ⟨by omega, rfl⟩)

/-- A code that is written denotes its character. -/
theorem denotes_quotedCode {code : Nat} (h : code.isValidChar) :
    Denotes (quotedCode code) (Char.ofNat code) := by
  rcases quotedCode_cases h with ⟨hplain, htext⟩ | ⟨hquoted, htext⟩ | ⟨hascii, htext⟩
  · rw [htext]
    refine .spelt (.plain ?_)
    simp_all
  · rw [htext]
    have hspelling : "\\-][^".toList.all (fun c => isClassSpelling c && unescaped c == c) = true := by
      decide
    obtain ⟨hspelling, hself⟩ := Bool.and_eq_true_iff.mp
      (List.all_eq_true.mp hspelling _ (List.contains_iff_mem.mp hquoted))
    have hself := beq_iff_eq.mp hself
    have hspells := Spells.escaped hspelling
    rw [hself] at hspells
    exact .spelt hspells
  · rw [htext]
    exact denotes_byCode hascii

/-- Whether a character means something of its own in a class, or where
a class starts. -/
def isClassSign (c : Char) : Bool := "&-~^".toList.contains c

/-- What is written for a code starts with no sign. -/
theorem isClassSign_quotedCode {code : Nat} (h : code.isValidChar) :
    ∀ c ∈ (quotedCode code).head?, isClassSign c = false := by
  rcases quotedCode_cases h with ⟨hplain, htext⟩ | ⟨-, htext⟩ | ⟨-, htext⟩
  · rw [htext]
    rintro c ⟨⟩
    unfold isClassSign
    simp_all
  · rw [htext]
    rintro c ⟨⟩
    decide
  · rw [htext]
    rintro c ⟨⟩
    decide

/-- A range as a class lists it. -/
def listedRange (range : CodeRange) : Listed :=
  if range.1 < range.2 then .range (Char.ofNat range.1) (Char.ofNat range.2)
  else .one (Char.ofNat range.1)

theorem holds_listedRange {range : CodeRange} (h : IsProper range) (c : Char) :
    (listedRange range).holds c = rangeHolds c.toNat range := by
  have hle := h.start_le
  have hstart := Unicode.toNat_ofNat h.valid_start
  have hstop := Unicode.toNat_ofNat h.valid_stop
  unfold listedRange
  by_cases hlt : range.1 < range.2
  · rw [if_pos hlt, ← Listed.holds_span, Listed.span, hstart, hstop]
  · have hsame : range.2 = range.1 := by omega
    obtain ⟨start, stop⟩ := range
    cases hsame
    rw [if_neg hlt, ← Listed.holds_span, Listed.span, hstart]

/-- The text of ranges lists them. -/
theorem lists_rangeText {ranges : List CodeRange} (h : ∀ range ∈ ranges, IsProper range) :
    Lists Denotes (ranges.flatMap rangeText) (ranges.map listedRange) ∧
      ∀ c ∈ (ranges.flatMap rangeText).head?, isClassSign c = false := by
  induction ranges with
  | nil => exact ⟨.nil, fun c hc => nomatch hc⟩
  | cons range ranges ih =>
    obtain ⟨hrange, hranges⟩ := List.forall_mem_cons.mp h
    obtain ⟨hlists, hsign⟩ := ih hranges
    obtain ⟨start, stop⟩ := range
    have hstart := denotes_quotedCode hrange.valid_start
    have hstop := denotes_quotedCode hrange.valid_stop
    have hfirst := isClassSign_quotedCode hrange.valid_start
    have hsecond := isClassSign_quotedCode hrange.valid_stop
    have hhead : ∀ c, (rangeText (start, stop) ++ ranges.flatMap rangeText).head? = some c →
        isClassSign c = false := by
      intro c hc
      refine hfirst c ?_
      obtain ⟨d, tail, htext, -⟩ := hstart.exists_cons
      rw [rangeText] at hc
      split at hc <;>
      · rw [htext] at hc ⊢
        exact hc
    refine ⟨?_, hhead⟩
    rw [List.flatMap_cons, List.map_cons, rangeText, listedRange]
    by_cases hlt : start < stop
    · rw [if_pos hlt, if_pos hlt, List.append_assoc]
      refine .range hstart hstop (fun heq => ?_) (fun hhyphen => ?_) ?_ hlists
      · exact absurd (hfirst '-' (by rw [heq]; rfl)) (by decide)
      · exact absurd (hsecond '-' hhyphen) (by decide)
      · show (Char.ofNat start).toNat ≤ (Char.ofNat stop).toNat
        rw [Unicode.toNat_ofNat hrange.valid_start, Unicode.toNat_ofNat hrange.valid_stop]
        exact hrange.start_le
    · rw [if_neg hlt, if_neg hlt]
      refine .one hstart (fun hhyphen => ?_) (fun d hd hop _ => ?_) hlists
      · exact absurd (hsign '-' hhyphen) (by decide)
      · have hsign := hfirst d (by rw [hd]; rfl)
        simp_all [isOperator, isClassSign]

theorem any_listedRange {ranges : List CodeRange} (h : ∀ range ∈ ranges, IsProper range) (c : Char) :
    (ranges.map listedRange).any (·.holds c) = ranges.any (rangeHolds c.toNat) := by
  induction ranges with
  | nil => rfl
  | cons range ranges ih =>
    obtain ⟨hrange, hranges⟩ := List.forall_mem_cons.mp h
    rw [List.map_cons, List.any_cons, List.any_cons, holds_listedRange hrange, ih hranges]

theorem any_span (items : List Listed) (c : Char) :
    (items.map Listed.span).any (rangeHolds c.toNat) = items.any (·.holds c) := by
  rw [List.any_map]
  exact congrArg (items.any ·) (funext fun item => item.holds_span c)

/-! ### Folded classes -/

/-- What stands in a class with all case variants of its members, or
nothing where they are not spelt out. -/
def foldedBody? (body : List Char) : Option (List Char) :=
  let (opening, members) := splitNegation body
  let items := ClassItem.ofBody members
  if isComplex members || items.any ClassItem.isOutsideAscii then none
  else some (opening ++ (items.flatMap ClassItem.shorthandText ++
    (merged (closed (ranges true items))).flatMap rangeText))

/-- The text of a folded class. -/
theorem foldClass_brackets (body : List Char) :
    foldClass ('[' :: (body ++ [']']))
      = match foldedBody? body with
        | some folded => '[' :: (folded ++ [']'])
        | none => ignoringCase ('[' :: (body ++ [']'])) := by
  have hinner : betweenBrackets ('[' :: (body ++ [']'])) = body := by
    simp [betweenBrackets]
  have hfold : foldClass ('[' :: (body ++ [']']))
      = let (opening, members) := splitNegation (betweenBrackets ('[' :: (body ++ [']'])))
        let items := ClassItem.ofBody members
        if isComplex members || items.any ClassItem.isOutsideAscii then
          ignoringCase ('[' :: (body ++ [']']))
        else '[' :: opening ++ items.flatMap ClassItem.shorthandText ++
          (merged (closed (ranges true items))).flatMap rangeText ++ [']'] := rfl
  rw [hfold, hinner]
  unfold foldedBody?
  simp only
  by_cases hspelt : (isComplex (splitNegation body).2 ||
      (ClassItem.ofBody (splitNegation body).2).any ClassItem.isOutsideAscii) = true
  · rw [if_pos hspelt, if_pos hspelt]
  · rw [if_neg hspelt, if_neg hspelt]
    simp

theorem Lists.ne_nil {body : List Char} {items : List Listed} (h : Lists Denotes body items) :
    body ≠ [] ↔ items ≠ [] := by
  cases h with
  | nil => exact iff_of_false (fun hne => hne rfl) fun hne => hne rfl
  | one htext =>
    obtain ⟨d, tail, rfl, -⟩ := htext.exists_cons
    exact iff_of_true (List.cons_ne_nil _ _) (List.cons_ne_nil _ _)
  | range hfirst =>
    obtain ⟨d, tail, rfl, -⟩ := hfirst.exists_cons
    exact iff_of_true (List.cons_ne_nil _ _) (List.cons_ne_nil _ _)

theorem ClassLists.items_ne_nil {body : List Char} {negated : Bool} {items : List Listed}
    (h : ClassLists Denotes body negated items) : items ≠ [] := by
  cases h with
  | plain hne _ h => exact h.ne_nil.mp hne
  | negated hne h => exact h.ne_nil.mp hne
  | bracket _ => exact List.cons_ne_nil _ _
  | negatedBracket _ => exact List.cons_ne_nil _ _

/-- A folded class lists the characters with a case variant that the
class listed, and is negated if the class was. -/
theorem classLists_foldedBody {body folded : List Char} {negated : Bool} {items : List Listed}
    (h : ClassLists Spells body negated items) (hjoined : opensJoined body = false)
    (hfolded : foldedBody? body = some folded) :
    ∃ more, ClassLists Denotes folded negated more ∧
      ∀ c, more.any (·.holds c) = Regex.CharSet.closeCase (fun d => items.any (·.holds d)) c := by
  unfold foldedBody? at hfolded
  simp only at hfolded
  split at hfolded
  · cases hfolded
  · rename_i hplain
    rw [Bool.not_eq_true, Bool.or_eq_false_iff] at hplain
    obtain ⟨hnegated, hranges, hnone⟩ := ranges_ofBody h hjoined hplain.1
    have hascii : ∀ range ∈ items.map Listed.span, range.2 ≤ 0x7F := by
      rw [← hranges]
      exact stop_le_of_ascii fun _ => le_of_not_isOutsideAscii hplain.2
    have hproper : ∀ range ∈ merged (closed (items.map Listed.span)), IsProper range :=
      isProper_merged (isProper_closed fun range hrange =>
        isProper_of_ascii (h.start_le range hrange) (hascii range hrange))
    rw [hnegated, hranges, hnone, List.nil_append] at hfolded
    obtain ⟨hlists, hsign⟩ := lists_rangeText hproper
    have hne : (merged (closed (items.map Listed.span))).map listedRange ≠ [] := by
      have hitems := (h.mono fun _ _ => .spelt).items_ne_nil
      rw [Ne, List.map_eq_nil_iff]
      exact merged_ne_nil (closed_ne_nil fun hnil => hitems (List.map_eq_nil_iff.mp hnil))
    refine ⟨(merged (closed (items.map Listed.span))).map listedRange, ?_, fun c => ?_⟩
    · cases hfolded
      cases negated with
      | false =>
        exact .plain (hlists.ne_nil.mpr hne) (fun hhead => absurd (hsign '^' hhead) (by decide)) hlists
      | true => exact .negated (hlists.ne_nil.mpr hne) hlists
    · rw [any_listedRange hproper, holds_merged, Bool.eq_iff_iff, holds_closed hascii,
        Regex.CharSet.closeCase, List.any_eq_true]
      refine exists_congr fun other => and_congr_right fun hother => ?_
      rw [← any_span, Unicode.toNat_ofNat_of_mem_variants hother]

/-! ### Folded letters -/

/-- What stands in the class that an ASCII letter is folded to. -/
def foldedLetter (c : Char) : List Char :=
  c.toUpper :: c.toLower :: (variantsOutsideAscii.lookup c.toLower).toList

/-- Whether a character stands for itself wherever it stands in a
class. -/
def isPlainMember (c : Char) : Bool := !"\\[]&-~^".toList.contains c

/-- Plain characters list themselves. -/
theorem lists_plain {text : List Char} (h : ∀ c ∈ text, isPlainMember c = true) :
    Lists Spells text (text.map Listed.one) := by
  induction text with
  | nil => exact .nil
  | cons c text ih =>
    obtain ⟨hc, htext⟩ := List.forall_mem_cons.mp h
    have hplain : ∀ {d : Char}, isPlainMember d = true →
        "\\[]".toList.contains d = false ∧ isOperator d = false := fun hd =>
      ⟨contains_eq_false isPlainMember (by decide) hd,
        contains_eq_false isPlainMember (by decide) hd⟩
    have hhead : text.head? ≠ some '-' := fun hhead =>
      absurd (htext '-' (List.mem_of_mem_head? hhead)) (by decide)
    refine .one (.plain (hplain hc).1) (fun heq => absurd heq hhead) ?_ (ih htext)
    rintro d ⟨⟩ hop
    exact absurd ((hplain hc).2.symm.trans hop) (by decide)

/-- An ASCII letter has a place in the alphabet. -/
theorem exists_index_of_isAlpha {c : Char} (h : c.isAlpha = true) :
    ∃ index < 26, c = Char.ofNat (0x41 + index) ∨ c = Char.ofNat (0x61 + index) := by
  have hself := Char.ofNat_toNat c
  rcases Bool.or_eq_true_iff.mp h with hupper | hlower
  · obtain ⟨hle, hle'⟩ : 0x41 ≤ c.toNat ∧ c.toNat ≤ 0x5A := by
      change decide (c.val ≥ 'A'.val ∧ c.val ≤ 'Z'.val) = true at hupper
      simpa [UInt32.le_iff_toNat_le] using hupper
    refine ⟨c.toNat - 0x41, by omega, .inl ?_⟩
    rw [Nat.add_sub_cancel' hle, hself]
  · obtain ⟨hle, hle'⟩ : 0x61 ≤ c.toNat ∧ c.toNat ≤ 0x7A := by
      change (decide (c.val ≥ 'a'.val) && decide (c.val ≤ 'z'.val)) = true at hlower
      simpa [UInt32.le_iff_toNat_le] using hlower
    refine ⟨c.toNat - 0x61, by omega, .inr ?_⟩
    rw [Nat.add_sub_cancel' hle, hself]

/-- The class of a letter lists its variants. -/
theorem classLists_foldedLetter {c : Char} (h : c.isAlpha = true) :
    ClassLists Spells (foldedLetter c) false ((foldedLetter c).map Listed.one) ∧
      ∀ d, ((foldedLetter c).map Listed.one).any (·.holds d)
        = (Unicode.variants c.toNat).contains d.toNat := by
  have hall : ∀ index < 26, [Char.ofNat (0x41 + index), Char.ofNat (0x61 + index)].all
      (fun c => (foldedLetter c).all isPlainMember &&
        ((foldedLetter c).map Char.toNat).isPerm (Unicode.variants c.toNat)) = true := by
    decide +kernel
  obtain ⟨index, hindex, hc⟩ := exists_index_of_isAlpha h
  obtain ⟨hplain, hvariants⟩ := Bool.and_eq_true_iff.mp
    (List.all_eq_true.mp (hall index hindex) c (by simpa using hc))
  have hvariants := List.isPerm_iff.mp hvariants
  have hplain := List.all_eq_true.mp hplain
  constructor
  · refine .plain (List.cons_ne_nil _ _) ?_ (lists_plain hplain)
    intro hhead
    exact absurd (hplain '^' (List.mem_of_mem_head? hhead)) (by decide)
  · intro d
    rw [List.any_map, Bool.eq_iff_iff, List.any_eq_true, List.contains_iff_mem,
      ← hvariants.mem_iff, List.mem_map]
    refine exists_congr fun e => and_congr_right fun _ => ?_
    show (d == e) = true ↔ _
    rw [beq_iff_eq, Char.toNat_inj]
    exact eq_comm

/-- The text of a folded letter. -/
theorem foldChar_letter {c : Char} (h : c.isAlpha = true) :
    foldChar c = '[' :: (foldedLetter c ++ [']']) := by
  unfold foldChar
  rw [if_pos h]
  rfl

end Highlighter.Pattern
