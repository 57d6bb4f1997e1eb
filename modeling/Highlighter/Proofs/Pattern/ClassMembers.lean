import Highlighter.Proofs.Regex.ClassList
import Highlighter.Proofs.Regex.Taken

/-!
# Folding reads the members of a class as the engine does

Where letter case is spelt out, the members of a class are read by
`ClassItem.ofBody` and taken for ranges by `ranges`. For the members of a
class without nested classes and operations, that is what the reader of
classes makes of them (`readAlike_of_parseClass`): the same characters
and ranges, and the same classes with a letter of their own.

Two texts are not read right. A code with eight digits is not known
(`writesWide`). And at the start of a class, a closing bracket makes a
range with the hyphen and the member after it, and a hyphen that is
written by its code makes none (`joinsFirst`).
-/

set_option autoImplicit false

namespace Highlighter.Pattern

open Regex

/-! ### Members -/

/-- A member of a class that folding spells out: a character, a range,
or a class with a letter of its own. -/
inductive ClassMember where
  | listed (item : Listed)
  | short (kind : ShortClass) (negated : Bool)

namespace ClassMember

/-- A member as the readers of classes give it. -/
def toClass : ClassMember → ClassSet
  | listed item => Regex.Listed.toClass item
  | short kind negated => .short kind negated

/-- Whether a member holds a character, letter case counting. -/
def holds : ClassMember → Char → Bool
  | listed item => item.holds
  | short kind negated => fun c => kind.members true c != negated

/-- The text of a class with a letter of its own. -/
def shortText : ClassMember → List Char
  | listed _ => []
  | short kind negated => ['\\', shortLetter kind negated]

/-- The code points that a member lists. -/
def spans : ClassMember → List CodeRange
  | listed item => [item.span]
  | short _ _ => []

theorem meaning_toClass (member : ClassMember) (ignoreCase : Bool) :
    member.toClass.meaning? ⟨ignoreCase, true⟩ = some member.holds := by
  cases member with
  | listed item => cases item <;> rfl
  | short kind negated =>
    show CharSet.negate? ⟨ignoreCase, true⟩ negated (kind.members true) = some fun c => _
    cases negated with
    | false => exact congrArg some (funext fun c => (Bool.bne_false _).symm)
    | true => exact congrArg some (funext fun c => (Bool.bne_true _).symm)

theorem depth_toClass (member : ClassMember) : member.toClass.depth = 0 := by
  cases member with
  | listed item => exact Regex.depth_toClass item
  | short kind negated => rfl

end ClassMember

/-! ### What is misread -/

/-- Whether a code with eight digits is written. -/
def writesWide : List Char → Bool
  | '\\' :: letter :: rest => letter == 'U' || writesWide rest
  | _ :: rest => writesWide rest
  | [] => false

/-- Whether the first member, which is a closing bracket or a hyphen
written by its code, stands before a hyphen and another member. -/
def joinsFirst (members : List Char) : Bool :=
  match ClassItem.ofBody members with
  | .code first :: .dash :: .code _ :: _ => first == 0x2D || members.head? == some ']'
  | _ => false

/-- Whether folding spells out a class whose members it does not read
as the engine does. -/
def isMisread (body : List Char) : Bool :=
  let members := (splitNegation body).2
  !isComplex members && !(ClassItem.ofBody members).any ClassItem.isOutsideAscii &&
    (writesWide members || joinsFirst members)

theorem standsIn_append {part after : List Char} (before : List Char)
    (h : standsIn part after = true) : standsIn part (before ++ after) = true := by
  induction before with
  | nil => exact h
  | cons c before ih =>
    rw [List.cons_append, standsIn, ih, Bool.or_true]

/-- What is written in a part of a class is written in the class. -/
theorem isComplex_append (before : List Char) {after : List Char}
    (h : isComplex (before ++ after) = false) : isComplex after = false := by
  obtain ⟨hopen, hnone⟩ := Bool.or_eq_false_iff.mp h
  refine Bool.or_eq_false_iff.mpr ⟨?_, List.any_eq_false.mpr fun operation hop hstands => ?_⟩
  · rw [← Bool.not_eq_true, List.contains_iff_mem] at hopen ⊢
    exact fun hmem => hopen (List.mem_append_right before hmem)
  · exact List.any_eq_false.mp hnone operation hop (standsIn_append before hstands)

theorem ne_open_of_not_isComplex {cs : List Char} (h : isComplex cs = false) (before after : List Char) :
    cs ≠ before ++ '[' :: after := by
  rintro rfl
  have hopen := (Bool.or_eq_false_iff.mp (isComplex_append before h)).1
  simp at hopen

/-- No operation is written in a class that is spelt out. -/
theorem ne_doubled_of_not_isComplex {cs : List Char} (h : isComplex cs = false) {c : Char}
    {op : ClassOp} (hop : doubledOp? c = some op) (before after : List Char) :
    cs ≠ before ++ c :: c :: after := by
  rintro rfl
  have hany := (Bool.or_eq_false_iff.mp (isComplex_append before h)).2
  have hnone := List.any_eq_false.mp hany
  unfold doubledOp? at hop
  split at hop
  · exact hnone "&&" (by decide) rfl
  · exact hnone "--" (by decide) rfl
  · exact hnone "~~" (by decide) rfl
  · cases hop

/-- No property is written in a class that is spelt out. -/
theorem ne_property_of_not_isComplex {cs : List Char} (h : isComplex cs = false) {letter : Char}
    (hletter : letter = 'p' ∨ letter = 'P') (after : List Char) : cs ≠ '\\' :: letter :: after := by
  rintro rfl
  have hnone := List.any_eq_false.mp (Bool.or_eq_false_iff.mp h).2
  rcases hletter with rfl | rfl
  · exact hnone "\\p" (by decide) rfl
  · exact hnone "\\P" (by decide) rfl

/-- A text without backslashes writes no code. -/
theorem writesWide_append {before : List Char} (h : '\\' ∉ before) (after : List Char) :
    writesWide (before ++ after) = writesWide after := by
  induction before with
  | nil => rfl
  | cons c before ih =>
    rw [List.mem_cons, not_or] at h
    rw [List.cons_append, writesWide, ih h.2]
    exact fun letter rest heq => absurd heq.symm h.1

/-! ### Reading one member -/

namespace ClassItem

theorem length_readEscape (cs : List Char) : (readEscape cs).2.length ≤ cs.length := by
  have hcode : ∀ (most : Nat) (cs : List Char), (readCode most cs).2.length ≤ cs.length := by
    intro most cs
    unfold readCode
    split
    · rename_i rest
      have hdrop := List.length_drop (l := rest) (i := (rest.takeWhile isHexDigit).length)
      dsimp only
      split
      · rename_i left heq
        rw [heq] at hdrop
        simp only [List.length_cons] at hdrop ⊢
        omega
      · simp only [List.length_cons]
        omega
    · simp only [List.length_drop]
      omega
  unfold readEscape
  split
  · exact Nat.le_refl _
  · split <;> first
      | exact Nat.le_succ_of_le (hcode _ _)
      | exact Nat.le_succ _
      | (split <;> exact Nat.le_succ _)

/-- The count of steps does not matter, as long as it is large enough. -/
theorem ofBodyWithin_eq {steps : Nat} {cs : List Char} (h : cs.length ≤ steps) :
    ofBodyWithin steps cs = ofBody cs := by
  have hsame : ∀ (steps steps' : Nat) (cs : List Char), cs.length ≤ steps → cs.length ≤ steps' →
      ofBodyWithin steps cs = ofBodyWithin steps' cs := by
    intro steps
    induction steps with
    | zero =>
      intro steps' cs hzero _
      obtain rfl := List.eq_nil_of_length_eq_zero (Nat.le_zero.mp hzero)
      cases steps' <;> rfl
    | succ steps ih =>
      intro steps' cs hsteps hsteps'
      cases cs with
      | nil => cases steps' <;> rfl
      | cons c rest =>
        obtain ⟨steps', rfl⟩ : ∃ count, steps' = count + 1 :=
          ⟨steps' - 1, by simp only [List.length_cons] at hsteps'; omega⟩
        have hrest := Nat.le_of_succ_le_succ hsteps
        have hrest' := Nat.le_of_succ_le_succ hsteps'
        by_cases hslash : c = '\\'
        · have hescape := length_readEscape rest
          rw [hslash]
          exact congrArg ((readEscape rest).1 :: ·)
            (ih steps' _ (Nat.le_trans hescape hrest) (Nat.le_trans hescape hrest'))
        · rw [ofBodyWithin_plain hslash, ofBodyWithin_plain hslash, ih steps' rest hrest hrest']
  exact hsame steps cs.length cs h (Nat.le_refl _)

theorem ofBody_escape (rest : List Char) :
    ofBody ('\\' :: rest) = (readEscape rest).1 :: ofBody (readEscape rest).2 := by
  rw [← ofBodyWithin_eq (length_readEscape rest)]
  rfl

theorem ofBody_plain {c : Char} (hslash : c ≠ '\\') (rest : List Char) :
    ofBody (c :: rest) = ofText [c] c :: ofBody rest :=
  ofBodyWithin_plain hslash _ _

end ClassItem

open ClassItem in
/-- A member of a class, read by the engine and by folding: a character
as it is, a character with a backslash, or a class with a letter of its
own. -/
inductive MemberRead (text left : List Char) : Primitive → Prop where
  | plain {c : Char} (htext : text = c :: left) (hslash : c ≠ '\\') :
    MemberRead text left (.literal c false)
  | escaped {letter c : Char} {byte : Bool} {token : List Char}
    (htext : text = '\\' :: letter :: (token ++ left)) (htoken : '\\' ∉ token)
    (hread : ofBody text = code c.toNat :: ofBody left) :
    MemberRead text left (.literal c byte)
  | short {kind : ShortClass} {negated : Bool}
    (htext : text = '\\' :: shortLetter kind negated :: left) :
    MemberRead text left (.short kind negated)

/-- The character with a code has that code. -/
theorem toNat_of_charOfCode {code : Nat} {c : Char} (h : charOfCode? code = some c) :
    c.toNat = code := by
  unfold charOfCode? at h
  split at h
  · rename_i hvalid
    cases h
    exact Unicode.toNat_ofNat hvalid
  · cases h

namespace ClassItem

theorem hexValue_of_charOfCode {digits : List Char} {code : Nat} {c : Char}
    (hnumber : hexNumber? digits = some code) (hchar : charOfCode? code = some c) :
    hexValue digits = c.toNat := by
  have hcode := toNat_of_charOfCode hchar
  have hlimit : code < Part.numberLimit := by
    rw [← hcode]
    exact c.val.toBitVec.isLt
  unfold hexValue
  simp only [hnumber, Option.getD_some, if_pos hlimit, hcode]

/-- A code is read as far as it is written. -/
theorem readCode_codeText {most : Nat} {text digits : List Char} (h : CodeText most text digits)
    {code : Nat} {c : Char} (hnumber : hexNumber? digits = some code)
    (hchar : charOfCode? code = some c) (left : List Char) :
    readCode most (text ++ left) = (ClassItem.code c.toNat, left) := by
  have hhex := isHexDigit_of_hexNumber hnumber
  have hvalue := hexValue_of_charOfCode hnumber hchar
  cases h with
  | braced =>
    have htake : (digits ++ '}' :: left).takeWhile isHexDigit = digits := by
      rw [List.takeWhile_append_of_pos hhex, List.takeWhile_cons_of_neg (by decide),
        List.append_nil]
    rw [List.cons_append, List.append_assoc, List.singleton_append, readCode, htake]
    simp only [List.drop_left, hvalue]
  | fixed hwidth =>
    have htake : ((text ++ left).take most).takeWhile isHexDigit = text := by
      rw [← hwidth, List.take_left, ← List.append_nil text,
        List.takeWhile_append_of_pos (List.append_nil text ▸ hhex), List.takeWhile_nil]
    rw [readCode]
    · simp only [htake, List.drop_left, hvalue]
    · intro rest heq
      cases text with
      | nil => cases hnumber
      | cons d digits =>
        cases heq
        exact absurd (hhex '{' List.mem_cons_self) (by decide)

end ClassItem

/-- Escapes that are nothing but their letter, and may be members. -/
theorem parseEscape_single {letter : Char} (hletter : "xuUpPb".toList.contains letter = false)
    {cs left : List Char} {first : Primitive} {item : ClassSet}
    (h : parseEscape? false (letter :: cs) = some (first, left)) (hclass : first.toClass? = some item) :
    left = cs ∧ ((isClassSpelling letter = true ∧ first = .literal (unescaped letter) false) ∨
      ∃ kind negated, letter = shortLetter kind negated ∧ first = .short kind negated) := by
  by_cases hspelling : isClassSpelling letter = true
  · rw [parseEscape_classSpelling hspelling] at h
    cases h
    exact ⟨rfl, .inl ⟨hspelling, rfl⟩⟩
  · have hescapable : isEscapable letter = false := by
      rw [← Bool.not_eq_true]
      exact fun hescapable => hspelling (Bool.or_eq_true_iff.mpr (.inr hescapable))
    unfold parseEscape? at h
    dsimp only at h
    split at h <;> first
      | exact absurd hletter (by decide)
      | exact absurd rfl hspelling
      | (cases h; cases hclass; done)
      | (cases h; exact ⟨rfl, .inr ⟨.digit, false, rfl, rfl⟩⟩)
      | (cases h; exact ⟨rfl, .inr ⟨.space, false, rfl, rfl⟩⟩)
      | (cases h; exact ⟨rfl, .inr ⟨.word, false, rfl, rfl⟩⟩)
      | (cases h; exact ⟨rfl, .inr ⟨.digit, true, rfl, rfl⟩⟩)
      | (cases h; exact ⟨rfl, .inr ⟨.space, true, rfl, rfl⟩⟩)
      | (cases h; exact ⟨rfl, .inr ⟨.word, true, rfl, rfl⟩⟩)
      | (rw [hescapable, if_neg Bool.false_ne_true] at h; cases h)

open ClassItem in
/-- What the engine reads as a member, folding reads as one. -/
theorem memberRead_of_parseMember {text left : List Char} {first : Primitive} {item : ClassSet}
    (h : parseMember? false (text ++ [']']) = some (first, left ++ [']']))
    (hclass : first.toClass? = some item) (hcomplex : isComplex text = false)
    (hwide : writesWide text = false) : MemberRead text left first := by
  have hcancel : ∀ {cs : List Char}, left ++ [']'] = cs ++ [']'] → cs = left :=
    fun heq => (List.append_cancel_right heq).symm
  have hnil : ∀ {piece : Primitive}, some (piece, ([] : List Char)) ≠ some (first, left ++ [']']) :=
    fun heq => by simp at heq
  cases text with
  | nil => exact absurd h hnil
  | cons c text =>
    by_cases hslash : c = '\\'
    · subst hslash
      have h : parseEscape? false (text ++ [']']) = some (first, left ++ [']']) := h
      cases text with
      | nil => exact absurd h hnil
      | cons letter text =>
        have hcode : ∀ {width : Nat} (_ : width ≠ 0),
            parseCode? false width (text ++ [']']) = some (first, left ++ [']']) →
            (∀ cs, readEscape (letter :: cs) = readCode width cs) →
            MemberRead ('\\' :: letter :: text) left first := by
          intro width hwidth hcode hread
          obtain ⟨token, digits, code, c, byte, htext, hform, hnumber, hchar, rfl⟩ :=
            parseCode_eq_some hwidth hcode
          rw [← List.append_assoc] at htext
          obtain rfl := List.append_cancel_right htext
          have hhex := isHexDigit_of_hexNumber hnumber
          refine .escaped rfl ?_ ?_
          · have hdigits : '\\' ∉ digits := fun hmem => absurd (hhex '\\' hmem) (by decide)
            cases hform with
            | braced => simpa using hdigits
            | fixed _ => exact hdigits
          · rw [ofBody_escape, hread, readCode_codeText hform hnumber hchar]
        by_cases hletter : "xuUpPb".toList.contains letter = true
        · have hcases : letter = 'x' ∨ letter = 'u' ∨ letter = 'U' ∨ letter = 'p' ∨ letter = 'P' ∨
              letter = 'b' := by simpa using hletter
          rcases hcases with rfl | rfl | rfl | rfl | rfl | rfl
          · exact hcode (by decide) h fun cs => rfl
          · exact hcode (by decide) h fun cs => rfl
          · cases hwide
          · exact absurd rfl (ne_property_of_not_isComplex hcomplex (.inl rfl) text)
          · exact absurd rfl (ne_property_of_not_isComplex hcomplex (.inr rfl) text)
          · obtain ⟨sign, hsign⟩ := parseBoundary_anchor h
            cases hsign
            cases hclass
        · obtain ⟨hleft, ⟨hspelling, rfl⟩ | ⟨kind, negated, rfl, rfl⟩⟩ :=
            parseEscape_single (Bool.not_eq_true _ ▸ hletter) h hclass
          · obtain rfl := hcancel hleft
            refine .escaped rfl List.not_mem_nil ?_
            rw [ofBody_escape, readEscape_classSpelling hspelling]
          · obtain rfl := hcancel hleft
            exact .short rfl
    · have hread : parseMember? false (c :: (text ++ [']'])) = some (.literal c false, text ++ [']']) := by
        rw [parseMember?]
        exact hslash
      rw [List.cons_append, hread] at h
      obtain ⟨rfl, hleft⟩ := Prod.mk.inj (Option.some.inj h)
      exact .plain (congrArg (c :: ·) (List.append_cancel_right hleft)) hslash

/-- What is left after a member is spelt out as well. -/
theorem MemberRead.rest {text left : List Char} {first : Primitive} (h : MemberRead text left first)
    (hcomplex : isComplex text = false) (hwide : writesWide text = false) :
    isComplex left = false ∧ writesWide left = false := by
  have hdrop : ∀ token : List Char, text = token ++ left → isComplex left = false := by
    rintro token rfl
    exact isComplex_append token hcomplex
  cases h with
  | @plain c htext hslash =>
    refine ⟨hdrop [c] htext, ?_⟩
    rw [htext, writesWide] at hwide
    · exact hwide
    · exact fun letter rest heq => absurd heq hslash
  | @escaped letter c byte token htext htoken hread =>
    refine ⟨hdrop ('\\' :: letter :: token) htext, ?_⟩
    rw [htext, writesWide, writesWide_append htoken] at hwide
    exact (Bool.or_eq_false_iff.mp hwide).2
  | short htext =>
    refine ⟨hdrop ['\\', _] htext, ?_⟩
    rw [htext, writesWide] at hwide
    exact (Bool.or_eq_false_iff.mp hwide).2

/-! ### Reading all members -/

open ClassItem in
/-- The members that folding reads, and the ranges that it takes them
for. -/
structure ReadAlike (first : Bool) (text : List Char) (members : List ClassMember) : Prop where
  shorts : (ofBody text).flatMap shorthandText = members.flatMap ClassMember.shortText
  spans : ranges first (ofBody text) = members.flatMap ClassMember.spans
  start_le : ∀ range ∈ members.flatMap ClassMember.spans, range.1 ≤ range.2
  ne_nil : text ≠ [] → members ≠ []

theorem ReadAlike.nil (first : Bool) : ReadAlike first [] [] where
  shorts := rfl
  spans := rfl
  start_le _ hrange := nomatch hrange
  ne_nil hne := absurd rfl hne

/-- A character that is a range of its own. -/
theorem ReadAlike.one {first : Bool} {text left : List Char} {c : Char} {read : ClassItem}
    {members : List ClassMember} (hread : ClassItem.ofBody text = read :: ClassItem.ofBody left)
    (hshort : read.shorthandText = [])
    (hranges : ranges first (read :: ClassItem.ofBody left)
      = (c.toNat, c.toNat) :: ranges false (ClassItem.ofBody left))
    (hrest : ReadAlike false left members) :
    ReadAlike first text (.listed (.one c) :: members) where
  shorts := by
    rw [hread, List.flatMap_cons, hshort, hrest.shorts]
    rfl
  spans := by
    rw [hread, hranges, hrest.spans]
    rfl
  start_le := List.forall_mem_cons.mpr ⟨Nat.le_refl _, hrest.start_le⟩
  ne_nil _ := List.cons_ne_nil _ _

/-- A hyphen that is a member stands before no other hyphen. -/
theorem MemberRead.not_doubled {text left : List Char} {piece : Primitive}
    (h : MemberRead text left piece) (hcomplex : isComplex text = false)
    (hhead : text.head? = some '-') : left.head? ≠ some '-' := by
  intro hleft
  obtain ⟨rest, rfl⟩ := List.head?_eq_some_iff.mp hleft
  cases h with
  | plain htext _ =>
    rw [htext] at hhead
    cases hhead
    exact ne_doubled_of_not_isComplex hcomplex (c := '-') rfl [] rest htext
  | escaped htext _ _ =>
    rw [htext] at hhead
    cases hhead
  | short htext =>
    rw [htext] at hhead
    cases hhead

open ClassItem in
/-- A member that makes no range with what follows. -/
theorem MemberRead.single {text left : List Char} {piece : Primitive} {item : ClassSet}
    {members : List ClassMember} (h : MemberRead text left piece) (hclass : piece.toClass? = some item)
    (hhyphen : left.head? = some '-' → left = ['-'])
    (hdoubled : text.head? = some '-' → left.head? ≠ some '-')
    (hrest : ReadAlike false left members) (first : Bool) :
    ∃ member : ClassMember, item = member.toClass ∧ ReadAlike first text (member :: members) := by
  cases h with
  | @plain c htext hslash =>
    cases hclass
    refine ⟨.listed (.one c), rfl, .one (htext ▸ ofBody_plain hslash left) ?_ ?_ hrest⟩
    · unfold ofText
      split <;> rfl
    · by_cases hdash : c = '-'
      · subst hdash
        exact ranges_dash (hdoubled (by rw [htext]; rfl)) first
      · rw [ofText_of_ne fun heq => hdash (List.cons.inj heq).1]
        exact ranges_one hhyphen first
  | escaped htext htoken hread =>
    cases hclass
    exact ⟨_, rfl, .one hread rfl (ranges_one hhyphen first) hrest⟩
  | @short kind negated htext =>
    cases hclass
    have hread : ofBody text = shorthand (shortLetter kind negated) :: ofBody left := by
      rw [htext, ofBody_escape]
      cases kind <;> cases negated <;> rfl
    refine ⟨.short kind negated, rfl, ?_, ?_, hrest.start_le, fun _ => List.cons_ne_nil _ _⟩
    · rw [hread, List.flatMap_cons, hrest.shorts]
      rfl
    · rw [hread, ranges, hrest.spans]
      rfl

open ClassItem in
/-- What is read of a character that is no hyphen as it is. -/
theorem MemberRead.read_eq {text left : List Char} {c : Char} {byte : Bool}
    (h : MemberRead text left (.literal c byte)) (hhyphen : text.head? ≠ some '-') :
    ofBody text = code c.toNat :: ofBody left := by
  cases h with
  | plain htext hslash =>
    have hne : [c] ≠ ['-'] := by
      intro heq
      rw [htext, List.head?_cons, (List.cons.inj heq).1] at hhyphen
      exact hhyphen rfl
    rw [htext, ofBody_plain hslash, ofText_of_ne hne]
  | escaped _ _ hread => exact hread

open ClassItem in
/-- Two characters with a hyphen between them. Only at the start of a
class, a hyphen that is not written as it is would make no range. -/
theorem MemberRead.range {text rest left : List Char} {lo hi : Char} {byte byte' : Bool}
    {members : List ClassMember} (hfirst : MemberRead text ('-' :: rest) (.literal lo byte))
    (hsecond : MemberRead rest left (.literal hi byte')) (hstart : text.head? ≠ some '-')
    (hhyphen : rest.head? ≠ some '-') (hle : lo ≤ hi) {first : Bool}
    (hjoins : first = true → joinsFirst text = false) (hrest : ReadAlike false left members) :
    ReadAlike first text (.listed (.range lo hi) :: members) := by
  have hread : ofBody text = code lo.toNat :: dash :: code hi.toNat :: ofBody left := by
    rw [hfirst.read_eq hstart, ofBody_plain (by decide), hsecond.read_eq hhyphen]
    rfl
  have hopen : (first && lo.toNat == 0x2D) = false := by
    cases first with
    | false => rfl
    | true =>
      have hjoins := hjoins rfl
      unfold joinsFirst at hjoins
      rw [hread] at hjoins
      exact (Bool.or_eq_false_iff.mp hjoins).1
  refine ⟨?_, ?_, List.forall_mem_cons.mpr ⟨hle, hrest.start_le⟩, fun _ => List.cons_ne_nil _ _⟩
  · rw [hread]
    exact hrest.shorts
  · rw [hread, ranges, hopen, if_neg Bool.false_ne_true, hrest.spans]
    rfl

/-- A hyphen before the closing bracket is the last member. -/
theorem eq_of_parseMembers_hyphen {steps : Nat} {pending : Option (ClassOp × ClassSet)}
    {items : List ClassSet} {rest left : List Char} {set : ClassSet}
    (h : parseMembers? false steps pending items ('-' :: ']' :: rest) = some (set, left)) :
    rest = left := by
  cases steps with
  | zero => cases h
  | succ steps =>
    have hmember : parseMember? false ('-' :: ']' :: rest)
        = some (.literal '-' false, ']' :: rest) := rfl
    rw [parseMembers_item (by decide) (by decide) (fun heq => absurd heq (by simp)),
      parseRange_single hmember (List.cons_ne_nil _ _) (fun others heq => by cases heq)] at h
    cases steps with
    | zero => cases h
    | succ steps =>
      cases h
      rfl

/-- The members up to the end of a class are read alike. -/
theorem readAlike_of_parseMembers {steps : Nat} {before : List ClassSet} {text : List Char}
    {set : ClassSet} (h : parseMembers? false steps none before (text ++ [']']) = some (set, []))
    (hcomplex : isComplex text = false) (hwide : writesWide text = false) {first : Bool}
    (hjoins : first = true → joinsFirst text = false) :
    ∃ members, ReadAlike first text members ∧
      set = .unionAll (before.reverse ++ members.map ClassMember.toClass) := by
  induction steps generalizing before text set first with
  | zero => cases h
  | succ steps ih =>
    cases parseMembers_eq_some h with
    | close hcs hset =>
      obtain rfl : text = [] := List.append_cancel_right (hcs : text ++ [']'] = [] ++ [']'])
      refine ⟨[], .nil first, hset.trans ?_⟩
      rw [List.map_nil, List.append_nil]
      rfl
    | @op c op rest hop hcs hrest =>
      obtain ⟨others, rfl⟩ := exists_of_parseMembers hrest
      exact absurd (List.append_cancel_right (hcs : text ++ [']'] = (c :: c :: others) ++ [']']))
        (ne_doubled_of_not_isComplex hcomplex hop [] others)
    | @posix item rest after hcs hposix hrest =>
      obtain ⟨others, rfl⟩ := exists_of_parseMembers hrest
      obtain ⟨d, named, rfl⟩ := takes_parsePosix _ _ _ hposix
      refine absurd (List.append_cancel_right (hcs.trans ?_ : text ++ [']']
        = ('[' :: (d :: (named ++ others))) ++ [']'])) (ne_open_of_not_isComplex hcomplex [] _)
      simp
    | @nested negated inner body rest opened after hcs _ hopen hbody hrest =>
      obtain ⟨others, rfl⟩ := exists_of_parseMembers hrest
      obtain ⟨inside, rfl⟩ := exists_of_parseMembers hbody
      obtain ⟨rest, hopened⟩ := openClass_eq_some hopen
      obtain ⟨start, rfl⟩ := hopened.exists_append
      refine absurd (List.append_cancel_right (hcs.trans ?_ : text ++ [']']
        = ('[' :: (negation negated ++ (start ++ (inside ++ ']' :: others)))) ++ [']']))
        (ne_open_of_not_isComplex hcomplex [] _)
      simp
    | @item c tail after item hcs _ _ hop hrange hrest =>
      obtain ⟨left, rfl⟩ := exists_of_parseMembers hrest
      -- What is read first joins the members that are read after it.
      have hgo : ∀ {first' : Primitive},
          parseMember? false (text ++ [']']) = some (first', left ++ [']']) →
          first'.toClass? = some item → (left.head? = some '-' → left = ['-']) →
          ∃ members, ReadAlike first text members ∧
            set = .unionAll (before.reverse ++ members.map ClassMember.toClass) := by
        intro first' hfirst hclass hhyphen
        have hread := memberRead_of_parseMember hfirst hclass hcomplex hwide
        obtain ⟨hcomplex', hwide'⟩ := hread.rest hcomplex hwide
        obtain ⟨members, halike, hset⟩ := ih hrest hcomplex' hwide'
          (fun heq => absurd heq Bool.false_ne_true)
        obtain ⟨member, rfl, halike⟩ :=
          hread.single hclass hhyphen (hread.not_doubled hcomplex) halike first
        refine ⟨member :: members, halike, ?_⟩
        rw [hset, List.reverse_cons, List.append_assoc]
        rfl
      cases hrange with
      | single hfirst hclass hne hhyphen =>
        refine hgo hfirst hclass fun hhead => ?_
        obtain ⟨rest, rfl⟩ := List.head?_eq_some_iff.mp hhead
        exact absurd rfl (hhyphen _)
      | @hyphen first' rest hfirst hclass hleft hnext =>
        rw [← hleft] at hfirst
        refine hgo hfirst hclass fun hhead => ?_
        obtain ⟨others, rfl⟩ := List.head?_eq_some_iff.mp hhead
        obtain rfl := (List.cons.inj hleft).2
        rcases hnext with hclose | hdoubled
        · -- The class ends after the hyphen.
          cases others with
          | nil => rfl
          | cons d others =>
            cases hclose
            have hend := eq_of_parseMembers_hyphen hrest
            simp at hend
        · have hread := memberRead_of_parseMember hfirst hclass hcomplex hwide
          cases others with
          | nil => cases hdoubled
          | cons d others =>
            cases hdoubled
            exact absurd rfl (ne_doubled_of_not_isComplex (hread.rest hcomplex hwide).1
              (c := '-') rfl [] others)
      | @range lo hi byte byte' rest hfirst hsecond hle hitem hclose hhyphen =>
        obtain ⟨d, token, rfl⟩ := takes_parseMember _ _ _ hsecond
        have hshape : d :: (token ++ (left ++ [']'])) = d :: (token ++ left) ++ [']'] := by simp
        rw [hshape] at hfirst hsecond
        have hread : MemberRead text ('-' :: d :: (token ++ left)) _ :=
          memberRead_of_parseMember hfirst rfl hcomplex hwide
        obtain ⟨hcomplex', hwide'⟩ := hread.rest hcomplex hwide
        have hread' := memberRead_of_parseMember hsecond rfl
          (isComplex_append (['-']) hcomplex') hwide'
        obtain ⟨hcomplex'', hwide''⟩ := hread'.rest
          (isComplex_append (['-']) hcomplex') hwide'
        obtain ⟨members, halike, hset⟩ := ih hrest hcomplex'' hwide''
          (fun heq => absurd heq Bool.false_ne_true)
        refine ⟨_, hread.range hread' (fun hhead => hread.not_doubled hcomplex hhead rfl) hhyphen hle
          hjoins halike, ?_⟩
        rw [hset, List.reverse_cons, List.append_assoc, hitem]
        rfl

/-! ### Whole classes -/

theorem splitNegation_negation {negated : Bool} {members : List Char}
    (h : negated = false → members.head? ≠ some '^') :
    splitNegation (negation negated ++ members) = (negation negated, members) := by
  cases negated with
  | true => rfl
  | false =>
    show splitNegation members = ([], members)
    unfold splitNegation
    split
    · exact absurd rfl (h rfl)
    · rfl

open ClassItem in
/-- The members of a class are read alike, and there are some. -/
theorem readAlike_of_parseClass {body : List Char} {set : ClassSet}
    (h : parseClass? false (body ++ [']']) = some (set, []))
    (hcomplex : isComplex (splitNegation body).2 = false)
    (hread : writesWide (splitNegation body).2 = false ∧ joinsFirst (splitNegation body).2 = false) :
    ∃ negated members, (splitNegation body).1 = negation negated ∧
      ReadAlike true (splitNegation body).2 members ∧ members ≠ [] ∧
      set = .bracket negated (.unionAll (members.map ClassMember.toClass)) := by
  obtain ⟨⟨negated, items, opened⟩, hopen, h⟩ := Option.bind_eq_some_iff.mp h
  obtain ⟨⟨inner, left⟩, hmembers, heq⟩ := Option.bind_eq_some_iff.mp h
  cases heq
  obtain ⟨text, rfl⟩ := exists_of_parseMembers hmembers
  obtain ⟨rest, hopened⟩ := openClass_eq_some hopen
  -- The members are what stands between the sign and the closing bracket.
  have hsplit : ∀ members : List Char, rest = members ++ [']'] →
      splitNegation body = (negation negated, members) := by
    rintro members rfl
    have hbody : body = negation negated ++ members := by
      have happend := hopened.eq_append
      rw [← List.append_assoc] at happend
      exact List.append_cancel_right happend
    rw [hbody]
    refine splitNegation_negation fun hnegated hhead => hopened.head?_ne hnegated ?_
    obtain ⟨others, rfl⟩ := List.head?_eq_some_iff.mp hhead
    rfl
  rcases hopened.cases with ⟨rfl, rfl⟩ | ⟨count, rfl, rfl, hhyphen, hclose⟩
  · rw [hsplit (']' :: text) rfl] at hcomplex hread ⊢
    obtain ⟨members, halike, hset⟩ := readAlike_of_parseMembers hmembers
      (isComplex_append ([']']) hcomplex) hread.1
      (fun heq => absurd heq Bool.false_ne_true)
    have hcode : ofBody (']' :: text) = code ']'.toNat :: ofBody text :=
      ofBody_plain (by decide) text
    have hranges : ranges true (code ']'.toNat :: ofBody text)
        = (']'.toNat, ']'.toNat) :: ranges false (ofBody text) := by
      rw [ranges]
      intro stop others heq
      have hjoins := hread.2
      unfold joinsFirst at hjoins
      rw [hcode, heq] at hjoins
      cases hjoins
    exact ⟨negated, .listed (.one ']') :: members, rfl, .one hcode rfl hranges halike,
      List.cons_ne_nil _ _, by rw [hset]; rfl⟩
  · rcases count with _ | _ | count
    · rw [hsplit _ rfl] at hcomplex hread ⊢
      obtain ⟨members, halike, hset⟩ :=
        readAlike_of_parseMembers hmembers hcomplex hread.1 fun _ => hread.2
      have hne : text ≠ [] := by
        rintro rfl
        exact hclose rfl rfl
      exact ⟨negated, members, rfl, halike, halike.ne_nil hne, congrArg (ClassSet.bracket negated) hset⟩
    · rw [hsplit ('-' :: text) rfl] at hcomplex hread ⊢
      obtain ⟨members, halike, hset⟩ := readAlike_of_parseMembers hmembers
        (isComplex_append (['-']) hcomplex) hread.1
        (fun heq => absurd heq Bool.false_ne_true)
      have hnext : text.head? ≠ some '-' := by
        intro hhead
        obtain ⟨others, rfl⟩ := List.head?_eq_some_iff.mp hhead
        exact hhyphen rfl
      exact ⟨negated, .listed (.one '-') :: members, rfl,
        .one (ofBody_plain (by decide) text) rfl (ranges_dash hnext true) halike,
        List.cons_ne_nil _ _, by rw [hset]; rfl⟩
    · rw [hsplit ('-' :: '-' :: (List.replicate count '-' ++ text))
        (by simp [List.replicate_succ])] at hcomplex
      exact absurd rfl (ne_doubled_of_not_isComplex hcomplex (c := '-') rfl [] _)

end Highlighter.Pattern
