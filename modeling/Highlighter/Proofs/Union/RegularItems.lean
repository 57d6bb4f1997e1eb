import Highlighter.Proofs.Regex.FoldedClass
import Highlighter.Proofs.Regex.Regular.Rows
import Highlighter.Proofs.Union.Recast

/-!
# Items of a pattern in the text of a member

What the regular dialect reads as one item of a pattern is written in the member as one item again,
which the item may become. Where letter case is spelt out, a letter becomes a class, and what cannot
be spelt out is put in a group.
-/

set_option autoImplicit false

namespace Highlighter.Union.Recasting

open Pattern Regex Regex.Regular

variable {recasting : Recasting} {opened : Nat} {c : Char} {rest next more : List Char}

/-! ### Characters -/

/-- A character without other cases is written as it is. -/
theorem itemReads_uncased {piece : Primitive} (hmark : isMark c = false) (hfold : foldChar c = [c])
    (hpiece : ∀ rest, parsePrimitive? false (c :: rest) = some (piece, rest)) :
    ItemReads recasting.folded (.primitive piece) (recasting.char c) more := by
  have hchar : recasting.char c = [c] := by
    rw [char, hfold, ite_self]
  rw [hchar]
  exact itemReads_primitive hmark (hpiece _)

theorem after_primitive {piece : Primitive} ⦃modes after : Modes⦄ ⦃node : Node⦄
    (h : (Ast.primitive piece).meaning? modes = some (node, after)) : after = modes := by
  obtain ⟨_, -, heq⟩ := Option.map_eq_some_iff.mp h
  exact (Prod.mk.inj heq).2.symm

theorem after_bracket {set : ClassSet} {place : Place} ⦃modes after : Modes⦄ ⦃node : Node⦄
    (h : (Ast.bracket set place).meaning? modes = some (node, after)) : after = modes := by
  obtain ⟨_, -, heq⟩ := Option.map_eq_some_iff.mp h
  exact (Prod.mk.inj heq).2.symm

/-- A letter may become the class of its variants. -/
theorem mayBecome_foldedLetter (h : c.isAlpha = true) (place : Place) :
    (Ast.primitive (.literal c false)).MayBecome true
      (.bracket (listedClass false ((foldedLetter c).map .one)) place) := by
  refine Ast.mayBecome_of_isSome (fun _ => rfl) (Ast.meaning_bracket _ place) ?_
  intro modes modes' halike _
  have hmodes : modes'.chars = ⟨modes'.ignoreCase, true⟩ :=
    congrArg (CharMode.mk _) (halike.unicode_eq.trans (halike.unicode rfl))
  rw [hmodes, meaning_foldedLetter h]
  rfl

theorem itemReads_char (hmark : isMark c = false)
    (hpiece : ∀ rest, parsePrimitive? false (c :: rest) = some (.literal c false, rest)) :
    ItemReads recasting.folded (.primitive (.literal c false)) (recasting.char c) more := by
  by_cases hfold : foldChar c = [c]
  · exact itemReads_uncased hmark hfold hpiece
  · cases hfolded : recasting.folded with
    | false =>
      rw [char, hfolded, if_neg Bool.false_ne_true]
      exact itemReads_primitive hmark (hpiece _)
    | true =>
      rw [char, hfolded, if_pos rfl]
      by_cases halpha : c.isAlpha = true
      · rw [foldChar_letter halpha]
        refine itemReads_bracket (mayBecome_foldedLetter halpha) ?_
        rw [List.append_assoc]
        exact parseClass_cased (isCased_of_mem_foldedLetter halpha) (List.cons_ne_nil _ _) _ _
      · rw [foldChar, if_neg halpha] at hfold ⊢
        split
        · exact (itemReads_primitive hmark (hpiece _)).ignoring after_primitive
        · rename_i hcased
          rw [if_neg hcased] at hfold
          exact absurd rfl hfold

/-! ### Escapes -/

/-- An escape other than a word boundary. -/
theorem text_escape_apart {letter : Char} {piece : Primitive}
    (h : parseEscape? false (letter :: rest) = some (piece, next))
    (hboundary : letter ≠ 'b' ∧ letter ≠ 'B') :
    numbersIn ('\\' :: letter :: rest) = numbersIn next ∧
    ∃ d written, recasting.text opened ('\\' :: letter :: rest)
        = d :: (written ++ recasting.text opened next) ∧ isCountStart d = false ∧
      ∀ more, ItemReads recasting.folded (.primitive piece) (d :: written) more := by
  obtain ⟨token, heq, hread⟩ := apart_parseEscape hboundary.1 h
  have hdrop := drop_escapeExtent_of_parseEscape h hboundary
  refine ⟨by rw [numbersIn_escape (isDigit_of_parseEscape h), hdrop], ?_⟩
  obtain rfl : token = letter :: rest.take (Part.escapeExtent letter rest) := by
    refine List.append_cancel_right (heq.symm.trans ?_)
    rw [List.cons_append, ← hdrop, List.take_append_drop]
  have hitem : ∀ more, ItemReads recasting.folded (.primitive piece)
      ('\\' :: letter :: rest.take (Part.escapeExtent letter rest)) more := fun more =>
    itemReads_primitive rfl (hread more)
  rw [text_escape (isDigit_of_parseEscape h), hdrop]
  generalize rest.take (Part.escapeExtent letter rest) = token at hitem
  cases hfolded : recasting.folded with
  | false =>
    rw [hfolded] at hitem
    exact ⟨_, _, rfl, rfl, hitem⟩
  | true =>
    rw [hfolded] at hitem
    have hpart : partText true (.escape ('\\' :: letter :: token))
        = if isCasedEscape letter then ignoringCase ('\\' :: letter :: token)
          else '\\' :: letter :: token := rfl
    rw [hpart]
    split
    · exact ⟨_, _, rfl, rfl, fun more => (hitem _).ignoring after_primitive⟩
    · exact ⟨_, _, rfl, rfl, hitem⟩

theorem foldChar_of_isBoundsChar (h : isBoundsChar c = true) : foldChar c = [c] := by
  have halpha : c.isAlpha = false := by
    have hall : ∀ index < 26, [Char.ofNat (0x41 + index), Char.ofNat (0x61 + index)].all
        (fun c => !isBoundsChar c) = true := by decide +kernel
    refine Bool.eq_false_iff.mpr fun halpha => ?_
    obtain ⟨index, hindex, hc⟩ := exists_index_of_isAlpha halpha
    have hnot := List.all_eq_true.mp (hall index hindex) c (by simpa using hc)
    rw [h] at hnot
    cases hnot
  rw [foldChar, if_neg (by rw [halpha]; exact Bool.false_ne_true), if_neg]
  intro hcased
  obtain ⟨hwide, hcased⟩ := Bool.and_eq_true_iff.mp hcased
  have hwide := of_decide_eq_true hwide
  rcases Bool.or_eq_true_iff.mp h with h | hcomma
  · rcases Bool.or_eq_true_iff.mp h with hdigit | hblank
    · have hle : c.toNat ≤ 0x39 := by
        simpa [Char.isDigit, UInt32.le_iff_toNat_le] using (Bool.and_eq_true_iff.mp hdigit).2
      omega
    · rw [isBlank_of_isCased hcased] at hblank
      cases hblank
  · rw [beq_iff_eq.mp hcomma] at hwide
    exact absurd hwide (by decide)

theorem plain_of_count (h : isCountStart c = true ∨ c = '}' ∨ isBoundsChar c = true) :
    Part.isPlain c = true ∧ foldChar c = [c] := by
  rcases h with hstart | rfl | hbounds
  · have hcases : c = '?' ∨ c = '*' ∨ c = '+' ∨ c = '{' := by
      simpa [isCountStart, or_assoc] using hstart
    rcases hcases with rfl | rfl | rfl | rfl <;> exact ⟨rfl, rfl⟩
  · exact ⟨rfl, rfl⟩
  · exact ⟨(isPlain_of_isBoundsChar hbounds).1, foldChar_of_isBoundsChar hbounds⟩

/-- The marks of a repetition stay as they are. -/
theorem text_count {text : List Char}
    (h : ∀ c ∈ text, isCountStart c = true ∨ c = '}' ∨ isBoundsChar c = true) (rest : List Char) :
    recasting.text opened (text ++ rest) = text ++ recasting.text opened rest :=
  text_plains (fun c hc => plain_of_count (h c hc)) rest

theorem numbersIn_count {text : List Char}
    (h : ∀ c ∈ text, isCountStart c = true ∨ c = '}' ∨ isBoundsChar c = true) (rest : List Char) :
    numbersIn (text ++ rest) = numbersIn rest :=
  numbersIn_plains (fun c hc => (plain_of_count (h c hc)).1) rest

/-- What a word boundary is followed by where bounds may come next. -/
def BoundsNext (rest : List Char) : Prop :=
  ∀ after, rest = '{' :: after →
    ∃ inner left, after = inner ++ '}' :: left ∧ ∀ c ∈ inner, isBoundsChar c = true

/-- A word boundary stays as it is, and so do bounds after it, which the splitter takes along. -/
theorem text_boundary {letter : Char} (hletter : letter = 'b' ∨ letter = 'B')
    (hnext : BoundsNext rest) :
    numbersIn ('\\' :: letter :: rest) = numbersIn rest ∧
    recasting.text opened ('\\' :: letter :: rest)
      = '\\' :: letter :: recasting.text opened rest := by
  have hdigit : letter.isDigit = false := by rcases hletter with rfl | rfl <;> rfl
  have hcased : isCasedEscape letter = false := by rcases hletter with rfl | rfl <;> rfl
  have hpart : ∀ text, partText recasting.folded (.escape ('\\' :: letter :: text))
      = '\\' :: letter :: text := by
    intro text
    cases recasting.folded with
    | false => rfl
    | true => exact Expr.foldEscape_of_not_isCasedEscape hcased text
  rw [numbersIn_escape hdigit, text_escape hdigit, hpart]
  by_cases hhead : rest.head? = some '{'
  · obtain ⟨after, rfl⟩ := List.head?_eq_some_iff.mp hhead
    obtain ⟨inner, left, rfl, hinner⟩ := hnext after rfl
    have hmem : '}' ∉ inner := fun hmem => (isPlain_of_isBoundsChar (hinner '}' hmem)).2 rfl
    have hextent : Part.escapeExtent letter ('{' :: (inner ++ '}' :: left)) = inner.length + 2 := by
      rw [← closingExtent_braces hmem left]
      rcases hletter with rfl | rfl <;> rfl
    have hshape : '{' :: (inner ++ '}' :: left) = ('{' :: (inner ++ ['}'])) ++ left := by simp
    have hmarks : ∀ c ∈ '{' :: (inner ++ ['}']),
        isCountStart c = true ∨ c = '}' ∨ isBoundsChar c = true :=
      List.forall_mem_cons.mpr ⟨.inl rfl, List.forall_mem_append.mpr
        ⟨fun c hc => .inr (.inr (hinner c hc)), List.forall_mem_singleton.mpr (.inr (.inl rfl))⟩⟩
    have hlength : inner.length + 2 = ('{' :: (inner ++ ['}'])).length := by simp
    rw [hextent, hshape, text_count hmarks, numbersIn_count hmarks, hlength, List.take_left,
      List.drop_left]
    exact ⟨rfl, rfl⟩
  · have hextent : Part.escapeExtent letter rest = 0 := by
      rcases hletter with rfl | rfl <;> simp [Part.escapeExtent, hhead]
    rw [hextent, List.take_zero, List.drop_zero]
    exact ⟨rfl, rfl⟩

/-- Any escape, given that bounds come next where braces do. -/
theorem text_escape_reads {letter : Char} {piece : Primitive}
    (h : parseEscape? false (letter :: rest) = some (piece, next)) (hnext : BoundsNext next) :
    numbersIn ('\\' :: letter :: rest) = numbersIn next ∧
    ∃ d written, recasting.text opened ('\\' :: letter :: rest)
        = d :: (written ++ recasting.text opened next) ∧ isCountStart d = false ∧
      ∀ more, BracesAlike next more →
        ItemReads recasting.folded (.primitive piece) (d :: written) more := by
  by_cases hb : letter = 'b'
  · subst hb
    obtain ⟨token, rfl, hread⟩ := apart_parseBoundary h
    have hitem : ∀ more, BracesAlike next more → ItemReads recasting.folded (.primitive piece)
        ('\\' :: 'b' :: token) more := fun more halike =>
      itemReads_primitive rfl (hread more halike)
    refine (?_ : _ ∧ _ = '\\' :: ('b' :: token ++ recasting.text opened next)).imp_right
      fun htext => ⟨'\\', 'b' :: token, htext, rfl, hitem⟩
    rcases parseBoundary_eq_some h with hsame | ⟨name, heq, hname⟩
    · obtain rfl := List.append_cancel_right (hsame.trans (List.nil_append next).symm)
      exact text_boundary (.inl rfl) hnext
    · obtain rfl : token = '{' :: (name ++ ['}']) := by
        refine List.append_cancel_right (heq.trans ?_)
        simp
      have hshape : '{' :: (name ++ ['}']) ++ next = '{' :: (name ++ '}' :: next) := by simp
      have hmem : '}' ∉ name := fun hmem => absurd (hname '}' hmem) (by decide)
      have hextent : Part.escapeExtent 'b' ('{' :: (name ++ '}' :: next)) = name.length + 2 :=
        closingExtent_braces hmem next
      have hdrop := drop_escapeExtent_of_name hname next
      have htake : ('{' :: (name ++ '}' :: next)).take (name.length + 2) = '{' :: (name ++ ['}']) := by
        rw [← hshape]
        exact List.take_left' (by simp)
      rw [hshape, numbersIn_escape rfl, text_escape rfl, hdrop, hextent, htake]
      refine ⟨rfl, ?_⟩
      cases recasting.folded <;> rfl
  by_cases hword : letter = 'B'
  · subst hword
    cases h
    exact (text_boundary (.inr rfl) hnext).imp_right fun htext =>
      ⟨'\\', ['B'], htext, rfl, fun more _ => itemReads_primitive rfl rfl⟩
  · obtain ⟨hnumbers, d, written, htext, hstart, hread⟩ := text_escape_apart h ⟨hb, hword⟩
    exact ⟨hnumbers, d, written, htext, hstart, fun more _ => hread more⟩

/-! ### Classes -/

/-- A class that is spelt out is allowed where the class is. -/
theorem mayBecome_folded {set foldedSet : ClassSet} {held : CharSet}
    (h : foldedSet.meaning? ⟨false, true⟩ = some held) (place place' : Place) :
    (Ast.bracket set place).MayBecome true (.bracket foldedSet place') := by
  refine Ast.mayBecome_of_isSome (Ast.meaning_bracket _ place) (Ast.meaning_bracket _ place') ?_
  intro modes modes' halike _
  have hmodes : modes'.chars = ⟨modes'.ignoreCase, true⟩ :=
    congrArg (CharMode.mk _) (halike.unicode_eq.trans (halike.unicode rfl))
  rw [hmodes, Option.isSome_map, ClassSet.isSome_meaning false, h]
  rfl

/-- A class, given that the splitter finds its end. -/
theorem text_class (recasting : Recasting) (opened : Nat) {set : ClassSet} (h : parseClass? false rest = some (set, next))
    (hdrop : rest.drop (Part.classExtent rest) = next)
    (hread : ∀ body, rest = body ++ ']' :: next → recasting.folded = true →
      isMisread body = false) (place : Place) :
    numbersIn ('[' :: rest) = numbersIn next ∧
    ∃ d written, recasting.text opened ('[' :: rest)
        = d :: (written ++ recasting.text opened next) ∧ isCountStart d = false ∧
      ∀ more, ItemReads recasting.folded (.bracket set place) (d :: written) more := by
  refine ⟨by rw [numbersIn_bracket, hdrop], ?_⟩
  obtain ⟨body, hrest, hapart⟩ := apart_parseClass h
  have htake : rest.take (Part.classExtent rest) = body ++ [']'] := by
    have happend := List.take_append_drop (Part.classExtent rest) rest
    rw [hdrop] at happend
    exact List.append_cancel_right (happend.trans (hrest.trans (by simp)))
  have hitem : ∀ more, ItemReads recasting.folded (.bracket set place) ('[' :: (body ++ [']']))
      more := fun more => by
    refine itemReads_bracket (Ast.mayBecome_bracket set place) ?_
    rw [List.append_assoc]
    exact hapart more
  rw [text_bracket, hdrop, htake]
  cases hfolded : recasting.folded with
  | false =>
    rw [hfolded] at hitem
    exact ⟨_, _, rfl, rfl, hitem⟩
  | true =>
    rw [hfolded] at hitem
    have hpart : partText true (.bracket ('[' :: (body ++ [']'])))
        = foldClass ('[' :: (body ++ [']'])) := rfl
    rw [hpart, foldClass_brackets]
    cases hbody : foldedBody? body with
    | none => exact ⟨_, _, rfl, rfl, fun more => (hitem _).ignoring after_bracket⟩
    | some folded =>
      obtain ⟨foldedSet, held, hclass, -, -, hheld⟩ :=
        meaning_foldedBody (hapart []) (hread body hrest hfolded) hbody
      obtain ⟨other, heq, hother⟩ := apart_parseClass hclass
      obtain rfl : folded = other := List.append_cancel_right heq
      refine ⟨'[', folded ++ [']'], by simp, rfl, fun more => ?_⟩
      refine itemReads_bracket (mayBecome_folded hheld place) ?_
      rw [List.append_assoc]
      exact hother more

/-! ### Any single piece -/

theorem char_eq_cons (recasting : Recasting) (c : Char) :
    ∃ d written, recasting.char c = d :: written ∧ (d = c ∨ d = '[' ∨ d = '(') := by
  unfold char
  split
  · unfold foldChar
    split
    · exact ⟨_, _, rfl, .inr (.inl rfl)⟩
    · split
      · exact ⟨_, _, rfl, .inr (.inr rfl)⟩
      · exact ⟨_, _, rfl, .inl rfl⟩
  · exact ⟨_, _, rfl, .inl rfl⟩

/-- What is neither a group nor a class nor a caret, given that bounds come next where braces do. -/
theorem text_piece (recasting : Recasting) (opened : Nat) {piece : Primitive} (hmark : isMark c = false) (hcaret : c ≠ '^')
    (h : parsePrimitive? false (c :: rest) = some (piece, next)) (hnext : BoundsNext next) :
    numbersIn (c :: rest) = numbersIn next ∧
    ∃ d written, recasting.text opened (c :: rest)
        = d :: (written ++ recasting.text opened next) ∧ isCountStart d = false ∧
      ∀ more, BracesAlike next more →
        ItemReads recasting.folded (.primitive piece) (d :: written) more := by
  have hplain : Part.isPlain c = true → next = rest →
      (∀ more, ItemReads recasting.folded (.primitive piece) (recasting.char c) more) →
      numbersIn (c :: rest) = numbersIn next ∧
      ∃ d written, recasting.text opened (c :: rest)
          = d :: (written ++ recasting.text opened next) ∧ isCountStart d = false ∧
        ∀ more, BracesAlike next more →
          ItemReads recasting.folded (.primitive piece) (d :: written) more := by
    rintro hplain rfl hreads
    obtain ⟨d, written, hchar, hd⟩ := recasting.char_eq_cons c
    rw [numbersIn_plain hplain, text_plain hplain, hchar]
    refine ⟨rfl, d, written, rfl, ?_, fun more _ => hchar ▸ hreads more⟩
    rcases hd with rfl | rfl | rfl
    · exact isCountStart_of_not_isMark hmark
    · rfl
    · rfl
  unfold parsePrimitive? at h
  split at h
  · cases h
  · rename_i others heq
    cases heq
    cases rest with
    | nil => cases h
    | cons letter rest => exact text_escape_reads h hnext
  · rename_i heq
    cases heq
    cases h
    exact hplain rfl rfl fun more => itemReads_uncased rfl rfl fun _ => rfl
  · rename_i heq
    cases heq
    exact absurd rfl hcaret
  · rename_i heq
    cases heq
    cases h
    exact hplain rfl rfl fun more => itemReads_uncased rfl rfl fun _ => rfl
  · rename_i hslash hdot hcaret' hdollar heq
    cases heq
    cases h
    have hslash : c ≠ '\\' := hslash
    have hdot : c ≠ '.' := hdot
    have hdollar : c ≠ '$' := hdollar
    have hne : ∀ d, isMark d = true → c ≠ d := by
      rintro d hd rfl
      exact absurd (hmark.symm.trans hd) Bool.false_ne_true
    refine hplain ?_ rfl fun more => itemReads_char hmark fun rest => ?_
    · simp [Part.isPlain, hslash, hcaret, hne '[' rfl, hne '(' rfl, hne ')' rfl]
    · unfold parsePrimitive?
      split <;> simp_all

/-! ### What opens a group -/

/-- Flags for what follows stay as they are. -/
theorem text_flags (recasting : Recasting) (opened : Nat) {reading inside : Reading}
    {change : FlagChange} (hverbose : reading.verbose = false)
    (h : parseOpening? reading rest = some (.flags change, inside, next)) :
    inside = reading ∧ numbersIn ('(' :: rest) = numbersIn next ∧
      ∃ letters, rest = '?' :: (letters ++ ')' :: next) ∧
      recasting.text opened ('(' :: rest)
        = '(' :: '?' :: (letters ++ ')' :: recasting.text opened next) ∧
      ∀ (reading' : Reading) (more : List Char), reading'.verbose = false →
        parseOpening? reading' ('?' :: (letters ++ ')' :: more))
          = some (.flags change, reading', more) := by
  rcases letters_of_parseOpening hverbose h with ⟨_, _, hopening⟩ |
    ⟨letters, mark, change', rfl, hmark, hletters, hinside, hopening, hread⟩
  · cases hopening
  · rcases hmark with rfl | rfl
    · cases hopening
    · have hshape : '?' :: (letters ++ ')' :: next) = ('?' :: (letters ++ [')'])) ++ next := by simp
      have hpart : Part.readOpening (('?' :: (letters ++ [')'])) ++ next)
          = (.flags letters, ('?' :: (letters ++ [')'])).length) := by
        rw [← hshape, readOpening_flags (.inr rfl) hletters]
        simp
      refine ⟨hinside, by rw [hshape, numbersIn_opening hpart nofun], letters, rfl, ?_, hread⟩
      rw [hshape, text_opening hpart rfl (by rintro ⟨⟩)]
      have hrender : recasting.part opened (.flags letters) = '(' :: '?' :: (letters ++ [')']) := by
        show partText recasting.folded (.flags letters) = _
        cases recasting.folded <;> rfl
      rw [hrender]
      simp [captures]

/-- A group keeps its flags and is not captured any more. -/
theorem text_group (recasting : Recasting) {reading inside : Reading} {kind : GroupKind} (hkept : recasting.kept = [])
    (hverbose : reading.verbose = false)
    (h : parseOpening? reading rest = some (.group kind, inside, next)) :
    inside.length = reading.length ∧ inside.verbose = false ∧ next.length ≤ rest.length ∧
      next <:+ rest ∧ numbersIn ('(' :: rest) = numbersIn next ∧ ∃ letters, recasting.text reading.groups ('(' :: rest)
        = '(' :: '?' :: (letters ++ ':' :: recasting.text inside.groups next) ∧
      ∀ (reading' : Reading) (more : List Char), reading'.verbose = false →
        parseOpening? reading' ('?' :: (letters ++ ':' :: more))
          = some (.group (.flagged kind.change), reading', more) := by
  have hfound := openingRead_of_parseOpening hverbose h
  cases hfound with
  | @group text _ opening hcs hread hopens hlength hinside hgroups =>
    subst hcs
    refine ⟨hlength, hinside.trans hverbose, by simp, List.suffix_append _ _,
      numbersIn_opening hread nofun, ?_⟩
    rw [text_opening hread rfl (by rintro ⟨⟩)]
    cases hopens with
    | capturing index name hcapture =>
      refine ⟨[], ?_, fun reading' more hverbose' => (parseOpening_flags hverbose' more).1⟩
      have hrender : recasting.part reading.groups (.opening opening) = ['(', '?', ':'] := by
        show partText recasting.folded (renumberedPart _ _ _ (.opening opening)) = _
        rw [renumberedPart, if_pos hcapture, hkept]
        cases recasting.folded <;> rfl
      have hcount : captures (.opening opening) = true := hcapture
      rw [hrender, hcount, if_pos rfl, hgroups]
      rfl
    | flagged letters =>
      rcases letters_of_parseOpening hverbose h with ⟨_, _, hopening⟩ |
        ⟨letters', mark, change, hrest, hmark, hletters, -, hopening, hapart⟩
      · cases hopening
      · rcases hmark with rfl | rfl
        · have hletters' := readOpening_flags (.inl rfl) hletters next
          rw [← hrest, hread, if_pos rfl] at hletters'
          obtain rfl : letters = letters' := by
            simpa using (Prod.mk.inj hletters').1
          refine ⟨letters, ?_, hapart⟩
          have hrender : recasting.part reading.groups (.opening (.flagged letters))
              = '(' :: '?' :: (letters ++ [':']) := by
            show partText recasting.folded (.opening (.flagged letters)) = _
            cases recasting.folded <;> rfl
          have hcount : captures (.opening (.flagged letters)) = false := rfl
          rw [hrender, hcount, hgroups]
          simp [GroupKind.captures]
        · cases hopening

end Highlighter.Union.Recasting
