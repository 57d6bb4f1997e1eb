import Highlighter.Proofs.Regex.Extended.OneChar
import Highlighter.Proofs.Unicode.Words

/-!
# Texts with later references

When a pattern joins a union, its references get later numbers, and more text follows its closing
parenthesis. `Renumbered` relates the two texts, from any place on at which no escape is under way.

The readers of filler, numbers, names and codes go through both texts side by side: they answer the
same, and what they leave is related again. Only where the first text ends early, in a comment that
its closing parenthesis ends, nothing is said of the second one (`GoesOn`).
-/

set_option autoImplicit false

namespace Highlighter.Regex.Extended

open Pattern

/-- Whether an opening parenthesis before the text opens neither a condition nor a reference by
name. -/
def opensPlainly (cs : List Char) : Bool :=
  [false, true].all fun verbose =>
    match skipFiller? verbose .none cs with
    | some ('?' :: '(' :: _) => false
    | some ('?' :: 'P' :: '=' :: _) => false
    | _ => true

/-- Whether a backslash before the character refers to no group, and no backslash stands in the name
of a property. -/
def escapesPlainly (c : Char) (cs : List Char) : Bool :=
  !c.isDigit && !(c == 'k' && (cs.head? == some '<' || cs.head? == some '\'')) &&
    !((c == 'p' || c == 'P') && (parsePropertyText? cs).any fun found => found.1.contains '\\')

/-- A text up to its closing parenthesis, and the same text with all references numbered `base`
later and `more` after it. -/
inductive Renumbered (base : Nat) (more : List Char) : List Char → List Char → Prop where
  | close : Renumbered base more [')'] (')' :: more)
  | char {c : Char} {cs ds : List Char} (hslash : c ≠ '\\')
    (hopen : c = '(' → opensPlainly cs = true) (hrest : Renumbered base more cs ds) :
    Renumbered base more (c :: cs) (c :: ds)
  | escape {c : Char} {cs ds : List Char} (hescape : escapesPlainly c cs = true)
    (hrest : Renumbered base more cs ds) :
    Renumbered base more ('\\' :: c :: cs) ('\\' :: c :: ds)
  | number {number : Nat} {cs ds : List Char} (hpos : 1 ≤ number)
    (hend : ∀ c ∈ cs.head?, c.isDigit = false) (hrest : Renumbered base more cs ds) :
    Renumbered base more ('\\' :: (Nat.toDigits 10 number ++ cs))
      ('\\' :: (Nat.toDigits 10 (base + number) ++ ds))

/-- Both texts go on alike, unless the first one is at its end. -/
def GoesOn (base : Nat) (more cs ds : List Char) : Prop := cs = [] ∨ Renumbered base more cs ds

variable {base : Nat} {more cs ds left : List Char} {c : Char}

namespace Renumbered

theorem ne_nil (h : Renumbered base more cs ds) : cs ≠ [] := by
  cases h <;> exact List.cons_ne_nil _ _

theorem head?_eq (h : Renumbered base more cs ds) : ds.head? = cs.head? := by
  cases h <;> rfl

/-- Whatever is no backslash stands in both texts. -/
theorem uncons (h : Renumbered base more (c :: cs) ds) (hslash : c ≠ '\\') :
    ∃ others, ds = c :: others ∧ GoesOn base more cs others := by
  cases h with
  | close => exact ⟨more, rfl, .inl rfl⟩
  | char _ _ hrest => exact ⟨_, rfl, .inr hrest⟩
  | escape => exact absurd rfl hslash
  | number => exact absurd rfl hslash

theorem opens (h : Renumbered base more ('(' :: cs) ds) : opensPlainly cs = true := by
  cases h with
  | char _ hopen _ => exact hopen rfl

/-- Before a backslash, the texts go on with an escape or with a number. -/
theorem uncons_slash (h : Renumbered base more ('\\' :: cs) ds) :
    (∃ c cs' ds', cs = c :: cs' ∧ ds = '\\' :: c :: ds' ∧ escapesPlainly c cs' = true ∧
      Renumbered base more cs' ds') ∨
    ∃ number cs' ds', cs = Nat.toDigits 10 number ++ cs' ∧
      ds = '\\' :: (Nat.toDigits 10 (base + number) ++ ds') ∧ 1 ≤ number ∧
      (∀ c ∈ cs'.head?, c.isDigit = false) ∧ Renumbered base more cs' ds' := by
  generalize hcs : '\\' :: cs = whole at h
  cases h with
  | close => cases hcs
  | char hslash => exact absurd (List.cons.inj hcs).1.symm hslash
  | escape hescape hrest =>
    cases hcs
    exact .inl ⟨_, _, _, rfl, rfl, hescape, hrest⟩
  | number hpos hend hrest =>
    cases hcs
    exact .inr ⟨_, _, _, rfl, rfl, hpos, hend, hrest⟩

theorem uncons_inside (h : Renumbered base more (c :: cs) ds) (hslash : c ≠ '\\')
    (hclose : c ≠ ')') : ∃ others, ds = c :: others ∧ Renumbered base more cs others := by
  cases h with
  | close => exact absurd rfl hclose
  | char _ _ hrest => exact ⟨_, rfl, hrest⟩
  | escape => exact absurd rfl hslash
  | number => exact absurd rfl hslash

theorem uncons_right (h : Renumbered base more cs (c :: ds)) (hslash : c ≠ '\\')
    (hclose : c ≠ ')') : ∃ others, cs = c :: others ∧ Renumbered base more others ds := by
  cases h with
  | close => exact absurd rfl hclose
  | char _ _ hrest => exact ⟨_, rfl, hrest⟩
  | escape => exact absurd rfl hslash
  | number => exact absurd rfl hslash

/-- Characters that neither escape nor close anything stand in both texts. -/
theorem take (word : List Char) (hword : ∀ c ∈ word, c ≠ '\\' ∧ c ≠ ')')
    (h : Renumbered base more (word ++ cs) ds) :
    ∃ others, ds = word ++ others ∧ Renumbered base more cs others := by
  induction word generalizing ds with
  | nil => exact ⟨ds, rfl, h⟩
  | cons c word ih =>
    obtain ⟨hc, hword⟩ := List.forall_mem_cons.mp hword
    obtain ⟨between, rfl, hbetween⟩ := h.uncons_inside hc.1 hc.2
    obtain ⟨others, rfl, hrest⟩ := ih hword hbetween
    exact ⟨others, rfl, hrest⟩

theorem take_right {word others : List Char} (hword : ∀ c ∈ word, c ≠ '\\' ∧ c ≠ ')')
    (h : Renumbered base more cs (word ++ others)) :
    ∃ rest, cs = word ++ rest ∧ Renumbered base more rest others := by
  induction word generalizing cs with
  | nil => exact ⟨cs, rfl, h⟩
  | cons c word ih =>
    obtain ⟨hc, hword⟩ := List.forall_mem_cons.mp hword
    obtain ⟨between, rfl, hbetween⟩ := h.uncons_right hc.1 hc.2
    obtain ⟨rest, rfl, hrest⟩ := ih hword hbetween
    exact ⟨rest, rfl, hrest⟩

/-- What does not come next in the first text does not come next in the second one. -/
theorem not_starts (h : Renumbered base more cs ds) (word : List Char)
    (hword : ∀ c ∈ word, c ≠ '\\' ∧ c ≠ ')') (hne : ∀ rest, cs = word ++ rest → False) :
    ∀ others, ds = word ++ others → False := by
  rintro others rfl
  obtain ⟨rest, rfl, -⟩ := h.take_right hword
  exact hne rest rfl

theorem isPrefixOf_eq {word : List Char} (h : Renumbered base more cs ds)
    (hword : ∀ c ∈ word, c ≠ '\\' ∧ c ≠ ')') : word.isPrefixOf ds = word.isPrefixOf cs := by
  rw [Bool.eq_iff_iff, List.isPrefixOf_iff_prefix, List.isPrefixOf_iff_prefix]
  constructor
  · rintro ⟨others, rfl⟩
    obtain ⟨rest, rfl, -⟩ := h.take_right hword
    exact List.prefix_append word rest
  · rintro ⟨rest, rfl⟩
    obtain ⟨others, rfl, -⟩ := h.take word hword
    exact List.prefix_append word others

end Renumbered

/-! ### Filler -/

theorem skipFiller_group {verbose : Bool} (hclose : c ≠ ')') (hslash : c ≠ '\\') :
    skipFiller? verbose .group (c :: cs) = skipFiller? verbose .group cs := by
  cases cs <;> simp [skipFiller?, hslash]

theorem skipFiller_line {verbose : Bool} (hend : c ≠ '\n') :
    skipFiller? verbose .line (c :: cs) = skipFiller? verbose .line cs := by
  simp [skipFiller?]

/-- How a comment in parentheses starts. -/
def commentMark : List Char := ['(', '?', '#']

/-- Whether a character means nothing in verbose patterns, or starts what means nothing. -/
def isFillerStart (c : Char) : Bool := c == '#' || c == ' ' || c == '\t' || c == '\n' || c == '\r'

/-- Whether something that means nothing comes next. -/
def startsFiller (verbose : Bool) (cs : List Char) : Bool :=
  commentMark.isPrefixOf cs || (verbose && cs.head?.any isFillerStart)

theorem startsFiller_cons {rest : List Char} (h : ∀ others, c :: rest ≠ commentMark ++ others)
    (verbose : Bool) : startsFiller verbose (c :: rest) = (verbose && isFillerStart c) := by
  have hcomment : commentMark.isPrefixOf (c :: rest) = false :=
    Bool.eq_false_iff.mpr fun hprefix => by
    obtain ⟨others, hothers⟩ := List.isPrefixOf_iff_prefix.mp hprefix
    exact h others hothers.symm
  rw [startsFiller, hcomment]
  rfl

theorem skipFiller_of_not_starts {verbose : Bool} (h : startsFiller verbose cs = false) :
    skipFiller? verbose .none cs = some cs := by
  obtain ⟨hcomment, hblank⟩ := Bool.or_eq_false_iff.mp h
  cases cs with
  | nil => rfl
  | cons c rest =>
    rw [skipFiller?]
    · cases verbose with
      | false => rfl
      | true =>
        have hne : c ≠ '#' ∧ c ≠ ' ' ∧ c ≠ '\t' ∧ c ≠ '\n' ∧ c ≠ '\r' := by
          simpa [isFillerStart, not_or, and_assoc] using hblank
        simp [hne]
    · rintro others rfl rfl
      exact absurd hcomment (by simp [commentMark])

/-- Inside a comment, the rest of its mark is passed over. -/
theorem skipFiller_comment (verbose : Bool) (cs : List Char) :
    skipFiller? verbose .none (commentMark ++ cs)
      = skipFiller? verbose .group ('?' :: '#' :: cs) := rfl

theorem skipFiller_blank (h : isFillerStart c = true) (cs : List Char) :
    skipFiller? true .none (c :: cs) = skipFiller? true (if c == '#' then .line else .none) cs := by
  have hcases : c = '#' ∨ c = ' ' ∨ c = '\t' ∨ c = '\n' ∨ c = '\r' := by
    simpa [isFillerStart, or_assoc] using h
  rcases hcases with rfl | rfl | rfl | rfl | rfl <;> rfl

/-- Digits mean nothing in comments. -/
theorem skipFiller_digits {verbose : Bool} {filler : Filler} (hfiller : filler ≠ .none)
    {digits : List Char} (hdigits : ∀ c ∈ digits, c.isDigit = true) :
    skipFiller? verbose filler (digits ++ cs) = skipFiller? verbose filler cs := by
  induction digits with
  | nil => rfl
  | cons d digits ih =>
    obtain ⟨hd, hdigits⟩ := List.forall_mem_cons.mp hdigits
    have hne : ∀ c : Char, c.isDigit = false → d ≠ c := by
      rintro c hc rfl
      rw [hd] at hc
      cases hc
    rw [List.cons_append]
    cases filler with
    | none => exact absurd rfl hfiller
    | group => rw [skipFiller_group (hne _ (by decide)) (hne _ (by decide)), ih hdigits]
    | line => rw [skipFiller_line (hne _ (by decide)), ih hdigits]

theorem startsFiller_eq (h : Renumbered base more cs ds) (verbose : Bool) :
    startsFiller verbose ds = startsFiller verbose cs := by
  have hmark : ∀ c ∈ commentMark, c ≠ '\\' ∧ c ≠ ')' := by simp [commentMark]
  rw [startsFiller, startsFiller, h.head?_eq, h.isPrefixOf_eq hmark]

/-- Both texts are skipped to the same place. -/
theorem Renumbered.skipFiller (h : Renumbered base more cs ds) {verbose : Bool} {filler : Filler}
    (hskip : skipFiller? verbose filler cs = some left) :
    left = [] ∨ ∃ left', skipFiller? verbose filler ds = some left' ∧
      Renumbered base more left left' := by
  induction h generalizing filler with
  | close =>
    cases filler with
    | none =>
      cases verbose <;> cases hskip <;> exact .inr ⟨_, rfl, .close⟩
    | group =>
      cases hskip
      exact .inl rfl
    | line =>
      cases hskip
      exact .inl rfl
  | @char c cs ds hslash hopen hrest ih =>
    have hclose : c = ')' → ∀ verbose rest,
        skipFiller? verbose .group (c :: rest) = skipFiller? verbose .none rest := by
      rintro rfl verbose rest
      rfl
    cases filler with
    | group =>
      by_cases hparen : c = ')'
      · rw [hclose hparen] at hskip ⊢
        exact ih hskip
      · rw [skipFiller_group hparen hslash] at hskip ⊢
        exact ih hskip
    | line =>
      by_cases hend : c = '\n'
      · subst hend
        exact @ih .none hskip
      · rw [skipFiller_line hend] at hskip ⊢
        exact ih hskip
    | none =>
      have hstarts := startsFiller_eq (.char hslash hopen hrest) verbose
      cases hfiller : startsFiller verbose (c :: cs) with
      | false =>
        rw [hfiller] at hstarts
        rw [skipFiller_of_not_starts hfiller] at hskip
        cases hskip
        exact .inr ⟨_, skipFiller_of_not_starts hstarts, .char hslash hopen hrest⟩
      | true =>
        rcases Bool.or_eq_true_iff.mp hfiller with hcomment | hblank
        · obtain ⟨rest, heq⟩ := List.isPrefixOf_iff_prefix.mp hcomment
          obtain ⟨rfl, rfl⟩ := List.cons.inj heq
          obtain ⟨others, rfl, -⟩ := hrest.take ['?', '#'] (by simp)
          exact @ih .group hskip
        · obtain ⟨rfl, hblank⟩ := Bool.and_eq_true_iff.mp hblank
          have hstart : isFillerStart c = true := hblank
          rw [skipFiller_blank hstart] at hskip ⊢
          exact ih hskip
  | @escape c cs ds hescape hrest ih =>
    cases filler with
    | none =>
      rw [skipFiller_of_not_starts (by cases verbose <;> rfl)] at hskip
      cases hskip
      exact .inr ⟨_, skipFiller_of_not_starts (by cases verbose <;> rfl), .escape hescape hrest⟩
    | group => exact @ih .group hskip
    | line =>
      rw [skipFiller_line (by decide)] at hskip ⊢
      by_cases hend : c = '\n'
      · subst hend
        exact @ih .none hskip
      · rw [skipFiller_line hend] at hskip ⊢
        exact ih hskip
  | @number number cs ds hpos hend hrest ih =>
    have hskipped : ∀ {filler : Filler}, filler ≠ .none → ∀ (number : Nat) (cs : List Char),
        skipFiller? verbose filler ('\\' :: (Nat.toDigits 10 number ++ cs))
          = skipFiller? verbose filler cs := by
      intro filler hfiller number cs
      obtain ⟨digit, digits, hdigits, -⟩ := head_toDigits number
      have hall : ∀ c ∈ digit :: digits, c.isDigit = true := fun c hc =>
        Nat.isDigit_of_mem_toDigits (by decide) (by decide) (hdigits ▸ hc)
      have hothers :
          skipFiller? verbose filler (digit :: digits ++ cs) = skipFiller? verbose filler cs :=
        skipFiller_digits hfiller hall
      have hfewer : skipFiller? verbose filler (digits ++ cs) = skipFiller? verbose filler cs :=
        skipFiller_digits hfiller (List.forall_mem_cons.mp hall).2
      rw [hdigits]
      cases filler with
      | none => exact absurd rfl hfiller
      | group => exact hfewer
      | line => exact (skipFiller_line (by decide)).trans hothers
    cases filler with
    | none =>
      rw [skipFiller_of_not_starts (by cases verbose <;> rfl)] at hskip
      cases hskip
      exact .inr ⟨_, skipFiller_of_not_starts (by cases verbose <;> rfl), .number hpos hend hrest⟩
    | group =>
      rw [@hskipped .group nofun] at hskip ⊢
      exact ih hskip
    | line =>
      rw [@hskipped .line nofun] at hskip ⊢
      exact ih hskip

/-- What is left after filler is shorter, unless there was none. -/
theorem length_skipFiller {verbose : Bool} {filler : Filler}
    (h : skipFiller? verbose filler cs = some left) : left.length ≤ cs.length := by
  fun_induction skipFiller? verbose filler cs <;> first
    | cases h <;> exact Nat.le_refl _
    | rename_i ih
      exact Nat.le_succ_of_le (ih h)
    | rename_i ih
      exact Nat.le_trans (ih h) (by simp only [List.length_cons]; omega)

theorem length_skipFiller_of_starts {verbose : Bool} (hstarts : startsFiller verbose cs = true)
    (h : skipFiller? verbose .none cs = some left) : left.length < cs.length := by
  rcases Bool.or_eq_true_iff.mp hstarts with hcomment | hblank
  · obtain ⟨rest, rfl⟩ := List.isPrefixOf_iff_prefix.mp hcomment
    rw [skipFiller_comment] at h
    exact Nat.lt_of_le_of_lt (length_skipFiller h) (by simp [commentMark])
  · obtain ⟨rfl, hblank⟩ := Bool.and_eq_true_iff.mp hblank
    cases cs with
    | nil => cases hblank
    | cons c rest =>
      have hstart : isFillerStart c = true := hblank
      rw [skipFiller_blank hstart] at h
      exact Nat.lt_of_le_of_lt (length_skipFiller h) (Nat.lt_succ_self _)

/-! ### Runs -/

/-- A run that a test takes from the first text is taken from the second one. -/
theorem Renumbered.run_of {test : Char → Bool} (h : Renumbered base more cs ds)
    (hslash : '\\' ∉ cs.takeWhile test) (hend : cs.dropWhile test ≠ []) :
    ds.takeWhile test = cs.takeWhile test ∧
      Renumbered base more (cs.dropWhile test) (ds.dropWhile test) := by
  have hstop : ∀ {cs ds : List Char}, '\\' ∉ ('\\' :: cs).takeWhile test →
      Renumbered base more ('\\' :: cs) ('\\' :: ds) →
      ('\\' :: ds).takeWhile test = ('\\' :: cs).takeWhile test ∧
        Renumbered base more (('\\' :: cs).dropWhile test) (('\\' :: ds).dropWhile test) := by
    intro cs ds hslash h
    cases htest : test '\\' with
    | true =>
      rw [List.takeWhile_cons_of_pos htest] at hslash
      exact absurd List.mem_cons_self hslash
    | false =>
      rw [List.takeWhile_cons_of_neg (by simp [htest]), List.takeWhile_cons_of_neg (by simp [htest]),
        List.dropWhile_cons_of_neg (by simp [htest]), List.dropWhile_cons_of_neg (by simp [htest])]
      exact ⟨rfl, h⟩
  induction h with
  | close =>
    cases htest : test ')' with
    | true => simp [htest] at hend
    | false =>
      rw [List.takeWhile_cons_of_neg (by simp [htest]), List.takeWhile_cons_of_neg (by simp [htest]),
        List.dropWhile_cons_of_neg (by simp [htest]), List.dropWhile_cons_of_neg (by simp [htest])]
      exact ⟨rfl, .close⟩
  | @char c cs ds hc hopen hrest ih =>
    cases htest : test c with
    | true =>
      rw [List.takeWhile_cons_of_pos htest, List.mem_cons, not_or] at hslash
      rw [List.dropWhile_cons_of_pos htest] at hend
      obtain ⟨htaken, hleft⟩ := ih hslash.2 hend
      rw [List.takeWhile_cons_of_pos htest, List.takeWhile_cons_of_pos htest,
        List.dropWhile_cons_of_pos htest, List.dropWhile_cons_of_pos htest, htaken]
      exact ⟨rfl, hleft⟩
    | false =>
      rw [List.takeWhile_cons_of_neg (by simp [htest]), List.takeWhile_cons_of_neg (by simp [htest]),
        List.dropWhile_cons_of_neg (by simp [htest]), List.dropWhile_cons_of_neg (by simp [htest])]
      exact ⟨rfl, .char hc hopen hrest⟩
  | escape hescape hrest => exact hstop hslash (.escape hescape hrest)
  | number hpos hnext hrest => exact hstop hslash (.number hpos hnext hrest)

theorem Renumbered.mem_close (h : Renumbered base more cs ds) : ')' ∈ cs := by
  induction h with
  | close => exact List.mem_cons_self
  | char _ _ _ ih => exact .tail _ ih
  | escape _ _ ih => exact .tail _ (.tail _ ih)
  | number _ _ _ ih => exact .tail _ (List.mem_append_right _ ih)

theorem Renumbered.run {test : Char → Bool} (h : Renumbered base more cs ds)
    (hslash : test '\\' = false) (hclose : test ')' = false) :
    ds.takeWhile test = cs.takeWhile test ∧
      Renumbered base more (cs.dropWhile test) (ds.dropWhile test) := by
  have htaken : ∀ c ∈ cs.takeWhile test, test c = true :=
    List.all_eq_true.mp List.all_takeWhile
  refine h.run_of (fun hmem => ?_) fun hnil => ?_
  · rw [htaken _ hmem] at hslash
    cases hslash
  · have hall := List.takeWhile_append_dropWhile (p := test) (l := cs)
    rw [hnil, List.append_nil] at hall
    rw [hall] at htaken
    rw [htaken _ h.mem_close] at hclose
    cases hclose

/-! ### Numbers, names and codes -/

/-- Two readers read the same, and leave related texts. -/
def ReadAlike {α : Type} (base : Nat) (more : List Char) (found later : Option (α × List Char)) :
    Prop :=
  found = none ∧ later = none ∨ ∃ x left left', found = some (x, left) ∧ later = some (x, left') ∧
    Renumbered base more left left'

theorem Renumbered.parseNumber (h : Renumbered base more cs ds) :
    ReadAlike base more (parseNumber? cs) (parseNumber? ds) := by
  obtain ⟨htaken, hleft⟩ := h.run (show Char.isDigit '\\' = false by decide)
    (show Char.isDigit ')' = false by decide)
  unfold parseNumber?
  rw [htaken]
  split
  · exact .inl ⟨rfl, rfl⟩
  · dsimp only
    split
    · exact .inr ⟨_, _, _, rfl, rfl, hleft⟩
    · exact .inl ⟨rfl, rfl⟩

theorem isNameChar_ascii {c : Char} (h : c.toNat < 0x80) :
    isNameChar c = (c == '_' || c.isAlphanum) := by
  rw [isNameChar, Unicode.isAlphanumeric_ascii h, Char.ofNat_toNat]

theorem Renumbered.parseName (h : Renumbered base more cs ds) {close : Char} (hclose : close ≠ '\\')
    (hend : close ≠ ')') {name : List Char} (hname : parseName? close cs = some (name, left)) :
    ∃ left', parseName? close ds = some (name, left') ∧ Renumbered base more left left' := by
  obtain ⟨htaken, hleft⟩ := h.run
    (show isNameChar '\\' = false by rw [isNameChar_ascii (by decide)]; decide)
    (show isNameChar ')' = false by rw [isNameChar_ascii (by decide)]; decide)
  unfold parseName? at hname ⊢
  rw [htaken]
  generalize cs.takeWhile isNameChar = taken at hname ⊢
  generalize hrest : cs.dropWhile isNameChar = rest at hname hleft
  generalize ds.dropWhile isNameChar = others at hleft ⊢
  split at hname
  · cases hname
  · rename_i hne
    split at hname
    · rename_i hc
      obtain rfl := beq_iff_eq.mp hc
      cases hname
      obtain ⟨after, rfl, hafter⟩ := hleft.uncons_inside hclose hend
      refine ⟨after, ?_, hafter⟩
      simp only [beq_self_eq_true, if_true]
    · cases hname
  · cases hname

end Highlighter.Regex.Extended
