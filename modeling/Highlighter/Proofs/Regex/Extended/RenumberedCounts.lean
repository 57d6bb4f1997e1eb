import Highlighter.Proofs.Regex.Extended.RenumberedPieces
import Highlighter.Proofs.Regex.Extended.Shift

/-!
# Counts in texts with later references

A brace that starts no count stands for itself. So where a count is not read because the first text
ends in a comment, the second text may still have one. Such a text is lost (`EndsEarly`): whatever
is read of it goes on to its end. Otherwise, counts are read alike from related texts
(`GoesOn.parseSuffix`).
-/

set_option autoImplicit false

namespace Highlighter.Regex.Extended

open Pattern

variable {base : Nat} {more cs ds left : List Char} {c : Char} {reading later : Reading}

/-! ### Texts that end early -/

theorem startsFiller_of_skip {verbose : Bool} {filler : Filler} {shown : List Char}
    (h : skipFiller? verbose filler cs = some shown) : startsFiller verbose shown = false := by
  fun_induction skipFiller? verbose filler cs with
  | case4 c rest hcomment hline hblank =>
    cases h
    rw [startsFiller_cons]
    · cases verbose with
      | false => rfl
      | true => simp_all [isFillerStart]
    · intro others heq
      cases heq
      exact hcomment others rfl rfl
  | _ =>
    first
    | (rename_i ih; exact ih h)
    | (cases h <;> cases verbose <;> rfl)

theorem Reading.skip_skip {shown : List Char} (h : reading.skip? cs = some shown) :
    reading.skip? shown = some shown :=
  skipFiller_of_not_starts (startsFiller_of_skip h)

/-- What counts are written with are no marks of anything else. -/
theorem ne_of_count (hc : c.isDigit = true ∨ c = ',') {marks : List Char}
    (hmarks : marks.all fun mark => !(mark.isDigit || mark == ',')) : ∀ mark ∈ marks, c ≠ mark := by
  rintro mark hmark rfl
  have hnone := List.all_eq_true.mp hmarks c hmark
  rcases hc with hc | rfl
  · simp [hc] at hnone
  · cases hnone

/-- Nothing comes next, or a comment that is not closed. -/
def SkipsAll (reading : Reading) (cs : List Char) : Prop :=
  reading.skip? cs = none ∨ reading.skip? cs = some []

/-- Digits and commas come next, and then nothing, or a comment that is not closed. -/
inductive EndsEarly (reading : Reading) : List Char → Prop where
  | done {cs : List Char} (h : SkipsAll reading cs) : EndsEarly reading cs
  | step {c : Char} {cs rest : List Char} (hskip : reading.skip? cs = some (c :: rest))
    (hc : c.isDigit = true ∨ c = ',') (hrest : EndsEarly reading rest) : EndsEarly reading cs

namespace EndsEarly

theorem of_skip {shown : List Char} (hskip : reading.skip? cs = some shown)
    (h : EndsEarly reading shown) : EndsEarly reading cs := by
  have hshown := Reading.skip_skip hskip
  cases h with
  | done h =>
    rcases h with hnone | hnil
    · rw [hshown] at hnone
      cases hnone
    · rw [hshown] at hnil
      exact .done (.inr (hskip.trans hnil))
  | step hrest hc h =>
    rw [hshown] at hrest
    cases hrest
    exact .step hskip hc h

theorem skip_eq (hopen : c ≠ '(') (hstart : isFillerStart c = false) (rest : List Char) :
    reading.skip? (c :: rest) = some (c :: rest) :=
  skipFiller_of_not_starts (by
    rw [startsFiller_cons fun others heq => hopen (List.cons.inj heq).1, hstart, Bool.and_false])

theorem skip_digit (hc : c.isDigit = true ∨ c = ',') (rest : List Char) :
    reading.skip? (c :: rest) = some (c :: rest) := by
  have hne := ne_of_count hc (show ['(', '#', ' ', '\t', '\n', '\r'].all _ = true by decide)
  refine skip_eq (hne '(' (by decide)) ?_ rest
  simp [isFillerStart, hne]

theorem of_digits {digits : List Char} (hdigits : ∀ c ∈ digits, c.isDigit = true)
    (h : EndsEarly reading left) : EndsEarly reading (digits ++ left) := by
  induction digits with
  | nil => exact h
  | cons d digits ih =>
    obtain ⟨hd, hdigits⟩ := List.forall_mem_cons.mp hdigits
    exact .step (skip_digit (.inl hd) _) (.inl hd) (ih hdigits)

theorem of_number {number : Nat} (hnumber : parseNumber? cs = some (number, left))
    (h : EndsEarly reading left) : EndsEarly reading cs := by
  have hdigits : ∀ c ∈ cs.takeWhile Char.isDigit, c.isDigit = true :=
    List.all_eq_true.mp List.all_takeWhile
  obtain rfl : left = cs.dropWhile Char.isDigit := by
    unfold parseNumber? at hnumber
    split at hnumber
    · cases hnumber
    · dsimp only at hnumber
      split at hnumber
      · cases hnumber
        rfl
      · cases hnumber
  rw [← List.takeWhile_append_dropWhile (p := Char.isDigit) (l := cs)]
  exact h.of_digits hdigits

end EndsEarly

/-! ### Bounds -/

/-- Read the lower bound of a repetition. -/
def lower? (cs : List Char) : Option (Nat × List Char) :=
  match cs with
  | ',' :: _ => some (0, cs)
  | _ => parseNumber? cs

/-- Read the upper bound of a repetition, if there is one. -/
def upper (cs : List Char) : Option Nat × List Char :=
  match parseNumber? cs with
  | some (max, rest) => (some max, rest)
  | none => (none, cs)

theorem afterLower_comma (reading : Reading) (min : Nat) (cs : List Char) :
    afterLower? reading min (',' :: cs) = (reading.skip? cs).bind fun shown =>
      (reading.skip? (upper shown).2).bind fun next =>
        match next with
        | '}' :: rest => some (min, (upper shown).1, rest)
        | _ => none := rfl

theorem parseBounds_eq (reading : Reading) (cs : List Char) :
    parseBounds? reading cs = (reading.skip? cs).bind fun shown =>
      (lower? shown).bind fun found =>
        (reading.skip? found.2).bind (afterLower? reading found.1) := by
  unfold parseBounds?
  refine congrArg (Option.bind (reading.skip? cs)) (funext fun shown => ?_)
  split
  · rfl
  · rename_i hcomma
    rw [show lower? shown = parseNumber? shown by rw [lower?]; exact hcomma]
    cases parseNumber? shown with
    | none => rfl
    | some found => rfl

/-- Bounds are read alike from related texts, unless the first one ends early. -/
def BoundsAlike (base : Nat) (more : List Char)
    (found later : Option (Nat × Option Nat × List Char)) : Prop :=
  found = none ∧ later = none ∨ ∃ min max left left', found = some (min, max, left) ∧
    later = some (min, max, left') ∧ Renumbered base more left left'

theorem Renumbered.lower (h : Renumbered base more cs ds) :
    ReadAlike base more (lower? cs) (lower? ds) := by
  by_cases hcomma : ∃ rest, cs = ',' :: rest
  · obtain ⟨rest, rfl⟩ := hcomma
    obtain ⟨others, rfl, hrest⟩ := h.take [','] (by simp)
    exact .inr ⟨0, _, _, rfl, rfl, h⟩
  · have hnone : ∀ rest, cs = [','] ++ rest → False := fun rest heq => hcomma ⟨rest, heq⟩
    rw [lower?, lower?]
    · exact h.parseNumber
    · exact h.not_starts [','] (by simp) hnone
    · exact hnone

theorem Renumbered.upper (h : Renumbered base more cs ds) (reading : Reading) :
    ∃ max left left', upper cs = (max, left) ∧ upper ds = (max, left') ∧
      Renumbered base more left left' ∧ (EndsEarly reading left → EndsEarly reading cs) := by
  rcases h.parseNumber with ⟨hnone, hnone'⟩ | ⟨number, left, left', hnumber, hnumber', hleft⟩
  · exact ⟨none, cs, ds, by rw [Extended.upper, hnone], by rw [Extended.upper, hnone'], h, id⟩
  · exact ⟨some number, left, left', by rw [Extended.upper, hnumber],
      by rw [Extended.upper, hnumber'], hleft, .of_number hnumber⟩

/-! ### What follows a piece -/

/-- Whether a mark is missing, and the text after it. -/
def afterMark (mark : Char) : List Char → Bool × List Char
  | [] => (true, [])
  | c :: rest => if c = mark then (false, rest) else (true, c :: rest)

/-- A repetition with the marks that may follow it. -/
def repeatedBy (swapGreed : Bool) (min : Nat) (max : Option Nat) (tree : Tree) (cs : List Char) :
    Tree × List Char :=
  let lazy := afterMark '?' cs
  let kept := afterMark '+' lazy.2
  let tree := .repetition min max (lazy.1 != swapGreed) tree
  (if kept.1 then tree else .atomic tree, kept.2)

theorem parseSuffix_eq (reading : Reading) (tree : Tree) (cs : List Char) :
    parseSuffix? reading tree cs = (reading.skip? cs).bind fun shown =>
      match parseRepetition? reading shown with
      | none => some (tree, shown)
      | some (min, max, rest) =>
        if !tree.isRepeatable then none
        else (reading.skip? rest).map (repeatedBy reading.flags.swapGreed min max tree) := by
  unfold parseSuffix?
  refine congrArg (Option.bind (reading.skip? cs)) (funext fun shown => ?_)
  cases parseRepetition? reading shown with
  | none => rfl
  | some found =>
    obtain ⟨min, max, rest⟩ := found
    dsimp only
    split
    · rfl
    · rw [Option.map_eq_bind]
      refine congrArg (Option.bind (reading.skip? rest)) (funext fun marked => ?_)
      unfold repeatedBy
      rcases marked with _ | ⟨c, rest⟩
      · rfl
      · by_cases hc : c = '?'
        · subst hc
          rcases rest with _ | ⟨d, rest⟩
          · rfl
          · by_cases hd : d = '+'
            · subst hd
              rfl
            · simp [afterMark, hd]
        · by_cases hd : c = '+'
          · subst hd
            rfl
          · simp [afterMark, hc, hd]

theorem Renumbered.mark (h : Renumbered base more cs ds) (mark : Char)
    (hmark : mark ≠ '\\' ∧ mark ≠ ')') :
    ∃ missing left left', afterMark mark cs = (missing, left) ∧ afterMark mark ds = (missing, left') ∧
      Renumbered base more left left' := by
  cases cs with
  | nil => exact absurd rfl h.ne_nil
  | cons c cs =>
    by_cases hc : c = mark
    · subst hc
      obtain ⟨others, rfl, hrest⟩ := h.uncons_inside hmark.1 hmark.2
      exact ⟨false, cs, others, if_pos rfl, if_pos rfl, hrest⟩
    · obtain ⟨others, rfl⟩ := List.head?_eq_some_iff.mp h.head?_eq
      exact ⟨true, c :: cs, c :: others, if_neg hc, if_neg hc, h⟩

section Bounds

variable (hflags : later.flags = reading.flags)

include hflags

/-- Filler is skipped in both texts, unless the first one ends there. -/
theorem Renumbered.skipAlike (h : Renumbered base more cs ds) :
    SkipsAll reading cs ∨ ∃ shown shown', reading.skip? cs = some shown ∧
      later.skip? ds = some shown' ∧ Renumbered base more shown shown' := by
  cases hskip : reading.skip? cs with
  | none => exact .inl (.inl hskip)
  | some shown =>
    rcases GoesOn.skip (.inr h) hflags hskip with rfl | ⟨shown', hskip', hrest⟩
    · exact .inl (.inr hskip)
    · exact .inr ⟨shown, shown', rfl, hskip', hrest⟩

theorem Renumbered.afterLower (h : Renumbered base more cs ds) (min : Nat) :
    (afterLower? reading min cs = none ∧ ∃ rest, cs = ',' :: rest ∧ EndsEarly reading rest) ∨
      BoundsAlike base more (afterLower? reading min cs) (afterLower? later min ds) := by
  by_cases hclose : ∃ rest, cs = '}' :: rest
  · obtain ⟨rest, rfl⟩ := hclose
    obtain ⟨others, rfl, hrest⟩ := h.take ['}'] (by simp)
    exact .inr (.inr ⟨_, _, _, _, rfl, rfl, hrest⟩)
  by_cases hcomma : ∃ rest, cs = ',' :: rest
  · obtain ⟨rest, rfl⟩ := hcomma
    obtain ⟨others, rfl, hrest⟩ := h.uncons_inside (by decide) (by decide)
    rw [afterLower_comma, afterLower_comma]
    rcases hrest.skipAlike hflags with hall | ⟨shown, shown', hskip, hskip', hshown⟩
    · refine .inl ⟨?_, rest, rfl, (.done hall)⟩
      rcases hall with hskip | hskip <;> rw [hskip] <;> rfl
    obtain ⟨max, bound, bound', hmax, hmax', hbound, hends⟩ := hshown.upper reading
    rw [hskip, hskip', Option.bind_some, Option.bind_some, hmax, hmax']
    rcases hbound.skipAlike hflags with hall | ⟨next, next', hskip₂, hskip₂', hnext⟩
    · refine .inl ⟨?_, rest, rfl, .of_skip hskip (hends (.done hall))⟩
      rcases hall with hskip | hskip <;> rw [hskip] <;> rfl
    refine .inr ?_
    rw [hskip₂, hskip₂', Option.bind_some, Option.bind_some]
    by_cases hend : ∃ rest, next = '}' :: rest
    · obtain ⟨rest, rfl⟩ := hend
      obtain ⟨others, rfl, hrest⟩ := hnext.take ['}'] (by simp)
      exact .inr ⟨_, _, _, _, rfl, rfl, hrest⟩
    · have hnone : ∀ {next : List Char} {max : Option Nat}, (∀ rest, next = ['}'] ++ rest → False) →
          (match next with
            | '}' :: rest => some (min, max, rest)
            | _ => none) = none := by
        intro next max hend
        split
        · exact (hend _ rfl).elim
        · rfl
      have hend : ∀ rest, next = ['}'] ++ rest → False := fun rest heq => hend ⟨rest, heq⟩
      exact .inl ⟨hnone hend, hnone (hnext.not_starts ['}'] (by simp) hend)⟩
  · have hnoClose : ∀ rest, cs = ['}'] ++ rest → False := fun rest heq => hclose ⟨rest, heq⟩
    have hnoComma : ∀ rest, cs = [','] ++ rest → False := fun rest heq => hcomma ⟨rest, heq⟩
    refine .inr (.inl ⟨?_, ?_⟩)
    · rw [afterLower?]
      · exact hnoClose
      · exact hnoComma
    · rw [afterLower?]
      · exact h.not_starts ['}'] (by simp) hnoClose
      · exact h.not_starts [','] (by simp) hnoComma

theorem Renumbered.parseBounds (h : Renumbered base more cs ds) :
    (parseBounds? reading cs = none ∧ EndsEarly reading cs) ∨
      BoundsAlike base more (parseBounds? reading cs) (parseBounds? later ds) := by
  rw [parseBounds_eq, parseBounds_eq]
  rcases h.skipAlike hflags with hall | ⟨shown, shown', hskip, hskip', hshown⟩
  · refine .inl ⟨?_, (.done hall)⟩
    rcases hall with hskip | hskip <;> rw [hskip] <;> rfl
  rw [hskip, hskip', Option.bind_some, Option.bind_some]
  rcases hshown.lower with ⟨hnone, hnone'⟩ | ⟨min, next, next', hlower, hlower', hnext⟩
  · rw [hnone, hnone']
    exact .inr (.inl ⟨rfl, rfl⟩)
  have hends : EndsEarly reading next → EndsEarly reading cs := by
    intro hends
    refine .of_skip hskip ?_
    unfold lower? at hlower
    split at hlower
    · cases hlower
      exact hends
    · exact .of_number hlower hends
  rw [hlower, hlower', Option.bind_some, Option.bind_some]
  rcases hnext.skipAlike hflags with hall | ⟨bound, bound', hskip, hskip', hbound⟩
  · refine .inl ⟨?_, hends (.done hall)⟩
    rcases hall with hskip | hskip <;> rw [hskip] <;> rfl
  rw [hskip, hskip', Option.bind_some, Option.bind_some]
  rcases hbound.afterLower hflags min with ⟨hnone, rest, rfl, hrest⟩ | hbounds
  · exact .inl ⟨hnone, hends (.step hskip (.inr rfl) hrest)⟩
  · exact .inr hbounds

/-! ### Repetitions -/

theorem Renumbered.parseRepetition (h : Renumbered base more cs ds) :
    (parseRepetition? reading cs = none ∧ ∃ rest, cs = '{' :: rest ∧ EndsEarly reading rest) ∨
      BoundsAlike base more (parseRepetition? reading cs) (parseRepetition? later ds) := by
  have hmark : ∀ {c : Char} {rest : List Char} {min : Nat} {max : Option Nat},
      (c ≠ '\\' ∧ c ≠ ')') →
      (∀ reading rest, parseRepetition? reading (c :: rest) = some (min, max, rest)) →
      cs = c :: rest →
      BoundsAlike base more (parseRepetition? reading cs) (parseRepetition? later ds) := by
    rintro c rest min max hc hread rfl
    obtain ⟨others, rfl, hrest⟩ := h.uncons_inside hc.1 hc.2
    exact .inr ⟨min, max, rest, others, hread _ _, hread _ _, hrest⟩
  by_cases hquestion : ∃ rest, cs = '?' :: rest
  · exact .inr (hmark (by decide) (fun _ _ => rfl) hquestion.choose_spec)
  by_cases hstar : ∃ rest, cs = '*' :: rest
  · exact .inr (hmark (by decide) (fun _ _ => rfl) hstar.choose_spec)
  by_cases hplus : ∃ rest, cs = '+' :: rest
  · exact .inr (hmark (by decide) (fun _ _ => rfl) hplus.choose_spec)
  by_cases hbrace : ∃ rest, cs = '{' :: rest
  · obtain ⟨rest, rfl⟩ := hbrace
    obtain ⟨others, rfl, hrest⟩ := h.uncons_inside (by decide) (by decide)
    rcases hrest.parseBounds hflags with ⟨hnone, hends⟩ | hbounds
    · exact .inl ⟨hnone, rest, rfl, hends⟩
    · exact .inr hbounds
  · have hne : ∀ {d : Char}, (¬∃ rest, cs = d :: rest) → ∀ rest, cs = [d] ++ rest → False :=
      fun hd rest heq => hd ⟨rest, heq⟩
    refine .inr (.inl ⟨?_, ?_⟩)
    · rw [parseRepetition?]
      · exact hne hquestion
      · exact hne hstar
      · exact hne hplus
      · exact hne hbrace
    · rw [parseRepetition?]
      · exact h.not_starts ['?'] (by simp) (hne hquestion)
      · exact h.not_starts ['*'] (by simp) (hne hstar)
      · exact h.not_starts ['+'] (by simp) (hne hplus)
      · exact h.not_starts ['{'] (by simp) (hne hbrace)

/-- What may follow a piece is read from both texts, unless the first one ends early. -/
theorem GoesOn.parseSuffix (h : GoesOn base more cs ds) {groups : Nat} {tree found found' : Tree}
    {left' : List Char} (hwithin : tree.Within groups)
    (hread : parseSuffix? reading tree cs = some (found, left))
    (hread' : parseSuffix? later (tree.shift base) ds = some (found', left')) :
    left = [] ∨ (∃ rest, left = '{' :: rest ∧ EndsEarly reading rest) ∨
      found' = found.shift base ∧ found.Within groups ∧ Renumbered base more left left' := by
  rw [parseSuffix_eq] at hread hread'
  obtain ⟨shown, hskip, hread⟩ := Option.bind_eq_some_iff.mp hread
  obtain ⟨shown', hskip', hread'⟩ := Option.bind_eq_some_iff.mp hread'
  rcases h.skip hflags hskip with rfl | ⟨_, hshown', hshown⟩
  · cases hread
    exact .inl rfl
  rw [hskip'] at hshown'
  cases hshown'
  rcases hshown.parseRepetition hflags with ⟨hnone, rest, rfl, hends⟩ |
    ⟨hnone, hnone'⟩ | ⟨min, max, next, next', hcount, hcount', hnext⟩
  · simp only [hnone] at hread
    cases hread
    exact .inr (.inl ⟨rest, rfl, hends⟩)
  · simp only [hnone] at hread
    simp only [hnone'] at hread'
    cases hread
    cases hread'
    exact .inr (.inr ⟨rfl, hwithin, hshown⟩)
  · simp only [hcount] at hread
    simp only [hcount', Tree.isRepeatable_shift] at hread'
    split at hread
    · cases hread
    · rename_i hrepeat
      rw [if_neg hrepeat] at hread'
      obtain ⟨marked, hmarked, hread⟩ := Option.map_eq_some_iff.mp hread
      obtain ⟨marked', hmarked', hread'⟩ := Option.map_eq_some_iff.mp hread'
      rcases GoesOn.skip (.inr hnext) hflags hmarked with rfl | ⟨_, hmark, hrest⟩
      · cases hread
        exact .inl rfl
      rw [hmarked'] at hmark
      cases hmark
      obtain ⟨greedy, next, next', hlazy, hlazy', hnext⟩ := hrest.mark '?' (by decide)
      obtain ⟨retried, last, last', hkept, hkept', hlast⟩ := hnext.mark '+' (by decide)
      simp only [repeatedBy, hlazy, hkept] at hread
      simp only [repeatedBy, hlazy', hkept', hflags] at hread'
      cases hread
      cases hread'
      refine .inr (.inr ⟨?_, ?_, hlast⟩)
      · cases retried <;> rfl
      · cases retried <;> exact hwithin

end Bounds

end Highlighter.Regex.Extended
