import Highlighter.Proofs.Regex.Longer

/-!
# Classes with more after them

The readers of classes read the same in a text up to its closing parenthesis as in the same text
with more after it, also in verbose patterns (`LongerOn.parseClass`).
-/

set_option autoImplicit false

namespace Highlighter.Regex

open Pattern (negation)

variable {more cs ds : List Char} {c : Char} {verbose : Bool}

/-! ### Members -/

theorem LongerOn.parseMember (h : LongerOn more cs ds) {found found' : Primitive × List Char}
    (hread : parseMember? verbose cs = some found)
    (hread' : parseMember? verbose ds = some found') : Alike more found found' := by
  rcases h with rfl | h
  · cases hread
  cases cs with
  | nil => cases hread
  | cons c cs =>
    obtain ⟨others, rfl, hrest⟩ := h.uncons
    by_cases hslash : c = '\\'
    · subst hslash
      exact hrest.parseEscape hread hread'
    · have hplain : ∀ cs : List Char,
          parseMember? verbose (c :: cs) = some (.literal c false, cs) := by
        intro cs
        rw [parseMember?]
        exact hslash
      rw [hplain] at hread hread'
      cases hread
      cases hread'
      exact hrest.imp_right fun hrest => ⟨rfl, hrest⟩

theorem Longer.peekMember (h : Longer more cs ds) (verbose : Bool) :
    peekMember verbose ds = peekMember verbose cs := by
  cases verbose with
  | false => exact h.head?_eq
  | true =>
    have hshown := (h.run (show isBlank ')' = false by decide)).2
    rw [Regex.peekMember, Regex.peekMember]
    simp only [if_true]
    generalize cs.dropWhile isBlank = shown at hshown ⊢
    generalize ds.dropWhile isBlank = shown' at hshown ⊢
    cases shown with
    | nil => exact absurd rfl hshown.ne_nil
    | cons c rest =>
      by_cases hcomment : c = '#'
      · subst hcomment
        obtain ⟨others, rfl, hrest⟩ := hshown.uncons_inside (by decide)
        exact (hrest.run (show isBlank ')' = false by decide)).2.head?_eq
      · obtain ⟨others, rfl, -⟩ := hshown.uncons
        simp [hcomment]

/-- A member before anything but a hyphen is no range. -/
theorem parseRange_shown {first : Primitive} {left rest : List Char}
    (hmember : parseMember? verbose cs = some (first, left))
    (hshown : skipBlank verbose left = c :: rest) (hhyphen : c ≠ '-') :
    parseRange? verbose cs = first.toClass?.map fun item => (item, c :: rest) := by
  rw [parseRange?, hmember]
  simp only [hshown, Bind.bind, Option.bind_some]
  split
  · rename_i heq
    cases heq
  · rename_i heq
    exact absurd (List.cons.inj heq).1 hhyphen
  · rename_i heq
    rw [Option.map_eq_bind]
    rfl

theorem LongerOn.parseRange (h : LongerOn more cs ds) {found found' : ClassSet × List Char}
    (hread : parseRange? verbose cs = some found)
    (hread' : parseRange? verbose ds = some found') : Alike more found found' := by
  have hsingle := hread
  have hsingle' := hread'
  obtain ⟨⟨piece, left⟩, hfirst, hread⟩ := Option.bind_eq_some_iff.mp hread
  obtain ⟨⟨piece', left'⟩, hfirst', hread'⟩ := Option.bind_eq_some_iff.mp hread'
  have hfirsts := h.parseMember hfirst hfirst'
  have hshown := hfirsts.longerOn.skipBlank verbose
  rcases hfirsts with hnil | ⟨hpiece, hleft⟩
  · cases hnil
    simp only [skipBlank_nil] at hread
    cases hread
  cases hpiece
  dsimp only at hshown hread hread'
  cases hrest : Regex.skipBlank verbose left with
  | nil =>
    simp only [hrest] at hread
    cases hread
  | cons c rest =>
    rw [hrest] at hshown
    have hshown := hshown.resolve_left (List.cons_ne_nil _ _)
    by_cases hhyphen : c = '-'
    · subst hhyphen
      obtain ⟨others, hothers, hinner⟩ := hshown.uncons_inside (by decide)
      rw [hothers] at hshown
      simp only [hrest] at hread
      simp only [hothers, hinner.peekMember] at hread'
      split at hread
      · rename_i hnext
        rw [if_pos hnext] at hread'
        obtain ⟨item, hitem, hread⟩ := Option.bind_eq_some_iff.mp hread
        obtain ⟨item', hitem', hread'⟩ := Option.bind_eq_some_iff.mp hread'
        rw [hitem] at hitem'
        cases hitem'
        cases hread
        cases hread'
        exact .inr ⟨rfl, hshown⟩
      · rename_i hnext
        rw [if_neg hnext] at hread'
        obtain ⟨⟨last, after⟩, hsecond, hread⟩ := Option.bind_eq_some_iff.mp hread
        obtain ⟨⟨last', after'⟩, hsecond', hread'⟩ := Option.bind_eq_some_iff.mp hread'
        have hseconds := (LongerOn.skipBlank (.inr hinner) verbose).parseMember hsecond hsecond'
        cases piece with
        | literal lo =>
          cases last with
          | literal hi =>
            simp only at hread
            split at hread
            · rename_i hle
              cases hread
              refine hseconds.imp_right fun hboth => ?_
              obtain ⟨hsame, hleft⟩ := hboth
              cases hsame
              simp only [if_pos hle] at hread'
              cases hread'
              exact ⟨rfl, hleft⟩
            · cases hread
          | _ => cases hread
        | _ => cases hread
    · obtain ⟨others, hothers, hinner⟩ := hshown.uncons
      rw [hothers] at hshown
      rw [parseRange_shown hfirst hrest hhyphen] at hsingle
      rw [parseRange_shown hfirst' hothers hhyphen] at hsingle'
      obtain ⟨item, hitem, rfl⟩ := Option.map_eq_some_iff.mp hsingle
      obtain ⟨item', hitem', rfl⟩ := Option.map_eq_some_iff.mp hsingle'
      rw [hitem] at hitem'
      cases hitem'
      exact .inr ⟨rfl, hshown⟩

/-! ### Whole classes -/

/-- The text before what is left, without closing parentheses, stands in both texts. -/
theorem Longer.append_inside {text : List Char} (htext : ')' ∉ text)
    (h : Longer more (text ++ cs) ds) : ∃ others, ds = text ++ others ∧ Longer more cs others := by
  induction text generalizing ds with
  | nil => exact ⟨ds, rfl, h⟩
  | cons c text ih =>
    obtain ⟨hc, htext⟩ := not_or.mp (List.mem_cons.not.mp htext)
    obtain ⟨others, rfl, hrest⟩ := h.uncons_inside (Ne.symm hc)
    obtain ⟨left, rfl, hleft⟩ := ih htext hrest
    exact ⟨left, rfl, hleft⟩

theorem Longer.append_right {text : List Char} (htext : ')' ∉ text)
    (h : Longer more cs (text ++ ds)) : ∃ others, cs = text ++ others ∧ Longer more others ds := by
  induction text generalizing cs with
  | nil => exact ⟨cs, rfl, h⟩
  | cons c text ih =>
    obtain ⟨hc, htext⟩ := not_or.mp (List.mem_cons.not.mp htext)
    obtain ⟨others, rfl, hrest⟩ := h.uncons_right (Ne.symm hc)
    obtain ⟨left, rfl, hleft⟩ := ih htext hrest
    exact ⟨left, rfl, hleft⟩

/-- A text that the first one does not start with does not start the longer one either. -/
theorem Longer.not_start {text : List Char} (h : Longer more cs ds) (htext : ')' ∉ text)
    (hne : ∀ left, cs = text ++ left → False) (left : List Char) : ds = text ++ left → False := by
  rintro rfl
  obtain ⟨others, rfl, -⟩ := h.append_right htext
  exact hne others rfl

/-- A class that is named is closed inside its name's text. -/
theorem not_mem_posixText {negated : Bool} {name : List Char} {kind : PosixClass}
    (h : PosixClass.ofName? (String.ofList name) = some kind) :
    ')' ∉ ':' :: (negation negated ++ (name ++ [':', ']'])) := by
  have hnames : posixNames.all (fun known => !known.toList.contains ')') = true := by decide
  have hplain := List.all_eq_true.mp hnames _ (mem_posixNames h)
  cases negated <;> simpa [negation] using hplain

theorem Longer.parsePosix (h : Longer more cs ds) {item : ClassSet} {left : List Char}
    (hread : parsePosix? cs = some (item, left)) :
    ∃ left', parsePosix? ds = some (item, left') ∧ Longer more left left' := by
  obtain ⟨negated, name, kind, rfl, hkind, rfl⟩ := parsePosix_eq_some hread
  have htext : ∀ left, ':' :: (negation negated ++ (name ++ ':' :: ']' :: left))
      = ':' :: (negation negated ++ (name ++ [':', ']'])) ++ left := fun left => by simp
  rw [htext] at h
  obtain ⟨left', rfl, hleft⟩ := h.append_inside (not_mem_posixText hkind)
  rw [← htext]
  exact ⟨left', parsePosix_name negated hkind left', hleft⟩

theorem Longer.parsePosix_none (h : Longer more cs ds) (hread : parsePosix? cs = none) :
    parsePosix? ds = none := by
  rw [Option.eq_none_iff_forall_ne_some]
  rintro ⟨item, left⟩ hsome
  obtain ⟨negated, name, kind, rfl, hkind, rfl⟩ := parsePosix_eq_some hsome
  have htext : ∀ left, ':' :: (negation negated ++ (name ++ ':' :: ']' :: left))
      = ':' :: (negation negated ++ (name ++ [':', ']'])) ++ left := fun left => by simp
  rw [htext] at h
  obtain ⟨left', rfl, -⟩ := h.append_right (not_mem_posixText hkind)
  rw [← htext, parsePosix_name negated hkind] at hread
  cases hread

theorem LongerOn.leadingHyphens (h : LongerOn more cs ds) {steps steps' : Nat}
    {found found' : List ClassSet × List Char}
    (hread : leadingHyphens? verbose steps cs = some found)
    (hread' : leadingHyphens? verbose steps' ds = some found') : Alike more found found' := by
  induction steps generalizing steps' cs ds found found' with
  | zero => cases hread
  | succ steps ih =>
    cases steps' with
    | zero => cases hread'
    | succ steps' =>
      unfold leadingHyphens? at hread hread'
      rcases h with rfl | h
      · cases hread
      cases cs with
      | nil => cases hread
      | cons c rest =>
        by_cases hhyphen : c = '-'
        · subst hhyphen
          obtain ⟨others, rfl, hrest⟩ := h.uncons
          obtain ⟨inner, hinner, hread⟩ := Option.bind_eq_some_iff.mp hread
          obtain ⟨inner', hinner', hread'⟩ := Option.bind_eq_some_iff.mp hread'
          cases hread
          cases hread'
          exact (ih (hrest.skipBlank verbose) hinner hinner').imp_right
            (And.imp_left (congrArg (ClassSet.literal '-' :: ·)))
        · obtain ⟨others, rfl, -⟩ := h.uncons
          have hstop : ∀ (steps : Nat) (rest : List Char),
              leadingHyphens? verbose (steps + 1) (c :: rest) = some ([], c :: rest) := by
            intro steps rest
            rw [leadingHyphens?]
            · exact List.cons_ne_nil _ _
            · exact fun others heq => hhyphen (List.cons.inj heq).1
          cases (hstop _ _).symm.trans hread
          cases (hstop _ _).symm.trans hread'
          exact .inr ⟨rfl, h⟩

/-- The sign of a class, and the text after it. -/
def classSign (verbose : Bool) : List Char → Bool × List Char
  | '^' :: rest => (true, skipBlank verbose rest)
  | cs => (false, cs)

/-- What a class starts with, after its sign and the hyphens `lead`. -/
def openedAfter? (verbose negated : Bool) (lead : List ClassSet × List Char) :
    Option (Bool × List ClassSet × List Char) :=
  match lead.1, lead.2 with
  | [], ']' :: rest =>
    match skipBlank verbose rest with
    | [] => none
    | rest => some (negated, [.literal ']'], rest)
  | items, cs => some (negated, items, cs)

theorem openClass_eq (verbose : Bool) (cs : List Char) :
    openClass? verbose cs
      = (leadingHyphens? verbose ((classSign verbose (skipBlank verbose cs)).2.length + 1)
          (classSign verbose (skipBlank verbose cs)).2).bind
            (openedAfter? verbose (classSign verbose (skipBlank verbose cs)).1) :=
  rfl

theorem LongerOn.classSign (h : LongerOn more cs ds) (verbose : Bool) :
    Alike more (classSign verbose cs) (classSign verbose ds) := by
  rcases h with rfl | h
  · exact .inl rfl
  cases cs with
  | nil => exact absurd rfl h.ne_nil
  | cons c rest =>
    obtain ⟨others, rfl, hrest⟩ := h.uncons
    by_cases hcaret : c = '^'
    · subst hcaret
      exact (hrest.skipBlank verbose).imp_right fun hleft => ⟨rfl, hleft⟩
    · have hplain : ∀ rest : List Char,
          Regex.classSign verbose (c :: rest) = (false, c :: rest) := by
        intro rest
        rw [Regex.classSign]
        exact fun others heq => hcaret (List.cons.inj heq).1
      rw [hplain, hplain]
      exact .inr ⟨rfl, h⟩

/-- The same opens a class in both texts. -/
theorem LongerOn.openedAfter {negated : Bool} {lead lead' : List ClassSet × List Char}
    (h : Alike more lead lead') {found found' : Bool × List ClassSet × List Char}
    (hread : openedAfter? verbose negated lead = some found)
    (hread' : openedAfter? verbose negated lead' = some found') :
    found.2.2 = [] ∨
      found'.1 = found.1 ∧ found'.2.1 = found.2.1 ∧ Longer more found.2.2 found'.2.2 := by
  obtain ⟨items, cs⟩ := lead
  obtain ⟨items', ds⟩ := lead'
  rcases h with hnil | ⟨hitems, h⟩
  · cases hnil
    cases items <;> cases hread <;> exact .inl rfl
  cases hitems
  dsimp only at h
  by_cases hclose : items = [] ∧ cs.head? = some ']'
  · obtain ⟨rfl, hhead⟩ := hclose
    obtain ⟨rest, rfl⟩ := List.head?_eq_some_iff.mp hhead
    obtain ⟨others, rfl, hrest⟩ := h.uncons
    have hshown := hrest.skipBlank verbose
    simp only [openedAfter?] at hread hread'
    split at hread
    · cases hread
    · rename_i hne
      rcases hshown with hnil | hshown
      · exact absurd hnil hne
      · split at hread'
        · cases hread'
        · cases hread
          cases hread'
          exact .inr ⟨rfl, rfl, hshown⟩
  · have hplain : ∀ {cs : List Char}, cs.head? ≠ some ']' ∨ items ≠ [] →
        openedAfter? verbose negated (items, cs) = some (negated, items, cs) := by
      intro cs hne
      rw [openedAfter?]
      split
      · rename_i hitems hcs
        subst hitems
        subst hcs
        exact absurd rfl (hne.resolve_right fun hitems => hitems rfl)
      · rfl
    have hne : cs.head? ≠ some ']' ∨ items ≠ [] := by
      by_cases hitems : items = []
      · exact .inl fun hhead => hclose ⟨hitems, hhead⟩
      · exact .inr hitems
    have hne' : ds.head? ≠ some ']' ∨ items ≠ [] := by
      rw [h.head?_eq]
      exact hne
    cases (hplain hne).symm.trans hread
    cases (hplain hne').symm.trans hread'
    exact .inr ⟨rfl, rfl, h⟩

theorem LongerOn.openClass (h : LongerOn more cs ds)
    {found found' : Bool × List ClassSet × List Char}
    (hread : openClass? verbose cs = some found) (hread' : openClass? verbose ds = some found') :
    found.2.2 = [] ∨
      found'.1 = found.1 ∧ found'.2.1 = found.2.1 ∧ Longer more found.2.2 found'.2.2 := by
  rw [openClass_eq] at hread hread'
  obtain ⟨lead, hlead, hread⟩ := Option.bind_eq_some_iff.mp hread
  obtain ⟨lead', hlead', hread'⟩ := Option.bind_eq_some_iff.mp hread'
  rcases (h.skipBlank verbose).classSign verbose with hnil | ⟨hsign, hrest⟩
  · rw [hnil] at hlead
    cases hlead
  · rw [hsign] at hread'
    exact LongerOn.openedAfter (LongerOn.leadingHyphens (.inr hrest) hlead hlead') hread hread'

/-- How a nested class is read. -/
theorem parseMembers_shown_nested {rest : List Char} (hshown : skipBlank verbose cs = '[' :: rest)
    (hposix : parsePosix? rest = none) (steps : Nat) (pending : Option (ClassOp × ClassSet))
    (items : List ClassSet) :
    parseMembers? verbose (steps + 1) pending items cs
      = (openClass? verbose rest).bind fun opened =>
          (parseMembers? verbose steps none opened.2.1.reverse opened.2.2).bind fun body =>
            parseMembers? verbose steps pending (.bracket opened.1 body.1 :: items) body.2 := by
  rw [parseMembers?, hshown]
  simp only [hposix]
  rfl

theorem parseMembers_nil (steps : Nat) (pending : Option (ClassOp × ClassSet))
    (items : List ClassSet) : parseMembers? verbose steps pending items [] = none := by
  cases steps with
  | zero => rfl
  | succ steps => rw [parseMembers?, skipBlank_nil]

theorem LongerOn.parseMembers (h : LongerOn more cs ds) {steps steps' : Nat}
    {pending : Option (ClassOp × ClassSet)} {items : List ClassSet}
    {found found' : ClassSet × List Char}
    (hread : parseMembers? verbose steps pending items cs = some found)
    (hread' : parseMembers? verbose steps' pending items ds = some found') :
    Alike more found found' := by
  induction steps generalizing steps' pending items cs ds found found' with
  | zero => cases hread
  | succ steps ih =>
    cases steps' with
    | zero => cases hread'
    | succ steps' =>
      have hbegun := h.skipBlank verbose
      cases hcs : Regex.skipBlank verbose cs with
      | nil =>
        rw [parseMembers?, hcs] at hread
        cases hread
      | cons c rest =>
        rw [hcs] at hbegun
        have hbegun := hbegun.resolve_left (List.cons_ne_nil _ _)
        obtain ⟨others, hds, hrest⟩ := hbegun.uncons
        rw [hds] at hbegun
        by_cases hclose : c = ']'
        · subst hclose
          rw [parseMembers?, hcs] at hread
          rw [parseMembers?, hds] at hread'
          cases hread
          cases hread'
          exact hrest.imp_right fun hleft => ⟨rfl, hleft⟩
        by_cases hopen : c = '['
        · subst hopen
          obtain ⟨_, heq, hinner⟩ := hbegun.uncons_inside (by decide)
          cases heq
          cases hposix : parsePosix? rest with
          | some found =>
            obtain ⟨left', hposix', hleft⟩ := hinner.parsePosix hposix
            rw [parseMembers?, hcs] at hread
            rw [parseMembers?, hds] at hread'
            simp only [hposix] at hread
            simp only [hposix'] at hread'
            exact ih (.inr hleft) hread hread'
          | none =>
            rw [parseMembers_shown_nested hcs hposix] at hread
            rw [parseMembers_shown_nested hds (hinner.parsePosix_none hposix)] at hread'
            obtain ⟨opened, hopened, hread⟩ := Option.bind_eq_some_iff.mp hread
            obtain ⟨opened', hopened', hread'⟩ := Option.bind_eq_some_iff.mp hread'
            obtain ⟨body, hbody, hread⟩ := Option.bind_eq_some_iff.mp hread
            obtain ⟨body', hbody', hread'⟩ := Option.bind_eq_some_iff.mp hread'
            rcases hrest.openClass hopened hopened' with hnil | ⟨hsign, hlead, hleft⟩
            · rw [hnil, parseMembers_nil] at hbody
              cases hbody
            · rw [hlead] at hbody'
              rcases ih (.inr hleft) hbody hbody' with hnil | ⟨hset, hleft⟩
              · rw [hnil, parseMembers_nil] at hread
                cases hread
              · rw [hsign, hset] at hread'
                exact ih (.inr hleft) hread hread'
        by_cases hdoubled : rest.head? = some c ∧ doubledOp? c ≠ none
        · obtain ⟨hhead, hop⟩ := hdoubled
          obtain ⟨op, hop⟩ := Option.ne_none_iff_exists'.mp hop
          obtain ⟨rest, rfl⟩ := List.head?_eq_some_iff.mp hhead
          obtain ⟨others, rfl, hinner⟩ := (hrest.resolve_left (List.cons_ne_nil _ _)).uncons
          rw [parseMembers_shown_op hop hcs] at hread
          rw [parseMembers_shown_op hop hds] at hread'
          exact ih hinner hread hread'
        · have hop : rest.head? = some c → doubledOp? c = none := by simpa using hdoubled
          have hop' : others.head? = some c → doubledOp? c = none := by
            intro hhead
            by_cases hlast : c = ')'
            · rw [hlast]
              rfl
            · obtain ⟨_, heq, hinner⟩ := hbegun.uncons_inside hlast
              cases heq
              exact hop (hinner.head?_eq ▸ hhead)
          rw [parseMembers_shown_item hcs hopen hclose hop] at hread
          rw [parseMembers_shown_item hds hopen hclose hop'] at hread'
          obtain ⟨item, hitem, hread⟩ := Option.bind_eq_some_iff.mp hread
          obtain ⟨item', hitem', hread'⟩ := Option.bind_eq_some_iff.mp hread'
          rcases LongerOn.parseRange (.inr hbegun) hitem hitem' with hnil | ⟨hsame, hleft⟩
          · rw [hnil, parseMembers_nil] at hread
            cases hread
          · rw [hsame] at hread'
            exact ih (.inr hleft) hread hread'

theorem LongerOn.parseClass (h : LongerOn more cs ds) {found found' : ClassSet × List Char}
    (hread : parseClass? verbose cs = some found) (hread' : parseClass? verbose ds = some found') :
    Alike more found found' := by
  obtain ⟨opened, hopened, hread⟩ := Option.bind_eq_some_iff.mp hread
  obtain ⟨opened', hopened', hread'⟩ := Option.bind_eq_some_iff.mp hread'
  obtain ⟨body, hbody, hread⟩ := Option.bind_eq_some_iff.mp hread
  obtain ⟨body', hbody', hread'⟩ := Option.bind_eq_some_iff.mp hread'
  cases hread
  cases hread'
  rcases h.openClass hopened hopened' with hnil | ⟨hsign, hlead, hleft⟩
  · rw [hnil, parseMembers_nil] at hbody
    cases hbody
  · rw [hlead] at hbody'
    refine (LongerOn.parseMembers (.inr hleft) hbody hbody').imp_right
      (And.imp_left fun hset => ?_)
    rw [hsign, hset]

end Highlighter.Regex
