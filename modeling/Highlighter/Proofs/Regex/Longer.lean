import Highlighter.Proofs.Regex.Context
import Highlighter.Proofs.Regex.Regular.OneChar

/-!
# Texts with more after them

Where a text has been read up to its closing parenthesis, it does not matter what stands after that.
`Longer` relates the two texts, and the readers of pieces and classes go through both side by side:
if the first one leaves something, in particular its closing parenthesis, the second one has read
the same (`Alike`). This also holds of verbose patterns.
-/

set_option autoImplicit false

namespace Highlighter.Regex

open Pattern (negation)

/-- A text up to its closing parenthesis, and the same text with `more` after it. -/
inductive Longer (more : List Char) : List Char → List Char → Prop where
  | close : Longer more [')'] (')' :: more)
  | char (c : Char) {cs ds : List Char} (hrest : Longer more cs ds) :
    Longer more (c :: cs) (c :: ds)

/-- Both texts go on alike, unless the first one is at its end. -/
def LongerOn (more cs ds : List Char) : Prop := cs = [] ∨ Longer more cs ds

/-- The same is found in both texts, unless the first one is at its end. -/
def Alike {α : Type} (more : List Char) (found later : α × List Char) : Prop :=
  found.2 = [] ∨ later.1 = found.1 ∧ Longer more found.2 later.2

variable {more cs ds : List Char} {c : Char} {verbose : Bool}

theorem Alike.longerOn {α : Type} {found later : α × List Char} (h : Alike more found later) :
    LongerOn more found.2 later.2 := h.imp_right And.right

namespace Longer

theorem ne_nil (h : Longer more cs ds) : cs ≠ [] := by
  cases h <;> exact List.cons_ne_nil _ _

theorem head?_eq (h : Longer more cs ds) : ds.head? = cs.head? := by
  cases h <;> rfl

theorem eq_of_close (h : Longer more [')'] ds) : ds = ')' :: more := by
  cases h with
  | close => rfl
  | char _ hrest => exact absurd rfl hrest.ne_nil

theorem uncons (h : Longer more (c :: cs) ds) :
    ∃ others, ds = c :: others ∧ LongerOn more cs others := by
  cases h with
  | close => exact ⟨more, rfl, .inl rfl⟩
  | char _ hrest => exact ⟨_, rfl, .inr hrest⟩

theorem uncons_inside (h : Longer more (c :: cs) ds) (hclose : c ≠ ')') :
    ∃ others, ds = c :: others ∧ Longer more cs others := by
  cases h with
  | close => exact absurd rfl hclose
  | char _ hrest => exact ⟨_, rfl, hrest⟩

theorem uncons_right (h : Longer more cs (c :: ds)) (hclose : c ≠ ')') :
    ∃ others, cs = c :: others ∧ Longer more others ds := by
  cases h with
  | close => exact absurd rfl hclose
  | char _ hrest => exact ⟨_, rfl, hrest⟩

/-- The run that a test takes comes to its end inside the first text. -/
theorem run {test : Char → Bool} (h : Longer more cs ds) (hclose : test ')' = false) :
    ds.takeWhile test = cs.takeWhile test ∧
      Longer more (cs.dropWhile test) (ds.dropWhile test) := by
  induction h with
  | close =>
    rw [List.takeWhile_cons_of_neg (by simp [hclose]),
      List.takeWhile_cons_of_neg (by simp [hclose]),
      List.dropWhile_cons_of_neg (by simp [hclose]), List.dropWhile_cons_of_neg (by simp [hclose])]
    exact ⟨rfl, .close⟩
  | char c hrest ih =>
    cases htest : test c with
    | true =>
      rw [List.takeWhile_cons_of_pos htest, List.takeWhile_cons_of_pos htest,
        List.dropWhile_cons_of_pos htest, List.dropWhile_cons_of_pos htest, ih.1]
      exact ⟨rfl, ih.2⟩
    | false =>
      rw [List.takeWhile_cons_of_neg (by simp [htest]),
        List.takeWhile_cons_of_neg (by simp [htest]),
        List.dropWhile_cons_of_neg (by simp [htest]), List.dropWhile_cons_of_neg (by simp [htest])]
      exact ⟨rfl, .char c hrest⟩

end Longer

/-! ### Blanks and codes -/

theorem LongerOn.skipVerbose (h : LongerOn more cs ds) (inComment : Bool) :
    LongerOn more (skipVerbose inComment cs) (skipVerbose inComment ds) := by
  rcases h with rfl | h
  · exact .inl rfl
  · induction h generalizing inComment with
    | close =>
      cases inComment with
      | false => exact .inr .close
      | true => exact .inl rfl
    | char c hrest ih =>
      rw [Regex.skipVerbose, Regex.skipVerbose]
      split
      · exact ih _
      · split
        · exact ih _
        · split
          · exact ih _
          · exact .inr (.char c hrest)

theorem LongerOn.skipBlank (h : LongerOn more cs ds) (verbose : Bool) :
    LongerOn more (skipBlank verbose cs) (skipBlank verbose ds) := by
  cases verbose with
  | false => exact h
  | true => exact h.skipVerbose false

theorem LongerOn.parseHexDigits (h : LongerOn more cs ds) {count value : Nat}
    {found found' : Nat × List Char} (hread : parseHexDigits? verbose count value cs = some found)
    (hread' : parseHexDigits? verbose count value ds = some found') : Alike more found found' := by
  induction count generalizing value cs ds with
  | zero =>
    cases hread
    cases hread'
    exact h.imp_right fun h => ⟨rfl, h⟩
  | succ count ih =>
    rcases h with rfl | h
    · cases hread
    · cases cs with
      | nil => cases hread
      | cons c cs =>
        obtain ⟨others, rfl, hrest⟩ := h.uncons
        obtain ⟨digit, hdigit, hread⟩ := Option.bind_eq_some_iff.mp hread
        obtain ⟨digit', hdigit', hread'⟩ := Option.bind_eq_some_iff.mp hread'
        rw [hdigit] at hdigit'
        cases hdigit'
        exact ih (hrest.skipBlank verbose) hread hread'

theorem LongerOn.untilBrace (h : LongerOn more cs ds) {steps steps' : Nat}
    {found found' : List Char × List Char} (hread : untilBrace? verbose steps cs = some found)
    (hread' : untilBrace? verbose steps' ds = some found') : Alike more found found' := by
  induction steps generalizing steps' cs ds found found' with
  | zero => cases hread
  | succ steps ih =>
    cases steps' with
    | zero => cases hread'
    | succ steps' =>
      rw [untilBrace?] at hread hread'
      have hshown := h.skipBlank verbose
      generalize Regex.skipBlank verbose cs = shown at hread hshown
      generalize Regex.skipBlank verbose ds = shown' at hread' hshown
      rcases hshown with rfl | hshown
      · cases hread
      cases shown with
      | nil => cases hread
      | cons c rest =>
        obtain ⟨others, rfl, hrest⟩ := hshown.uncons
        by_cases hbrace : c = '}'
        · subst hbrace
          cases hread
          cases hread'
          exact hrest.imp_right fun hrest => ⟨rfl, hrest⟩
        · simp only at hread hread'
          obtain ⟨inner, hinner, hread⟩ := Option.bind_eq_some_iff.mp hread
          obtain ⟨inner', hinner', hread'⟩ := Option.bind_eq_some_iff.mp hread'
          cases hread
          cases hread'
          exact (ih hrest hinner hinner').imp_right (And.imp_left (congrArg (c :: ·)))

theorem parseCode_brace {digits : Nat} {rest : List Char}
    (h : skipBlank verbose cs = '\x7b' :: rest) :
    parseCode? verbose digits cs
      = (untilBrace? verbose (rest.length + 1) rest).bind fun found =>
          ((hexNumber? found.1).bind charOfCode?).map fun c =>
            (.literal c false, skipBlank verbose found.2) := by
  rw [parseCode?, h]
  show (untilBrace? verbose (rest.length + 1) rest).bind _ = _
  refine congrArg _ (funext fun found => ?_)
  rw [Option.map_eq_bind, Option.bind_assoc]
  rfl

theorem parseCode_fixed {digits : Nat} (h : ∀ rest, skipBlank verbose cs = '\x7b' :: rest → False) :
    parseCode? verbose digits cs
      = (parseHexDigits? verbose digits 0 (skipBlank verbose cs)).bind fun found =>
          (charOfCode? found.1).map fun c => (.literal c (digits == 2), found.2) := by
  rw [parseCode?]
  generalize skipBlank verbose cs = shown at h
  split
  · exact (h _ rfl).elim
  · show (parseHexDigits? verbose digits 0 shown).bind _ = _
    refine congrArg _ (funext fun found => ?_)
    rw [Option.map_eq_bind]
    rfl

theorem skipBlank_nil (verbose : Bool) : skipBlank verbose [] = [] := by
  cases verbose <;> rfl

theorem LongerOn.parseCode (h : LongerOn more cs ds) {digits : Nat}
    {found found' : Primitive × List Char}
    (hread : parseCode? verbose digits cs = some found)
    (hread' : parseCode? verbose digits ds = some found') : Alike more found found' := by
  have hshown := h.skipBlank verbose
  by_cases hbrace : ∃ rest, Regex.skipBlank verbose cs = '\x7b' :: rest
  · obtain ⟨rest, hrest⟩ := hbrace
    rw [hrest] at hshown
    obtain ⟨others, hothers, hinner⟩ := (hshown.resolve_left (List.cons_ne_nil _ _)).uncons
    rw [parseCode_brace hrest] at hread
    rw [parseCode_brace hothers] at hread'
    obtain ⟨body, hbody, hread⟩ := Option.bind_eq_some_iff.mp hread
    obtain ⟨body', hbody', hread'⟩ := Option.bind_eq_some_iff.mp hread'
    obtain ⟨c, hc, rfl⟩ := Option.map_eq_some_iff.mp hread
    obtain ⟨c', hc', rfl⟩ := Option.map_eq_some_iff.mp hread'
    rcases hinner.untilBrace hbody hbody' with hnil | ⟨hsame, hleft⟩
    · refine .inl ?_
      rw [hnil]
      exact skipBlank_nil verbose
    · rw [hsame, hc] at hc'
      cases hc'
      exact (LongerOn.skipBlank (.inr hleft) verbose).imp_right fun hleft => ⟨rfl, hleft⟩
  · have hfixed : parseCode? verbose digits cs = _ :=
      parseCode_fixed fun rest hrest => hbrace ⟨rest, hrest⟩
    rw [hfixed] at hread
    obtain ⟨code, hcode, hread⟩ := Option.bind_eq_some_iff.mp hread
    obtain ⟨c, hc, rfl⟩ := Option.map_eq_some_iff.mp hread
    rcases hshown with hnil | hshown
    · refine .inl ?_
      rw [hnil] at hcode
      cases digits with
      | zero =>
        cases hcode
        rfl
      | succ digits => cases hcode
    · rw [parseCode_fixed] at hread'
      · obtain ⟨code', hcode', hread'⟩ := Option.bind_eq_some_iff.mp hread'
        obtain ⟨c', hc', rfl⟩ := Option.map_eq_some_iff.mp hread'
        refine (LongerOn.parseHexDigits (.inr hshown) hcode hcode').imp_right
          (And.imp_left fun hsame => ?_)
        rw [hsame, hc] at hc'
        cases hc'
        rfl
      · intro rest hrest
        rw [hrest] at hshown
        obtain ⟨others, hothers, -⟩ := hshown.uncons_right (by decide)
        exact hbrace ⟨others, hothers⟩

/-! ### Escapes -/

theorem LongerOn.parseProperty (h : LongerOn more cs ds) {negated : Bool}
    {found found' : Primitive × List Char} (hread : parseProperty? verbose negated cs = some found)
    (hread' : parseProperty? verbose negated ds = some found') : Alike more found found' := by
  rw [parseProperty?] at hread hread'
  have hshown := h.skipBlank verbose
  generalize Regex.skipBlank verbose cs = shown at hread hshown
  generalize Regex.skipBlank verbose ds = shown' at hread' hshown
  rcases hshown with rfl | hshown
  · cases hread
  split at hread
  · cases hread
  · obtain ⟨others, rfl, hrest⟩ := hshown.uncons
    obtain ⟨body, hbody, hread⟩ := Option.bind_eq_some_iff.mp hread
    obtain ⟨body', hbody', hread'⟩ := Option.bind_eq_some_iff.mp hread'
    cases hread
    cases hread'
    refine (hrest.untilBrace hbody hbody').imp_right (And.imp_left fun hsame => ?_)
    rw [hsame]
  · cases hread
  · rename_i c rest hbrace hslash
    obtain ⟨others, rfl, hrest⟩ := hshown.uncons
    split at hread'
    · cases hread'
    · rename_i heq
      exact (hbrace (List.cons.inj heq).1).elim
    · rename_i heq
      exact (hslash (List.cons.inj heq).1).elim
    · rename_i heq
      cases heq
      cases hread
      cases hread'
      exact (hrest.skipBlank verbose).imp_right fun hleft => ⟨rfl, hleft⟩

theorem length_skipBlank_le (verbose : Bool) (cs : List Char) :
    (skipBlank verbose cs).length ≤ cs.length := by
  cases verbose with
  | false => exact Nat.le_refl _
  | true => exact length_skipVerbose_le false cs

theorem LongerOn.boundaryName (h : LongerOn more cs ds) (verbose : Bool) {steps steps' : Nat}
    (hsteps : cs.length ≤ steps) (hsteps' : ds.length ≤ steps') :
    Alike more (boundaryName verbose steps cs) (boundaryName verbose steps' ds) := by
  induction steps generalizing steps' cs ds with
  | zero => exact .inl (List.eq_nil_of_length_eq_zero (Nat.le_zero.mp hsteps))
  | succ steps ih =>
    rcases h with rfl | h
    · exact .inl rfl
    cases cs with
    | nil => exact .inl rfl
    | cons c cs =>
      obtain ⟨others, rfl, hrest⟩ := h.uncons
      cases steps' with
      | zero => exact absurd hsteps' (by simp)
      | succ steps' =>
        rw [List.length_cons] at hsteps hsteps'
        rw [Regex.boundaryName, Regex.boundaryName]
        cases hname : isBoundaryNameChar c with
        | false => exact .inr ⟨rfl, h⟩
        | true =>
          have hle := length_skipBlank_le verbose cs
          have hle' := length_skipBlank_le verbose others
          exact (ih (hrest.skipBlank verbose) (by omega) (by omega)).imp_right
            (And.imp_left (congrArg (c :: ·)))

theorem boundaryNamed_eq (name : String) (rest : List Char) :
    (match name with
      | "start" => some (Primitive.anchor .wordStart, rest)
      | "end" => some (.anchor .wordEnd, rest)
      | "start-half" => some (.anchor .wordStartHalf, rest)
      | "end-half" => some (.anchor .wordEndHalf, rest)
      | _ => none) = (boundaryNamed? name).map fun sign => (.anchor sign, rest) := by
  split
  · rfl
  · rfl
  · rfl
  · rfl
  · rename_i hstart hend hstartHalf hendHalf
    rw [boundaryNamed?, if_neg hstart, if_neg hend, if_neg hstartHalf, if_neg hendHalf]
    rfl

theorem LongerOn.parseBoundary (h : LongerOn more cs ds) {found found' : Primitive × List Char}
    (hread : parseBoundary? verbose cs = some found)
    (hread' : parseBoundary? verbose ds = some found') : Alike more found found' := by
  rcases h with rfl | h
  · cases hread
    exact .inl rfl
  by_cases hbrace : ∃ rest, cs = '\x7b' :: rest
  · obtain ⟨rest, rfl⟩ := hbrace
    obtain ⟨others, rfl, hrest⟩ := h.uncons_inside (by decide)
    rw [parseBoundary?] at hread hread'
    have hshown := LongerOn.skipBlank (.inr hrest) verbose
    generalize Regex.skipBlank verbose rest = shown at hread hshown
    generalize Regex.skipBlank verbose others = shown' at hread' hshown
    rcases hshown with rfl | hshown
    · cases hread
    cases shown with
    | nil => cases hread
    | cons c inner =>
      obtain ⟨inner', rfl, -⟩ := hshown.uncons
      dsimp only at hread hread'
      cases hname : isBoundaryNameChar c with
      | false =>
        rw [hname] at hread hread'
        cases hread
        cases hread'
        exact .inr ⟨rfl, h⟩
      | true =>
        rw [hname] at hread hread'
        simp only [Bool.not_true, Bool.false_eq_true, if_false] at hread hread'
        have hnames := LongerOn.boundaryName (.inr hshown) verbose
          (Nat.le_refl (inner.length + 1)) (Nat.le_refl (inner'.length + 1))
        generalize Regex.boundaryName verbose (inner.length + 1) (c :: inner) = name
          at hread hnames
        generalize Regex.boundaryName verbose (inner'.length + 1) (c :: inner') = name'
          at hread' hnames
        split at hread
        · rename_i letters after
          obtain ⟨hsame, hleft⟩ := hnames.resolve_left (List.cons_ne_nil _ _)
          obtain ⟨after', hafter, hinside⟩ := hleft.uncons_inside (by decide)
          obtain ⟨letters', left'⟩ := name'
          cases hsame
          cases hafter
          have hread := (boundaryNamed_eq _ after).symm.trans hread
          have hread' := (boundaryNamed_eq _ after').symm.trans hread'
          obtain ⟨sign, hsign, rfl⟩ := Option.map_eq_some_iff.mp hread
          rw [hsign] at hread'
          cases hread'
          exact .inr ⟨rfl, hinside⟩
        · cases hread
  · have hplain : ∀ {cs : List Char}, (∀ rest, cs = '\x7b' :: rest → False) →
        parseBoundary? verbose cs = some (.anchor .wordBoundary, cs) := by
      intro cs hbrace
      rw [parseBoundary?]
      exact hbrace
    rw [hplain fun rest hrest => hbrace ⟨rest, hrest⟩] at hread
    rw [hplain] at hread'
    · cases hread
      cases hread'
      exact .inr ⟨rfl, h⟩
    · rintro rest rfl
      obtain ⟨others, rfl, -⟩ := h.uncons_right (by decide)
      exact hbrace ⟨others, rfl⟩

theorem LongerOn.parseEscape (h : LongerOn more cs ds) {found found' : Primitive × List Char}
    (hread : parseEscape? verbose cs = some found)
    (hread' : parseEscape? verbose ds = some found') : Alike more found found' := by
  rcases h with rfl | h
  · cases hread
  cases cs with
  | nil => cases hread
  | cons c cs =>
    obtain ⟨others, rfl, hrest⟩ := h.uncons
    have hplain : ∀ piece : Primitive, some (piece, cs) = some found →
        some (piece, others) = some found' → Alike more found found' := by
      intro piece hread hread'
      cases hread
      cases hread'
      exact hrest.imp_right fun hrest => ⟨rfl, hrest⟩
    have hwhole := hread'
    unfold parseEscape? at hread hread'
    dsimp only at hread hread'
    split at hread
    case h_1 | h_2 | h_3 => exact hrest.parseCode hread hread'
    case h_4 | h_5 => exact hrest.parseProperty hread hread'
    case h_20 => exact hrest.parseBoundary hread hread'
    case h_24 =>
      split at hread
      · rename_i hescapable
        rw [parseEscape?, if_pos hescapable] at hwhole
        · exact hplain _ hread hwhole
        all_goals assumption
      · cases hread
    all_goals exact hplain _ hread hread'

theorem LongerOn.parsePrimitive (h : LongerOn more cs ds) {found found' : Primitive × List Char}
    (hread : parsePrimitive? verbose cs = some found)
    (hread' : parsePrimitive? verbose ds = some found') : Alike more found found' := by
  rcases h with rfl | h
  · cases hread
  cases cs with
  | nil => cases hread
  | cons c cs =>
    obtain ⟨others, rfl, hrest⟩ := h.uncons
    have hplain : ∀ piece : Primitive, some (piece, cs) = some found →
        some (piece, others) = some found' → Alike more found found' := by
      intro piece hread hread'
      cases hread
      cases hread'
      exact hrest.imp_right fun hrest => ⟨rfl, hrest⟩
    have hwhole := hread'
    unfold parsePrimitive? at hread hread'
    split at hread
    case h_1 heq => cases heq
    case h_2 heq =>
      cases heq
      exact hrest.parseEscape hread hread'
    case h_6 heq =>
      cases heq
      rw [parsePrimitive?] at hwhole
      · exact hplain _ hread hwhole
      all_goals assumption
    all_goals
      rename_i heq
      cases heq
      exact hplain _ hread hread'

end Highlighter.Regex
