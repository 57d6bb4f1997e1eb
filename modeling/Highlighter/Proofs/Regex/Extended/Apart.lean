import Highlighter.Proofs.Regex.Extended.RenumberedCounts

/-!
# Pieces before more text

An escape or a class that is read to its end by itself is read just so before any more text,
whatever the reader has met before (`parseEscape_append`, `parseBracket_append`). Only whether
letter case counts is up to the reader. References are left out here, as their meaning depends on
the groups that have opened, and a word boundary must not run into a brace.

Flags are read by their letters (`parseFlags_letters`). Bounds reach no further than their closing
brace, so they are read alike from two texts that go on alike up to there (`CountsAlike`).
-/

set_option autoImplicit false

namespace Highlighter.Regex.Extended

open Pattern

variable {cs left : List Char} {c : Char} {reading after : Reading}

/-! ### Codes and properties -/

theorem takeWhile_append_of_dropWhile {test : Char → Bool} (h : cs.dropWhile test = c :: left)
    (more : List Char) : (cs ++ more).takeWhile test = cs.takeWhile test ∧
      (cs ++ more).dropWhile test = c :: (left ++ more) := by
  have hall : ∀ d ∈ cs.takeWhile test, test d = true := List.all_eq_true.mp List.all_takeWhile
  have hstop : test c = false := by
    have hhead := List.head?_dropWhile_not test cs
    rw [h] at hhead
    simpa using hhead
  have hsplit : cs ++ more = cs.takeWhile test ++ c :: (left ++ more) := by
    rw [← List.cons_append, ← h, ← List.append_assoc, List.takeWhile_append_dropWhile]
  rw [hsplit, List.takeWhile_append_of_pos hall, List.dropWhile_append_of_pos hall,
    List.takeWhile_cons_of_neg (by simp [hstop]), List.dropWhile_cons_of_neg (by simp [hstop]),
    List.append_nil]
  exact ⟨rfl, rfl⟩

theorem bracedCode_append (h : bracedCode? cs = some (c, left)) (more : List Char) :
    bracedCode? (cs ++ more) = some (c, left ++ more) := by
  unfold bracedCode? at h
  split at h
  · rename_i rest
    simp only [drop_takeWhile] at h
    split at h
    · rename_i after hafter
      obtain ⟨htake, hdrop⟩ := takeWhile_append_of_dropWhile hafter more
      rw [← drop_takeWhile, htake] at hdrop
      rw [List.cons_append, bracedCode?]
      simp only [htake, hdrop]
      split at h
      · rename_i hle
        obtain ⟨found, hfound, heq⟩ := Option.map_eq_some_iff.mp h
        cases heq
        rw [if_pos hle, hfound]
        rfl
      · cases h
    · cases h
  · cases h

theorem parseCode_append {digits : Nat} (hdigits : digits ≠ 0)
    (h : parseCode? digits cs = some (c, left)) (more : List Char) :
    parseCode? digits (cs ++ more) = some (c, left ++ more) := by
  by_cases hfixed : (cs.take digits).length = digits ∧ ∀ c ∈ cs.take digits, isHexDigit c = true
  · obtain ⟨hlength, hhex⟩ := hfixed
    have hread := parseCode_digits hhex
    rw [hlength] at hread
    rw [← List.take_append_drop digits cs, hread] at h
    rw [← List.take_append_drop digits cs, List.append_assoc, hread]
    obtain ⟨found, hfound, heq⟩ := Option.map_eq_some_iff.mp h
    cases heq
    rw [hfound]
    rfl
  · rw [parseCode_otherwise hfixed] at h
    rw [parseCode_otherwise, bracedCode_append h]
    -- A code in braces starts with a brace, so there are still no digits.
    rintro ⟨-, hhex⟩
    unfold bracedCode? at h
    split at h
    · obtain ⟨count, rfl⟩ := Nat.exists_eq_succ_of_ne_zero hdigits
      exact absurd (hhex '{' List.mem_cons_self) (by decide)
    · cases h

theorem parsePropertyText_append {text : List Char} (h : parsePropertyText? cs = some (text, left))
    (more : List Char) : parsePropertyText? (cs ++ more) = some (text, left ++ more) := by
  unfold parsePropertyText? at h
  split at h
  · cases h
  · rename_i rest
    split at h
    · rename_i after hafter
      cases h
      obtain ⟨htake, hdrop⟩ := takeWhile_append_of_dropWhile hafter more
      simp only [List.cons_append, parsePropertyText?, htake, hdrop]
    · cases h
  · rename_i d rest hbrace
    cases h
    rw [List.cons_append, parsePropertyText?]
    exact hbrace

/-! ### Escapes -/

/-- Escapes that differ at most in whether letter case counts. -/
inductive Escape.Alike : Escape → Escape → Prop where
  | same (escape : Escape) : Alike escape escape
  | char (c : Char) (ignoreCase other : Bool) : Alike (.char c ignoreCase) (.char c other)

theorem Escape.Alike.of_both {escape first second : Escape} (h : escape.Alike first)
    (h' : escape.Alike second) : first.Alike second := by
  cases h with
  | same => exact h'
  | char c ignoreCase other =>
    cases h' with
    | same => exact .char c other ignoreCase
    | char _ _ last => exact .char c other last

theorem parseAssertion_append (hdigit : c.isDigit = false) (hname : c ≠ 'k') {escape : Escape}
    (h : parseAssertion? reading (c :: cs) = some (escape, after, left)) {more : List Char}
    (hmore : c = 'b' ∨ c = 'B' → more.head? ≠ some '{') (reading' : Reading) :
    parseAssertion? reading' (c :: (cs ++ more)) = some (escape, reading', left ++ more) := by
  have hbrace : (c = 'b' ∨ c = 'B') → (∀ rest, cs ≠ '{' :: rest) →
      ∀ rest, cs ++ more ≠ '{' :: rest := by
    intro hc hne rest heq
    cases cs with
    | nil => exact hmore hc (congrArg List.head? heq)
    | cons d others => exact hne others (by rw [(List.cons.inj heq).1])
  unfold parseAssertion? at h
  split at h
  case h_5 rest hne heq =>
    cases heq
    cases h
    rw [parseAssertion?]
    exact hbrace (.inl rfl) fun rest heq => hne rest (by rw [heq])
  case h_6 rest hne heq =>
    cases heq
    cases h
    rw [parseAssertion?]
    exact hbrace (.inr rfl) fun rest heq => hne rest (by rw [heq])
  case h_11 heq => exact absurd (List.cons.inj heq).1 hname
  case h_12 heq => exact absurd (List.cons.inj heq).1 hname
  case h_13 heq =>
    cases heq
    rw [if_neg (by simp [hdigit])] at h
    cases h
  case h_14 heq => cases heq
  all_goals
    rename_i heq
    cases heq
    cases h
  all_goals rfl

/-- An escape that is no reference is read before more text as well. -/
theorem parseEscape_append {inClass : Bool} {escape : Escape}
    (h : parseEscape? reading inClass (c :: cs) = some (escape, after, left))
    (hplain : inClass = false → c.isDigit = false ∧ c ≠ 'k') (more : List Char)
    (hmore : inClass = false → c = 'b' ∨ c = 'B' → more.head? ≠ some '{') (reading' : Reading) :
    ∃ escape', escape.Alike escape' ∧ parseEscape? reading' inClass (c :: (cs ++ more))
      = some (escape', reading', left ++ more) := by
  have hcode : ∀ {digits : Nat}, digits ≠ 0 →
      parseEscape?.code reading digits cs = some (escape, after, left) →
      ∃ escape', escape.Alike escape' ∧ parseEscape?.code reading' digits (cs ++ more)
        = some (escape', reading', left ++ more) := by
    intro digits hdigits hread
    obtain ⟨⟨d, rest⟩, hd, heq⟩ := Option.bind_eq_some_iff.mp hread
    cases heq
    refine ⟨_, .char d _ reading'.flags.ignoreCase, ?_⟩
    rw [parseEscape?.code, parseCode_append hdigits hd]
    rfl
  have hnamed : ∀ {letter : Char},
      parseEscape?.property reading letter cs = some (escape, after, left) →
      ∃ escape', escape.Alike escape' ∧
        parseEscape?.property reading' letter (cs ++ more)
          = some (escape', reading', left ++ more) := by
    intro letter hread
    obtain ⟨⟨text, rest⟩, htext, heq⟩ := Option.bind_eq_some_iff.mp hread
    cases heq
    refine ⟨_, .same _, ?_⟩
    rw [parseEscape?.property, parsePropertyText_append htext]
    rfl
  by_cases hassertion : (!inClass && startsAssertion c) = true
  · have hassert : ∀ (reading : Reading) (cs : List Char),
        parseEscape? reading inClass (c :: cs) = parseAssertion? reading (c :: cs) :=
      fun _ _ => if_pos hassertion
    have houtside : inClass = false := by
      simpa using (Bool.and_eq_true_iff.mp hassertion).1
    rw [hassert] at h
    rw [hassert]
    exact ⟨escape, .same _, parseAssertion_append (hplain houtside).1 (hplain houtside).2 h
      (hmore houtside) reading'⟩
  · unfold parseEscape? at h ⊢
    dsimp only at h ⊢
    rw [if_neg hassertion] at h ⊢
    split at h
    · cases h
    · rename_i hdigit
      rw [if_neg hdigit]
      split at h
      · exact hcode (by decide) h
      · exact hcode (by decide) h
      · exact hcode (by decide) h
      · exact hnamed h
      · exact hnamed h
      · obtain ⟨plain, hplain, heq⟩ := Option.bind_eq_some_iff.mp h
        cases heq
        refine ⟨escape, .same _, ?_⟩
        rw [hplain]
        rfl

/-! ### Classes -/

theorem classEscape_append {text : List Char} (h : classEscape? cs = some (text, left))
    (more : List Char) : classEscape? (cs ++ more) = some (text, left ++ more) := by
  obtain ⟨⟨escape, after, rest⟩, hescape, htext⟩ := Option.bind_eq_some_iff.mp h
  obtain ⟨written, hwritten, heq⟩ := Option.map_eq_some_iff.mp htext
  cases heq
  cases cs with
  | nil => cases hescape
  | cons c cs =>
    obtain ⟨escape', halike, hread⟩ := parseEscape_append hescape nofun more nofun .blank
    have hwritten : escape'.classText? = some text := by
      cases halike with
      | same => exact hwritten
      | char => exact hwritten
    rw [List.cons_append, classEscape?, hread, Option.bind_some, hwritten]
    rfl

/-- A class is resolved up to its closing bracket, whatever comes after it. -/
theorem classText_append {depth steps steps' : Nat} {text : List Char}
    (h : classText? reading depth steps cs = some (text, left)) (hsteps : steps ≤ steps')
    (more : List Char) (reading' : Reading) :
    classText? reading' depth steps' (cs ++ more) = some (text, left ++ more) := by
  induction steps generalizing depth steps' cs text with
  | zero => cases h
  | succ steps ih =>
    obtain ⟨steps', rfl⟩ := Nat.exists_eq_add_one.mpr (Nat.lt_of_lt_of_le steps.succ_pos hsteps)
    have hsteps := Nat.le_of_succ_le_succ hsteps
    cases cs with
    | nil => cases h
    | cons c cs =>
      rw [List.cons_append]
      by_cases hslash : c = '\\'
      · subst hslash
        rw [classText_escape] at h ⊢
        obtain ⟨⟨written, rest⟩, hescape, h⟩ := Option.bind_eq_some_iff.mp h
        obtain ⟨⟨others, rest'⟩, hothers, heq⟩ := Option.map_eq_some_iff.mp h
        cases heq
        rw [classEscape_append hescape, Option.bind_some, ih hothers hsteps]
        rfl
      · rw [classText_cons hslash] at h ⊢
        split
        · rename_i hclose
          rw [if_pos hclose] at h
          cases h
          rfl
        · rename_i hopen
          rw [if_neg hopen] at h
          obtain ⟨⟨others, rest'⟩, hothers, heq⟩ := Option.map_eq_some_iff.mp h
          cases heq
          rw [ih hothers hsteps]
          rfl

theorem openBracket_append (h : (openBracket cs).2 ≠ []) (more : List Char) :
    openBracket (cs ++ more) = ((openBracket cs).1, (openBracket cs).2 ++ more) := by
  rcases cs with _ | ⟨c, _ | ⟨d, rest⟩⟩
  · exact absurd rfl h
  · by_cases hcaret : c = '^'
    · subst hcaret
      exact absurd rfl h
    · by_cases hclose : c = ']'
      · subst hclose
        exact absurd rfl h
      · have hhead : ∀ {mark : Char}, c ≠ mark → ∀ others : List Char,
            (c :: others).head? ≠ some mark := fun hne _ heq => hne (Option.some.inj heq)
        rw [openBracket_plain (hhead hcaret []) (hhead hclose []), List.cons_append,
          openBracket_plain (hhead hcaret _) (hhead hclose _)]
  · have hsame : ∀ others : List Char, openBracket (c :: d :: others)
        = ((openBracket [c, d]).1, (openBracket [c, d]).2 ++ others) := by
      intro others
      by_cases hcaret : c = '^'
      · subst hcaret
        by_cases hclose : d = ']'
        · subst hclose
          rfl
        · have hhead : ∀ others : List Char, (d :: others).head? ≠ some ']' := fun _ heq =>
            hclose (Option.some.inj heq)
          rw [openBracket_caret (hhead _), openBracket_caret (hhead _)]
          rfl
      · by_cases hclose : c = ']'
        · subst hclose
          rfl
        · have hhead : ∀ {mark : Char}, c ≠ mark → ∀ others : List Char,
              (c :: others).head? ≠ some mark := fun hne _ heq => hne (Option.some.inj heq)
          rw [openBracket_plain (hhead hcaret _) (hhead hclose _),
            openBracket_plain (hhead hcaret _) (hhead hclose _)]
          rfl
    rw [List.cons_append, List.cons_append, hsame (rest ++ more), hsame rest, List.append_assoc]

/-- A class is read before more text as well. -/
theorem parseBracket_append {tree : Tree} (h : parseBracket? reading cs = some (tree, left)) :
    ∃ set, tree = .set set reading.flags.ignoreCase ∧ ∀ (reading' : Reading) (more : List Char),
      parseBracket? reading' (cs ++ more)
        = some (.set set reading'.flags.ignoreCase, left ++ more) := by
  rw [parseBracket_eq] at h
  obtain ⟨⟨text, rest⟩, htext, h⟩ := Option.bind_eq_some_iff.mp h
  obtain ⟨set, hset, heq⟩ := Option.map_eq_some_iff.mp h
  cases heq
  refine ⟨set, rfl, fun reading' more => ?_⟩
  have hne : (openBracket cs).2 ≠ [] := by
    intro hnil
    rw [hnil] at htext
    cases htext
  have hsteps : (openBracket cs).2.length + 1 ≤ ((openBracket cs).2 ++ more).length + 1 := by simp
  have htext' := classText_append htext hsteps more reading'
  rw [parseBracket_eq, openBracket_append hne]
  simp only [htext', Option.bind_some, hset]
  rfl

/-! ### Flags -/

/-- Flags end with a mark, unless a hyphen or nothing at all is left before it. -/
theorem parseFlags_mark {mark : Char} (hmark : mark = ':' ∨ mark = ')')
    (hverbose : reading.flags.verbose = false) (on : Bool) (previous : Option Char) (steps : Nat)
    (rest : List Char) :
    parseFlags? on previous reading (steps + 1) (mark :: rest)
      = if previous == some '-' || (mark == ')' && previous.isNone) then none
        else some (if mark = ')' then .flags else .flagged, reading, rest) := by
  have hshown : reading.skip? (mark :: rest) = some (mark :: rest) :=
    Reading.skip_eq hverbose (clean_cons (by rcases hmark with rfl | rfl <;> decide) rest)
  rw [parseFlags?]
  simp only [hshown, bind, Option.bind_some, beq_self_eq_true, if_true]
  rcases hmark with rfl | rfl
  · simp
  · simp [or_comm]

theorem parseFlags_hyphen (hverbose : reading.flags.verbose = false) (on : Bool)
    (previous : Option Char) (steps : Nat) (rest : List Char) :
    parseFlags? on previous reading (steps + 1) ('-' :: rest)
      = if on then parseFlags? false (some '-') reading steps rest else none := by
  have hshown : reading.skip? ('-' :: rest) = some ('-' :: rest) :=
    Reading.skip_eq hverbose (clean_cons (by decide) rest)
  rw [parseFlags?]
  simp only [hshown, bind, Option.bind_some]

theorem Flags.verbose_set {flags flags' : Flags} {on : Bool} (hc : c ≠ 'x')
    (h : flags.set? on c = some flags') : flags'.verbose = flags.verbose := by
  unfold Flags.set? at h
  split at h
  case h_5 => exact absurd rfl hc
  case h_6 =>
    split at h
    · cases h
      rfl
    · cases h
  all_goals cases h
  all_goals rfl

theorem Flags.isSome_set {flags flags' : Flags} {on : Bool} (h : flags.set? on c = some flags')
    (other : Flags) : ∃ other', other.set? on c = some other' := by
  unfold Flags.set? at h ⊢
  split at h
  case h_6 =>
    split at h
    · rename_i hon
      exact ⟨other, if_pos hon⟩
    · cases h
  case h_7 => cases h
  all_goals exact ⟨_, rfl⟩

/-- Flags other than the verbose one are read up to the mark that ends them, whatever comes after
it. -/
theorem parseFlags_letters {letters : List Char} {mark : Char} (hmark : mark = ':' ∨ mark = ')')
    (hletters : ∀ c ∈ letters, Part.isFlagChar c = true ∧ c ≠ 'x') {rest : List Char}
    (hverbose : reading.flags.verbose = false) {on : Bool} {previous : Option Char} {steps : Nat}
    {opening : Opening}
    (h : parseFlags? on previous reading steps (letters ++ mark :: rest)
      = some (opening, after, left)) :
    ((left = rest ∧ opening = if mark = ')' then .flags else .flagged) ∧
      after = { reading with flags := after.flags } ∧ after.flags.verbose = false) ∧
    ∀ (reading' : Reading) (more : List Char) (steps' : Nat), reading'.flags.verbose = false →
      letters.length < steps' → ∃ flags : Flags, flags.verbose = false ∧
        parseFlags? on previous reading' steps' (letters ++ mark :: more)
          = some (opening, { reading' with flags }, more) := by
  induction letters generalizing on previous reading steps with
  | nil =>
    cases steps with
    | zero => cases h
    | succ steps =>
      rw [List.nil_append, parseFlags_mark hmark hverbose] at h
      split at h
      · cases h
      · rename_i hprevious
        cases h
        refine ⟨⟨⟨rfl, rfl⟩, rfl, hverbose⟩, fun reading' more steps' hverbose' hsteps' => ?_⟩
        obtain ⟨steps', rfl⟩ := Nat.exists_eq_add_one.mpr hsteps'
        refine ⟨reading'.flags, hverbose', ?_⟩
        rw [List.nil_append, parseFlags_mark hmark hverbose', if_neg hprevious]
  | cons c letters ih =>
    cases steps with
    | zero => cases h
    | succ steps =>
      obtain ⟨⟨hflag, hx⟩, hothers⟩ := List.forall_mem_cons.mp hletters
      rw [List.cons_append] at h
      rcases Bool.or_eq_true_iff.mp hflag with halpha | hhyphen
      · rw [parseFlags_letter hverbose halpha] at h
        obtain ⟨flags, hflags, h⟩ := Option.bind_eq_some_iff.mp h
        have hverboseSet := (Flags.verbose_set hx hflags).trans hverbose
        obtain ⟨⟨hleft, hafter, hverboseAfter⟩, hread⟩ := ih hothers hverboseSet h
        refine ⟨⟨hleft, hafter, hverboseAfter⟩, fun reading' more steps' hverbose' hsteps' => ?_⟩
        obtain ⟨steps', rfl⟩ := Nat.exists_eq_add_one.mpr (Nat.zero_lt_of_lt hsteps')
        obtain ⟨flags', hflags'⟩ := Flags.isSome_set hflags reading'.flags
        obtain ⟨last, hlast, hmore⟩ := hread { reading' with flags := flags' } more steps'
          ((Flags.verbose_set hx hflags').trans hverbose') (Nat.lt_of_succ_lt_succ hsteps')
        refine ⟨last, hlast, ?_⟩
        rw [List.cons_append, parseFlags_letter hverbose' halpha, hflags', Option.bind_some, hmore]
      · obtain rfl := beq_iff_eq.mp hhyphen
        rw [parseFlags_hyphen hverbose] at h
        split at h
        · rename_i hon
          obtain ⟨hends, hread⟩ := ih hothers hverbose h
          refine ⟨hends, fun reading' more steps' hverbose' hsteps' => ?_⟩
          obtain ⟨steps', rfl⟩ := Nat.exists_eq_add_one.mpr (Nat.zero_lt_of_lt hsteps')
          rw [List.cons_append, parseFlags_hyphen hverbose', if_pos hon]
          exact hread reading' more steps' hverbose' (Nat.lt_of_succ_lt_succ hsteps')
        · cases h

/-! ### Bounds -/

/-- Whether a character is one that bounds are written with. -/
def isBoundMark (c : Char) : Bool := c.isDigit || c == ','

/-- Neither bounds go on here nor do they end here. -/
def StopsBounds (cs : List Char) : Prop :=
  Clean cs ∧ ∀ c ∈ cs.head?, isBoundMark c = false ∧ c ≠ '}'

/-- Two texts that bounds are read alike from. They go on alike up to a brace, from which on they
are related by `ends`, or up to where no bounds can go on. -/
inductive CountsAlike (ends : List Char → List Char → Prop) : List Char → List Char → Prop where
  | mark {c : Char} {cs ds : List Char} (hc : isBoundMark c = true)
    (hrest : CountsAlike ends cs ds) : CountsAlike ends (c :: cs) (c :: ds)
  | close {cs ds : List Char} (h : ends cs ds) : CountsAlike ends ('}' :: cs) ('}' :: ds)
  | stop {cs ds : List Char} (hcs : StopsBounds cs) (hds : StopsBounds ds) : CountsAlike ends cs ds

namespace CountsAlike

variable {ends : List Char → List Char → Prop} {ds : List Char}

theorem clean (h : CountsAlike ends cs ds) : Clean cs ∧ Clean ds := by
  have hmark : ∀ {c : Char}, isBoundMark c = true → c ≠ '(' := by
    rintro c hc rfl
    cases hc
  cases h with
  | mark hc => exact ⟨clean_cons (hmark hc) _, clean_cons (hmark hc) _⟩
  | close => exact ⟨clean_cons (by decide) _, clean_cons (by decide) _⟩
  | stop hcs hds => exact ⟨hcs.1, hds.1⟩

theorem symm (h : CountsAlike ends cs ds) :
    CountsAlike (fun left right => ends right left) ds cs := by
  induction h with
  | mark hc _ ih => exact .mark hc ih
  | close h => exact .close h
  | stop hcs hds => exact .stop hds hcs

/-- Digits stand in both texts. -/
theorem digits (h : CountsAlike ends cs ds) :
    ds.takeWhile Char.isDigit = cs.takeWhile Char.isDigit ∧
      CountsAlike ends (cs.dropWhile Char.isDigit) (ds.dropWhile Char.isDigit) := by
  have hstop : ∀ {cs : List Char}, (∀ c ∈ cs.head?, c.isDigit = false) →
      cs.takeWhile Char.isDigit = [] ∧ cs.dropWhile Char.isDigit = cs := by
    intro cs hhead
    cases cs with
    | nil => exact ⟨rfl, rfl⟩
    | cons c cs =>
      have hc : ¬c.isDigit = true := by rw [hhead c rfl]; exact Bool.false_ne_true
      exact ⟨List.takeWhile_cons_of_neg hc, List.dropWhile_cons_of_neg hc⟩
  induction h with
  | @mark c cs ds hc hrest ih =>
    by_cases hdigit : c.isDigit = true
    · rw [List.takeWhile_cons_of_pos hdigit, List.takeWhile_cons_of_pos hdigit,
        List.dropWhile_cons_of_pos hdigit, List.dropWhile_cons_of_pos hdigit]
      exact ⟨congrArg _ ih.1, ih.2⟩
    · rw [List.takeWhile_cons_of_neg hdigit, List.takeWhile_cons_of_neg hdigit,
        List.dropWhile_cons_of_neg hdigit, List.dropWhile_cons_of_neg hdigit]
      exact ⟨rfl, .mark hc hrest⟩
  | close h => exact ⟨rfl, .close h⟩
  | stop hcs hds =>
    have hdigit : ∀ {cs : List Char}, StopsBounds cs → ∀ c ∈ cs.head?, c.isDigit = false :=
      fun h c hc => (Bool.or_eq_false_iff.mp (h.2 c hc).1).1
    obtain ⟨htake, hdrop⟩ := hstop (hdigit hcs)
    obtain ⟨htake', hdrop'⟩ := hstop (hdigit hds)
    rw [htake, htake', hdrop, hdrop']
    exact ⟨rfl, .stop hcs hds⟩

/-- Both texts go on with a number, or neither does. -/
theorem number (h : CountsAlike ends cs ds) :
    parseNumber? cs = none ∧ parseNumber? ds = none ∨ ∃ number left left',
      parseNumber? cs = some (number, left) ∧ parseNumber? ds = some (number, left') ∧
        CountsAlike ends left left' := by
  obtain ⟨htake, hdrop⟩ := h.digits
  unfold parseNumber?
  rw [htake]
  cases cs.takeWhile Char.isDigit with
  | nil => exact .inl ⟨rfl, rfl⟩
  | cons digit digits =>
    dsimp only
    split
    · exact .inr ⟨_, _, _, rfl, rfl, hdrop⟩
    · exact .inl ⟨rfl, rfl⟩

theorem comma (h : CountsAlike ends (',' :: cs) ds) :
    ∃ others, ds = ',' :: others ∧ CountsAlike ends cs others := by
  cases h with
  | mark _ hrest => exact ⟨_, rfl, hrest⟩
  | stop hcs => exact absurd (hcs.2 ',' rfl).1 (by decide)

theorem lower (h : CountsAlike ends cs ds) :
    lower? cs = none ∧ lower? ds = none ∨ ∃ min left left',
      lower? cs = some (min, left) ∧ lower? ds = some (min, left') ∧
        CountsAlike ends left left' := by
  by_cases hcomma : ∃ rest, cs = ',' :: rest
  · obtain ⟨rest, rfl⟩ := hcomma
    obtain ⟨others, rfl, hrest⟩ := h.comma
    exact .inr ⟨0, _, _, rfl, rfl, h⟩
  · rw [lower?, lower?]
    · exact h.number
    · rintro others rfl
      obtain ⟨rest, rfl, -⟩ := h.symm.comma
      exact hcomma ⟨rest, rfl⟩
    · exact fun rest heq => hcomma ⟨rest, heq⟩

theorem upper (h : CountsAlike ends cs ds) :
    ∃ max left left', upper cs = (max, left) ∧ Extended.upper ds = (max, left') ∧
      CountsAlike ends left left' := by
  unfold Extended.upper
  rcases h.number with ⟨hnone, hnone'⟩ | ⟨number, left, left', hnumber, hnumber', hleft⟩
  · exact ⟨none, cs, ds, by rw [hnone], by rw [hnone'], h⟩
  · exact ⟨some number, left, left', by rw [hnumber], by rw [hnumber'], hleft⟩

/-- Read the brace that ends bounds. -/
def closed? (min : Nat) (max : Option Nat) : List Char → Option (Nat × Option Nat × List Char)
  | '}' :: rest => some (min, max, rest)
  | _ => none

/-- The same bounds are read from two texts, or none. -/
def SameBounds (ends : List Char → List Char → Prop)
    (found later : Option (Nat × Option Nat × List Char)) : Prop :=
  found = none ∧ later = none ∨ ∃ min max left left', found = some (min, max, left) ∧
    later = some (min, max, left') ∧ ends left left'

theorem closed (h : CountsAlike ends cs ds) (min : Nat) (max : Option Nat) :
    SameBounds ends (closed? min max cs) (closed? min max ds) := by
  have hnone : ∀ {cs : List Char}, (∀ c ∈ cs.head?, c ≠ '}') → closed? min max cs = none := by
    intro cs hhead
    rw [closed?]
    rintro rest rfl
    exact hhead '}' rfl rfl
  cases h with
  | mark hc =>
    have hne : ∀ {d : Char}, isBoundMark d = true → d ≠ '}' := by
      rintro d hd rfl
      cases hd
    exact .inl ⟨hnone (by rintro _ ⟨⟩; exact hne hc), hnone (by rintro _ ⟨⟩; exact hne hc)⟩
  | close h => exact .inr ⟨_, _, _, _, rfl, rfl, h⟩
  | stop hcs hds =>
    exact .inl ⟨hnone fun c hc => (hcs.2 c hc).2, hnone fun c hc => (hds.2 c hc).2⟩

variable {later : Reading}

theorem afterLower (h : CountsAlike ends cs ds) (hverbose : reading.flags.verbose = false)
    (hverbose' : later.flags.verbose = false) (min : Nat) :
    SameBounds ends (afterLower? reading min cs) (afterLower? later min ds) := by
  by_cases hcomma : ∃ rest, cs = ',' :: rest
  · obtain ⟨rest, rfl⟩ := hcomma
    obtain ⟨others, rfl, hrest⟩ := h.comma
    obtain ⟨max, bound, bound', hmax, hmax', hbound⟩ := hrest.upper
    have hread : ∀ {reading : Reading} {rest bound : List Char}, reading.flags.verbose = false →
        Clean rest → Clean bound → Extended.upper rest = (max, bound) →
        afterLower? reading min (',' :: rest) = closed? min max bound := by
      intro reading rest bound hverbose hrest hbound hmax
      rw [afterLower_comma, Reading.skip_eq hverbose hrest, Option.bind_some, hmax,
        Reading.skip_eq hverbose hbound]
      rfl
    rw [hread hverbose hrest.clean.1 hbound.clean.1 hmax,
      hread hverbose' hrest.clean.2 hbound.clean.2 hmax']
    exact hbound.closed min max
  · have hcomma' : ∀ others, ds ≠ ',' :: others := by
      rintro others rfl
      obtain ⟨rest, rfl, -⟩ := h.symm.comma
      exact hcomma ⟨rest, rfl⟩
    have hread : ∀ {reading : Reading} {cs : List Char}, (∀ rest, cs ≠ ',' :: rest) →
        afterLower? reading min cs = closed? min (some min) cs := by
      intro reading cs hne
      unfold afterLower? closed?
      split
      · rfl
      · exact absurd rfl (hne _)
      · rename_i hclose _
        split
        · exact (hclose _ rfl).elim
        · rfl
    rw [hread fun rest heq => hcomma ⟨rest, heq⟩, hread hcomma']
    exact h.closed min (some min)

/-- Bounds are read alike from both texts. -/
theorem parseBounds (h : CountsAlike ends cs ds) (hverbose : reading.flags.verbose = false)
    (hverbose' : later.flags.verbose = false) :
    SameBounds ends (parseBounds? reading cs) (parseBounds? later ds) := by
  rw [parseBounds_eq, parseBounds_eq, Reading.skip_eq hverbose h.clean.1,
    Reading.skip_eq hverbose' h.clean.2, Option.bind_some, Option.bind_some]
  rcases h.lower with ⟨hnone, hnone'⟩ | ⟨min, left, left', hlower, hlower', hleft⟩
  · rw [hnone, hnone']
    exact .inl ⟨rfl, rfl⟩
  · rw [hlower, hlower', Option.bind_some, Option.bind_some, Reading.skip_eq hverbose hleft.clean.1,
      Reading.skip_eq hverbose' hleft.clean.2, Option.bind_some, Option.bind_some]
    exact hleft.afterLower hverbose hverbose' min

end CountsAlike

end Highlighter.Regex.Extended
