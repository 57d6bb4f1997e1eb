import Highlighter.Proofs.Regex.Extended.Meaning

/-!
# Reading the text of an expression in the extended dialect

Where the extended dialect reads the text of an expression, the tree
that it reads means what the expression means (`means_of_parse`).

The induction is on the expression. Other than in the regular dialect,
an item is read together with its count, so what is read of an item
says what is left to be done with its tree (`ReadsItem`). Rows and
branches are read up to what follows (`ReadsRow`, `ReadsBranches`).
-/

set_option autoImplicit false

namespace Highlighter.Regex.Extended

open Pattern

/-- What the reader knows after it has read an expression. -/
structure Reading.Grows (before after : Reading) (expr : Expr) : Prop where
  flags_eq : after.flags = before.flags
  groups_eq : after.groups = before.groups + expr.captures
  mem_targets : ∀ group, group ∈ after.targets ↔
    expr.refersTo group = true ∨ group ∈ before.targets

/-- Nothing is known of an expression without groups and references but
that it is there. -/
theorem Reading.Grows.refl (reading : Reading) {expr : Expr} (hcaptures : expr.captures = 0)
    (hrefs : ∀ group, expr.refersTo group = false) : reading.Grows reading expr where
  flags_eq := rfl
  groups_eq := by rw [hcaptures, Nat.add_zero]
  mem_targets group := by simp [hrefs]

/-- What the reader knows after two expressions. -/
theorem Reading.Grows.both {before between after : Reading} {first second both : Expr}
    (h : before.Grows between first) (h' : between.Grows after second)
    (hcaptures : both.captures = first.captures + second.captures)
    (hrefs : ∀ group, both.refersTo group = (first.refersTo group || second.refersTo group)) :
    before.Grows after both where
  flags_eq := h'.flags_eq.trans h.flags_eq
  groups_eq := by rw [h'.groups_eq, h.groups_eq, hcaptures, Nat.add_assoc]
  mem_targets group := by
    rw [h'.mem_targets, h.mem_targets, hrefs, Bool.or_eq_true, or_assoc, or_left_comm]

/-! ### Filler -/

/-- No comment starts here. -/
def Clean (cs : List Char) : Prop := ∀ rest, cs ≠ '(' :: '?' :: '#' :: rest

theorem clean_cons {c : Char} (h : c ≠ '(') (rest : List Char) : Clean (c :: rest) :=
  fun _ heq => h (List.cons.inj heq).1

theorem clean_nil : Clean [] := fun _ heq => nomatch heq

theorem Flags.verbose_of_plain {flags : Flags} {ignoreCase : Bool}
    (h : flags = .plain ignoreCase) : flags.verbose = false := by
  rw [h]
  rfl

/-- Where no comment starts, nothing is skipped. -/
theorem Reading.skip_eq {reading : Reading} (hverbose : reading.flags.verbose = false)
    {cs : List Char} (h : Clean cs) : reading.skip? cs = some cs := by
  unfold Reading.skip?
  rw [hverbose]
  cases cs with
  | nil => rfl
  | cons c rest =>
    rw [skipFiller?]
    · rfl
    · rintro others rfl rfl
      exact h others rfl

/-- No text of an expression starts a comment, unless what follows it
does. -/
theorem clean_render {expr : Expr} (h : expr.WellFormed) {rest : List Char} (hrest : Clean rest) :
    Clean (expr.render ++ rest) := by
  -- A comment starts with a parenthesis and two more characters, which no group opens with.
  induction expr generalizing rest with
  | empty => exact hrest
  | char c =>
    have hc : isLiteral c = true := h
    refine clean_cons ?_ rest
    rintro rfl
    exact absurd hc (by decide)
  | capture body =>
    have hbody := Expr.head?_render_close (show body.WellFormed from h) rest
    rintro others heq
    have hshape : body.render ++ ')' :: rest = '?' :: '#' :: others := by
      have htail : body.render ++ [')'] ++ rest = '?' :: '#' :: others := (List.cons.inj heq).2
      rw [List.append_assoc] at htail
      exact htail
    rw [hshape] at hbody
    exact absurd (hbody '?' rfl) (by decide)
  | look behind negated body =>
    rintro others heq
    cases behind <;> cases negated <;> cases heq
  | seq first second ihFirst ihSecond =>
    rw [Expr.render, List.append_assoc]
    exact ihFirst h.2.1.1 (ihSecond h.2.1.2 hrest)
  | alt first second ihFirst ihSecond =>
    rw [Expr.render, List.append_assoc]
    exact ihFirst h.2.1 (clean_cons (by decide) _)
  | repeated count greedy body ih =>
    rw [Expr.render, List.append_assoc]
    refine ih h.2.1 ?_
    cases count <;> exact clean_cons (by decide) _
  | _ =>
    rintro others heq
    cases heq

/-! ### Single steps of the reader -/

/-- A row ends where its group ends. -/
theorem parseItems_end {steps depth : Nat} {reading : Reading} {items : List Tree}
    {rest : List Char} {result : List Tree × Reading × List Char}
    (hverbose : reading.flags.verbose = false) (hrest : ∀ c ∈ rest.head?, c = ')' ∨ c = '|')
    (h : parseItems? steps depth reading items rest = some result) :
    result = (items.reverse, reading, rest) := by
  cases steps with
  | zero => cases h
  | succ steps =>
    cases rest with
    | nil =>
      rw [parseItems?, Reading.skip_eq hverbose clean_nil] at h
      cases h
      rfl
    | cons c rest =>
      have hclean : Clean (c :: rest) := by
        rcases hrest c rfl with rfl | rfl <;> exact clean_cons (by decide) rest
      rw [parseItems?, Reading.skip_eq hverbose hclean] at h
      rcases hrest c rfl with rfl | rfl
      · cases h
        rfl
      · cases h
        rfl

/-- What is left to be done after a tree was read: its count, and the
items after it. -/
def readOn? (steps depth : Nat) (reading : Reading) (items : List Tree) (tree : Tree)
    (rest : List Char) : Option (List Tree × Reading × List Char) :=
  (parseSuffix? reading tree rest).bind fun found =>
    parseItems? steps depth reading (if found.1.isEmpty then items else found.1 :: items) found.2

/-- A count makes no tree empty. -/
theorem isEmpty_parseSuffix {reading : Reading} {tree : Tree} {rest : List Char}
    {found : Tree × List Char} (htree : tree.isEmpty = false)
    (h : parseSuffix? reading tree rest = some found) : found.1.isEmpty = false := by
  unfold parseSuffix? at h
  obtain ⟨cs, -, h⟩ := Option.bind_eq_some_iff.mp h
  split at h
  · cases h
    exact htree
  · split at h
    · cases h
    · obtain ⟨others, -, h⟩ := Option.bind_eq_some_iff.mp h
      simp only at h
      split at h <;>
      · cases h
        rfl

/-! ### Counts -/

/-- A number is read up to what is no digit. -/
theorem parseNumber_toDigits {number : Nat} (hnumber : number < numberLimit) {rest : List Char}
    (hrest : ∀ c ∈ rest.head?, c.isDigit = false) :
    parseNumber? (Nat.toDigits 10 number ++ rest) = some (number, rest) := by
  obtain ⟨digit, digits, hdigits, -⟩ := head_toDigits number
  have hvalue := foldl_toDigits number
  rw [parseNumber?, takeWhile_toDigits number hrest, dropWhile_toDigits number hrest]
  rw [hdigits] at hvalue ⊢
  simp only [hvalue, if_pos hnumber]

/-- No comment starts with a digit. -/
theorem clean_toDigits (number : Nat) (rest : List Char) :
    Clean (Nat.toDigits 10 number ++ rest) := by
  obtain ⟨digit, digits, hdigits, hdigit⟩ := head_toDigits number
  rw [hdigits]
  refine clean_cons ?_ _
  rintro rfl
  exact absurd hdigit (by decide)

theorem head?_cons_isDigit {c : Char} (h : c.isDigit = false) (rest : List Char) :
    ∀ d ∈ (c :: rest).head?, d.isDigit = false := by
  rintro d ⟨⟩
  exact h

/-- Read the bounds of a repetition after the lower one. -/
def afterLower? (reading : Reading) (min : Nat) (cs : List Char) :
    Option (Nat × Option Nat × List Char) :=
  match cs with
  | '}' :: rest => some (min, some min, rest)
  | ',' :: rest =>
    (reading.skip? rest).bind fun cs =>
      let bound : Option Nat × List Char :=
        match parseNumber? cs with
        | some (max, rest) => (some max, rest)
        | none => (none, cs)
      (reading.skip? bound.2).bind fun cs =>
        match cs with
        | '}' :: rest => some (min, bound.1, rest)
        | _ => none
  | _ => none

/-- A lower bound that is written is read. -/
theorem parseBounds_toDigits {reading : Reading}
    (hverbose : reading.flags.verbose = false) {number : Nat} (hnumber : number < numberLimit)
    {c : Char} (hdigit : c.isDigit = false) (hopen : c ≠ '(') (rest : List Char) :
    parseBounds? reading (Nat.toDigits 10 number ++ c :: rest)
      = afterLower? reading number (c :: rest) := by
  obtain ⟨digit, digits, hdigits, hfirst⟩ := head_toDigits number
  have hcomma : digit ≠ ',' := by
    rintro rfl
    exact absurd hfirst (by decide)
  have hmin : parseNumber? (digit :: (digits ++ c :: rest)) = some (number, c :: rest) := by
    rw [← List.cons_append, ← hdigits]
    exact parseNumber_toDigits hnumber (head?_cons_isDigit hdigit rest)
  unfold parseBounds? afterLower?
  rw [Reading.skip_eq hverbose (clean_toDigits number _), hdigits]
  simp only [List.cons_append, bind, Option.bind_some]
  split
  · rename_i heq
    exact absurd (List.cons.inj heq).1 hcomma
  · simp only [hmin, Option.bind_some, Reading.skip_eq hverbose (clean_cons hopen rest)]
    rfl

/-- The bounds of a count are read back. -/
theorem parseRepetition_render {reading : Reading}
    (hverbose : reading.flags.verbose = false) {count : Count} (h : count.WellFormed)
    (rest : List Char) :
    parseRepetition? reading (count.render ++ rest) = some (count.min, count.max?, rest) := by
  cases count with
  | optional => rfl
  | star => rfl
  | plus => rfl
  | exactly number =>
    have hshape : (Count.exactly number).render ++ rest
        = '{' :: (Nat.toDigits 10 number ++ '}' :: rest) := by simp [Count.render]
    rw [hshape]
    exact parseBounds_toDigits hverbose h (by decide) (by decide) rest
  | atLeast number =>
    have hshape : (Count.atLeast number).render ++ rest
        = '{' :: (Nat.toDigits 10 number ++ ',' :: '}' :: rest) := by simp [Count.render]
    rw [hshape]
    refine (parseBounds_toDigits hverbose h (by decide) (by decide) _).trans ?_
    have hskip := Reading.skip_eq hverbose (clean_cons (show '}' ≠ '(' by decide) rest)
    rw [afterLower?, hskip, Option.bind_some]
    simp only [show parseNumber? ('}' :: rest) = none from rfl, hskip, Option.bind_some]
    rfl
  | between min max =>
    have hshape : (Count.between min max).render ++ rest
        = '{' :: (Nat.toDigits 10 min ++ ',' :: (Nat.toDigits 10 max ++ '}' :: rest)) := by
      simp [Count.render]
    have hmin : min < numberLimit := Nat.lt_of_le_of_lt h.1 h.2
    rw [hshape]
    refine (parseBounds_toDigits hverbose hmin (by decide) (by decide) _).trans ?_
    have hskip := Reading.skip_eq hverbose (clean_cons (show '}' ≠ '(' by decide) rest)
    rw [afterLower?, Reading.skip_eq hverbose (clean_toDigits max _), Option.bind_some]
    simp only [parseNumber_toDigits h.2 (head?_cons_isDigit (show '}'.isDigit = false by decide)
      rest), hskip, Option.bind_some]
    rfl

/-- Without a count, a tree stays as it is. -/
theorem parseSuffix_none {reading : Reading}
    (hverbose : reading.flags.verbose = false) (tree : Tree) {rest : List Char}
    (hclean : Clean rest) (hrest : ∀ c ∈ rest.head?, isCountStart c = false) :
    parseSuffix? reading tree rest = some (tree, rest) := by
  have hnone : parseRepetition? reading rest = none := by
    unfold parseRepetition?
    split <;> first
      | exact absurd (hrest _ rfl) (by decide)
      | rfl
  unfold parseSuffix?
  rw [Reading.skip_eq hverbose hclean]
  simp only [bind, Option.bind_some, hnone]
  rfl

/-- A tree that is repeated gets its count. -/
theorem parseSuffix_countText {reading : Reading} {ignoreCase : Bool}
    (hflags : reading.flags = .plain ignoreCase) {tree : Tree} {count : Count} {greedy : Bool}
    (hcount : count.WellFormed) {rest : List Char} (hclean : Clean rest)
    (hrest : ∀ c ∈ rest.head?, isCountStart c = false) {found : Tree × List Char}
    (h : parseSuffix? reading tree (Expr.countText count greedy ++ rest) = some found) :
    found = (.repetition count.min count.max? greedy tree, rest) := by
  -- What follows cannot be taken for a mark of the count.
  have hne : ∀ d ∈ ['?', '+'], ∀ others, rest ≠ d :: others := by
    rintro d hd others rfl
    have hstart : ∀ d ∈ ['?', '+'], isCountStart d = true := List.all_eq_true.mp rfl
    exact absurd ((hstart d hd).symm.trans (hrest d rfl)) (by decide)
  have hcountText : Clean (Expr.countText count greedy ++ rest) := by
    cases count <;> exact clean_cons (by decide) _
  have hmark : Clean ((if greedy then [] else ['?']) ++ rest) := by
    cases greedy with
    | true => exact hclean
    | false => exact clean_cons (by decide) _
  have hgreedy : (greedy != reading.flags.swapGreed) = greedy := by
    rw [hflags]
    exact Bool.xor_false greedy
  have hverbose := Flags.verbose_of_plain hflags
  unfold parseSuffix? at h
  rw [Reading.skip_eq hverbose hcountText, Expr.countText, List.append_assoc] at h
  simp only [bind, Option.bind_some, parseRepetition_render hverbose hcount,
    Reading.skip_eq hverbose hmark] at h
  split at h
  · cases h
  · cases greedy with
    | false =>
      simp only [Bool.false_eq_true, if_false, List.cons_append, List.nil_append, hgreedy] at h
      split at h
      · exact absurd rfl (hne '+' (by decide) _)
      · cases h
        rfl
    | true =>
      cases rest with
      | nil =>
        simp [hgreedy] at h
        exact h.symm
      | cons c others =>
        have hlazy : c ≠ '?' := fun heq => hne '?' (by decide) others (by rw [heq])
        have hkept : c ≠ '+' := fun heq => hne '+' (by decide) others (by rw [heq])
        simp [hlazy, hkept, hgreedy] at h
        exact h.symm

/-! ### Items -/

/-- The text of an item is read as a tree that means what the item
means. Its count is read next. -/
def ReadsItem (expr : Expr) : Prop :=
  ∀ (ignoreCase : Bool) (steps depth : Nat) (reading : Reading) (items : List Tree)
    (rest : List Char) (result : List Tree × Reading × List Char),
    reading.flags = .plain ignoreCase → expr.Apart rest → Clean rest →
    parseItems? steps depth reading items (expr.render ++ rest) = some result →
    ∃ steps' reading' tree, reading.Grows reading' expr ∧
      tree.Means ignoreCase reading.groups expr ∧
      readOn? steps' depth reading' items tree rest = some result

/-- The text of a row is read as items that mean what it means, up to
what follows. -/
def ReadsRow (expr : Expr) : Prop :=
  ∀ (ignoreCase : Bool) (steps depth : Nat) (reading : Reading) (items : List Tree)
    (rest : List Char) (result : List Tree × Reading × List Char),
    reading.flags = .plain ignoreCase → expr.Apart rest → Clean rest →
    (∀ c ∈ rest.head?, isCountStart c = false) →
    parseItems? steps depth reading items (expr.render ++ rest) = some result →
    ∃ steps' reading' pieces, reading.Grows reading' expr ∧
      (Tree.ofItems pieces).Means ignoreCase reading.groups expr ∧
      parseItems? steps' depth reading' (pieces.reverse ++ items) rest = some result

/-- The text of branches is read as trees that mean what it means, up
to the end of the group. -/
def ReadsBranches (expr : Expr) : Prop :=
  ∀ (ignoreCase : Bool) (steps depth : Nat) (reading : Reading) (branches : List Tree)
    (rest : List Char) (result : Tree × Reading × List Char),
    reading.flags = .plain ignoreCase → (∀ c ∈ rest.head?, c = ')') →
    parseBranches? steps depth reading branches (expr.render ++ rest) = some result →
    ∃ reading' more, reading.Grows reading' expr ∧
      (Tree.ofBranches more).Means ignoreCase reading.groups expr ∧
      result = (Tree.ofBranches (branches.reverse ++ more), reading', rest)

/-- What a row of one item is read as. -/
theorem ReadsItem.row {expr : Expr} (h : ReadsItem expr) : ReadsRow expr := by
  intro ignoreCase steps depth reading items rest result hflags happart hclean hrest hread
  obtain ⟨steps', reading', tree, hgrows, hmeans, hon⟩ :=
    h ignoreCase steps depth reading items rest result hflags happart hclean hread
  rw [readOn?, parseSuffix_none (Flags.verbose_of_plain (hgrows.flags_eq.trans hflags)) tree hclean hrest,
    Option.bind_some] at hon
  cases htree : tree.isEmpty with
  | false =>
    simp only [htree, Bool.false_eq_true, if_false] at hon
    exact ⟨steps', reading', [tree], hgrows, hmeans, hon⟩
  | true =>
    -- An empty tree is dropped.
    simp only [htree, if_true] at hon
    have hempty : tree = .empty := by
      cases tree <;> first | rfl | cases htree
    subst hempty
    exact ⟨steps', reading', [], hgrows, hmeans, hon⟩

/-- What an item with a count is read as. -/
theorem ReadsItem.repeated {count : Count} {greedy : Bool} {body : Expr}
    (hwf : (Expr.repeated count greedy body).WellFormed) (h : ReadsItem body) :
    ReadsRow (.repeated count greedy body) := by
  intro ignoreCase steps depth reading items rest result hflags happart hclean hrest hread
  have hcountText : Clean (Expr.countText count greedy ++ rest) := by
    cases count <;> exact clean_cons (by decide) _
  rw [Expr.render, List.append_assoc] at hread
  obtain ⟨steps', reading', tree, hgrows, hmeans, hon⟩ :=
    h ignoreCase steps depth reading items _ result hflags (Expr.apart_countText hwf rest)
      hcountText hread
  obtain ⟨found, hfound, hon⟩ := Option.bind_eq_some_iff.mp hon
  cases parseSuffix_countText (hgrows.flags_eq.trans hflags) hwf.1.2 hclean hrest hfound
  exact ⟨steps', reading', [.repetition count.min count.max? greedy tree],
    ⟨hgrows.flags_eq, hgrows.groups_eq, hgrows.mem_targets⟩, hmeans.repeated greedy hwf.1.2, hon⟩

theorem ofBranches_append {branches : List Tree} (h : branches ≠ []) (last : Tree) :
    Tree.ofBranches (branches ++ [last]) = .alternation (branches ++ [last]) := by
  match branches with
  | [] => exact absurd rfl h
  | [first] => rfl
  | first :: second :: branches => rfl

/-- A row is read as the last branch. -/
theorem ReadsRow.branches {expr : Expr} (h : ReadsRow expr) : ReadsBranches expr := by
  intro ignoreCase steps depth reading branches rest result hflags hrest hread
  have hclose : ∀ {is : Char → Prop}, is ')' → ∀ c ∈ rest.head?, is c := by
    intro is hclose c hc
    rw [hrest c hc]
    exact hclose
  have hclean : Clean rest := by
    rintro others rfl
    exact absurd (hrest '(' rfl) (by decide)
  cases steps with
  | zero => cases hread
  | succ steps =>
    rw [parseBranches?] at hread
    obtain ⟨found, hfound, hread⟩ := Option.bind_eq_some_iff.mp hread
    obtain ⟨steps', reading', pieces, hgrows, hmeans, hitems⟩ :=
      h ignoreCase steps depth reading [] rest found hflags
        ⟨fun _ => hclose (by decide), fun _ => hclose (by decide)⟩ hclean
        (hclose (by decide)) hfound
    cases parseItems_end (Flags.verbose_of_plain (hgrows.flags_eq.trans hflags)) (hclose (.inl rfl)) hitems
    refine ⟨reading', [Tree.ofItems pieces], hgrows, hmeans, ?_⟩
    rw [List.append_nil, List.reverse_reverse] at hread
    simp only at hread
    split at hread
    · exact absurd (hrest '|' rfl) (by decide)
    · split at hread
      · cases hread
      · cases hread
        rfl
    · rename_i hne _
      cases hread
      rw [ofBranches_append]
      · simp
      · simpa using hne

/-! ### Groups -/

/-- What is read of a group is read of an item. -/
theorem readsItem_of_group {expr : Expr} (hwf : expr.WellFormed) (text : List Char)
    (hrender : expr.render = '(' :: text)
    (h : ∀ (ignoreCase : Bool) (steps depth : Nat) (reading : Reading) (rest : List Char)
      (found : Tree × Reading × List Char), reading.flags = .plain ignoreCase →
      parseGroup? steps depth reading (text ++ rest) = some found →
      ∃ reading' tree, reading.Grows reading' expr ∧ tree.Means ignoreCase reading.groups expr ∧
        found = (tree, reading', rest)) : ReadsItem expr := by
  intro ignoreCase steps depth reading items rest result hflags _ hclean hread
  have hopen := clean_render hwf hclean
  rw [hrender, List.cons_append] at hread hopen
  cases steps with
  | zero => cases hread
  | succ steps =>
    rw [parseItems?, Reading.skip_eq (Flags.verbose_of_plain hflags) hopen] at hread
    simp only [bind, Option.bind_some] at hread
    obtain ⟨found, hfound, hread⟩ := Option.bind_eq_some_iff.mp hread
    obtain ⟨reading', tree, hgrows, hmeans, rfl⟩ :=
      h ignoreCase steps (depth + 1) reading rest found hflags hfound
    exact ⟨steps, reading', tree, hgrows, hmeans, hread⟩

/-- A group closes after its body. -/
theorem Reading.close_eq {reading : Reading} (hverbose : reading.flags.verbose = false)
    (rest : List Char) : reading.close? (')' :: rest) = some rest := by
  unfold Reading.close?
  rw [Reading.skip_eq hverbose (clean_cons (by decide) rest)]
  rfl

/-- The tree of a group, by what opens it. -/
def Opening.tree? (opening : Opening) (body : Tree) : Option Tree :=
  match opening with
  | .look behind negated => some (.look behind negated body)
  | .capture index => some (.group index body)
  | .flagged => some body
  | _ => none

/-- A group is read whose opening is known. -/
theorem parseGroup_body {ignoreCase : Bool} {steps depth : Nat} {reading inside : Reading}
    {opening : Opening} {body : Expr} {cs rest : List Char} {found : Tree × Reading × List Char}
    (hflags : reading.flags = .plain ignoreCase) {ignoreCase' : Bool}
    (hinside : inside.flags = .plain ignoreCase') (hbody : ReadsBranches body)
    (hopening : parseOpening? reading cs = some (opening, inside, body.render ++ ')' :: rest))
    (hkind : (opening.tree? .empty).isSome = true)
    (hsame : opening = .flagged ∨ ignoreCase = ignoreCase')
    (h : parseGroup? steps depth reading cs = some found) :
    ∃ after more tree, inside.Grows after body ∧
      (Tree.ofBranches more).Means ignoreCase' inside.groups body ∧
      opening.tree? (Tree.ofBranches more) = some tree ∧
      found = (tree, { after with flags := reading.flags }, rest) := by
  cases steps with
  | zero => cases h
  | succ steps =>
    have hread : ∀ {result : Tree × Reading × List Char},
        parseBranches? steps depth inside [] (body.render ++ ')' :: rest) = some result →
        ∃ after more, inside.Grows after body ∧
          (Tree.ofBranches more).Means ignoreCase' inside.groups body ∧
          result = (Tree.ofBranches more, after, ')' :: rest) := by
      intro result hresult
      exact hbody ignoreCase' steps depth inside [] (')' :: rest) result hinside
        (by rintro c ⟨⟩; rfl) hresult
    rw [parseGroup?] at h
    split at h
    · cases h
    · simp only [hopening, bind, Option.bind_some] at h
      -- Only a group with flags of its own has to set the flags back.
      have hkept : ∀ {after : Reading}, inside.Grows after body → ignoreCase = ignoreCase' →
          after = { after with flags := reading.flags } := by
        rintro after hgrows rfl
        rw [hflags, ← hinside, ← hgrows.flags_eq]
      cases opening with
      | look _ _ | capture _ =>
        obtain ⟨result, hresult, h⟩ := Option.bind_eq_some_iff.mp h
        obtain ⟨after, more, hgrows, hmeans, rfl⟩ := hread hresult
        rw [Reading.close_eq (Flags.verbose_of_plain (hgrows.flags_eq.trans hinside)) rest] at h
        cases h
        refine ⟨after, more, _, hgrows, hmeans, rfl, ?_⟩
        rw [← hkept hgrows (hsame.resolve_left fun heq => nomatch heq)]
      | flagged =>
        obtain ⟨result, hresult, h⟩ := Option.bind_eq_some_iff.mp h
        obtain ⟨after, more, hgrows, hmeans, rfl⟩ := hread hresult
        rw [Reading.close_eq (Flags.verbose_of_plain (hgrows.flags_eq.trans hinside)) rest] at h
        cases h
        exact ⟨after, more, _, hgrows, hmeans, rfl, rfl⟩
      | _ => cases hkind

/-- What opens a group that captures. -/
theorem parseOpening_capture {reading : Reading} (hverbose : reading.flags.verbose = false)
    {cs : List Char} (hclean : Clean cs) (h : ∀ c ∈ cs.head?, isCountStart c = false) :
    parseOpening? reading cs
      = some (.capture (reading.groups + 1), { reading with groups := reading.groups + 1 }, cs) := by
  have hne : ∀ rest, cs ≠ '?' :: rest := by
    rintro rest rfl
    exact absurd (h '?' rfl) (by decide)
  unfold parseOpening?
  rw [Reading.skip_eq hverbose hclean]
  simp only [bind, Option.bind_some]
  split <;> first
    | exact absurd rfl (hne _)
    | rfl

/-- The flags of a group end at a colon. -/
theorem parseFlags_colon {reading : Reading} (hverbose : reading.flags.verbose = false)
    (on : Bool) (previous : Option Char) (hprevious : previous ≠ some '-') (steps : Nat)
    (rest : List Char) :
    parseFlags? on previous reading (steps + 1) (':' :: rest) = some (.flagged, reading, rest) := by
  rw [parseFlags?, Reading.skip_eq hverbose (clean_cons (by decide) rest)]
  simp [hprevious]

/-- A flag of a group. -/
theorem parseFlags_letter {reading : Reading} (hverbose : reading.flags.verbose = false)
    {c : Char} (hc : c.isAlpha = true) (on : Bool) (previous : Option Char) (steps : Nat)
    (rest : List Char) :
    parseFlags? on previous reading (steps + 1) (c :: rest)
      = (reading.flags.set? on c).bind fun flags =>
          parseFlags? on (some c) { reading with flags } steps rest := by
  have hne : ∀ d ∈ ['(', ')', ':', '-'], c ≠ d := ne_of_any Char.isAlpha (by decide) hc
  rw [parseFlags?, Reading.skip_eq hverbose (clean_cons (hne '(' (by decide)) rest)]
  simp only [bind, Option.bind_some]
  split
  · rename_i heq
    cases heq
  · rename_i heq
    cases heq
    exact absurd rfl (hne _ (by decide))
  · rename_i heq
    cases heq
    exact absurd rfl (hne _ (by decide))
  · rename_i heq
    cases heq
    exact absurd rfl (hne _ (by decide))
  · rename_i heq
    cases heq
    rfl

/-- What opens a group with flags. -/
theorem parseOpening_flags {reading : Reading} (hverbose : reading.flags.verbose = false)
    (rest : List Char) :
    parseOpening? reading ('?' :: ':' :: rest) = some (.flagged, reading, rest) ∧
      parseOpening? reading ('?' :: 'i' :: ':' :: rest)
        = some (.flagged, { reading with flags := { reading.flags with ignoreCase := true } },
          rest) ∧
      parseOpening? reading ('?' :: 's' :: ':' :: rest)
        = some (.flagged, { reading with flags := { reading.flags with dotAll := true } },
          rest) := by
  have hclean : ∀ rest, Clean ('?' :: rest) := clean_cons (by decide)
  unfold parseOpening?
  simp only [Reading.skip_eq hverbose (hclean _), bind, Option.bind_some]
  refine ⟨?_, ?_, ?_⟩
  · exact parseFlags_colon hverbose true none (by decide) _ rest
  · refine (parseFlags_letter hverbose (show 'i'.isAlpha = true by decide) true none _ _).trans ?_
    have hinside : ({ reading with flags := { reading.flags with ignoreCase := true } } :
        Reading).flags.verbose = false := hverbose
    exact parseFlags_colon hinside true (some 'i') (by decide) _ rest
  · refine (parseFlags_letter hverbose (show 's'.isAlpha = true by decide) true none _ _).trans ?_
    have hinside : ({ reading with flags := { reading.flags with dotAll := true } } :
        Reading).flags.verbose = false := hverbose
    exact parseFlags_colon hinside true (some 's') (by decide) _ rest

/-- What opens a look-around. -/
theorem parseOpening_look {reading : Reading} (hverbose : reading.flags.verbose = false)
    (behind negated : Bool) (rest : List Char) :
    parseOpening? reading ('?' :: (Expr.lookMark behind negated ++ rest))
      = some (.look behind negated, reading, rest) := by
  unfold parseOpening?
  rw [Reading.skip_eq hverbose (clean_cons (by decide) _)]
  cases behind <;> cases negated <;> rfl

/-! ### Single pieces -/

/-- Whether a character is read by itself, and not as a single piece. -/
def isMark (c : Char) : Bool := "|)([?*+\\".toList.contains c

/-- The tree of a character that is no mark. -/
def Flags.piece (flags : Flags) (c : Char) : Tree :=
  match c with
  | '.' => .any flags.dotAll
  | '^' => flags.anchor .lineStart .textStart
  | '$' => flags.anchor .lineEnd .textEnd
  | c => .literal c flags.ignoreCase

/-- A single piece is read. -/
theorem parseItems_piece {steps depth : Nat} {reading : Reading} {items : List Tree} {c : Char}
    {rest : List Char} {result : List Tree × Reading × List Char}
    (hverbose : reading.flags.verbose = false) (hmark : isMark c = false)
    (h : parseItems? steps depth reading items (c :: rest) = some result) :
    ∃ steps', readOn? steps' depth reading items (reading.flags.piece c) rest = some result := by
  have hne : ∀ d ∈ "|)([?*+\\".toList, c ≠ d := by
    rintro d hd rfl
    rw [isMark, List.contains_iff_mem.mpr hd] at hmark
    cases hmark
  have htree : (reading.flags.piece c).isEmpty = false := by
    unfold Flags.piece
    split <;> rfl
  cases steps with
  | zero => cases h
  | succ steps =>
    rw [parseItems?, Reading.skip_eq hverbose (clean_cons (hne '(' (by decide)) rest)] at h
    simp only [bind, Option.bind_some] at h
    split at h
    case h_10 =>
      rename_i heq
      cases heq
      obtain ⟨found, hfound, h⟩ := Option.bind_eq_some_iff.mp h
      refine ⟨steps, ?_⟩
      rw [readOn?, show parseSuffix? reading (reading.flags.piece c) rest = some found from hfound,
        Option.bind_some, isEmpty_parseSuffix htree hfound]
      exact h
    all_goals
      rename_i heq
      cases heq
      try exact absurd rfl (hne _ (by decide))

/-- What is read of a single piece is read of an item. -/
theorem readsItem_of_piece {expr : Expr} {c : Char} (hrender : expr.render = [c])
    (hmark : isMark c = false) (hcaptures : expr.captures = 0)
    (hrefs : ∀ group, expr.refersTo group = false)
    (h : ∀ ignoreCase opened, ((Flags.plain ignoreCase).piece c).Means ignoreCase opened expr) :
    ReadsItem expr := by
  intro ignoreCase steps depth reading items rest result hflags _ _ hread
  rw [hrender] at hread
  obtain ⟨steps', hon⟩ := parseItems_piece (Flags.verbose_of_plain hflags) hmark hread
  refine ⟨steps', reading, reading.flags.piece c, .refl reading hcaptures hrefs, ?_, hon⟩
  rw [hflags]
  exact h ignoreCase reading.groups

theorem readsItem_char {c : Char} (h : isLiteral c = true) : ReadsItem (.char c) := by
  have hne : ∀ d ∈ "|)([?*+\\.^$".toList, c ≠ d := ne_of_any isLiteral (by decide) h
  have hmark : isMark c = false := contains_eq_false isLiteral (by decide) h
  refine readsItem_of_piece rfl hmark rfl (fun _ => rfl) fun ignoreCase opened => ?_
  have hpiece : (Flags.plain ignoreCase).piece c = .literal c ignoreCase := by
    unfold Flags.piece
    split
    · exact absurd rfl (hne _ (by decide))
    · exact absurd rfl (hne _ (by decide))
    · exact absurd rfl (hne _ (by decide))
    · rfl
  rw [hpiece]
  exact .leaf (fun _ _ _ => rfl) rfl rfl (fun _ => rfl) fun _ => .literal c ignoreCase

/-- A class is read. -/
theorem readsItem_bracket {body : List Char} (h : isClassBody body = true) :
    ReadsItem (.bracket body) := by
  intro ignoreCase steps depth reading items rest result hflags _ _ hread
  have hshape : (Expr.bracket body).render ++ rest = '[' :: (body ++ ']' :: rest) := by
    simp [Expr.render]
  rw [hshape] at hread
  cases steps with
  | zero => cases hread
  | succ steps =>
    have hverbose := Flags.verbose_of_plain hflags
    rw [parseItems?, Reading.skip_eq hverbose (clean_cons (by decide) _)] at hread
    simp only [bind, Option.bind_some, parseBracket_body h] at hread
    cases hset : extendedClass? body with
    | none =>
      rw [hset] at hread
      cases hread
    | some set =>
      rw [hset, Option.map_some, Option.bind_some] at hread
      obtain ⟨found, hfound, hread⟩ := Option.bind_eq_some_iff.mp hread
      have htree : (Tree.set set reading.flags.ignoreCase).isEmpty = false := rfl
      refine ⟨steps, reading, .set set reading.flags.ignoreCase, .refl reading rfl fun _ => rfl,
        .leaf (fun text retry place => ?_) rfl rfl (fun _ => rfl) fun _ => .set _ _, ?_⟩
      · have hmembers : Expr.classMembers (sense text retry) ignoreCase body
            = Tree.setMembers ignoreCase set := by
          unfold Expr.classMembers Tree.setMembers
          rw [show (sense text retry).classSet? body = some set from hset, Option.bind_some]
        rw [Expr.ways, hmembers, hflags]
        rfl
      · rw [readOn?, hfound, Option.bind_some, isEmpty_parseSuffix htree hfound]
        exact hread

/-! ### Escapes -/

/-- No escape gives an empty tree. -/
theorem isEmpty_toTree {reading : Reading} {escape : Escape} {tree : Tree}
    (h : escape.toTree? reading = some tree) : tree.isEmpty = false := by
  cases escape with
  | set written =>
    obtain ⟨set, -, rfl⟩ := Option.map_eq_some_iff.mp h
    rfl
  | _ =>
    cases h
    rfl

/-- What is read of an escape is read of an item. -/
theorem readsItem_of_escape {expr : Expr} (text : List Char) (hrender : expr.render = '\\' :: text)
    (h : ∀ (ignoreCase : Bool) (reading : Reading) (rest : List Char) (escape : Escape)
      (after : Reading) (left : List Char) (tree : Tree), reading.flags = .plain ignoreCase →
      expr.Apart rest → parseEscape? reading false (text ++ rest) = some (escape, after, left) →
      escape.toTree? after = some tree →
      left = rest ∧ reading.Grows after expr ∧ tree.Means ignoreCase reading.groups expr) :
    ReadsItem expr := by
  intro ignoreCase steps depth reading items rest result hflags happart _ hread
  rw [hrender, List.cons_append] at hread
  cases steps with
  | zero => cases hread
  | succ steps =>
    have hverbose := Flags.verbose_of_plain hflags
    rw [parseItems?, Reading.skip_eq hverbose (clean_cons (by decide) _)] at hread
    simp only [bind, Option.bind_some] at hread
    obtain ⟨found, hescape, hread⟩ := Option.bind_eq_some_iff.mp hread
    obtain ⟨escape, after, left⟩ := found
    obtain ⟨tree, htree, hsuffix⟩ := Option.bind_eq_some_iff.mp hread
    obtain ⟨found, hfound, hon⟩ := Option.bind_eq_some_iff.mp hsuffix
    obtain ⟨rfl, hgrows, hmeans⟩ :=
      h ignoreCase reading rest escape after left tree hflags happart hescape htree
    refine ⟨steps, after, tree, hgrows, hmeans, ?_⟩
    rw [readOn?, hfound, Option.bind_some, isEmpty_parseSuffix (isEmpty_toTree htree) hfound]
    exact hon

/-- An escape that is only a letter, or a character that is none. -/
theorem parseEscape_plain {c : Char} (hassertion : startsAssertion c = false)
    (hdigit : c.isDigit = false) (hletter : "xuUpP".toList.contains c = false) (reading : Reading)
    (rest : List Char) :
    parseEscape? reading false (c :: rest) = (plainEscape? false c).map (·, reading, rest) := by
  have hne : ∀ d ∈ "xuUpP".toList, c ≠ d := by
    rintro d hd rfl
    rw [List.contains_iff_mem.mpr hd] at hletter
    cases hletter
  unfold parseEscape?
  simp only [hassertion, hdigit, Bool.and_false, Bool.false_eq_true, if_false]
  split
  · exact absurd rfl (hne _ (by decide))
  · exact absurd rfl (hne _ (by decide))
  · exact absurd rfl (hne _ (by decide))
  · exact absurd rfl (hne _ (by decide))
  · exact absurd rfl (hne _ (by decide))
  · cases plainEscape? false c <;> rfl

/-- What an escape stands for that is no letter. -/
theorem parseEscape_escaped {c : Char} (h : isEscape c = true) (reading : Reading)
    (rest : List Char) :
    parseEscape? reading false (c :: rest) = some (.char (unescaped c) false, reading, rest) := by
  have hother : ∀ letters : List Char, letters.any isEscape = false →
      letters.contains c = false := fun letters hletters => contains_eq_false isEscape hletters h
  have hassertion : startsAssertion c = false := by
    rw [startsAssertion, isDigit_of_isEscape h, hother _ (by decide)]
    rfl
  rw [parseEscape_plain hassertion (isDigit_of_isEscape h) (hother _ (by decide))]
  have hplain : plainEscape? false c = some (.char (unescaped c) false) := by
    unfold plainEscape? unescaped
    split <;> first
      | rfl
      | exact absurd h (by decide)
      | skip
    have halpha : c.isAlpha = false := by
      cases hcontrol : isControlLetter c with
      | true => simp_all [isControlLetter]
      | false =>
        rw [isEscape, hcontrol, Bool.false_or] at h
        simp only [Char.isAlphanum, Bool.and_eq_true, Bool.not_eq_true', Bool.or_eq_false_iff] at h
        exact h.1.1.1
    simp only [hother "dDsSwW".toList (by decide), halpha, Bool.false_and, Bool.false_eq_true,
      if_false]
  rw [hplain]
  rfl

/-- A code is read as the character that it gives. -/
theorem parseCode_codeText {letter : Char} {braced : Bool} {digits : List Char}
    (h : (Expr.coded letter braced digits).WellFormed) (rest : List Char) {c : Char}
    {left : List Char}
    (hread : parseCode? (codeWidth letter) (codeText braced digits ++ rest) = some (c, left)) :
    coded? digits = some c ∧ left = rest := by
  obtain ⟨⟨hletter, -, hhex⟩, hwidth⟩ := h
  cases braced with
  | true =>
    have hbrace : '}' ∉ digits := fun hmem => absurd (hhex '}' hmem) (by decide)
    have hshape : codeText true digits ++ rest = '{' :: (digits ++ '}' :: rest) := by
      simp [codeText]
    rw [hshape, parseCode_braces hletter hbrace] at hread
    obtain ⟨found, hfound, heq⟩ := Option.map_eq_some_iff.mp hread
    cases heq
    split at hfound
    · exact ⟨hfound, rfl⟩
    · cases hfound
  | false =>
    rw [show codeText false digits = digits from rfl, ← hwidth rfl, parseCode_digits hhex] at hread
    obtain ⟨found, hfound, heq⟩ := Option.map_eq_some_iff.mp hread
    cases heq
    exact ⟨hfound, rfl⟩

/-- The letter of a code. -/
theorem codeWidth_cases {letter : Char} (h : codeWidth letter ≠ 0) :
    letter = 'x' ∨ letter = 'u' ∨ letter = 'U' := by
  unfold codeWidth at h
  split at h
  · exact .inl rfl
  · exact .inr (.inl rfl)
  · exact .inr (.inr rfl)
  · exact absurd rfl h

theorem readsItem_coded {letter : Char} {braced : Bool} {digits : List Char}
    (h : (Expr.coded letter braced digits).WellFormed) :
    ReadsItem (.coded letter braced digits) := by
  refine readsItem_of_escape (letter :: codeText braced digits) rfl ?_
  intro ignoreCase reading rest escape after left tree hflags _ hread htree
  have hcode : ((parseCode? (codeWidth letter) (codeText braced digits ++ rest)).bind fun found =>
      some (Escape.char found.1 reading.flags.ignoreCase, reading, found.2))
        = some (escape, after, left) := by
    rcases codeWidth_cases h.1.1 with rfl | rfl | rfl <;> exact hread
  obtain ⟨found, hfound, heq⟩ := Option.bind_eq_some_iff.mp hcode
  obtain ⟨hchar, hleft⟩ := parseCode_codeText h rest hfound
  cases heq
  cases htree
  refine ⟨hleft, .refl reading rfl fun _ => rfl,
    .leaf (fun text retry place => ?_) rfl rfl (fun _ => rfl) fun _ => .literal _ _⟩
  rw [Expr.ways, hchar, hflags]
  rfl

theorem readsItem_escaped {c : Char} (h : isEscape c = true) : ReadsItem (.escaped c) := by
  refine readsItem_of_escape [c] rfl ?_
  intro ignoreCase reading rest escape after left tree hflags _ hread htree
  rw [List.singleton_append, parseEscape_escaped h] at hread
  cases hread
  cases htree
  exact ⟨rfl, .refl reading rfl fun _ => rfl, .leaf (fun _ _ _ => rfl) rfl rfl (fun _ => rfl) fun _ => .literal _ _⟩

theorem readsItem_short (kind : ShortClass) (negated : Bool) :
    ReadsItem (.short kind negated) := by
  refine readsItem_of_escape [shortLetter kind negated] rfl ?_
  intro ignoreCase reading rest escape after left tree hflags _ hread htree
  have hescape : parseEscape? reading false (shortLetter kind negated :: rest)
      = some (.set ['\\', shortLetter kind negated], reading, rest) := by
    cases kind <;> cases negated <;> rfl
  have hset : writtenSet? ['\\', shortLetter kind negated] = some (.short kind negated) := by
    cases kind <;> cases negated <;> rfl
  rw [List.singleton_append, hescape] at hread
  cases hread
  rw [Escape.toTree?, hset] at htree
  cases htree
  refine ⟨rfl, .refl reading rfl fun _ => rfl,
    .leaf (fun text retry place => ?_) rfl rfl (fun _ => rfl) fun _ => .set _ _⟩
  cases negated <;> rfl

theorem readsItem_wordBoundary : ReadsItem .wordBoundary := by
  refine readsItem_of_escape ['b'] rfl ?_
  intro ignoreCase reading rest escape after left tree hflags happart hread htree
  have hescape : parseEscape? reading false ('b' :: rest)
      = some (.anchor .wordBoundary, reading, rest) := by
    cases rest with
    | nil => rfl
    | cons c others =>
      have hc : c ≠ '{' := happart.2 rfl c rfl
      show parseAssertion? reading ('b' :: c :: others) = _
      simp [parseAssertion?, hc]
  rw [List.singleton_append, hescape] at hread
  cases hread
  cases htree
  exact ⟨rfl, .refl reading rfl fun _ => rfl, .leaf (fun _ _ _ => rfl) rfl rfl (fun heasy => by cases heasy)
    fun _ => .anchor _⟩

/-- A number is read as a reference. -/
theorem parseEscape_digit {c : Char} (h : c.isDigit = true) (reading : Reading)
    (rest : List Char) :
    parseEscape? reading false (c :: rest)
      = (reading.parseNumbered? (c :: rest)).map fun found =>
          (.backref found.1, found.2.1, found.2.2) := by
  have hassertion : startsAssertion c = true := by rw [startsAssertion, h, Bool.true_or]
  unfold parseEscape?
  simp only [hassertion, Bool.not_false, Bool.and_self, if_true]
  unfold parseAssertion?
  split
  case h_13 =>
    rename_i heq
    cases heq
    simp only [h, if_true]
    cases reading.parseNumbered? (c :: rest) <;> rfl
  all_goals
    rename_i heq
    cases heq
    try exact absurd h (by decide)

theorem readsItem_backref (number : Nat) : ReadsItem (.backref number) := by
  refine readsItem_of_escape (Nat.toDigits 10 number) rfl ?_
  intro ignoreCase reading rest escape after left tree hflags happart hread htree
  have hrest : ∀ c ∈ rest.head?, c.isDigit = false := happart.1 rfl
  obtain ⟨digit, digits, hdigits, hdigit⟩ := head_toDigits number
  have hescape := parseEscape_digit hdigit reading (digits ++ rest)
  rw [← List.cons_append, ← hdigits] at hescape
  rw [hescape] at hread
  obtain ⟨found, hfound, heq⟩ := Option.map_eq_some_iff.mp hread
  obtain ⟨group, hgroup, hfound⟩ := Option.bind_eq_some_iff.mp hfound
  have hnumber : group = (number, rest) := by
    have hvalue := foldl_toDigits number
    rw [parseNumber?, takeWhile_toDigits number hrest, dropWhile_toDigits number hrest] at hgroup
    rw [hdigits] at hvalue hgroup
    simp only [hvalue] at hgroup
    split at hgroup
    · cases hgroup
      rfl
    · cases hgroup
  subst hnumber
  simp only at hfound
  split at hfound
  · cases hfound
    cases heq
    cases htree
    refine ⟨rfl, ⟨rfl, rfl, fun group => ?_⟩, .backref number⟩
    exact List.mem_cons.trans (or_congr_left ⟨fun heq => beq_iff_eq.mpr heq.symm,
      fun heq => (beq_iff_eq.mp heq).symm⟩)
  · cases hfound

/-! ### Every expression -/

theorem readsItem_capture {body : Expr} (hwf : (Expr.capture body).WellFormed)
    (hbody : ReadsBranches body) : ReadsItem (.capture body) := by
  refine readsItem_of_group hwf (body.render ++ [')']) rfl ?_
  intro ignoreCase steps depth reading rest found hflags hread
  rw [List.append_assoc] at hread
  have hwf' : body.WellFormed := hwf
  have hopening := parseOpening_capture (Flags.verbose_of_plain hflags)
    (clean_render hwf' (clean_cons (show ')' ≠ '(' by decide) rest))
    (Expr.head?_render_close hwf' rest)
  have hinside : ({ reading with groups := reading.groups + 1 } : Reading).flags
      = .plain ignoreCase := hflags
  obtain ⟨after, more, tree, hgrows, hmeans, htree, rfl⟩ :=
    parseGroup_body hflags hinside hbody hopening rfl (.inr rfl) hread
  cases htree
  refine ⟨{ after with flags := reading.flags }, _, ⟨rfl, ?_, hgrows.mem_targets⟩, hmeans.capture, rfl⟩
  have hgroups := hgrows.groups_eq
  rw [Expr.captures]
  simp only at hgroups ⊢
  omega

theorem readsItem_bare {body : Expr} (hwf : (Expr.bare body).WellFormed)
    (hbody : ReadsBranches body) : ReadsItem (.bare body) := by
  refine readsItem_of_group hwf ('?' :: ':' :: (body.render ++ [')'])) rfl ?_
  intro ignoreCase steps depth reading rest found hflags hread
  have hopening := (parseOpening_flags (Flags.verbose_of_plain hflags)
    (body.render ++ ')' :: rest)).1
  rw [List.cons_append, List.cons_append, List.append_assoc] at hread
  obtain ⟨after, more, tree, hgrows, hmeans, htree, rfl⟩ :=
    parseGroup_body hflags hflags hbody hopening rfl (.inr rfl) hread
  cases htree
  exact ⟨{ after with flags := reading.flags }, _,
    ⟨rfl, hgrows.groups_eq, hgrows.mem_targets⟩, hmeans.bare, rfl⟩

theorem readsItem_ignoring {body : Expr} (hwf : (Expr.ignoring body).WellFormed)
    (hbody : ReadsBranches body) : ReadsItem (.ignoring body) := by
  refine readsItem_of_group hwf ('?' :: 'i' :: ':' :: (body.render ++ [')'])) rfl ?_
  intro ignoreCase steps depth reading rest found hflags hread
  have hopening := (parseOpening_flags (Flags.verbose_of_plain hflags)
    (body.render ++ ')' :: rest)).2.1
  have hinside : { reading.flags with ignoreCase := true } = Flags.plain true := by
    rw [hflags]
    rfl
  rw [List.cons_append, List.cons_append, List.cons_append, List.append_assoc] at hread
  obtain ⟨after, more, tree, hgrows, hmeans, htree, rfl⟩ :=
    parseGroup_body hflags hinside hbody hopening rfl (.inl rfl) hread
  cases htree
  exact ⟨{ after with flags := reading.flags }, _,
    ⟨rfl, hgrows.groups_eq, hgrows.mem_targets⟩, hmeans.ignoring, rfl⟩

theorem readsItem_look {behind negated : Bool} {body : Expr}
    (hwf : (Expr.look behind negated body).WellFormed) (hbody : ReadsBranches body) :
    ReadsItem (.look behind negated body) := by
  refine readsItem_of_group hwf
    ('?' :: (Expr.lookMark behind negated ++ (body.render ++ [')']))) rfl ?_
  intro ignoreCase steps depth reading rest found hflags hread
  have hopening := parseOpening_look (Flags.verbose_of_plain hflags) behind negated
    (body.render ++ ')' :: rest)
  rw [List.cons_append, List.append_assoc, List.append_assoc] at hread
  obtain ⟨after, more, tree, hgrows, hmeans, htree, rfl⟩ :=
    parseGroup_body hflags hflags hbody hopening rfl (.inr rfl) hread
  cases htree
  exact ⟨{ after with flags := reading.flags }, _,
    ⟨rfl, hgrows.groups_eq, hgrows.mem_targets⟩, hmeans.look behind negated, rfl⟩

/-- Any character at all is written with a flag of its own. -/
theorem readsItem_anyChar : ReadsItem .anyChar := by
  refine readsItem_of_group trivial ['?', 's', ':', '.', ')'] rfl ?_
  intro ignoreCase steps depth reading rest found hflags hread
  have hverbose := Flags.verbose_of_plain hflags
  have hopening := (parseOpening_flags hverbose ('.' :: ')' :: rest)).2.2
  have hinside : ({ reading with flags := { reading.flags with dotAll := true } } :
      Reading).flags.verbose = false := hverbose
  cases steps with
  | zero => cases hread
  | succ steps =>
    rw [parseGroup?] at hread
    split at hread
    · cases hread
    · simp only [List.cons_append, List.nil_append, hopening, bind, Option.bind_some] at hread
      obtain ⟨result, hresult, hread⟩ := Option.bind_eq_some_iff.mp hread
      cases steps with
      | zero => cases hresult
      | succ steps =>
        rw [parseBranches?] at hresult
        obtain ⟨found', hfound, hresult⟩ := Option.bind_eq_some_iff.mp hresult
        obtain ⟨steps', hon⟩ := parseItems_piece hinside (show isMark '.' = false by decide) hfound
        rw [readOn?, parseSuffix_none hinside _ (clean_cons (by decide) rest)
          (by rintro c ⟨⟩; rfl), Option.bind_some] at hon
        cases parseItems_end hinside (by rintro c ⟨⟩; exact .inl rfl) hon
        simp only at hresult
        split at hresult
        · rename_i heq
          cases heq
        · split at hresult
          · cases hresult
          · cases hresult
            rw [Reading.close_eq hinside rest] at hread
            cases hread
            exact ⟨reading, .any true, .refl reading rfl fun _ => rfl,
              .leaf (fun _ _ _ => rfl) rfl rfl (fun _ => rfl) fun _ => .any true, rfl⟩
        · rename_i hne _
          exact absurd rfl hne

/-- Two rows are read one after the other. -/
theorem ReadsRow.seq {first second : Expr} (hwf : (Expr.seq first second).WellFormed)
    (hfirst : ReadsRow first) (hsecond : ReadsRow second) : ReadsRow (.seq first second) := by
  intro ignoreCase steps depth reading items rest result hflags happart hclean hrest hread
  have hnext : ∀ c ∈ (second.render ++ rest).head?, isCountStart c = false :=
    Expr.head?_render_append hwf.2.1.2 hrest
  rw [Expr.render, List.append_assoc] at hread
  obtain ⟨steps', reading', left, hleft, hmeans, hread⟩ :=
    hfirst ignoreCase steps depth reading items _ result hflags (Expr.Apart.first hwf happart)
      (clean_render hwf.2.1.2 hclean) hnext hread
  obtain ⟨steps'', reading'', right, hright, hmeans', hread⟩ :=
    hsecond ignoreCase steps' depth reading' _ rest result (hleft.flags_eq.trans hflags)
      happart.second hclean hrest hread
  rw [hleft.groups_eq] at hmeans'
  refine ⟨steps'', reading'', left ++ right, hleft.both hright rfl fun _ => rfl, hmeans.seq hmeans', ?_⟩
  rw [List.reverse_append, List.append_assoc]
  exact hread

/-- A row is read, and then other branches. -/
theorem ReadsBranches.alt {first second : Expr} (hfirst : ReadsRow first)
    (hsecond : ReadsBranches second) : ReadsBranches (.alt first second) := by
  intro ignoreCase steps depth reading branches rest result hflags hrest hread
  have hshape : (Expr.alt first second).render ++ rest
      = first.render ++ '|' :: (second.render ++ rest) := by simp [Expr.render]
  rw [hshape] at hread
  cases steps with
  | zero => cases hread
  | succ steps =>
    rw [parseBranches?] at hread
    obtain ⟨found, hfound, hread⟩ := Option.bind_eq_some_iff.mp hread
    obtain ⟨steps', reading', pieces, hleft, hmeans, hitems⟩ :=
      hfirst ignoreCase steps depth reading [] _ found hflags
        (Expr.apart_cons (by decide) (by decide) _) (clean_cons (by decide) _)
        (by rintro c ⟨⟩; rfl) hfound
    have hflags' := hleft.flags_eq.trans hflags
    cases parseItems_end (Flags.verbose_of_plain hflags') (by rintro c ⟨⟩; exact .inr rfl) hitems
    rw [List.append_nil, List.reverse_reverse] at hread
    obtain ⟨reading'', more, hright, hmeans', hresult⟩ :=
      hsecond ignoreCase steps depth reading' (Tree.ofItems pieces :: branches) rest result hflags'
        hrest hread
    rw [hleft.groups_eq] at hmeans'
    refine ⟨reading'', Tree.ofItems pieces :: more, hleft.both hright rfl fun _ => rfl,
      hmeans.alt hmeans', ?_⟩
    rw [hresult, List.reverse_cons, List.append_assoc]
    rfl

/-- The text of every expression is read as something that means the
same, if at all. -/
theorem reads {expr : Expr} (h : expr.WellFormed) :
    (expr.isItem = true → ReadsItem expr) ∧ (expr.isRow = true → ReadsRow expr) ∧
      ReadsBranches expr := by
  -- The three statements go together: a body is read as branches, a
  -- branch as a row and a row as items.
  have hitem : ∀ {expr : Expr}, ReadsItem expr →
      (expr.isItem = true → ReadsItem expr) ∧ (expr.isRow = true → ReadsRow expr) ∧
        ReadsBranches expr :=
    fun hread => ⟨fun _ => hread, fun _ => hread.row, hread.row.branches⟩
  have hrow : ∀ {expr : Expr}, expr.isItem = false → ReadsRow expr →
      (expr.isItem = true → ReadsItem expr) ∧ (expr.isRow = true → ReadsRow expr) ∧
        ReadsBranches expr :=
    fun hno hread => ⟨fun hyes => absurd (hno.symm.trans hyes) Bool.false_ne_true, fun _ => hread,
      hread.branches⟩
  induction expr with
  | empty =>
    refine hrow rfl ?_
    intro ignoreCase steps depth reading items rest result _ _ _ _ hread
    exact ⟨steps, reading, [], .refl reading rfl fun _ => rfl, .empty, hread⟩
  | char c => exact hitem (readsItem_char h)
  | escaped c => exact hitem (readsItem_escaped h)
  | coded letter braced digits => exact hitem (readsItem_coded h)
  | dot =>
    exact hitem (readsItem_of_piece (c := '.') rfl (by decide) rfl (fun _ => rfl)
      fun ignoreCase opened => .leaf (fun _ _ _ => rfl) rfl rfl (fun _ => rfl) fun _ => .any false)
  | anyChar => exact hitem readsItem_anyChar
  | short kind negated => exact hitem (readsItem_short kind negated)
  | bracket body => exact hitem (readsItem_bracket h)
  | wordBoundary => exact hitem readsItem_wordBoundary
  | textStart =>
    exact hitem (readsItem_of_piece (c := '^') rfl (by decide) rfl (fun _ => rfl)
      fun ignoreCase opened => .leaf (fun _ _ _ => rfl) rfl rfl (fun _ => rfl) fun _ => .anchor .textStart)
  | textEnd =>
    exact hitem (readsItem_of_piece (c := '$') rfl (by decide) rfl (fun _ => rfl)
      fun ignoreCase opened => .leaf (fun _ _ _ => rfl) rfl rfl (fun _ => rfl) fun _ => .anchor .textEnd)
  | capture body ih => exact hitem (readsItem_capture h (ih h).2.2)
  | bare body ih => exact hitem (readsItem_bare h (ih h).2.2)
  | ignoring body ih => exact hitem (readsItem_ignoring h (ih h).2.2)
  | look behind negated body ih => exact hitem (readsItem_look h (ih h).2.2)
  | backref number => exact hitem (readsItem_backref number)
  | seq first second ihFirst ihSecond =>
    have hfirst := (ihFirst h.2.1.1).2.1 h.1.1
    have hsecond := (ihSecond h.2.1.2).2.1 h.1.2
    exact hrow rfl (ReadsRow.seq h hfirst hsecond)
  | alt first second ihFirst ihSecond =>
    have hfirst := (ihFirst h.2.1).2.1 h.1
    exact ⟨fun hyes => (nomatch hyes), fun hyes => (nomatch hyes),
      ReadsBranches.alt hfirst (ihSecond h.2.2).2.2⟩
  | repeated count greedy body ih =>
    exact hrow rfl (ReadsItem.repeated h ((ih h.2.1).1 h.1.1))

/-- Where the extended dialect reads the text of an expression, the
tree has the ways of the expression. -/
theorem means_of_parse {expr : Expr} (h : expr.WellFormed) {parsed : Parsed}
    (hparse : parse? expr.render = some parsed) :
    parsed.tree.Means false 0 expr ∧ parsed.groups = expr.captures ∧
      ∀ group, group ∈ parsed.targets ↔ expr.refersTo group = true := by
  unfold parse? at hparse
  obtain ⟨found, hfound, hparse⟩ := Option.bind_eq_some_iff.mp hparse
  rw [← List.append_nil expr.render] at hfound
  obtain ⟨reading', more, hgrows, hmeans, rfl⟩ :=
    (reads h).2.2 false _ 0 _ [] [] found rfl (fun c hc => (nomatch hc)) hfound
  cases hparse
  refine ⟨hmeans, hgrows.groups_eq.trans (Nat.zero_add _), fun group => ?_⟩
  rw [hgrows.mem_targets]
  exact or_iff_left (List.not_mem_nil)

end Highlighter.Regex.Extended
