import Highlighter.Proofs.Regex.Extended.RenumberedCounts

/-!
# Patterns of texts with later references

Of related texts (`Renumbered`), related patterns are read: all groups and references of the second
one are numbered later (`Tree.shift`). The two readers go side by side; `reads_alike` is the
induction on the steps of the first one. As long as that one leaves something, in particular its own
closing parenthesis, the second reader has read the same.
-/

set_option autoImplicit false

namespace Highlighter.Regex.Extended

open Pattern

variable {base : Nat} {more cs ds left left' : List Char} {c : Char}
  {reading later after after' : Reading} {known : List Nat} {steps steps' depth depth' : Nat}

/-! ### Single steps of the readers -/

/-- Read items from a text that starts with no filler. -/
def itemsShown? (steps depth : Nat) (reading : Reading) (items : List Tree) :
    List Char → Option (List Tree × Reading × List Char)
  | [] => some (items.reverse, reading, [])
  | '|' :: rest => some (items.reverse, reading, '|' :: rest)
  | ')' :: rest => some (items.reverse, reading, ')' :: rest)
  | '+' :: _ => none
  | '*' :: _ => none
  | '?' :: _ => none
  | '(' :: rest => (parseGroup? steps (depth + 1) reading rest).bind fun found =>
    readOn? steps depth found.2.1 items found.1 found.2.2
  | '[' :: rest => (parseBracket? reading rest).bind fun found =>
    readOn? steps depth reading items found.1 found.2
  | '\\' :: rest => (parseEscape? reading false rest).bind fun found =>
    (found.1.toTree? found.2.1).bind fun tree => readOn? steps depth found.2.1 items tree found.2.2
  | c :: rest => readOn? steps depth reading items (reading.flags.piece c) rest

theorem isEmpty_piece (flags : Flags) (c : Char) : (flags.piece c).isEmpty = false := by
  unfold Flags.piece
  split <;> rfl

theorem parseItems_eq (reading : Reading) (items : List Tree) (cs : List Char) :
    parseItems? (steps + 1) depth reading items cs
      = (reading.skip? cs).bind (itemsShown? steps depth reading items) := by
  rw [parseItems?]
  refine congrArg (Option.bind (reading.skip? cs)) (funext fun shown => ?_)
  split
  case h_8 rest =>
    show _ = (parseBracket? reading rest).bind fun found =>
      readOn? steps depth reading items found.1 found.2
    cases hfound : parseBracket? reading rest with
    | none => rfl
    | some found =>
      rw [parseBracket_eq] at hfound
      obtain ⟨text, -, hfound⟩ := Option.bind_eq_some_iff.mp hfound
      obtain ⟨set, -, rfl⟩ := Option.map_eq_some_iff.mp hfound
      exact (readOn_eq rfl _).symm
  case h_9 rest =>
    show _ = (parseEscape? reading false rest).bind fun found =>
      (found.1.toTree? found.2.1).bind fun tree =>
        readOn? steps depth found.2.1 items tree found.2.2
    cases parseEscape? reading false rest with
    | none => rfl
    | some found =>
      show (found.1.toTree? found.2.1).bind _ = (found.1.toTree? found.2.1).bind _
      cases htree : found.1.toTree? found.2.1 with
      | none => rfl
      | some tree => exact (readOn_eq (isEmpty_toTree htree) _).symm
  case h_10 c rest h1 h2 h3 h4 h5 h6 h7 h8 =>
    rw [itemsShown?]
    · exact (readOn_eq (isEmpty_piece reading.flags c) _).symm
    all_goals assumption
  all_goals rfl

/-- Filler at the start makes no difference. -/
theorem parseItems_skip {shown : List Char} (hskip : reading.skip? cs = some shown)
    (items : List Tree) :
    parseItems? steps depth reading items shown = parseItems? steps depth reading items cs := by
  cases steps with
  | zero => rfl
  | succ steps => rw [parseItems_eq, parseItems_eq, hskip, Reading.skip_skip hskip]

/-! ### Texts that end early -/

theorem itemsShown_piece (hmark : isMark c = false) (reading : Reading) (items : List Tree)
    (rest : List Char) :
    itemsShown? steps depth reading items (c :: rest)
      = readOn? steps depth reading items (reading.flags.piece c) rest := by
  have hne : ∀ d ∈ "|)([?*+\\".toList, c ≠ d := by
    rintro d hd rfl
    rw [isMark, List.contains_iff_mem.mpr hd] at hmark
    cases hmark
  rw [itemsShown?]
  all_goals exact hne _ (by decide)

theorem parseRepetition_none (h : ∀ c ∈ cs.head?, isCountStart c = false) :
    parseRepetition? reading cs = none := by
  rw [parseRepetition?]
  all_goals
    rintro rest rfl
    exact absurd (h _ rfl) (by decide)

theorem isMark_of_count (h : c.isDigit = true ∨ c = ',') : isMark c = false :=
  Bool.eq_false_iff.mpr fun hmark =>
    ne_of_count h (by decide) c (List.contains_iff_mem.mp hmark) rfl

theorem isCountStart_of_count (h : c.isDigit = true ∨ c = ',') : isCountStart c = false := by
  have hne := ne_of_count h (show ['?', '*', '+', '\x7b'].all _ = true by decide)
  simp [isCountStart, hne]

namespace EndsEarly

theorem skip {shown : List Char} (hskip : reading.skip? cs = some shown) (h : EndsEarly reading cs) :
    EndsEarly reading shown ∧ ∀ c ∈ shown.head?, c.isDigit = true ∨ c = ',' := by
  have hshown := Reading.skip_skip hskip
  cases h with
  | done h =>
    rcases h with hnone | hnil
    · rw [hskip] at hnone
      cases hnone
    · rw [hskip] at hnil
      cases hnil
      exact ⟨.done (.inr rfl), by rintro d ⟨⟩⟩
  | step hrest hc h =>
    rw [hskip] at hrest
    cases hrest
    exact ⟨.step hshown hc h, by rintro d ⟨⟩; exact hc⟩

theorem readOn_of {items found : List Tree} {tree : Tree} (h : EndsEarly reading cs)
    (hitems : ∀ items,
      parseItems? steps depth reading items cs = some (found, after, left) → left = [])
    (hread : readOn? steps depth reading items tree cs = some (found, after, left)) : left = [] := by
  obtain ⟨suffixed, hsuffix, hread⟩ := Option.bind_eq_some_iff.mp hread
  rw [parseSuffix_eq] at hsuffix
  obtain ⟨shown, hskip, hsuffix⟩ := Option.bind_eq_some_iff.mp hsuffix
  have hnone : parseRepetition? reading shown = none := parseRepetition_none fun c hc =>
    isCountStart_of_count ((h.skip hskip).2 c hc)
  rw [hnone] at hsuffix
  cases hsuffix
  rw [parseItems_skip hskip] at hread
  exact hitems _ hread

/-- Nothing is left of a text that ends early. -/
theorem parseItems {items found : List Tree} (h : EndsEarly reading cs)
    (hread : parseItems? steps depth reading items cs = some (found, after, left)) : left = [] := by
  induction h generalizing steps items with
  | done h =>
    cases steps with
    | zero => cases hread
    | succ steps =>
      rw [parseItems_eq] at hread
      rcases h with hskip | hskip
      · rw [hskip] at hread
        cases hread
      · rw [hskip] at hread
        cases hread
        rfl
  | @step c cs rest hskip hc hrest ih =>
    cases steps with
    | zero => cases hread
    | succ steps =>
      rw [parseItems_eq, hskip, Option.bind_some, itemsShown_piece (isMark_of_count hc)] at hread
      exact hrest.readOn_of (fun _ => ih) hread

/-- A brace that starts no count stands for itself. -/
theorem parseItems_brace {items found : List Tree} (h : EndsEarly reading cs)
    (hread : parseItems? steps depth reading items ('\x7b' :: cs) = some (found, after, left)) :
    left = [] := by
  cases steps with
  | zero => cases hread
  | succ steps =>
    rw [parseItems_eq, skip_eq (by decide) (by decide), Option.bind_some,
      itemsShown_piece (by decide)] at hread
    exact h.readOn_of (fun _ => h.parseItems) hread

end EndsEarly

/-! ### Groups and branches -/

/-- What a group with a body is read as. -/
def Opening.around : Opening → Tree → Tree
  | look behind negated, body => .look behind negated body
  | capture index, body => .group index body
  | atomic, body => .atomic body
  | _, body => body

/-- What the reader knows after a group with a body. Only a group that sets flags sets them back. -/
def Opening.leave (before : Reading) : Opening → Reading → Reading
  | look _ _, reading => reading
  | capture _, reading => reading
  | atomic, reading => reading
  | _, reading => { reading with flags := before.flags }

/-- How a group is read. -/
inductive GroupRead (steps depth : Nat) (reading : Reading) (cs : List Char) :
    Tree × Reading × List Char → Prop where
  /-- A reference or a condition. -/
  | other {opening : Opening} {inside : Reading} {rest : List Char}
    {found : Tree × Reading × List Char}
    (hopening : parseOpening? reading cs = some (opening, inside, rest))
    (hgroup : opening.isGroup = false) : GroupRead steps depth reading cs found
  | flags {inside : Reading} {rest : List Char}
    (hopening : parseOpening? reading cs = some (.flags, inside, rest)) :
    GroupRead steps depth reading cs (.empty, inside, rest)
  | body {opening : Opening} {inside : Reading} {rest : List Char} {body : Tree}
    {after : Reading} {between left : List Char}
    (hopening : parseOpening? reading cs = some (opening, inside, rest))
    (hbody : parseBranches? steps depth inside [] rest = some (body, after, between))
    (hclose : after.close? between = some left) (hflags : opening ≠ .flags) :
    GroupRead steps depth reading cs (opening.around body, opening.leave reading after, left)

theorem groupRead {found : Tree × Reading × List Char}
    (h : parseGroup? (steps + 1) depth reading cs = some found) :
    GroupRead steps depth reading cs found := by
  rw [parseGroup?] at h
  split at h
  · cases h
  · obtain ⟨⟨opening, inside, rest⟩, hopening, h⟩ := Option.bind_eq_some_iff.mp h
    cases opening with
    | backref _ | cond => exact .other hopening rfl
    | flags =>
      cases h
      exact .flags hopening
    | look _ _ | capture _ | atomic | flagged =>
      obtain ⟨⟨body, after, between⟩, hbody, h⟩ := Option.bind_eq_some_iff.mp h
      obtain ⟨left, hclose, h⟩ := Option.bind_eq_some_iff.mp h
      cases h
      have hread := GroupRead.body hopening hbody hclose (fun heq => by cases heq)
      exact hread

/-- How branches are read, after `branches`: in so many steps the first one, and in so many the
others. -/
inductive BranchesRead (steps steps' depth : Nat) (reading : Reading) (branches : List Tree)
    (cs : List Char) : Tree × Reading × List Char → Prop where
  | next {items : List Tree} {between : Reading} {rest : List Char}
    {found : Tree × Reading × List Char}
    (hitems : parseItems? steps depth reading [] cs = some (items, between, '|' :: rest))
    (hrest : parseBranches? steps' depth between (Tree.ofItems items :: branches) rest = some found) :
    BranchesRead steps steps' depth reading branches cs found
  | last {items : List Tree} {after : Reading} {left : List Char} (hleft : left.head? ≠ some '|')
    (hitems : parseItems? steps depth reading [] cs = some (items, after, left)) :
    BranchesRead steps steps' depth reading branches cs
      (.ofBranches (branches.reverse ++ [.ofItems items]), after, left)

theorem branchesRead {branches : List Tree} {found : Tree × Reading × List Char}
    (h : parseBranches? (steps + 1) depth reading branches cs = some found) :
    BranchesRead steps steps depth reading branches cs found := by
  rw [parseBranches?] at h
  obtain ⟨⟨items, between, rest⟩, hitems, h⟩ := Option.bind_eq_some_iff.mp h
  dsimp only at h
  split at h
  · exact .next hitems h
  · rename_i hbar
    split at h
    · cases h
    · cases h
      exact .last (fun hhead => by
        obtain ⟨others, rfl⟩ := List.head?_eq_some_iff.mp hhead
        exact hbar _ rfl) hitems
  · rename_i hne hbar
    cases h
    have hhead : rest.head? ≠ some '|' := fun hhead => by
      obtain ⟨others, rfl⟩ := List.head?_eq_some_iff.mp hhead
      exact hbar _ rfl
    rw [List.reverse_cons, ← ofBranches_append (by simpa using hne)]
    exact .last hhead hitems

/-! ### Related readers -/

theorem shift_ofBranches (base : Nat) (branches : List Tree) :
    (Tree.ofBranches branches).shift base = .ofBranches (branches.map (Tree.shift base)) := by
  rcases branches with _ | ⟨branch, _ | ⟨second, rest⟩⟩
  · rfl
  · rfl
  · exact congrArg Tree.alternation (Tree.shiftAll_eq_map base _)

theorem within_ofBranches {groups : Nat} {branches : List Tree}
    (h : Tree.WithinAll groups branches) : (Tree.ofBranches branches).Within groups := by
  rcases branches with _ | ⟨branch, _ | ⟨second, rest⟩⟩
  · exact h
  · exact h.1
  · exact h

/-- What the readers know after related texts, and what they leave. -/
structure LeavesAlike (base : Nat) (known : List Nat) (more : List Char) (reading : Reading)
    (found later : Reading × List Char) : Prop where
  readers : found.1.Shifted base known later.1
  groups_le : reading.groups ≤ found.1.groups
  rest : Renumbered base more found.2 later.2

/-- Related trees are read from related texts, unless the first one comes to its end. -/
def TreesAlike (base : Nat) (known : List Nat) (more : List Char) (reading : Reading)
    (found later : Tree × Reading × List Char) : Prop :=
  found.2.2 = [] ∨ later.1 = found.1.shift base ∧ found.1.Within found.2.1.groups ∧
    LeavesAlike base known more reading found.2 later.2

/-- Related rows are read from related texts, unless the first one comes to its end. -/
def RowsAlike (base : Nat) (known : List Nat) (more : List Char) (reading : Reading)
    (found later : List Tree × Reading × List Char) : Prop :=
  found.2.2 = [] ∨ later.1 = found.1.map (Tree.shift base) ∧
    Tree.WithinAll found.2.1.groups found.1 ∧
      LeavesAlike base known more reading found.2 later.2

theorem LeavesAlike.mono {before : Reading} {found later : Reading × List Char}
    (hle : before.groups ≤ reading.groups) (h : LeavesAlike base known more reading found later) :
    LeavesAlike base known more before found later :=
  { h with groups_le := Nat.le_trans hle h.groups_le }

theorem RowsAlike.mono {before : Reading} {found later : List Tree × Reading × List Char}
    (hle : before.groups ≤ reading.groups) (h : RowsAlike base known more reading found later) :
    RowsAlike base known more before found later :=
  h.imp_right (And.imp_right (And.imp_right (LeavesAlike.mono hle)))

/-- The readers of branches agree, as far as the first one gets in so many steps. -/
def BranchesAlike (base : Nat) (known : List Nat) (more : List Char) (steps : Nat) : Prop :=
  ∀ {depth steps' depth' : Nat} {reading later : Reading} {branches : List Tree} {cs ds : List Char}
    {found found' : Tree × Reading × List Char}, GoesOn base more cs ds →
    reading.Shifted base known later → Tree.WithinAll reading.groups branches →
    parseBranches? steps depth reading branches cs = some found →
    parseBranches? steps' depth' later (branches.map (Tree.shift base)) ds = some found' →
    TreesAlike base known more reading found found'

/-- The readers of items agree, as far as the first one gets in so many steps. -/
def ItemsAlike (base : Nat) (known : List Nat) (more : List Char) (steps : Nat) : Prop :=
  ∀ {depth steps' depth' : Nat} {reading later : Reading} {items : List Tree} {cs ds : List Char}
    {found found' : List Tree × Reading × List Char}, GoesOn base more cs ds →
    reading.Shifted base known later → Tree.WithinAll reading.groups items →
    parseItems? steps depth reading items cs = some found →
    parseItems? steps' depth' later (items.map (Tree.shift base)) ds = some found' →
    RowsAlike base known more reading found found'

/-- The readers of groups agree, as far as the first one gets in so many steps. -/
def GroupsAlike (base : Nat) (known : List Nat) (more : List Char) (steps : Nat) : Prop :=
  ∀ {depth steps' depth' : Nat} {reading later : Reading} {cs ds : List Char}
    {found found' : Tree × Reading × List Char}, Renumbered base more cs ds →
    opensPlainly cs = true → reading.Shifted base known later →
    parseGroup? steps depth reading cs = some found →
    parseGroup? steps' depth' later ds = some found' →
    TreesAlike base known more reading found found'

/-! ### Items -/

theorem ItemsAlike.readOn (hitems : ItemsAlike base known more steps) (h : GoesOn base more cs ds)
    (hreaders : reading.Shifted base known later) {items : List Tree} {tree tree' : Tree}
    {found found' : List Tree × Reading × List Char}
    (hwithinAll : Tree.WithinAll reading.groups items)
    (htree : tree' = tree.shift base) (hwithin : tree.Within reading.groups)
    (hread : readOn? steps depth reading items tree cs = some found)
    (hread' : readOn? steps' depth' later (items.map (Tree.shift base)) tree' ds = some found') :
    RowsAlike base known more reading found found' := by
  subst htree
  obtain ⟨⟨counted, left⟩, hsuffix, hread⟩ := Option.bind_eq_some_iff.mp hread
  obtain ⟨⟨counted', left'⟩, hsuffix', hread'⟩ := Option.bind_eq_some_iff.mp hread'
  dsimp only at hread hread'
  rcases h.parseSuffix hreaders.flags_eq hwithin hsuffix hsuffix' with
    rfl | ⟨rest, rfl, hends⟩ | ⟨rfl, hcounted, hleft⟩
  · exact .inl (EndsEarly.parseItems (.done (.inr rfl)) hread)
  · exact .inl (hends.parseItems_brace hread)
  · rw [Tree.isEmpty_shift] at hread'
    cases hempty : counted.isEmpty with
    | true =>
      rw [hempty] at hread hread'
      exact hitems (.inr hleft) hreaders hwithinAll hread hread'
    | false =>
      rw [hempty] at hread hread'
      have hmore : Tree.WithinAll reading.groups (counted :: items) := ⟨hcounted, hwithinAll⟩
      exact hitems (.inr hleft) hreaders hmore hread hread'

/-- A tree without references and groups is the same in a union. -/
theorem shift_toTree (base : Nat) {escape : Escape} {tree : Tree}
    (hback : ∀ group, escape ≠ .backref group)
    (hflags : later.flags = reading.flags) (htree : escape.toTree? reading = some tree) :
    escape.toTree? later = some tree ∧ tree.shift base = tree ∧ ∀ groups, tree.Within groups := by
  cases escape with
  | backref group => exact absurd rfl (hback group)
  | set written =>
    obtain ⟨set, hset, rfl⟩ := Option.map_eq_some_iff.mp htree
    refine ⟨?_, rfl, fun _ => trivial⟩
    rw [Escape.toTree?, hset, hflags]
    rfl
  | _ =>
    cases htree
    exact ⟨rfl, rfl, fun _ => trivial⟩

theorem shift_piece (base : Nat) (flags : Flags) (c : Char) :
    (flags.piece c).shift base = flags.piece c ∧ ∀ groups, (flags.piece c).Within groups := by
  unfold Flags.piece
  split <;> exact ⟨rfl, fun _ => trivial⟩

/-- A reference by number is read from both texts. -/
theorem Renumbered.parseNumbered (h : Renumbered base more cs ds)
    (hend : ∀ c ∈ cs.head?, c.isDigit = false) {number : Nat} (hpos : 1 ≤ number)
    (hreaders : reading.Shifted base known later) {found found' : Nat × Reading × List Char}
    (hread : reading.parseNumbered? (Nat.toDigits 10 number ++ cs) = some found)
    (hread' : later.parseNumbered? (Nat.toDigits 10 (base + number) ++ ds) = some found') :
    found.1 = number ∧ found'.1 = base + number ∧ number ≤ found.2.1.groups ∧
      LeavesAlike base known more reading found.2 found'.2 := by
  have hvalue : ∀ {number : Nat} {cs : List Char} {found : Nat × List Char},
      (∀ c ∈ cs.head?, c.isDigit = false) →
      parseNumber? (Nat.toDigits 10 number ++ cs) = some found → found = (number, cs) := by
    intro number cs found hend hfound
    by_cases hlimit : number < numberLimit
    · rw [parseNumber_toDigits hlimit hend] at hfound
      exact (Option.some.inj hfound).symm
    · obtain ⟨digit, digits, hdigits, -⟩ := head_toDigits number
      have hnumber := foldl_toDigits number
      rw [parseNumber?, takeWhile_toDigits number hend] at hfound
      rw [hdigits] at hfound hnumber
      simp only [hnumber, if_neg hlimit] at hfound
      cases hfound
  obtain ⟨group, hgroup, hread⟩ := Option.bind_eq_some_iff.mp hread
  obtain ⟨group', hgroup', hread'⟩ := Option.bind_eq_some_iff.mp hread'
  cases hvalue hend hgroup
  cases hvalue (by rwa [h.head?_eq]) hgroup'
  dsimp only at hread hread'
  split at hread
  · rename_i hle
    split at hread'
    · cases hread
      cases hread'
      have hle : number ≤ reading.groups := (Bool.and_eq_true_iff.mp hle).2 |> of_decide_eq_true
      refine ⟨rfl, rfl, hle, ⟨⟨hreaders.flags_eq, hreaders.groups_eq, ?_, ?_⟩, Nat.le_refl _, h⟩⟩
      · exact congrArg ((base + number) :: ·) hreaders.targets_eq
      · exact List.forall_mem_cons.mpr ⟨⟨hpos, hle⟩, hreaders.targets_within⟩
    · cases hread'
  · cases hread

theorem ItemsAlike.step (hitems : ItemsAlike base known more steps)
    (hgroups : GroupsAlike base known more steps) : ItemsAlike base known more (steps + 1) := by
  intro depth steps' depth' reading later items cs ds found found' h hreaders hwithin hread hread'
  cases steps' with
  | zero => cases hread'
  | succ steps' =>
    rw [parseItems_eq] at hread hread'
    obtain ⟨shown, hskip, hread⟩ := Option.bind_eq_some_iff.mp hread
    obtain ⟨shown', hskip', hread'⟩ := Option.bind_eq_some_iff.mp hread'
    rcases h.skip hreaders.flags_eq hskip with rfl | ⟨_, hshown', hshown⟩
    · cases hread
      exact .inl rfl
    rw [hskip'] at hshown'
    cases hshown'
    have hends : RowsAlike base known more reading (items.reverse, reading, shown)
        ((items.map (Tree.shift base)).reverse, later, shown') := by
      refine .inr ⟨List.map_reverse.symm, ?_, hreaders, Nat.le_refl _, hshown⟩
      exact Tree.withinAll_iff.mpr fun item hitem =>
        Tree.withinAll_iff.mp hwithin item (List.mem_reverse.mp hitem)
    unfold itemsShown? at hread
    split at hread
    · exact absurd rfl hshown.ne_nil
    · obtain ⟨others, rfl, -⟩ := hshown.uncons (by decide)
      cases hread
      cases hread'
      exact hends
    · obtain ⟨others, rfl, -⟩ := hshown.uncons (by decide)
      cases hread
      cases hread'
      exact hends
    · cases hread
    · cases hread
    · cases hread
    · rename_i rest
      obtain ⟨others, rfl, hrest⟩ := hshown.uncons_inside (by decide) (by decide)
      obtain ⟨⟨tree, between, left⟩, hgroup, hread⟩ := Option.bind_eq_some_iff.mp hread
      obtain ⟨⟨tree', between', left'⟩, hgroup', hread'⟩ := Option.bind_eq_some_iff.mp hread'
      rcases hgroups hrest hshown.opens hreaders hgroup hgroup' with hnil | ⟨htree, htrees, hleft⟩
      · cases hnil
        obtain ⟨⟨counted, left⟩, hsuffix, hread⟩ := Option.bind_eq_some_iff.mp hread
        cases hsuffix
        exact .inl (EndsEarly.parseItems (.done (.inr rfl)) hread)
      · exact (hitems.readOn (.inr hleft.rest) hleft.readers (hwithin.mono hleft.groups_le _) htree
          htrees hread hread').mono hleft.groups_le
    · rename_i rest
      obtain ⟨others, rfl, hrest⟩ := hshown.uncons_inside (by decide) (by decide)
      obtain ⟨⟨tree, left⟩, hset, hread⟩ := Option.bind_eq_some_iff.mp hread
      obtain ⟨⟨tree', left'⟩, hset', hread'⟩ := Option.bind_eq_some_iff.mp hread'
      obtain ⟨rfl, ⟨set, ignoreCase, rfl⟩, hleft⟩ := hrest.parseBracket hreaders.flags_eq hset hset'
      have hset : (Tree.set set ignoreCase).Within reading.groups := trivial
      exact hitems.readOn (.inr hleft) hreaders hwithin rfl hset hread hread'
    · rename_i rest
      obtain ⟨⟨escape, between, left⟩, hescape, hitem⟩ := Option.bind_eq_some_iff.mp hread
      obtain ⟨tree, htree, hon⟩ := Option.bind_eq_some_iff.mp hitem
      rcases hshown.uncons_slash with ⟨c, cs', ds', rfl, rfl, hplain, hrest⟩ |
        ⟨number, cs', ds', rfl, rfl, hpos, hend, hrest⟩
      · obtain ⟨⟨escape', between', left'⟩, hescape', hread'⟩ := Option.bind_eq_some_iff.mp hread'
        obtain ⟨tree', htree', hread'⟩ := Option.bind_eq_some_iff.mp hread'
        obtain ⟨hback, rfl, others, hsame, hleft⟩ :=
          hrest.parseEscape hplain later hreaders.flags_eq hescape
        rw [hescape'] at hsame
        cases hsame
        obtain ⟨hsame, hshift, hall⟩ := shift_toTree base hback hreaders.flags_eq htree
        rw [htree'] at hsame
        cases hsame
        exact hitems.readOn hleft hreaders hwithin hshift.symm (hall _) hon hread'
      · obtain ⟨⟨escape', between', left'⟩, hescape', hread'⟩ := Option.bind_eq_some_iff.mp hread'
        obtain ⟨tree', htree', hread'⟩ := Option.bind_eq_some_iff.mp hread'
        have hdigits : ∀ (reading : Reading) (number : Nat) (cs : List Char),
            parseEscape? reading false (Nat.toDigits 10 number ++ cs)
              = (reading.parseNumbered? (Nat.toDigits 10 number ++ cs)).map fun found =>
                  (.backref found.1, found.2.1, found.2.2) := by
          intro reading number cs
          obtain ⟨digit, digits, hdigits, hdigit⟩ := head_toDigits number
          rw [hdigits]
          exact parseEscape_digit hdigit reading _
        rw [hdigits] at hescape hescape'
        obtain ⟨⟨group, read, rest⟩, hgroup, heq⟩ := Option.map_eq_some_iff.mp hescape
        obtain ⟨⟨group', read', rest'⟩, hgroup', heq'⟩ := Option.map_eq_some_iff.mp hescape'
        cases heq
        cases heq'
        obtain ⟨rfl, rfl, hle, hleft⟩ := hrest.parseNumbered hend hpos hreaders hgroup hgroup'
        cases htree
        cases htree'
        have hnumber : (Tree.backref group).Within read.groups := ⟨hpos, hle⟩
        exact (hitems.readOn (.inr hleft.rest) hleft.readers (hwithin.mono hleft.groups_le _) rfl
          hnumber hon hread').mono hleft.groups_le
    · rename_i c rest hbar hclose hplus hstar hquestion hopen hbracket hslash
      obtain ⟨others, rfl, hrest⟩ := hshown.uncons hslash
      rw [itemsShown?] at hread'
      · obtain ⟨hshift, hall⟩ := shift_piece base reading.flags c
        rw [hreaders.flags_eq] at hread'
        exact hitems.readOn hrest hreaders hwithin hshift.symm (hall _) hread hread'
      all_goals assumption

/-! ### Groups, branches and whole texts -/

theorem Opening.shift_eq_flags {opening : Opening} (h : opening.shift base = .flags) :
    opening = .flags := by
  cases opening <;> first | rfl | cases h

theorem Opening.shift_around (opening : Opening) (body : Tree) :
    (opening.around body).shift base = (opening.shift base).around (body.shift base) := by
  cases opening <;> rfl

theorem Opening.within_around {groups : Nat} {opening : Opening} {body : Tree}
    (hindex : ∀ index, opening = .capture index → 1 ≤ index ∧ index ≤ groups)
    (h : body.Within groups) : (opening.around body).Within groups := by
  cases opening with
  | capture index => exact ⟨hindex index rfl, h⟩
  | _ => exact h

theorem Opening.shift_leave (opening : Opening) (before reading : Reading) :
    (opening.shift base).leave before reading = opening.leave before reading := by
  cases opening <;> rfl

theorem Opening.groups_leave (opening : Opening) (before reading : Reading) :
    (opening.leave before reading).groups = reading.groups := by
  cases opening <;> rfl

theorem Opening.shifted_leave (opening : Opening) {before before' : Reading}
    (hflags : before'.flags = before.flags) (h : after.Shifted base known after') :
    (opening.leave before after).Shifted base known (opening.leave before' after') := by
  cases opening <;> first | exact h | exact { h with flags_eq := hflags }

theorem parseBranches_nil {branches : List Tree} {tree : Tree}
    (h : parseBranches? steps depth reading branches [] = some (tree, after, left)) : left = [] := by
  cases steps with
  | zero => cases h
  | succ steps =>
    cases branchesRead h with
    | next hitems _ => cases EndsEarly.parseItems (.done (.inr rfl)) hitems
    | last _ hitems => exact EndsEarly.parseItems (.done (.inr rfl)) hitems

theorem BranchesAlike.group (hbranches : BranchesAlike base known more steps) :
    GroupsAlike base known more (steps + 1) := by
  intro depth steps' depth' reading later cs ds found found' h hopen hreaders hread hread'
  cases steps' with
  | zero => cases hread'
  | succ steps' =>
    have hgroup' : ∀ {opening opening' : Opening} {inside inside' : Reading} {rest rest' : List Char},
        parseOpening? reading cs = some (opening, inside, rest) →
        parseOpening? later ds = some (opening', inside', rest') →
        opening'.isGroup = false → rest = [] := by
      intro opening opening' inside inside' rest rest' hopening hopening' hgroup
      rcases h.parseOpening hopen hreaders hopening hopening' with hnil | ⟨halike, -⟩
      · exact hnil
      · rw [halike.opening_eq, Opening.isGroup_shift, isGroup_parseOpening hopen hopening] at hgroup
        cases hgroup
    cases groupRead hread with
    | other hopening hgroup =>
      rw [isGroup_parseOpening hopen hopening] at hgroup
      cases hgroup
    | flags hopening =>
      cases groupRead hread' with
      | other hopening' hgroup => exact .inl (hgroup' hopening hopening' hgroup)
      | flags hopening' =>
        rcases h.parseOpening hopen hreaders hopening hopening' with hnil | ⟨halike, hleft⟩
        · exact .inl hnil
        · exact .inr ⟨rfl, trivial, halike.readers, halike.groups_le, hleft⟩
      | body hopening' hbody' hclose' hflags =>
        rcases h.parseOpening hopen hreaders hopening hopening' with hnil | ⟨halike, -⟩
        · exact .inl hnil
        · exact absurd halike.opening_eq hflags
    | @body opening inside rest body after between left hopening hbody hclose hflags =>
      have hne : rest ≠ [] := by
        rintro rfl
        obtain rfl := parseBranches_nil hbody
        cases hclose
      cases groupRead hread' with
      | other hopening' hgroup => exact absurd (hgroup' hopening hopening' hgroup) hne
      | flags hopening' =>
        rcases h.parseOpening hopen hreaders hopening hopening' with hnil | ⟨halike, -⟩
        · exact absurd hnil hne
        · exact absurd (Opening.shift_eq_flags halike.opening_eq.symm) hflags
      | @body opening' inside' rest' body' after' between' left' hopening' hbody' hclose' _ =>
        rcases h.parseOpening hopen hreaders hopening hopening' with hnil | ⟨halike, hinner⟩
        · exact absurd hnil hne
        · have hnone : Tree.WithinAll inside.groups [] := trivial
          rcases hbranches (.inr hinner) halike.readers hnone hbody hbody' with
            rfl | ⟨htree, hwithin, hleft⟩
          · cases hclose
          · rcases GoesOn.close (.inr hleft.rest) hleft.readers.flags_eq hclose hclose' with
              hnil | hrest
            · exact .inl hnil
            · have hle := hleft.groups_le
              refine .inr ⟨?_, ?_, ?_, ?_, hrest⟩
              · show opening'.around body' = (opening.around body).shift base
                rw [halike.opening_eq, Opening.shift_around]
                exact congrArg _ htree
              · show (opening.around body).Within (opening.leave reading after).groups
                rw [Opening.groups_leave]
                exact Opening.within_around (fun index hindex =>
                  ⟨(halike.capture index hindex).1,
                    Nat.le_trans (halike.capture index hindex).2 hle⟩) hwithin
              · show (opening.leave reading after).Shifted base known (opening'.leave later after')
                rw [halike.opening_eq, Opening.shift_leave]
                exact opening.shifted_leave hreaders.flags_eq hleft.readers
              · show reading.groups ≤ (opening.leave reading after).groups
                rw [Opening.groups_leave]
                exact Nat.le_trans halike.groups_le hle

theorem ItemsAlike.branches (hitems : ItemsAlike base known more steps)
    (hbranches : BranchesAlike base known more steps) :
    BranchesAlike base known more (steps + 1) := by
  intro depth steps' depth' reading later branches cs ds found found' h hreaders hwithin hread hread'
  cases steps' with
  | zero => cases hread'
  | succ steps' =>
    have hnone : Tree.WithinAll reading.groups [] := trivial
    have hlast : ∀ {items : List Tree} {groups : Nat}, reading.groups ≤ groups →
        Tree.WithinAll groups items →
        Tree.WithinAll groups (Tree.ofItems items :: branches) :=
      fun hle hitems => ⟨Tree.within_ofItems hitems, hwithin.mono hle _⟩
    cases branchesRead hread with
    | next hrow hrest =>
      cases branchesRead hread' with
      | next hrow' hrest' =>
        rcases hitems h hreaders hnone hrow hrow' with hnil | ⟨rfl, hwithin', hleft⟩
        · cases hnil
        · obtain ⟨others, heq, hnext⟩ := hleft.rest.uncons (by decide)
          cases heq
          rw [← Tree.shift_ofItems, ← List.map_cons] at hrest'
          have hwithin' := hlast hleft.groups_le hwithin'
          exact (hbranches hnext hleft.readers hwithin' hrest hrest').imp_right
            (And.imp_right (And.imp_right (LeavesAlike.mono hleft.groups_le)))
      | last hbar hrow' =>
        rcases hitems h hreaders hnone hrow hrow' with hnil | ⟨-, -, hleft⟩
        · cases hnil
        · exact absurd hleft.rest.head?_eq hbar
    | last hbar hrow =>
      cases branchesRead hread' with
      | next hrow' _ =>
        rcases hitems h hreaders hnone hrow hrow' with hnil | ⟨-, -, hleft⟩
        · exact .inl hnil
        · exact absurd hleft.rest.head?_eq.symm hbar
      | last _ hrow' =>
        rcases hitems h hreaders hnone hrow hrow' with hnil | ⟨rfl, hwithin', hleft⟩
        · exact .inl hnil
        · refine .inr ⟨?_, ?_, hleft⟩
          · rw [shift_ofBranches, List.map_append, List.map_singleton, List.map_reverse,
              Tree.shift_ofItems]
          · refine within_ofBranches (Tree.withinAll_iff.mpr fun branch hbranch => ?_)
            rw [← List.reverse_cons, List.mem_reverse] at hbranch
            exact Tree.withinAll_iff.mp (hlast hleft.groups_le hwithin') branch hbranch

/-- Of related texts, related trees are read. -/
theorem reads_alike (base : Nat) (known : List Nat) (more : List Char) (steps : Nat) :
    BranchesAlike base known more steps ∧ ItemsAlike base known more steps ∧
      GroupsAlike base known more steps := by
  induction steps with
  | zero => exact ⟨nofun, nofun, nofun⟩
  | succ steps ih =>
    obtain ⟨hbranches, hitems, hgroups⟩ := ih
    exact ⟨hitems.branches hbranches, hitems.step hgroups, hbranches.group⟩

end Highlighter.Regex.Extended
