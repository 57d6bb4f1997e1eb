import Highlighter.Proofs.Union.ExtendedGroups

/-!
# Patterns of the extended dialect as members

What the extended dialect reads of a pattern, it reads of a member (`carries`). The induction is on
the steps of the reader of the pattern, and goes through branches, rows and groups together. The
tree of the pattern may become the tree of the member.
-/

set_option autoImplicit false

namespace Highlighter.Regex.Extended

variable {depth steps : Nat} {reading between after : Reading} {items branches out : List Tree}
  {tree found : Tree} {cs next left : List Char}

/-! ### Tests of what has been read -/

theorem everywhere_of_parseSuffix {test : Tree → Bool}
    (hread : parseSuffix? reading tree cs = some (found, next)) (h : found.everywhere test = true) : tree.everywhere test = true := by
  rw [parseSuffix_eq] at hread
  obtain ⟨shown, -, hread⟩ := Option.bind_eq_some_iff.mp hread
  split at hread
  · cases hread
    exact h
  · split at hread
    · cases hread
    · obtain ⟨rest, -, heq⟩ := Option.map_eq_some_iff.mp hread
      unfold repeatedBy at heq
      dsimp only at heq
      split at heq
      · cases heq
        exact (Bool.and_eq_true_iff.mp h).2
      · cases heq
        exact (Bool.and_eq_true_iff.mp (Bool.and_eq_true_iff.mp h).2).2

/-- What all items of a row pass, a piece of it with what repeats it does. -/
theorem everywhere_of_parseItems {test : Tree → Bool} (hempty : test .empty = true)
    (hread : parseItems? steps depth reading (if found.isEmpty then items else found :: items) cs
      = some (out, after, left))
    (h : ∀ item ∈ out, item.everywhere test = true) : found.everywhere test = true := by
  have hsubset := subset_of_parseItems hread
  split at hsubset
  · rename_i hfound
    cases found <;> first | exact hempty | cases hfound
  · exact h found (hsubset List.mem_cons_self)

/-- What a tree passes, the branches before pass. -/
theorem everywhere_of_parseBranches {test : Tree → Bool}
    (hread : parseBranches? steps depth reading branches cs = some (tree, after, left))
    (h : tree.everywhere test = true) : ∀ branch ∈ branches, branch.everywhere test = true := by
  induction steps generalizing reading branches cs with
  | zero => cases hread
  | succ steps ih =>
    cases branchesRead hread with
    | next hitems hrest => exact fun branch hbranch => ih hrest branch (.tail _ hbranch)
    | last hleft hitems =>
      exact fun branch hbranch => Tree.everywhere_of_ofBranches h branch
        (List.mem_append_left _ (List.mem_reverse.mpr hbranch))

theorem everywhere_around {test : Tree → Bool} (opening : Opening) {body : Tree}
    (h : (opening.around body).everywhere test = true) : body.everywhere test = true := by
  cases opening with
  | look | capture | atomic => exact (Bool.and_eq_true_iff.mp h).2
  | backref | cond | flags | flagged => exact h

theorem depth_le_of_parseGroup {result : Tree × Reading × List Char}
    (h : parseGroup? (steps + 1) depth reading cs = some result) : depth ≤ maxDepth := by
  rw [parseGroup?] at h
  split at h
  · cases h
  · exact Nat.le_of_not_lt ‹_›

theorem Opening.verbose_leave (opening : Opening) (hreading : reading.flags.verbose = false)
    (hafter : after.flags.verbose = false) :
    (opening.leave reading after).flags.verbose = false := by
  cases opening <;> assumption

end Highlighter.Regex.Extended

namespace Highlighter.Union

open Pattern Regex Regex.Extended

namespace Recasting

/-- From `items` on, a row is read from `cs` to `left`, and it is read in the member, too. -/
structure RowCarried (recasting : Recasting) (depth : Nat) (reading after : Reading)
    (items out : List Tree) (cs left : List Char) : Prop
    extends Carried recasting reading after cs left where
  ends : ∀ c ∈ left.head?, c = ')' ∨ c = '|'
  reads : ∀ {size : Nat} (later : Reading) (items' : List Tree) (tail : List Char),
    Follows recasting size reading later → Tree.RowBecomes recasting.kept items items' → Ends tail →
      ∃ out' after', Tree.RowBecomes recasting.kept out out' ∧ Follows recasting size after after' ∧
        RowReads depth later items' (recasting.text reading.groups cs ++ tail) out' after'
          (recasting.text after.groups left ++ tail)

/-- From the branches `before` on, a tree is read from `cs` to `left`, and it is read in the member,
too. -/
structure BranchesCarried (recasting : Recasting) (depth : Nat) (reading after : Reading)
    (before : List Tree) (tree : Tree) (cs left : List Char) : Prop
    extends Carried recasting reading after cs left where
  ends : Ends left
  reads : ∀ {size : Nat} (later : Reading) (before' : List Tree) (tail : List Char),
    Follows recasting size reading later →
      List.Forall₂ (Tree.MayBecome recasting.kept) before before' → Ends tail →
      ∃ tree' after', tree.MayBecome recasting.kept tree' ∧ Follows recasting size after after' ∧
        BranchesReads depth later before' (recasting.text reading.groups cs ++ tail) tree' after'
          (recasting.text after.groups left ++ tail)

variable {recasting : Recasting} {depth : Nat} {reading inside between after : Reading}
  {tree found body : Tree} {items out before : List Tree}
  {cs rest next opened left tail : List Char}

/-! ### Steps -/

/-- What closes a group of a pattern closes one of the member. -/
theorem ends_text {opened : Nat} (hleft : Ends left) (htail : Ends tail) :
    Ends (recasting.text opened left ++ tail) := by
  cases left with
  | nil => rwa [text_nil]
  | cons c rest =>
    obtain rfl := hleft c rfl
    rw [text_close]
    rintro c ⟨⟩
    rfl

/-- A row that ends. -/
theorem rowCarried_stop (hverbose : reading.flags.verbose = false)
    (hsteady : Steady recasting.kept reading.groups left)
    (hleft : ∀ c ∈ left.head?, c = ')' ∨ c = '|') :
    RowCarried recasting depth reading reading items items.reverse left left where
  verbose := hverbose
  steady := hsteady
  length := Nat.le_refl _
  ends := hleft
  reads later items' tail hfollows hitems htail := by
    refine ⟨_, later, hitems.reverse, hfollows, rowReads_stop hfollows.verbose_later fun c hc => ?_⟩
    by_cases hbar : left.head? = some '|'
    · obtain ⟨rest, rfl⟩ := List.head?_eq_some_iff.mp hbar
      rw [text_bar] at hc
      cases hc
      exact .inr rfl
    · have hends : Ends left := fun c hc => (hleft c hc).resolve_right fun heq => hbar (heq ▸ hc)
      exact .inl (ends_text hends htail c hc)

/-- A row that goes on with a piece. -/
theorem RowCarried.item (hitem : ItemCarried recasting depth reading between tree cs rest)
    (hsuffix : parseSuffix? between tree rest = some (found, next))
    (hrepeats : found.everywhere (Tree.repeatsSolid recasting.kept) = true)
    (h : RowCarried recasting depth between after (if found.isEmpty then items else found :: items)
      out next left) :
    RowCarried recasting depth reading after items out cs left := by
  obtain ⟨-, hlength⟩ := steady_of_suffix hitem.steady hitem.verbose hsuffix hrepeats
  refine ⟨⟨h.verbose, h.steady, (h.length.trans hlength).trans hitem.length⟩, h.ends,
    fun later items' tail hfollows hitems htail => ?_⟩
  obtain ⟨tree', between', htree, hbetween, hreads⟩ := hitem.reads later tail hfollows htail
  obtain ⟨-, found', hfound, hsuffix'⟩ := parseSuffix_text hitem.steady htail hitem.verbose
    hbetween.verbose_later htree hsuffix hrepeats
  obtain ⟨out', after', hout, hafter, hrow⟩ :=
    h.reads between' _ tail hbetween (hitems.push hfound) htail
  refine ⟨out', after', hout, hafter, hreads _ _ _ _ ⟨found', _, hsuffix', ?_, hrow⟩⟩
  rw [List.length_append, List.length_append]
  omega

/-- A row that goes on after a caret that is left out. -/
theorem RowCarried.drop {sign : Sign}
    (htext : recasting.text reading.groups cs = recasting.text reading.groups rest)
    (h : RowCarried recasting depth reading after (.anchor sign :: items) out rest left) :
    RowCarried recasting depth reading after items out cs left where
  verbose := h.verbose
  steady := h.steady
  length := htext ▸ h.length
  ends := h.ends
  reads later items' tail hfollows hitems htail := by
    rw [htext]
    exact h.reads later items' tail hfollows (.drop (Tree.mayBecome_empty sign) hitems) htail

theorem BranchesCarried.branch
    (hrow : RowCarried recasting depth reading between [] items cs ('|' :: next))
    (h : BranchesCarried recasting depth between after (.ofItems items :: before) tree next left) :
    BranchesCarried recasting depth reading after before tree cs left := by
  have hlength := hrow.length
  rw [text_bar, List.length_cons] at hlength
  refine ⟨⟨h.verbose, h.steady, h.length.trans (Nat.le_of_succ_le hlength)⟩, h.ends,
    fun later before' tail hfollows hbefore htail => ?_⟩
  obtain ⟨items', between', hitems, hbetween, hread⟩ := hrow.reads later [] tail hfollows .nil htail
  obtain ⟨tree', after', htree, hafter, hrest⟩ :=
    h.reads between' (.ofItems items' :: before') tail hbetween (.cons hitems.ofItems hbefore) htail
  rw [text_bar] at hread
  refine ⟨tree', after', htree, hafter, .branch hread ?_ hrest⟩
  show (recasting.text between.groups next ++ tail).length < _
  rw [List.length_append, List.length_append]
  omega

theorem BranchesCarried.last (hrow : RowCarried recasting depth reading after [] items cs left)
    (hleft : left.head? ≠ some '|') :
    BranchesCarried recasting depth reading after before
      (.ofBranches (before.reverse ++ [.ofItems items])) cs left := by
  have hends : Ends left := fun c hc =>
    (hrow.ends c hc).resolve_right fun hbar => hleft (hbar ▸ hc)
  refine ⟨hrow.toCarried, hends, fun later before' tail hfollows hbefore htail => ?_⟩
  obtain ⟨items', after', hitems, hafter, hread⟩ := hrow.reads later [] tail hfollows .nil htail
  refine ⟨_, after', Tree.mayBecome_ofBranches
    (List.rel_append (List.rel_reverse hbefore) (.cons hitems.ofItems .nil)), hafter,
    .last hread hafter.names fun c hc => ?_⟩
  rw [ends_text hends htail c hc]
  decide

/-! ### Groups -/

/-- Flags are read as one piece. -/
theorem OpensGroup.flags (hdepth : depth + 1 ≤ maxDepth)
    (hsteady : Steady recasting.kept reading.groups ('(' :: cs))
    (h : OpensGroup recasting reading inside .flags cs opened) :
    ItemCarried recasting depth reading inside .empty ('(' :: cs) opened := by
  refine ⟨h.toCarried, fun later tail hfollows htail => ?_⟩
  have hclean := clean_text hsteady htail
  obtain ⟨written, htext, hopens⟩ := h.opens
  obtain ⟨opening', inside', hopening, hinside, hparse⟩ := hopens later tail hfollows htail
  obtain rfl := hopening.eq_flags.mpr rfl
  rw [htext, List.cons_append, List.append_assoc] at hclean ⊢
  refine ⟨.empty, inside', Tree.empty_mayBecome, hinside, fun items out after left hrow =>
    .group hfollows.verbose_later hclean (.flags hdepth hparse) ?_ hrow⟩
  simp only [List.length_append]
  omega

/-- A group with a body is read as one piece. -/
theorem OpensGroup.around (hdepth : depth + 1 ≤ maxDepth)
    (hreading : reading.flags.verbose = false)
    (hsteady : Steady recasting.kept reading.groups ('(' :: cs)) {opening : Extended.Opening}
    (hopening : opening ≠ .flags) (h : OpensGroup recasting reading inside opening cs opened)
    (hbody : BranchesCarried recasting (depth + 1) inside after [] body opened (')' :: left)) :
    ItemCarried recasting depth reading (opening.leave reading after) (opening.around body)
      ('(' :: cs) left := by
  have hlength := hbody.length
  rw [text_close, List.length_cons] at hlength
  have hgroups := Opening.groups_leave opening reading after
  refine ⟨⟨opening.verbose_leave hreading hbody.verbose, hgroups ▸ hbody.steady.close, ?_⟩,
    fun later tail hfollows htail => ?_⟩
  · rw [hgroups]
    exact (Nat.le_of_succ_le hlength).trans h.length
  have hclean := clean_text hsteady htail
  obtain ⟨written, htext, hopens⟩ := h.opens
  obtain ⟨opening', inside', hmay, hinside, hparse⟩ := hopens later tail hfollows htail
  obtain ⟨body', after', hbody', hafter, hread⟩ := hbody.reads inside' [] tail hinside .nil htail
  rw [text_close, List.cons_append] at hread
  rw [htext, List.cons_append, List.append_assoc] at hclean ⊢
  refine ⟨opening'.around body', opening'.leave later after', hmay.around hbody',
    hfollows.leave hafter hmay, fun items out after left hrow =>
      .group hfollows.verbose_later hclean (.around hdepth hparse hmay.isGroup
        (mt hmay.eq_flags.mp hopening) ?_ hread hafter.verbose_later) ?_ (hgroups ▸ hrow)⟩
  · simp only [List.length_append]
    omega
  · simp only [List.length_append]
    omega

/-! ### The induction -/

/-- Branches pass, as far as they are read in so many steps. -/
def BranchesCarry (recasting : Recasting) (steps : Nat) : Prop :=
  ∀ {depth : Nat} {reading after : Reading} {before : List Tree} {tree : Tree}
    {cs left : List Char},
    parseBranches? steps (depth + recasting.lift) reading before cs = some (tree, after, left) →
    depth + recasting.lift ≤ maxDepth → reading.flags.verbose = false →
    Steady recasting.kept reading.groups cs →
    tree.everywhere (Tree.repeatsSolid recasting.kept) = true →
    BranchesCarried recasting depth reading after before tree cs left

/-- Rows pass, as far as they are read in so many steps. -/
def RowsCarry (recasting : Recasting) (steps : Nat) : Prop :=
  ∀ {depth : Nat} {reading after : Reading} {items out : List Tree} {cs left : List Char},
    parseItems? steps (depth + recasting.lift) reading items cs = some (out, after, left) →
    depth + recasting.lift ≤ maxDepth → reading.flags.verbose = false →
    Steady recasting.kept reading.groups cs →
    (∀ item ∈ out, item.everywhere (Tree.repeatsSolid recasting.kept) = true) →
    RowCarried recasting depth reading after items out cs left

/-- Groups pass, as far as they are read in so many steps. -/
def GroupsCarry (recasting : Recasting) (steps : Nat) : Prop :=
  ∀ {depth : Nat} {reading after : Reading} {tree : Tree} {cs left : List Char},
    parseGroup? steps (depth + recasting.lift + 1) reading cs = some (tree, after, left) →
    reading.flags.verbose = false → Steady recasting.kept reading.groups ('(' :: cs) →
    tree.everywhere (Tree.repeatsSolid recasting.kept) = true →
    ItemCarried recasting depth reading after tree ('(' :: cs) left

theorem BranchesCarry.group {steps : Nat}
    (hbranches : BranchesCarry recasting steps) : GroupsCarry recasting (steps + 1) := by
  intro depth reading after tree cs left hread hverbose hsteady hsolid
  rw [Nat.add_right_comm] at hread
  have hroom := depth_le_of_parseGroup hread
  have hdepth : depth + 1 ≤ maxDepth := Nat.le_of_add_right_le hroom
  cases groupRead hread with
  | other hopening hgroup =>
    rw [(opensGroup hsteady hverbose hopening).isGroup] at hgroup
    cases hgroup
  | flags hopening => exact (opensGroup hsteady hverbose hopening).flags hdepth hsteady
  | @body opening inside opened body after between left hopening hbody hclose hflags =>
    have hopens := opensGroup hsteady hverbose hopening
    have hpass := hbranches hbody hroom hopens.verbose hopens.steady
      (everywhere_around opening hsolid)
    obtain rfl : between = ')' :: left := by
      obtain ⟨shown, hskip, hclose⟩ := Option.bind_eq_some_iff.mp hclose
      rw [Reading.skip_eq hpass.verbose hpass.steady.clean] at hskip
      cases hskip
      split at hclose
      · cases hclose
        rfl
      · cases hclose
    exact hopens.around hdepth hverbose hsteady hflags hpass

theorem RowsCarry.branches {steps : Nat} (hrows : RowsCarry recasting steps)
    (hbranches : BranchesCarry recasting steps) : BranchesCarry recasting (steps + 1) := by
  intro depth reading after before tree cs left hread hroom hverbose hsteady hsolid
  cases branchesRead hread with
  | next hitems hrest =>
    have hall := everywhere_of_parseBranches hrest hsolid _ List.mem_cons_self
    have hrow := hrows hitems hroom hverbose hsteady (Tree.everywhere_of_ofItems hall)
    exact .branch hrow (hbranches hrest hroom hrow.verbose (hrow.steady.plain rfl).1 hsolid)
  | last hleft hitems =>
    have hall := Tree.everywhere_of_ofBranches hsolid _ (List.mem_append_right _ List.mem_cons_self)
    exact .last (hrows hitems hroom hverbose hsteady (Tree.everywhere_of_ofItems hall)) hleft

/-- A caret is left out, unless another one follows. -/
theorem RowsCarry.caret {steps : Nat}
    (hrows : RowsCarry recasting steps) (hroom : depth + recasting.lift ≤ maxDepth)
    (hverbose : reading.flags.verbose = false)
    (hsteady : Steady recasting.kept reading.groups ('^' :: rest)) (hlone : rest.head? ≠ some '^')
    (hsuffix : parseSuffix? reading (reading.flags.piece '^') rest = some (found, next))
    (hread : parseItems? steps (depth + recasting.lift) reading
      (if found.isEmpty then items else found :: items) next = some (out, after, left))
    (hsolid : ∀ item ∈ out, item.everywhere (Tree.repeatsSolid recasting.kept) = true) :
    RowCarried recasting depth reading after items out ('^' :: rest) left := by
  obtain ⟨hrest, hcount⟩ := hsteady.caret
  rw [parseSuffix_eq, Reading.skip_eq hverbose hrest.clean, Option.bind_some,
    parseRepetition_none hcount] at hsuffix
  cases hsuffix
  rw [isEmpty_piece] at hread
  have htext : recasting.text reading.groups ('^' :: rest)
      = recasting.text reading.groups rest := by
    rw [text_caret, if_neg hlone, List.nil_append]
  have hanchor : ∃ sign, reading.flags.piece '^' = .anchor sign := ⟨_, rfl⟩
  obtain ⟨sign, hsign⟩ := hanchor
  rw [hsign] at hread
  exact .drop htext (hrows hread hroom hverbose hrest hsolid)

/-- What is read as one piece passes, given that it is no caret that is left out. -/
theorem GroupsCarry.item {steps : Nat} (hgroups : GroupsCarry recasting steps)
    (hroom : depth + recasting.lift ≤ maxDepth) (hverbose : reading.flags.verbose = false)
    (hsteady : Steady recasting.kept reading.groups cs)
    (hcaret : ∀ rest, cs = '^' :: rest → rest.head? = some '^')
    (hread : ItemRead steps (depth + recasting.lift) reading cs tree between rest)
    (hsolid : tree.everywhere (Tree.repeatsSolid recasting.kept) = true) :
    ItemCarried recasting depth reading between tree cs rest := by
  cases hread with
  | group hgroup => exact hgroups hgroup hverbose hsteady hsolid
  | bracket hbracket => exact itemCarried_bracket hroom hverbose hsteady hbracket
  | @escape rest next escape tree between hescape htree =>
    cases rest with
    | nil => cases hescape
    | cons letter rest =>
      cases hdigit : letter.isDigit with
      | false => exact itemCarried_escape hroom hverbose hdigit hsteady hescape htree
      | true =>
        rw [parseEscape_digit hdigit] at hescape
        obtain ⟨⟨number, read, left⟩, hnumber, heq⟩ := Option.map_eq_some_iff.mp hescape
        cases heq
        cases htree
        exact itemCarried_number hroom hverbose hdigit hsteady hnumber
  | @piece c rest hmark =>
    by_cases hplain : Part.isPlain c = true
    · exact itemCarried_char hroom hverbose hsteady hplain hmark
    · have hcases : c = '^' := by
        have hmarks : c ≠ '[' ∧ c ≠ '\\' ∧ c ≠ '(' ∧ c ≠ ')' := by
          refine ⟨?_, ?_, ?_, ?_⟩ <;> rintro rfl <;> cases hmark
        simpa [Part.isPlain, hmarks] using hplain
      subst hcases
      refine itemCarried_of_reads hverbose rfl hsteady.caret.1 ?_ fun tail _ =>
        pieceReads_char hmark reading.flags
      rw [text_caret, if_pos (hcaret rest rfl)]

theorem RowsCarry.step {steps : Nat} (hrows : RowsCarry recasting steps)
    (hgroups : GroupsCarry recasting steps) :
    RowsCarry recasting (steps + 1) := by
  intro depth reading after items out cs left hread hroom hverbose hsteady hsolid
  obtain ⟨shown, hskip, hrow⟩ := rowRead hread
  rw [Reading.skip_eq hverbose hsteady.clean] at hskip
  cases hskip
  cases hrow with
  | stop hleft => exact rowCarried_stop hverbose hsteady hleft
  | @item tree found between rest next _ hitem hsuffix hnext =>
    have hfound := everywhere_of_parseItems rfl hnext hsolid
    -- A lone caret has no text in the member, so it is no piece there and nothing repeats it.
    by_cases hcaret : ∃ rest, cs = '^' :: rest ∧ rest.head? ≠ some '^'
    · obtain ⟨rest, rfl, hlone⟩ := hcaret
      cases hitem
      exact hrows.caret hroom hverbose hsteady hlone hsuffix hnext hsolid
    · have hpasses := hgroups.item hroom hverbose hsteady
        (fun rest hcs => by_contra fun hlone => hcaret ⟨rest, hcs, hlone⟩) hitem
        (everywhere_of_parseSuffix hsuffix hfound)
      obtain ⟨hleft, -⟩ :=
        steady_of_suffix hpasses.steady hpasses.verbose hsuffix hfound
      exact .item hpasses hsuffix hfound (hrows hnext hroom hpasses.verbose hleft hsolid)

/-- What is read of a pattern is read of the member. -/
theorem carries (recasting : Recasting) (steps : Nat) :
    BranchesCarry recasting steps ∧ RowsCarry recasting steps ∧ GroupsCarry recasting steps := by
  induction steps with
  | zero => exact ⟨nofun, nofun, nofun⟩
  | succ steps ih =>
    -- Each reader leaves the rest to the others, with a step less.
    obtain ⟨hbranches, hrows, hgroups⟩ := ih
    exact ⟨hrows.branches hbranches, hrows.step hgroups, hbranches.group⟩

end Recasting

end Highlighter.Union
