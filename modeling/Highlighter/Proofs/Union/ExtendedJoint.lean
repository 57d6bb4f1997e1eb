import Highlighter.Proofs.Regex.Ignoring
import Highlighter.Proofs.Union.Later
import Highlighter.Proofs.Union.Ordered

/-!
# Unions in the extended dialect

The union of patterns is read as an alternation of what its members are read as by themselves, with
later groups and references (`parsed_union`).
-/

set_option autoImplicit false

namespace Highlighter.Union

open Pattern Regex Regex.Extended

/-- Where a union starts: no group has opened, and all flags are off but the one for letter case. -/
def startReading (size : Nat) (ignoreCase : Bool) : Reading :=
  ⟨size, ⟨ignoreCase, false, false, false, false⟩, 0, [], false, []⟩

/-- A member is read by itself, up to its closing parenthesis, and has as many groups as are counted
for it. -/
structure ExtendedAlone (ignoreCase folded : Bool) (pattern : Pattern) (parsed : Parsed) : Prop where
  numbers : numbersOnly folded (dropCarets (member 0 pattern.parts).1) = true
  groups_eq : parsed.groups = (member 0 pattern.parts).2
  reads : ∃ steps depth size after,
    parseBranches? steps depth (startReading size ignoreCase) []
      (memberText folded (member 0 pattern.parts).1 ++ [')']) = some (parsed.tree, after, [')']) ∧
    after.groups = parsed.groups ∧ after.targets = parsed.targets

variable {ignoreCase folded : Bool} {pattern : Pattern} {parsed : Parsed} {steps steps' depth : Nat}
  {reading after : Reading} {items : List Tree} {left rest : List Char}

theorem renumbered_close {base : Nat} {more ds : List Char}
    (h : Renumbered base more [')'] ds) : ds = ')' :: more := by
  cases h with
  | close => rfl
  | char _ _ hrest => exact absurd rfl hrest.ne_nil

/-- What is read of a member in a union, after `reading`. -/
structure ReadAfter (reading : Reading) (parsed : Parsed) (tree : Tree) (after : Reading) : Prop where
  tree_eq : tree = parsed.tree.shift reading.groups
  flags_eq : after.flags = reading.flags
  groups_eq : after.groups = reading.groups + parsed.groups
  targets_eq : after.targets = parsed.targets.map (reading.groups + ·) ++ reading.targets

/-- A pattern refers to its own groups. -/
structure Contained (parsed : Parsed) : Prop where
  within : parsed.tree.Within parsed.groups
  targets : ∀ target ∈ parsed.targets, 1 ≤ target ∧ target ≤ parsed.groups

/-- The body of a member is read as by itself, wherever it stands. -/
theorem parseBranches_member (halone : ExtendedAlone ignoreCase folded pattern parsed)
    (hflags : reading.flags = ⟨ignoreCase, false, false, false, false⟩) {tree : Tree}
    (hread : parseBranches? steps depth reading []
      (memberText folded (member reading.groups pattern.parts).1 ++ ')' :: rest)
        = some (tree, after, left)) :
    Contained parsed ∧ ReadAfter reading parsed tree { after with flags := reading.flags } ∧
      left = ')' :: rest := by
  obtain ⟨aloneSteps, aloneDepth, size, found, hbranches, hgroups, htargets⟩ := halone.reads
  have hreaders : (startReading size ignoreCase).Shifted reading.groups reading.targets reading :=
    ⟨hflags, rfl, rfl, nofun⟩
  have hnone : Tree.WithinAll (startReading size ignoreCase).groups [] := trivial
  rcases (reads_alike reading.groups reading.targets rest aloneSteps).1
    (.inr (renumbered_memberText pattern.parts halone.numbers reading.groups rest)) hreaders hnone
    hbranches hread with hnil | ⟨htree, hwithin, hleaves⟩
  · cases hnil
  · have hreaders := hleaves.readers
    refine ⟨⟨?_, ?_⟩, ⟨htree, rfl, ?_, ?_⟩, renumbered_close hleaves.rest⟩
    · rw [← hgroups]
      exact hwithin
    · rw [← hgroups, ← htargets]
      exact hreaders.targets_within
    · rw [← hgroups]
      exact hreaders.groups_eq
    · rw [← htargets]
      exact hreaders.targets_eq

theorem ExtendedAlone.contained (h : ExtendedAlone ignoreCase folded pattern parsed) :
    Contained parsed := by
  obtain ⟨steps, depth, size, after, hbranches, -, -⟩ := h.reads
  exact (parseBranches_member h (show (startReading size ignoreCase).flags = _ from rfl) hbranches).1

/-- A group is read up to its closing parenthesis. -/
theorem close_of_head (reading : Reading) (rest : List Char) :
    reading.close? (')' :: rest) = some rest := by
  rw [Reading.close?, EndsEarly.skip_eq (by decide) (by decide)]
  rfl

/-- A group that sets flags for itself. -/
theorem parseGroup_flagged {cs opened : List Char} {inside : Reading} {tree : Tree}
    (hopening : parseOpening? reading cs = some (.flagged, inside, opened))
    (hread : parseGroup? steps depth reading cs = some (tree, after, left)) :
    ∃ steps' found between,
      parseBranches? steps' depth inside [] opened = some (tree, found, between) ∧
      found.close? between = some left ∧ after = { found with flags := reading.flags } := by
  cases steps with
  | zero => cases hread
  | succ steps =>
    have hsame : ∀ {opening : Extended.Opening} {inside' : Reading} {rest : List Char},
        parseOpening? reading cs = some (opening, inside', rest) →
        opening = .flagged ∧ inside' = inside ∧ rest = opened := by
      intro opening inside' rest h
      rw [hopening] at h
      cases h
      exact ⟨rfl, rfl, rfl⟩
    generalize hfound : (tree, after, left) = found at hread
    cases groupRead hread with
    | other hopening' hgroup =>
      obtain ⟨rfl, -, -⟩ := hsame hopening'
      cases hgroup
    | flags hopening' => cases (hsame hopening').1
    | body hopening' hbody hclose hne =>
      obtain ⟨rfl, rfl, rfl⟩ := hsame hopening'
      cases hfound
      exact ⟨_, _, _, hbody, hclose, rfl⟩

/-- A branch that is one group is read as what the group is read as. -/
theorem parseItems_group {cs : List Char} {found : List Tree × Reading × List Char}
    (hverbose : reading.flags.verbose = false)
    (hread : parseItems? steps depth reading [] ('(' :: '?' :: cs) = some found)
    (hcs : cs.head? ≠ some '#')
    (hgroup : ∀ {tree : Tree} {after : Reading} {left : List Char} {steps : Nat},
      parseGroup? steps (depth + 1) reading ('?' :: cs) = some (tree, after, left) →
      after.flags.verbose = false ∧ ∀ c ∈ left.head?, c = '|') :
    ∃ steps' tree after left,
      parseGroup? steps' (depth + 1) reading ('?' :: cs) = some (tree, after, left) ∧
      Tree.ofItems found.1 = tree ∧ found.2 = (after, left) := by
  cases steps with
  | zero => cases hread
  | succ steps =>
    have hclean : Clean ('(' :: '?' :: cs) := by
      rintro rest heq
      cases heq
      exact hcs rfl
    rw [parseItems_eq, Reading.skip_eq hverbose hclean, Option.bind_some] at hread
    obtain ⟨⟨tree, after, left⟩, hread', hread⟩ := Option.bind_eq_some_iff.mp hread
    obtain ⟨hverbose, hleft⟩ := hgroup hread'
    refine ⟨_, tree, after, left, hread', ?_⟩
    have hbar : ∀ {is : Char → Prop}, is '|' → ∀ c ∈ left.head?, is c := fun his c hc =>
      hleft c hc ▸ his
    have hclean : Clean left := by
      rintro rest rfl
      exact absurd (hleft '(' rfl) (by decide)
    rw [readOn?, parseSuffix_none hverbose tree hclean (hbar (by decide)), Option.bind_some] at hread
    cases parseItems_end hverbose (hbar (.inr rfl)) hread
    cases hempty : tree.isEmpty with
    | true =>
      have htree : tree = .empty := by cases tree <;> first | rfl | cases hempty
      subst htree
      exact ⟨rfl, rfl⟩
    | false => exact ⟨rfl, rfl⟩

/-! ### All branches -/

section Branches

variable (alone : Pattern → Parsed)

/-- What the branches of a union are read as. -/
def treesFrom (base : Nat) : List Pattern → List Tree
  | [] => [.any true]
  | pattern :: rest =>
    (alone pattern).tree.shift base :: treesFrom (base + (alone pattern).groups) rest

/-- The groups that have been referred to after the members. -/
def targetsFrom (base : Nat) (known : List Nat) : List Pattern → List Nat
  | [] => known
  | pattern :: rest =>
    targetsFrom (base + (alone pattern).groups) ((alone pattern).targets.map (base + ·) ++ known)
      rest

variable {alone}

/-- The last branch matches any character. -/
theorem parseItems_catchAll {found : List Tree × Reading × List Char}
    (hverbose : reading.flags.verbose = false)
    (hread : parseItems? steps depth reading [] catchAll = some found) :
    Tree.ofItems found.1 = .any true ∧ found.2 = (reading, []) := by
  have hbody : ∀ {tree : Tree} {after : Reading} {left : List Char} {steps : Nat},
      parseGroup? steps (depth + 1) reading "?s:.)".toList = some (tree, after, left) →
      tree = .any true ∧ after = reading ∧ left = [] := by
    intro tree after left steps hgroup
    obtain ⟨steps, found, between, hbranches, hclose, rfl⟩ :=
      parseGroup_flagged (parseOpening_flags hverbose ['.', ')']).2.2 hgroup
    cases steps with
    | zero => cases hbranches
    | succ steps =>
      have hitems : ∀ {items : List Tree} {between : Reading} {rest : List Char},
          parseItems? steps (depth + 1)
            { reading with flags := { reading.flags with dotAll := true } } [] ['.', ')']
              = some (items, between, rest) →
          items = [.any true] ∧
            between = { reading with flags := { reading.flags with dotAll := true } } ∧
            rest = [')'] := by
        intro items between rest hitems
        cases steps with
        | zero => cases hitems
        | succ steps =>
          have hinside : ({ reading with flags := { reading.flags with dotAll := true } } :
              Reading).flags.verbose = false := hverbose
          rw [parseItems_eq, EndsEarly.skip_eq (by decide) (by decide), Option.bind_some,
            itemsShown_piece (by decide), readOn?,
            parseSuffix_none hinside _ (clean_cons (by decide) _) (by rintro c ⟨⟩; rfl),
            Option.bind_some] at hitems
          cases parseItems_end hinside (by rintro c ⟨⟩; exact .inl rfl) hitems
          exact ⟨rfl, rfl, rfl⟩
      generalize hwhole : (tree, found, between) = whole at hbranches
      cases branchesRead hbranches with
      | next hrow _ => cases (hitems hrow).2.2
      | last _ hrow =>
        obtain ⟨rfl, rfl, rfl⟩ := hitems hrow
        cases hwhole
        rw [close_of_head] at hclose
        cases hclose
        exact ⟨rfl, rfl, rfl⟩
  obtain ⟨steps', tree, after, left, hgroup, htree, hleft⟩ :=
    parseItems_group hverbose hread (by decide) fun hgroup => by
      obtain ⟨-, rfl, rfl⟩ := hbody hgroup
      exact ⟨hverbose, fun c hc => by cases hc⟩
  obtain ⟨rfl, rfl, rfl⟩ := hbody hgroup
  exact ⟨htree, hleft⟩

theorem parseItems_member (halone : ExtendedAlone ignoreCase folded pattern parsed)
    (hflags : reading.flags = ⟨ignoreCase, false, false, false, false⟩)
    {found : List Tree × Reading × List Char} (hrest : ∀ c ∈ rest.head?, c = '|')
    (hread : parseItems? steps depth reading []
      ("(?:".toList ++ memberText folded (member reading.groups pattern.parts).1 ++ [')'] ++ rest)
        = some found) :
    ReadAfter reading parsed (.ofItems found.1) found.2.1 ∧ found.2.2 = rest := by
  have hverbose : reading.flags.verbose = false := by rw [hflags]
  have hshape :
      "(?:".toList ++ memberText folded (member reading.groups pattern.parts).1 ++ [')'] ++ rest
        = '(' :: '?' :: ':' ::
          (memberText folded (member reading.groups pattern.parts).1 ++ ')' :: rest) := by
    simp
  rw [hshape] at hread
  have hgroup : ∀ {tree : Tree} {after : Reading} {left : List Char} {steps : Nat},
      parseGroup? steps (depth + 1) reading
        ('?' :: ':' :: (memberText folded (member reading.groups pattern.parts).1 ++ ')' :: rest))
          = some (tree, after, left) → ReadAfter reading parsed tree after ∧ left = rest := by
    intro tree after left steps hgroup
    obtain ⟨steps, found, between, hbranches, hclose, rfl⟩ :=
      parseGroup_flagged (parseOpening_flags hverbose _).1 hgroup
    obtain ⟨-, hafter, rfl⟩ := parseBranches_member halone hflags hbranches
    rw [close_of_head] at hclose
    cases hclose
    exact ⟨hafter, rfl⟩
  obtain ⟨steps', tree, after, left, hread, htree, hleft⟩ :=
    parseItems_group hverbose hread (by simp) fun hread => by
      obtain ⟨hafter, rfl⟩ := hgroup hread
      exact ⟨by rw [hafter.flags_eq]; exact hverbose, hrest⟩
  obtain ⟨hafter, rfl⟩ := hgroup hread
  rw [htree, hleft]
  exact ⟨hafter, rfl⟩

/-- The branches of a union are read as what the members are read as by themselves. -/
theorem branchesRead_union {folds : Pattern → Bool} {patterns : List Pattern}
    (halone : ∀ pattern ∈ patterns, ExtendedAlone ignoreCase (folds pattern) pattern (alone pattern))
    (hflags : reading.flags = ⟨ignoreCase, false, false, false, false⟩) {before : List Tree}
    {found : Tree × Reading × List Char}
    (h : BranchesRead steps steps' depth reading before
      (List.intercalate ['|'] (branchesFrom folds reading.groups patterns)) found) :
    found.1 = .ofBranches (before.reverse ++ treesFrom alone reading.groups patterns) ∧
      found.2.1.groups = groupsFrom (fun pattern => (alone pattern).groups) reading.groups patterns ∧
      found.2.1.targets = targetsFrom alone reading.groups reading.targets patterns ∧
      found.2.2 = [] := by
  induction patterns generalizing reading before steps steps' with
  | nil =>
    have hverbose : reading.flags.verbose = false := by rw [hflags]
    rw [branchesFrom, List.intercalate_singleton] at h
    cases h with
    | next hitems hrest => cases (parseItems_catchAll hverbose hitems).2
    | last hleft hitems =>
      obtain ⟨htree, heq⟩ := parseItems_catchAll hverbose hitems
      cases heq
      exact ⟨by rw [htree]; rfl, rfl, rfl, rfl⟩
  | cons pattern patterns ih =>
    obtain ⟨hpattern, hpatterns⟩ := List.forall_mem_cons.mp halone
    rw [branchesFrom, List.intercalate_cons_of_ne_nil (branchesFrom_ne_nil _ _ _), List.append_assoc,
      List.singleton_append] at h
    cases h with
    | last hleft hitems =>
      obtain ⟨-, heq⟩ := parseItems_member hpattern hflags (by simp) hitems
      cases heq
      exact absurd rfl hleft
    | @next items between rest _ hitems hrest =>
      obtain ⟨hafter, heq⟩ := parseItems_member hpattern hflags (by simp) hitems
      cases heq
      cases steps' with
      | zero => cases hrest
      | succ steps' =>
        have hgroups : between.groups = reading.groups + (alone pattern).groups := hafter.groups_eq
        have hbase : (member reading.groups pattern.parts).2 = between.groups := by
          rw [hgroups, hpattern.groups_eq, member_later]
        have hread := branchesRead hrest
        rw [hbase] at hread
        obtain ⟨htree, hsum, htargets, hleft⟩ :=
          ih hpatterns (hafter.flags_eq.trans hflags) hread
        refine ⟨?_, ?_, ?_, hleft⟩
        · rw [htree, hgroups, List.reverse_cons, List.append_assoc, treesFrom]
          exact congrArg (fun tree => Tree.ofBranches (_ ++ tree :: _)) hafter.tree_eq
        · rw [hsum, hgroups, groupsFrom]
        · rw [htargets, hgroups, hafter.targets_eq, targetsFrom]

/-! ### The whole union -/

/-- The union of patterns is read as an alternation of what they are read as by themselves. -/
theorem parsed_union {patterns : List Pattern} {parsed : Parsed}
    (halone : ∀ pattern ∈ patterns, ExtendedAlone (caseRule patterns == .ignored)
      (caseRule patterns == .mixed && pattern.ignoreCase) pattern (alone pattern))
    (h : Extended.parse? (text patterns) = some parsed) :
    parsed = ⟨.ofBranches (treesFrom alone 0 patterns),
      groupsFrom (fun pattern => (alone pattern).groups) 0 patterns,
      targetsFrom alone 0 [] patterns⟩ := by
  obtain ⟨⟨tree, after, left⟩, hread, hparsed⟩ := Option.bind_eq_some_iff.mp h
  generalize Text.byteSize (text patterns) = size at hread
  have hstart : ∃ steps steps', BranchesRead steps steps' 0
      (startReading size (caseRule patterns == .ignored)) []
      (List.intercalate ['|'] (branchesFrom
        (fun pattern => caseRule patterns == .mixed && pattern.ignoreCase) 0 patterns))
      (tree, after, left) := by
    have hread := branchesRead hread
    rw [text, branches_eq] at hread
    generalize hbody : List.intercalate ['|'] (branchesFrom
      (fun pattern => caseRule patterns == .mixed && pattern.ignoreCase) 0 patterns) = body at hread ⊢
    cases hrule : caseRule patterns == .ignored with
    | false =>
      simp only [hrule] at hread
      exact ⟨_, _, hread⟩
    | true =>
      simp only [hrule] at hread
      obtain ⟨c, rest, hc, hhead⟩ := head_branches
        (fun pattern => caseRule patterns == .mixed && pattern.ignoreCase) 0 patterns
      rw [hbody] at hhead
      subst hhead
      have hignoring : ∀ {steps : Nat} {found : List Tree × Reading × List Char},
          parseItems? steps 0 (startReading size false) [] ("(?i)".toList ++ '(' :: '?' :: c :: rest)
            = some found →
          ∃ steps', parseItems? steps' 0 (startReading size true) [] ('(' :: '?' :: c :: rest)
            = some found := by
        refine fun hitems => Extended.parseItems_flags rfl ?_ (by rintro d ⟨⟩; rfl) hitems
        rintro others heq
        cases heq
        exact hc rfl
      cases hread with
      | next hitems hrest =>
        obtain ⟨steps', hitems⟩ := hignoring hitems
        exact ⟨steps', _, .next hitems hrest⟩
      | last hleft hitems =>
        obtain ⟨steps', hitems⟩ := hignoring hitems
        exact ⟨steps', 0, .last hleft hitems⟩
  obtain ⟨steps, steps', hbranches⟩ := hstart
  obtain ⟨htree, hgroups, htargets, rfl⟩ := branchesRead_union halone rfl hbranches
  cases hparsed
  simp only at htree hgroups htargets
  rw [htree, hgroups, htargets]
  rfl

/-! ### References -/

theorem subset_targetsFrom (base : Nat) (known : List Nat) (patterns : List Pattern) :
    known ⊆ targetsFrom alone base known patterns := by
  induction patterns generalizing base known with
  | nil => exact List.Subset.refl _
  | cons pattern patterns ih =>
    exact List.Subset.trans (List.subset_append_right _ _) (ih _ _)

/-- Members refer to groups after those that stand before. -/
theorem mem_targetsFrom {base target : Nat} {known : List Nat} {patterns : List Pattern}
    (hcontained : ∀ pattern ∈ patterns, Contained (alone pattern))
    (h : target ∈ targetsFrom alone base known patterns) : target ∈ known ∨ base < target := by
  induction patterns generalizing base known with
  | nil => exact .inl h
  | cons pattern patterns ih =>
    obtain ⟨hpattern, hpatterns⟩ := List.forall_mem_cons.mp hcontained
    rcases ih hpatterns h with hmem | hlt
    · rcases List.mem_append.mp hmem with hshifted | hknown
      · obtain ⟨own, hown, rfl⟩ := List.mem_map.mp hshifted
        exact .inr (Nat.lt_add_of_pos_right (hpattern.targets own hown).1)
      · exact .inl hknown
    · exact .inr (Nat.lt_of_le_of_lt (Nat.le_add_right _ _) hlt)

/-- A union refers to the groups of a member as the member does. -/
theorem targetsAlike_member {base : Nat} {known : List Nat} {patterns : List Pattern}
    (hcontained : ∀ pattern ∈ patterns, Contained (alone pattern))
    (hknown : ∀ target ∈ known, target ≤ base) :
    Tree.TargetsAlike base (alone pattern).groups (alone pattern).targets
      (targetsFrom alone base known (pattern :: patterns)) := by
  intro index hpos hle
  rw [Bool.eq_iff_iff, List.contains_iff_mem, List.contains_iff_mem]
  constructor
  · intro hmem
    rcases mem_targetsFrom hcontained hmem with hmem | hlt
    · rcases List.mem_append.mp hmem with hown | hmem
      · obtain ⟨own, hown, heq⟩ := List.mem_map.mp hown
        rwa [← Nat.add_left_cancel heq]
      · have hbound := hknown _ hmem
        omega
    · omega
  · intro hmem
    exact subset_targetsFrom _ _ patterns
      (List.mem_append_left _ (List.mem_map.mpr ⟨index, hmem, rfl⟩))

/-- After a member, the groups that have been referred to have opened. -/
theorem targets_le {base : Nat} {known : List Nat} (hpattern : Contained (alone pattern))
    (hknown : ∀ target ∈ known, target ≤ base) :
    ∀ target ∈ (alone pattern).targets.map (base + ·) ++ known,
      target ≤ base + (alone pattern).groups := by
  intro target htarget
  rcases List.mem_append.mp htarget with hshifted | hmem
  · obtain ⟨own, hown, rfl⟩ := List.mem_map.mp hshifted
    exact Nat.add_le_add_left (hpattern.targets own hown).2 base
  · exact Nat.le_trans (hknown target hmem) (Nat.le_add_right _ _)

/-! ### How the union is matched -/

/-- How a tree is matched. `hard` says that the whole pattern may be retried. -/
def nodeOf? (hard : Bool) (targets : List Nat) (tree : Tree) : Option Node :=
  if hard then tree.plan? targets true else tree.regular?

/-- How each of the trees is matched. -/
def nodesOf? (hard : Bool) (targets : List Nat) (trees : List Tree) : Option (List Node) :=
  if hard then Tree.planAll? targets true trees else Tree.regularAll? trees

theorem nodesOf_cons (hard : Bool) (targets : List Nat) (tree : Tree) (trees : List Tree) :
    nodesOf? hard targets (tree :: trees)
      = (nodeOf? hard targets tree).bind fun node =>
          (nodesOf? hard targets trees).map (node :: ·) := by
  cases hard with
  | true =>
    show (tree.plan? targets true).bind _ = (tree.plan? targets true).bind _
    refine congrArg _ (funext fun node => ?_)
    exact Option.map_eq_bind.symm
  | false =>
    show tree.regular?.bind _ = tree.regular?.bind _
    refine congrArg _ (funext fun node => ?_)
    exact Option.map_eq_bind.symm

theorem shifts_nodeOf {base groups : Nat} {targets later : List Nat} {tree : Tree} (hard : Bool)
    (halike : Tree.TargetsAlike base groups targets later) (hwithin : tree.Within groups) :
    Tree.Shifts base groups (nodeOf? hard targets tree) (nodeOf? hard later (tree.shift base)) := by
  cases hard with
  | true => exact Tree.plansShift halike tree hwithin true
  | false => exact Tree.shifts_regular base tree hwithin

/-- How a member is matched. -/
def memberNode (alone : Pattern → Parsed) (hard : Bool) (pattern : Pattern) : Node :=
  (nodeOf? hard (alone pattern).targets (alone pattern).tree).getD .empty

theorem nodesOf_treesFrom {hard : Bool} {base : Nat} {known : List Nat} {patterns : List Pattern}
    {nodes : List Node} (hcontained : ∀ pattern ∈ patterns, Contained (alone pattern))
    (hknown : ∀ target ∈ known, target ≤ base)
    (h : nodesOf? hard (targetsFrom alone base known patterns) (treesFrom alone base patterns)
      = some nodes) :
    nodes = nodesFrom (fun pattern => (alone pattern).groups) (memberNode alone hard) base patterns ∧
      ∀ pattern ∈ patterns, (memberNode alone hard pattern).Within (alone pattern).groups := by
  induction patterns generalizing base known nodes with
  | nil =>
    cases hard <;>
    · cases h
      exact ⟨rfl, nofun⟩
  | cons pattern patterns ih =>
    obtain ⟨hpattern, hpatterns⟩ := List.forall_mem_cons.mp hcontained
    rw [treesFrom, nodesOf_cons] at h
    obtain ⟨node, hnode, h⟩ := Option.bind_eq_some_iff.mp h
    obtain ⟨others, hothers, rfl⟩ := Option.map_eq_some_iff.mp h
    have hshifts := shifts_nodeOf hard (targetsAlike_member hpatterns hknown) hpattern.within
    obtain ⟨rfl, hwithin⟩ := ih hpatterns (targets_le hpattern hknown) hothers
    rw [hshifts.later_eq] at hnode
    obtain ⟨own, hown, rfl⟩ := Option.map_eq_some_iff.mp hnode
    have hsame : memberNode alone hard pattern = own := by rw [memberNode, hown, Option.getD_some]
    refine ⟨?_, List.forall_mem_cons.mpr ⟨?_, hwithin⟩⟩
    · rw [nodesFrom, hsame]
    · rw [hsame]
      exact hshifts.within own hown

/-- Whether one of the patterns is hard. -/
def anyHardPattern (alone : Pattern → Parsed) (patterns : List Pattern) : Bool :=
  patterns.any fun pattern => (alone pattern).tree.isHard (alone pattern).targets

theorem anyHard_treesFrom {base : Nat} {known : List Nat} {patterns : List Pattern}
    (hcontained : ∀ pattern ∈ patterns, Contained (alone pattern))
    (hknown : ∀ target ∈ known, target ≤ base) :
    Tree.anyHard (targetsFrom alone base known patterns) (treesFrom alone base patterns)
      = anyHardPattern alone patterns := by
  induction patterns generalizing base known with
  | nil => rfl
  | cons pattern patterns ih =>
    obtain ⟨hpattern, hpatterns⟩ := List.forall_mem_cons.mp hcontained
    rw [treesFrom, Tree.anyHard, anyHardPattern, List.any_cons]
    refine congr (congrArg or ?_) (ih hpatterns (targets_le hpattern hknown))
    exact Tree.isHard_shift (targetsAlike_member hpatterns hknown) _ hpattern.within

theorem isHard_ofBranches (targets : List Nat) (trees : List Tree) :
    (Tree.ofBranches trees).isHard targets = Tree.anyHard targets trees := by
  rcases trees with _ | ⟨tree, _ | ⟨second, rest⟩⟩
  · rfl
  · exact (Bool.or_false _).symm
  · rfl

/-- A union is matched by its branches. -/
theorem nodeOf_ofBranches {hard : Bool} {targets : List Nat} {trees : List Tree} {node : Node}
    (hne : trees ≠ []) (h : nodeOf? hard targets (.ofBranches trees) = some node) :
    ∃ nodes, nodesOf? hard targets trees = some nodes ∧ node = .altAll nodes := by
  rcases trees with _ | ⟨first, _ | ⟨second, rest⟩⟩
  · exact absurd rfl hne
  · refine ⟨[node], ?_, rfl⟩
    rw [nodesOf_cons, show nodeOf? hard targets first = some node from h]
    cases hard <;> rfl
  · have hbranches : nodeOf? hard targets (.alternation (first :: second :: rest))
        = (nodesOf? hard targets (first :: second :: rest)).map .altAll := by
      cases hard with
      | true => rfl
      | false => rfl
    obtain ⟨nodes, hnodes, rfl⟩ := Option.map_eq_some_iff.mp (hbranches.symm.trans h)
    exact ⟨nodes, hnodes, rfl⟩

theorem treesFrom_ne_nil (base : Nat) (patterns : List Pattern) :
    treesFrom alone base patterns ≠ [] := by
  cases patterns <;> exact List.cons_ne_nil _ _

/-- A union of the extended dialect tries its members in order. -/
theorem isJoint_extended {patterns : List Pattern} {matcher : Matcher}
    (halone : ∀ pattern ∈ patterns, ExtendedAlone (caseRule patterns == .ignored)
      (caseRule patterns == .mixed && pattern.ignoreCase) pattern (alone pattern))
    (h : Matcher.ofExtended? (text patterns) = some matcher) :
    IsJoint (fun pattern => (alone pattern).groups)
        (memberNode alone (anyHardPattern alone patterns)) matcher patterns ∧
      matcher.limit = if anyHardPattern alone patterns then some retryLimit else none := by
  have hcontained : ∀ pattern ∈ patterns, Contained (alone pattern) := fun pattern hpattern =>
    (halone pattern hpattern).contained
  have hnone : ∀ target ∈ ([] : List Nat), target ≤ 0 := nofun
  obtain ⟨parsed, node, limit, hparse, rfl, hplan⟩ := Matcher.ofExtended_eq_some h
  obtain rfl := parsed_union halone hparse
  have hhard :
      (Tree.ofBranches (treesFrom alone 0 patterns)).isHard (targetsFrom alone 0 [] patterns)
      = anyHardPattern alone patterns := by
    rw [isHard_ofBranches, anyHard_treesFrom hcontained hnone]
  simp only [hhard] at hplan
  have hnode : nodeOf? (anyHardPattern alone patterns) (targetsFrom alone 0 [] patterns)
        (.ofBranches (treesFrom alone 0 patterns)) = some node ∧
      limit = if anyHardPattern alone patterns then some retryLimit else none := by
    rcases hplan with ⟨htrue, hlimit, hnode⟩ | ⟨hfalse, hlimit, hnode⟩
    · rw [htrue]
      exact ⟨hnode, hlimit⟩
    · rw [hfalse]
      exact ⟨hnode, hlimit⟩
  obtain ⟨nodes, hnodes, rfl⟩ := nodeOf_ofBranches (treesFrom_ne_nil 0 patterns) hnode.1
  obtain ⟨rfl, hwithin⟩ := nodesOf_treesFrom hcontained hnone hnodes
  exact ⟨⟨fun _ _ => rfl, rfl, hwithin⟩, hnode.2⟩

end Branches

end Highlighter.Union
