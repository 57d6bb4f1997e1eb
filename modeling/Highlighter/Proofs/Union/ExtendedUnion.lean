import Highlighter.Proofs.Text.Boundary
import Highlighter.Proofs.Union.ExtendedJoint
import Highlighter.Proofs.Union.ExtendedRows
import Mathlib.Data.List.Nodup
import Mathlib.Data.List.Perm.Subperm

/-!
# Unions of patterns of the extended dialect

Patterns that the extended dialect accepts and that can be joined (`ExtendedJoinable`) give a union
that it accepts, unless the union is too large (`isSome_ofExtended_text`).

The branches are read one after the other. Each member is read as its pattern is, from the number of
groups on that the members before it have (`readsMember`), and the text is long enough for all the
numbers that refer to groups (`size_branchesFrom`).
-/

set_option autoImplicit false

namespace Highlighter.Union

open Pattern Regex Regex.Extended

/-! ### The numbers in a union -/

/-- Whether a part is a number. -/
def isNumber : Part → Bool
  | .numeric _ => true
  | _ => false

theorem mem_dropCarets {part : Part} {parts : List Part} (hpart : part ≠ .caret)
    (h : part ∈ parts) : part ∈ dropCarets parts := by
  obtain ⟨before, after, rfl⟩ := List.append_of_mem h
  rw [dropCarets_append_cons hpart]
  exact List.mem_append_right _ List.mem_cons_self

/-- Every number takes two characters at least. -/
theorem countP_isNumber_le (folded : Bool) (parts : List Part) :
    2 * parts.countP isNumber ≤ (parts.flatMap (partText folded)).length := by
  induction parts with
  | nil => exact Nat.le_refl _
  | cons part parts ih =>
    rw [List.flatMap_cons, List.length_append, List.countP_cons]
    cases part with
    | numeric number =>
      obtain ⟨digit, digits, hdigits, -⟩ := head_toDigits number
      rw [partText_numeric, hdigits, List.length_cons, List.length_cons]
      simp only [isNumber, if_true]
      omega
    | _ =>
      simp only [isNumber, Bool.false_eq_true, if_false]
      omega

/-- Every group that is kept is referred to. -/
theorem length_keptOf_le (folded : Bool) (base : Nat) (parts : List Part) :
    2 * (keptOf parts).length ≤ (memberText folded (member base parts).1).length := by
  have hnumbers : (keptOf parts).map (fun group =>
      Part.numeric (base + (keptOf parts).idxOf group + 1))
        ⊆ (dropCarets (member base parts).1).filter isNumber := by
    intro part hpart
    obtain ⟨group, hgroup, rfl⟩ := List.mem_map.mp hpart
    obtain ⟨place, hplace⟩ := mem_keptOf.mp hgroup
    have hmem : Part.numeric (base + (keptOf parts).idxOf group + 1) ∈ (member base parts).1 :=
      List.mem_of_getElem? (numeric_member.mpr ⟨group, hplace, rfl⟩)
    exact List.mem_filter.mpr ⟨mem_dropCarets nofun hmem, rfl⟩
  have hnodup : ((keptOf parts).map fun group =>
      Part.numeric (base + (keptOf parts).idxOf group + 1)).Nodup := by
    refine List.Nodup.map_on (fun group hgroup other hother heq => ?_)
      ((pairwise_keptOf parts).imp fun hlt => Nat.ne_of_lt hlt)
    have hindex : (keptOf parts).idxOf group = (keptOf parts).idxOf other := by
      have hnumber := Part.numeric.inj heq
      omega
    exact (List.idxOf_inj hgroup).mp hindex
  have hcount := (List.subperm_of_subset hnodup hnumbers).length_le
  rw [List.length_map, ← List.countP_eq_length_filter] at hcount
  have hlength := countP_isNumber_le folded (dropCarets (member base parts).1)
  show _ ≤ ((dropCarets (member base parts).1).flatMap (partText folded)).length
  omega

theorem length_le_byteSize (text : List Char) : text.length ≤ Text.byteSize text := by
  induction text with
  | nil => exact Nat.le_refl _
  | cons c text ih =>
    have hpos := c.utf8Size_pos
    rw [List.length_cons, Text.byteSize_cons]
    omega

theorem le_members (base : Nat) (lists : List (List Part)) : base ≤ (members base lists).2 := by
  induction lists generalizing base with
  | nil => exact Nat.le_refl _
  | cons parts lists ih => exact Nat.le_trans (Nat.le_add_right _ _) (ih _)

/-- The text of a union is long enough for the numbers of its groups. -/
theorem size_branchesFrom (folds : Pattern → Bool) (base : Nat) (patterns : List Pattern) :
    2 * (members base (patterns.map Pattern.parts)).2 + 2
      ≤ 2 * base + (List.intercalate ['|'] (branchesFrom folds base patterns)).length := by
  induction patterns generalizing base with
  | nil =>
    show 2 * base + 2 ≤ 2 * base + catchAll.length
    rw [show catchAll.length = 6 from rfl]
    omega
  | cons pattern patterns ih =>
    have hmember := length_keptOf_le (folds pattern) base pattern.parts
    have hrest := ih (member base pattern.parts).2
    have htotal : (members base ((pattern :: patterns).map Pattern.parts)).2
        = (members (member base pattern.parts).2 (patterns.map Pattern.parts)).2 := rfl
    have hbase : (member base pattern.parts).2 = base + (keptOf pattern.parts).length := rfl
    rw [branchesFrom, List.intercalate_cons_of_ne_nil (branchesFrom_ne_nil _ _ _), htotal]
    simp only [List.length_append, List.length_cons, List.length_nil]
    omega

/-! ### Members -/

/-- A pattern that the extended dialect accepts inside a group, and inside one more where letter
case is spelt out, and that can be joined. -/
def ExtendedJoinable (folded : Bool) (source : List Char) : Prop :=
  isSteady (keptOf (Part.split source)) 0 (Part.fine (Part.split source)) = true ∧
    ∃ found ∈ parseBranches? (4 * source.length + 4) (1 + if folded then 1 else 0)
        (startReading (Text.byteSize source) false) [] source,
      found.2.2 = [] ∧
        (nodeOf? (found.1.isHard found.2.1.targets) found.2.1.targets found.1).isSome = true ∧
        found.1.everywhere Tree.isCounted = true ∧
        found.1.everywhere (Tree.repeatsSolid (keptOf (Part.split source))) = true

instance (folded : Bool) : DecidablePred (ExtendedJoinable folded) := fun _ =>
  inferInstanceAs (Decidable (_ ∧ ∃ _ ∈ _, _))

theorem isFit_of_nodeOf {targets : List Nat} {hard : Bool} {tree : Tree}
    (hnode : (nodeOf? hard targets tree).isSome = true)
    (hcounted : tree.everywhere Tree.isCounted = true) : tree.everywhere Tree.isFit = true := by
  have hsound : tree.everywhere Tree.isSound = true := by
    unfold nodeOf? at hnode
    split at hnode
    · exact Tree.soundIfPlanned tree true hnode
    · exact Tree.isSound_of_regular tree hnode
  have hboth : tree.everywhere Tree.isFit
      = (tree.everywhere Tree.isSound && tree.everywhere Tree.isCounted) := Tree.everywhere_and tree
  rw [hboth, hsound, hcounted]
  rfl

/-- A reader between the branches of a union. -/
structure Between (size groups : Nat) (reading : Reading) : Prop where
  verbose : reading.flags.verbose = false
  names : reading.names = []
  groups_eq : reading.groups = groups
  size_eq : reading.size = size

/-- A text that is read as a branch of a union of `size` bytes, where the groups before are `base`
and those after it are `next`. -/
def ReadsAsBranch (size base next : Nat) (text : List Char) : Prop :=
  ∀ (reading : Reading) (more : List Char), Between size base reading →
    (∀ c ∈ more.head?, c = '|') →
    ∃ items after, (∀ item ∈ items, item.everywhere Tree.isFit = true) ∧ Between size next after ∧
      RowReads 0 reading [] (text ++ more) items after more

variable {size base next : Nat} {reading after : Reading}

/-- A group that sets flags for itself is a branch. -/
theorem readsAsBranch_group {inside : Reading} (opening body : List Char) {more : List Char}
    {tree : Tree} (hreading : Between size base reading) (hmore : ∀ c ∈ more.head?, c = '|')
    (hclean : Clean ('(' :: (opening ++ (body ++ ')' :: more))))
    (hopening : parseOpening? reading (opening ++ (body ++ ')' :: more))
      = some (.flagged, inside, body ++ ')' :: more))
    (hbody : BranchesReads 1 inside [] (body ++ ')' :: more) tree after (')' :: more))
    (hafter : Between size next after) (hfit : tree.everywhere Tree.isFit = true) :
    ∃ items left, (∀ item ∈ items, item.everywhere Tree.isFit = true) ∧ Between size next left ∧
      RowReads 0 reading [] ('(' :: (opening ++ (body ++ ')' :: more))) items left more := by
  have hleave : Between size next { after with flags := reading.flags } :=
    { hafter with verbose := hreading.verbose }
  have hclean' : Clean more := by
    rintro rest rfl
    cases hmore '(' rfl
  have hcount : ∀ c ∈ more.head?, isCountStart c = false := by
    intro c hc
    obtain rfl := hmore c hc
    rfl
  have hrow : RowReads 0 { after with flags := reading.flags } (if tree.isEmpty then [] else [tree])
      more _ { after with flags := reading.flags } more :=
    rowReads_stop hleave.verbose fun c hc => .inr (hmore c hc)
  refine ⟨_, _, ?_, hleave, .group hreading.verbose hclean
    (.around (by decide) hopening rfl (by simp) ?_ hbody hafter.verbose) ?_
    ⟨tree, more, parseSuffix_none hleave.verbose tree hclean' hcount, Nat.le_refl _, hrow⟩⟩
  · intro item hitem
    split at hitem
    · cases hitem
    · obtain rfl := List.mem_singleton.mp (List.mem_reverse.mp hitem)
      exact hfit
  · simp only [List.length_append]
    omega
  · simp only [List.length_append, List.length_cons]
    omega

/-- A pattern that can be joined is a branch of the union. -/
theorem readsAsBranch_member {folded : Bool} {source : List Char}
    (h : ExtendedJoinable folded source)
    (hsize : 2 * (base + (keptOf (Part.split source)).length) + 2 ≤ size)
    (hlimit : base + (keptOf (Part.split source)).length < numberLimit) :
    ReadsAsBranch size base (member base (Part.split source)).2
      ("(?:".toList ++ memberText folded (member base (Part.split source)).1 ++ [')']) := by
  obtain ⟨happart, ⟨tree, last, left⟩, hread, rfl, hnode, hcounted, hsolid⟩ := h
  intro reading more hreading hmore
  have hsteady : Steady (keptOf (Part.split source)) 0 source :=
    ⟨happart, fun group hgroup => by
      have hbounds := bounds_of_mem_keptOf hgroup
      omega⟩
  have hroom : 1 + (if folded then 1 else 0) ≤ maxDepth := by cases folded <;> decide
  have hpass := (Recasting.carries ⟨folded, base, keptOf (Part.split source)⟩ _).1
    hread hroom rfl hsteady hsolid
  have hfollows : Follows ⟨folded, base, keptOf (Part.split source)⟩ size
      (startReading (Text.byteSize source) false) reading := {
    verbose := rfl
    verbose_later := hreading.verbose
    sorted := pairwise_keptOf _
    names := hreading.names
    groups := hreading.groups_eq.trans (congrArg (base + ·) (countP_keptOf_zero _)).symm
    size_eq := hreading.size_eq
    size_le := hsize
    limit := hlimit }
  have hends : Ends (')' :: more) := by
    rintro c ⟨⟩
    rfl
  obtain ⟨tree', after, htree, hafter, hbody⟩ := hpass.reads reading [] _ hfollows .nil hends
  have hnext : Between size (member base (Part.split source)).2 after := by
    refine ⟨hafter.verbose_later, hafter.names, hafter.groups.trans ?_, hafter.size_eq⟩
    have hall : (keptOf (Part.split source)).countP (· ≤ last.groups)
        = (keptOf (Part.split source)).length := by
      refine List.countP_eq_length.mpr fun group hgroup => decide_eq_true ?_
      have hle := hpass.steady.opens group hgroup
      rwa [Part.split] at hle
    exact congrArg (base + ·) hall
  rw [Recasting.text_nil, List.nil_append] at hbody
  rw [Recasting.memberText_eq_text]
  have hshape : "(?:".toList ++ (⟨folded, base, targets (resolve 0 (Part.split source))⟩ :
      Recasting).text 0 source ++ [')'] ++ more
        = '(' :: (['?', ':'] ++ ((⟨folded, base, keptOf (Part.split source)⟩ :
            Recasting).text 0 source ++ ')' :: more)) := by
    simp [keptOf]
  rw [hshape]
  exact readsAsBranch_group ['?', ':'] _ hreading hmore (clean_group (by decide) _)
    (parseOpening_flags hreading.verbose _).1 hbody hnext
    (htree.fit (isFit_of_nodeOf hnode hcounted))

theorem readsAsBranch_catchAll : ReadsAsBranch size base base catchAll := by
  intro reading more hreading hmore
  have hinside : ({ reading with flags := { reading.flags with dotAll := true } } :
      Reading).flags.verbose = false := hreading.verbose
  have hrow : RowReads 1 { reading with flags := { reading.flags with dotAll := true } } []
      ('.' :: ')' :: more) [.any true] _ (')' :: more) :=
    .piece hinside rfl ⟨.any true, ')' :: more,
      parseSuffix_none hinside _ (clean_cons (by decide) _) (by simp [isCountStart]), Nat.le_refl _,
      rowReads_stop hinside (by simp)⟩
  exact readsAsBranch_group "?s:".toList ['.'] hreading hmore (clean_group (by decide) _)
    (parseOpening_flags hreading.verbose _).2.2 (.last hrow hreading.names (by simp))
    { hreading with } rfl

theorem parseOpening_ignoreCase (hverbose : reading.flags.verbose = false) (rest : List Char) :
    parseOpening? reading ('?' :: 'i' :: ')' :: rest) = some (.flags, reading.ignoring, rest) := by
  have hinside : reading.ignoring.flags.verbose = false := hverbose
  rw [parseOpening_eq, Reading.skip_eq hverbose (clean_cons (by decide) _)]
  show parseFlags? true none reading (rest.length + 2 + 1) ('i' :: ')' :: rest) = _
  rw [parseFlags_letter hverbose (by decide)]
  show parseFlags? true (some 'i') reading.ignoring (rest.length + 1 + 1) (')' :: rest) = _
  rw [parseFlags_mark (.inr rfl) hinside]
  rfl

/-- The flag for letter case may stand before a branch. -/
theorem ReadsAsBranch.ignoring {c : Char} {rest : List Char} (hc : c ≠ '#')
    (h : ReadsAsBranch size base next ('(' :: '?' :: c :: rest)) :
    ReadsAsBranch size base next ("(?i)".toList ++ '(' :: '?' :: c :: rest) := by
  intro reading more hreading hmore
  have hinside : Between size base reading.ignoring :=
    { hreading with verbose := hreading.verbose }
  obtain ⟨items, after, hitems, hafter, hrow⟩ := h _ more hinside hmore
  refine ⟨items, after, hitems, hafter, ?_⟩
  have hclean : Clean ('(' :: '?' :: c :: rest ++ more) := by
    rintro others heq
    cases heq
    exact hc rfl
  exact .group hreading.verbose (clean_group (by decide) _)
    (.flags (by decide) (parseOpening_ignoreCase hreading.verbose _)) (by simp)
    ⟨.empty, _, parseSuffix_none hinside.verbose _ hclean (by simp [isCountStart]), Nat.le_refl _,
      hrow⟩

/-! ### Branches -/

/-- Texts that are read as branches, one after the other. -/
def ReadInTurn (size base : Nat) : List (List Char) → Prop
  | [] => True
  | text :: rest => ∃ next, ReadsAsBranch size base next text ∧ ReadInTurn size next rest

theorem readInTurn_branchesFrom {folds : Pattern → Bool} {patterns : List Pattern}
    (h : ∀ pattern ∈ patterns, ExtendedJoinable (folds pattern) pattern.source.toList) (base : Nat)
    (hsize : 2 * (members base (patterns.map Pattern.parts)).2 + 2 ≤ size)
    (hlimit : (members base (patterns.map Pattern.parts)).2 < numberLimit) :
    ReadInTurn size base (branchesFrom folds base patterns) := by
  induction patterns generalizing base with
  | nil => exact ⟨base, readsAsBranch_catchAll, trivial⟩
  | cons pattern patterns ih =>
    obtain ⟨hpattern, hpatterns⟩ := List.forall_mem_cons.mp h
    have htotal : (members base ((pattern :: patterns).map Pattern.parts)).2
        = (members (member base pattern.parts).2 (patterns.map Pattern.parts)).2 := rfl
    have hle := le_members (member base pattern.parts).2 (patterns.map Pattern.parts)
    have hbase : (member base pattern.parts).2 = base + (keptOf pattern.parts).length := rfl
    rw [htotal] at hsize hlimit
    refine ⟨(member base pattern.parts).2, readsAsBranch_member hpattern ?_ ?_,
      ih hpatterns _ hsize hlimit⟩
    · show 2 * (base + (keptOf pattern.parts).length) + 2 ≤ size
      omega
    · show base + (keptOf pattern.parts).length < numberLimit
      omega

/-- The branches of a union, between bars. -/
theorem exists_readBranches {first : List Char} {texts : List (List Char)}
    (h : ReadInTurn size base (first :: texts)) {reading : Reading}
    (hreading : Between size base reading) (before : List Tree) :
    ∃ tree trees after, (∀ other ∈ tree :: trees, other.everywhere Tree.isFit = true) ∧
      trees.length = texts.length ∧
      BranchesReads 0 reading before (List.intercalate ['|'] (first :: texts))
        (.ofBranches (before.reverse ++ tree :: trees)) after [] := by
  induction texts generalizing first base reading before with
  | nil =>
    obtain ⟨next, hfirst, -⟩ := h
    obtain ⟨items, after, hitems, hafter, hrow⟩ := hfirst reading [] hreading nofun
    rw [List.append_nil] at hrow
    refine ⟨_, [], after, List.forall_mem_singleton.mpr (Tree.everywhere_ofItems rfl rfl hitems),
      rfl, ?_⟩
    rw [List.intercalate_singleton]
    exact .last hrow hafter.names nofun
  | cons second texts ih =>
    -- The reader has met the groups of the first branch when it comes to the others.
    obtain ⟨next, hfirst, hrest⟩ := h
    obtain ⟨items, between, hitems, hbetween, hrow⟩ :=
      hfirst reading ('|' :: List.intercalate ['|'] (second :: texts)) hreading (by simp)
    obtain ⟨tree, trees, after, hall, hlength, hread⟩ :=
      ih hrest hbetween (.ofItems items :: before)
    refine ⟨_, tree :: trees, after,
      List.forall_mem_cons.mpr ⟨Tree.everywhere_ofItems rfl rfl hitems, hall⟩,
      congrArg (· + 1) hlength, ?_⟩
    rw [List.intercalate_cons_of_ne_nil (List.cons_ne_nil _ _), List.append_assoc,
      List.singleton_append]
    rw [List.reverse_cons, List.append_assoc] at hread
    refine .branch hrow ?_ hread
    rw [List.length_append, List.length_cons]
    omega

/-! ### The whole union -/

/-- What a text is read as in the extended dialect stays within its limits. -/
def ExtendedFits (text : List Char) : Prop :=
  Text.byteSize text < numberLimit ∧
    ∀ parsed ∈ parse? text, parsed.tree.everywhere (Tree.isLight parsed.targets) = true

instance : DecidablePred ExtendedFits := fun _ =>
  inferInstanceAs (Decidable (_ ∧ ∀ parsed ∈ parse? _, _))

/-- The flag for letter case stands before the branches, or else they are all there is. -/
theorem text_eq (patterns : List Pattern) :
    text patterns = (if caseRule patterns == .ignored then "(?i)".toList else []) ++
      List.intercalate ['|'] (branchesFrom (isFolded patterns) 0 patterns) := by
  have hbranches := branches_eq (caseRule patterns) patterns
  unfold text
  simp only [hbranches]
  split <;> rfl

/-- The texts between the bars of a union, the first one with the flag for letter case. -/
theorem exists_readInTurn {folds : Pattern → Bool} {patterns : List Pattern} (lead : Bool)
    (h : ReadInTurn size 0 (branchesFrom folds 0 patterns)) :
    ∃ first texts, (if lead then "(?i)".toList else []) ++
        List.intercalate ['|'] (branchesFrom folds 0 patterns)
          = List.intercalate ['|'] (first :: texts) ∧
      texts.length = patterns.length ∧ ReadInTurn size 0 (first :: texts) := by
  have hfirst : ∃ c rest texts, c ≠ '#' ∧ texts.length = patterns.length ∧
      branchesFrom folds 0 patterns = ('(' :: '?' :: c :: rest) :: texts := by
    have hlength : ∀ (base : Nat) (patterns : List Pattern),
        (branchesFrom folds base patterns).length = patterns.length + 1 := by
      intro base patterns
      induction patterns generalizing base with
      | nil => rfl
      | cons pattern patterns ih => exact congrArg (· + 1) (ih _)
    cases patterns with
    | nil => exact ⟨'s', _, [], by decide, rfl, rfl⟩
    | cons pattern patterns => exact ⟨':', _, _, by decide, hlength _ patterns, rfl⟩
  obtain ⟨c, rest, texts, hc, hlength, hbranches⟩ := hfirst
  rw [hbranches] at h ⊢
  obtain ⟨next, hread, hturn⟩ := h
  cases lead with
  | false => exact ⟨_, texts, rfl, hlength, next, hread, hturn⟩
  | true =>
    refine ⟨_, texts, ?_, hlength, next, hread.ignoring hc, hturn⟩
    cases texts with
    | nil => rw [List.intercalate_singleton, List.intercalate_singleton, if_pos rfl]
    | cons second texts =>
      rw [List.intercalate_cons_of_ne_nil (List.cons_ne_nil _ _),
        List.intercalate_cons_of_ne_nil (List.cons_ne_nil _ _), if_pos rfl]
      simp only [List.append_assoc]

/-- The union of patterns that can be joined is read, and its parts are fit. -/
theorem exists_parsed_text {patterns : List Pattern}
    (h : ∀ pattern ∈ patterns, ExtendedJoinable (isFolded patterns pattern) pattern.source.toList)
    (hlimit : Text.byteSize (text patterns) < numberLimit) :
    ∃ tree trees parsed, parse? (text patterns) = some parsed ∧
      parsed.tree = .ofBranches (tree :: trees) ∧ trees.length = patterns.length ∧
      ∀ other ∈ tree :: trees, other.everywhere Tree.isFit = true := by
  have htext := text_eq patterns
  have hsize := size_branchesFrom (isFolded patterns) 0 patterns
  have hlength := length_le_byteSize (text patterns)
  rw [htext, List.length_append, ← htext] at hlength
  have hturn : ReadInTurn (Text.byteSize (text patterns)) 0
      (branchesFrom (isFolded patterns) 0 patterns) :=
    readInTurn_branchesFrom h 0 (by omega) (by omega)
  obtain ⟨first, texts, heq, htexts, hturn⟩ :=
    exists_readInTurn (caseRule patterns == .ignored) hturn
  have hstart : Between (Text.byteSize (text patterns)) 0
      (startReading (Text.byteSize (text patterns)) false) := ⟨rfl, rfl, rfl, rfl⟩
  obtain ⟨tree, trees, after, hfit, htrees, hread⟩ := exists_readBranches hturn hstart []
  rw [← heq, ← htext] at hread
  have hbranches := hread (4 * (text patterns).length + 4) (by omega)
  refine ⟨tree, trees, ⟨_, after.groups, after.targets⟩, ?_, rfl, htrees.trans htexts, hfit⟩
  rw [parse?, show (⟨_, ⟨false, false, false, false, false⟩, 0, [], false, []⟩ : Reading)
    = startReading (Text.byteSize (text patterns)) false from rfl, hbranches]
  rfl

/-- The union of patterns that can be joined is a pattern of the extended dialect. -/
theorem isSome_ofExtended_text {patterns : List Pattern}
    (h : ∀ pattern ∈ patterns, ExtendedJoinable (isFolded patterns pattern) pattern.source.toList)
    (hfits : ExtendedFits (text patterns)) :
    (Matcher.ofExtended? (text patterns)).isSome = true := by
  obtain ⟨hlimit, hlights⟩ := hfits
  obtain ⟨tree, trees, parsed, hparse, htree, hlength, hall⟩ := exists_parsed_text h hlimit
  have hlight := hlights parsed hparse
  have hfit : parsed.tree.everywhere Tree.isFit = true := by
    rw [htree]
    exact Tree.everywhere_ofBranches rfl hall
  cases patterns with
  | nil => rfl
  | cons pattern patterns =>
    -- There are two branches at least, so the whole is an alternation and not a row.
    obtain ⟨second, trees, rfl⟩ := List.exists_cons_of_length_eq_add_one hlength
    unfold Matcher.ofExtended?
    rw [hparse]
    simp only [bind, Option.bind_some]
    cases hhard : parsed.tree.isHard parsed.targets with
    | true =>
      have hplan := Tree.hasPlan parsed.tree ⟨hfit, hlight⟩ true
      obtain ⟨node, hnode⟩ := Option.isSome_iff_exists.mp hplan
      simp [hnode]
    | false =>
      have hweight : parsed.tree.weight ≤ maxWeight := by
        have halternation : parsed.tree = .alternation (tree :: second :: trees) := htree
        have htest := Tree.test_of_everywhere hlight
        rw [halternation] at htest hhard ⊢
        simpa [Tree.isLight, hhard] using htest
      obtain ⟨node, hnode⟩ :=
        Option.isSome_iff_exists.mp (Tree.isSome_regular parsed.tree hhard hfit)
      simp [hnode, Nat.not_lt.mpr hweight]

end Highlighter.Union
