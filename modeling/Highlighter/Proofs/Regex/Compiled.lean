import Highlighter.Proofs.Regex.Extended.Plan
import Highlighter.Proofs.Regex.Extended.Reading
import Highlighter.Proofs.Regex.Regular.Reading
import Highlighter.Regex.Matcher

/-!
# Compiled patterns find what they are written for

The matcher of the text of an expression follows the expression at
every position (`Matcher.follows_ofPattern`). So where the expression
matches at the start of a search, the matcher finds the first of its
ways (`Matcher.finds_ofPattern`), and where it matches nowhere, the
matcher finds nothing (`Matcher.Follows.misses`). Both dialects are
covered, and in the extended one both patterns that are left to a
regular expression and hard ones, which may give up after too many
retries.
-/

set_option autoImplicit false

namespace Highlighter.Regex

open Pattern

/-- How the dialect of a matcher reads patterns. -/
def Matcher.sense (matcher : Matcher) (text : Array Char) : Sense :=
  if matcher.isBacktracking then Extended.sense text matcher.limit.isSome else Regular.sense text

theorem Matcher.text_sense (matcher : Matcher) (text : Array Char) :
    (matcher.sense text).text = text := by
  unfold sense
  split <;> rfl

/-- Where an expression matches at the start of a search, a matcher
finds its first way. Only a matcher that counts retries may give up. -/
def Matcher.Finds (matcher : Matcher) (ignoreCase : Bool) (expr : Expr) : Prop :=
  ∀ (text : Array Char) (pos stop : Nat), pos ≤ text.size →
    expr.stop? (matcher.sense text) ignoreCase pos = some stop →
      (∃ found, matcher.search text pos = .ok (some found) ∧ found.whole.start = pos ∧
        found.whole.stop = stop) ∨
      matcher.limit ≠ none ∧ matcher.search text pos = .error .retriesExhausted

/-- Where an expression matches nowhere from the start of a search on, a
matcher finds nothing. Only a matcher that counts retries may give up. -/
def Matcher.Misses (matcher : Matcher) (ignoreCase : Bool) (expr : Expr) : Prop :=
  ∀ (text : Array Char) (pos : Nat),
    (∀ start, pos ≤ start → expr.stop? (matcher.sense text) ignoreCase start = none) →
      matcher.search text pos = .ok none ∨
      matcher.limit ≠ none ∧ matcher.search text pos = .error .retriesExhausted

/-- The ways of a whole pattern at a position stop where an expression
does, and all of them start at the position. -/
structure Node.Follows (node : Node) (groups : Nat) (search : Search) (pos : Nat)
    (stop? : Option Nat) : Prop where
  stops : (node.waysFrom search groups pos).head?.map Prod.fst = stop?
  starts : ∀ next ∈ node.waysFrom search groups pos, next.2[0]? = some (some pos)

/-- A matcher matches at every position as an expression does. -/
def Matcher.Follows (matcher : Matcher) (ignoreCase : Bool) (expr : Expr) : Prop :=
  ∀ (search : Search) (pos : Nat), matcher.node.Follows matcher.groups search pos
    (expr.stop? (matcher.sense search.text) ignoreCase pos)

/-- A matcher finds what it follows. -/
theorem Matcher.Follows.finds {matcher : Matcher} {ignoreCase : Bool} {expr : Expr}
    (h : matcher.Follows ignoreCase expr) : matcher.Finds ignoreCase expr := by
  intro text pos stop hpos hstop
  have hfollows := h ⟨text, pos, matcher.limit⟩ pos
  have hstops := hfollows.stops.trans hstop
  obtain ⟨next, hnext, rfl⟩ := Option.map_eq_some_iff.mp hstops
  have hstart := hfollows.starts next (List.mem_of_mem_head? hnext)
  have hsense := matcher.text_sense text
  have hbounds := Expr.stop?_bounds (by rw [hsense]; exact hpos) hstop
  rw [hsense] at hbounds
  rcases Search.find_eq ⟨text, pos, matcher.limit⟩ matcher.node matcher.groups hpos hnext with
    ⟨hfind, hlimit⟩ | ⟨spent, hfind⟩
  · refine .inr ⟨hlimit, ?_⟩
    unfold Matcher.search
    rw [hfind]
  · refine .inl ⟨.ofSlots text.size next.1 next.2, ?_, ?_, ?_⟩
    · unfold Matcher.search
      rw [hfind]
    · show min (next.2[0]?.join.getD next.1) (min next.1 text.size) = pos
      rw [hstart]
      show min pos (min next.1 text.size) = pos
      omega
    · exact Nat.min_eq_left hbounds.2

/-- A matcher misses what does not match anywhere. -/
theorem Matcher.Follows.misses {matcher : Matcher} {ignoreCase : Bool} {expr : Expr}
    (h : matcher.Follows ignoreCase expr) : matcher.Misses ignoreCase expr := by
  intro text pos hnone
  have hways : ∀ start, pos ≤ start → start ≤ text.size →
      matcher.node.waysFrom ⟨text, pos, matcher.limit⟩ matcher.groups start = [] := by
    intro start hle _
    have hstops := (h ⟨text, pos, matcher.limit⟩ start).stops.trans (hnone start hle)
    exact List.head?_eq_none_iff.mp (Option.map_eq_none_iff.mp hstops)
  rcases Search.find_eq_failed ⟨text, pos, matcher.limit⟩ matcher.node matcher.groups hways with
    ⟨hfind, hlimit⟩ | ⟨spent, hfind⟩
  · refine .inr ⟨hlimit, ?_⟩
    unfold Matcher.search
    rw [hfind]
  · refine .inl ?_
    unfold Matcher.search
    rw [hfind]

/-! ### Slots at the start -/

/-- The slots of a match that starts at a position. -/
def startSlots (groups pos : Nat) : Slots :=
  (Array.replicate (2 * (groups + 1)) (none : Option Nat)).setIfInBounds 0 (some pos)

theorem startSlots_zero (groups pos : Nat) : (startSlots groups pos)[0]? = some (some pos) := by
  unfold startSlots
  rw [Array.getElem?_setIfInBounds_self_of_lt]
  rw [Array.size_replicate]
  omega

theorem startSlots_of_le {groups index : Nat} (hindex : index ≠ 0) (hle : index ≤ 2 * groups + 1)
    (pos : Nat) : (startSlots groups pos)[index]? = some none := by
  unfold startSlots
  rw [Array.getElem?_setIfInBounds_ne (Ne.symm hindex), Array.getElem?_replicate, if_pos (by omega)]

/-- The end of the whole match is not where it starts. -/
theorem mem_waysFrom {search : Search} {node : Node} {groups pos : Nat} {next : Nat × Slots}
    (h : next ∈ node.waysFrom search groups pos) :
    ∃ found ∈ node.ways search (pos, startSlots groups pos),
      next.1 = found.1 ∧ next.2[0]? = found.2[0]? := by
  obtain ⟨found, hfound, rfl⟩ := List.mem_map.mp h
  exact ⟨found, hfound, rfl, Array.getElem?_setIfInBounds_ne (by decide)⟩

theorem head_waysFrom (search : Search) (node : Node) (groups pos : Nat) :
    (node.waysFrom search groups pos).head?.map Prod.fst
      = (node.ways search (pos, startSlots groups pos)).head?.map Prod.fst := by
  show ((List.map _ (node.ways search (pos, startSlots groups pos))).head?).map Prod.fst = _
  rw [List.head?_map, Option.map_map]
  rfl

/-- A node that has the ways of an expression, and keeps what is known
of the whole match, follows the expression. -/
theorem Node.follows_of_agree {node : Node} {groups : Nat} {search : Search} {sense : Sense}
    {ignoreCase : Bool} {expr : Expr} {pos : Nat}
    (hagree : Agree SamePos (node.ways search (pos, startSlots groups pos))
      (expr.ways sense ignoreCase 0 (pos, Marks.none)))
    (hkeeps : ∀ next ∈ node.ways search (pos, startSlots groups pos),
      next.2[0]? = (startSlots groups pos)[0]?) :
    node.Follows groups search pos (expr.stop? sense ignoreCase pos) where
  stops := (head_waysFrom search node groups pos).trans
    (hagree.head?_map fun _ _ hsame => hsame)
  starts next hnext := by
    obtain ⟨found, hfound, -, hslot⟩ := mem_waysFrom hnext
    rw [hslot, hkeeps found hfound, startSlots_zero]

/-! ### What a matcher is read from -/

theorem Matcher.ofRegular_eq_some {pattern : List Char} {matcher : Matcher}
    (h : Matcher.ofRegular? pattern = some matcher) :
    ∃ ast groups node after, Regular.parse? pattern = some (ast, groups) ∧
      ast.meaning? .initial = some (node, after) ∧
      matcher = ⟨String.ofList pattern, node, groups, false, none⟩ := by
  unfold Matcher.ofRegular? at h
  obtain ⟨⟨ast, groups⟩, hparse, h⟩ := Option.bind_eq_some_iff.mp h
  by_cases hweight : maxWeight < ast.weight
  · simp [hweight] at h
  · simp only [hweight, if_false] at h
    obtain ⟨⟨node, after⟩, hmeaning, h⟩ := Option.bind_eq_some_iff.mp h
    cases h
    exact ⟨ast, groups, node, after, hparse, hmeaning, rfl⟩

/-- Only hard trees are planned, and only their matchers count
retries. -/
theorem Matcher.ofExtended_eq_some {pattern : List Char} {matcher : Matcher}
    (h : Matcher.ofExtended? pattern = some matcher) :
    ∃ parsed node limit, Extended.parse? pattern = some parsed ∧
      matcher = ⟨String.ofList pattern, node, parsed.groups, true, limit⟩ ∧
      (parsed.tree.isHard parsed.targets = true ∧ limit = some retryLimit ∧
          parsed.tree.plan? parsed.targets true = some node ∨
        parsed.tree.isHard parsed.targets = false ∧ limit = none ∧
          parsed.tree.regular? = some node) := by
  unfold Matcher.ofExtended? at h
  obtain ⟨⟨tree, groups, targets⟩, hparse, h⟩ := Option.bind_eq_some_iff.mp h
  cases hhard : tree.isHard targets with
  | true =>
    simp only [hhard, Bool.not_true, Bool.false_and, Bool.false_eq_true, if_false, if_true] at h
    obtain ⟨node, hnode, h⟩ := Option.bind_eq_some_iff.mp h
    cases h
    exact ⟨_, node, _, hparse, rfl, .inl ⟨hhard, rfl, hnode⟩⟩
  | false =>
    by_cases hweight : maxWeight < tree.weight
    · simp [hhard, hweight] at h
    · simp only [hhard, hweight, decide_false, Bool.and_false, Bool.false_eq_true, if_false] at h
      obtain ⟨node, hnode, h⟩ := Option.bind_eq_some_iff.mp h
      cases h
      exact ⟨_, node, _, hparse, rfl, .inr ⟨hhard, rfl, hnode⟩⟩

/-- What the dialects read from a text means what an expression
means. -/
structure IsRead (pattern : List Char) (ignoreCase : Bool) (expr : Expr) : Prop where
  regular : ∀ {ast groups node after}, Regular.parse? pattern = some (ast, groups) →
    ast.meaning? .initial = some (node, after) → Regular.HasWays node ignoreCase expr
  extended : ∀ {parsed}, Extended.parse? pattern = some parsed →
    parsed.tree.Means ignoreCase 0 expr ∧ parsed.groups = expr.captures ∧
      ∀ group, group ∈ parsed.targets ↔ expr.refersTo group = true

/-- The text of an expression is read as the expression. -/
theorem isRead_render {expr : Expr} (hwf : expr.WellFormed) : IsRead expr.render false expr where
  regular hparse hmeaning := Regular.hasWays_of_parse hwf hparse hmeaning
  extended := Extended.means_of_parse hwf

/-! ### The regular dialect -/

/-- A matcher of the regular dialect follows what is read. -/
theorem IsRead.follows_ofRegular {pattern : List Char} {ignoreCase : Bool} {expr : Expr}
    (hread : IsRead pattern ignoreCase expr) {matcher : Matcher}
    (h : Matcher.ofRegular? pattern = some matcher) : matcher.Follows ignoreCase expr := by
  obtain ⟨ast, groups, node, after, hparse, hmeaning, rfl⟩ := Matcher.ofRegular_eq_some h
  have hways := hread.regular hparse hmeaning
  exact fun search pos =>
    Node.follows_of_agree (hways.agree search 0 _ _ rfl) (hways.keeps search _)

/-! ### The extended dialect -/

open Extended in
/-- A hard tree is matched by its plan. -/
theorem follows_plan {tree : Tree} {targets : List Nat} {groups : Nat} {ignoreCase : Bool}
    {expr : Expr} (hmeans : tree.Means ignoreCase 0 expr) (hfits : tree.Fits targets)
    (htargets : ∀ group ∈ targets, 1 ≤ group ∧ group ≤ groups) {node : Node}
    (hplan : tree.plan? targets true = some node) (search : Search) (pos : Nat) :
    node.Follows groups search pos
      (expr.stop? (Extended.sense search.text true) ignoreCase pos) := by
  have hrun : Consecutive tree.groups := ⟨1, by rw [hmeans.groups_eq, List.length_range']⟩
  have hplanned := agree_plan hfits hrun true node (fun hfalse => Bool.noConfusion hfalse) hplan
  have halike : Alike targets pos true (pos, startSlots groups pos) (pos, Marks.none) := by
    refine ⟨fun _ => rfl, startSlots_zero _ _, fun group hgroup => ?_, fun group hgroup => ?_⟩
    · have hbounds := htargets group hgroup
      exact startSlots_of_le (by omega) (by omega) _
    · have hbounds := htargets group hgroup
      exact startSlots_of_le (by omega) (by omega) _
  have hagree := hplanned pos search _ _ halike
  rw [hmeans.ways_eq] at hagree
  constructor
  · exact (head_waysFrom search node groups pos).trans
      (hagree.head?_map fun _ _ hsame => hsame.pos_eq)
  · intro next hnext
    obtain ⟨found, hfound, -, hslot⟩ := mem_waysFrom hnext
    have hstarts := (hagree.forall_iff (p := fun next => next.2[0]? = some (some pos))
      (q := fun _ => True) fun _ _ hsame => iff_true_intro hsame.2.whole).mpr fun _ _ => trivial
    exact hslot.trans (hstarts found hfound)

open Extended in
/-- A tree that is not hard is matched by a regular expression. -/
theorem follows_regular {tree : Tree} {targets : List Nat} {groups : Nat} {ignoreCase : Bool}
    {expr : Expr} (hmeans : tree.Means ignoreCase 0 expr) (heasy : Easy targets tree) {node : Node}
    (hnode : tree.regular? = some node) (search : Search) (pos : Nat) :
    node.Follows groups search pos
      (expr.stop? (Extended.sense search.text false) ignoreCase pos) := by
  have hstands := heasy.standsFor hnode
  have hagree := hstands.agree search (pos, startSlots groups pos) (pos, Marks.none) rfl
  rw [hmeans.ways_eq] at hagree
  exact Node.follows_of_agree hagree fun next hnext =>
    hstands.spares search _ next hnext 0 fun hzero => (heasy.of_mem_groups 0 hzero).1 rfl

open Extended in
/-- A matcher of the extended dialect follows what is read. No group
opens in a look-around. -/
theorem IsRead.follows_ofExtended {pattern : List Char} {ignoreCase : Bool} {expr : Expr}
    (hread : IsRead pattern ignoreCase expr)
    (hrefs : ∀ group, expr.refersTo group = true → 1 ≤ group ∧ group ≤ expr.captures)
    (hbare : expr.looksBare = true) {matcher : Matcher}
    (h : Matcher.ofExtended? pattern = some matcher) : matcher.Follows ignoreCase expr := by
  obtain ⟨⟨tree, groups, targets⟩, node, limit, hparse, rfl, hcase⟩ :=
    Matcher.ofExtended_eq_some h
  obtain ⟨hmeans, hgroups, htargets⟩ := hread.extended hparse
  have hfits : tree.Fits targets :=
    hmeans.fits targets (fun group hgroup => (htargets group).mpr hgroup) hbare
  have hbounds : ∀ group ∈ targets, 1 ≤ group ∧ group ≤ groups := by
    intro group hgroup
    have hle := hrefs group ((htargets group).mp hgroup)
    exact ⟨hle.1, Nat.le_trans hle.2 (Nat.le_of_eq hgroups.symm)⟩
  rcases hcase with ⟨-, rfl, hnode⟩ | ⟨hhard, rfl, hnode⟩
  · exact follows_plan hmeans hfits hbounds hnode
  · exact follows_regular hmeans (Easy.of_fits hfits hhard) hnode

/-! ### Both dialects -/

section BothDialects

variable {pattern : List Char} {ignoreCase : Bool} {expr : Expr} {matcher : Matcher}

/-- A matcher follows what is read. No group opens in a look-around. -/
theorem IsRead.follows (hread : IsRead pattern ignoreCase expr)
    (hrefs : ∀ group, expr.refersTo group = true → 1 ≤ group ∧ group ≤ expr.captures)
    (hbare : expr.looksBare = true)
    (h : Matcher.ofPattern? (String.ofList pattern) = some matcher) :
    matcher.Follows ignoreCase expr := by
  unfold Matcher.ofPattern? at h
  rw [String.toList_ofList] at h
  cases hfound : Matcher.ofRegular? pattern with
  | some found =>
    rw [hfound] at h
    cases h
    exact hread.follows_ofRegular hfound
  | none =>
    rw [hfound] at h
    exact hread.follows_ofExtended hrefs hbare h

/-- The matcher of an easy expression never gives up. -/
theorem IsRead.limit_eq (hread : IsRead pattern ignoreCase expr) (heasy : expr.isEasy = true)
    (h : Matcher.ofPattern? (String.ofList pattern) = some matcher) : matcher.limit = none := by
  unfold Matcher.ofPattern? at h
  rw [String.toList_ofList] at h
  cases hfound : Matcher.ofRegular? pattern with
  | some found =>
    rw [hfound] at h
    cases h
    obtain ⟨ast, groups, node, after, -, -, rfl⟩ := Matcher.ofRegular_eq_some hfound
    rfl
  | none =>
    rw [hfound] at h
    obtain ⟨⟨tree, groups, targets⟩, node, limit, hparse, rfl, hcase⟩ :=
      Matcher.ofExtended_eq_some h
    obtain ⟨hmeans, -, htargets⟩ := hread.extended hparse
    -- Nothing is referred to, so nothing makes the tree hard.
    have hnone : targets = [] := by
      refine List.eq_nil_iff_forall_not_mem.mpr fun group hgroup => ?_
      have href := (htargets group).mp hgroup
      rw [Expr.refersTo_of_isEasy heasy] at href
      cases href
    have hhard : tree.isHard targets = false := by
      rw [hnone]
      exact hmeans.isHard_eq heasy
    rcases hcase with ⟨hhard', -⟩ | ⟨-, rfl, -⟩
    · exact absurd (hhard.symm.trans hhard') Bool.false_ne_true
    · rfl

/-- The matcher of an easy expression finds it. -/
theorem IsRead.finds (hread : IsRead pattern ignoreCase expr) (heasy : expr.isEasy = true)
    (h : Matcher.ofPattern? (String.ofList pattern) = some matcher) :
    matcher.Finds ignoreCase expr := by
  refine (hread.follows (fun group href => ?_) (Expr.looksBare_of_isEasy heasy) h).finds
  rw [Expr.refersTo_of_isEasy heasy] at href
  cases href

end BothDialects

/-- The matcher of the text of an expression follows the expression. No
group opens in a look-around. -/
theorem Matcher.follows_ofPattern {expr : Expr} (hwf : expr.WellFormed)
    (hrefs : ∀ group, expr.refersTo group = true → 1 ≤ group ∧ group ≤ expr.captures)
    (hbare : expr.looksBare = true) {matcher : Matcher}
    (h : Matcher.ofPattern? (String.ofList expr.render) = some matcher) :
    matcher.Follows false expr :=
  (isRead_render hwf).follows hrefs hbare h

/-- The matcher of the text of an expression finds what the expression
asks for. Its groups are those that it refers to, and none opens in a
look-around. -/
theorem Matcher.finds_ofPattern {expr : Expr} (hwf : expr.WellFormed)
    (hrefs : ∀ group, expr.refersTo group = true ↔ 1 ≤ group ∧ group ≤ expr.captures)
    (hbare : expr.looksBare = true) {matcher : Matcher}
    (h : Matcher.ofPattern? (String.ofList expr.render) = some matcher) :
    matcher.Finds false expr :=
  (follows_ofPattern hwf (fun group => (hrefs group).mp) hbare h).finds

end Highlighter.Regex
