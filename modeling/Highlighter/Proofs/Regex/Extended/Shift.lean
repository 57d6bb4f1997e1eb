import Highlighter.Proofs.Regex.Extended.Plan
import Highlighter.Proofs.Regex.Shift

/-!
# Patterns of the extended dialect with groups numbered later

`Tree.shift` adds a number to all groups of a pattern, and to all references to them. How a pattern
is matched then only changes in the same way (`Tree.plansShift`, `Tree.shifts_regular`): neither
the sizes of patterns depend on numbers, nor whether a pattern is hard, as long as the same groups
are referred to (`TargetsAlike`).
-/

set_option autoImplicit false

namespace Highlighter.Regex.Extended

namespace Tree

/-! ### Shifted patterns -/

mutual

/-- The pattern with all groups numbered `base` later. -/
def shift (base : Nat) : Tree → Tree
  | concat items => concat (shiftAll base items)
  | alternation branches => alternation (shiftAll base branches)
  | group index body => group (base + index) (body.shift base)
  | repetition min max greedy body => repetition min max greedy (body.shift base)
  | look behind negated body => look behind negated (body.shift base)
  | backref index => backref (base + index)
  | atomic body => atomic (body.shift base)
  | groupSet index => groupSet (base + index)
  | cond condition yes no => cond (condition.shift base) (yes.shift base) (no.shift base)
  | tree => tree

/-- The patterns with all groups numbered `base` later. -/
def shiftAll (base : Nat) : List Tree → List Tree
  | [] => []
  | item :: rest => item.shift base :: shiftAll base rest

end

mutual

/-- All groups of a pattern, and all that it refers to, are numbered from 1 to `groups`. -/
def Within (groups : Nat) : Tree → Prop
  | concat items => WithinAll groups items
  | alternation branches => WithinAll groups branches
  | group index body => (1 ≤ index ∧ index ≤ groups) ∧ body.Within groups
  | repetition _ _ _ body => body.Within groups
  | look _ _ body => body.Within groups
  | backref index => 1 ≤ index ∧ index ≤ groups
  | atomic body => body.Within groups
  | groupSet index => 1 ≤ index ∧ index ≤ groups
  | cond condition yes no => condition.Within groups ∧ yes.Within groups ∧ no.Within groups
  | _ => True

/-- `Within` for several patterns. -/
def WithinAll (groups : Nat) : List Tree → Prop
  | [] => True
  | item :: rest => item.Within groups ∧ WithinAll groups rest

end

theorem shiftAll_eq_map (base : Nat) (items : List Tree) :
    shiftAll base items = items.map (shift base) := by
  induction items with
  | nil => rfl
  | cons item rest ih => rw [shiftAll, ih, List.map_cons]

theorem withinAll_iff {groups : Nat} {items : List Tree} :
    WithinAll groups items ↔ ∀ item ∈ items, item.Within groups := by
  induction items with
  | nil => simp [WithinAll]
  | cons item rest ih => simp [WithinAll, ih]

mutual

theorem Within.mono {groups more : Nat} (hle : groups ≤ more) :
    (tree : Tree) → tree.Within groups → tree.Within more
  | concat items, h => WithinAll.mono hle items h
  | alternation branches, h => WithinAll.mono hle branches h
  | group _ body, h => ⟨⟨h.1.1, Nat.le_trans h.1.2 hle⟩, Within.mono hle body h.2⟩
  | repetition _ _ _ body, h => Within.mono hle body h
  | look _ _ body, h => Within.mono hle body h
  | backref _, h => ⟨h.1, Nat.le_trans h.2 hle⟩
  | atomic body, h => Within.mono hle body h
  | groupSet _, h => ⟨h.1, Nat.le_trans h.2 hle⟩
  | cond condition yes no, h =>
    ⟨Within.mono hle condition h.1, Within.mono hle yes h.2.1, Within.mono hle no h.2.2⟩
  | empty, _ | any _, _ | literal _ _, _ | set _ _, _ | anchor _, _ | keepOut, _
  | searchStart, _ => trivial

theorem WithinAll.mono {groups more : Nat} (hle : groups ≤ more) :
    (items : List Tree) → WithinAll groups items → WithinAll more items
  | [], _ => trivial
  | item :: rest, h => ⟨Within.mono hle item h.1, WithinAll.mono hle rest h.2⟩

end

theorem shift_ofItems (base : Nat) (items : List Tree) :
    (ofItems items).shift base = ofItems (items.map (shift base)) := by
  cases items with
  | nil => rfl
  | cons item rest =>
    cases rest with
    | nil => rfl
    | cons second rest =>
      show concat (shiftAll base (item :: second :: rest)) = _
      rw [shiftAll_eq_map]
      rfl

theorem within_ofItems {groups : Nat} {items : List Tree} (h : WithinAll groups items) :
    (ofItems items).Within groups := by
  cases items with
  | nil => trivial
  | cons item rest =>
    cases rest with
    | nil => exact h.1
    | cons second rest => exact h

theorem isEmpty_shift (base : Nat) (tree : Tree) : (tree.shift base).isEmpty = tree.isEmpty := by
  cases tree <;> rfl

theorem isRepeatable_shift (base : Nat) (tree : Tree) :
    (tree.shift base).isRepeatable = tree.isRepeatable := by
  cases tree <;> rfl

/-! ### Measures -/

section Measures

variable (base : Nat)

mutual

theorem minSize_shift : (tree : Tree) → (tree.shift base).minSize = tree.minSize
  | concat items => sumSize_shiftAll items
  | alternation branches => leastSize_shiftAll branches
  | group _ body => minSize_shift body
  | repetition min _ _ body => congrArg (· * min) (minSize_shift body)
  | atomic body => minSize_shift body
  | cond condition yes no => by
    rw [shift, minSize, minSize, minSize_shift condition, minSize_shift yes, minSize_shift no]
  | empty | any _ | literal _ _ | set _ _ | anchor _ | look _ _ _ | backref _ | keepOut
  | searchStart | groupSet _ => rfl

theorem sumSize_shiftAll : (items : List Tree) → sumSize (shiftAll base items) = sumSize items
  | [] => rfl
  | item :: rest => by rw [shiftAll, sumSize, sumSize, minSize_shift item, sumSize_shiftAll rest]

theorem leastSize_shiftAll :
    (branches : List Tree) → leastSize (shiftAll base branches) = leastSize branches
  | [] => rfl
  | [branch] => minSize_shift branch
  | first :: second :: rest => by
    show min _ (leastSize (shiftAll base (second :: rest))) = min _ (leastSize (second :: rest))
    rw [minSize_shift first, leastSize_shiftAll (second :: rest)]

end

theorem sameSize_shiftAll (branches : List Tree) :
    sameSize (shiftAll base branches) = sameSize branches := by
  rw [shiftAll_eq_map]
  fun_induction sameSize branches with
  | case1 => rfl
  | case2 => rfl
  | case3 first second rest ih =>
    rw [List.map_cons, List.map_cons, sameSize, minSize_shift, minSize_shift, ← List.map_cons, ih]

mutual

theorem isConstSize_shift : (tree : Tree) → (tree.shift base).isConstSize = tree.isConstSize
  | concat items => allConstSize_shiftAll items
  | alternation branches => by
    rw [shift, isConstSize, isConstSize, allConstSize_shiftAll branches,
      sameSize_shiftAll base branches]
  | group _ body => isConstSize_shift body
  | repetition min max _ body => congrArg (· && max == some min) (isConstSize_shift body)
  | atomic body => isConstSize_shift body
  | cond condition yes no => by
    rw [shift, isConstSize, isConstSize, isConstSize_shift condition, isConstSize_shift yes,
      isConstSize_shift no, minSize_shift, minSize_shift, minSize_shift]
  | empty | any _ | literal _ _ | set _ _ | anchor _ | look _ _ _ | backref _ | keepOut
  | searchStart | groupSet _ => rfl

theorem allConstSize_shiftAll :
    (items : List Tree) → allConstSize (shiftAll base items) = allConstSize items
  | [] => rfl
  | item :: rest => by
    rw [shiftAll, allConstSize, allConstSize, isConstSize_shift item, allConstSize_shiftAll rest]

end

mutual

theorem weight_shift : (tree : Tree) → (tree.shift base).weight = tree.weight
  | concat items => weightAll_shiftAll items
  | alternation branches => congrArg (· + 2 * stateWeight) (weightAll_shiftAll branches)
  | group _ body => congrArg (· + 2 * stateWeight) (weight_shift body)
  | repetition min max _ body => congrArg (repetitionWeight min max) (weight_shift body)
  | empty | any _ | literal _ _ | set _ _ | anchor _ | look _ _ _ | backref _ | keepOut
  | searchStart | groupSet _ | atomic _ | cond _ _ _ => rfl

theorem weightAll_shiftAll : (items : List Tree) → weightAll (shiftAll base items) = weightAll items
  | [] => rfl
  | item :: rest => by
    rw [shiftAll, weightAll, weightAll, weight_shift item, weightAll_shiftAll rest]

end

mutual

theorem groups_shift : (tree : Tree) → (tree.shift base).groups = tree.groups.map (base + ·)
  | concat items => groupsAll_shiftAll items
  | alternation branches => groupsAll_shiftAll branches
  | group index body => congrArg ((base + index) :: ·) (groups_shift body)
  | repetition _ _ _ body => groups_shift body
  | look _ _ body => groups_shift body
  | atomic body => groups_shift body
  | cond condition yes no => by
    rw [shift, groups, groups, groups_shift condition, groups_shift yes, groups_shift no,
      List.map_append, List.map_append]
  | empty | any _ | literal _ _ | set _ _ | anchor _ | backref _ | keepOut
  | searchStart | groupSet _ => rfl

theorem groupsAll_shiftAll :
    (items : List Tree) → groupsAll (shiftAll base items) = (groupsAll items).map (base + ·)
  | [] => rfl
  | item :: rest => by
    rw [shiftAll, groupsAll, groupsAll, groups_shift item, groupsAll_shiftAll rest,
      List.map_append]

end

theorem all_isSingle_shiftAll (items : List Tree) :
    (shiftAll base items).all isSingle = items.all isSingle := by
  have hsingle : ∀ tree : Tree, (tree.shift base).isSingle = tree.isSingle := fun tree => by
    cases tree <;> rfl
  rw [shiftAll_eq_map, List.all_map]
  exact congrArg items.all (funext hsingle)

end Measures

mutual

/-- The groups of a pattern are among those that it knows. -/
theorem mem_groups_of_within {groups index : Nat} :
    (tree : Tree) → tree.Within groups → index ∈ tree.groups → 1 ≤ index ∧ index ≤ groups
  | concat items, h, hmem => mem_groupsAll_of_within items h hmem
  | alternation branches, h, hmem => mem_groupsAll_of_within branches h hmem
  | group _ body, h, hmem => by
    rcases List.mem_cons.mp hmem with rfl | hmem
    · exact h.1
    · exact mem_groups_of_within body h.2 hmem
  | repetition _ _ _ body, h, hmem => mem_groups_of_within body h hmem
  | look _ _ body, h, hmem => mem_groups_of_within body h hmem
  | atomic body, h, hmem => mem_groups_of_within body h hmem
  | cond condition yes no, h, hmem => by
    rw [Tree.groups, List.mem_append, List.mem_append] at hmem
    rcases hmem with (hmem | hmem) | hmem
    · exact mem_groups_of_within condition h.1 hmem
    · exact mem_groups_of_within yes h.2.1 hmem
    · exact mem_groups_of_within no h.2.2 hmem
  | empty, _, hmem | any _, _, hmem | literal _ _, _, hmem | set _ _, _, hmem
  | anchor _, _, hmem | backref _, _, hmem | keepOut, _, hmem | searchStart, _, hmem
  | groupSet _, _, hmem => absurd hmem List.not_mem_nil

theorem mem_groupsAll_of_within {groups index : Nat} :
    (items : List Tree) → WithinAll groups items → index ∈ groupsAll items →
      1 ≤ index ∧ index ≤ groups
  | [], _, hmem => absurd hmem List.not_mem_nil
  | item :: rest, h, hmem => by
    rcases List.mem_append.mp hmem with hmem | hmem
    · exact mem_groups_of_within item h.1 hmem
    · exact mem_groupsAll_of_within rest h.2 hmem

end

/-! ### Regular expressions -/

/-- A node is found in one case just if its shifted copy is found in the other. -/
structure Shifts (base groups : Nat) (found later : Option Node) : Prop where
  later_eq : later = found.map (Node.shift base)
  within : ∀ node ∈ found, node.Within groups

/-- `Shifts` for several nodes. -/
structure ShiftsAll (base groups : Nat) (found later : Option (List Node)) : Prop where
  later_eq : later = found.map (List.map (Node.shift base))
  within : ∀ nodes ∈ found, ∀ node ∈ nodes, node.Within groups

section Shifts

variable {base groups : Nat} {found later : Option Node}

theorem Shifts.none : Shifts base groups none none := ⟨rfl, fun _ h => by cases h⟩

theorem Shifts.some {node shifted : Node} (hshift : node.shift base = shifted)
    (hwithin : node.Within groups) : Shifts base groups (some node) (some shifted) :=
  ⟨congrArg Option.some hshift.symm, fun _ h => by cases h; exact hwithin⟩

theorem Shifts.map (h : Shifts base groups found later) {f f' : Node → Node}
    (hshift : ∀ node, (f node).shift base = f' (node.shift base))
    (hwithin : ∀ node, node.Within groups → (f node).Within groups) :
    Shifts base groups (found.map f) (later.map f') := by
  cases h.later_eq
  cases found with
  | none => exact .none
  | some node => exact .some (hshift node) (hwithin node (h.within node rfl))

theorem Shifts.bind (h : Shifts base groups found later) {f f' : Node → Option Node}
    (hnext : ∀ node, node.Within groups → Shifts base groups (f node) (f' (node.shift base))) :
    Shifts base groups (found.bind f) (later.bind f') := by
  cases h.later_eq
  cases found with
  | none => exact .none
  | some node => exact hnext node (h.within node rfl)

theorem ShiftsAll.nil : ShiftsAll base groups (some []) (some []) :=
  ⟨rfl, fun _ h => by cases h; exact fun _ hnode => absurd hnode List.not_mem_nil⟩

theorem Shifts.cons {nodes shifted : Option (List Node)} (h : Shifts base groups found later)
    (hrest : ShiftsAll base groups nodes shifted) :
    ShiftsAll base groups (do return (← found) :: (← nodes))
      (do return (← later) :: (← shifted)) := by
  cases h.later_eq
  cases hrest.later_eq
  cases found with
  | none => exact ⟨rfl, fun _ h => by cases h⟩
  | some node =>
    cases nodes with
    | none => exact ⟨rfl, fun _ h => by cases h⟩
    | some nodes =>
      refine ⟨rfl, fun _ heq => ?_⟩
      cases heq
      exact List.forall_mem_cons.mpr ⟨h.within node rfl, hrest.within nodes rfl⟩

/-- Nodes that are put together. -/
theorem ShiftsAll.map {nodes shifted : Option (List Node)} (h : ShiftsAll base groups nodes shifted)
    {f f' : List Node → Node}
    (hshift : ∀ nodes, (f nodes).shift base = f' (nodes.map (Node.shift base)))
    (hwithin : ∀ nodes, (∀ node ∈ nodes, node.Within groups) → (f nodes).Within groups) :
    Shifts base groups (nodes.map f) (shifted.map f') := by
  cases h.later_eq
  cases nodes with
  | none => exact .none
  | some nodes => exact .some (hshift nodes) (hwithin nodes (h.within nodes rfl))

theorem ShiftsAll.bind {nodes shifted : Option (List Node)}
    (h : ShiftsAll base groups nodes shifted)
    {f f' : List Node → Option Node}
    (hnext : ∀ nodes, (∀ node ∈ nodes, node.Within groups) →
      Shifts base groups (f nodes) (f' (nodes.map (Node.shift base)))) :
    Shifts base groups (nodes.bind f) (shifted.bind f') := by
  cases h.later_eq
  cases nodes with
  | none => exact .none
  | some nodes => exact hnext nodes (h.within nodes rfl)

theorem Shifts.single (h : Shifts base groups found later) :
    ShiftsAll base groups (found.map ([·])) (later.map ([·])) := by
  cases h.later_eq
  cases found with
  | none => exact ⟨rfl, fun _ h => by cases h⟩
  | some node =>
    refine ⟨rfl, fun _ heq => ?_⟩
    cases heq
    exact List.forall_mem_singleton.mpr (h.within node rfl)

end Shifts

section Regular

variable (base : Nat) {groups : Nat}

mutual

/-- The regular expression for a shifted pattern is shifted. -/
theorem shifts_regular : (tree : Tree) → tree.Within groups →
    Shifts base groups tree.regular? (tree.shift base).regular?
  | empty, _ | any _, _ | literal _ _, _ | anchor _, _ => .some rfl trivial
  | set body ignoreCase, _ => by
    show Shifts base groups ((body.meaning? ⟨ignoreCase, true⟩).map .char)
      ((body.meaning? ⟨ignoreCase, true⟩).map .char)
    cases body.meaning? ⟨ignoreCase, true⟩ with
    | none => exact .none
    | some set => exact .some rfl trivial
  | concat items, h => (shifts_regularAll items h).map (Node.shift_seqAll base) Node.within_seqAll
  | alternation branches, h =>
    (shifts_regularAll branches h).map (Node.shift_altAll base) Node.within_altAll
  | group _ body, h =>
    (shifts_regular body h.2).map (fun _ => rfl) fun _ hnode => ⟨h.1, hnode⟩
  | repetition min max greedy body, h => by
    refine (shifts_regular body h).bind fun node hnode => ?_
    rw [Node.consumesNothing_shift]
    split
    · exact .none
    · split
      · exact .some (Node.shift_repeated ..) (Node.within_repeated hnode)
      · exact .some (Node.shift_repeated ..) (Node.within_repeated hnode)
  | look _ _ _, _ | backref _, _ | atomic _, _ | keepOut, _ | searchStart, _ | groupSet _, _
  | cond _ _ _, _ => .none

theorem shifts_regularAll : (items : List Tree) → WithinAll groups items →
    ShiftsAll base groups (regularAll? items) (regularAll? (shiftAll base items))
  | [], _ => .nil
  | item :: rest, h => (shifts_regular item h.1).cons (shifts_regularAll rest h.2)

end

/-- What is matched in one go. -/
theorem shifts_inOneGo {items : List Tree} (h : WithinAll groups items) :
    Shifts base groups (inOneGo? items) (inOneGo? (shiftAll base items)) := by
  rw [inOneGo_eq, inOneGo_eq, weightAll_shiftAll, all_isSingle_shiftAll, groupsAll_shiftAll]
  split
  · exact .none
  · refine (shifts_regularAll base items h).map (fun nodes => ?_) fun nodes hnodes => ?_
    · rw [← Node.shift_seqAll]
      split
      · rfl
      · -- Without groups, nothing starts afresh, and nothing is to be shifted.
        cases hlist : groupsAll items with
        | nil => rfl
        | cons first others =>
          rw [Node.shift, if_pos (by simp)]
          simp [Nat.add_assoc]
    · have hwithin := Node.within_seqAll nodes hnodes
      split
      · exact hwithin
      · refine ⟨fun hlt => ?_, hwithin⟩
        cases hlist : groupsAll items with
        | nil =>
          rw [hlist] at hlt
          exact absurd hlt (Nat.lt_irrefl _)
        | cons first others =>
          exact (mem_groupsAll_of_within items h (by rw [hlist]; exact List.mem_cons_self)).1

end Regular

/-! ### Plans -/

/-- The same groups are referred to, after all have been numbered `base` later. -/
def TargetsAlike (base groups : Nat) (targets later : List Nat) : Prop :=
  ∀ index, 1 ≤ index → index ≤ groups → later.contains (base + index) = targets.contains index

section Plans

variable {base groups : Nat} {targets later : List Nat}

mutual

theorem isHard_shift (halike : TargetsAlike base groups targets later) :
    (tree : Tree) → tree.Within groups → (tree.shift base).isHard later = tree.isHard targets
  | concat items, h => anyHard_shiftAll halike items h
  | alternation branches, h => anyHard_shiftAll halike branches h
  | group index body, h => by
    rw [shift, isHard, isHard, halike index h.1.1 h.1.2, isHard_shift halike body h.2]
  | repetition _ _ _ body, h => isHard_shift halike body h
  | empty, _ | any _, _ | literal _ _, _ | set _ _, _ | anchor _, _ | look _ _ _, _ | backref _, _
  | atomic _, _ | keepOut, _ | searchStart, _ | groupSet _, _ | cond _ _ _, _ => rfl

theorem anyHard_shiftAll (halike : TargetsAlike base groups targets later) :
    (items : List Tree) → WithinAll groups items →
      anyHard later (shiftAll base items) = anyHard targets items
  | [], _ => rfl
  | item :: rest, h => by
    rw [shiftAll, anyHard, anyHard, isHard_shift halike item h.1, anyHard_shiftAll halike rest h.2]

end

/-- As many trees pass a test that does not depend on numbers. -/
theorem length_takeWhile_shift {items : List Tree} {test test' : Tree → Bool}
    (h : ∀ item ∈ items, test' (item.shift base) = test item) :
    ((items.map (shift base)).takeWhile test').length = (items.takeWhile test).length := by
  induction items with
  | nil => rfl
  | cons item rest ih =>
    obtain ⟨hitem, hrest⟩ := List.forall_mem_cons.mp h
    rw [List.map_cons, List.takeWhile_cons, List.takeWhile_cons, hitem]
    split
    · exact congrArg (· + 1) (ih hrest)
    · rfl

theorem isEasyConst_shift (halike : TargetsAlike base groups targets later)
    {item : Tree} (h : item.Within groups) :
    isEasyConst later (item.shift base) = isEasyConst targets item := by
  rw [isEasyConst, isEasyConst, isConstSize_shift, isHard_shift halike item h]

theorem easyStart_shift (halike : TargetsAlike base groups targets later)
    {items : List Tree} (h : ∀ item ∈ items, item.Within groups) :
    easyStart later (items.map (shift base)) = easyStart targets items :=
  length_takeWhile_shift fun item hitem => isEasyConst_shift halike (h item hitem)

theorem easyEnd_shift (halike : TargetsAlike base groups targets later)
    {items : List Tree} (h : ∀ item ∈ items, item.Within groups) (hard : Bool) :
    easyEnd later hard (items.map (shift base)) = easyEnd targets hard items := by
  have hmem : ∀ item ∈ (items.drop (easyStart targets items)).reverse, item.Within groups :=
    fun item hitem => h item (List.mem_of_mem_drop (List.mem_reverse.mp hitem))
  unfold easyEnd
  simp only [easyStart_shift halike h, ← List.map_drop, ← List.map_reverse]
  split
  · exact length_takeWhile_shift fun item hitem => isEasyConst_shift halike (hmem item hitem)
  · exact length_takeWhile_shift fun item hitem => by rw [isHard_shift halike item (hmem item hitem)]

/-- The end of a row that is matched in one go. -/
theorem shifts_endNodes {items : List Tree} (h : ∀ item ∈ items, item.Within groups) :
    ShiftsAll base groups (endNodes? items) (endNodes? (items.map (shift base))) := by
  cases items with
  | nil => exact .nil
  | cons item rest =>
    have hgo := shifts_inOneGo base (withinAll_iff.mpr h)
    rw [shiftAll_eq_map] at hgo
    exact hgo.single

theorem shifts_aroundRow (halike : TargetsAlike base groups targets later)
    {items : List Tree} (h : ∀ item ∈ items, item.Within groups) (hard : Bool)
    {middle : List Node} (hmiddle : ∀ node ∈ middle, node.Within groups) :
    Shifts base groups (aroundRow? targets hard items middle)
      (aroundRow? later hard (items.map (shift base)) (middle.map (Node.shift base))) := by
  rw [aroundRow_eq, aroundRow_eq, easyStart_shift halike h, easyEnd_shift halike h, List.length_map,
    ← List.map_take, ← List.map_drop]
  refine (shifts_endNodes fun item hitem => h item (List.mem_of_mem_take hitem)).bind
    fun first hfirst => ?_
  refine (shifts_endNodes fun item hitem => h item (List.mem_of_mem_drop hitem)).map (f := _)
    (fun last => ?_) fun last hlast => ?_
  · rw [Node.shift_seqAll, List.map_append, List.map_append]
  · refine Node.within_seqAll _ fun node hnode => ?_
    rcases List.mem_append.mp hnode with hnode | hnode
    · rcases List.mem_append.mp hnode with hnode | hnode
      · exact hfirst node hnode
      · exact hmiddle node hnode
    · exact hlast node hnode

theorem shift_repeatedHard (base min : Nat) (max : Option Nat) (greedy : Bool) (body : Node) :
    (repeatedHard min max greedy body).shift base
      = repeatedHard min max greedy (body.shift base) := by
  unfold repeatedHard
  split
  · split <;> rfl
  · split
    · rfl
    · split <;> rfl

theorem within_repeatedHard {min : Nat} {max : Option Nat} {greedy : Bool} {body : Node}
    (h : body.Within groups) : (repeatedHard min max greedy body).Within groups := by
  unfold repeatedHard
  split
  · split
    · exact h
    · exact ⟨h, h⟩
  · split
    · exact h
    · split
      · exact h
      · exact ⟨h, h⟩

theorem shift_lookAhead (base : Nat) (negated : Bool) (body : Node) :
    (lookAhead negated body).shift base = lookAhead negated (body.shift base) := by
  cases negated <;> rfl

theorem within_lookAhead (negated : Bool) {body : Node} (h : body.Within groups) :
    (lookAhead negated body).Within groups := by
  cases negated <;> exact h

theorem shift_lookBehind (base : Nat) (negated : Bool) (size : Nat) (body : Node) :
    (lookBehind negated size body).shift base = lookBehind negated size (body.shift base) := by
  cases negated <;> rfl

theorem within_lookBehind (negated : Bool) (size : Nat) {body : Node} (h : body.Within groups) :
    (lookBehind negated size body).Within groups := by
  cases negated <;> exact h

/-- A shifted pattern is matched as the pattern is. -/
def PlansShift (base groups : Nat) (targets later : List Nat) (tree : Tree) : Prop :=
  ∀ hard, Shifts base groups (tree.plan? targets hard) ((tree.shift base).plan? later hard)

theorem shifts_planAll {items : List Tree}
    (h : ∀ item ∈ items, PlansShift base groups targets later item) (hard : Bool) :
    ShiftsAll base groups (planAll? targets hard items)
      (planAll? later hard (items.map (shift base))) := by
  induction items with
  | nil => exact .nil
  | cons item rest ih =>
    obtain ⟨hitem, hrest⟩ := List.forall_mem_cons.mp h
    exact (hitem hard).cons (ih hrest)

theorem shifts_planBehind {branches : List Tree}
    (h : ∀ branch ∈ branches, PlansShift base groups targets later branch) (negated : Bool) :
    ShiftsAll base groups (planBehind? targets negated branches)
      (planBehind? later negated (branches.map (shift base))) := by
  induction branches with
  | nil => exact .nil
  | cons branch rest ih =>
    obtain ⟨hbranch, hrest⟩ := List.forall_mem_cons.mp h
    rw [List.map_cons, planBehind_cons, planBehind_cons, isConstSize_shift, minSize_shift]
    split
    · have hlook := (hbranch false).map (shift_lookBehind base negated branch.minSize)
        fun node => within_lookBehind negated branch.minSize
      have hboth := hlook.cons (ih hrest)
      simpa [Option.map_eq_bind, Function.comp_def, Option.bind_assoc] using hboth
    · exact ⟨rfl, fun _ h => by cases h⟩

/-- A look behind, where its body is matched as it should be. -/
theorem plansShift_lookBehind {negated : Bool} {body : Tree}
    (h : PlansShift base groups targets later body)
    (hbranches : ∀ branches, body = alternation branches →
      ∀ branch ∈ branches, PlansShift base groups targets later branch) :
    PlansShift base groups targets later (look true negated body) := by
  intro hard
  have hconst : body.isConstSize = true → Shifts base groups
      ((body.plan? targets false).map (lookBehind negated body.minSize))
      (((body.shift base).plan? later false).map (lookBehind negated (body.shift base).minSize)) := by
    intro _
    rw [minSize_shift]
    exact (h false).map (shift_lookBehind base negated body.minSize)
      fun node => within_lookBehind negated body.minSize
  show Shifts base groups ((look true negated body).plan? targets hard)
    ((look true negated (body.shift base)).plan? later hard)
  by_cases hshape : ∃ branches, body = alternation branches
  · obtain ⟨branches, rfl⟩ := hshape
    cases hsize : (alternation branches).isConstSize with
    | true =>
      have hsize' : (alternation (shiftAll base branches)).isConstSize = true :=
        (isConstSize_shift base (alternation branches)).trans hsize
      rw [plan_behind_const hard negated hsize, shift, plan_behind_const hard negated hsize']
      exact hconst hsize
    | false =>
      have hsize' : (alternation (shiftAll base branches)).isConstSize = false :=
        (isConstSize_shift base (alternation branches)).trans hsize
      rw [shift, plan?, plan?, if_neg (by simp [hsize]), if_neg (by simp [hsize']),
        shiftAll_eq_map]
      refine (shifts_planBehind (hbranches branches rfl) negated).map (fun nodes => ?_)
        fun nodes hnodes => ?_
      · split
        · exact Node.shift_seqAll base nodes
        · exact Node.shift_altAll base nodes
      · split
        · exact Node.within_seqAll nodes hnodes
        · exact Node.within_altAll nodes hnodes
  · have hbody : ∀ branches, body ≠ alternation branches :=
      fun branches heq => hshape ⟨branches, heq⟩
    have hbody' : ∀ branches, body.shift base ≠ alternation branches := by
      intro branches heq
      cases body <;> first | exact absurd rfl (hbody _) | cases heq
    rw [plan_behind hard negated hbody, plan_behind hard negated hbody', isConstSize_shift]
    split
    · exact hconst ‹_›
    · exact .none

mutual

/-- A shifted pattern is matched as the pattern is, with shifted groups. -/
theorem plansShift (halike : TargetsAlike base groups targets later) :
    (tree : Tree) → tree.Within groups →
    PlansShift base groups targets later tree
  | empty, _, _ | anchor _, _, _ | keepOut, _, _ | searchStart, _, _ => .some rfl trivial
  | any newline, h, _ => shifts_regular base (any newline) h
  | literal c ignoreCase, h, _ => shifts_regular base (literal c ignoreCase) h
  | set body ignoreCase, h, _ => shifts_regular base (set body ignoreCase) h
  | concat items, h, hard => by
    have hitems := withinAll_iff.mp h
    show Shifts base groups _ ((concat (shiftAll base items)).plan? later hard)
    rw [plan?, plan?, anyHard_shiftAll halike items h]
    split
    · have hall : WithinAll groups [concat items] := ⟨h, trivial⟩
      exact shifts_inOneGo base hall
    · rw [shiftAll_eq_map, easyStart_shift halike hitems, easyEnd_shift halike hitems,
        List.length_map]
      simp only [planRow_eq, ← List.map_drop, ← List.map_take]
      refine (shifts_planAll (fun item hitem => ?_) true).bind fun middle hmiddle =>
        shifts_aroundRow halike hitems hard hmiddle
      exact plansShift_all halike items h item (List.mem_of_mem_drop (List.mem_of_mem_take hitem))
  | alternation branches, h, hard => by
    show Shifts base groups _ ((alternation (shiftAll base branches)).plan? later hard)
    rw [plan?, plan?, anyHard_shiftAll halike branches h]
    split
    · have hall : WithinAll groups [alternation branches] := ⟨h, trivial⟩
      exact shifts_inOneGo base hall
    · rw [shiftAll_eq_map]
      exact (shifts_planAll (plansShift_all halike branches h) hard).map (Node.shift_altAll base)
        Node.within_altAll
  | group index body, h, hard => by
    show Shifts base groups _ ((group (base + index) (body.shift base)).plan? later hard)
    have hhard := isHard_shift halike (group index body) h
    rw [shift] at hhard
    rw [plan?, plan?, hhard]
    split
    · have hall : WithinAll groups [group index body] := ⟨h, trivial⟩
      exact shifts_inOneGo base hall
    · exact (plansShift halike body h.2 hard).map (fun _ => rfl) fun _ hnode => ⟨h.1, hnode⟩
  | repetition min max greedy body, h, hard => by
    show Shifts base groups _ ((repetition min max greedy (body.shift base)).plan? later hard)
    rw [plan?, plan?, isHard_shift halike body h]
    split
    · have hall : WithinAll groups [repetition min max greedy body] := ⟨h, trivial⟩
      exact shifts_inOneGo base hall
    · split
      · exact (plansShift halike body h hard).map (fun _ => rfl) fun _ hnode => hnode
      · exact (plansShift halike body h _).map (shift_repeatedHard base min max greedy)
          fun _ => within_repeatedHard
  | look false negated body, h, _ =>
    (plansShift halike body h false).map (shift_lookAhead base negated) fun _ =>
      within_lookAhead negated
  | look true negated body, h, hard =>
    plansShift_lookBehind (plansShift halike body h) (match body, h with
      | alternation branches, h => fun _ heq => by
        cases heq
        exact plansShift_all halike branches h
      | empty, _ | any _, _ | literal _ _, _ | set _ _, _ | anchor _, _ | concat _, _
      | group _ _, _ | repetition _ _ _ _, _ | look _ _ _, _ | backref _, _ | atomic _, _
      | keepOut, _ | searchStart, _ | groupSet _, _ | cond _ _ _, _ =>
        fun _ heq => nomatch heq) hard
  | backref _, h, _ | groupSet _, h, _ => .some rfl h
  | atomic body, h, _ => (plansShift halike body h false).map (fun _ => rfl) fun _ hnode => hnode
  | cond condition yes no, h, hard => by
    refine (plansShift halike condition h.1 hard).bind fun conditionNode hcondition => ?_
    refine (plansShift halike yes h.2.1 hard).bind fun yesNode hyes => ?_
    refine (plansShift halike no h.2.2 hard).bind fun noNode hno => ?_
    exact .some rfl ⟨hcondition, hyes, hno⟩

theorem plansShift_all (halike : TargetsAlike base groups targets later) :
    (items : List Tree) → WithinAll groups items →
    ∀ item ∈ items, PlansShift base groups targets later item
  | [], _ => fun _ hitem => absurd hitem List.not_mem_nil
  | item :: rest, h =>
    List.forall_mem_cons.mpr ⟨plansShift halike item h.1, plansShift_all halike rest h.2⟩

end

end Plans

end Tree

end Highlighter.Regex.Extended
