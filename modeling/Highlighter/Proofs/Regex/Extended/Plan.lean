import Highlighter.Proofs.Regex.Extended.Easy

/-!
# Plans of the extended dialect

The plan of a tree finds the ways of the tree (`agree_plan`). A slot
agrees with a mark if it belongs to a group that is referred to; other
groups are never asked for, and what is matched in one go may forget
them (`spares_fresh`). Inside look-around, only what is found and
what groups have matched counts, not where it ends: there the ways of
easy trees are cut down to the first one.

The induction is on the tree, and there is a lemma for each way in
which it can be matched: rows that are easy at both ends, branches,
repetitions, and the four kinds of look-around.
-/

set_option autoImplicit false

namespace Highlighter.Regex.Extended

open Pattern

/-! ### Slots and marks -/

/-- The slots hold what groups have matched, for the groups that are
referred to, and where the match has started. -/
structure Kept (targets : List Nat) (start : Nat) (slots : Slots) (marks : Marks) : Prop where
  whole : slots[0]? = some (some start)
  began : ∀ group ∈ targets, slots[2 * group]? = some (marks.began group)
  ended : ∀ group ∈ targets, slots[2 * group + 1]? = some (marks.ended group)

namespace Kept

variable {targets : List Nat} {start : Nat} {slots : Slots} {marks : Marks}

theorem begin (h : Kept targets start slots marks) {index : Nat} (hindex : index ≠ 0) (pos : Nat) :
    Kept targets start (slots.setIfInBounds (2 * index) (some pos)) (marks.begin index pos) where
  whole := by
    rw [Array.getElem?_setIfInBounds_ne (by omega)]
    exact h.whole
  began group hgroup := by
    by_cases hsame : group = index
    · subst hsame
      have hsize := (Array.getElem?_eq_some_iff.mp (h.began group hgroup)).1
      rw [Array.getElem?_setIfInBounds_self_of_lt hsize]
      simp [Marks.begin]
    · rw [Array.getElem?_setIfInBounds_ne (by omega), h.began group hgroup]
      simp [Marks.begin, hsame]
  ended group hgroup := by
    rw [Array.getElem?_setIfInBounds_ne (by omega)]
    exact h.ended group hgroup

theorem finish (h : Kept targets start slots marks) (index pos : Nat) :
    Kept targets start (slots.setIfInBounds (2 * index + 1) (some pos))
      (marks.finish index pos) where
  whole := by
    rw [Array.getElem?_setIfInBounds_ne (by omega)]
    exact h.whole
  began group hgroup := by
    rw [Array.getElem?_setIfInBounds_ne (by omega)]
    exact h.began group hgroup
  ended group hgroup := by
    by_cases hsame : group = index
    · subst hsame
      have hsize := (Array.getElem?_eq_some_iff.mp (h.ended group hgroup)).1
      rw [Array.getElem?_setIfInBounds_self_of_lt hsize]
      simp [Marks.finish]
    · rw [Array.getElem?_setIfInBounds_ne (by omega), h.ended group hgroup]
      simp [Marks.finish, hsame]

/-- What happens to groups that nothing refers to does not count. -/
theorem spared (h : Kept targets start slots marks) {groups : List Nat}
    (hgroups : ∀ group ∈ groups, group ≠ 0 ∧ group ∉ targets) {pos pos' : Nat}
    {next : Nat × Slots} {next' : Nat × Marks} (hslots : Spares groups (pos, slots) next)
    (hmarks : SparesMarks groups (pos', marks) next') : Kept targets start next.2 next'.2 := by
  have hother : ∀ group ∈ targets, group ∉ groups :=
    fun group hgroup hmem => (hgroups group hmem).2 hgroup
  have hslot : ∀ group ∈ targets, ∀ index, index / 2 = group → next.2[index]? = slots[index]? := by
    rintro group hgroup index rfl
    exact hslots index (hother _ hgroup)
  refine ⟨?_, fun group hgroup => ?_, fun group hgroup => ?_⟩
  · rw [hslots 0 fun hmem => (hgroups 0 hmem).1 rfl]
    exact h.whole
  · rw [hslot group hgroup (2 * group) (by omega), (hmarks group (hother group hgroup)).1]
    exact h.began group hgroup
  · rw [hslot group hgroup (2 * group + 1) (by omega), (hmarks group (hother group hgroup)).2]
    exact h.ended group hgroup

end Kept

/-- Places with the same groups, and at the same position where that
counts. -/
def Alike (targets : List Nat) (start : Nat) (exact : Bool) (place : Nat × Slots)
    (place' : Nat × Marks) : Prop :=
  (exact = true → place.1 = place'.1) ∧ Kept targets start place.2 place'.2

namespace Alike

variable {targets : List Nat} {start : Nat} {place : Nat × Slots} {place' : Nat × Marks}

theorem pos_eq (h : Alike targets start true place place') : place.1 = place'.1 := h.1 rfl

theorem weaken (h : Alike targets start true place place') (exact : Bool) :
    Alike targets start exact place place' :=
  ⟨fun _ => h.pos_eq, h.2⟩

theorem move {exact : Bool} (h : Alike targets start exact place place') (exact' : Bool)
    (pos : Nat) : Alike targets start exact' (pos, place.2) (pos, place'.2) :=
  ⟨fun _ => rfl, h.2⟩

/-- One character. -/
theorem one (h : Alike targets start true place place') (exact : Bool) (text : Array Char)
    (set : CharSet) :
    Agree (Alike targets start exact) (Ways.one text set place) (Ways.one text set place') := by
  refine Agree.one text set h.pos_eq ?_
  rw [h.pos_eq]
  exact h.move exact _

theorem check (h : Alike targets start true place place') (exact : Bool)
    (holds : Nat → Bool) :
    Agree (Alike targets start exact) (Ways.check (holds place.1) place)
      (Ways.check (holds place'.1) place') := by
  rw [h.pos_eq]
  exact Agree.check _ (h.weaken exact)

/-- What a group has matched, once more. -/
theorem again (h : Alike targets start true place place') (exact : Bool) (search : Search)
    {index : Nat} (hindex : index ∈ targets) :
    Agree (Alike targets start exact) ((Node.backref index).ways search place)
      (place'.2.again search.text index place'.1) := by
  obtain ⟨pos, slots⟩ := place
  obtain ⟨pos', marks⟩ := place'
  cases (show pos = pos' from h.pos_eq)
  unfold Node.ways Marks.again
  have hbegan : slots[2 * index]? = some (marks.began index) := h.2.began index hindex
  have hended : slots[2 * index + 1]? = some (marks.ended index) := h.2.ended index hindex
  rw [hbegan, hended, Option.join_some, Option.join_some]
  cases marks.began index with
  | none => exact Agree.nil
  | some first =>
    cases marks.ended index with
    | none => exact Agree.nil
    | some last =>
      by_cases hstands : standsAt search.text pos (search.text.extract first last).toList
      · simp only [hstands, if_true]
        exact Agree.single (h.move exact _)
      · simp only [hstands]
        exact Agree.nil

end Alike

variable {targets : List Nat} {start : Nat} {search : Search}

/-! ### In one go -/

theorem inOneGo_eq (items : List Tree) :
    Tree.inOneGo? items
      = if maxWeight < Tree.weightAll items then none
        else (Tree.regularAll? items).map fun nodes =>
          if items.all Tree.isSingle then .seqAll nodes
          else .once ((Tree.groupsAll items).headD 0)
            ((Tree.groupsAll items).headD 0 + (Tree.groupsAll items).length) (.seqAll nodes) := by
  unfold Tree.inOneGo?
  by_cases hweight : maxWeight < Tree.weightAll items
  · simp [hweight]
  · cases Tree.regularAll? items with
    | none => simp [hweight]
    | some nodes =>
      by_cases hsingle : items.all Tree.isSingle = true
      · simp [hweight, hsingle]
      · simp [hweight, hsingle]

/-- Groups are numbered without gaps. -/
def Consecutive (groups : List Nat) : Prop := ∃ first, groups = List.range' first groups.length

theorem Consecutive.ofAppend {first second : List Nat} (h : Consecutive (first ++ second)) :
    Consecutive first ∧ Consecutive second := by
  obtain ⟨start, h⟩ := h
  rw [List.length_append, ← List.range'_append_1] at h
  obtain ⟨hfirst, hsecond⟩ := List.append_inj h List.length_range'.symm
  exact ⟨⟨_, hfirst⟩, ⟨_, hsecond⟩⟩

theorem Consecutive.of_mem {items : List Tree} (h : Consecutive (Tree.groupsAll items)) :
    ∀ item ∈ items, Consecutive item.groups := by
  induction items with
  | nil => exact fun _ hitem => by cases hitem
  | cons item items ih =>
    exact List.forall_mem_cons.mpr ⟨h.ofAppend.1, ih h.ofAppend.2⟩

theorem Consecutive.single {tree : Tree} (h : Consecutive tree.groups) :
    Consecutive (Tree.groupsAll [tree]) := by
  rw [show Tree.groupsAll [tree] = tree.groups from List.append_nil _]
  exact h

/-- Groups that start afresh are the only ones that change. -/
theorem spares_fresh {groups : List Nat} (h : Consecutive groups) (pos : Nat) (slots : Slots) :
    Spares groups (pos, slots)
      (pos, slots.fresh (groups.headD 0) (groups.headD 0 + groups.length)) := by
  obtain ⟨first, h⟩ := h
  intro index hindex
  unfold Slots.fresh
  split
  · rename_i hlt
    have hhead : groups.headD 0 = first := by
      rw [h, ← Nat.succ_pred_eq_of_pos (show 0 < groups.length by omega), List.range'_succ]
      rfl
    rw [h, List.mem_range'_1] at hindex
    rw [hhead, Array.getElem?_mapIdx]
    have hother : (decide (2 * first ≤ index) && decide (index < 2 * (first + groups.length)))
        = false := by
      rw [Bool.and_eq_false_iff, decide_eq_false_iff_not, decide_eq_false_iff_not]
      omega
    simp only [hother, Bool.false_eq_true, if_false, Option.map_id']
  · rfl

/-- What is matched in one go is a regular expression, of which only
the first way may be taken. Its groups may start afresh. -/
theorem exists_oneGo {items : List Tree} {node : Node}
    (hitems : ∀ item ∈ items, Easy targets item) (hrun : Consecutive (Tree.groupsAll items))
    (h : Tree.inOneGo? items = some node) :
    ∃ body, StandsFor body (.concat items) ∧ ∀ (search : Search) (place : Nat × Slots),
      ∃ fresh, fresh.1 = place.1 ∧ Spares (Tree.groupsAll items) place fresh ∧
        (∀ next ∈ node.ways search place, next ∈ body.ways search fresh) ∧
          (node.ways search place = [] ↔ body.ways search fresh = []) := by
  rw [inOneGo_eq] at h
  split at h
  · cases h
  · obtain ⟨nodes, hnodes, rfl⟩ := Option.map_eq_some_iff.mp h
    refine ⟨.seqAll nodes, .row (forall_regularAll
      (fun item hitem node => (hitems item hitem).standsFor) hnodes), fun search place => ?_⟩
    by_cases hsingle : items.all Tree.isSingle = true
    · rw [if_pos hsingle]
      exact ⟨place, rfl, spares_refl _ place, fun next hnext => hnext, Iff.rfl⟩
    · rw [if_neg hsingle]
      obtain ⟨pos, slots⟩ := place
      refine ⟨(pos, slots.fresh _ _), rfl, spares_fresh hrun pos slots,
        fun next hnext => List.mem_of_mem_take hnext, ?_⟩
      exact List.take_eq_nil_iff.trans (or_iff_right (by omega))

/-- What is matched in one go finds a way where there is one. Where the
size is constant, it ends at the same position. -/
theorem agree_oneGo {exact : Bool} {items : List Tree} {node : Node}
    (hitems : ∀ item ∈ items, Easy targets item) (hrun : Consecutive (Tree.groupsAll items))
    (hsize : exact = true → ∀ (text : Array Char) (retry : Bool) (place : Nat × Marks),
      ∀ next ∈ Tree.waysRow text retry items place, next.1 = place.1 + Tree.sumSize items)
    (h : Tree.inOneGo? items = some node) {place : Nat × Slots} {place' : Nat × Marks}
    (hplace : Alike targets start true place place') :
    Agree (Alike targets start exact) (node.ways search place)
      (Tree.waysRow search.text true items place') := by
  have heasy := Easy.concat hitems
  obtain ⟨body, hbody, hways⟩ := exists_oneGo hitems hrun h
  obtain ⟨fresh, hpos, hfresh, hmem, hnil⟩ := hways search place
  have hagree := hbody.agree search fresh place' (hpos.trans hplace.pos_eq)
  refine Agree.of_forall (fun next hnext next' hnext' => ⟨fun hexact => ?_, ?_⟩) ?_
  · -- All ways of the row end at one position, and so do those of the body.
    have hends : ∀ next ∈ body.ways search fresh, next.1 = place'.1 + Tree.sumSize items := by
      refine (hagree.forall_iff fun x y hxy => ?_).mpr (hsize hexact search.text false place')
      rw [show x.1 = y.1 from hxy]
    rw [hends next (hmem next hnext), hsize hexact search.text true place' next' hnext']
  · have hslots := spares_trans _ _ _ _ hfresh (hbody.spares search fresh next (hmem next hnext))
    have hmarks := heasy.spares_ways search.text true place' next' hnext'
    exact hplace.2.spared heasy.of_mem_groups hslots hmarks
  · rw [hnil, hagree.eq_nil_iff]
    exact (heasy.eq_nil_iff search.text place').symm

/-! ### Rows and branches -/

/-- A node finds the ways of a tree. Where they end may not count. -/
def Planned (targets : List Nat) (exact : Bool) (node : Node) (tree : Tree) : Prop :=
  ∀ (start : Nat) (search : Search) (place : Nat × Slots) (place' : Nat × Marks),
    Alike targets start true place place' →
      Agree (Alike targets start exact) (node.ways search place)
        (tree.ways search.text true place')

theorem Planned.row {nodes : List Node} {items : List Tree}
    (h : List.Forall₂ (Planned targets true) nodes items) :
    Planned targets true (.seqAll nodes) (.concat items) := by
  intro start search
  induction h with
  | nil => exact fun place place' hplace => Agree.single hplace
  | cons hfirst _ ih =>
    intro place place' hplace
    rw [Node.ways_seqAll_cons]
    exact (hfirst start search place place' hplace).flatMap fun next next' hnext =>
      ih next next' hnext

theorem Planned.branches {exact : Bool} {nodes : List Node} {branches : List Tree}
    (h : List.Forall₂ (Planned targets exact) nodes branches) :
    Planned targets exact (.altAll nodes) (.alternation branches) := by
  intro start search
  induction h with
  | nil =>
    intro place place' _
    have hnone : (Node.altAll []).ways search place = [] := Node.ways_altAll_nil search place
    rw [hnone]
    exact Agree.nil
  | @cons node branch nodes branches hfirst hrest ih =>
    intro place place' hplace
    by_cases hne : nodes = []
    · subst hne
      cases hrest
      show Agree _ _ (branch.ways search.text true place' ++ [])
      rw [List.append_nil]
      exact hfirst start search place place' hplace
    · rw [Node.ways_altAll_cons search node hne]
      exact (hfirst start search place place' hplace).append (ih place place' hplace)

theorem forall_planAll {exact : Bool} {items : List Tree} {nodes : List Node}
    (h : ∀ item ∈ items, ∀ node, item.plan? targets exact = some node →
      Planned targets exact node item)
    (hnodes : Tree.planAll? targets exact items = some nodes) :
    List.Forall₂ (Planned targets exact) nodes items := by
  induction items generalizing nodes with
  | nil =>
    cases hnodes
    exact .nil
  | cons item items ih =>
    obtain ⟨node, hnode, hnodes⟩ := Option.bind_eq_some_iff.mp hnodes
    obtain ⟨rest, hrest, hnodes⟩ := Option.bind_eq_some_iff.mp hnodes
    cases hnodes
    exact .cons (h item List.mem_cons_self node hnode)
      (ih (fun other hother => h other (List.mem_cons_of_mem item hother)) hrest)

/-- The middle of a row is planned tree by tree. -/
theorem planRow_eq (targets : List Nat) (skip count : Nat) (items : List Tree) :
    Tree.planRow? targets skip count items
      = Tree.planAll? targets true ((items.drop skip).take count) := by
  induction items generalizing skip count with
  | nil => simp [Tree.planRow?, Tree.planAll?]
  | cons item items ih =>
    rw [Tree.planRow?]
    cases skip with
    | succ skip =>
      rw [if_pos (Nat.succ_ne_zero skip), ih]
      rfl
    | zero =>
      cases count with
      | zero => rfl
      | succ count =>
        rw [if_neg (by omega), if_neg (Nat.succ_ne_zero count), ih]
        rfl

/-- What a test takes from the end of a list passes the test. -/
theorem forall_mem_end {α : Type} (test : α → Bool) (xs : List α) :
    ∀ x ∈ xs.drop (xs.length - (xs.reverse.takeWhile test).length), test x = true := by
  intro x hx
  have hprefix : xs.reverse.take (xs.reverse.takeWhile test).length
      = xs.reverse.takeWhile test :=
    (List.prefix_iff_eq_take.mp (List.takeWhile_prefix test)).symm
  have hend : xs.drop (xs.length - (xs.reverse.takeWhile test).length)
      = (xs.reverse.takeWhile test).reverse := by
    rw [List.take_reverse] at hprefix
    exact List.reverse_eq_iff.mp hprefix
  rw [hend, List.mem_reverse] at hx
  exact List.all_eq_true.mp List.all_takeWhile x hx

/-! ### Rows that are easy at their ends -/

/-- A row in three parts: the easy ones first, and easy ones at last. -/
theorem row_parts (targets : List Nat) (exact : Bool) (items : List Tree) :
    ∃ first middle last, items = first ++ (middle ++ last) ∧
      first = items.take (Tree.easyStart targets items) ∧
      middle = (items.drop (Tree.easyStart targets items)).take
        (items.length - Tree.easyStart targets items - Tree.easyEnd targets exact items) ∧
      last = items.drop (items.length - Tree.easyEnd targets exact items) ∧
      (∀ item ∈ first, item.isConstSize = true ∧ item.isHard targets = false) ∧
      ∀ item ∈ last, (exact = true → item.isConstSize = true) ∧ item.isHard targets = false := by
  have hstart : Tree.easyStart targets items ≤ items.length := (List.takeWhile_prefix _).length_le
  have hfirst : items.take (Tree.easyStart targets items)
      = items.takeWhile (Tree.isEasyConst targets) :=
    (List.prefix_iff_eq_take.mp (List.takeWhile_prefix _)).symm
  have hend : Tree.easyEnd targets exact items
      ≤ (items.drop (Tree.easyStart targets items)).length := by
    unfold Tree.easyEnd
    split <;>
    · refine Nat.le_trans (List.takeWhile_prefix _).length_le ?_
      exact Nat.le_of_eq List.length_reverse
  rw [List.length_drop] at hend
  have hlast : items.drop (items.length - Tree.easyEnd targets exact items)
      = (items.drop (Tree.easyStart targets items)).drop
        ((items.drop (Tree.easyStart targets items)).length - Tree.easyEnd targets exact items) := by
    rw [List.drop_drop, List.length_drop]
    congr 1
    omega
  refine ⟨_, _, _, ?_, rfl, rfl, rfl, ?_, ?_⟩
  · rw [hlast, List.length_drop, List.take_append_drop, List.take_append_drop]
  · rw [hfirst]
    intro item hitem
    have htest := List.all_eq_true.mp List.all_takeWhile item hitem
    obtain ⟨hconst, hhard⟩ := Bool.and_eq_true_iff.mp htest
    exact ⟨hconst, by simpa using hhard⟩
  · rw [hlast]
    unfold Tree.easyEnd
    cases exact with
    | true =>
      intro item hitem
      have htest := forall_mem_end (Tree.isEasyConst targets) _ item hitem
      obtain ⟨hconst, hhard⟩ := Bool.and_eq_true_iff.mp htest
      exact ⟨fun _ => hconst, by simpa using hhard⟩
    | false =>
      intro item hitem
      have htest := forall_mem_end (fun tree => !tree.isHard targets) _ item hitem
      exact ⟨fun hexact => (nomatch hexact), by simpa using htest⟩

/-- The nodes of an end of a row. -/
def endNodes? (items : List Tree) : Option (List Node) :=
  if items.isEmpty then some [] else (Tree.inOneGo? items).map ([·])

theorem aroundRow_eq (targets : List Nat) (exact : Bool) (items : List Tree)
    (middle : List Node) :
    Tree.aroundRow? targets exact items middle
      = (endNodes? (items.take (Tree.easyStart targets items))).bind fun first =>
          (endNodes? (items.drop (items.length - Tree.easyEnd targets exact items))).map fun last =>
            .seqAll (first ++ middle ++ last) := by
  have hend : ∀ (items : List Tree) (next : List Node → Option Node),
      (if items.isEmpty then (some []).bind next
        else ((Tree.inOneGo? items).map ([·])).bind next) = (endNodes? items).bind next := by
    intro items next
    unfold endNodes?
    split <;> rfl
  unfold Tree.aroundRow?
  simp only [bind, hend]
  refine congrArg _ (funext fun first => ?_)
  exact Option.map_eq_bind.symm

/-- An end of a row is matched in one go, if there is one. -/
theorem agree_end {exact : Bool} {items : List Tree} {nodes : List Node}
    (hfits : ∀ item ∈ items, item.Fits targets) (hrun : Consecutive (Tree.groupsAll items))
    (hitems : ∀ item ∈ items, (exact = true → item.isConstSize = true) ∧
      item.isHard targets = false)
    (h : endNodes? items = some nodes) {place : Nat × Slots} {place' : Nat × Marks}
    (hplace : Alike targets start true place place') :
    Agree (Alike targets start exact) ((Node.seqAll nodes).ways search place)
      (Tree.waysRow search.text true items place') := by
  have heasy : ∀ item ∈ items, Easy targets item :=
    fun item hitem => Easy.of_fits (hfits item hitem) (hitems item hitem).2
  unfold endNodes? at h
  split at h
  · rename_i hempty
    cases h
    cases List.isEmpty_iff.mp hempty
    exact Agree.single (hplace.weaken exact)
  · obtain ⟨node, hnode, rfl⟩ := Option.map_eq_some_iff.mp h
    refine agree_oneGo heasy hrun (fun hexact text retry place => ?_) hnode hplace
    exact Easy.size_row (fun item hitem place =>
      (hfits item hitem).size_ways ((hitems item hitem).1 hexact) text retry place) place

theorem planned_concat {exact : Bool} {items : List Tree} {node : Node}
    (hfits : ∀ item ∈ items, item.Fits targets) (hrun : Consecutive (Tree.groupsAll items))
    (ih : ∀ item ∈ items, ∀ node, item.plan? targets true = some node →
      Planned targets true node item)
    (h : (Tree.concat items).plan? targets exact = some node) :
    Planned targets exact node (.concat items) := by
  intro start search place place' hplace
  rw [Tree.plan?] at h
  split at h
  · -- The whole row is easy, and goes to the other dialect in one go.
    rename_i heasy
    obtain ⟨hexact, hhard⟩ := Bool.and_eq_true_iff.mp heasy
    have hitems := Easy.of_fits (Tree.Fits.concat hfits) (Bool.not_eq_true' _ ▸ hhard)
    rw [← waysRow_single]
    refine agree_oneGo (List.forall_mem_singleton.mpr hitems) (Consecutive.single hrun)
      (fun htrue => ?_) h hplace
    rw [htrue] at hexact
    cases hexact
  · -- Only the ends of the row are easy. What is between them is planned
    -- item by item.
    obtain ⟨nodes, hnodes, h⟩ := Option.bind_eq_some_iff.mp h
    rw [aroundRow_eq] at h
    obtain ⟨left, hleft, h⟩ := Option.bind_eq_some_iff.mp h
    obtain ⟨right, hright, rfl⟩ := Option.map_eq_some_iff.mp h
    obtain ⟨first, middle, last, hitems, hfirst, hmiddle, hlast, hstart, hend⟩ :=
      row_parts targets exact items
    rw [planRow_eq, ← hmiddle] at hnodes
    rw [← hfirst] at hleft
    rw [← hlast] at hright
    subst hitems
    rw [groupsAll_append, groupsAll_append] at hrun
    obtain ⟨hfirst, hothers⟩ := hrun.ofAppend
    have hmem : ∀ item ∈ middle, item ∈ first ++ (middle ++ last) := fun item hitem =>
      List.mem_append_right _ (List.mem_append_left _ hitem)
    have hmiddle := Planned.row (forall_planAll (fun item hitem => ih item (hmem item hitem)) hnodes)
    show Agree _ _ (Tree.waysRow search.text true (first ++ (middle ++ last)) place')
    rw [List.append_assoc, Node.ways_seqAll_append, waysRow_append]
    have hleft : Agree (Alike targets start true) ((Node.seqAll left).ways search place)
        (Tree.waysRow search.text true first place') :=
      agree_end (fun item hitem => hfits item (List.mem_append_left _ hitem)) hfirst
        (fun item hitem => ⟨fun _ => (hstart item hitem).1, (hstart item hitem).2⟩) hleft hplace
    refine hleft.flatMap fun next next' hnext => ?_
    rw [Node.ways_seqAll_append, waysRow_append]
    refine (hmiddle start search next next' hnext).flatMap fun next next' hnext => ?_
    exact agree_end (fun item hitem => hfits item
      (List.mem_append_right _ (List.mem_append_right _ hitem))) hothers.ofAppend.2 hend hright hnext

/-! ### Repetitions -/

/-- A repetition whose body may be retried follows the rule for loops
that retry. -/
theorem ways_repeatedHard {min : Nat} {max : Option Nat} (greedy : Bool)
    (hmax : ∀ most ∈ max, min ≤ most) (body : Node) (place : Nat × Slots) :
    (Tree.repeatedHard min max greedy body).ways search place
      = Ways.repeated search.text.size true min max greedy (body.ways search) place := by
  unfold Tree.repeatedHard
  cases max with
  | none =>
    show _ = (Ways.exactly (body.ways search) min place).flatMap _
    by_cases hmin : min = 0
    · subst hmin
      simp only [if_true]
      rw [Ways.exactly_zero]
      rfl
    · simp only [hmin, if_false]
      rfl
  | some most =>
    have hle := hmax most rfl
    show _ = (Ways.exactly (body.ways search) min place).flatMap _
    by_cases hsame : most ≤ min
    · have heq : most = min := Nat.le_antisymm hsame hle
      subst heq
      have hone : Ways.upTo greedy (body.ways search) (most - most) = fun place => [place] := by
        rw [Nat.sub_self]
        rfl
      simp only [Nat.le_refl, if_true]
      rw [hone, List.flatMap_singleton']
      rfl
    · by_cases hmin : min = 0
      · subst hmin
        simp only [hsame, if_true, if_false]
        rw [Ways.exactly_zero]
        rfl
      · simp only [hsame, hmin, if_false]
        rfl

theorem Planned.weaken {node : Node} {tree : Tree} (h : Planned targets true node tree)
    (exact : Bool) : Planned targets exact node tree :=
  fun start search place place' hplace =>
    (h start search place place' hplace).mono fun _ _ hnext => hnext.weaken exact

/-- A tree is planned so that its ways are found. Where it does not
count where they end, there are no groups. -/
def Plans (targets : List Nat) (tree : Tree) : Prop :=
  ∀ (exact : Bool) (node : Node), (exact = false → tree.groups = []) →
    tree.plan? targets exact = some node → Planned targets exact node tree

theorem plans_repetition {min : Nat} {max : Option Nat} {greedy : Bool} {body : Tree}
    (hmax : ∀ most ∈ max, min ≤ most) (hfits : body.Fits targets)
    (hrun : Consecutive body.groups) (ih : Plans targets body) :
    Plans targets (.repetition min max greedy body) := by
  intro exact node hgroups h
  rw [Tree.plan?] at h
  split at h
  · rename_i heasy
    obtain ⟨hexact, hhard⟩ := Bool.and_eq_true_iff.mp heasy
    have hbody := Easy.of_fits hfits (Bool.not_eq_true' _ ▸ hhard)
    intro start search place place' hplace
    rw [← waysRow_single]
    refine agree_oneGo (List.forall_mem_singleton.mpr (.repetition hmax hbody))
      (@Consecutive.single (.repetition min max greedy body) hrun) (fun htrue => ?_) h hplace
    rw [htrue] at hexact
    cases hexact
  · rename_i hhard
    split at h
    · -- At most once.
      rename_i honce
      obtain ⟨hmin, hmost⟩ := Bool.and_eq_true_iff.mp honce
      cases beq_iff_eq.mp hmin
      cases beq_iff_eq.mp hmost
      obtain ⟨inner, hinner, rfl⟩ := Option.map_eq_some_iff.mp h
      intro start search place place' hplace
      show Agree _ _ ((Ways.exactly (body.ways search.text true) 0 place').flatMap _)
      rw [Ways.exactly_zero]
      exact Agree.arrange greedy ((ih exact inner hgroups hinner start search place place'
        hplace).flatMap fun next next' hnext => Agree.single hnext) (hplace.weaken exact)
    · -- A loop that has to retry needs to know where each pass ends.
      obtain ⟨inner, hinner, rfl⟩ := Option.map_eq_some_iff.mp h
      have hexact : (exact || body.isHard targets) = true := by
        cases exact with
        | true => rfl
        | false => simpa using hhard
      rw [hexact] at hinner
      have hbody := ih true inner (fun hfalse => Bool.noConfusion hfalse) hinner
      refine Planned.weaken (fun start search place place' hplace => ?_) exact
      rw [ways_repeatedHard greedy hmax]
      exact Agree.repeated (hbody start search) (fun _ _ hnext => hnext.pos_eq) _ _ _ _ greedy hplace

/-! ### Look-around -/

theorem planned_lookAhead {node : Node} {tree : Tree} (h : Planned targets false node tree)
    (exact negated : Bool) :
    Planned targets exact (Tree.lookAhead negated node) (.look false negated tree) := by
  intro start search place place' hplace
  have hbody := h start search place place' hplace
  cases negated with
  | true =>
    have hempty := hbody.eq_nil_iff
    rw [← List.isEmpty_iff, ← List.isEmpty_iff, ← Bool.eq_iff_iff] at hempty
    show Agree _ (Ways.check (node.ways search place).isEmpty place)
      (Ways.check (tree.ways search.text true place').isEmpty place')
    rw [hempty]
    exact Agree.check _ (hplace.weaken exact)
  | false =>
    refine Agree.map hbody fun next next' hnext => ?_
    rw [hplace.pos_eq]
    exact hnext.move exact _

/-- Where only one start is left, the others do not matter. -/
theorem flatMap_range {α : Type} {count start : Nat} {ways : Nat → List α}
    (h : ∀ other, other ≠ start → ways other = []) :
    (List.range count).flatMap ways = if start < count then ways start else [] := by
  induction count with
  | zero => rfl
  | succ count ih =>
    rw [List.range_succ, List.flatMap_append, ih, List.flatMap_cons, List.flatMap_nil,
      List.append_nil]
    by_cases hsame : count = start
    · subst hsame
      rw [if_neg (Nat.lt_irrefl _), if_pos (Nat.lt_succ_self _), List.nil_append]
    · rw [h count hsame, List.append_nil]
      by_cases hlt : start < count
      · rw [if_pos hlt, if_pos (by omega)]
      · rw [if_neg hlt, if_neg (by omega)]

/-- What has a constant size is found behind at one place only. -/
theorem found_of_size {σ : Type} {step : Nat × σ → List (Nat × σ)} {size : Nat}
    (hsize : ∀ place, ∀ next ∈ step place, next.1 = place.1 + size) (place : Nat × σ) :
    Ways.found true step place
      = if size ≤ place.1 then step (place.1 - size, place.2) else [] := by
  have hcheck : ∀ start, (step (start, place.2)).flatMap
      (fun next => Ways.check (next.1 == place.1) next)
        = if start + size = place.1 then step (start, place.2) else [] := by
    intro start
    have hall := hsize (start, place.2)
    by_cases hends : start + size = place.1
    · rw [if_pos hends]
      refine (List.flatMap_congr fun next hnext => ?_).trans (List.flatMap_singleton' _)
      have hnext : next.1 = place.1 := (hall next hnext).trans hends
      rw [Ways.check, if_pos (beq_iff_eq.mpr hnext)]
    · rw [if_neg hends, List.flatMap_eq_nil_iff]
      intro next hnext
      have hnext : ¬next.1 = place.1 := fun heq => hends ((hall next hnext).symm.trans heq)
      rw [Ways.check, if_neg (by simpa using hnext)]
  show (List.range (place.1 + 1)).flatMap _ = _
  simp only [hcheck]
  by_cases hle : size ≤ place.1
  · have hother : ∀ other, other ≠ place.1 - size →
        (if other + size = place.1 then step (other, place.2) else []) = [] := by
      intro other hother
      rw [if_neg (by omega)]
    rw [flatMap_range hother, if_pos (by omega), if_pos (by omega), if_pos hle]
  · rw [if_neg hle, List.flatMap_eq_nil_iff]
    intro start _
    rw [if_neg (by omega)]

theorem planned_lookBehind {node : Node} {tree : Tree} {size : Nat}
    (hsize : ∀ (text : Array Char) (place : Nat × Marks), ∀ next ∈ tree.ways text true place,
      next.1 = place.1 + size)
    (h : Planned targets false node tree) (exact negated : Bool) :
    Planned targets exact (Tree.lookBehind negated size node) (.look true negated tree) := by
  intro start search place place' hplace
  obtain ⟨pos, slots⟩ := place
  obtain ⟨pos', marks⟩ := place'
  cases (show pos = pos' from hplace.pos_eq)
  have hfound := found_of_size (hsize search.text) (pos, marks)
  have hbody := h start search (pos - size, slots) (pos - size, marks) (hplace.move true _)
  cases negated with
  | true =>
    have hempty := hbody.eq_nil_iff
    rw [← List.isEmpty_iff, ← List.isEmpty_iff, ← Bool.eq_iff_iff] at hempty
    show Agree _ (if size ≤ pos ∧ !(node.ways search (pos - size, slots)).isEmpty then []
      else [(pos, slots)]) (Ways.check (Ways.found true _ (pos, marks)).isEmpty (pos, marks))
    rw [hfound, hempty]
    by_cases hle : size ≤ pos
    · simp only [hle, true_and, if_true]
      cases (tree.ways search.text true (pos - size, marks)).isEmpty with
      | true => exact Agree.single (hplace.weaken exact)
      | false => exact Agree.nil
    · simp only [hle, false_and, if_false]
      exact Agree.single (hplace.weaken exact)
  | false =>
    show Agree _ (if size ≤ pos then (node.ways search (pos - size, slots)).map _ else [])
      ((Ways.found true _ (pos, marks)).map _)
    rw [hfound]
    by_cases hle : size ≤ pos
    · rw [if_pos hle, if_pos hle]
      exact hbody.map fun next next' hnext => hnext.move exact pos
    · rw [if_neg hle, if_neg hle]
      exact Agree.nil

theorem mem_found_behind {σ : Type} {step : Nat × σ → List (Nat × σ)} {place next : Nat × σ} :
    next ∈ Ways.found true step place
      ↔ ∃ start ≤ place.1, next ∈ step (start, place.2) ∧ next.1 = place.1 := by
  show next ∈ (List.range (place.1 + 1)).flatMap _ ↔ _
  simp only [List.mem_flatMap, List.mem_range, Nat.lt_succ_iff]
  refine exists_congr fun start => and_congr_right fun _ => ?_
  constructor
  · rintro ⟨found, hfound, hnext⟩
    unfold Ways.check at hnext
    split at hnext
    · rename_i hends
      cases List.mem_singleton.mp hnext
      exact ⟨hfound, beq_iff_eq.mp hends⟩
    · cases hnext
  · rintro ⟨hfound, hends⟩
    refine ⟨next, hfound, ?_⟩
    rw [Ways.check, if_pos (beq_iff_eq.mpr hends), List.mem_singleton]

/-- Nothing is found behind if nothing is found by any branch. -/
theorem found_waysBranches_eq_nil {text : Array Char} {branches : List Tree}
    {place : Nat × Marks} :
    Ways.found true (Tree.waysBranches text true branches) place = []
      ↔ ∀ branch ∈ branches, Ways.found true (branch.ways text true) place = [] := by
  simp only [List.eq_nil_iff_forall_not_mem, mem_found_behind, Easy.mem_waysBranches]
  constructor
  · rintro h branch hbranch next ⟨start, hle, hnext, hends⟩
    exact h next ⟨start, hle, ⟨branch, hbranch, hnext⟩, hends⟩
  · rintro h next ⟨start, hle, ⟨branch, hbranch, hnext⟩, hends⟩
    exact h branch hbranch next ⟨start, hle, hnext, hends⟩

/-- Branches look behind one by one. -/
theorem agree_look_branches {branches : List Tree} (hfits : ∀ branch ∈ branches, branch.Fits targets)
    (hgroups : Tree.groupsAll branches = []) (text : Array Char) (place : Nat × Marks) :
    Agree Eq (Tree.waysBranches text true (branches.map (Tree.look true false)) place)
      ((Tree.look true false (.alternation branches)).ways text true place) := by
  have hlook : ∀ {tree : Tree}, tree.Fits targets → tree.groups = [] →
      ∀ next ∈ (Tree.look true false tree).ways text true place, next = place := by
    intro tree htree hnone next hnext
    have hkept := (Tree.Fits.look true false hnone htree).keeps_ways hnone text true place next hnext
    have hpos : next.1 = place.1 := by
      obtain ⟨found, -, rfl⟩ := List.mem_map.mp hnext
      rfl
    exact Prod.ext hpos hkept
  have hright := hlook (.alternation hfits) hgroups
  refine Agree.of_forall (fun next hnext next' hnext' => ?_) ?_
  · obtain ⟨tree, htree, hnext⟩ := Easy.mem_waysBranches.mp hnext
    obtain ⟨branch, hbranch, rfl⟩ := List.mem_map.mp htree
    rw [hlook (hfits branch hbranch) (groups_of_mem hgroups branch hbranch) next hnext,
      hright next' hnext']
  · have hleft : Tree.waysBranches text true (branches.map (Tree.look true false)) place = []
        ↔ ∀ branch ∈ branches, Ways.found true (branch.ways text true) place = [] := by
      clear hright hgroups hfits
      induction branches with
      | nil => exact ⟨fun _ branch hbranch => (nomatch hbranch), fun _ => rfl⟩
      | cons branch branches ih =>
        rw [List.map_cons, Tree.waysBranches, List.append_eq_nil_iff, ih, List.forall_mem_cons]
        exact and_congr_left' List.map_eq_nil_iff
    rw [hleft, ← found_waysBranches_eq_nil]
    exact List.map_eq_nil_iff.symm

/-- Branches that must not be found behind are looked for one by one. -/
theorem waysRow_look_branches (branches : List Tree) (text : Array Char) (place : Nat × Marks) :
    Tree.waysRow text true (branches.map (Tree.look true true)) place
      = (Tree.look true true (.alternation branches)).ways text true place := by
  have hrow : Tree.waysRow text true (branches.map (Tree.look true true)) place
      = Ways.check (decide (∀ branch ∈ branches,
          Ways.found true (branch.ways text true) place = [])) place := by
    induction branches with
    | nil => simp [Tree.waysRow, Ways.check]
    | cons branch branches ih =>
      show (Ways.check (Ways.found true (branch.ways text true) place).isEmpty place).flatMap _ = _
      cases hfound : Ways.found true (branch.ways text true) place with
      | nil => simp [Ways.check, ih, hfound]
      | cons found others => simp [Ways.check, hfound]
  rw [hrow]
  show _ = Ways.check (Ways.found true (Tree.waysBranches text true branches) place).isEmpty place
  congr 1
  rw [Bool.eq_iff_iff, decide_eq_true_iff, List.isEmpty_iff, found_waysBranches_eq_nil]

theorem planBehind_cons (negated : Bool) (item : Tree) (rest : List Tree) :
    Tree.planBehind? targets negated (item :: rest)
      = if item.isConstSize then
          (item.plan? targets false).bind fun node =>
            (Tree.planBehind? targets negated rest).map
              (Tree.lookBehind negated item.minSize node :: ·)
        else none := by
  rw [Tree.planBehind?]
  cases item.isConstSize with
  | true => simp [Option.map_eq_bind, Function.comp_def]
  | false => simp

theorem forall_planBehind {negated : Bool} {branches : List Tree} {nodes : List Node}
    (hfits : ∀ branch ∈ branches, branch.Fits targets)
    (h : ∀ branch ∈ branches, ∀ node, branch.plan? targets false = some node →
      Planned targets false node branch)
    (hnodes : Tree.planBehind? targets negated branches = some nodes) (exact : Bool) :
    List.Forall₂ (Planned targets exact) nodes (branches.map (Tree.look true negated)) := by
  induction branches generalizing nodes with
  | nil =>
    cases hnodes
    exact .nil
  | cons branch branches ih =>
    rw [planBehind_cons] at hnodes
    split at hnodes
    · rename_i hconst
      obtain ⟨node, hnode, hnodes⟩ := Option.bind_eq_some_iff.mp hnodes
      obtain ⟨rest, hrest, rfl⟩ := Option.map_eq_some_iff.mp hnodes
      have hbranch := h branch List.mem_cons_self node hnode
      have hsize := fun text => (hfits branch List.mem_cons_self).size_ways hconst text true
      exact .cons (planned_lookBehind hsize hbranch exact negated)
        (ih (fun other hother => hfits other (List.mem_cons_of_mem branch hother))
          (fun other hother => h other (List.mem_cons_of_mem branch hother)) hrest)
    · cases hnodes

/-- Branches of different sizes look behind one by one. -/
theorem planned_branches_behind {branches : List Tree} {nodes : List Node} {negated : Bool}
    (hfits : ∀ branch ∈ branches, branch.Fits targets) (hgroups : Tree.groupsAll branches = [])
    (h : ∀ branch ∈ branches, ∀ node, branch.plan? targets false = some node →
      Planned targets false node branch)
    (hnodes : Tree.planBehind? targets negated branches = some nodes) (exact : Bool) :
    Planned targets exact (if negated then .seqAll nodes else .altAll nodes)
      (.look true negated (.alternation branches)) := by
  intro start search place place' hplace
  have hlooks := forall_planBehind hfits h hnodes
  cases negated with
  | true =>
    rw [← waysRow_look_branches]
    exact ((Planned.row (hlooks true)).weaken exact) start search place place' hplace
  | false =>
    exact (Planned.branches (hlooks exact) start search place place' hplace).trans_right
      (agree_look_branches hfits hgroups search.text place')

/-- A look behind at branches of a constant size is planned like the
branches themselves. -/
theorem plan_behind_const (exact negated : Bool) {branches : List Tree}
    (hconst : (Tree.alternation branches).isConstSize = true) :
    (Tree.look true negated (.alternation branches)).plan? targets exact
      = ((Tree.alternation branches).plan? targets false).map
          (Tree.lookBehind negated (Tree.alternation branches).minSize) := by
  have hinner : (Tree.alternation branches).plan? targets false
      = if !Tree.anyHard targets branches then Tree.inOneGo? [.alternation branches]
        else (Tree.planAll? targets false branches).map .altAll := by
    rw [Tree.plan?]
    rfl
  rw [hinner, Tree.plan?, if_pos hconst]
  cases Tree.anyHard targets branches with
  | true => simp [Function.comp_def]
  | false => rfl

/-- A look behind at anything but branches. -/
theorem plan_behind (exact negated : Bool) {body : Tree}
    (h : ∀ branches, body ≠ .alternation branches) :
    (Tree.look true negated body).plan? targets exact
      = if body.isConstSize then
          (body.plan? targets false).map (Tree.lookBehind negated body.minSize)
        else none := by
  rw [Tree.plan?]
  exact h

theorem plans_look {behind negated : Bool} {body : Tree} (hgroups : body.groups = [])
    (hfits : body.Fits targets) (ih : Plans targets body)
    (hbranches : ∀ branches, body = .alternation branches →
      ∀ branch ∈ branches, Plans targets branch) :
    Plans targets (.look behind negated body) := by
  intro exact node _ h
  have hbody := fun node => ih false node fun _ => hgroups
  cases behind with
  | false =>
    rw [Tree.plan?] at h
    obtain ⟨inner, hinner, rfl⟩ := Option.map_eq_some_iff.mp h
    exact planned_lookAhead (hbody inner hinner) exact negated
  | true =>
    -- A body of one size is looked for that far back. Branches of different
    -- sizes are looked for one by one.
    have hsize : body.isConstSize = true → ∀ inner, body.plan? targets false = some inner →
        Planned targets exact (Tree.lookBehind negated body.minSize inner)
          (.look true negated body) := fun hconst inner hinner =>
      planned_lookBehind (fun text => hfits.size_ways hconst text true) (hbody inner hinner) exact
        negated
    by_cases hkind : ∃ branches, body = .alternation branches
    · obtain ⟨branches, rfl⟩ := hkind
      by_cases hconst : (Tree.alternation branches).isConstSize = true
      · rw [plan_behind_const exact negated hconst] at h
        obtain ⟨inner, hinner, rfl⟩ := Option.map_eq_some_iff.mp h
        exact hsize hconst inner hinner
      · rw [Tree.plan?, if_neg hconst] at h
        obtain ⟨nodes, hnodes, rfl⟩ := Option.map_eq_some_iff.mp h
        cases hfits with
        | alternation hall =>
          exact planned_branches_behind hall hgroups (fun branch hbranch node =>
            hbranches branches rfl branch hbranch false node fun _ =>
              groups_of_mem hgroups branch hbranch) hnodes exact
    · rw [plan_behind exact negated fun branches heq => hkind ⟨branches, heq⟩] at h
      split at h
      · rename_i hconst
        obtain ⟨inner, hinner, rfl⟩ := Option.map_eq_some_iff.mp h
        exact hsize hconst inner hinner
      · cases h

theorem plans_group {index : Nat} {body : Tree} (hindex : index ≠ 0) (ih : Plans targets body) :
    Plans targets (.group index body) := by
  intro exact node hgroups h
  have hexact : exact = true := by
    cases exact with
    | true => rfl
    | false => cases hgroups rfl
  subst hexact
  rw [Tree.plan?, if_neg (by simp)] at h
  obtain ⟨inner, hinner, rfl⟩ := Option.map_eq_some_iff.mp h
  have hbody := ih true inner (fun hfalse => Bool.noConfusion hfalse) hinner
  intro start search place place' hplace
  obtain ⟨pos, slots⟩ := place
  obtain ⟨pos', marks⟩ := place'
  cases (show pos = pos' from hplace.pos_eq)
  have hopen : Alike targets start true (pos, slots.setIfInBounds (2 * index) (some pos))
      (pos, marks.begin index pos) := ⟨fun _ => rfl, hplace.2.begin hindex pos⟩
  refine (hbody start search _ _ hopen).map fun next next' hnext => ⟨fun _ => hnext.pos_eq, ?_⟩
  rw [hnext.pos_eq]
  exact hnext.2.finish index next'.1

theorem plans_alternation {branches : List Tree} (hfits : ∀ branch ∈ branches, branch.Fits targets)
    (hrun : Consecutive (Tree.groupsAll branches)) (ih : ∀ branch ∈ branches, Plans targets branch) : Plans targets (.alternation branches) := by
  intro exact node hgroups h
  rw [Tree.plan?] at h
  split at h
  · rename_i heasy
    obtain ⟨hexact, hhard⟩ := Bool.and_eq_true_iff.mp heasy
    have hbranches := Easy.of_fits (Tree.Fits.alternation hfits) (Bool.not_eq_true' _ ▸ hhard)
    intro start search place place' hplace
    rw [← waysRow_single]
    refine agree_oneGo (List.forall_mem_singleton.mpr hbranches) (Consecutive.single hrun)
      (fun htrue => ?_) h hplace
    rw [htrue] at hexact
    cases hexact
  · obtain ⟨nodes, hnodes, rfl⟩ := Option.map_eq_some_iff.mp h
    refine Planned.branches (forall_planAll (fun branch hbranch node => ?_) hnodes)
    exact ih branch hbranch exact node fun hfalse =>
      groups_of_mem (hgroups hfalse) branch hbranch

/-! ### Plans -/

/-- A character or an anchor. -/
theorem plans_char {tree : Tree} {set : CharSet}
    (hplan : ∀ exact, tree.plan? targets exact = some (.char set))
    (hways : ∀ text place, tree.ways text true place = Ways.one text set place) :
    Plans targets tree := by
  intro exact node _ h
  rw [hplan exact] at h
  cases h
  intro start search place place' hplace
  rw [hways]
  exact hplace.one exact search.text set

/-- The plan of a tree finds its ways. -/
theorem agree_plan {tree : Tree} (h : tree.Fits targets) (hrun : Consecutive tree.groups) :
    Plans targets tree := by
  -- A look plans the branches of its body one by one, so they are part of
  -- what the induction says.
  have hboth : Plans targets tree ∧ ∀ branches, tree = .alternation branches →
      ∀ branch ∈ branches, Plans targets branch := by
    induction h with
    | empty =>
      refine ⟨fun exact node _ h => ?_, fun _ heq => Tree.noConfusion heq⟩
      cases h
      exact fun start search place place' hplace => Agree.single (hplace.weaken exact)
    | any newline => exact ⟨plans_char (fun _ => rfl) fun _ _ => rfl, fun _ heq => Tree.noConfusion heq⟩
    | literal c ignoreCase =>
      exact ⟨plans_char (fun _ => rfl) fun _ _ => rfl, fun _ heq => Tree.noConfusion heq⟩
    | set body ignoreCase =>
      refine ⟨fun exact node hgroups h => ?_, fun _ heq => Tree.noConfusion heq⟩
      obtain ⟨members, hmembers, rfl⟩ := Option.map_eq_some_iff.mp h
      have hways : ∀ text place, (Tree.set body ignoreCase).ways text true place
          = Ways.one text members place := by
        intro text place
        rw [Tree.ways, Tree.setMembers, hmembers]
        rfl
      exact plans_char (fun _ => h) hways exact _ hgroups h
    | anchor sign =>
      refine ⟨fun exact node _ h => ?_, fun _ heq => Tree.noConfusion heq⟩
      cases h
      exact fun start search place place' hplace =>
        hplace.check exact fun pos => sign.meaning.holds search.text pos
    | concat hfits ih =>
      refine ⟨fun exact node _ h => ?_, fun _ heq => Tree.noConfusion heq⟩
      exact planned_concat hfits hrun (fun item hitem node =>
        (ih item hitem (hrun.of_mem item hitem)).1 true node fun hfalse => Bool.noConfusion hfalse) h
    | alternation hfits ih =>
      have hplans := fun branch hbranch => (ih branch hbranch (hrun.of_mem branch hbranch)).1
      refine ⟨plans_alternation hfits hrun hplans, fun branches heq => ?_⟩
      cases heq
      exact hplans
    | @group index body hindex _ ih =>
      have hbody := (show Consecutive ([index] ++ body.groups) from hrun).ofAppend.2
      exact ⟨plans_group hindex (ih hbody).1, fun _ heq => Tree.noConfusion heq⟩
    | repetition hmax hfits ih =>
      exact ⟨plans_repetition hmax hfits hrun (ih hrun).1, fun _ heq => Tree.noConfusion heq⟩
    | look behind negated hgroups hfits ih =>
      exact ⟨plans_look hgroups hfits (ih hrun).1 (ih hrun).2, fun _ heq => Tree.noConfusion heq⟩
    | backref hmem =>
      refine ⟨fun exact node _ h => ?_, fun _ heq => Tree.noConfusion heq⟩
      cases h
      exact fun start search place place' hplace => hplace.again exact search hmem
  exact hboth.1

end Highlighter.Regex.Extended
