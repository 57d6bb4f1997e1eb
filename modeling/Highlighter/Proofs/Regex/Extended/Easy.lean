import Highlighter.Proofs.Regex.Extended.Meaning
import Highlighter.Proofs.Regex.Loops
import Highlighter.Proofs.Regex.Reach
import Mathlib.Data.List.Forall2

/-!
# Trees that are matched in one go

A tree without references and look-around is easy, if nothing refers to
its groups: a regular expression stands for it (`Easy.standsFor`). The
regular expression may follow the other rule for loops, and it may
repeat what consumes nothing less often, so it does not find the same
ways. It finds one where there is one (`Easy.eq_nil_iff`), and where
the size is constant, all ways end at the same place
(`Tree.Fits.size_ways`). What other groups have matched stays
(`Easy.spares_ways`, `StandsFor.spares`).
-/

set_option autoImplicit false

namespace Highlighter.Regex.Extended

open Pattern

/-- A tree made of characters, anchors, rows, branches, repetitions and
groups that are not among the `targets`. -/
inductive Easy (targets : List Nat) : Tree → Prop where
  | empty : Easy targets .empty
  | any (newline : Bool) : Easy targets (.any newline)
  | literal (c : Char) (ignoreCase : Bool) : Easy targets (.literal c ignoreCase)
  | set (body : ClassSet) (ignoreCase : Bool) : Easy targets (.set body ignoreCase)
  | anchor (sign : Sign) : Easy targets (.anchor sign)
  | concat {items : List Tree} (h : ∀ item ∈ items, Easy targets item) :
    Easy targets (.concat items)
  | alternation {branches : List Tree} (h : ∀ branch ∈ branches, Easy targets branch) :
    Easy targets (.alternation branches)
  | group {index : Nat} {body : Tree} (hindex : index ≠ 0) (hmem : index ∉ targets)
    (h : Easy targets body) : Easy targets (.group index body)
  | repetition {min : Nat} {max : Option Nat} {greedy : Bool} {body : Tree}
    (hmax : ∀ most ∈ max, min ≤ most) (h : Easy targets body) :
    Easy targets (.repetition min max greedy body)

variable {targets : List Nat}

theorem isHard_of_mem {targets : List Nat} {items : List Tree}
    (h : Tree.anyHard targets items = false) : ∀ item ∈ items, item.isHard targets = false := by
  induction items with
  | nil => exact fun item hitem => nomatch hitem
  | cons first items ih =>
    obtain ⟨hfirst, hrest⟩ := Bool.or_eq_false_iff.mp h
    exact List.forall_mem_cons.mpr ⟨hfirst, ih hrest⟩

/-- What is not hard is easy. -/
theorem Easy.of_fits {tree : Tree} (h : tree.Fits targets)
    (hhard : tree.isHard targets = false) : Easy targets tree := by
  induction h with
  | empty => exact .empty
  | any newline => exact .any newline
  | literal c ignoreCase => exact .literal c ignoreCase
  | set body ignoreCase => exact .set body ignoreCase
  | anchor sign => exact .anchor sign
  | concat _ ih => exact .concat fun item hitem => ih item hitem (isHard_of_mem hhard item hitem)
  | alternation _ ih =>
    exact .alternation fun branch hbranch => ih branch hbranch (isHard_of_mem hhard branch hbranch)
  | group hindex _ ih =>
    obtain ⟨hmem, hbody⟩ := Bool.or_eq_false_iff.mp hhard
    exact .group hindex (by simpa using hmem) (ih hbody)
  | repetition hmax _ ih => exact .repetition hmax (ih hhard)
  | look => cases hhard
  | backref => cases hhard

/-! ### The groups of trees -/

theorem mem_groupsAll {items : List Tree} {group : Nat} :
    group ∈ Tree.groupsAll items ↔ ∃ item ∈ items, group ∈ item.groups := by
  induction items with
  | nil => simp [Tree.groupsAll]
  | cons item items ih => simp [Tree.groupsAll, ih]

theorem groups_of_mem {items : List Tree} (h : Tree.groupsAll items = []) :
    ∀ item ∈ items, item.groups = [] := by
  induction items with
  | nil => exact fun _ hitem => by cases hitem
  | cons first items ih =>
    obtain ⟨hfirst, hrest⟩ := List.append_eq_nil_iff.mp h
    exact List.forall_mem_cons.mpr ⟨hfirst, ih hrest⟩

namespace Easy

/-- Nothing refers to the groups of easy trees. -/
theorem of_mem_groups {tree : Tree} (h : Easy targets tree) :
    ∀ group ∈ tree.groups, group ≠ 0 ∧ group ∉ targets := by
  induction h with
  | concat _ ih =>
    intro group hgroup
    obtain ⟨item, hitem, hgroup⟩ := mem_groupsAll.mp hgroup
    exact ih item hitem group hgroup
  | alternation _ ih =>
    intro group hgroup
    obtain ⟨branch, hbranch, hgroup⟩ := mem_groupsAll.mp hgroup
    exact ih branch hbranch group hgroup
  | group hindex hmem _ ih => exact List.forall_mem_cons.mpr ⟨⟨hindex, hmem⟩, ih⟩
  | repetition _ _ ih => exact ih
  | _ => exact fun group hgroup => by cases hgroup

/-! ### Where easy trees lead -/

/-- Rows and branches lead where their parts lead. -/
theorem along_lists {P : Nat × Marks → Nat × Marks → Prop} (hrefl : ∀ place, P place place)
    (htrans : ∀ place between next, P place between → P between next → P place next)
    {text : Array Char} {retry : Bool} {items : List Tree}
    (h : ∀ item ∈ items, ∀ place, Ways.Along P place (item.ways text retry place))
    (place : Nat × Marks) :
    Ways.Along P place (Tree.waysRow text retry items place) ∧
      Ways.Along P place (Tree.waysBranches text retry items place) := by
  induction items generalizing place with
  | nil => exact ⟨Ways.along_single hrefl place, fun _ hnext => nomatch hnext⟩
  | cons item items ih =>
    have hfirst := h item List.mem_cons_self place
    have hrest := ih fun other hother => h other (List.mem_cons_of_mem item hother)
    refine ⟨Ways.along_flatMap htrans hfirst fun between => (hrest between).1, ?_⟩
    intro next hnext
    rcases List.mem_append.mp hnext with hnext | hnext
    · exact hfirst next hnext
    · exact (hrest place).2 next hnext

/-- Without groups, easy trees keep everything but the position. -/
theorem advances {tree : Tree} (h : Easy targets tree) (hgroups : tree.groups = [])
    (text : Array Char) (retry : Bool) (place : Nat × Marks) :
    Ways.Along (Ways.Advances text.size) place (tree.ways text retry place) := by
  have hrefl := Ways.advances_refl (σ := Marks) text.size
  have htrans := Ways.advances_trans (σ := Marks) text.size
  have hone : ∀ {place : Nat × Marks}, place.1 + 1 ≤ text.size →
      Ways.Advances text.size place (place.1 + 1, place.2) :=
    fun hle => ⟨rfl, Nat.le_succ _, .inr hle⟩
  induction h generalizing place with
  | empty => exact Ways.along_single hrefl place
  | any newline => exact Ways.along_one hone
  | literal c ignoreCase => exact Ways.along_one hone
  | set body ignoreCase => exact Ways.along_one hone
  | anchor sign => exact Ways.along_check (hrefl place)
  | concat _ ih =>
    have hitems := groups_of_mem hgroups
    exact (along_lists hrefl htrans (fun item hitem => ih item hitem (hitems item hitem)) place).1
  | alternation _ ih =>
    have hitems := groups_of_mem hgroups
    exact (along_lists hrefl htrans (fun item hitem => ih item hitem (hitems item hitem)) place).2
  | group => cases hgroups
  | repetition _ _ ih => exact Ways.along_repeated hrefl htrans (ih hgroups) _ retry _ _ _ place

/-- Rows and branches have the same members if their parts have. -/
theorem mem_lists {text : Array Char} {items : List Tree}
    (h : ∀ item ∈ items, ∀ place next,
      next ∈ item.ways text true place ↔ next ∈ item.ways text false place)
    (place next : Nat × Marks) :
    (next ∈ Tree.waysRow text true items place ↔ next ∈ Tree.waysRow text false items place) ∧
      (next ∈ Tree.waysBranches text true items place
        ↔ next ∈ Tree.waysBranches text false items place) := by
  induction items generalizing place next with
  | nil => exact ⟨Iff.rfl, Iff.rfl⟩
  | cons item items ih =>
    have hfirst := h item List.mem_cons_self
    have hrest := ih fun other hother => h other (List.mem_cons_of_mem item hother)
    constructor
    · rw [Tree.waysRow, Tree.waysRow, List.mem_flatMap, List.mem_flatMap]
      exact exists_congr fun between => and_congr (hfirst place between) (hrest between next).1
    · rw [Tree.waysBranches, Tree.waysBranches, List.mem_append, List.mem_append]
      exact or_congr (hfirst place next) (hrest place next).2

/-- Without groups, both rules for loops lead to the same places. -/
theorem mem_ways {tree : Tree} (h : Easy targets tree) (hgroups : tree.groups = [])
    (text : Array Char) (place next : Nat × Marks) :
    next ∈ tree.ways text true place ↔ next ∈ tree.ways text false place := by
  induction h generalizing place next with
  | concat _ ih =>
    have hitems := groups_of_mem hgroups
    exact (mem_lists (fun item hitem => ih item hitem (hitems item hitem)) place next).1
  | alternation _ ih =>
    have hitems := groups_of_mem hgroups
    exact (mem_lists (fun item hitem => ih item hitem (hitems item hitem)) place next).2
  | group => cases hgroups
  | repetition _ hbody ih =>
    exact Ways.mem_repeated_congr (ih hgroups) (hbody.advances hgroups text true)
      (hbody.advances hgroups text false) true false _ _ _
  | _ => exact Iff.rfl

/-! ### Easy trees without their groups -/

end Easy

namespace Tree

mutual

/-- A tree with its groups left out. -/
def ungrouped : Tree → Tree
  | concat items => concat (ungroupedAll items)
  | alternation branches => alternation (ungroupedAll branches)
  | group _ body => body.ungrouped
  | repetition min max greedy body => repetition min max greedy body.ungrouped
  | tree => tree

/-- Trees with their groups left out. -/
def ungroupedAll : List Tree → List Tree
  | [] => []
  | item :: rest => item.ungrouped :: ungroupedAll rest

end

end Tree

namespace Easy

theorem forall_ungroupedAll {p : Tree → Prop} {items : List Tree}
    (h : ∀ item ∈ items, p item.ungrouped) : ∀ item ∈ Tree.ungroupedAll items, p item := by
  induction items with
  | nil => exact fun _ hitem => by cases hitem
  | cons item items ih =>
    exact List.forall_mem_cons.mpr ⟨h item List.mem_cons_self,
      ih fun other hother => h other (List.mem_cons_of_mem item hother)⟩

/-- Without its groups, an easy tree is easy. -/
theorem ungrouped {tree : Tree} (h : Easy targets tree) :
    Easy targets tree.ungrouped ∧ tree.ungrouped.groups = [] := by
  have hnone : ∀ {items : List Tree}, (∀ item ∈ items, item.groups = []) →
      Tree.groupsAll items = [] := by
    intro items hitems
    refine List.eq_nil_iff_forall_not_mem.mpr fun group hgroup => ?_
    obtain ⟨item, hitem, hgroup⟩ := mem_groupsAll.mp hgroup
    rw [hitems item hitem] at hgroup
    cases hgroup
  induction h with
  | concat _ ih =>
    exact ⟨.concat (forall_ungroupedAll fun item hitem => (ih item hitem).1),
      hnone (forall_ungroupedAll fun item hitem => (ih item hitem).2)⟩
  | alternation _ ih =>
    exact ⟨.alternation (forall_ungroupedAll fun branch hbranch => (ih branch hbranch).1),
      hnone (forall_ungroupedAll fun branch hbranch => (ih branch hbranch).2)⟩
  | group _ _ _ ih => exact ih
  | repetition hmax _ ih => exact ⟨.repetition hmax ih.1, ih.2⟩
  | empty => exact ⟨.empty, rfl⟩
  | any newline => exact ⟨.any newline, rfl⟩
  | literal c ignoreCase => exact ⟨.literal c ignoreCase, rfl⟩
  | set body ignoreCase => exact ⟨.set body ignoreCase, rfl⟩
  | anchor sign => exact ⟨.anchor sign, rfl⟩

/-- Easy trees end at the same positions without their groups. -/
theorem agree_ungrouped {tree : Tree} (h : Easy targets tree) (text : Array Char) (retry : Bool)
    {place place' : Nat × Marks} (hplace : SamePos place place') :
    Agree SamePos (tree.ways text retry place) (tree.ungrouped.ways text retry place') := by
  have hnext : ∀ {place place' : Nat × Marks}, SamePos place place' →
      SamePos (place.1 + 1, place.2) (place'.1 + 1, place'.2) :=
    fun hplace => congrArg (· + 1) hplace
  have hlists : ∀ {items : List Tree}, (∀ item ∈ items, ∀ {place place' : Nat × Marks},
      SamePos place place' →
        Agree SamePos (item.ways text retry place) (item.ungrouped.ways text retry place')) →
      ∀ {place place' : Nat × Marks}, SamePos place place' →
        Agree SamePos (Tree.waysRow text retry items place)
          (Tree.waysRow text retry (Tree.ungroupedAll items) place') ∧
        Agree SamePos (Tree.waysBranches text retry items place)
          (Tree.waysBranches text retry (Tree.ungroupedAll items) place') := by
    intro items hitems
    induction items with
    | nil => exact fun hplace => ⟨Agree.single hplace, Agree.nil⟩
    | cons item items ih =>
      intro place place' hplace
      have hfirst := hitems item List.mem_cons_self hplace
      have hrest := fun {place place' : Nat × Marks} (hplace : SamePos place place') =>
        ih (fun other hother => hitems other (List.mem_cons_of_mem item hother)) hplace
      exact ⟨hfirst.flatMap fun _ _ hnext => (hrest hnext).1, hfirst.append (hrest hplace).2⟩
  induction h generalizing place place' with
  | empty => exact Agree.single hplace
  | any newline => exact Agree.one _ _ hplace (hnext hplace)
  | literal c ignoreCase => exact Agree.one _ _ hplace (hnext hplace)
  | set body ignoreCase => exact Agree.one _ _ hplace (hnext hplace)
  | anchor sign =>
    show Agree SamePos (Ways.check _ place) (Ways.check _ place')
    rw [← show place.1 = place'.1 from hplace]
    exact Agree.check _ hplace
  | concat _ ih => exact (hlists ih hplace).1
  | alternation _ ih => exact (hlists ih hplace).2
  | @group index body _ _ _ ih =>
    -- The marks of the group differ, but not the positions.
    obtain ⟨pos, marks⟩ := place
    have hbody := ih (show SamePos (pos, marks.begin index pos) place' from hplace)
    rw [Tree.ungrouped, ← List.map_id (Tree.ways text retry body.ungrouped place')]
    exact hbody.map fun _ _ hsame => hsame
  | repetition _ _ ih => exact Agree.repeated (fun _ _ => ih) (fun _ _ hsame => hsame) _ _ _ _ _ hplace

/-- Both rules for loops find a way where there is one. -/
theorem eq_nil_iff {tree : Tree} (h : Easy targets tree) (text : Array Char)
    (place : Nat × Marks) :
    tree.ways text true place = [] ↔ tree.ways text false place = [] := by
  obtain ⟨heasy, hgroups⟩ := h.ungrouped
  have hagree := fun retry => (h.agree_ungrouped text retry (rfl : SamePos place place)).eq_nil_iff
  rw [hagree true, hagree false, List.eq_nil_iff_forall_not_mem, List.eq_nil_iff_forall_not_mem]
  exact forall_congr' fun next => not_congr (heasy.mem_ways hgroups text place next)

/-! ### Constant sizes -/

/-- Rows of trees of a constant size. -/
theorem size_row {text : Array Char} {retry : Bool} {items : List Tree}
    (h : ∀ item ∈ items, ∀ place, ∀ next ∈ item.ways text retry place,
      next.1 = place.1 + item.minSize)
    (place : Nat × Marks) :
    ∀ next ∈ Tree.waysRow text retry items place, next.1 = place.1 + Tree.sumSize items := by
  induction items generalizing place with
  | nil =>
    intro next hnext
    rw [List.mem_singleton.mp hnext]
    rfl
  | cons item items ih =>
    intro next hnext
    obtain ⟨between, hbetween, hnext⟩ := List.mem_flatMap.mp hnext
    have hfirst := h item List.mem_cons_self place between hbetween
    have hrest := ih (fun other hother => h other (List.mem_cons_of_mem item hother))
      between next hnext
    rw [Tree.sumSize]
    omega

/-- Branches of the same size. -/
theorem leastSize_eq {items : List Tree} (h : Tree.sameSize items = true) :
    ∀ item ∈ items, item.minSize = Tree.leastSize items := by
  induction items with
  | nil => exact fun item hitem => nomatch hitem
  | cons first items ih =>
    cases items with
    | nil =>
      intro item hitem
      rw [List.mem_singleton.mp hitem]
      rfl
    | cons second items =>
      obtain ⟨hfirst, hrest⟩ := Bool.and_eq_true_iff.mp h
      have hsame : first.minSize = second.minSize := beq_iff_eq.mp hfirst
      have hleast : Tree.leastSize (first :: second :: items)
          = min first.minSize (Tree.leastSize (second :: items)) := rfl
      have hsecond := ih hrest second List.mem_cons_self
      intro item hitem
      rcases List.mem_cons.mp hitem with rfl | hitem
      · omega
      · have hitem := ih hrest item hitem
        omega

theorem isConstSize_of_mem {items : List Tree} (h : Tree.allConstSize items = true) :
    ∀ item ∈ items, item.isConstSize = true := by
  induction items with
  | nil => exact fun item hitem => nomatch hitem
  | cons first items ih =>
    obtain ⟨hfirst, hrest⟩ := Bool.and_eq_true_iff.mp h
    exact List.forall_mem_cons.mpr ⟨hfirst, ih hrest⟩

theorem mem_waysBranches {text : Array Char} {retry : Bool} {items : List Tree}
    {place next : Nat × Marks} :
    next ∈ Tree.waysBranches text retry items place
      ↔ ∃ item ∈ items, next ∈ item.ways text retry place := by
  induction items with
  | nil => simp [Tree.waysBranches]
  | cons item items ih => simp [Tree.waysBranches, ih]

theorem size_one {text : Array Char} {set : Char → Bool} {place : Nat × Marks} :
    ∀ next ∈ Ways.one text set place, next.1 = place.1 + 1 :=
  Ways.along_one (P := fun place next => next.1 = place.1 + 1) fun _ => rfl

theorem size_exactly {step : Nat × Marks → List (Nat × Marks)} {size : Nat}
    (h : ∀ place, ∀ next ∈ step place, next.1 = place.1 + size) (count : Nat)
    (place : Nat × Marks) :
    ∀ next ∈ Ways.exactly step count place, next.1 = place.1 + size * count := by
  induction count generalizing place with
  | zero =>
    intro next hnext
    rw [List.mem_singleton.mp hnext]
    rfl
  | succ count ih =>
    intro next hnext
    obtain ⟨between, hbetween, hnext⟩ := List.mem_flatMap.mp hnext
    have hfirst := h place between hbetween
    have hrest := ih between next hnext
    rw [Nat.mul_succ]
    omega

end Easy

/-- Where the size is constant, all ways end at the same position. -/
theorem Tree.Fits.size_ways {targets : List Nat} {tree : Tree} (h : tree.Fits targets)
    (hsize : tree.isConstSize = true) (text : Array Char) (retry : Bool) (place : Nat × Marks) :
    ∀ next ∈ tree.ways text retry place, next.1 = place.1 + tree.minSize := by
  induction h generalizing place with
  | empty =>
    intro next hnext
    rw [List.mem_singleton.mp hnext]
    rfl
  | any newline => exact Easy.size_one
  | literal c ignoreCase => exact Easy.size_one
  | set body ignoreCase => exact Easy.size_one
  | anchor sign => exact Ways.along_check (P := fun place next => next.1 = place.1) rfl
  | concat _ ih =>
    have hitems := Easy.isConstSize_of_mem hsize
    exact Easy.size_row (fun item hitem place => ih item hitem (hitems item hitem) place) place
  | alternation _ ih =>
    obtain ⟨hconst, hsame⟩ := Bool.and_eq_true_iff.mp hsize
    intro next hnext
    obtain ⟨branch, hbranch, hnext⟩ := Easy.mem_waysBranches.mp hnext
    rw [Tree.minSize, ← Easy.leastSize_eq hsame branch hbranch]
    exact ih branch hbranch (Easy.isConstSize_of_mem hconst branch hbranch) place next hnext
  | @group index body _ _ ih =>
    obtain ⟨pos, marks⟩ := place
    intro next hnext
    obtain ⟨between, hbetween, rfl⟩ := List.mem_map.mp hnext
    exact ih hsize (pos, marks.begin index pos) between hbetween
  | @repetition min max greedy body _ _ ih =>
    obtain ⟨hconst, hmax⟩ := Bool.and_eq_true_iff.mp hsize
    cases beq_iff_eq.mp hmax
    intro next hnext
    obtain ⟨between, hbetween, hnext⟩ := List.mem_flatMap.mp hnext
    rw [Nat.sub_self] at hnext
    rw [List.mem_singleton.mp hnext]
    exact Easy.size_exactly (ih hconst) min place between hbetween
  | look => exact Ways.along_look (P := fun place next => next.1 = place.1) rfl fun _ _ => rfl
  | backref => cases hsize

/-- What groups have matched stays. -/
def Keeps {σ : Type} (place next : Nat × σ) : Prop := next.2 = place.2

theorem keeps_refl {σ : Type} (place : Nat × σ) : Keeps place place := rfl

theorem keeps_trans {σ : Type} (place between next : Nat × σ) (h : Keeps place between)
    (h' : Keeps between next) : Keeps place next :=
  h'.trans h

/-- Without groups inside, what groups have matched stays. -/
theorem Tree.Fits.keeps_ways {targets : List Nat} {tree : Tree} (h : tree.Fits targets)
    (hgroups : tree.groups = []) (text : Array Char) (retry : Bool) (place : Nat × Marks) :
    Ways.Along Keeps place (tree.ways text retry place) := by
  have hone : ∀ {set : CharSet} {place : Nat × Marks},
      Ways.Along Keeps place (Ways.one text set place) := Ways.along_one fun _ => rfl
  induction h generalizing place with
  | empty => exact Ways.along_single keeps_refl place
  | any newline => exact hone
  | literal c ignoreCase => exact hone
  | set body ignoreCase => exact hone
  | anchor sign => exact Ways.along_check (keeps_refl place)
  | concat _ ih =>
    have hitems := groups_of_mem hgroups
    exact (Easy.along_lists keeps_refl keeps_trans
      (fun item hitem => ih item hitem (hitems item hitem)) place).1
  | alternation _ ih =>
    have hitems := groups_of_mem hgroups
    exact (Easy.along_lists keeps_refl keeps_trans
      (fun item hitem => ih item hitem (hitems item hitem)) place).2
  | group => cases hgroups
  | repetition _ _ ih =>
    exact Ways.along_repeated keeps_refl keeps_trans (ih hgroups) _ retry _ _ _ place
  | @look behind _ body _ _ ih =>
    have hfound : ∀ found ∈ Ways.found behind (body.ways text retry) place,
        found.2 = place.2 := by
      refine Ways.along_found (fun pos _ => ?_) behind
      exact ih hgroups (pos, place.2)
    exact Ways.along_look (keeps_refl place) hfound
  | backref =>
    obtain ⟨pos, marks⟩ := place
    intro next hnext
    unfold Tree.ways Marks.again at hnext
    split at hnext
    · split at hnext
      · rw [List.mem_singleton.mp hnext]
        rfl
      · cases hnext
    · cases hnext

/-! ### What other groups have matched -/

/-- Slots of other groups than those in a list stay. -/
def Spares (groups : List Nat) (place next : Nat × Slots) : Prop :=
  ∀ index, index / 2 ∉ groups → next.2[index]? = place.2[index]?

/-- Marks of other groups than those in a list stay. -/
def SparesMarks (groups : List Nat) (place next : Nat × Marks) : Prop :=
  ∀ group ∉ groups, next.2.began group = place.2.began group ∧
    next.2.ended group = place.2.ended group

section Spares

variable {groups groups' : List Nat}

theorem spares_refl (groups : List Nat) (place : Nat × Slots) : Spares groups place place :=
  fun _ _ => rfl

theorem spares_trans (groups : List Nat) (place between next : Nat × Slots)
    (h : Spares groups place between) (h' : Spares groups between next) :
    Spares groups place next :=
  fun index hindex => (h' index hindex).trans (h index hindex)

theorem Spares.mono {place next : Nat × Slots} (h : Spares groups place next)
    (hsub : ∀ group ∈ groups, group ∈ groups') : Spares groups' place next :=
  fun index hindex => h index fun hmem => hindex (hsub _ hmem)

/-- A slot of a group is filled. -/
theorem spares_set {group index : Nat} (hmem : group ∈ groups) (hindex : index / 2 = group)
    (pos pos' : Nat) (slots : Slots) (value : Option Nat) :
    Spares groups (pos, slots) (pos', slots.setIfInBounds index value) := by
  intro other hother
  refine Array.getElem?_setIfInBounds_ne ?_
  rintro rfl
  exact hother (hindex ▸ hmem)

theorem sparesMarks_refl (groups : List Nat) (place : Nat × Marks) :
    SparesMarks groups place place :=
  fun _ _ => ⟨rfl, rfl⟩

theorem sparesMarks_trans (groups : List Nat) (place between next : Nat × Marks)
    (h : SparesMarks groups place between) (h' : SparesMarks groups between next) :
    SparesMarks groups place next :=
  fun group hgroup => ⟨(h' group hgroup).1.trans (h group hgroup).1,
    (h' group hgroup).2.trans (h group hgroup).2⟩

theorem SparesMarks.mono {place next : Nat × Marks} (h : SparesMarks groups place next)
    (hsub : ∀ group ∈ groups, group ∈ groups') : SparesMarks groups' place next :=
  fun group hgroup => h group fun hmem => hgroup (hsub _ hmem)

end Spares

/-- An easy tree changes what its own groups have matched. -/
theorem Easy.spares_ways {tree : Tree} (h : Easy targets tree) (text : Array Char) (retry : Bool)
    (place : Nat × Marks) :
    Ways.Along (SparesMarks tree.groups) place (tree.ways text retry place) := by
  have hone : ∀ {groups : List Nat} {set : CharSet} {place : Nat × Marks},
      Ways.Along (SparesMarks groups) place (Ways.one text set place) :=
    Ways.along_one fun _ _ _ => ⟨rfl, rfl⟩
  have hsub : ∀ {items : List Tree} {item : Tree}, item ∈ items →
      ∀ group ∈ item.groups, group ∈ Tree.groupsAll items :=
    fun hitem _ hgroup => mem_groupsAll.mpr ⟨_, hitem, hgroup⟩
  induction h generalizing place with
  | empty => exact Ways.along_single (sparesMarks_refl _) place
  | any newline => exact hone
  | literal c ignoreCase => exact hone
  | set body ignoreCase => exact hone
  | anchor sign => exact Ways.along_check (sparesMarks_refl _ place)
  | concat _ ih =>
    exact (along_lists (sparesMarks_refl _) (sparesMarks_trans _) (fun item hitem place next hnext =>
      (ih item hitem place next hnext).mono (hsub hitem)) place).1
  | alternation _ ih =>
    exact (along_lists (sparesMarks_refl _) (sparesMarks_trans _) (fun item hitem place next hnext =>
      (ih item hitem place next hnext).mono (hsub hitem)) place).2
  | @group index body _ _ _ ih =>
    obtain ⟨pos, marks⟩ := place
    intro next hnext group hgroup
    obtain ⟨found, hfound, rfl⟩ := List.mem_map.mp hnext
    obtain ⟨hne, hbody⟩ := not_or.mp (List.mem_cons.not.mp hgroup)
    have hspares := ih (pos, marks.begin index pos) found hfound group hbody
    simpa [Marks.begin, Marks.finish, hne] using hspares
  | repetition _ _ ih =>
    exact Ways.along_repeated (sparesMarks_refl _) (sparesMarks_trans _) ih _ retry _ _ _ place

/-! ### Regular expressions for easy trees -/

/-- A node finds the ways of a tree, if its loops follow the rule of
regular expressions, and it has the groups of the tree. -/
structure StandsFor (node : Node) (tree : Tree) : Prop where
  agree : ∀ (search : Search) (place : Nat × Slots) (place' : Nat × Marks), SamePos place place' →
    Agree SamePos (node.ways search place) (tree.ways search.text false place')
  spares : ∀ (search : Search) (place : Nat × Slots),
    Ways.Along (Spares tree.groups) place (node.ways search place)

namespace StandsFor

theorem char {set : CharSet} {tree : Tree}
    (h : ∀ text place, tree.ways text false place = Ways.one text set place) :
    StandsFor (.char set) tree where
  agree search place place' hplace := by
    rw [h]
    exact Agree.one _ _ hplace (congrArg (· + 1) hplace)
  spares search place := Ways.along_one (P := Spares _) fun _ _ _ => rfl

/-- A row of nodes. -/
theorem row {nodes : List Node} {items : List Tree} (h : List.Forall₂ StandsFor nodes items) :
    StandsFor (.seqAll nodes) (.concat items) := by
  induction h with
  | nil =>
    exact ⟨fun search place place' hplace => Agree.single hplace,
      fun search place => Ways.along_single (spares_refl _) place⟩
  | @cons node item nodes items hfirst _ ih =>
    constructor
    · intro search place place' hplace
      rw [Node.ways_seqAll_cons]
      exact (hfirst.agree search place place' hplace).flatMap fun next next' hnext =>
        ih.agree search next next' hnext
    · intro search place
      rw [Node.ways_seqAll_cons]
      refine Ways.along_flatMap (spares_trans _) (fun next hnext => ?_) fun between next hnext => ?_
      · exact (hfirst.spares search place next hnext).mono fun _ => List.mem_append_left _
      · exact (ih.spares search between next hnext).mono fun _ => List.mem_append_right _

/-- Branches. -/
theorem branches {nodes : List Node} {items : List Tree}
    (h : List.Forall₂ StandsFor nodes items) :
    StandsFor (.altAll nodes) (.alternation items) := by
  induction h with
  | nil =>
    constructor
    · intro search place place' _
      rw [Node.ways_altAll_nil]
      exact Agree.nil
    · intro search place
      rw [Node.ways_altAll_nil]
      exact fun next hnext => nomatch hnext
  | @cons node item nodes items hfirst hrest ih =>
    by_cases hne : nodes = []
    · subst hne
      cases hrest
      refine ⟨fun search place place' hplace => ?_, fun search place next hnext => ?_⟩
      · show Agree SamePos _ (item.ways search.text false place' ++ [])
        rw [List.append_nil]
        exact hfirst.agree search place place' hplace
      · exact (hfirst.spares search place next hnext).mono fun _ => List.mem_append_left _
    · constructor
      · intro search place place' hplace
        rw [Node.ways_altAll_cons search node hne]
        exact (hfirst.agree search place place' hplace).append (ih.agree search place place' hplace)
      · intro search place
        rw [Node.ways_altAll_cons search node hne]
        intro next hnext
        rcases List.mem_append.mp hnext with hnext | hnext
        · exact (hfirst.spares search place next hnext).mono fun _ => List.mem_append_left _
        · exact (ih.spares search place next hnext).mono fun _ => List.mem_append_right _

/-- A group. -/
theorem group {node : Node} {body : Tree} (index : Nat) (h : StandsFor node body) :
    StandsFor (.group index node) (.group index body) where
  agree search place place' hplace := by
    obtain ⟨pos, slots⟩ := place
    obtain ⟨pos', marks⟩ := place'
    have hbody := h.agree search (pos, slots.setIfInBounds (2 * index) (some pos))
      (pos', marks.begin index pos') hplace
    exact hbody.map fun _ _ hsame => hsame
  spares search place := by
    obtain ⟨pos, slots⟩ := place
    intro next hnext
    obtain ⟨found, hfound, rfl⟩ := List.mem_map.mp hnext
    have hmem : index ∈ (Tree.group index body).groups := List.mem_cons_self
    have hbegin := spares_set hmem (by omega : 2 * index / 2 = index) pos pos slots (some pos)
    have hfinish := spares_set hmem (by omega : (2 * index + 1) / 2 = index) found.1 found.1 found.2
      (some found.1)
    have hbody := (h.spares search _ found hfound).mono fun _ => List.mem_cons_of_mem index
    exact spares_trans _ _ _ _ hbegin (spares_trans _ _ _ _ hbody hfinish)

/-- A repetition. -/
theorem repetition {node : Node} {body : Tree} {min : Nat} {max : Option Nat} (greedy : Bool)
    (hmax : ∀ most ∈ max, min ≤ most) (h : StandsFor node body) :
    StandsFor (.loop min max greedy node) (.repetition min max greedy body) where
  agree search _ _ hplace := Node.agree_loop search greedy hmax (h.agree search) hplace
  spares search := Node.along_loop search greedy hmax (spares_refl _) (spares_trans _)
    (h.spares search)

end StandsFor

/-- The regular expressions of trees in a list. -/
theorem forall_regularAll {items : List Tree} {nodes : List Node}
    (h : ∀ item ∈ items, ∀ node, item.regular? = some node → StandsFor node item)
    (hnodes : Tree.regularAll? items = some nodes) : List.Forall₂ StandsFor nodes items := by
  induction items generalizing nodes with
  | nil =>
    cases hnodes
    exact .nil
  | cons item items ih =>
    obtain ⟨node, hnode, hnodes⟩ := Option.bind_eq_some_iff.mp hnodes
    obtain ⟨rest, hrest, hnodes⟩ := Option.bind_eq_some_iff.mp hnodes
    cases hnodes
    exact .cons (h item List.mem_cons_self node hnode)
      (ih (fun other hother => h other (List.mem_cons_of_mem item hother)) hrest)

/-- The regular expression of an easy tree stands for it. -/
theorem Easy.standsFor {tree : Tree} (h : Easy targets tree) {node : Node}
    (hnode : tree.regular? = some node) : StandsFor node tree := by
  induction h generalizing node with
  | empty =>
    cases hnode
    exact ⟨fun _ _ _ hplace => Agree.single hplace,
      fun _ place => Ways.along_single (spares_refl _) place⟩
  | any newline =>
    cases hnode
    exact .char fun _ _ => rfl
  | literal c ignoreCase =>
    cases hnode
    exact .char fun _ _ => rfl
  | set body ignoreCase =>
    obtain ⟨members, hmembers, rfl⟩ := Option.map_eq_some_iff.mp hnode
    refine .char fun text place => ?_
    rw [Tree.ways, Tree.setMembers, hmembers]
    rfl
  | anchor sign =>
    cases hnode
    constructor
    · intro search place place' hplace
      show Agree SamePos (Ways.check _ place) (Ways.check _ place')
      rw [← show place.1 = place'.1 from hplace]
      exact Agree.check _ hplace
    · exact fun search place => Ways.along_check (P := Spares _) (spares_refl _ place)
  | concat _ ih =>
    obtain ⟨nodes, hnodes, rfl⟩ := Option.map_eq_some_iff.mp hnode
    exact .row (forall_regularAll (fun item hitem node => ih item hitem) hnodes)
  | alternation _ ih =>
    obtain ⟨nodes, hnodes, rfl⟩ := Option.map_eq_some_iff.mp hnode
    exact .branches (forall_regularAll (fun item hitem node => ih item hitem) hnodes)
  | group _ _ _ ih =>
    obtain ⟨inner, hinner, rfl⟩ := Option.map_eq_some_iff.mp hnode
    exact .group _ (ih hinner)
  | @repetition min max greedy body hmax _ ih =>
    obtain ⟨inner, hinner, hnode⟩ := Option.bind_eq_some_iff.mp hnode
    split at hnode
    · cases hnode
    · have hloop : some (Node.loop min max greedy inner) = some node := by
        rw [← hnode]
        unfold Node.loop
        split <;> rfl
      cases hloop
      exact .repetition greedy hmax (ih hinner)

end Highlighter.Regex.Extended
