import Highlighter.Proofs.Regex.Extended.Plan
import Highlighter.Proofs.Regex.Regular.Becoming

/-!
# Trees that can be matched

Which trees have a plan is told from their parts, one by one. `isSound` asks that sets are known
and that look behind has a body of known sizes, `isCounted` that the bounds of a repetition are in
order, and `isLight` that what is matched in one go is not too large. Where all parts of a tree are
so, it has a plan, whatever groups are referred to and whether or not it is part of a hard one
(`hasPlan`).

In turn, the parts of a tree that has a plan are sound (`soundIfPlanned`). They need not be counted:
in a hard tree, nothing asks for the order of bounds.
-/

set_option autoImplicit false

namespace Highlighter.Regex.Extended

namespace Tree

/-! ### All parts of a tree -/

mutual

/-- Whether a tree and all its parts pass a test. -/
def everywhere (test : Tree → Bool) : Tree → Bool
  | concat items => test (concat items) && everywhereAll test items
  | alternation branches => test (alternation branches) && everywhereAll test branches
  | group index body => test (group index body) && body.everywhere test
  | repetition min max greedy body =>
    test (repetition min max greedy body) && body.everywhere test
  | look behind negated body => test (look behind negated body) && body.everywhere test
  | atomic body => test (atomic body) && body.everywhere test
  | cond condition yes no => test (cond condition yes no) &&
    (condition.everywhere test && yes.everywhere test && no.everywhere test)
  | tree => test tree

/-- `everywhere` for several trees. -/
def everywhereAll (test : Tree → Bool) : List Tree → Bool
  | [] => true
  | item :: rest => item.everywhere test && everywhereAll test rest

end

section Everywhere

variable {test : Tree → Bool} {items branches : List Tree} {body tree : Tree}

theorem everywhereAll_iff :
    everywhereAll test items = true ↔ ∀ item ∈ items, item.everywhere test = true := by
  induction items with
  | nil => simp [everywhereAll]
  | cons item rest ih => simp [everywhereAll, ih]

theorem everywhere_concat : (concat items).everywhere test = true
    ↔ test (concat items) = true ∧ ∀ item ∈ items, item.everywhere test = true := by
  rw [everywhere, Bool.and_eq_true, everywhereAll_iff]

theorem everywhere_alternation : (alternation branches).everywhere test = true
    ↔ test (alternation branches) = true ∧ ∀ branch ∈ branches, branch.everywhere test = true := by
  rw [everywhere, Bool.and_eq_true, everywhereAll_iff]

section Both

variable {other : Tree → Bool}

mutual

theorem everywhere_and : (tree : Tree) →
    tree.everywhere (fun part => test part && other part)
      = (tree.everywhere test && tree.everywhere other)
  | empty | any _ | literal _ _ | set _ _ | anchor _ | backref _ | keepOut | searchStart
  | groupSet _ => rfl
  | concat items => by
    rw [everywhere, everywhere, everywhere, everywhereAll_and items]
    ac_rfl
  | alternation branches => by
    rw [everywhere, everywhere, everywhere, everywhereAll_and branches]
    ac_rfl
  | group _ body | repetition _ _ _ body | look _ _ body | atomic body => by
    rw [everywhere, everywhere, everywhere, everywhere_and body]
    ac_rfl
  | cond condition yes no => by
    rw [everywhere, everywhere, everywhere, everywhere_and condition, everywhere_and yes,
      everywhere_and no]
    ac_rfl

theorem everywhereAll_and : (items : List Tree) →
    everywhereAll (fun part => test part && other part) items
      = (everywhereAll test items && everywhereAll other items)
  | [] => rfl
  | item :: rest => by
    rw [everywhereAll, everywhereAll, everywhereAll, everywhere_and item, everywhereAll_and rest]
    ac_rfl

end

end Both

/-- A tree passes what all its parts do. -/
theorem test_of_everywhere (h : tree.everywhere test = true) : test tree = true := by
  cases tree <;> first | exact h | exact (Bool.and_eq_true_iff.mp h).1

theorem everywhere_of_ofItems (h : (ofItems items).everywhere test = true) :
    ∀ item ∈ items, item.everywhere test = true := by
  rcases items with _ | ⟨item, _ | ⟨second, rest⟩⟩
  · exact List.forall_mem_nil _
  · exact List.forall_mem_singleton.mpr h
  · exact (everywhere_concat.mp h).2

theorem everywhere_ofItems (hempty : test empty = true)
    (hconcat : test (concat items) = true) (h : ∀ item ∈ items, item.everywhere test = true) :
    (ofItems items).everywhere test = true := by
  rcases items with _ | ⟨item, _ | ⟨second, rest⟩⟩
  · exact hempty
  · exact h item List.mem_cons_self
  · exact everywhere_concat.mpr ⟨hconcat, h⟩

end Everywhere

/-! ### What is asked of the parts -/

/-- Whether the body of a look behind has a known size, or branches that each have one. -/
def endsKnown : Tree → Bool
  | alternation branches => allConstSize branches
  | tree => tree.isConstSize

/-- Whether a tree is a set that is known, or a look behind over sizes that are. -/
def isSound : Tree → Bool
  | set body _ => (body.meaning? ⟨false, true⟩).isSome
  | look true _ body => body.endsKnown
  | _ => true

/-- Whether the bounds of a repetition are in order. -/
def isCounted : Tree → Bool
  | repetition min max _ _ => decide (min ≤ max.getD min) && decide (max.getD min ≤ maxCount)
  | _ => true

/-- Whether a tree is sound and counted. -/
def isFit (tree : Tree) : Bool := tree.isSound && tree.isCounted

/-- Whether a tree is not too large where it is matched in one go, alone or in a row. -/
def isLight (targets : List Nat) : Tree → Bool
  | concat items => decide (weightAll (items.filter fun item => !item.isHard targets) ≤ maxWeight)
  | tree => tree.isHard targets || decide (tree.weight ≤ maxWeight)

theorem endsKnown_of_isConstSize {tree : Tree} (h : tree.isConstSize = true) :
    tree.endsKnown = true := by
  cases tree <;> first | exact h | exact (Bool.and_eq_true_iff.mp h).1

theorem forall_of_allConstSize {items : List Tree} :
    allConstSize items = true ↔ ∀ item ∈ items, item.isConstSize = true := by
  induction items with
  | nil => simp [allConstSize]
  | cons item rest ih => simp [allConstSize, ih]

theorem forall_of_not_anyHard {targets : List Nat} {items : List Tree} :
    anyHard targets items = false ↔ ∀ item ∈ items, item.isHard targets = false := by
  induction items with
  | nil => simp [anyHard]
  | cons item rest ih => simp [anyHard, ih]

theorem isSome_set (body : ClassSet) (ignoreCase : Bool) :
    ((set body ignoreCase).regular?).isSome = (set body ignoreCase).isSound := by
  rw [regular?, Option.isSome_map, isSound]
  exact body.isSome_meaning false ignoreCase true

/-! ### In one go -/

variable {targets : List Nat} {items : List Tree} {tree : Tree}

mutual

/-- A regular expression stands for a tree that is not hard. -/
theorem isSome_regular : (tree : Tree) → tree.isHard targets = false →
    tree.everywhere isFit = true → (tree.regular?).isSome = true
  | empty, _, _ | any _, _, _ | literal _ _, _, _ | anchor _, _, _ => rfl
  | set body ignoreCase, _, hfit =>
    (isSome_set body ignoreCase).trans (Bool.and_eq_true_iff.mp hfit).1
  | concat items, heasy, hfit => by
    rw [regular?, Option.isSome_map]
    exact isSome_regularAll items (forall_of_not_anyHard.mp heasy) (everywhere_concat.mp hfit).2
  | alternation branches, heasy, hfit => by
    rw [regular?, Option.isSome_map]
    exact isSome_regularAll branches (forall_of_not_anyHard.mp heasy)
      (everywhere_alternation.mp hfit).2
  | group index body, heasy, hfit => by
    rw [regular?, Option.isSome_map]
    exact isSome_regular body (Bool.or_eq_false_iff.mp heasy).2 (Bool.and_eq_true_iff.mp hfit).2
  | repetition min max greedy body, heasy, hfit => by
    obtain ⟨hbounds, hfit⟩ := Bool.and_eq_true_iff.mp hfit
    obtain ⟨hle, hmost⟩ := Bool.and_eq_true_iff.mp (Bool.and_eq_true_iff.mp hbounds).2
    have hinside : (decide (maxCount < max.getD min) || decide (max.getD min < min)) = false := by
      rw [Bool.or_eq_false_iff, decide_eq_false_iff_not, decide_eq_false_iff_not]
      exact ⟨Nat.not_lt.mpr (of_decide_eq_true hmost), Nat.not_lt.mpr (of_decide_eq_true hle)⟩
    obtain ⟨node, hnode⟩ := Option.isSome_iff_exists.mp (isSome_regular body heasy hfit)
    rw [regular?, hnode]
    simp only [bind, Option.bind_some, hinside, Bool.false_eq_true, if_false]
    split <;> rfl
  | look _ _ _, heasy, _ | backref _, heasy, _ | atomic _, heasy, _ | keepOut, heasy, _
  | searchStart, heasy, _ | groupSet _, heasy, _ | cond _ _ _, heasy, _ => by cases heasy

theorem isSome_regularAll : (items : List Tree) → (∀ item ∈ items, item.isHard targets = false) →
    (∀ item ∈ items, item.everywhere isFit = true) → (regularAll? items).isSome = true
  | [], _, _ => rfl
  | item :: rest, heasy, hfit => by
    obtain ⟨heasy, heasys⟩ := List.forall_mem_cons.mp heasy
    obtain ⟨hfit, hfits⟩ := List.forall_mem_cons.mp hfit
    obtain ⟨node, hnode⟩ := Option.isSome_iff_exists.mp (isSome_regular item heasy hfit)
    obtain ⟨nodes, hnodes⟩ := Option.isSome_iff_exists.mp (isSome_regularAll rest heasys hfits)
    rw [regularAll?, hnode, hnodes]
    rfl

end

theorem isSome_inOneGo (heasy : ∀ item ∈ items, item.isHard targets = false)
    (hfit : ∀ item ∈ items, item.everywhere isFit = true) (hweight : weightAll items ≤ maxWeight) :
    (inOneGo? items).isSome = true := by
  rw [inOneGo_eq, if_neg (Nat.not_lt.mpr hweight), Option.isSome_map]
  exact isSome_regularAll items heasy hfit

theorem weightAll_le_of_sublist {part : List Tree} (h : part.Sublist items) :
    weightAll part ≤ weightAll items := by
  induction h with
  | slnil => exact Nat.le_refl _
  | cons item _ ih => exact Nat.le_trans ih (Nat.le_add_left _ _)
  | cons_cons item _ ih => exact Nat.add_le_add_left ih _

/-- What is matched in one go in a row is not too large if all that is not hard in it is not. -/
theorem weightAll_easy_le {part : List Tree} (h : part.Sublist items)
    (heasy : ∀ item ∈ part, item.isHard targets = false) :
    weightAll part ≤ weightAll (items.filter fun item => !item.isHard targets) := by
  have hsame : part.filter (fun item => !item.isHard targets) = part :=
    List.filter_eq_self.mpr fun item hitem => by rw [heasy item hitem, Bool.not_false]
  rw [← hsame]
  exact weightAll_le_of_sublist (h.filter _)

theorem isSome_endNodes {part : List Tree} (hpart : part.Sublist items)
    (hlight : isLight targets (concat items) = true)
    (heasy : ∀ item ∈ part, item.isHard targets = false)
    (hfit : ∀ item ∈ items, item.everywhere isFit = true) :
    (endNodes? part).isSome = true := by
  unfold endNodes?
  split
  · rfl
  · rw [Option.isSome_map]
    exact isSome_inOneGo heasy (fun item hitem => hfit item (hpart.subset hitem))
      (Nat.le_trans (weightAll_easy_le hpart heasy) (of_decide_eq_true hlight))

/-! ### Plans -/

/-- A tree whose parts all can be matched. -/
structure CanMatch (targets : List Nat) (tree : Tree) : Prop where
  fit : tree.everywhere isFit = true
  light : tree.everywhere (isLight targets) = true

/-- A tree has a plan in every place. -/
def HasPlan (targets : List Nat) (tree : Tree) : Prop :=
  ∀ hard, (tree.plan? targets hard).isSome = true

namespace CanMatch

/-- What all parts of a tree pass, a part of it passes. -/
theorem part {whole : Tree} (h : CanMatch targets whole)
    (hpart : ∀ test, whole.everywhere test = true → tree.everywhere test = true) :
    CanMatch targets tree :=
  ⟨hpart _ h.fit, hpart _ h.light⟩

theorem of_mem_row (h : CanMatch targets (concat items)) :
    ∀ item ∈ items, CanMatch targets item := fun item hitem =>
  h.part fun _ htest => (everywhere_concat.mp htest).2 item hitem

theorem of_mem_branches (h : CanMatch targets (alternation items)) :
    ∀ item ∈ items, CanMatch targets item := fun item hitem =>
  h.part fun _ htest => (everywhere_alternation.mp htest).2 item hitem

/-- A single tree that is not hard is matched in one go. -/
theorem isSome_oneGo (h : CanMatch targets tree) {hard isHard : Bool}
    (hwhole : (!hard && !isHard) = true) (hhard : tree.isHard targets = isHard) :
    (inOneGo? [tree]).isSome = true := by
  have heasy : tree.isHard targets = false := by
    rw [hhard]
    simpa using (Bool.and_eq_true_iff.mp hwhole).2
  have hweight : tree.weight ≤ maxWeight := by
    have hlight := test_of_everywhere h.light
    cases tree with
    | concat items =>
      have hall : items.filter (fun item => !item.isHard targets) = items :=
        List.filter_eq_self.mpr fun item hitem => by
          rw [forall_of_not_anyHard.mp heasy item hitem, Bool.not_false]
      rw [isLight, hall] at hlight
      exact of_decide_eq_true hlight
    | _ =>
      rw [isLight, heasy, Bool.false_or] at hlight
      · exact of_decide_eq_true hlight
      · exact nofun
  exact isSome_inOneGo (List.forall_mem_singleton.mpr heasy) (List.forall_mem_singleton.mpr h.fit)
    hweight

end CanMatch

theorem isSome_planAll (h : ∀ item ∈ items, HasPlan targets item) (hard : Bool) :
    (planAll? targets hard items).isSome = true := by
  induction items with
  | nil => rfl
  | cons item rest ih =>
    obtain ⟨hitem, hrest⟩ := List.forall_mem_cons.mp h
    obtain ⟨node, hnode⟩ := Option.isSome_iff_exists.mp (hitem hard)
    obtain ⟨nodes, hnodes⟩ := Option.isSome_iff_exists.mp (ih hrest)
    rw [planAll?, hnode, hnodes]
    rfl

theorem isSome_planBehind (h : ∀ item ∈ items, HasPlan targets item)
    (hconst : ∀ item ∈ items, item.isConstSize = true) (negated : Bool) :
    (planBehind? targets negated items).isSome = true := by
  induction items with
  | nil => rfl
  | cons item rest ih =>
    obtain ⟨hitem, hrest⟩ := List.forall_mem_cons.mp h
    obtain ⟨hsize, hsizes⟩ := List.forall_mem_cons.mp hconst
    obtain ⟨node, hnode⟩ := Option.isSome_iff_exists.mp (hitem false)
    obtain ⟨nodes, hnodes⟩ := Option.isSome_iff_exists.mp (ih hrest hsizes)
    rw [planBehind_cons, if_pos hsize, hnode, hnodes]
    rfl

theorem hasPlan_row (h : CanMatch targets (concat items))
    (hplan : ∀ item ∈ items, HasPlan targets item) : HasPlan targets (concat items) := by
  intro hard
  rw [plan?]
  split
  · exact h.isSome_oneGo ‹_› rfl
  · obtain ⟨first, middle, last, -, hfirst, hmiddle, hlast, heasy, heasy'⟩ :=
      row_parts targets hard items
    have hlight := (everywhere_concat.mp h.light).1
    have hfit := (everywhere_concat.mp h.fit).2
    have hnodes : (planAll? targets true middle).isSome = true := by
      refine isSome_planAll (fun item hitem => hplan item ?_) true
      rw [hmiddle] at hitem
      exact List.mem_of_mem_drop (List.mem_of_mem_take hitem)
    obtain ⟨nodes, hnodes⟩ := Option.isSome_iff_exists.mp hnodes
    obtain ⟨starts, hstarts⟩ := Option.isSome_iff_exists.mp (isSome_endNodes
      (hfirst ▸ List.take_sublist _ _) hlight (fun item hitem => (heasy item hitem).2) hfit)
    obtain ⟨ends, hends⟩ := Option.isSome_iff_exists.mp (isSome_endNodes
      (hlast ▸ List.drop_sublist _ _) hlight (fun item hitem => (heasy' item hitem).2) hfit)
    simp only [planRow_eq, ← hmiddle, hnodes, bind, Option.bind_some, aroundRow_eq, ← hfirst,
      hstarts, ← hlast, hends, Option.map_some]
    rfl

theorem hasPlan_branches (h : CanMatch targets (alternation items))
    (hplan : ∀ item ∈ items, HasPlan targets item) : HasPlan targets (alternation items) := by
  intro hard
  rw [plan?]
  split
  · exact h.isSome_oneGo ‹_› rfl
  · rw [Option.isSome_map]
    exact isSome_planAll hplan hard

theorem hasPlan_repetition {min : Nat} {max : Option Nat} {greedy : Bool}
    (h : CanMatch targets (repetition min max greedy tree)) (hplan : HasPlan targets tree) :
    HasPlan targets (repetition min max greedy tree) := by
  intro hard
  rw [plan?]
  split
  · exact h.isSome_oneGo ‹_› rfl
  · split <;>
    · rw [Option.isSome_map]
      exact hplan _

theorem hasPlan_behind {negated : Bool} (h : tree.endsKnown = true) (hplan : HasPlan targets tree)
    (hbranches : ∀ branches, tree = alternation branches →
      ∀ branch ∈ branches, HasPlan targets branch) :
    HasPlan targets (look true negated tree) := by
  intro hard
  by_cases hconst : tree.isConstSize = true
  · by_cases hshape : ∃ branches, tree = alternation branches
    · obtain ⟨branches, rfl⟩ := hshape
      rw [plan_behind_const hard negated hconst, Option.isSome_map]
      exact hplan false
    · rw [plan_behind hard negated fun branches heq => hshape ⟨branches, heq⟩, if_pos hconst,
        Option.isSome_map]
      exact hplan false
  · cases tree with
    | alternation branches =>
      rw [plan?, if_neg hconst, Option.isSome_map]
      exact isSome_planBehind (hbranches branches rfl) (forall_of_allConstSize.mp h) negated
    | _ => exact absurd h hconst

mutual

/-- A tree whose parts all can be matched has a plan. -/
theorem hasPlan : (tree : Tree) → CanMatch targets tree → HasPlan targets tree
  | empty, _, _ | any _, _, _ | literal _ _, _, _ | anchor _, _, _ | backref _, _, _
  | keepOut, _, _ | searchStart, _, _ | groupSet _, _, _ => rfl
  | set body ignoreCase, h, _ =>
    (isSome_set body ignoreCase).trans (Bool.and_eq_true_iff.mp h.fit).1
  | concat items, h, hard => hasPlan_row h (hasPlan_all items h.of_mem_row) hard
  | alternation branches, h, hard =>
    hasPlan_branches h (hasPlan_all branches h.of_mem_branches) hard
  | group index body, h, hard => by
    have hbody : CanMatch targets body := h.part fun _ htest => (Bool.and_eq_true_iff.mp htest).2
    rw [plan?]
    split
    · exact h.isSome_oneGo ‹_› rfl
    · rw [Option.isSome_map]
      exact hasPlan body hbody hard
  | repetition min max greedy body, h, hard =>
    have hbody : CanMatch targets body := h.part fun _ htest => (Bool.and_eq_true_iff.mp htest).2
    hasPlan_repetition h (hasPlan body hbody) hard
  | look false negated body, h, _ => by
    have hbody : CanMatch targets body := h.part fun _ htest => (Bool.and_eq_true_iff.mp htest).2
    rw [plan?, Option.isSome_map]
    exact hasPlan body hbody false
  | look true negated body, h, hard =>
    have hbody : CanMatch targets body := h.part fun _ htest => (Bool.and_eq_true_iff.mp htest).2
    have hends : body.endsKnown = true :=
      (Bool.and_eq_true_iff.mp (Bool.and_eq_true_iff.mp h.fit).1).1
    hasPlan_behind hends (hasPlan body hbody) (match body, hbody with
      | alternation branches, hbody => fun _ heq => by
        cases heq
        exact hasPlan_all branches hbody.of_mem_branches
      | empty, _ | any _, _ | literal _ _, _ | set _ _, _ | anchor _, _ | concat _, _
      | group _ _, _ | repetition _ _ _ _, _ | look _ _ _, _ | backref _, _ | atomic _, _
      | keepOut, _ | searchStart, _ | groupSet _, _ | cond _ _ _, _ =>
        fun _ heq => nomatch heq) hard
  | atomic body, h, _ => by
    have hbody : CanMatch targets body := h.part fun _ htest => (Bool.and_eq_true_iff.mp htest).2
    rw [plan?, Option.isSome_map]
    exact hasPlan body hbody false
  | cond condition yes no, h, hard => by
    have hparts : ∀ test, (cond condition yes no).everywhere test = true →
        condition.everywhere test = true ∧ yes.everywhere test = true ∧
          no.everywhere test = true := by
      intro test htest
      simp only [everywhere, Bool.and_eq_true] at htest
      exact ⟨htest.2.1.1, htest.2.1.2, htest.2.2⟩
    obtain ⟨conditionNode, hcondition⟩ := Option.isSome_iff_exists.mp
      (hasPlan condition (h.part fun test htest => (hparts test htest).1) hard)
    obtain ⟨yesNode, hyes⟩ := Option.isSome_iff_exists.mp
      (hasPlan yes (h.part fun test htest => (hparts test htest).2.1) hard)
    obtain ⟨noNode, hno⟩ := Option.isSome_iff_exists.mp
      (hasPlan no (h.part fun test htest => (hparts test htest).2.2) hard)
    rw [plan?, hcondition, hyes, hno]
    rfl

theorem hasPlan_all : (items : List Tree) → (∀ item ∈ items, CanMatch targets item) →
    ∀ item ∈ items, HasPlan targets item
  | [], _ => fun _ hitem => absurd hitem List.not_mem_nil
  | item :: rest, h =>
    have ⟨hitem, hrest⟩ := List.forall_mem_cons.mp h
    List.forall_mem_cons.mpr ⟨hasPlan item hitem, hasPlan_all rest hrest⟩

end

/-! ### What has a plan is sound -/

mutual

/-- A tree that a regular expression stands for is sound. -/
theorem isSound_of_regular : (tree : Tree) → (tree.regular?).isSome = true →
    tree.everywhere isSound = true
  | empty, _ | any _, _ | literal _ _, _ | anchor _, _ => rfl
  | set body ignoreCase, h => (isSome_set body ignoreCase).symm.trans h
  | concat items, h => by
    rw [regular?, Option.isSome_map] at h
    exact everywhere_concat.mpr ⟨rfl, isSound_of_regularAll items h⟩
  | alternation branches, h => by
    rw [regular?, Option.isSome_map] at h
    exact everywhere_alternation.mpr ⟨rfl, isSound_of_regularAll branches h⟩
  | group index body, h => by
    rw [regular?, Option.isSome_map] at h
    exact isSound_of_regular body h
  | repetition min max greedy body, h => by
    obtain ⟨node, hnode⟩ := Option.isSome_iff_exists.mp h
    obtain ⟨inner, hinner, -⟩ := Option.bind_eq_some_iff.mp hnode
    exact isSound_of_regular body (Option.isSome_of_eq_some hinner)
  | look _ _ _, h | backref _, h | atomic _, h | keepOut, h | searchStart, h | groupSet _, h
  | cond _ _ _, h => by cases h

theorem isSound_of_regularAll : (items : List Tree) → (regularAll? items).isSome = true →
    ∀ item ∈ items, item.everywhere isSound = true
  | [], _ => List.forall_mem_nil _
  | item :: rest, h => by
    obtain ⟨nodes, hnodes⟩ := Option.isSome_iff_exists.mp h
    obtain ⟨node, hnode, hnodes⟩ := Option.bind_eq_some_iff.mp hnodes
    obtain ⟨others, hothers, -⟩ := Option.bind_eq_some_iff.mp hnodes
    exact List.forall_mem_cons.mpr ⟨isSound_of_regular item (Option.isSome_of_eq_some hnode),
      isSound_of_regularAll rest (Option.isSome_of_eq_some hothers)⟩

end

theorem isSound_of_inOneGo (h : (inOneGo? items).isSome = true) :
    ∀ item ∈ items, item.everywhere isSound = true := by
  rw [inOneGo_eq] at h
  split at h
  · cases h
  · rw [Option.isSome_map] at h
    exact isSound_of_regularAll items h

theorem isSound_of_oneGo (h : (inOneGo? [tree]).isSome = true) : tree.everywhere isSound = true :=
  isSound_of_inOneGo h tree (List.mem_singleton.mpr rfl)

theorem isSound_of_endNodes (h : (endNodes? items).isSome = true) :
    ∀ item ∈ items, item.everywhere isSound = true := by
  unfold endNodes? at h
  split at h
  · rename_i hempty
    rw [List.isEmpty_iff.mp hempty]
    exact List.forall_mem_nil _
  · rw [Option.isSome_map] at h
    exact isSound_of_inOneGo h

/-- A tree is sound if it has a plan in some place. -/
def SoundIfPlanned (targets : List Nat) (tree : Tree) : Prop :=
  ∀ hard, (tree.plan? targets hard).isSome = true → tree.everywhere isSound = true

theorem isSound_of_planAll {hard : Bool} (h : ∀ item ∈ items, SoundIfPlanned targets item)
    (hplan : (planAll? targets hard items).isSome = true) :
    ∀ item ∈ items, item.everywhere isSound = true := by
  induction items with
  | nil => exact List.forall_mem_nil _
  | cons item rest ih =>
    obtain ⟨hitem, hrest⟩ := List.forall_mem_cons.mp h
    obtain ⟨nodes, hnodes⟩ := Option.isSome_iff_exists.mp hplan
    obtain ⟨node, hnode, hnodes⟩ := Option.bind_eq_some_iff.mp hnodes
    obtain ⟨others, hothers, -⟩ := Option.bind_eq_some_iff.mp hnodes
    exact List.forall_mem_cons.mpr ⟨hitem hard (Option.isSome_of_eq_some hnode),
      ih hrest (Option.isSome_of_eq_some hothers)⟩

theorem isSound_of_planBehind {negated : Bool} (h : ∀ item ∈ items, SoundIfPlanned targets item)
    (hplan : (planBehind? targets negated items).isSome = true) :
    ∀ item ∈ items, item.isConstSize = true ∧ item.everywhere isSound = true := by
  induction items with
  | nil => exact List.forall_mem_nil _
  | cons item rest ih =>
    obtain ⟨hitem, hrest⟩ := List.forall_mem_cons.mp h
    rw [planBehind_cons] at hplan
    split at hplan
    · obtain ⟨nodes, hnodes⟩ := Option.isSome_iff_exists.mp hplan
      obtain ⟨node, hnode, hnodes⟩ := Option.bind_eq_some_iff.mp hnodes
      obtain ⟨others, hothers, -⟩ := Option.map_eq_some_iff.mp hnodes
      exact List.forall_mem_cons.mpr ⟨⟨‹_›, hitem false (Option.isSome_of_eq_some hnode)⟩,
        ih hrest (Option.isSome_of_eq_some hothers)⟩
    · cases hplan

theorem soundIfPlanned_row (h : ∀ item ∈ items, SoundIfPlanned targets item) :
    SoundIfPlanned targets (concat items) := by
  intro hard hplan
  rw [plan?] at hplan
  split at hplan
  · exact isSound_of_oneGo hplan
  · obtain ⟨first, middle, last, hitems, hfirst, hmiddle, hlast, -, -⟩ :=
      row_parts targets hard items
    obtain ⟨node, hnode⟩ := Option.isSome_iff_exists.mp hplan
    obtain ⟨nodes, hnodes, hnode⟩ := Option.bind_eq_some_iff.mp hnode
    rw [aroundRow_eq, ← hfirst, ← hlast] at hnode
    obtain ⟨starts, hstarts, hnode⟩ := Option.bind_eq_some_iff.mp hnode
    obtain ⟨ends, hends, -⟩ := Option.map_eq_some_iff.mp hnode
    rw [planRow_eq, ← hmiddle] at hnodes
    refine everywhere_concat.mpr ⟨rfl, ?_⟩
    have hmem : ∀ item ∈ middle, item ∈ items := fun item hitem => by
      rw [hmiddle] at hitem
      exact List.mem_of_mem_drop (List.mem_of_mem_take hitem)
    rw [hitems]
    refine List.forall_mem_append.mpr ⟨isSound_of_endNodes (Option.isSome_of_eq_some hstarts),
      List.forall_mem_append.mpr ⟨?_, isSound_of_endNodes (Option.isSome_of_eq_some hends)⟩⟩
    exact isSound_of_planAll (fun item hitem => h item (hmem item hitem))
      (Option.isSome_of_eq_some hnodes)

theorem soundIfPlanned_branches (h : ∀ item ∈ items, SoundIfPlanned targets item) :
    SoundIfPlanned targets (alternation items) := by
  intro hard hplan
  rw [plan?] at hplan
  split at hplan
  · exact isSound_of_oneGo hplan
  · rw [Option.isSome_map] at hplan
    exact everywhere_alternation.mpr ⟨rfl, isSound_of_planAll h hplan⟩

theorem soundIfPlanned_behind {negated : Bool} (h : SoundIfPlanned targets tree)
    (hbranches : ∀ branches, tree = alternation branches →
      ∀ branch ∈ branches, SoundIfPlanned targets branch) :
    SoundIfPlanned targets (look true negated tree) := by
  intro hard hplan
  by_cases hconst : tree.isConstSize = true
  · have hbody : (tree.plan? targets false).isSome = true := by
      by_cases hshape : ∃ branches, tree = alternation branches
      · obtain ⟨branches, rfl⟩ := hshape
        rwa [plan_behind_const hard negated hconst, Option.isSome_map] at hplan
      · rwa [plan_behind hard negated fun branches heq => hshape ⟨branches, heq⟩, if_pos hconst,
          Option.isSome_map] at hplan
    exact Bool.and_eq_true_iff.mpr ⟨endsKnown_of_isConstSize hconst, h false hbody⟩
  · cases tree with
    | alternation branches =>
      rw [plan?, if_neg hconst, Option.isSome_map] at hplan
      have hall := isSound_of_planBehind (hbranches branches rfl) hplan
      refine Bool.and_eq_true_iff.mpr ⟨forall_of_allConstSize.mpr fun branch hbranch =>
        (hall branch hbranch).1, everywhere_alternation.mpr ⟨rfl, fun branch hbranch =>
        (hall branch hbranch).2⟩⟩
    | _ =>
      rw [plan_behind hard negated (fun _ heq => by cases heq), if_neg hconst] at hplan
      cases hplan

mutual

/-- A tree that has a plan is sound. -/
theorem soundIfPlanned : (tree : Tree) → SoundIfPlanned targets tree
  | empty, _, _ | any _, _, _ | literal _ _, _, _ | anchor _, _, _ | backref _, _, _
  | keepOut, _, _ | searchStart, _, _ | groupSet _, _, _ => rfl
  | set body ignoreCase, _, h => (isSome_set body ignoreCase).symm.trans h
  | concat items, hard, h => soundIfPlanned_row (soundIfPlanned_all items) hard h
  | alternation branches, hard, h => soundIfPlanned_branches (soundIfPlanned_all branches) hard h
  | group index body, hard, h => by
    rw [plan?] at h
    split at h
    · exact isSound_of_oneGo h
    · rw [Option.isSome_map] at h
      exact soundIfPlanned body hard h
  | repetition min max greedy body, hard, h => by
    rw [plan?] at h
    split at h
    · exact isSound_of_oneGo h
    · split at h
      · rw [Option.isSome_map] at h
        exact soundIfPlanned body _ h
      · rw [Option.isSome_map] at h
        exact soundIfPlanned body _ h
  | look false negated body, _, h => by
    rw [plan?, Option.isSome_map] at h
    exact soundIfPlanned body false h
  | look true negated body, hard, h =>
    soundIfPlanned_behind (soundIfPlanned body) (match body with
      | alternation branches => fun _ heq => by
        cases heq
        exact soundIfPlanned_all branches
      | empty | any _ | literal _ _ | set _ _ | anchor _ | concat _ | group _ _
      | repetition _ _ _ _ | look _ _ _ | backref _ | atomic _ | keepOut | searchStart | groupSet _
      | cond _ _ _ => fun _ heq => nomatch heq) hard h
  | atomic body, _, h => by
    rw [plan?, Option.isSome_map] at h
    exact soundIfPlanned body false h
  | cond condition yes no, hard, h => by
    obtain ⟨node, hnode⟩ := Option.isSome_iff_exists.mp h
    obtain ⟨conditionNode, hcondition, hnode⟩ := Option.bind_eq_some_iff.mp hnode
    obtain ⟨yesNode, hyes, hnode⟩ := Option.bind_eq_some_iff.mp hnode
    obtain ⟨noNode, hno, -⟩ := Option.bind_eq_some_iff.mp hnode
    simp only [everywhere, Bool.and_eq_true]
    exact ⟨rfl, ⟨soundIfPlanned condition hard (Option.isSome_of_eq_some hcondition),
      soundIfPlanned yes hard (Option.isSome_of_eq_some hyes)⟩,
      soundIfPlanned no hard (Option.isSome_of_eq_some hno)⟩

theorem soundIfPlanned_all : (items : List Tree) → ∀ item ∈ items, SoundIfPlanned targets item
  | [] => List.forall_mem_nil _
  | item :: rest => List.forall_mem_cons.mpr ⟨soundIfPlanned item, soundIfPlanned_all rest⟩

end

end Tree

end Highlighter.Regex.Extended
