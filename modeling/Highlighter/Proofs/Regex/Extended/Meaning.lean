import Highlighter.Proofs.Pattern.Meaning
import Highlighter.Proofs.Regex.Extended.ClassText
import Highlighter.Regex.Extended.Plan

/-!
# What patterns of the extended dialect mean

`Tree.ways` lists the ways in which a tree matches, as `Expr.ways` does
for an expression. `Tree.Means` says that a tree has the ways of an
expression, and that its groups are those of the expression. There is a
lemma for each way to build an expression. Other than in the regular
dialect, what groups have matched counts, so the ways are not just
alike: they are the same.

Atomic groups, conditions and the like are not among the expressions.
They have no ways here, and `Tree.Fits` leaves them out.
-/

set_option autoImplicit false

namespace Highlighter.Regex.Extended

open Pattern

/-- How the extended dialect reads patterns. -/
def sense (text : Array Char) (retry : Bool) : Sense := ⟨text, extendedClass?, retry⟩

/-- The flags in force where nothing but letter case has been changed. -/
def Flags.plain (ignoreCase : Bool) : Flags := ⟨ignoreCase, false, false, false, false⟩

namespace Tree

/-- The members of a class. -/
def setMembers (ignoreCase : Bool) (body : ClassSet) : CharSet :=
  (body.meaning? ⟨ignoreCase, true⟩).getD fun _ => false

mutual

/-- All ways in which a tree matches at a place, best first. -/
def ways (text : Array Char) (retry : Bool) : Tree → Nat × Marks → List (Nat × Marks)
  | empty, place => [place]
  | any newline, place => Ways.one text (fun c => newline || c != '\n') place
  | literal c ignoreCase, place => Ways.one text (CharSet.ofChar ⟨ignoreCase, true⟩ c) place
  | set body ignoreCase, place => Ways.one text (setMembers ignoreCase body) place
  | anchor sign, place => Ways.check (sign.meaning.holds text place.1) place
  | concat items, place => waysRow text retry items place
  | alternation branches, place => waysBranches text retry branches place
  | group index body, (pos, marks) =>
    (body.ways text retry (pos, marks.begin index pos)).map fun next =>
      (next.1, next.2.finish index next.1)
  | repetition min max greedy body, place =>
    Ways.repeated text.size retry min max greedy (body.ways text retry) place
  | look behind negated body, place => Ways.look behind negated (body.ways text retry) place
  | backref index, (pos, marks) => marks.again text index pos
  | _, _ => []

/-- All ways in which trees match in a row. -/
def waysRow (text : Array Char) (retry : Bool) : List Tree → Nat × Marks → List (Nat × Marks)
  | [], place => [place]
  | item :: rest, place => (item.ways text retry place).flatMap (waysRow text retry rest)

/-- All ways in which one of the trees matches. -/
def waysBranches (text : Array Char) (retry : Bool) :
    List Tree → Nat × Marks → List (Nat × Marks)
  | [], _ => []
  | branch :: rest, place => branch.ways text retry place ++ waysBranches text retry rest place

end

/-- Trees that stand for expressions which refer to no groups but the
`targets`. Look-around has no groups inside. -/
inductive Fits (targets : List Nat) : Tree → Prop where
  | empty : Fits targets empty
  | any (newline : Bool) : Fits targets (any newline)
  | literal (c : Char) (ignoreCase : Bool) : Fits targets (literal c ignoreCase)
  | set (body : ClassSet) (ignoreCase : Bool) : Fits targets (set body ignoreCase)
  | anchor (sign : Sign) : Fits targets (anchor sign)
  | concat {items : List Tree} (h : ∀ item ∈ items, item.Fits targets) :
    Fits targets (concat items)
  | alternation {branches : List Tree} (h : ∀ branch ∈ branches, branch.Fits targets) :
    Fits targets (alternation branches)
  | group {index : Nat} {body : Tree} (hindex : index ≠ 0) (h : body.Fits targets) :
    Fits targets (group index body)
  | repetition {min : Nat} {max : Option Nat} {greedy : Bool} {body : Tree}
    (hmax : ∀ most ∈ max, min ≤ most) (h : body.Fits targets) :
    Fits targets (repetition min max greedy body)
  | look (behind negated : Bool) {body : Tree} (hgroups : body.groups = [])
    (h : body.Fits targets) : Fits targets (look behind negated body)
  | backref {index : Nat} (hmem : index ∈ targets) : Fits targets (backref index)

/-- The branches as one tree. A single branch stands for itself. -/
def ofBranches : List Tree → Tree
  | [branch] => branch
  | branches => alternation branches

end Tree

/-! ### Rows -/

theorem waysRow_append (text : Array Char) (retry : Bool) (first second : List Tree)
    (place : Nat × Marks) :
    Tree.waysRow text retry (first ++ second) place
      = (Tree.waysRow text retry first place).flatMap (Tree.waysRow text retry second) := by
  induction first generalizing place with
  | nil =>
    show _ = [place].flatMap _
    rw [List.flatMap_cons, List.flatMap_nil, List.append_nil]
    rfl
  | cons item first ih =>
    rw [List.cons_append, Tree.waysRow, Tree.waysRow, List.flatMap_assoc]
    exact congrArg (List.flatMap · _) (funext ih)

theorem waysRow_single (text : Array Char) (retry : Bool) (item : Tree) (place : Nat × Marks) :
    Tree.waysRow text retry [item] place = item.ways text retry place :=
  List.flatMap_singleton' _

theorem ways_ofItems (text : Array Char) (retry : Bool) (items : List Tree)
    (place : Nat × Marks) :
    (Tree.ofItems items).ways text retry place = Tree.waysRow text retry items place := by
  match items with
  | [] => rfl
  | [item] => exact (waysRow_single text retry item place).symm
  | first :: second :: items => rfl

theorem ways_ofBranches (text : Array Char) (retry : Bool) (branches : List Tree)
    (place : Nat × Marks) :
    (Tree.ofBranches branches).ways text retry place
      = Tree.waysBranches text retry branches place := by
  match branches with
  | [] => rfl
  | [branch] => exact (List.append_nil _).symm
  | first :: second :: branches => rfl

theorem groupsAll_append (first second : List Tree) :
    Tree.groupsAll (first ++ second) = Tree.groupsAll first ++ Tree.groupsAll second := by
  induction first with
  | nil => rfl
  | cons item first ih =>
    rw [List.cons_append, Tree.groupsAll, Tree.groupsAll, ih, List.append_assoc]

theorem groups_ofItems (items : List Tree) :
    (Tree.ofItems items).groups = Tree.groupsAll items := by
  match items with
  | [] => rfl
  | [item] => exact (List.append_nil _).symm
  | first :: second :: items => rfl

theorem groups_ofBranches (branches : List Tree) :
    (Tree.ofBranches branches).groups = Tree.groupsAll branches := by
  match branches with
  | [] => rfl
  | [branch] => exact (List.append_nil _).symm
  | first :: second :: branches => rfl

theorem anyHard_append (targets : List Nat) (first second : List Tree) :
    Tree.anyHard targets (first ++ second)
      = (Tree.anyHard targets first || Tree.anyHard targets second) := by
  induction first with
  | nil => rfl
  | cons item first ih => rw [List.cons_append, Tree.anyHard, Tree.anyHard, ih, Bool.or_assoc]

theorem isHard_ofItems (targets : List Nat) (items : List Tree) :
    (Tree.ofItems items).isHard targets = Tree.anyHard targets items := by
  match items with
  | [] => rfl
  | [item] => exact (Bool.or_false _).symm
  | first :: second :: items => rfl

theorem isHard_ofBranches (targets : List Nat) (branches : List Tree) :
    (Tree.ofBranches branches).isHard targets = Tree.anyHard targets branches := by
  match branches with
  | [] => rfl
  | [branch] => exact (Bool.or_false _).symm
  | first :: second :: branches => rfl

theorem fits_ofItems {targets : List Nat} {items : List Tree} :
    (Tree.ofItems items).Fits targets ↔ ∀ item ∈ items, item.Fits targets := by
  match items with
  | [] => exact ⟨fun _ item hitem => (nomatch hitem), fun _ => .empty⟩
  | [item] => exact (List.forall_mem_singleton).symm
  | first :: second :: items =>
    constructor
    · intro h
      cases h with
      | concat h => exact h
    · exact .concat

theorem fits_ofBranches {targets : List Nat} {branches : List Tree} :
    (Tree.ofBranches branches).Fits targets ↔ ∀ branch ∈ branches, branch.Fits targets := by
  match branches with
  | [] =>
    exact ⟨fun _ branch hbranch => (nomatch hbranch),
      fun _ => .alternation fun branch hbranch => (nomatch hbranch)⟩
  | [branch] => exact (List.forall_mem_singleton).symm
  | first :: second :: branches =>
    constructor
    · intro h
      cases h with
      | alternation h => exact h
    · exact .alternation

/-! ### Trees and expressions -/

/-- A tree has the ways of an expression before which `opened` groups
have opened, and the groups that open in it. The tree of an easy
expression is not hard. -/
structure Tree.Means (tree : Tree) (ignoreCase : Bool) (opened : Nat) (expr : Expr) : Prop where
  ways_eq : ∀ (text : Array Char) (retry : Bool) (place : Nat × Marks),
    tree.ways text retry place = expr.ways (sense text retry) ignoreCase opened place
  groups_eq : tree.groups = List.range' (opened + 1) expr.captures
  isHard_eq : expr.isEasy = true → tree.isHard [] = false
  fits : ∀ targets : List Nat, (∀ group, expr.refersTo group = true → group ∈ targets) →
    expr.looksBare = true → tree.Fits targets

namespace Tree.Means

variable {ignoreCase : Bool} {opened : Nat}

/-- A tree without groups and references. -/
theorem leaf {tree : Tree} {expr : Expr}
    (hways : ∀ (text : Array Char) (retry : Bool) (place : Nat × Marks),
      tree.ways text retry place = expr.ways (sense text retry) ignoreCase opened place)
    (hgroups : tree.groups = []) (hcaptures : expr.captures = 0)
    (hhard : expr.isEasy = true → tree.isHard [] = false)
    (hfits : ∀ targets, tree.Fits targets) :
    tree.Means ignoreCase opened expr where
  ways_eq := hways
  groups_eq := by rw [hgroups, hcaptures, List.range'_zero]
  isHard_eq := hhard
  fits targets _ _ := hfits targets

theorem empty : Tree.empty.Means ignoreCase opened .empty :=
  leaf (fun _ _ _ => rfl) rfl rfl (fun _ => rfl) fun _ => .empty

/-- One row after another. -/
theorem seq {first second : List Tree} {left right : Expr}
    (h : (ofItems first).Means ignoreCase opened left)
    (h' : (ofItems second).Means ignoreCase (opened + left.captures) right) :
    (ofItems (first ++ second)).Means ignoreCase opened (.seq left right) where
  ways_eq text retry place := by
    rw [ways_ofItems, waysRow_append, Expr.ways]
    have hleft := h.ways_eq text retry place
    rw [ways_ofItems] at hleft
    rw [hleft]
    refine congrArg (List.flatMap · _) (funext fun next => ?_)
    have hright := h'.ways_eq text retry next
    rw [ways_ofItems] at hright
    exact hright
  groups_eq := by
    rw [groups_ofItems, groupsAll_append, ← groups_ofItems, ← groups_ofItems, h.groups_eq,
      h'.groups_eq, Expr.captures, Nat.add_right_comm, List.range'_append_1]
  isHard_eq heasy := by
    obtain ⟨hleft, hright⟩ := Bool.and_eq_true_iff.mp heasy
    rw [isHard_ofItems, anyHard_append, ← isHard_ofItems, ← isHard_ofItems, h.isHard_eq hleft,
      h'.isHard_eq hright]
    rfl
  fits targets hrefs hbare := by
    obtain ⟨hleft, hright⟩ := Bool.and_eq_true_iff.mp hbare
    have hfirst := h.fits targets
      (fun group href => hrefs group (by rw [Expr.refersTo, href, Bool.true_or])) hleft
    have hsecond := h'.fits targets
      (fun group href => hrefs group (by rw [Expr.refersTo, href, Bool.or_true])) hright
    refine fits_ofItems.mpr fun item hitem => ?_
    rcases List.mem_append.mp hitem with hitem | hitem
    · exact fits_ofItems.mp hfirst item hitem
    · exact fits_ofItems.mp hsecond item hitem

/-- One branch before others. -/
theorem alt {items branches : List Tree} {first second : Expr}
    (h : (ofItems items).Means ignoreCase opened first)
    (h' : (ofBranches branches).Means ignoreCase (opened + first.captures) second) :
    (ofBranches (ofItems items :: branches)).Means ignoreCase opened (.alt first second) where
  ways_eq text retry place := by
    have hsecond := h'.ways_eq text retry place
    rw [ways_ofBranches] at hsecond
    rw [ways_ofBranches, Tree.waysBranches, h.ways_eq, hsecond]
    rfl
  groups_eq := by
    rw [groups_ofBranches, Tree.groupsAll, ← groups_ofBranches, h.groups_eq, h'.groups_eq,
      Expr.captures, Nat.add_right_comm, List.range'_append_1]
  isHard_eq heasy := by
    obtain ⟨hleft, hright⟩ := Bool.and_eq_true_iff.mp heasy
    rw [isHard_ofBranches, Tree.anyHard, ← isHard_ofBranches, h.isHard_eq hleft,
      h'.isHard_eq hright]
    rfl
  fits targets hrefs hbare := by
    obtain ⟨hleft, hright⟩ := Bool.and_eq_true_iff.mp hbare
    have hfirst := h.fits targets
      (fun group href => hrefs group (by rw [Expr.refersTo, href, Bool.true_or])) hleft
    have hsecond := h'.fits targets
      (fun group href => hrefs group (by rw [Expr.refersTo, href, Bool.or_true])) hright
    exact fits_ofBranches.mpr (List.forall_mem_cons.mpr ⟨hfirst, fits_ofBranches.mp hsecond⟩)

theorem capture {body : Tree} {expr : Expr} (h : body.Means ignoreCase (opened + 1) expr) :
    (Tree.group (opened + 1) body).Means ignoreCase opened (.capture expr) where
  ways_eq text retry place := by
    obtain ⟨pos, marks⟩ := place
    rw [Tree.ways, Expr.ways, h.ways_eq]
  groups_eq := by
    rw [Tree.groups, h.groups_eq, Expr.captures, List.range'_succ]
  isHard_eq heasy := h.isHard_eq heasy
  fits targets hrefs hbare := .group (Nat.succ_ne_zero _) (h.fits targets hrefs hbare)

theorem bare {body : Tree} {expr : Expr} (h : body.Means ignoreCase opened expr) :
    body.Means ignoreCase opened (.bare expr) :=
  ⟨h.ways_eq, h.groups_eq, h.isHard_eq, h.fits⟩

theorem ignoring {body : Tree} {expr : Expr} (h : body.Means true opened expr) :
    body.Means ignoreCase opened (.ignoring expr) :=
  ⟨h.ways_eq, h.groups_eq, h.isHard_eq, h.fits⟩

theorem look (behind negated : Bool) {body : Tree} {expr : Expr}
    (h : body.Means ignoreCase opened expr) :
    (Tree.look behind negated body).Means ignoreCase opened (.look behind negated expr) where
  ways_eq text retry place := by
    rw [Tree.ways, Expr.ways, show body.ways text retry = expr.ways (sense text retry) ignoreCase
      opened from funext (h.ways_eq text retry)]
  groups_eq := h.groups_eq
  isHard_eq heasy := by cases heasy
  fits targets hrefs hbare := by
    obtain ⟨hcaptures, hbody⟩ := Bool.and_eq_true_iff.mp hbare
    have hnone : expr.captures = 0 := beq_iff_eq.mp hcaptures
    refine .look behind negated ?_ (h.fits targets hrefs hbody)
    rw [h.groups_eq, hnone, List.range'_zero]

theorem backref (number : Nat) :
    (Tree.backref number).Means ignoreCase opened (.backref number) where
  ways_eq _ _ _ := rfl
  groups_eq := rfl
  isHard_eq heasy := by cases heasy
  fits _ hrefs _ := .backref (hrefs number (beq_self_eq_true number))

theorem repeated {body : Tree} {expr : Expr} {count : Count} (greedy : Bool)
    (hcount : count.WellFormed) (h : body.Means ignoreCase opened expr) :
    (Tree.repetition count.min count.max? greedy body).Means ignoreCase opened
      (.repeated count greedy expr) where
  ways_eq text retry place := by
    rw [Tree.ways, Expr.ways, show body.ways text retry = expr.ways (sense text retry) ignoreCase
      opened from funext (h.ways_eq text retry)]
    rfl
  groups_eq := h.groups_eq
  isHard_eq heasy := h.isHard_eq heasy
  fits targets hrefs hbare := .repetition hcount.min_le (h.fits targets hrefs hbare)

end Tree.Means

end Highlighter.Regex.Extended
