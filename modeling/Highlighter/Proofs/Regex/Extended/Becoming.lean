import Highlighter.Proofs.Regex.Extended.Meaning
import Highlighter.Proofs.Regex.Extended.Sound

/-!
# Trees that may become others

When a pattern joins a union, its tree changes a little: carets are left out, groups that nothing
refers to only bracket, and flags and the numbers of groups are others. `Tree.MayBecome` says of two
trees what makes no difference: where the first one is empty, can be repeated, has fitting parts or
a known size, so does the second one.

Only a repetition asks for more. What is left of its body when carets and brackets are gone must
still be something that can be repeated, so `isSolid` looks for a part that stays.
-/

set_option autoImplicit false

namespace Highlighter.Regex.Extended

namespace Tree

mutual

/-- Whether a tree can still be repeated when carets are left out and only the groups in `kept` are
captured. -/
def isSolid (kept : List Nat) : Tree → Bool
  | empty | anchor _ | look _ _ _ => false
  | concat items => anySolid kept items
  | group index body => kept.contains index || body.isSolid kept
  | _ => true

/-- Whether one of the trees can still be repeated. -/
def anySolid (kept : List Nat) : List Tree → Bool
  | [] => false
  | item :: rest => item.isSolid kept || anySolid kept rest

end

/-- Whether what a tree repeats can still be repeated. -/
def repeatsSolid (kept : List Nat) : Tree → Bool
  | repetition _ _ _ body => body.isSolid kept
  | _ => true

/-- What holds of the first tree and makes it possible to read and match it, holds of the second
one. -/
structure MayBecome (kept : List Nat) (tree other : Tree) : Prop where
  empty : tree.isEmpty = true → other.isEmpty = true
  solid : tree.isSolid kept = true → other.isRepeatable = true
  fit : tree.everywhere isFit = true → other.everywhere isFit = true
  const : tree.isConstSize = true → other.isConstSize = true ∧ other.minSize = tree.minSize
  ends : tree.endsKnown = true → other.endsKnown = true

/-- The trees in a row may become others. Some may be left out; those that stay are not empty. -/
inductive RowBecomes (kept : List Nat) : List Tree → List Tree → Prop where
  | nil : RowBecomes kept [] []
  | item {tree other : Tree} {items others : List Tree} (hitem : tree.MayBecome kept other)
    (hother : other.isEmpty = false) (hrest : RowBecomes kept items others) :
    RowBecomes kept (tree :: items) (other :: others)
  | drop {tree : Tree} {items others : List Tree} (hitem : tree.MayBecome kept .empty)
    (hrest : RowBecomes kept items others) : RowBecomes kept (tree :: items) others

variable {kept : List Nat} {tree other body body' : Tree} {items others branches : List Tree}

/-- A tree may stay. -/
theorem MayBecome.refl (kept : List Nat) (tree : Tree) : tree.MayBecome kept tree where
  empty := id
  solid h := by cases tree <;> first | rfl | cases h
  fit := id
  const h := ⟨h, rfl⟩
  ends := id

/-! ### Rows -/

theorem isConstSize_ofItems :
    (ofItems items).isConstSize = true ↔ ∀ item ∈ items, item.isConstSize = true := by
  rcases items with _ | ⟨item, _ | ⟨second, rest⟩⟩
  · exact ⟨fun _ => List.forall_mem_nil _, fun _ => rfl⟩
  · simp [ofItems]
  · exact forall_of_allConstSize

theorem minSize_ofItems (items : List Tree) : (ofItems items).minSize = sumSize items := by
  rcases items with _ | ⟨item, _ | ⟨second, rest⟩⟩ <;> rfl

theorem isRepeatable_ofItems (h : other ∈ items) (hother : other.isRepeatable = true) :
    (ofItems items).isRepeatable = true := by
  rcases items with _ | ⟨item, _ | ⟨second, rest⟩⟩
  · cases h
  · obtain rfl := List.mem_singleton.mp h
    exact hother
  · rfl

theorem anySolid_of_isSolid_ofItems (h : (ofItems items).isSolid kept = true) :
    anySolid kept items = true := by
  rcases items with _ | ⟨item, _ | ⟨second, rest⟩⟩
  · cases h
  · exact Bool.or_eq_true_iff.mpr (.inl h)
  · exact h

namespace RowBecomes

theorem append {items' others' : List Tree} (h : RowBecomes kept items others)
    (h' : RowBecomes kept items' others') :
    RowBecomes kept (items ++ items') (others ++ others') := by
  induction h with
  | nil => exact h'
  | item hitem hother _ ih => exact .item hitem hother ih
  | drop hitem _ ih => exact .drop hitem ih

theorem reverse (h : RowBecomes kept items others) :
    RowBecomes kept items.reverse others.reverse := by
  induction h with
  | nil => exact .nil
  | item hitem hother _ ih =>
    rw [List.reverse_cons, List.reverse_cons]
    exact ih.append (.item hitem hother .nil)
  | drop hitem _ ih =>
    rw [List.reverse_cons]
    simpa using ih.append (.drop hitem .nil)

theorem fit (h : RowBecomes kept items others)
    (hfit : ∀ item ∈ items, item.everywhere isFit = true) :
    ∀ other ∈ others, other.everywhere isFit = true := by
  induction h with
  | nil => exact hfit
  | item hitem _ _ ih =>
    obtain ⟨htree, hitems⟩ := List.forall_mem_cons.mp hfit
    exact List.forall_mem_cons.mpr ⟨hitem.fit htree, ih hitems⟩
  | drop _ _ ih => exact ih (List.forall_mem_cons.mp hfit).2

theorem const (h : RowBecomes kept items others)
    (hconst : ∀ item ∈ items, item.isConstSize = true) :
    (∀ other ∈ others, other.isConstSize = true) ∧ sumSize others = sumSize items := by
  induction h with
  | nil => exact ⟨List.forall_mem_nil _, rfl⟩
  | item hitem _ _ ih =>
    obtain ⟨htree, hitems⟩ := List.forall_mem_cons.mp hconst
    obtain ⟨hother, hsize⟩ := hitem.const htree
    obtain ⟨hothers, hsum⟩ := ih hitems
    exact ⟨List.forall_mem_cons.mpr ⟨hother, hothers⟩, congrArg₂ (· + ·) hsize hsum⟩
  | drop hitem _ ih =>
    obtain ⟨htree, hitems⟩ := List.forall_mem_cons.mp hconst
    obtain ⟨hothers, hsum⟩ := ih hitems
    refine ⟨hothers, ?_⟩
    rw [sumSize, ← (hitem.const htree).2, hsum]
    exact (Nat.zero_add _).symm

/-- What is solid is not left out. -/
theorem exists_solid (h : RowBecomes kept items others) (hsolid : anySolid kept items = true) :
    ∃ other ∈ others, other.isRepeatable = true := by
  induction h with
  | nil => cases hsolid
  | item hitem _ _ ih =>
    rcases Bool.or_eq_true_iff.mp hsolid with htree | hitems
    · exact ⟨_, List.mem_cons_self, hitem.solid htree⟩
    · obtain ⟨other, hmem, hother⟩ := ih hitems
      exact ⟨other, .tail _ hmem, hother⟩
  | drop hitem _ ih =>
    rcases Bool.or_eq_true_iff.mp hsolid with htree | hitems
    · cases hitem.solid htree
    · exact ih hitems

theorem isEmpty_ofItems (h : RowBecomes kept items others)
    (hempty : (ofItems items).isEmpty = true) : (ofItems others).isEmpty = true := by
  cases h with
  | nil => rfl
  | @item tree other items _ hitem hother hrest =>
    cases items with
    | nil => exact absurd (hitem.empty hempty) (Bool.eq_false_iff.mp hother)
    | cons second rest => cases hempty
  | @drop tree items _ hitem hrest =>
    cases items with
    | nil =>
      cases hrest
      rfl
    | cons second rest => cases hempty

theorem ofItems (h : RowBecomes kept items others) :
    (Tree.ofItems items).MayBecome kept (.ofItems others) where
  empty := h.isEmpty_ofItems
  solid hsolid :=
    have ⟨_, hmem, hother⟩ := h.exists_solid (anySolid_of_isSolid_ofItems hsolid)
    isRepeatable_ofItems hmem hother
  fit hfit := everywhere_ofItems rfl rfl (h.fit (everywhere_of_ofItems hfit))
  const hconst := by
    obtain ⟨hothers, hsum⟩ := h.const (isConstSize_ofItems.mp hconst)
    exact ⟨isConstSize_ofItems.mpr hothers, by rw [minSize_ofItems, minSize_ofItems, hsum]⟩
  ends hends := by
    cases h with
    | nil => rfl
    | @item tree other items others hitem hother hrest =>
      cases items with
      | nil =>
        cases hrest
        exact hitem.ends hends
      | cons second rest =>
        exact endsKnown_of_isConstSize (isConstSize_ofItems.mpr
          ((RowBecomes.item hitem hother hrest).const (forall_of_allConstSize.mp hends)).1)
    | @drop tree items _ hitem hrest =>
      cases items with
      | nil =>
        cases hrest
        rfl
      | cons second rest =>
        exact endsKnown_of_isConstSize (isConstSize_ofItems.mpr
          ((RowBecomes.drop hitem hrest).const (forall_of_allConstSize.mp hends)).1)

/-- What an item becomes is the next item, unless nothing is left of it. -/
theorem push (h : RowBecomes kept items others) (hitem : tree.MayBecome kept other) :
    RowBecomes kept (if tree.isEmpty then items else tree :: items)
      (if other.isEmpty then others else other :: others) := by
  by_cases hother : other.isEmpty = true
  · rw [if_pos hother]
    split
    · exact h
    · cases other <;> first | exact .drop hitem h | cases hother
  · rw [if_neg hother, if_neg (mt hitem.empty hother)]
    exact .item hitem (Bool.eq_false_iff.mpr hother) h

end RowBecomes

/-! ### Branches -/

theorem everywhere_of_ofBranches {test : Tree → Bool}
    (h : (ofBranches branches).everywhere test = true) :
    ∀ branch ∈ branches, branch.everywhere test = true := by
  rcases branches with _ | ⟨branch, _ | ⟨second, rest⟩⟩
  · exact List.forall_mem_nil _
  · exact List.forall_mem_singleton.mpr h
  · exact (everywhere_alternation.mp h).2

theorem everywhere_ofBranches {test : Tree → Bool}
    (halternation : test (alternation branches) = true)
    (h : ∀ branch ∈ branches, branch.everywhere test = true) :
    (ofBranches branches).everywhere test = true := by
  rcases branches with _ | ⟨branch, _ | ⟨second, rest⟩⟩
  · exact everywhere_alternation.mpr ⟨halternation, h⟩
  · exact h branch List.mem_cons_self
  · exact everywhere_alternation.mpr ⟨halternation, h⟩

theorem leastSize_eq (h : branches.map minSize = others.map minSize) :
    leastSize branches = leastSize others := by
  induction branches generalizing others with
  | nil =>
    obtain rfl := List.map_eq_nil_iff.mp h.symm
    rfl
  | cons branch rest ih =>
    obtain ⟨other, others, rfl, hbranch, hrest⟩ := List.map_eq_cons_iff.mp h.symm
    have hleast := ih hrest.symm
    cases rest with
    | nil =>
      obtain rfl := List.map_eq_nil_iff.mp hrest
      exact hbranch.symm
    | cons second rest =>
      obtain ⟨second', others, rfl, -, -⟩ := List.map_eq_cons_iff.mp hrest
      exact congrArg₂ min hbranch.symm hleast

theorem sameSize_eq (h : branches.map minSize = others.map minSize) :
    sameSize branches = sameSize others := by
  induction branches generalizing others with
  | nil =>
    obtain rfl := List.map_eq_nil_iff.mp h.symm
    rfl
  | cons branch rest ih =>
    obtain ⟨other, others, rfl, hbranch, hrest⟩ := List.map_eq_cons_iff.mp h.symm
    have hsame := ih hrest.symm
    cases rest with
    | nil =>
      obtain rfl := List.map_eq_nil_iff.mp hrest
      rfl
    | cons second rest =>
      obtain ⟨second', others, rfl, hsecond, -⟩ := List.map_eq_cons_iff.mp hrest
      rw [sameSize, sameSize, hsame, hbranch, hsecond]

section Branches

variable (h : List.Forall₂ (MayBecome kept) branches others)
include h

theorem const_branches (hconst : allConstSize branches = true) :
    allConstSize others = true ∧ branches.map minSize = others.map minSize := by
  induction h with
  | nil => exact ⟨rfl, rfl⟩
  | cons hbranch _ ih =>
    obtain ⟨hfirst, hrest⟩ := Bool.and_eq_true_iff.mp hconst
    obtain ⟨hother, hsize⟩ := hbranch.const hfirst
    obtain ⟨hothers, hsizes⟩ := ih hrest
    exact ⟨Bool.and_eq_true_iff.mpr ⟨hother, hothers⟩, congrArg₂ List.cons hsize.symm hsizes⟩

theorem mayBecome_alternation : (alternation branches).MayBecome kept (.alternation others) where
  empty := nofun
  solid _ := rfl
  fit hfit := by
    refine everywhere_alternation.mpr ⟨rfl, ?_⟩
    have hall := (everywhere_alternation.mp hfit).2
    clear hfit
    induction h with
    | nil => exact hall
    | cons hbranch _ ih =>
      obtain ⟨hfirst, hrest⟩ := List.forall_mem_cons.mp hall
      exact List.forall_mem_cons.mpr ⟨hbranch.fit hfirst, ih hrest⟩
  const hconst := by
    obtain ⟨hall, hsame⟩ := Bool.and_eq_true_iff.mp hconst
    obtain ⟨hothers, hsizes⟩ := const_branches h hall
    rw [sameSize_eq hsizes] at hsame
    exact ⟨Bool.and_eq_true_iff.mpr ⟨hothers, hsame⟩, (leastSize_eq hsizes).symm⟩
  ends hends := (const_branches h hends).1

/-- Branches may become others one by one. -/
theorem mayBecome_ofBranches : (ofBranches branches).MayBecome kept (.ofBranches others) := by
  cases h with
  | nil => exact mayBecome_alternation .nil
  | cons hbranch hrest =>
    cases hrest with
    | nil => exact hbranch
    | cons hsecond hrest => exact mayBecome_alternation (.cons hbranch (.cons hsecond hrest))

end Branches

/-! ### Single pieces -/

/-- A character stays one, whether or not its letter case counts. -/
theorem mayBecome_literal (c : Char) (ignoreCase other : Bool) :
    (literal c ignoreCase).MayBecome kept (.literal c other) :=
  ⟨nofun, fun _ => rfl, fun _ => rfl, fun _ => ⟨rfl, rfl⟩, fun _ => rfl⟩

theorem mayBecome_any (newline other : Bool) : (any newline).MayBecome kept (.any other) :=
  ⟨nofun, fun _ => rfl, fun _ => rfl, fun _ => ⟨rfl, rfl⟩, fun _ => rfl⟩

theorem mayBecome_set (body : ClassSet) (ignoreCase other : Bool) :
    (set body ignoreCase).MayBecome kept (.set body other) :=
  ⟨nofun, fun _ => rfl, id, fun _ => ⟨rfl, rfl⟩, fun _ => rfl⟩

theorem mayBecome_anchor (sign other : Sign) : (anchor sign).MayBecome kept (.anchor other) :=
  ⟨nofun, nofun, fun _ => rfl, fun _ => ⟨rfl, rfl⟩, fun _ => rfl⟩

/-- An anchor may be left out. -/
theorem mayBecome_empty (sign : Sign) : (anchor sign).MayBecome kept .empty :=
  ⟨nofun, nofun, fun _ => rfl, fun _ => ⟨rfl, rfl⟩, fun _ => rfl⟩

theorem mayBecome_keepOut : keepOut.MayBecome kept .keepOut :=
  ⟨nofun, fun _ => rfl, id, fun _ => ⟨rfl, rfl⟩, fun _ => rfl⟩

theorem mayBecome_searchStart : searchStart.MayBecome kept .searchStart :=
  ⟨nofun, fun _ => rfl, id, fun _ => ⟨rfl, rfl⟩, fun _ => rfl⟩

theorem empty_mayBecome : Tree.empty.MayBecome kept .empty :=
  ⟨id, nofun, id, fun _ => ⟨rfl, rfl⟩, id⟩

theorem mayBecome_backref (index other : Nat) :
    (backref index).MayBecome kept (.backref other) :=
  ⟨nofun, fun _ => rfl, fun _ => rfl, nofun, nofun⟩

/-- A reference by a number that is no group may become a character. -/
theorem backref_mayBecome (index : Nat) (c : Char) (ignoreCase : Bool) :
    (backref index).MayBecome kept (.literal c ignoreCase) :=
  ⟨nofun, fun _ => rfl, fun _ => rfl, nofun, nofun⟩

/-! ### Bodies -/

section Bodies

variable (h : body.MayBecome kept body')
include h

theorem mayBecome_repetition (min : Nat) (max : Option Nat) (greedy other : Bool) :
    (repetition min max greedy body).MayBecome kept (.repetition min max other body') where
  empty := nofun
  solid _ := rfl
  fit hfit := by
    obtain ⟨hbounds, hbody⟩ := Bool.and_eq_true_iff.mp hfit
    exact Bool.and_eq_true_iff.mpr ⟨hbounds, h.fit hbody⟩
  const hconst := by
    obtain ⟨hbody, hmax⟩ := Bool.and_eq_true_iff.mp hconst
    obtain ⟨hbody', hsize⟩ := h.const hbody
    exact ⟨Bool.and_eq_true_iff.mpr ⟨hbody', hmax⟩, congrArg (· * min) hsize⟩
  ends hends := by
    obtain ⟨hbody, hmax⟩ := Bool.and_eq_true_iff.mp hends
    exact Bool.and_eq_true_iff.mpr ⟨(h.const hbody).1, hmax⟩

theorem mayBecome_atomic : (atomic body).MayBecome kept (.atomic body') where
  empty := nofun
  solid _ := rfl
  fit hfit := h.fit hfit
  const hconst := h.const hconst
  ends hends := (h.const hends).1

theorem mayBecome_look (behind negated : Bool) :
    (look behind negated body).MayBecome kept (.look behind negated body') where
  empty := nofun
  solid := nofun
  fit hfit := by
    obtain ⟨hsound, hbody⟩ := Bool.and_eq_true_iff.mp hfit
    refine Bool.and_eq_true_iff.mpr ⟨?_, h.fit hbody⟩
    cases behind with
    | false => rfl
    | true => exact Bool.and_eq_true_iff.mpr ⟨h.ends (Bool.and_eq_true_iff.mp hsound).1, rfl⟩
  const _ := ⟨rfl, rfl⟩
  ends _ := rfl

/-- A group stays one under another number. -/
theorem mayBecome_group (index other : Nat) :
    (group index body).MayBecome kept (.group other body') where
  empty := nofun
  solid _ := rfl
  fit hfit := h.fit hfit
  const hconst := h.const hconst
  ends hends := (h.const hends).1

/-- A group that is not kept only brackets. -/
theorem group_mayBecome {index : Nat} (hkept : kept.contains index = false) :
    (group index body).MayBecome kept body' where
  empty := nofun
  solid hsolid := by
    rw [isSolid, hkept, Bool.false_or] at hsolid
    exact h.solid hsolid
  fit hfit := h.fit hfit
  const hconst := h.const hconst
  ends hends := endsKnown_of_isConstSize (h.const hends).1

end Bodies

end Tree

end Highlighter.Regex.Extended
