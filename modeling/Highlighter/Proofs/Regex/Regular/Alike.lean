import Highlighter.Proofs.Regex.FoldedClass
import Highlighter.Proofs.Regex.QuietClass

/-!
# Patterns of the regular dialect that ignore case

Two patterns are alike if the one means, where letter case counts, what
the other one means where it does not. All ways to build patterns keep
that. What is alike in the end is one and the same pattern, read at two
places: once alone, and once after flags.
-/

set_option autoImplicit false

namespace Highlighter.Regex.Regular

open Pattern Unicode

namespace Ast

mutual

/-- The ranges in the classes of a pattern. -/
def ranges : Ast → List (Char × Char)
  | bracket set _ => set.ranges
  | repetition _ _ _ body => body.ranges
  | group _ _ body => body.ranges
  | alternation branches => rangesAll branches
  | concat items => rangesAll items
  | _ => []

/-- The ranges in the classes of the patterns. -/
def rangesAll : List Ast → List (Char × Char)
  | [] => []
  | item :: rest => item.ranges ++ rangesAll rest

end

theorem ranges_ofItems (items : List Ast) : (ofItems items).ranges = rangesAll items := by
  match items with
  | [] => rfl
  | [item] => exact (List.append_nil _).symm
  | _ :: _ :: _ => rfl

theorem ranges_ofBranches {branches : List Ast} (h : branches ≠ []) :
    (ofBranches branches).ranges = rangesAll branches := by
  match branches with
  | [] => exact absurd rfl h
  | [branch] => exact (List.append_nil _).symm
  | _ :: _ :: _ => rfl

/-- What is meant where letter case counts is what is meant by `other`
where it does not, as long as the ranges hold all case variants. -/
def Alike (ast other : Ast) : Prop :=
  AreCaseClosed ast.ranges → ∃ node, ast.meaning? (.plain false) = some (node, .plain false) ∧
    other.meaning? (.plain true) = some (node, .plain true)

/-- Patterns that are alike, one by one. -/
def AllAlike (asts others : List Ast) : Prop :=
  AreCaseClosed (rangesAll asts) →
    ∃ nodes, meanings? (.plain false) asts = some (nodes, .plain false) ∧
      meanings? (.plain true) others = some (nodes, .plain true)

/-- What a pattern means, before what those after it mean. -/
theorem meanings_cons_of {modes between after : Modes} {item : Ast} {items : List Ast}
    {node : Node} {nodes : List Node} (hitem : item.meaning? modes = some (node, between))
    (hitems : meanings? between items = some (nodes, after)) :
    meanings? modes (item :: items) = some (node :: nodes, after) := by
  rw [meanings?, hitem]
  simp only [bind, Option.bind_some, hitems]
  rfl

theorem allAlike {asts others : List Ast} (h : List.Forall₂ Alike asts others) :
    AllAlike asts others := by
  induction h with
  | nil => exact fun _ => ⟨[], rfl, rfl⟩
  | cons hfirst _ ih =>
    intro hranges
    obtain ⟨hclosed, hclosed'⟩ := areCaseClosed_append.mp hranges
    obtain ⟨node, hnode, hnode'⟩ := hfirst hclosed
    obtain ⟨nodes, hnodes, hnodes'⟩ := ih hclosed'
    exact ⟨node :: nodes, meanings_cons_of hnode hnodes, meanings_cons_of hnode' hnodes'⟩

/-! ### Rows and branches -/

/-- What items make in a row. -/
theorem meaning_ofItems_of {modes after : Modes} {items : List Ast} {nodes : List Node}
    (h : meanings? modes items = some (nodes, after)) :
    (ofItems items).meaning? modes = some (.seqAll nodes, after) := by
  match items with
  | [] =>
    cases h
    rfl
  | [item] =>
    obtain ⟨node, between, rest, hitem, hrest, rfl⟩ := meanings_cons h
    cases hrest
    exact hitem
  | first :: second :: items =>
    show (concat (first :: second :: items)).meaning? modes = _
    rw [meaning?, h]
    rfl

/-- What branches make. -/
theorem meaning_ofBranches_of {modes after : Modes} {branches : List Ast} {nodes : List Node}
    (hne : branches ≠ []) (h : meanings? modes branches = some (nodes, after)) :
    (ofBranches branches).meaning? modes = some (.altAll nodes, after) := by
  match branches with
  | [] => exact absurd rfl hne
  | [branch] =>
    obtain ⟨node, between, rest, hbranch, hrest, rfl⟩ := meanings_cons h
    cases hrest
    exact hbranch
  | first :: second :: branches =>
    show (alternation (first :: second :: branches)).meaning? modes = _
    rw [meaning?, h]
    rfl

theorem alike_ofItems {items others : List Ast} (h : AllAlike items others) :
    Alike (ofItems items) (ofItems others) := by
  intro hranges
  rw [ranges_ofItems] at hranges
  obtain ⟨nodes, hnodes, hnodes'⟩ := h hranges
  exact ⟨_, meaning_ofItems_of hnodes, meaning_ofItems_of hnodes'⟩

theorem alike_ofBranches {branches others : List Ast} (h : AllAlike branches others)
    (hne : branches ≠ []) (hne' : others ≠ []) : Alike (ofBranches branches) (ofBranches others) := by
  intro hranges
  rw [ranges_ofBranches hne] at hranges
  obtain ⟨nodes, hnodes, hnodes'⟩ := h hranges
  exact ⟨_, meaning_ofBranches_of hne hnodes, meaning_ofBranches_of hne' hnodes'⟩

/-! ### Items -/

theorem alike_repetition {ast other : Ast} (h : Alike ast other) (min : Nat) (max : Option Nat)
    (greedy : Bool) :
    Alike (repetition min max greedy ast) (repetition min max greedy other) := by
  intro hranges
  obtain ⟨node, hnode, hnode'⟩ := h hranges
  rw [meaning?, meaning?, hnode, hnode']
  simp only [bind, Option.bind_some]
  split
  · exact ⟨_, rfl, rfl⟩
  · exact ⟨_, rfl, rfl⟩

/-- A group that captures, or one without flags. -/
theorem alike_group {ast other : Ast} (h : Alike ast other) {kind : GroupKind}
    (hkind : ∀ change, kind = .flagged change → change = []) (start start' : Nat) :
    Alike (group kind start ast) (group kind start' other) := by
  intro hranges
  obtain ⟨node, hnode, hnode'⟩ := h hranges
  cases kind with
  | capturing index name =>
    rw [meaning?, meaning?, hnode, hnode']
    exact ⟨_, rfl, rfl⟩
  | flagged change =>
    have happly : ∀ modes : Modes, modes.apply change = modes := by
      intro modes
      rw [hkind change rfl]
      rfl
    rw [meaning?, meaning?, happly, happly, hnode, hnode']
    exact ⟨_, rfl, rfl⟩

theorem alike_bracket {set : ClassSet} (h : set.IgnoresCase) (place place' : Place) :
    Alike (bracket set place) (bracket set place') := by
  intro hranges
  obtain ⟨members, -, hmembers⟩ := h hranges
  refine ⟨.char members, ?_, ?_⟩
  · rw [meaning?, show (Modes.plain false).chars = ⟨false, true⟩ from rfl, hmembers]
    rfl
  · rw [meaning?, show (Modes.plain true).chars = ⟨true, true⟩ from rfl, hmembers]
    rfl

theorem alike_primitive {piece : Primitive} (node : Node)
    (h : ∀ ignoreCase : Bool, primitiveMeaning? (.plain ignoreCase) piece = some node) :
    Alike (primitive piece) (primitive piece) := by
  intro _
  refine ⟨node, ?_, ?_⟩
  · rw [meaning?, h]
    rfl
  · rw [meaning?, h]
    rfl

theorem alike_literal {c : Char} (h : isCased c = false) (byte : Bool) :
    Alike (primitive (.literal c byte)) (primitive (.literal c byte)) := by
  refine alike_primitive (.char (CharSet.ofChar ⟨false, true⟩ c)) fun ignoreCase => ?_
  rw [primitiveMeaning_literal]
  cases ignoreCase with
  | false => rfl
  | true => rw [Expr.ofChar_of_not_isCased h]

theorem alike_dot : Alike (primitive .dot) (primitive .dot) :=
  alike_primitive (.char (dotMeaning (.plain false))) fun _ => rfl

theorem alike_anchor (sign : AnchorSign) :
    Alike (primitive (.anchor sign)) (primitive (.anchor sign)) :=
  alike_primitive (.anchor (anchorMeaning (.plain false) sign)) fun _ => by
    cases sign <;> rfl

theorem alike_short (kind : ShortClass) (negated : Bool) :
    Alike (primitive (.short kind negated)) (primitive (.short kind negated)) := by
  cases negated with
  | false => exact alike_primitive (.char (kind.members true)) fun _ => rfl
  | true => exact alike_primitive (.char (kind.members true).complement) fun _ => rfl

end Ast

end Highlighter.Regex.Regular
