import Highlighter.Proofs.Regex.Regular.Alike
import Highlighter.Proofs.Regex.Regular.Derivation

/-!
# Patterns that may become others

When a pattern is rewritten, what it means changes a little: groups are no longer captured, letter
case may not count, carets are left out. Whether it is allowed does not change with that.
`Ast.MayBecome` says so of two patterns: where the first one is allowed, so is the second one, and
flags hold after it as they hold after the first one. Only the flag for letter case may differ.

Where letter case is spelt out, the new classes need that classes reach beyond ASCII. `folded` says
that they do.
-/

set_option autoImplicit false

namespace Highlighter.Regex

/-! ### Letter case and what is allowed -/

section LetterCase

variable (ignoreCase other unicode : Bool)

theorem CharSet.isSome_negate (negated : Bool) (set set' : CharSet) :
    (CharSet.negate? ⟨other, unicode⟩ negated set').isSome
      = (CharSet.negate? ⟨ignoreCase, unicode⟩ negated set).isSome := by
  cases negated <;> cases unicode <;> rfl

theorem PropertyQuery.isSome_members (negated : Bool) (query : PropertyQuery) :
    (query.members? ⟨other, unicode⟩ negated).isSome
      = (query.members? ⟨ignoreCase, unicode⟩ negated).isSome := by
  cases unicode with
  | false => rfl
  | true =>
    show (query.find?.map _).isSome = (query.find?.map _).isSome
    rw [Option.isSome_map, Option.isSome_map]

theorem isSome_both {α β : Type} (first second : Option α) (f : α → α → β) :
    (first.bind fun a => second.bind fun b => some (f a b)).isSome
      = (first.isSome && second.isSome) := by
  cases first <;> cases second <;> rfl

/-- Whether a class is allowed does not depend on letter case. -/
theorem ClassSet.isSome_meaning (set : ClassSet) :
    (set.meaning? ⟨other, unicode⟩).isSome = (set.meaning? ⟨ignoreCase, unicode⟩).isSome := by
  induction set with
  | none => rfl
  | literal c => rfl
  | range lo hi => rfl
  | posix kind negated => exact CharSet.isSome_negate _ _ _ _ _ _
  | short kind negated => exact CharSet.isSome_negate _ _ _ _ _ _
  | property query negated => exact PropertyQuery.isSome_members _ _ _ _ _
  | union first second ih ih' =>
    exact (isSome_both _ _ _).trans ((congrArg₂ _ ih ih').trans (isSome_both _ _ _).symm)
  | bracket negated body ih =>
    rw [meaning?, meaning?]
    cases hset : body.meaning? ⟨ignoreCase, unicode⟩ with
    | none =>
      have hnone : body.meaning? ⟨other, unicode⟩ = Option.none :=
        Option.not_isSome_iff_eq_none.mp (by rw [ih, hset]; exact Bool.false_ne_true)
      rw [hnone]
      rfl
    | some set =>
      rw [hset] at ih
      obtain ⟨set', hset'⟩ := Option.isSome_iff_exists.mp ih
      rw [hset']
      exact CharSet.isSome_negate _ _ _ _ _ _
  | intersection first second ih ih' =>
    exact (isSome_both _ _ _).trans ((congrArg₂ _ ih ih').trans (isSome_both _ _ _).symm)
  | difference first second ih ih' =>
    exact (isSome_both _ _ _).trans ((congrArg₂ _ ih ih').trans (isSome_both _ _ _).symm)
  | symmetricDifference first second ih ih' =>
    exact (isSome_both _ _ _).trans ((congrArg₂ _ ih ih').trans (isSome_both _ _ _).symm)

end LetterCase

namespace Regular

/-- The flags of a group; a group that captures has none. -/
def GroupKind.change : GroupKind → FlagChange
  | capturing _ _ => []
  | flagged change => change

/-- Flags that agree on all but letter case. -/
structure ModesAlike (folded : Bool) (modes other : Modes) : Prop where
  other_eq : other = { modes with ignoreCase := other.ignoreCase }
  unicode : folded = true → modes.unicode = true

namespace ModesAlike

variable {folded : Bool} {modes other : Modes}

theorem unicode_eq (h : ModesAlike folded modes other) :
    other.chars.unicode = modes.chars.unicode := by
  rw [h.other_eq]
  rfl

theorem apply (h : ModesAlike folded modes other) {change : FlagChange}
    (hchange : folded = true → change.value? .unicode ≠ some false) :
    ModesAlike folded (modes.apply change) (other.apply change) where
  other_eq := by
    rw [h.other_eq]
    rfl
  unicode hfolded := by
    show (change.value? .unicode).getD modes.unicode = true
    cases hvalue : change.value? .unicode with
    | none => exact h.unicode hfolded
    | some value =>
      cases value with
      | true => rfl
      | false => exact absurd hvalue (hchange hfolded)

theorem ignoring (h : ModesAlike folded modes other) :
    ModesAlike folded modes (other.apply [(.ignoreCase, true)]) where
  other_eq := by
    rw [h.other_eq]
    rfl
  unicode := h.unicode

end ModesAlike

namespace Ast

/-- Where the first pattern is allowed, so is the second one. -/
def MayBecome (folded : Bool) (ast other : Ast) : Prop :=
  ∀ ⦃modes modes' after : Modes⦄ ⦃node : Node⦄, ModesAlike folded modes modes' →
    ast.meaning? modes = some (node, after) →
    ∃ node' after', other.meaning? modes' = some (node', after') ∧
      ModesAlike folded after after'

/-- The patterns in a row may become others. Carets may be left out, and what can be repeated stays
so. -/
inductive RowBecomes (folded : Bool) : List Ast → List Ast → Prop where
  | nil : RowBecomes folded [] []
  | item {ast other : Ast} {items others : List Ast} (hitem : ast.MayBecome folded other)
    (hrepeat : ast.isRepeatable = true → other.isRepeatable = true)
    (hrest : RowBecomes folded items others) :
    RowBecomes folded (ast :: items) (other :: others)
  | caret {items others : List Ast} (hrest : RowBecomes folded items others) :
    RowBecomes folded (.primitive (.anchor .caret) :: items) others

namespace RowBecomes

variable {folded : Bool} {items others : List Ast}

theorem append {items' others' : List Ast} (h : RowBecomes folded items others)
    (h' : RowBecomes folded items' others') :
    RowBecomes folded (items ++ items') (others ++ others') := by
  induction h with
  | nil => exact h'
  | item hitem hrepeat _ ih => exact .item hitem hrepeat ih
  | caret _ ih => exact .caret ih

theorem reverse (h : RowBecomes folded items others) :
    RowBecomes folded items.reverse others.reverse := by
  induction h with
  | nil => exact .nil
  | item hitem hrepeat _ ih =>
    rw [List.reverse_cons, List.reverse_cons]
    exact ih.append (.item hitem hrepeat .nil)
  | caret _ ih =>
    rw [List.reverse_cons]
    simpa using ih.append (.caret .nil)

theorem meanings (h : RowBecomes folded items others) {modes modes' after : Modes}
    {nodes : List Node} (halike : ModesAlike folded modes modes')
    (hmeanings : meanings? modes items = some (nodes, after)) :
    ∃ nodes' after', meanings? modes' others = some (nodes', after') ∧
      ModesAlike folded after after' := by
  induction h generalizing modes modes' nodes with
  | nil =>
    cases hmeanings
    exact ⟨[], modes', rfl, halike⟩
  | item hitem _ _ ih =>
    obtain ⟨node, between, rest, hnode, hrest, -⟩ := meanings_cons hmeanings
    obtain ⟨node', between', hnode', halike⟩ := hitem halike hnode
    obtain ⟨nodes', after', hnodes', halike⟩ := ih halike hrest
    exact ⟨_, after', meanings_cons_of hnode' hnodes', halike⟩
  | caret _ ih =>
    obtain ⟨node, between, rest, hnode, hrest, -⟩ := meanings_cons hmeanings
    cases hnode
    exact ih halike hrest

theorem ofItems (h : RowBecomes folded items others) :
    (Ast.ofItems items).MayBecome folded (.ofItems others) := by
  intro modes modes' after node halike hmeaning
  obtain ⟨nodes, hnodes, -⟩ := meaning_ofItems hmeaning
  obtain ⟨nodes', after', hnodes', halike⟩ := h.meanings halike hnodes
  exact ⟨_, after', meaning_ofItems_of hnodes', halike⟩

end RowBecomes

variable {folded : Bool} {ast other : Ast}

/-- Branches may become others one by one. -/
theorem mayBecome_ofBranches {branches others : List Ast}
    (h : List.Forall₂ (MayBecome folded) branches others) (hne : branches ≠ []) :
    (ofBranches branches).MayBecome folded (.ofBranches others) := by
  have hall : ∀ {modes modes' after : Modes} {nodes : List Node}, ModesAlike folded modes modes' →
      meanings? modes branches = some (nodes, after) →
      ∃ nodes' after', meanings? modes' others = some (nodes', after') ∧
        ModesAlike folded after after' := by
    intro modes modes' after nodes halike hmeanings
    clear hne
    induction h generalizing modes modes' nodes with
    | nil =>
      cases hmeanings
      exact ⟨[], modes', rfl, halike⟩
    | cons hbranch _ ih =>
      obtain ⟨node, between, rest, hnode, hrest, -⟩ := meanings_cons hmeanings
      obtain ⟨node', between', hnode', halike⟩ := hbranch halike hnode
      obtain ⟨nodes', after', hnodes', halike⟩ := ih halike hrest
      exact ⟨_, after', meanings_cons_of hnode' hnodes', halike⟩
  have hne' : others ≠ [] := by
    rintro rfl
    exact hne (List.forall₂_nil_right_iff.mp h)
  intro modes modes' after node halike hmeaning
  obtain ⟨nodes, hnodes, -⟩ := meaning_ofBranches hne hmeaning
  obtain ⟨nodes', after', hnodes', halike⟩ := hall halike hnodes
  exact ⟨_, after', meaning_ofBranches_of hne' hnodes', halike⟩

theorem mayBecome_repetition (h : ast.MayBecome folded other) (min : Nat) (max : Option Nat)
    (greedy : Bool) :
    (repetition min max greedy ast).MayBecome folded (repetition min max greedy other) := by
  intro modes modes' after node halike hmeaning
  rw [meaning?] at hmeaning
  obtain ⟨⟨inner, between⟩, hinner, hmeaning⟩ := Option.bind_eq_some_iff.mp hmeaning
  obtain ⟨inner', between', hinner', halike⟩ := h halike hinner
  have hafter : after = between := by
    simp only at hmeaning
    split at hmeaning <;> cases hmeaning <;> rfl
  subst hafter
  rw [meaning?, hinner']
  simp only [bind, Option.bind_some]
  split
  · exact ⟨_, _, rfl, halike⟩
  · exact ⟨_, _, rfl, halike⟩

theorem mayBecome_capture (h : ast.MayBecome folded other) (index : Nat) (name : Option String)
    (start start' : Nat) :
    (group (.capturing index name) start ast).MayBecome folded
      (group (.flagged []) start' other) := by
  intro modes modes' after node halike hmeaning
  rw [meaning?] at hmeaning
  obtain ⟨⟨inner, between⟩, hinner, hmeaning⟩ := Option.bind_eq_some_iff.mp hmeaning
  cases hmeaning
  obtain ⟨inner', between', hinner', -⟩ := h halike hinner
  refine ⟨inner', modes', ?_, halike⟩
  rw [meaning?, show modes'.apply [] = modes' from rfl, hinner']
  rfl

theorem mayBecome_flagged (h : ast.MayBecome folded other) {change : FlagChange}
    (hchange : folded = true → change.value? .unicode ≠ some false) (start start' : Nat) :
    (group (.flagged change) start ast).MayBecome folded
      (group (.flagged change) start' other) := by
  intro modes modes' after node halike hmeaning
  rw [meaning?] at hmeaning
  obtain ⟨⟨inner, between⟩, hinner, hmeaning⟩ := Option.bind_eq_some_iff.mp hmeaning
  cases hmeaning
  obtain ⟨inner', between', hinner', -⟩ := h (halike.apply hchange) hinner
  refine ⟨inner', modes', ?_, halike⟩
  rw [meaning?, hinner']
  rfl

/-- A group need not be captured any more. -/
theorem mayBecome_group (h : ast.MayBecome folded other) (kind : GroupKind)
    (hchange : folded = true → kind.change.value? .unicode ≠ some false) (start start' : Nat) :
    (group kind start ast).MayBecome folded (group (.flagged kind.change) start' other) := by
  cases kind with
  | capturing index name => exact mayBecome_capture h index name start start'
  | flagged change => exact mayBecome_flagged h hchange start start'

theorem mayBecome_flags {change : FlagChange}
    (hchange : folded = true → change.value? .unicode ≠ some false) (place place' : Place) :
    (flags change place).MayBecome folded (flags change place') := by
  intro modes modes' after node halike hmeaning
  cases hmeaning
  exact ⟨_, _, rfl, halike.apply hchange⟩

/-- Flags do not change at a pattern that is a single piece. -/
theorem mayBecome_of_isSome {found found' : Modes → Option Node}
    (hast : ∀ modes, ast.meaning? modes = (found modes).map (·, modes))
    (hother : ∀ modes, other.meaning? modes = (found' modes).map (·, modes))
    (h : ∀ ⦃modes modes' : Modes⦄, ModesAlike folded modes modes' → (found modes).isSome = true →
      (found' modes').isSome = true) : ast.MayBecome folded other := by
  intro modes modes' after node halike hmeaning
  rw [hast] at hmeaning
  obtain ⟨inner, hinner, heq⟩ := Option.map_eq_some_iff.mp hmeaning
  cases heq
  obtain ⟨inner', hinner'⟩ :=
    Option.isSome_iff_exists.mp (h halike (Option.isSome_of_eq_some hinner))
  exact ⟨inner', modes', by rw [hother, hinner']; rfl, halike⟩

theorem meaning_bracket (set : ClassSet) (place : Place) (modes : Modes) :
    (bracket set place).meaning? modes = ((set.meaning? modes.chars).map .char).map (·, modes) := by
  rw [meaning?, Option.map_map]
  rfl

theorem isSome_meaning_alike {modes modes' : Modes} (h : ModesAlike folded modes modes')
    (set : ClassSet) :
    (set.meaning? modes'.chars).isSome = (set.meaning? modes.chars).isSome := by
  have hchars : modes'.chars = ⟨modes'.ignoreCase, modes.chars.unicode⟩ := by
    rw [← h.unicode_eq]
    rfl
  rw [hchars]
  exact set.isSome_meaning modes.ignoreCase _ _

theorem mayBecome_bracket (set : ClassSet) (place place' : Place) :
    (bracket set place).MayBecome folded (bracket set place') := by
  refine mayBecome_of_isSome (meaning_bracket set place) (meaning_bracket set place') ?_
  intro modes modes' halike hsome
  rw [Option.isSome_map] at hsome ⊢
  rwa [isSome_meaning_alike halike]

theorem mayBecome_primitive (piece : Primitive) :
    (primitive piece).MayBecome folded (primitive piece) := by
  refine mayBecome_of_isSome (fun _ => rfl) (fun _ => rfl) ?_
  intro modes modes' halike hsome
  rw [halike.other_eq]
  cases piece with
  | literal c byte =>
    rw [primitiveMeaning?] at hsome ⊢
    split at hsome
    · cases hsome
    · rename_i hbyte
      rw [if_neg hbyte]
      rfl
  | dot => 
    rw [primitiveMeaning?] at hsome ⊢
    split at hsome
    · rename_i hunicode
      rw [if_pos hunicode]
      rfl
    · cases hsome
  | anchor sign => rfl
  | short kind negated =>
    rw [primitiveMeaning?, Option.isSome_map] at hsome ⊢
    rwa [Modes.chars, CharSet.isSome_negate modes.ignoreCase]
  | property query negated =>
    rw [primitiveMeaning?, Option.isSome_map] at hsome ⊢
    rwa [Modes.chars, PropertyQuery.isSome_members modes.ignoreCase]

/-- A pattern may be put in a group in which letter case does not count. -/
theorem MayBecome.ignoring (h : ast.MayBecome folded other)
    (hafter : ∀ ⦃modes after : Modes⦄ ⦃node : Node⦄, ast.meaning? modes = some (node, after) →
      after = modes) (start : Nat) :
    ast.MayBecome folded (group (.flagged [(.ignoreCase, true)]) start other) := by
  intro modes modes' after node halike hmeaning
  obtain ⟨node', after', hother, -⟩ := h halike.ignoring hmeaning
  obtain rfl := hafter hmeaning
  refine ⟨node', modes', ?_, halike⟩
  rw [meaning?, hother]
  rfl

end Ast

end Regular

end Highlighter.Regex
