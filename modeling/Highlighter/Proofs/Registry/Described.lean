import Highlighter.Proofs.Registry.Growth

/-!
# Registries of grammars

Where every language was registered with a grammar, every lexer is that
of a grammar (`Registry.Described`). Compiling a slot keeps this: the
slot gets the lexer of its grammar, and the slots that are added have
grammars, those that the grammar brings along. So what holds of all
grammars, and of those that they bring along, holds of all grammars that
are ever compiled (`Registry.keeps_described`).
-/

set_option autoImplicit false

namespace Highlighter

variable {kind : Grammar → Prop}

/-- A slot has a grammar of a kind, and no other lexer than that of the
grammar. -/
def Slot.Described (kind : Grammar → Prop) (slot : Slot) : Prop :=
  ∃ grammar, slot.grammar = some grammar ∧ kind grammar ∧
    ∀ lexer, slot.lexer = some lexer → Lexer.ofGrammar grammar = .ok lexer

namespace Registry

variable {registry after : Registry} {number : Nat} {lexer : Lexer}

/-- All slots have grammars of a kind. -/
def Described (kind : Grammar → Prop) (registry : Registry) : Prop :=
  ∀ slot ∈ registry.slots, slot.Described kind

theorem Described.add (h : registry.Described kind) (ids : List String) {grammar : Grammar}
    (hgrammar : kind grammar) : (registry.add ids (.described grammar)).Described kind := by
  cases ids with
  | nil => exact h
  | cons name rest =>
    intro slot hslot
    rw [slots_add, Array.mem_push] at hslot
    rcases hslot with hslot | rfl
    · exact h slot hslot
    · -- The new slot is not compiled yet.
      exact ⟨grammar, rfl, hgrammar, fun lexer hlexer => by cases hlexer⟩

theorem Described.foldl_add (h : registry.Described kind) {list : List (Named Grammar)}
    (hlist : ∀ named ∈ list, kind named.grammar) :
    (list.foldl (fun registry named => registry.add named.ids (.described named.grammar))
      registry).Described kind := by
  induction list generalizing registry with
  | nil => exact h
  | cons named rest ih =>
    obtain ⟨hfirst, hrest⟩ := List.forall_mem_cons.mp hlist
    exact ih (h.add named.ids hfirst) hrest

/-- A slot gets the lexer of its grammar. -/
theorem Described.setLexer (h : registry.Described kind) {slot : Slot} {grammar : Grammar}
    (hslot : registry.slots[number]? = some slot) (hgrammar : slot.grammar = some grammar)
    (hlexer : Lexer.ofGrammar grammar = .ok lexer) :
    (registry.setLexer number lexer).Described kind := by
  intro later hlater
  unfold Registry.setLexer at hlater
  obtain ⟨place, hplace⟩ := Array.mem_iff_getElem?.mp hlater
  rw [Array.getElem?_modify] at hplace
  split at hplace
  · rename_i hsame
    subst hsame
    rw [hslot] at hplace
    cases hplace
    obtain ⟨known, hknown, hkind, -⟩ := h slot (Array.mem_of_getElem? hslot)
    rw [hgrammar] at hknown
    cases hknown
    exact ⟨grammar, hgrammar, hkind, fun other hother => Option.some.inj hother ▸ hlexer⟩
  · exact h later (Array.mem_of_getElem? hplace)

/-- Asking for lexers keeps the kind of the grammars, if what they bring
along is of that kind, too. -/
theorem keeps_described
    (hkind : ∀ grammar, kind grammar → ∀ named ∈ grammar.auxiliary, kind named.grammar) :
    Keeps (Described kind) := by
  intro registry number lexer after h hasks
  have hasked := asked_lexerOf registry number
  rw [hasks] at hasked
  cases hasked with
  | known hslot hlexer => exact h
  | @compiled slot grammar _ hslot hnone hgrammar hlexer hfree =>
    obtain ⟨known, hknown, hgood, -⟩ := h slot (Array.mem_of_getElem? hslot)
    rw [hgrammar] at hknown
    cases hknown
    have hkept := getElem?_slots_foldl_add registry grammar.auxiliary hslot
    exact (h.foldl_add (hkind grammar hgood)).setLexer hkept hgrammar hlexer

/-- A lexer that was asked for is that of a grammar, which the slot of
its language has. -/
theorem Described.exists_grammar (h : after.Described kind) {id : Option String}
    {source : List Char} {resolved : Resolved}
    (hresolved : registry.resolve id source = (.ok resolved, after)) :
    ∃ slot grammar, after.slots[resolved.number]? = some slot ∧ slot.grammar = some grammar ∧
      kind grammar ∧ Lexer.ofGrammar grammar = .ok resolved.lexer := by
  obtain ⟨-, slot, hslot, hlexer⟩ := exists_slot_of_resolve hresolved
  obtain ⟨grammar, hgrammar, hkind, hcompiled⟩ := h slot (Array.mem_of_getElem? hslot)
  exact ⟨slot, grammar, hslot, hgrammar, hkind, hcompiled _ hlexer⟩

end Registry

end Highlighter
