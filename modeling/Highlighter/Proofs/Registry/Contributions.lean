import Highlighter.Proofs.Lexer.Rules
import Highlighter.Proofs.Registry.Confluence
import Mathlib.Data.List.Pairwise

/-!
# What grammars contribute

A grammar contributes the identifiers that it brings along. Compiling
everything registers nothing else: an identifier that is registered
afterwards was registered before, or a grammar that was not compiled yet
contributed it, itself or one of those that come with it
(`View.CompilesAll.isSome_cases`).

A slot that can be compiled among others can be compiled first
(`compilesAll_first`), and its lexer is the one that it has in the end.
So whatever is compiled on demand, compiling everything is still ahead,
with the same end. What an embedding names stays the same until then if
it is registered, or will never be: `Settled` says so of a tag. The tags
of a grammar need not be settled before the grammar is compiled. Those
that it brings along, or that a grammar around it does, are settled from
then on (`Grammar.Scoped`).
-/

set_option autoImplicit false

namespace Highlighter

/-! ### Contributions -/

namespace Grammar

/-- The identifiers that a grammar brings along. -/
def brought (grammar : Grammar) : List String := grammar.auxiliary.flatMap Named.ids

end Grammar

mutual

/-- What each grammar in a grammar brings along, itself among them. -/
def Grammar.contributions : Grammar → List (List String)
  | ⟨_, _, auxiliary⟩ => auxiliary.flatMap Named.ids :: Named.contributionsAll auxiliary

/-- What each grammar in some grammars brings along. -/
def Named.contributionsAll : List (Named Grammar) → List (List String)
  | [] => []
  | ⟨_, grammar⟩ :: rest => grammar.contributions ++ Named.contributionsAll rest

end

theorem Grammar.contributions_eq (grammar : Grammar) :
    grammar.contributions = grammar.brought :: Named.contributionsAll grammar.auxiliary := by
  cases grammar
  rw [Grammar.contributions]
  rfl

theorem Named.contributions_subset {list : List (Named Grammar)} {named : Named Grammar}
    (h : named ∈ list) : named.grammar.contributions ⊆ Named.contributionsAll list := by
  induction list with
  | nil => cases h
  | cons first rest ih =>
    obtain ⟨ids, grammar⟩ := first
    rw [Named.contributionsAll]
    rcases List.mem_cons.mp h with rfl | hrest
    · exact List.subset_append_left _ _
    · exact List.Subset.trans (ih hrest) (List.subset_append_right _ _)

/-- What the grammar of a slot contributes, and those that come with it.
Once a grammar is compiled, those have slots of their own. -/
def Slot.contributions (slot : Slot) : List (List String) :=
  match slot.grammar with
  | none => []
  | some grammar => if slot.lexer.isSome then [grammar.brought] else grammar.contributions

/-- What each grammar of a registry contributes, as far as it has an
identifier. -/
def Registry.contributions (registry : Registry) : List (List String) :=
  (registry.ids.map Prod.snd).eraseDups.flatMap fun number =>
    (registry.slots[number]?.map Slot.contributions).getD []

/-! ### Tags -/

/-- Whether all languages that a lexer hands regions on to are of a
kind. -/
def Lexer.Tagged (known : String → Prop) (lexer : Lexer) : Prop :=
  ∀ rule ∈ lexer.rules, ∀ tag, rule.style.language? = some tag → known tag

mutual

/-- Whether each tag of a grammar, and of those that come with it, is of
a kind, or is brought along by the grammar or by one around it. -/
def Grammar.Scoped (known : String → Prop) : Grammar → Prop
  | ⟨shortcuts, fallbacks, auxiliary⟩ =>
    (∀ rule ∈ shortcuts ++ fallbacks, ∀ tag, rule.style.language? = some tag →
      known tag ∨ tag ∈ auxiliary.flatMap Named.ids) ∧
    Named.ScopedAll (fun tag => known tag ∨ tag ∈ auxiliary.flatMap Named.ids) auxiliary

/-- Whether the tags of some grammars are of a kind, or brought along. -/
def Named.ScopedAll (known : String → Prop) : List (Named Grammar) → Prop
  | [] => True
  | ⟨_, grammar⟩ :: rest => grammar.Scoped known ∧ Named.ScopedAll known rest

end

theorem Named.scopedAll_iff {known : String → Prop} {list : List (Named Grammar)} :
    Named.ScopedAll known list ↔ ∀ named ∈ list, named.grammar.Scoped known := by
  induction list with
  | nil => simp [Named.ScopedAll]
  | cons first rest ih =>
    obtain ⟨ids, grammar⟩ := first
    rw [Named.ScopedAll, ih, List.forall_mem_cons]

theorem Grammar.scoped_iff {known : String → Prop} {grammar : Grammar} :
    grammar.Scoped known ↔
      (∀ rule ∈ grammar.rules, ∀ tag, rule.style.language? = some tag →
        known tag ∨ tag ∈ grammar.brought) ∧
      ∀ named ∈ grammar.auxiliary,
        named.grammar.Scoped fun tag => known tag ∨ tag ∈ grammar.brought := by
  cases grammar
  rw [Grammar.Scoped, Named.scopedAll_iff]
  rfl

mutual

theorem Grammar.Scoped.mono {known known' : String → Prop} (h : ∀ tag, known tag → known' tag) :
    ∀ {grammar : Grammar}, grammar.Scoped known → grammar.Scoped known'
  | ⟨_, _, auxiliary⟩, hscoped => by
    rw [Grammar.Scoped] at hscoped ⊢
    refine ⟨fun rule hrule tag htag => (hscoped.1 rule hrule tag htag).imp_left (h tag), ?_⟩
    exact Named.ScopedAll.mono (fun tag htag => htag.imp_left (h tag)) hscoped.2

theorem Named.ScopedAll.mono {known known' : String → Prop} (h : ∀ tag, known tag → known' tag) :
    ∀ {list : List (Named Grammar)}, Named.ScopedAll known list → Named.ScopedAll known' list
  | [], _ => trivial
  | ⟨_, grammar⟩ :: rest, hscoped => by
    rw [Named.ScopedAll] at hscoped ⊢
    exact ⟨Grammar.Scoped.mono h hscoped.1, Named.ScopedAll.mono h hscoped.2⟩

end

/-- The tags of a lexer are those of its grammar. -/
theorem Grammar.Scoped.tagged {known : String → Prop} {grammar : Grammar} {lexer : Lexer}
    (h : grammar.Scoped known) (hlexer : Lexer.ofGrammar grammar = .ok lexer) :
    lexer.Tagged fun tag => known tag ∨ tag ∈ grammar.brought := by
  intro compiled hmem tag htag
  obtain ⟨rule, hrule, hstyle, -⟩ := Lexer.exists_rule hlexer hmem
  exact (Grammar.scoped_iff.mp h).1 rule hrule tag (hstyle ▸ htag)

/-- The tags of a language, be it compiled or not. -/
def Slot.Scoped (known : String → Prop) (slot : Slot) : Prop :=
  match slot.lexer, slot.grammar with
  | some lexer, _ => lexer.Tagged known
  | none, some grammar => grammar.Scoped known
  | none, none => True

theorem Slot.Scoped.mono {known known' : String → Prop} (h : ∀ tag, known tag → known' tag)
    {slot : Slot} (hslot : slot.Scoped known) : slot.Scoped known' := by
  unfold Slot.Scoped at hslot ⊢
  cases hlexer : slot.lexer with
  | some lexer =>
    rw [hlexer] at hslot
    exact fun rule hrule tag htag => h tag (hslot rule hrule tag htag)
  | none =>
    cases hgrammar : slot.grammar with
    | none => trivial
    | some grammar =>
      rw [hlexer, hgrammar] at hslot
      exact Grammar.Scoped.mono h hslot

namespace Registry.View

variable {view after later : View} {id other : String} {auxiliary : List (Named Grammar)}

/-! ### What compiling a slot adds -/

/-- A slot that was added is that of a grammar. -/
theorem slot?_addAll_cases {slot : Slot} (h : (view.addAll auxiliary).slot? id = some slot) :
    view.slot? id = some slot ∨ ∃ named ∈ auxiliary, id ∈ named.ids ∧ slot.lexer = none ∧
      slot.grammar = some named.grammar := by
  induction auxiliary generalizing view with
  | nil => exact .inl h
  | cons named rest ih =>
    have h : ((view.add named.ids (.described named.grammar)).addAll rest).slot? id = some slot := h
    rcases ih h with hadd | ⟨later, hlater, hfound⟩
    · rw [slot?_add] at hadd
      split at hadd
      · rename_i hmem
        cases hadd
        exact .inr ⟨named, List.mem_cons_self, hmem, rfl, rfl⟩
      · exact .inl hadd
    · exact .inr ⟨later, List.mem_cons_of_mem named hlater, hfound⟩

/-- All that the slot of an identifier can be after a slot has been
compiled: it is as before, or that of a grammar which has just been
compiled, or that of one which that brings along. -/
theorem Compiles.slot_cases (h : view.Compiles id after) {slot : Slot}
    (hslot : after.slot? other = some slot) :
    view.slot? other = some slot ∨ ∃ known grammar lexer, view.slot? id = some known ∧
      known.lexer = none ∧ known.grammar = some grammar ∧ Lexer.ofGrammar grammar = .ok lexer ∧
      ((view.slot? other).isSome = true ∨ other ∈ grammar.brought) ∧
      (slot.lexer = some lexer ∨ ∃ named ∈ grammar.auxiliary, slot.lexer = none ∧
        slot.grammar = some named.grammar) := by
  cases h with
  | known _ _ => exact .inl hslot
  | @fresh known grammar lexer hknown hnone hgrammar hlexer hfree =>
    rw [slot?_setLexer] at hslot
    split at hslot
    · -- The identifier shares the slot that has been compiled.
      obtain ⟨found, hfound, rfl⟩ := Option.map_eq_some_iff.mp hslot
      refine .inr ⟨known, grammar, lexer, hknown, hnone, hgrammar, hlexer, ?_, .inl rfl⟩
      rcases slot?_addAll_cases hfound with hold | ⟨named, hnamed, hids, -⟩
      · exact .inl (by rw [hold]; rfl)
      · exact .inr (List.mem_flatMap.mpr ⟨named, hnamed, hids⟩)
    · rcases slot?_addAll_cases hslot with hold | ⟨named, hnamed, hids, hnew⟩
      · exact .inl hold
      · exact .inr ⟨known, grammar, lexer, hknown, hnone, hgrammar, hlexer,
          .inr (List.mem_flatMap.mpr ⟨named, hnamed, hids⟩), .inr ⟨named, hnamed, hnew⟩⟩

/-- What a grammar brings along is registered once it is compiled. -/
theorem Compiles.isSome_of_brought (h : view.Compiles id after) {slot : Slot} {grammar : Grammar}
    (hslot : view.slot? id = some slot) (hnone : slot.lexer = none)
    (hgrammar : slot.grammar = some grammar) (hmem : other ∈ grammar.brought) :
    (after.slot? other).isSome = true := by
  cases h with
  | known hslot' hlexer =>
    rw [hslot] at hslot'
    cases hslot'
    rw [hnone] at hlexer
    cases hlexer
  | fresh hslot' _ hgrammar' hlexer hfree =>
    rw [hslot] at hslot'
    cases hslot'
    rw [hgrammar] at hgrammar'
    cases hgrammar'
    obtain ⟨named, hnamed, hids⟩ := List.mem_flatMap.mp hmem
    have hadded : (view.addAll grammar.auxiliary).slot? other ≠ none := fun hnil =>
      (slot?_addAll_eq_none_iff.mp hnil).2 named hnamed hids
    rw [slot?_setLexer]
    split
    · rw [Option.isSome_map]
      exact Option.isSome_iff_ne_none.mpr hadded
    · exact Option.isSome_iff_ne_none.mpr hadded

theorem CompilesAll.isSome {ids : List String} (h : CompilesAll view ids after)
    (hid : (view.slot? id).isSome = true) : (after.slot? id).isSome = true := by
  induction h with
  | nil => exact hid
  | cons hfirst _ ih => exact ih (hfirst.isSome hid)

theorem CompilesAll.append {ids ids' : List String} (h : CompilesAll view ids after)
    (h' : CompilesAll after ids' later) : CompilesAll view (ids ++ ids') later := by
  induction h with
  | nil => exact h'
  | cons hfirst _ ih => exact .cons hfirst (ih h')

/-! ### Identifiers that may come to be registered -/

/-- All that a view registers, or may come to register, is of a kind. -/
structure Reaches (view : View) (kind : String → Prop) : Prop where
  registered : ∀ id, (view.slot? id).isSome = true → kind id
  pending : ∀ id slot grammar, view.slot? id = some slot → slot.lexer = none →
    slot.grammar = some grammar → ∀ ids ∈ grammar.contributions, ∀ id ∈ ids, kind id

/-- Compiling a slot registers only what its grammar contributes. -/
theorem Compiles.reaches {kind : String → Prop} (h : view.Compiles id after)
    (hreaches : view.Reaches kind) : after.Reaches kind where
  registered other hother := by
    obtain ⟨slot, hslot⟩ := Option.isSome_iff_exists.mp hother
    rcases h.slot_cases hslot with
      hold | ⟨known, grammar, lexer, hknown, hnone, hgrammar, -, hold | hbrought, -⟩
    · exact hreaches.registered other (by rw [hold]; rfl)
    · exact hreaches.registered other hold
    · refine hreaches.pending id known grammar hknown hnone hgrammar grammar.brought ?_ other
        hbrought
      rw [Grammar.contributions_eq]
      exact List.mem_cons_self
  pending other slot grammar hslot hnone hgrammar := by
    rcases h.slot_cases hslot with
      hold | ⟨known, compiled, lexer, hknown, hnone', hcompiled, -, -, hlexer | hnew⟩
    · exact hreaches.pending other slot grammar hold hnone hgrammar
    · -- The slot is compiled, so it contributes nothing any more.
      rw [hnone] at hlexer
      cases hlexer
    · obtain ⟨named, hnamed, -, hnamed'⟩ := hnew
      rw [hgrammar] at hnamed'
      cases hnamed'
      intro ids hids
      refine hreaches.pending id known compiled hknown hnone' hcompiled ids ?_
      rw [Grammar.contributions_eq]
      exact List.mem_cons_of_mem _ (Named.contributions_subset hnamed hids)

theorem CompilesAll.reaches {kind : String → Prop} {ids : List String}
    (h : CompilesAll view ids after) (hreaches : view.Reaches kind) : after.Reaches kind := by
  induction h with
  | nil => exact hreaches
  | cons hfirst _ ih => exact ih (hfirst.reaches hreaches)

/-! ### Tags that keep their meaning -/

/-- A tag that is registered later is registered already. -/
def Settled (view later : View) (tag : String) : Prop :=
  (later.slot? tag).isSome = true → (view.slot? tag).isSome = true

/-- All tags in a view are settled, or will be once the grammar that
brings them along is compiled. -/
def ScopedTags (view later : View) : Prop :=
  ∀ id slot, view.slot? id = some slot → slot.Scoped (view.Settled later)

/-- Compiling a slot settles the tags that its grammar brings along. -/
theorem Compiles.scopedTags (h : view.Compiles id after) (hscoped : view.ScopedTags later) :
    after.ScopedTags later := by
  have hsettled : ∀ tag, view.Settled later tag → after.Settled later tag :=
    fun tag htag hlater => h.isSome (htag hlater)
  intro other slot hslot
  rcases h.slot_cases hslot with
    hold | ⟨known, grammar, lexer, hknown, hnone, hgrammar, hcompiled, -, hlexer | hnew⟩
  · exact (hscoped other slot hold).mono hsettled
  -- The grammar has just been compiled. What it brings along is settled from now on.
  all_goals
    have hgrammar' : grammar.Scoped (view.Settled later) := by
      have hslot := hscoped id known hknown
      unfold Slot.Scoped at hslot
      rw [hnone, hgrammar] at hslot
      exact hslot
    have hbrought : ∀ tag, view.Settled later tag ∨ tag ∈ grammar.brought →
        after.Settled later tag := by
      rintro tag (htag | htag)
      · exact hsettled tag htag
      · exact fun _ => h.isSome_of_brought hknown hnone hgrammar htag
  · unfold Slot.Scoped
    rw [hlexer]
    exact fun rule hrule tag htag => hbrought tag (hgrammar'.tagged hcompiled rule hrule tag htag)
  · obtain ⟨named, hnamed, hnone', hnamed'⟩ := hnew
    unfold Slot.Scoped
    rw [hnone', hnamed']
    exact Grammar.Scoped.mono hbrought ((Grammar.scoped_iff.mp hgrammar').2 named hnamed)

end Registry.View

namespace Registry

variable {registry warm : Registry} {id : String} {seen : View} {ids : List String}

open View (Compiles CompilesAll)

/-! ### Compiling a slot before the others -/

/-- Known lexers stay. -/
theorem compilesAll_slot?_eq (hwf : registry.WellFormed) (h : CompilesAll registry.view ids seen)
    {slot : Slot} {lexer : Lexer} (hslot : registry.view.slot? id = some slot)
    (hlexer : slot.lexer = some lexer) : seen.slot? id = some slot := by
  induction ids generalizing registry with
  | nil =>
    cases h
    exact hslot
  | cons first rest ih =>
    cases h with
    | cons hfirst h =>
      have hnext := hfirst.slot?_eq (coherent_view registry) hslot hlexer
      obtain ⟨next, hnextwf, rfl⟩ := exists_view_of_compiles hwf hfirst
      exact ih hnextwf h hnext

/-- If the slot of an identifier is compiled in the end, it can be
compiled first, and all the others after it. -/
theorem compilesAll_first (hwf : registry.WellFormed) (h : CompilesAll registry.view ids seen)
    (hid : (registry.view.slot? id).isSome = true)
    (hcompiled : ∀ slot, seen.slot? id = some slot → slot.lexer ≠ none) :
    ∃ first, registry.view.Compiles id first ∧ CompilesAll first ids seen := by
  induction ids generalizing registry with
  | nil =>
    cases h
    obtain ⟨slot, hslot⟩ := Option.isSome_iff_exists.mp hid
    obtain ⟨lexer, hlexer⟩ := Option.ne_none_iff_exists'.mp (hcompiled slot hslot)
    exact ⟨registry.view, .known hslot hlexer, .nil _⟩
  | cons other rest ih =>
    cases h with
    | cons hother h =>
      obtain ⟨next, hnextwf, rfl⟩ := exists_view_of_compiles hwf hother
      -- It can be compiled right after the first of the list, so it can change places with that.
      obtain ⟨second, hsecond, hrest⟩ := ih hnextwf h (hother.isSome hid)
      obtain ⟨first, hfirst, hthen⟩ := hother.swap (coherent_view registry) hid hsecond
      exact ⟨first, hfirst, .cons hthen hrest⟩

/-- Warming up compiles slots one after the other. -/
theorem exists_compilesAll_of_warmUpWithin (hwf : registry.WellFormed) {order : CompileOrder}
    {rounds : Nat} (h : warmUpWithin order.arrange rounds registry = (.ok (), warm)) :
    ∃ ids, CompilesAll registry.view ids warm.view := by
  induction rounds generalizing registry with
  | zero =>
    cases h
    exact ⟨[], .nil _⟩
  | succ rounds ih =>
    rw [warmUpWithin] at h
    split at h
    · cases h
      exact ⟨[], .nil _⟩
    · split at h
      · cases h
      · rename_i next hround
        have hname : ∀ number ∈ order.arrange registry.pending,
            registry.slotOf? (registry.nameOf number) = some number := fun number hmem =>
          slotOf?_nameOf (hwf.mem_ids_iff.mp
            (mem_pending.mp ((order.perm registry.pending).mem_iff.mp hmem)).1)
        have hnext := hwf.compileAll (order.arrange registry.pending)
        rw [hround] at hnext
        obtain ⟨ids, hrest⟩ := ih hnext h
        exact ⟨_, (compilesAll_of_compileAll hwf hname hround).append hrest⟩

/-! ### What is settled from the start -/

/-- What the slot of an identifier contributes is listed. -/
theorem mem_contributions {slot : Slot} (hslot : registry.view.slot? id = some slot)
    {contributed : List String} (hmem : contributed ∈ slot.contributions) :
    contributed ∈ registry.contributions := by
  obtain ⟨number, hid, hslot⟩ := Option.bind_eq_some_iff.mp hslot
  refine List.mem_flatMap.mpr ⟨number, List.mem_eraseDups.mpr (mem_ids_of_slotOf? hid), ?_⟩
  rw [hslot]
  exact hmem

/-- Whether no two grammars contribute one identifier. -/
def ContributesOnce (registry : Registry) : Prop :=
  registry.contributions.Pairwise List.Disjoint

/-- Whether no grammar contributes an identifier. -/
def Uncontributed (registry : Registry) (id : String) : Prop :=
  ∀ contributed ∈ registry.contributions, id ∉ contributed

/-- Whether a tag is registered, or contributed by no grammar, or by one
that is compiled. -/
def Fixed (registry : Registry) (tag : String) : Prop :=
  registry.isRegistered tag = true ∨ registry.Uncontributed tag ∨
    ∃ id slot grammar, registry.view.slot? id = some slot ∧ slot.lexer.isSome = true ∧
      slot.grammar = some grammar ∧ tag ∈ grammar.brought

/-- Whether each tag of a grammar is fixed, or is brought along by the
grammar or by one that it comes with. -/
def TagsInScope (registry : Registry) : Prop :=
  ∀ id slot, registry.view.slot? id = some slot → slot.Scoped registry.Fixed

/-- A compiled grammar contributes nothing that one which is not
compiled yet does. -/
theorem ContributesOnce.disjoint (h : registry.ContributesOnce) {other : String}
    {slot slot' : Slot} (hslot : registry.view.slot? id = some slot)
    (hslot' : registry.view.slot? other = some slot') (hcompiled : slot.lexer.isSome = true)
    (hnone : slot'.lexer = none) {contributed contributed' : List String}
    (hmem : contributed ∈ slot.contributions) (hmem' : contributed' ∈ slot'.contributions) :
    contributed.Disjoint contributed' := by
  obtain ⟨number, hid, hnumber⟩ := Option.bind_eq_some_iff.mp hslot
  obtain ⟨number', hid', hnumber'⟩ := Option.bind_eq_some_iff.mp hslot'
  have hne : number ≠ number' := by
    rintro rfl
    rw [hnumber] at hnumber'
    cases hnumber'
    rw [hnone] at hcompiled
    cases hcompiled
  obtain ⟨-, hacross⟩ := List.pairwise_flatMap.mp h
  -- The slots are different ones, and `Pairwise` says it of them in one order only.
  have hsymm : Std.Symm fun first second : Nat =>
      ∀ contributed ∈ (registry.slots[first]?.map Slot.contributions).getD [],
        ∀ contributed' ∈ (registry.slots[second]?.map Slot.contributions).getD [],
          contributed.Disjoint contributed' :=
    ⟨fun _ _ h contributed hmem contributed' hmem' id hid hid' =>
      h contributed' hmem' contributed hmem hid' hid⟩
  refine hacross.forall (List.mem_eraseDups.mpr (mem_ids_of_slotOf? hid))
    (List.mem_eraseDups.mpr (mem_ids_of_slotOf? hid')) hne contributed ?_ contributed' ?_
  · rw [hnumber]
    exact hmem
  · rw [hnumber']
    exact hmem'

/-- An identifier that comes to be registered is contributed by a
grammar that is not compiled yet. -/
theorem exists_pending_of_isSome (h : CompilesAll registry.view ids warm.view)
    (hnone : registry.view.slot? id = none) (hsome : (warm.view.slot? id).isSome = true) :
    ∃ other slot contributed, registry.view.slot? other = some slot ∧ slot.lexer = none ∧
      contributed ∈ slot.contributions ∧ id ∈ contributed := by
  have hreaches : registry.view.Reaches fun id => (registry.view.slot? id).isSome = true ∨
      ∃ other slot contributed, registry.view.slot? other = some slot ∧ slot.lexer = none ∧
        contributed ∈ slot.contributions ∧ id ∈ contributed := by
    refine ⟨fun id hid => .inl hid, fun other slot grammar hslot hnone hgrammar contributed hmem
      id hid => .inr ⟨other, slot, contributed, hslot, hnone, ?_, hid⟩⟩
    unfold Slot.contributions
    simp only [hgrammar, hnone, Option.isSome_none, Bool.false_eq_true, if_false]
    exact hmem
  -- All that the start reaches is registered there, or contributed by a pending grammar.
  refine ((h.reaches hreaches).registered id hsome).resolve_left fun hid => ?_
  rw [hnone] at hid
  cases hid

theorem WellFormed.isRegistered_iff (hwf : registry.WellFormed) :
    registry.isRegistered id = true ↔ (registry.view.slot? id).isSome = true := by
  rw [← Bool.not_eq_false, isRegistered_eq_false, ← hwf.slot?_eq_none_iff, ← ne_eq,
    Option.isSome_iff_ne_none]

/-- Tags that are fixed are settled. -/
theorem Fixed.settled (hwf : registry.WellFormed) (honce : registry.ContributesOnce)
    (hcompiles : CompilesAll registry.view ids warm.view) {tag : String}
    (h : registry.Fixed tag) : registry.view.Settled warm.view tag := by
  intro hlater
  by_contra hnone
  rw [Option.isSome_iff_ne_none, ne_eq, not_not] at hnone
  obtain ⟨other, slot, contributed, hslot, hlexer, hmem, htag⟩ :=
    exists_pending_of_isSome hcompiles hnone hlater
  rcases h with hregistered | huncontributed | ⟨id, slot', grammar, hslot', hcompiled, hgrammar,
    hbrought⟩
  · rw [hwf.isRegistered_iff, hnone] at hregistered
    cases hregistered
  · exact huncontributed contributed (mem_contributions hslot hmem) htag
  · refine honce.disjoint hslot' hslot hcompiled hlexer ?_ hmem hbrought htag
    unfold Slot.contributions
    simp only [hgrammar, hcompiled, if_true]
    exact List.mem_singleton_self _

end Registry

end Highlighter
