import Highlighter.Proofs.Embedding.Depth
import Highlighter.Proofs.Registry.Contributions

/-!
# Compiling on demand cannot be observed

A language may be compiled when a region in it is met, in the middle of
a decoration. Another registry where everything has been compiled before
is then ahead of the one in use (`Registry.Ahead`): it is where
compiling the rest leads to, and each tag that is in use names the same
in both, or will once the grammar that brings it along is compiled.

Asking for the lexer of a region keeps that, and gives the same lexer in
both (`Registry.Ahead.resolve`). So two decorations, one of them on
demand, go side by side (`simulation_ahead`). They are given different
depths, both of which are beyond the bound of the compiled registry.
Hence they end in the same way (`Registry.decorate_onDemand`).
-/

set_option autoImplicit false

namespace Highlighter

namespace Registry

open View (CompilesAll)

variable {registry warm after : Registry} {number : Nat} {lexer : Lexer}
  {language : Option String} {source : List Char}

/-! ### Where everything is ahead -/

/-- Everything is compiled in a registry that another one leads to, and
tags mean the same in both. -/
structure Ahead (warm registry : Registry) : Prop where
  wellFormed : registry.WellFormed
  hasDefaults : registry.HasDefaults
  compiles : ∃ ids, CompilesAll registry.view ids warm.view
  tags : registry.view.ScopedTags warm.view

theorem slot?_of_slotOf? (hwf : registry.WellFormed) {id : String}
    (h : registry.slotOf? id = some number) : (registry.view.slot? id).isSome = true := by
  rw [view_slot? h, Array.getElem?_eq_getElem (hwf.lt_size id number h)]
  rfl

/-- A language that means the same in both registries has the slots of
one identifier. -/
theorem Ahead.slotFor (h : Ahead warm registry) (hwf : warm.WellFormed)
    (hsettled : ∀ id, language = some id → registry.view.Settled warm.view id)
    (source : List Char) :
    ∃ id number number', registry.slotOf? id = some number ∧
      registry.slotFor language source = .ok number ∧ warm.slotOf? id = some number' ∧
      warm.slotFor language source = .ok number' := by
  obtain ⟨ids, hcompiles⟩ := h.compiles
  -- What is registered now is registered when everything is compiled.
  have hlater : ∀ id number, registry.slotOf? id = some number →
      ∃ number', warm.slotOf? id = some number' := by
    intro id number hid
    have hsome := hcompiles.isSome (slot?_of_slotOf? h.wellFormed hid)
    rw [Option.isSome_iff_ne_none, ne_eq, hwf.slot?_eq_none_iff] at hsome
    exact Option.ne_none_iff_exists'.mp hsome
  by_cases hregistered : ∃ id number, language = some id ∧ registry.slotOf? id = some number
  · obtain ⟨id, number, rfl, hid⟩ := hregistered
    obtain ⟨number', hid'⟩ := hlater id number hid
    refine ⟨id, number, number', hid, ?_, hid', ?_⟩
    · unfold Registry.slotFor
      rw [Option.bind_some, hid]
    · unfold Registry.slotFor
      rw [Option.bind_some, hid']
  · -- The language is guessed in both.
    have hnone : language.bind registry.slotOf? = none := by
      rw [Option.bind_eq_none_iff]
      rintro id rfl
      exact Option.eq_none_iff_forall_ne_some.mpr fun number hid =>
        hregistered ⟨id, number, rfl, hid⟩
    have hnone' : language.bind warm.slotOf? = none := by
      rw [Option.bind_eq_none_iff] at hnone ⊢
      intro id hid
      rw [← hwf.slot?_eq_none_iff, ← Option.not_isSome_iff_eq_none]
      intro hsome
      have hearlier := hsettled id hid hsome
      rw [Option.isSome_iff_ne_none, ne_eq, h.wellFormed.slot?_eq_none_iff] at hearlier
      exact hearlier (hnone id hid)
    obtain ⟨number, hguess⟩ := h.hasDefaults.exists_guess source
    obtain ⟨number', hguess'⟩ := hlater _ number hguess
    refine ⟨guess source, number, number', hguess, ?_, hguess', ?_⟩
    · unfold Registry.slotFor
      simp only [hnone, hguess]
    · unfold Registry.slotFor
      simp only [hnone', hguess']

/-- Asking for the lexer of a language gives the same lexer in both
registries, whose tags mean the same from then on. -/
theorem Ahead.resolve (h : Ahead warm registry) (hwf : warm.WellFormed)
    (hcompiled : warm.pending = [])
    (hsettled : ∀ id, language = some id → registry.view.Settled warm.view id)
    (source : List Char) :
    ∃ resolved number after, registry.resolve language source = (.ok resolved, after) ∧
      warm.resolve language source = (.ok ⟨number, resolved.lexer⟩, warm) ∧
      Ahead warm after ∧ registry.GrowsTo after ∧
      resolved.lexer.Tagged (after.view.Settled warm.view) := by
  obtain ⟨id, number, number', hid, hfor, hid', hfor'⟩ := h.slotFor hwf hsettled source
  obtain ⟨ids, hcompiles⟩ := h.compiles
  have hall := (pending_eq_nil_iff hwf).mp hcompiled
  -- The slot can be compiled before all the others, with the same end.
  obtain ⟨first, hfirst, hrest⟩ := compilesAll_first h.wellFormed hcompiles
    (slot?_of_slotOf? h.wellFormed hid) (hall id)
  obtain ⟨lexer, after, hlexer, rfl⟩ := lexerOf_of_compiles h.wellFormed hid hfirst
  have hgrows := growsTo_lexerOf hlexer
  have hafter := h.wellFormed.lexerOf hlexer
  obtain ⟨slot, hslot, hknown⟩ := getElem?_of_lexerOf hlexer
  have hseen : after.view.slot? id = some slot :=
    (view_slot? (hgrows.slotOf?_eq id number hid)).trans hslot
  -- The lexer stays until everything is compiled.
  have hwarm : warm.slots[number']? = some slot :=
    (view_slot? hid').symm.trans (compilesAll_slot?_eq hafter hrest hseen hknown)
  have hscoped := hfirst.scopedTags h.tags
  refine ⟨⟨number, lexer⟩, number', after, ?_, ?_,
    ⟨hafter, h.hasDefaults.mono hgrows, ⟨ids, hrest⟩, hscoped⟩, hgrows, ?_⟩
  · unfold Registry.resolve
    simp only [hfor, hlexer]
  · unfold Registry.resolve lexerOf
    simp only [hfor', hwarm, hknown]
    rfl
  · have htags := hscoped id slot hseen
    unfold Slot.Scoped at htags
    rw [hknown] at htags
    exact htags

end Registry

/-! ### Side by side -/

/-- How registries and the lexer in use are related when languages are
compiled on demand in one of them. -/
def OnDemand (warm : Registry) (lexer : Lexer) (registry other : Registry) : Prop :=
  Registry.Ahead warm registry ∧ lexer.Tagged (registry.view.Settled warm.view) ∧ other = warm

/-- A tag that means the same in both registries does so when the one in
use has grown. -/
theorem OnDemand.of_growsTo {warm registry after : Registry} {lexer : Lexer}
    (h : OnDemand warm lexer registry warm) (hgrows : registry.GrowsTo after)
    (hafter : Registry.Ahead warm after) : OnDemand warm lexer after warm := by
  refine ⟨hafter, fun rule hrule tag htag hlater => ?_, rfl⟩
  have hsome := h.2.1 rule hrule tag htag hlater
  rw [Option.isSome_iff_ne_none, ne_eq, h.1.wellFormed.slot?_eq_none_iff] at hsome
  obtain ⟨number, hnumber⟩ := Option.ne_none_iff_exists'.mp hsome
  exact Registry.slot?_of_slotOf? hafter.wellFormed (hgrows.slotOf?_eq tag number hnumber)

/-- Two decorations go side by side, one of them on demand. -/
theorem simulation_onDemand {warm : Registry} (hwf : warm.WellFormed)
    (hcompiled : warm.pending = []) :
    Simulation warm (· = .error .endlessEmbedding) (OnDemand warm) := by
  -- The language of a region is a tag of the lexer in use.
  have hresolve : ∀ {call : Call} {token : List Char} {language : Option String} {cut : Text.Cut}
      {place : Nat} {registry other : Registry}, call.HandsOn token language cut place →
      OnDemand warm call.lexer registry other →
      other = warm ∧ ∃ resolved number after,
        registry.resolve language cut.body = (.ok resolved, after) ∧
        warm.resolve language cut.body = (.ok ⟨number, resolved.lexer⟩, warm) ∧
        Registry.Ahead warm after ∧ registry.GrowsTo after ∧
        resolved.lexer.Tagged (after.view.Settled warm.view) := by
    rintro call token language cut place registry other hhands ⟨hahead, htags, rfl⟩
    refine ⟨rfl, hahead.resolve hwf hcompiled (fun id hid => ?_) cut.body⟩
    obtain ⟨rule, captures, group, hrule, -, -, hlanguage, -⟩ := hhands.exists_rule
    exact htags rule hrule id (hlanguage ▸ hid)
  refine ⟨fun _ h => (nomatch h), fun _ _ _ h => h.2.2 ▸ .refl, ?_, ?_, ?_⟩
  · intro call token language cut place registry other hhands hrel
    obtain ⟨rfl, resolved, number, after, hfirst, hsecond, -⟩ := hresolve hhands hrel
    rw [hfirst, hsecond]
    rfl
  · intro call token language cut place registry other hhands hrel lexer hlexer
    obtain ⟨rfl, resolved, number, after, hfirst, hsecond, hafter, hgrows, -⟩ :=
      hresolve hhands hrel
    rw [hfirst, hsecond]
    exact hlexer.of_growsTo hgrows hafter
  · intro call token language cut place registry other hhands hrel resolved' hresolved'
    obtain ⟨rfl, resolved, number, after, hfirst, hsecond, hafter, -, htags⟩ :=
      hresolve hhands hrel
    rw [hsecond] at hresolved' ⊢
    cases hresolved'
    rw [hfirst]
    exact ⟨hafter, htags, rfl⟩

/-- So they end in the same way at each depth. -/
theorem run_fst_eq_of_onDemand {warm registry : Registry} {call : Call} (hwf : warm.WellFormed)
    (hcompiled : warm.pending = []) (hrel : OnDemand warm call.lexer registry warm) (depth : Nat) :
    (call.run depth registry).1 = (call.run depth warm).1 := by
  have hagree : ∀ call, Simulation.AgreeOn (· = .error .endlessEmbedding) (OnDemand warm)
      (decorateWithin depth) (decorateWithin depth) call := by
    induction depth with
    | zero => exact fun _ _ _ _ => .endless rfl
    | succ depth ih =>
      exact fun _ _ _ hrel =>
        (simulation_onDemand hwf hcompiled).agree_run (fun inner _ => ih inner) hrel
  have hpair := hagree call registry warm hrel
  unfold Call.run
  generalize decorateWithin depth registry call.lexer call.source call.base = result at hpair
  generalize decorateWithin depth warm call.lexer call.source call.base = result' at hpair
  cases hpair with
  | endless hendless => exact hendless
  | same _ _ => rfl

/-! ### On demand or in advance -/

namespace Registry

variable {start registry warm : Registry} {order : CompileOrder} {language : Option String}

/-- A decoration with a lexer ends in the same way, whether languages are
compiled on demand or have been compiled before. -/
theorem Ahead.decorateWith (h : Ahead warm registry) (hwf : warm.WellFormed)
    (hcompiled : warm.pending = []) (hsize : warm.slots.size ≤ registry.count) {lexer : Lexer}
    (htags : lexer.Tagged (registry.view.Settled warm.view)) (source : List Char) (base : Nat) :
    (registry.decorateWith lexer source base).1 = (warm.decorateWith lexer source base).1 := by
  let call : Call := ⟨lexer, source, base⟩
  have hrel : OnDemand warm call.lexer registry warm := ⟨h, htags, rfl⟩
  have hsame := run_fst_eq_of_onDemand hwf hcompiled hrel (registry.nesting source)
  -- The depths differ, but each is beyond the bound of the compiled registry.
  have hbound : Call.bound warm source ≤ registry.nesting source :=
    Nat.mul_le_mul (by omega) (by omega)
  have hdepth : call.run (registry.nesting source) warm = call.run (warm.nesting source) warm :=
    Call.run_eq_of_bound_le hcompiled hbound (Call.bound_le_nesting warm source)
  rw [decorateWith_fst, decorateWith_fst]
  exact congrArg (Except.map _) (hsame.trans (congrArg Prod.fst hdepth))

/-- Compiling on demand cannot be observed. Take a registry that a run
of requests leads to from one with the default grammars, and on which
warming up succeeds. If no identifier is contributed by two grammars,
and each tag of a grammar is registered, or contributed by no grammar,
or by a compiled one, or by the grammar itself or one around it, then a
decoration ends in the same way before and after warming up. Its
language may be left open, registered, or contributed by no grammar. -/
theorem decorate_onDemand (hwf : start.WellFormed) (hdefaults : start.HasDefaults)
    (hreachable : Reachable start registry) (hwarm : registry.warmUpIn order = (.ok (), warm))
    (honce : registry.ContributesOnce) (hscope : registry.TagsInScope)
    (hlanguage : ∀ id, language = some id →
      registry.isRegistered id = true ∨ registry.Uncontributed id)
    (source : List Char) (base : Nat) :
    (registry.decorate language source base).1 = (warm.decorate language source base).1 := by
  have hregistry := hreachable.wellFormed hwf
  have hcompiled := pending_of_warmUpWithin order.perm (waiting_lt_count registry) hwarm
  have hafter := hregistry.of_warmUpIn hwarm
  obtain ⟨ids, hcompiles⟩ := exists_compilesAll_of_warmUpWithin hregistry hwarm
  -- What a fixed tag names now is what it names when everything is compiled.
  have hsettled : ∀ tag, registry.Fixed tag → registry.view.Settled warm.view tag :=
    fun tag htag => htag.settled hregistry honce hcompiles
  have hahead : Ahead warm registry := {
    wellFormed := hregistry
    hasDefaults := (hreachable.keepsDefaults hwf).hasDefaults hdefaults
    compiles := ⟨ids, hcompiles⟩
    tags := fun id slot hslot => (hscope id slot hslot).mono hsettled }
  obtain ⟨resolved, number, next, hfirst, hsecond, hnext, -, htags⟩ :=
    hahead.resolve hafter hcompiled (fun id hid => hsettled id
      ((hlanguage id hid).imp_right .inl)) source
  have hsize : warm.slots.size ≤ next.count := by
    have hcount := count_le_resolve registry language source
    rw [hfirst] at hcount
    exact (size_warmUpWithin_le_count hwarm).trans hcount
  unfold decorate
  rw [hfirst, hsecond]
  exact hnext.decorateWith hafter hcompiled hsize htags source base

end Registry

namespace Tagged

/-- Words are keywords. -/
def words : Grammar := ⟨[], [⟨.keyword, .ofSource "^[a-z]+", []⟩], []⟩

/-- Words in angle brackets are handed on, in a language that the grammar
brings along. -/
def bracketed : Grammar :=
  ⟨[], [⟨.embedded "word", .ofSource "^<([a-z]+)>", []⟩], [⟨["word"], words⟩]⟩

/-- All sources are words in angle brackets, unless they start with
one. -/
def registry : Registry :=
  (Registry.empty.add [Registry.defaultCode] (.described bracketed)).add
    [Registry.defaultMarkup] (.described words)

theorem wellFormed_registry : registry.WellFormed := (Registry.wellFormed_empty.add _ _).add _ _

theorem tagsInScope_registry : registry.TagsInScope := by
  intro id slot hslot
  obtain ⟨number, -, hslot⟩ := Option.bind_eq_some_iff.mp hslot
  have hmem : slot ∈ registry.slots.toList := by
    rw [Array.mem_toList_iff]
    exact Array.mem_of_getElem? hslot
  have hslots : registry.slots.toList
      = [⟨Registry.defaultCode, some bracketed, none⟩, ⟨Registry.defaultMarkup, some words, none⟩] :=
    rfl
  have hwords : ∀ known, words.Scoped known := by
    intro known
    refine Grammar.scoped_iff.mpr ⟨fun rule hrule tag htag => ?_, fun named hnamed => ?_⟩
    · cases List.mem_singleton.mp hrule
      cases htag
    · cases hnamed
  rw [hslots] at hmem
  rcases List.mem_cons.mp hmem with rfl | hmem
  · refine Grammar.scoped_iff.mpr ⟨fun rule hrule tag htag => ?_, fun named hnamed => ?_⟩
    · cases List.mem_singleton.mp hrule
      cases htag
      exact .inr (List.mem_singleton_self _)
    · cases List.mem_singleton.mp hnamed
      exact hwords _
  · cases List.mem_singleton.mp hmem
    exact hwords _

end Tagged

namespace Registry

open Tagged in
theorem decorate_onDemand_tagged :
    Tagged.registry.isRegistered "word" = false ∧
      ∃ warm, Tagged.registry.warmUpIn .listed = (.ok (), warm) ∧
        (Tagged.registry.decorate none "-<ab>".toList 7).1
          = (warm.decorate none "-<ab>".toList 7).1 := by
  have hwarm : Tagged.registry.warmUpIn .listed
      = (.ok (), (Tagged.registry.warmUpIn .listed).2) := Prod.ext (by decide +kernel) rfl
  have honce : Tagged.registry.ContributesOnce := by
    show Tagged.registry.contributions.Pairwise _
    rw [show Tagged.registry.contributions = [["word"], [], []] from by decide +kernel]
    simp
  refine ⟨by decide +kernel, _, hwarm, decorate_onDemand wellFormed_registry
    ⟨⟨0, rfl⟩, ⟨1, rfl⟩⟩ .start hwarm honce tagsInScope_registry ?_ _ 7⟩
  intro id hid
  cases hid

end Registry

end Highlighter
