import Highlighter.Proofs.Registry.Identifiers

/-!
# What compiling does to a registry

A registry grows (`GrowsTo`) if each identifier keeps its slot, and each
slot its name and its grammar, and its lexer once it has one.
`Asked` says all that asking for a lexer can do, and everything that
compiles is made of that: resolving an identifier, compiling a round of
slots and warming up only let a registry grow (`growsTo_resolve`,
`growsTo_warmUpWithin`).

None of them says that a language is unknown, as long as the default
grammars are registered (`resolve_ne_unknown`,
`warmUpWithin_ne_unknown`).
-/

set_option autoImplicit false

namespace Highlighter

/-- What a slot may become: it may be compiled. -/
structure Slot.Becomes (slot later : Slot) : Prop where
  name_eq : later.name = slot.name
  grammar_eq : later.grammar = slot.grammar
  lexer_eq : ∀ lexer, slot.lexer = some lexer → later.lexer = some lexer

theorem Slot.Becomes.refl (slot : Slot) : slot.Becomes slot := ⟨rfl, rfl, fun _ h => h⟩

theorem Slot.Becomes.trans {slot between later : Slot} (h : slot.Becomes between)
    (h' : between.Becomes later) : slot.Becomes later where
  name_eq := h'.name_eq.trans h.name_eq
  grammar_eq := h'.grammar_eq.trans h.grammar_eq
  lexer_eq lexer hlexer := h'.lexer_eq lexer (h.lexer_eq lexer hlexer)

/-! ### Faults of a grammar -/

section

variable {α β ε ε' : Type}

/-- Two steps fail where the first one does, or the second one. -/
theorem bind_eq_error {first : Except ε α} {second : α → Except ε β} {error : ε}
    (h : (first >>= second) = .error error) :
    first = .error error ∨ ∃ value, first = .ok value ∧ second value = .error error := by
  cases first with
  | error known =>
    cases h
    exact .inl rfl
  | ok value => exact .inr ⟨value, rfl, h⟩

/-- Two steps succeed where both do. -/
theorem bind_eq_ok_iff {first : Except ε α} {second : α → Except ε β} {result : β} :
    (first >>= second) = .ok result ↔ ∃ value, first = .ok value ∧ second value = .ok result := by
  constructor
  · intro h
    cases first with
    | error error => cases h
    | ok value => exact ⟨value, rfl, h⟩
  · rintro ⟨value, rfl, h⟩
    exact h

/-- A list of results fails with one of its faults. -/
theorem mapM_eq_error {f : α → Except ε β} {xs : List α} {error : ε}
    (h : xs.mapM f = .error error) : ∃ x ∈ xs, f x = .error error := by
  induction xs with
  | nil => cases h
  | cons x xs ih =>
    rw [List.mapM_cons] at h
    obtain hx | ⟨y, -, h⟩ := bind_eq_error h
    · exact ⟨x, List.mem_cons_self, hx⟩
    obtain hxs | ⟨ys, -, h⟩ := bind_eq_error h
    · obtain ⟨x', hmem, heq⟩ := ih hxs
      exact ⟨x', List.mem_cons_of_mem x hmem, heq⟩
    · cases h

theorem mapError_eq_error {f : ε → ε'} {result : Except ε α} {error : ε'}
    (h : result.mapError f = .error error) : ∃ known, result = .error known ∧ f known = error := by
  cases result with
  | error known =>
    cases h
    exact ⟨known, rfl, rfl⟩
  | ok value => cases h

theorem mapError_eq_ok_iff {f : ε → ε'} {result : Except ε α} {value : α} :
    result.mapError f = .ok value ↔ result = .ok value := by
  cases result with
  | error known => exact ⟨fun h => (nomatch h), fun h => (nomatch h)⟩
  | ok known => exact ⟨fun h => congrArg _ (Except.ok.inj h), fun h => congrArg _ (Except.ok.inj h)⟩

theorem map_eq_error {f : α → β} {result : Except ε α} {error : ε}
    (h : result.map f = .error error) : result = .error error := by
  cases result with
  | error known =>
    cases h
    rfl
  | ok value => cases h

end

/-- Whether an error is the fault of a grammar alone, whatever is
registered. -/
def GrammarError.isFault : GrammarError → Bool
  | .multilinePattern _ | .conflictingShortcut _ _ _ | .invalidPattern _ => true
  | _ => false

section

variable {error : GrammarError}

theorem Regex.Matcher.isFault_of_ofPattern {pattern : String}
    (h : ofPattern pattern = .error error) : error.isFault = true := by
  unfold ofPattern at h
  split at h
  · cases h
  · cases h
    rfl

theorem Shortcut.isFault_of_enter {entered shortcuts : List Shortcut}
    (h : enter entered shortcuts = .error error) : error.isFault = true := by
  induction shortcuts generalizing entered with
  | nil => cases h
  | cons shortcut rest ih =>
    rw [enter] at h
    split at h
    · split at h
      · exact ih h
      · cases h
        rfl
    · exact ih h

theorem CompiledRule.isFault_of_ofRule {rule : Rule} (h : ofRule rule = .error error) :
    error.isFault = true := by
  obtain hmatcher | ⟨matcher, -, h⟩ := bind_eq_error h
  · exact Regex.Matcher.isFault_of_ofPattern hmatcher
  · cases h

theorem Union.isFault_of_ofPatterns {patterns : List Pattern}
    (h : ofPatterns patterns = .error error) : error.isFault = true := by
  unfold ofPatterns at h
  split at h
  · cases h
    rfl
  · obtain hmatcher | ⟨matcher, -, h⟩ := bind_eq_error h
    · exact Regex.Matcher.isFault_of_ofPattern hmatcher
    · cases h

/-- What keeps a grammar from being compiled is a fault of its own. -/
theorem Lexer.isFault_of_ofGrammar {grammar : Grammar} (h : ofGrammar grammar = .error error) :
    error.isFault = true := by
  obtain hshortcuts | ⟨shortcuts, -, h⟩ := bind_eq_error h
  · exact Shortcut.isFault_of_enter hshortcuts
  obtain hrules | ⟨rules, -, h⟩ := bind_eq_error h
  · obtain ⟨rule, -, hrule⟩ := mapM_eq_error hrules
    exact CompiledRule.isFault_of_ofRule hrule
  obtain hunion | ⟨union, -, h⟩ := bind_eq_error h
  · exact Union.isFault_of_ofPatterns hunion
  · cases h

end

/-- That a language is unknown is no fault of a grammar. -/
theorem Lexer.ofGrammar_ne_unknown (grammar : Grammar) (id : String) :
    ofGrammar grammar ≠ .error (.unknownLanguage id) := fun h =>
  nomatch isFault_of_ofGrammar h

namespace Registry

variable {registry between after : Registry} {id : String} {number : Nat} {lexer : Lexer}

/-! ### Growing -/

/-- Each identifier keeps its slot, and slots are at most compiled. -/
structure GrowsTo (registry after : Registry) : Prop where
  slotOf?_eq : ∀ id number, registry.slotOf? id = some number → after.slotOf? id = some number
  becomes : ∀ (number : Nat) (slot : Slot), registry.slots[number]? = some slot →
    ∃ later, after.slots[number]? = some later ∧ slot.Becomes later

theorem GrowsTo.refl (registry : Registry) : registry.GrowsTo registry :=
  ⟨fun _ _ h => h, fun _ slot h => ⟨slot, h, .refl slot⟩⟩

theorem GrowsTo.trans (h : registry.GrowsTo between) (h' : between.GrowsTo after) :
    registry.GrowsTo after where
  slotOf?_eq id number hid := h'.slotOf?_eq id number (h.slotOf?_eq id number hid)
  becomes number slot hslot := by
    obtain ⟨middle, hmiddle, hbecomes⟩ := h.becomes number slot hslot
    obtain ⟨later, hlater, hbecomes'⟩ := h'.becomes number middle hmiddle
    exact ⟨later, hlater, hbecomes.trans hbecomes'⟩

/-- Slots are never taken away. -/
theorem GrowsTo.size_le (h : registry.GrowsTo after) : registry.slots.size ≤ after.slots.size := by
  refine Nat.le_of_not_lt fun hlt => ?_
  obtain ⟨later, hlater, -⟩ := h.becomes _ _ (Array.getElem?_eq_getElem hlt)
  rw [Array.getElem?_eq_none (Nat.le_refl _)] at hlater
  cases hlater

/-- A grammar that was brought along, or registered later, is not in
the way of an identifier that it does not have. -/
theorem slotOf?_foldl_add (registry : Registry) {list : List (Named Grammar)}
    (h : ∀ named ∈ list, id ∉ named.ids) :
    (list.foldl (fun registry named => registry.add named.ids (.described named.grammar))
      registry).slotOf? id = registry.slotOf? id := by
  induction list generalizing registry with
  | nil => rfl
  | cons named rest ih =>
    rw [List.foldl_cons, ih _ fun other hother => h other (List.mem_cons_of_mem named hother),
      slotOf?_add, if_neg (h named List.mem_cons_self)]

theorem growsTo_foldl_add {list : List (Named Grammar)}
    (h : ∀ named ∈ list, ∀ id ∈ named.ids, registry.slotOf? id = none) :
    registry.GrowsTo (list.foldl
      (fun registry named => registry.add named.ids (.described named.grammar)) registry) where
  slotOf?_eq id number hid := by
    rw [slotOf?_foldl_add registry fun named hnamed hmem => ?_]
    · exact hid
    · rw [h named hnamed id hmem] at hid
      cases hid
  becomes number slot hslot :=
    ⟨slot, getElem?_slots_foldl_add registry list hslot, .refl slot⟩

theorem growsTo_add {ids : List String} {language : Language}
    (h : ∀ id ∈ ids, registry.slotOf? id = none) :
    registry.GrowsTo (registry.add ids language) where
  slotOf?_eq id number hid := by
    rw [slotOf?_add, if_neg fun hmem => ?_]
    · exact hid
    · rw [h id hmem] at hid
      cases hid
  becomes number slot hslot := by
    refine ⟨slot, ?_, .refl slot⟩
    cases ids with
    | nil => exact hslot
    | cons name rest =>
      have hlt := (Array.getElem?_eq_some_iff.mp hslot).1
      rw [slots_add, Array.getElem?_push, if_neg (by omega)]
      exact hslot

/-- A slot that had no lexer gets one. -/
theorem growsTo_setLexer (lexer : Lexer)
    (h : ∀ slot, registry.slots[number]? = some slot → slot.lexer = none) :
    registry.GrowsTo (registry.setLexer number lexer) where
  slotOf?_eq _ _ hid := hid
  becomes place slot hslot := by
    unfold setLexer
    rw [Array.getElem?_modify]
    by_cases hplace : number = place
    · cases hplace
      refine ⟨{ slot with lexer }, by rw [if_pos rfl, hslot]; rfl, rfl, rfl, fun known hknown => ?_⟩
      rw [h slot hslot] at hknown
      cases hknown
    · rw [if_neg hplace]
      exact ⟨slot, hslot, .refl slot⟩

/-! ### Grammars that are brought along -/

/-- The identifiers of grammars may be registered: each comes once in
its list, and none is taken. -/
def AreFree (registry : Registry) (auxiliary : List (Named Grammar)) : Prop :=
  ∀ named ∈ auxiliary, named.ids.Nodup ∧ ∀ id ∈ named.ids, registry.slotOf? id = none

/-- Lists may be registered if the search for an identifier that is in
the way comes to their end. -/
theorem findSome?_duplicate?_eq_none_iff {auxiliary : List (Named Grammar)} :
    auxiliary.findSome? (fun named => registry.duplicate? named.ids) = none
      ↔ registry.AreFree auxiliary := by
  simp only [List.findSome?_eq_none_iff, duplicate?_eq_none_iff]
  rfl

/-- Grammars are registered if their identifiers may be, and refused
otherwise. -/
theorem addAuxiliary_cases (registry : Registry) (auxiliary : List (Named Grammar)) :
    (registry.AreFree auxiliary ∧ registry.addAuxiliary auxiliary
        = .ok (auxiliary.foldl
            (fun registry named => registry.add named.ids (.described named.grammar)) registry)) ∨
      ¬registry.AreFree auxiliary ∧
        ∃ id, registry.addAuxiliary auxiliary = .error (.duplicateLanguage id) := by
  unfold addAuxiliary
  cases hfind : auxiliary.findSome? fun named => registry.duplicate? named.ids with
  | none => exact .inl ⟨findSome?_duplicate?_eq_none_iff.mp hfind, rfl⟩
  | some id =>
    refine .inr ⟨fun hfree => ?_, id, rfl⟩
    rw [findSome?_duplicate?_eq_none_iff.mpr hfree] at hfind
    cases hfind

/-! ### Asking for a lexer -/

/-- All that asking for the lexer of a slot can do: it is there, or the
grammar is compiled and what it brings along is registered, or one of
these fails and nothing changes. -/
inductive Asked (registry : Registry) (number : Nat) :
    Except GrammarError (Lexer × Registry) → Prop where
  | known {slot : Slot} {lexer : Lexer} (hslot : registry.slots[number]? = some slot)
    (hlexer : slot.lexer = some lexer) : Asked registry number (.ok (lexer, registry))
  | compiled {slot : Slot} {grammar : Grammar} {lexer : Lexer}
    (hslot : registry.slots[number]? = some slot) (hnone : slot.lexer = none)
    (hgrammar : slot.grammar = some grammar) (hlexer : Lexer.ofGrammar grammar = .ok lexer)
    (hfree : registry.AreFree grammar.auxiliary) :
    Asked registry number
      (.ok (lexer, (grammar.auxiliary.foldl
        (fun registry named => registry.add named.ids (.described named.grammar))
        registry).setLexer number lexer))
  | faulty {slot : Slot} {grammar : Grammar} {error : GrammarError}
    (hslot : registry.slots[number]? = some slot) (hnone : slot.lexer = none)
    (hgrammar : slot.grammar = some grammar) (herror : Lexer.ofGrammar grammar = .error error) :
    Asked registry number (.error error)
  | refused {slot : Slot} {grammar : Grammar} {lexer : Lexer} {id : String}
    (hslot : registry.slots[number]? = some slot) (hnone : slot.lexer = none)
    (hgrammar : slot.grammar = some grammar) (hlexer : Lexer.ofGrammar grammar = .ok lexer)
    (htaken : ¬registry.AreFree grammar.auxiliary) :
    Asked registry number (.error (.duplicateLanguage id))
  | unknown {id : String} (h : ∀ slot, registry.slots[number]? = some slot →
      slot.lexer = none ∧ slot.grammar = none) :
    Asked registry number (.error (.unknownLanguage id))

theorem asked_lexerOf (registry : Registry) (number : Nat) :
    Asked registry number (registry.lexerOf number) := by
  unfold lexerOf
  cases hslot : registry.slots[number]? with
  | none => exact .unknown fun slot h => by rw [hslot] at h; cases h
  | some slot =>
    cases hlexer : slot.lexer with
    | some lexer =>
      simp only [hlexer]
      exact .known hslot hlexer
    | none =>
      cases hgrammar : slot.grammar with
      | none =>
        simp only [hlexer, hgrammar]
        refine .unknown fun known h => ?_
        rw [hslot] at h
        cases h
        exact ⟨hlexer, hgrammar⟩
      | some grammar =>
        simp only [hlexer, hgrammar]
        cases hcompiled : Lexer.ofGrammar grammar with
        | error error => exact .faulty hslot hlexer hgrammar hcompiled
        | ok lexer =>
          -- The grammar itself is fine, so what it brings along decides.
          rcases addAuxiliary_cases registry grammar.auxiliary with
            ⟨hfree, hadded⟩ | ⟨htaken, id, hrefused⟩
          · simp only [hadded]
            exact .compiled hslot hlexer hgrammar hcompiled hfree
          · simp only [hrefused]
            exact .refused hslot hlexer hgrammar hcompiled htaken

/-- First what a grammar brings along is registered, and then its lexer
is set, in a slot that had none. -/
theorem growsTo_compiled {slot : Slot} {auxiliary : List (Named Grammar)} (lexer : Lexer)
    (hslot : registry.slots[number]? = some slot) (hnone : slot.lexer = none)
    (hfree : registry.AreFree auxiliary) :
    registry.GrowsTo ((auxiliary.foldl
      (fun registry named => registry.add named.ids (.described named.grammar))
      registry).setLexer number lexer) := by
  refine (growsTo_foldl_add fun named hnamed => (hfree named hnamed).2).trans
    (growsTo_setLexer lexer fun slot hslot' => ?_)
  rw [getElem?_slots_foldl_add registry _ hslot] at hslot'
  cases hslot'
  exact hnone

theorem growsTo_lexerOf (h : registry.lexerOf number = .ok (lexer, after)) :
    registry.GrowsTo after := by
  have hasked := asked_lexerOf registry number
  rw [h] at hasked
  cases hasked with
  | known hslot hlexer => exact .refl registry
  | compiled hslot hnone hgrammar hlexer hfree => exact growsTo_compiled lexer hslot hnone hfree

theorem WellFormed.lexerOf (hwf : registry.WellFormed)
    (h : registry.lexerOf number = .ok (lexer, after)) : after.WellFormed := by
  have hasked := asked_lexerOf registry number
  rw [h] at hasked
  cases hasked with
  | known hslot hlexer => exact hwf
  | compiled hslot hnone hgrammar hlexer hfree => exact (hwf.foldl_add _).setLexer number lexer

/-- The slot of a lexer that was asked for has it. -/
theorem getElem?_of_lexerOf (h : registry.lexerOf number = .ok (lexer, after)) :
    ∃ slot, after.slots[number]? = some slot ∧ slot.lexer = some lexer := by
  have hasked := asked_lexerOf registry number
  rw [h] at hasked
  cases hasked with
  | known hslot hlexer => exact ⟨_, hslot, hlexer⟩
  | @compiled slot grammar _ hslot hnone hgrammar hlexer hfree =>
    refine ⟨{ slot with lexer }, ?_, rfl⟩
    unfold setLexer
    rw [Array.getElem?_modify, if_pos rfl, getElem?_slots_foldl_add registry _ hslot]
    rfl

/-- The lexer of a slot that is there is known, or can be compiled. -/
theorem lexerOf_ne_unknown (hwf : registry.WellFormed) (hnumber : number < registry.slots.size)
    (id : String) : registry.lexerOf number ≠ .error (.unknownLanguage id) := by
  intro h
  have hasked := asked_lexerOf registry number
  rw [h] at hasked
  cases hasked with
  | faulty hslot hnone hgrammar herror => exact Lexer.ofGrammar_ne_unknown _ id herror
  | unknown hslot =>
    obtain ⟨hnone, hnone'⟩ := hslot _ (Array.getElem?_eq_getElem hnumber)
    have hready := hwf.ready _ (Array.getElem_mem hnumber)
    rw [hnone, hnone'] at hready
    rcases hready with hready | hready <;> cases hready

/-! ### Resolving an identifier -/

theorem keeps_growsTo (registry : Registry) : Keeps registry.GrowsTo :=
  fun _ _ _ _ hgrows hlexer => hgrows.trans (growsTo_lexerOf hlexer)

theorem keeps_wellFormed : Keeps WellFormed := fun _ _ _ _ hwf hlexer => hwf.lexerOf hlexer

theorem growsTo_resolve (registry : Registry) (id : Option String) (source : List Char) :
    registry.GrowsTo (registry.resolve id source).2 :=
  (keeps_growsTo registry).resolve (.refl registry) id source

theorem WellFormed.resolve (hwf : registry.WellFormed) (id : Option String)
    (source : List Char) : (registry.resolve id source).2.WellFormed :=
  keeps_wellFormed.resolve hwf id source

/-- A lexer that was asked for is that of a slot. -/
theorem exists_slot_of_resolve {id : Option String} {source : List Char} {resolved : Resolved}
    (h : registry.resolve id source = (.ok resolved, after)) :
    registry.slotFor id source = .ok resolved.number ∧
      ∃ slot, after.slots[resolved.number]? = some slot ∧ slot.lexer = some resolved.lexer := by
  unfold Registry.resolve at h
  split at h
  · cases h
  · rename_i number hnumber
    split at h
    · cases h
    · rename_i lexer next hlexer
      cases h
      exact ⟨hnumber, getElem?_of_lexerOf hlexer⟩

/-- The default grammars are registered. -/
structure HasDefaults (registry : Registry) : Prop where
  code : ∃ number, registry.slotOf? defaultCode = some number
  markup : ∃ number, registry.slotOf? defaultMarkup = some number

theorem HasDefaults.mono (h : registry.HasDefaults) (hgrows : registry.GrowsTo after) :
    after.HasDefaults where
  code := h.code.imp fun number => hgrows.slotOf?_eq defaultCode number
  markup := h.markup.imp fun number => hgrows.slotOf?_eq defaultMarkup number

/-- What a source is taken for is registered. -/
theorem HasDefaults.exists_guess (h : registry.HasDefaults) (source : List Char) :
    ∃ number, registry.slotOf? (Registry.guess source) = some number := by
  unfold Registry.guess
  split
  · exact h.markup
  · exact h.code

/-- Every source has a slot: that of its language, or a default one. -/
theorem HasDefaults.slotFor (h : registry.HasDefaults) (id : Option String)
    (source : List Char) :
    ∃ id' number, registry.slotOf? id' = some number ∧ registry.slotFor id source = .ok number := by
  obtain ⟨guessed, hguessed⟩ := h.exists_guess source
  unfold Registry.slotFor
  -- The language is registered, or else the source is taken for code or for markup.
  cases hid : id.bind registry.slotOf? with
  | some number =>
    obtain ⟨known, -, hknown⟩ := Option.bind_eq_some_iff.mp hid
    exact ⟨known, number, hknown, rfl⟩
  | none => exact ⟨guess source, guessed, hguessed, by simp only [hguessed]⟩

/-- Once a source has a slot, asking for its lexer fails only where the
lexer cannot be had. -/
theorem lexerOf_of_resolve_eq_error {language : Option String} {source : List Char}
    {error : GrammarError} (hfor : registry.slotFor language source = .ok number)
    (h : (registry.resolve language source).1 = .error error) :
    registry.lexerOf number = .error error := by
  unfold resolve at h
  simp only [hfor] at h
  cases hfound : registry.lexerOf number with
  | error fault => simpa [hfound] using h
  | ok found => simp [hfound] at h

/-- No language is unknown: there is always a default grammar. -/
theorem resolve_ne_unknown (hwf : registry.WellFormed) (hdefaults : registry.HasDefaults)
    (language : Option String) (source : List Char) (id : String) :
    (registry.resolve language source).1 ≠ .error (.unknownLanguage id) := by
  intro h
  obtain ⟨known, number, hknown, hfor⟩ := hdefaults.slotFor language source
  exact lexerOf_ne_unknown hwf (hwf.lt_size known number hknown) id
    (lexerOf_of_resolve_eq_error hfor h)

/-! ### Compiling everything -/

theorem WellFormed.compileAll (hwf : registry.WellFormed) (numbers : List Nat) :
    (registry.compileAll numbers).2.WellFormed :=
  keeps_wellFormed.compileAll hwf numbers

theorem compileAll_ne_unknown (hwf : registry.WellFormed) {numbers : List Nat}
    (hnumbers : ∀ number ∈ numbers, number < registry.slots.size) (id : String) :
    (registry.compileAll numbers).1 ≠ .error (.unknownLanguage id) := by
  induction numbers generalizing registry with
  | nil =>
    intro h
    cases h
  | cons number rest ih =>
    obtain ⟨hnumber, hrest⟩ := List.forall_mem_cons.mp hnumbers
    rw [compileAll]
    split
    · rename_i error herror
      intro h
      cases h
      exact lexerOf_ne_unknown hwf hnumber id herror
    · rename_i lexer next hnext
      refine ih (hwf.lexerOf hnext) fun other hother => ?_
      -- The slots that are still to be compiled stay where they are.
      obtain ⟨later, hlater, -⟩ :=
        (growsTo_lexerOf hnext).becomes other _ (Array.getElem?_eq_getElem (hrest other hother))
      exact (Array.getElem?_eq_some_iff.mp hlater).1

theorem growsTo_warmUpWithin (order : List Nat → List Nat) (rounds : Nat) (registry : Registry) :
    registry.GrowsTo (warmUpWithin order rounds registry).2 :=
  (keeps_growsTo registry).warmUpWithin (.refl registry) order rounds

theorem WellFormed.warmUpWithin (hwf : registry.WellFormed) (order : List Nat → List Nat)
    (rounds : Nat) : (warmUpWithin order rounds registry).2.WellFormed :=
  keeps_wellFormed.warmUpWithin hwf order rounds

theorem warmUpWithin_ne_unknown (hwf : registry.WellFormed) {order : List Nat → List Nat}
    (horder : ∀ numbers, (order numbers).Perm numbers) (rounds : Nat) (id : String) :
    (warmUpWithin order rounds registry).1 ≠ .error (.unknownLanguage id) := by
  induction rounds generalizing registry with
  | zero =>
    intro h
    cases h
  | succ rounds ih =>
    -- Pending slots are slots, in whatever order they come.
    have hnumbers : ∀ number ∈ order registry.pending, number < registry.slots.size := by
      intro number hnumber
      obtain ⟨-, slot, hslot, -⟩ := mem_pending.mp ((horder _).mem_iff.mp hnumber)
      exact (Array.getElem?_eq_some_iff.mp hslot).1
    rw [warmUpWithin]
    split
    · intro h
      cases h
    · split
      · rename_i error next hcompiled
        intro h
        cases h
        exact compileAll_ne_unknown hwf hnumbers id (by rw [hcompiled])
      · rename_i next hcompiled
        have hround := hwf.compileAll (order registry.pending)
        rw [hcompiled] at hround
        exact ih hround

end Registry

end Highlighter
