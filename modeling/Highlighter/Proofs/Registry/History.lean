import Highlighter.Proofs.Registry.Stability
import Highlighter.Proofs.Embedding.Laziness

/-!
# What has happened to a registry

Three things happen to a registry: a language is registered, an
identifier is freed, and the grammar of a slot is compiled, which
registers the grammars that it brings along (`Happens`). A history lists
them one after the other.

* `Happens.origins_eq`: each adds the slots that it says, and no others.
* `Happens.isCompiled_eq`: a slot that is compiled was not compiled
  before and is from then on, and no other slot changes in this.
* `History.accounts`: so a slot is compiled at most once in a history,
  and was so if and only if its grammar is compiled at the end.
* `exists_history_answer`: every request is a piece of history. What is
  no registration only compiles.
* `lexers_shared_and_stable`: with what is known of identifiers, this
  settles which lexer is found, now and later.

The step lemmas come first, and the histories follow by induction. A
failed request needs no case of its own: it is a history, too.
-/

set_option autoImplicit false

namespace Highlighter

/-- What a slot was registered with. -/
def Slot.origin (slot : Slot) : String × Option Grammar := (slot.name, slot.grammar)

namespace Registry

variable {registry after start : Registry} {number : Nat}

/-! ### Changes -/

/-- Something that happens to a registry. -/
inductive Change where
  /-- A language is registered. -/
  | registered (ids : List String) (language : Language)
  /-- An identifier is freed. -/
  | freed (id : String)
  /-- The grammar of a slot is compiled, and the grammars that it brings
  along are registered. -/
  | compiled (number : Nat) (grammar : Grammar)

/-- The registry after what some grammar brings along has been
registered. -/
def addAll (registry : Registry) (auxiliary : List (Named Grammar)) : Registry :=
  auxiliary.foldl (fun registry named => registry.add named.ids (.described named.grammar)) registry

/-- What may happen to a registry, and the registry after it. -/
inductive Happens (registry : Registry) : Change → Registry → Prop where
  | registered {ids : List String} (language : Language)
    (hfree : registry.duplicate? ids = none) :
    Happens registry (.registered ids language) (registry.add ids language)
  | freed (id : String) :
    Happens registry (.freed id) { registry with ids := without id registry.ids }
  | compiled {number : Nat} {slot : Slot} {grammar : Grammar} {lexer : Lexer}
    (hslot : registry.slots[number]? = some slot) (hnone : slot.lexer = none)
    (hgrammar : slot.grammar = some grammar) (hlexer : Lexer.ofGrammar grammar = .ok lexer)
    (hfree : registry.AreFree grammar.auxiliary) :
    Happens registry (.compiled number grammar)
      ((registry.addAll grammar.auxiliary).setLexer number lexer)

/-- Changes that lead from one registry to another, one after the
other. -/
inductive History (start : Registry) : List Change → Registry → Prop where
  | nil : History start [] start
  | step {changes : List Change} {change : Change} {registry after : Registry}
    (h : History start changes registry) (hchange : registry.Happens change after) :
    History start (changes ++ [change]) after

/-- One history after the other. -/
theorem History.append {changes more : List Change} (h : History start changes registry)
    (hmore : History registry more after) : History start (changes ++ more) after := by
  induction hmore with
  | nil =>
    rw [List.append_nil]
    exact h
  | step _ hchange ih =>
    rw [← List.append_assoc]
    exact ih.step hchange

/-! ### Which slots are added -/

/-- The origins of the slots that a registration adds: one, or none if
there is no identifier. -/
def originsOf (language : Language) : List String → List (String × Option Grammar)
  | [] => []
  | name :: _ => [(Slot.ofLanguage name language).origin]

/-- The origins of the slots that a change adds. -/
def Change.origins : Change → List (String × Option Grammar)
  | registered ids language => originsOf language ids
  | freed _ => []
  | compiled _ grammar =>
    grammar.auxiliary.flatMap fun named => originsOf (.described named.grammar) named.ids

/-- The origins of all slots of a registry. -/
def origins (registry : Registry) : List (String × Option Grammar) :=
  registry.slots.toList.map Slot.origin

theorem origins_add (registry : Registry) (ids : List String) (language : Language) :
    (registry.add ids language).origins = registry.origins ++ originsOf language ids := by
  cases ids with
  | nil => exact (List.append_nil _).symm
  | cons name rest =>
    unfold origins
    rw [slots_add, Array.toList_push, List.map_append]
    rfl

theorem origins_addAll (registry : Registry) (auxiliary : List (Named Grammar)) :
    (registry.addAll auxiliary).origins = registry.origins
      ++ auxiliary.flatMap fun named => originsOf (.described named.grammar) named.ids := by
  unfold addAll
  induction auxiliary generalizing registry with
  | nil => exact (List.append_nil _).symm
  | cons named rest ih =>
    rw [List.foldl_cons, ih, origins_add, List.flatMap_cons, List.append_assoc]

/-- A lexer does not change what its slot was registered with. -/
theorem origins_setLexer (registry : Registry) (number : Nat) (lexer : Lexer) :
    (registry.setLexer number lexer).origins = registry.origins := by
  unfold origins setLexer
  rw [Array.toList_modify]
  refine List.ext_getElem? fun place => ?_
  rw [List.getElem?_map, List.getElem?_map, List.getElem?_modify]
  cases registry.slots.toList[place]? with
  | none => rfl
  | some slot => by_cases hplace : number = place <;> simp [hplace, Slot.origin]

/-- A change adds the slots that it says, and takes none away. -/
theorem Happens.origins_eq {change : Change} (h : registry.Happens change after) :
    after.origins = registry.origins ++ change.origins := by
  cases h with
  | registered language hfree => exact origins_add registry _ language
  | freed id => exact (List.append_nil _).symm
  | compiled hslot hnone hgrammar hlexer hfree =>
    rw [origins_setLexer, origins_addAll]
    rfl

/-! ### Which slots are compiled -/

/-- Whether the grammar of a slot is compiled. -/
def isCompiled (registry : Registry) (number : Nat) : Bool :=
  registry.slots[number]?.any fun slot => slot.grammar.isSome && slot.lexer.isSome

/-- Whether a change compiles a slot. -/
def Change.compiles (number : Nat) : Change → Bool
  | compiled other _ => other == number
  | _ => false

/-- A language that is registered is not compiled in this: it has no
lexer, or no grammar. -/
theorem isCompiled_add (registry : Registry) (ids : List String) (language : Language)
    (number : Nat) : (registry.add ids language).isCompiled number = registry.isCompiled number := by
  cases ids with
  | nil => rfl
  | cons name rest =>
    unfold isCompiled
    rw [slots_add, Array.getElem?_push]
    split
    · rename_i hnumber
      rw [hnumber, Array.getElem?_eq_none (Nat.le_refl _)]
      cases language <;> rfl
    · rfl

theorem isCompiled_addAll (registry : Registry) (auxiliary : List (Named Grammar))
    (number : Nat) : (registry.addAll auxiliary).isCompiled number = registry.isCompiled number := by
  unfold addAll
  induction auxiliary generalizing registry with
  | nil => rfl
  | cons named rest ih => rw [List.foldl_cons, ih, isCompiled_add]

/-- A slot with a grammar is compiled once it has a lexer. -/
theorem isCompiled_setLexer {slot : Slot} (hslot : registry.slots[number]? = some slot)
    (hgrammar : slot.grammar.isSome = true) (lexer : Lexer) (place : Nat) :
    (registry.setLexer number lexer).isCompiled place
      = (number == place || registry.isCompiled place) := by
  unfold isCompiled setLexer
  rw [Array.getElem?_modify]
  by_cases hplace : number = place
  · subst hplace
    rw [if_pos rfl, hslot]
    simp [hgrammar]
  · rw [if_neg hplace, beq_eq_false_iff_ne.mpr hplace, Bool.false_or]

/-- A change compiles a slot that was not compiled before, and is from
then on. All other slots stay compiled, or not compiled. -/
theorem Happens.isCompiled_eq {change : Change} (h : registry.Happens change after)
    (number : Nat) :
    (registry.isCompiled number).toNat + (if change.compiles number then 1 else 0)
      = (after.isCompiled number).toNat := by
  cases h with
  | registered language hfree =>
    rw [isCompiled_add]
    rfl
  | freed id => rfl
  | @compiled other slot grammar lexer hslot hnone hgrammar hlexer hfree =>
    -- The slot is still in its place after others have been added.
    have hadded : (registry.addAll grammar.auxiliary).slots[other]? = some slot :=
      getElem?_slots_foldl_add registry _ hslot
    rw [isCompiled_setLexer hadded (by rw [hgrammar]; rfl), isCompiled_addAll]
    show _ + (if (other == number) = true then 1 else 0) = _
    by_cases hnumber : other = number
    · -- The slot that is compiled had no lexer.
      subst hnumber
      have hbefore : registry.isCompiled other = false := by
        unfold isCompiled
        rw [hslot]
        simp [hnone]
      simp [hbefore]
    · have hother : (other == number) = false := beq_eq_false_iff_ne.mpr hnumber
      simp [hother]

/-! ### Histories -/

/-- What a history says of the registries at its ends. -/
structure Accounts (start : Registry) (changes : List Change) (registry : Registry) : Prop where
  /-- The slots are those from the start and those that the changes
  added, in the order in which they came. -/
  origins_eq : registry.origins = start.origins ++ changes.flatMap Change.origins
  /-- A slot is compiled at the end if it was at the start, or else if
  the history compiles it, once. -/
  once : ∀ number, (start.isCompiled number).toNat + changes.countP (Change.compiles number)
    = (registry.isCompiled number).toNat
  /-- What is compiled is the grammar that the slot was registered
  with. -/
  grammar_eq : ∀ number grammar, Change.compiled number grammar ∈ changes →
    registry.slots[number]?.bind Slot.grammar = some grammar

/-- No change takes a slot away, or its grammar. -/
theorem Happens.becomes {change : Change} {slot : Slot} (h : registry.Happens change after)
    (hslot : registry.slots[number]? = some slot) :
    ∃ later, after.slots[number]? = some later ∧ slot.Becomes later := by
  cases h with
  | registered language hfree =>
    exact (growsTo_add (duplicate?_eq_none_iff.mp hfree).2).becomes number slot hslot
  | freed id => exact ⟨slot, hslot, .refl slot⟩
  | compiled hfound hnone hgrammar hlexer hfree =>
    exact (growsTo_compiled _ hfound hnone hfree).becomes number slot hslot

/-- A grammar that is brought along by another one is registered then. -/
theorem isRegistered_addAll {id : String} (registry : Registry)
    {auxiliary : List (Named Grammar)}
    (h : registry.isRegistered id = true ∨ ∃ named ∈ auxiliary, id ∈ named.ids) :
    (registry.addAll auxiliary).isRegistered id = true := by
  unfold addAll
  induction auxiliary generalizing registry with
  | nil => exact h.resolve_right fun ⟨_, hmem, _⟩ => nomatch hmem
  | cons first rest ih =>
    refine ih (registry.add first.ids (.described first.grammar)) ?_
    by_cases hfirst : id ∈ first.ids
    · refine .inl ?_
      unfold isRegistered
      rw [slotOf?_add, if_pos hfirst]
      rfl
    · refine h.imp (fun hknown => ?_) fun ⟨named, hmem, hid⟩ => ?_
      · unfold isRegistered at hknown ⊢
        rw [slotOf?_add, if_neg hfirst]
        exact hknown
      · rcases List.mem_cons.mp hmem with rfl | hmem
        · exact absurd hid hfirst
        · exact ⟨named, hmem, hid⟩

/-- What a grammar brings along is registered when the grammar is
compiled, and none of its identifiers was known before. -/
theorem Happens.auxiliary_registered {grammar : Grammar}
    (h : registry.Happens (.compiled number grammar) after) {named : Named Grammar}
    (hnamed : named ∈ grammar.auxiliary) {id : String} (hid : id ∈ named.ids) :
    registry.isRegistered id = false ∧ after.isRegistered id = true := by
  cases h with
  | compiled hslot hnone hgrammar hlexer hfree =>
    exact ⟨isRegistered_eq_false.mpr ((hfree named hnamed).2 id hid),
      isRegistered_addAll registry (.inr ⟨named, hnamed, hid⟩)⟩

/-- Every history accounts for the slots that were added and for those
that were compiled. -/
theorem History.accounts {changes : List Change} (h : History start changes registry) :
    Accounts start changes registry := by
  induction h with
  | nil => exact ⟨(List.append_nil _).symm, fun _ => rfl, fun _ _ hmem => nomatch hmem⟩
  | @step changes change registry after h hchange ih =>
    -- Each part is that of the history so far and that of the last change.
    refine ⟨?_, fun number => ?_, fun number grammar hmem => ?_⟩
    · rw [hchange.origins_eq, ih.origins_eq, List.flatMap_append, List.flatMap_singleton,
        List.append_assoc]
    · rw [List.countP_append, List.countP_singleton, ← Nat.add_assoc, ih.once]
      exact hchange.isCompiled_eq number
    · rcases List.mem_append.mp hmem with hmem | hmem
      · obtain ⟨slot, hslot, hgrammar⟩ := Option.bind_eq_some_iff.mp (ih.grammar_eq number grammar hmem)
        obtain ⟨later, hlater, hbecomes⟩ := hchange.becomes hslot
        rw [hlater, Option.bind_some, hbecomes.grammar_eq, hgrammar]
      · -- The slot that is compiled last has the grammar that is compiled.
        cases List.mem_singleton.mp hmem
        cases hchange with
        | compiled hslot hnone hgrammar hlexer hfree =>
          obtain ⟨later, hlater, hbecomes⟩ :=
            (growsTo_compiled _ hslot hnone hfree).becomes number _ hslot
          exact (congrArg (·.bind Slot.grammar) hlater).trans (hbecomes.grammar_eq.trans hgrammar)

/-! ### Requests make history -/

/-- Whether a change is that a slot is compiled, whichever one. -/
def Change.isCompilation : Change → Bool
  | compiled _ _ => true
  | _ => false

/-- A history of which every change is a compilation leads from one
registry to another. -/
def CompilesTo (start registry : Registry) : Prop :=
  ∃ changes, History start changes registry ∧ ∀ change ∈ changes, change.isCompilation = true

theorem CompilesTo.refl (registry : Registry) : registry.CompilesTo registry :=
  ⟨[], .nil, fun _ hmem => nomatch hmem⟩

/-- Asking for a lexer compiles one slot, or nothing happens. -/
theorem keeps_compilesTo (start : Registry) : Keeps start.CompilesTo := by
  rintro registry number lexer after ⟨changes, hhistory, hall⟩ hlexer
  have hasked := asked_lexerOf registry number
  rw [hlexer] at hasked
  -- A lexer that is known costs nothing, and one that is not is compiled
  -- now, with one more change at the end.
  cases hasked with
  | known hslot hknown => exact ⟨changes, hhistory, hall⟩
  | compiled hslot hnone hgrammar hcompiled hfree =>
    refine ⟨_, hhistory.step (.compiled hslot hnone hgrammar hcompiled hfree), ?_⟩
    intro change hmem
    rcases List.mem_append.mp hmem with hmem | hmem
    · exact hall change hmem
    · rw [List.mem_singleton.mp hmem]
      rfl

/-- A registration adds one slot, frees an identifier, or does nothing.
It compiles nothing. -/
theorem exists_history_register (registry : Registry) (ids : List String) (language : Language) :
    ∃ changes, History registry changes (registry.register ids language).2 ∧
      ∀ change ∈ changes, change.isCompilation = false := by
  rcases register_cases registry ids language with
    ⟨hfree, heq⟩ | ⟨taken, ⟨-, heq⟩ | ⟨-, heq⟩⟩
  · rw [heq]
    exact ⟨_, History.nil.step (.registered language hfree), by simp [Change.isCompilation]⟩
  · rw [heq]
    exact ⟨[], .nil, fun _ hmem => nomatch hmem⟩
  · rw [heq]
    exact ⟨_, History.nil.step (.freed taken), by simp [Change.isCompilation]⟩

/-- Every request is a piece of history, of which the changes are
compilations exactly if the request is no registration. -/
theorem exists_history_answer (registry : Registry) (request : Request) :
    ∃ changes, History registry changes (registry.answer request).2 ∧
      ∀ change ∈ changes, change.isCompilation = !request.registers := by
  cases hregisters : request.registers with
  | false => exact (keeps_compilesTo registry).answer (.refl registry) hregisters
  | true =>
    rcases answer_of_registers registry hregisters with ⟨failure, -, heq⟩ | ⟨ids, language, heq⟩
    · rw [heq]
      exact ⟨[], .nil, fun _ hmem => nomatch hmem⟩
    · rw [heq]
      exact exists_history_register registry ids language

/-- Every run of requests makes a history. -/
theorem Reachable.exists_history (h : Reachable start registry) :
    ∃ changes, History start changes registry := by
  induction h with
  | start => exact ⟨[], .nil⟩
  | @step registry request _ ih =>
    obtain ⟨changes, hhistory⟩ := ih
    obtain ⟨more, hmore, -⟩ := exists_history_answer registry request
    exact ⟨changes ++ more, hhistory.append hmore⟩

/-- Wherever a run of requests leads, lexers are shared and stable from
there on. What a grammar brings along is registered when the grammar is
compiled, at most once: the run makes a history, every history accounts
for what was added and compiled, and every further request is a piece of
history. It compiles and does nothing else, or is a registration and
compiles nothing. -/
theorem lexers_shared_and_stable (hstart : IsStart start) (h : Reachable start registry) :
    registry.KeepsLexers ∧ (∃ changes, History start changes registry) ∧
      (∀ changes, History start changes registry → Accounts start changes registry) ∧
      (∀ request, ∃ changes, History registry changes (registry.answer request).2 ∧
        Accounts registry changes (registry.answer request).2 ∧
        ∀ change ∈ changes, change.isCompilation = !request.registers) ∧
      ∀ number grammar after, registry.Happens (.compiled number grammar) after →
        ∀ named ∈ grammar.auxiliary, ∀ id ∈ named.ids,
          registry.isRegistered id = false ∧ after.isRegistered id = true := by
  refine ⟨keepsLexers (h.wellFormed hstart.wellFormed), h.exists_history,
    fun _ hhistory => hhistory.accounts, fun request => ?_,
    fun _ _ _ hchange _ hnamed _ hid => hchange.auxiliary_registered hnamed hid⟩
  obtain ⟨changes, hhistory, hall⟩ := exists_history_answer registry request
  exact ⟨changes, hhistory, hhistory.accounts, hall⟩

/-- The default registry with one more language under two
identifiers. -/
def withAliases : Registry :=
  (initial.answer (.register ["angle", "brackets"] (.described Tagged.bracketed))).2

/-- The language is compiled, and then a registration reports the second
one of its identifiers. -/
def withoutAlias : Registry :=
  ((withAliases.resolve (some "angle") []).2.answer
    (.register ["brackets"] (.described Tagged.words))).2

theorem lexers_shared_and_stable_angle :
    IsStart initial ∧ Reachable initial withAliases ∧
      (∃ changes, History initial changes withAliases) ∧
      withoutAlias.isRegistered "brackets" = false ∧ withoutAlias.isRegistered "word" = true ∧
      ∃ resolved, (withAliases.resolve (some "angle") []).1 = .ok resolved ∧
        withoutAlias.resolve (some "angle") [] = (.ok resolved, withoutAlias) := by
  have hstart : IsStart initial := .inl rfl
  have hreachable : Reachable initial withAliases := .step _ .start
  obtain ⟨hkeeps, hhistory, -⟩ := lexers_shared_and_stable hstart hreachable
  refine ⟨hstart, hreachable, hhistory, by decide +kernel, by decide +kernel, ?_⟩
  have hcompiled : (withAliases.resolve (some "angle") []).1.isOk = true := by decide +kernel
  -- The registration reports the other identifier.
  have hquiet : ¬(withAliases.resolve (some "angle") []).2.Reports
      (.register ["brackets"] (.described Tagged.words)) "angle" := by
    unfold Reports
    decide +kernel
  cases hresult : (withAliases.resolve (some "angle") []).1 with
  | error error =>
    rw [hresult] at hcompiled
    cases hcompiled
  | ok resolved =>
    exact ⟨resolved, rfl, hkeeps.stable (by decide +kernel) (Prod.ext hresult rfl)
      (.step .refl hquiet) []⟩

end Registry

end Highlighter
