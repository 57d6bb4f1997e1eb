import Highlighter.Proofs.Registry.Auxiliary

/-!
# When a lexer cannot be had

Asking for a lexer fails only where a grammar has to be compiled
(`exists_awaits_of_error`): it has a fault of its own, or an identifier
of a grammar that it brings along is in the way. Nothing changes then.
So the same is answered again, and what has failed may succeed later,
once the identifier has been freed.

* `Awaits.resolve_iff`: when asking for a grammar that is not compiled
  yet succeeds.
* `Awaits.of_becomes`: a slot waits with the same grammar until it is
  compiled.
* `failure_keeps`: what a failure says, and what comes of asking again
  later.
* `resolved_since`: a slot that has been compiled in between does not
  need its identifiers to be free. They are taken, by the grammars that
  it has brought along.
-/

set_option autoImplicit false

namespace Highlighter

namespace Registry

variable {registry later start : Registry} {number : Nat} {id : Option String}
  {source : List Char} {grammar : Grammar} {error : GrammarError}

/-! ### Asking once -/

/-- A grammar that is not compiled yet is compiled if it has no fault of
its own and nothing is in the way of those that it brings along. -/
theorem Awaits.resolve_iff (h : registry.Awaits number grammar)
    (hfor : registry.slotFor id source = .ok number) :
    (∃ resolved, (registry.resolve id source).1 = .ok resolved) ↔
      (∃ lexer, Lexer.ofGrammar grammar = .ok lexer) ∧ registry.AreFree grammar.auxiliary := by
  rcases h.resolve_cases hfor with
    ⟨error, hfault, hresolve⟩ | ⟨lexer, clash, hlexer, hclash, hresolve⟩ |
    ⟨lexer, hlexer, hfree, hresolve⟩
  · simp [hresolve, hfault]
  · simp [hresolve, hclash.not_areFree]
  · simp [hresolve, hlexer, hfree]

/-- Asking for a slot that is compiled succeeds, and nothing changes. -/
theorem exists_resolve_of_isCompiled (h : registry.isCompiled number = true)
    (hfor : registry.slotFor id source = .ok number) :
    ∃ resolved, registry.resolve id source = (.ok resolved, registry) := by
  unfold isCompiled at h
  cases hslot : registry.slots[number]? with
  | none => simp [hslot] at h
  | some slot =>
    have hcompiled : slot.grammar.isSome = true ∧ slot.lexer.isSome = true := by
      simpa [hslot] using h
    obtain ⟨lexer, hlexer⟩ := Option.isSome_iff_exists.mp hcompiled.2
    exact ⟨_, resolve_of_lexer hfor hslot hlexer⟩

/-- If a lexer cannot be had, its slot has a grammar that is not
compiled yet. -/
theorem exists_awaits_of_error (hwf : registry.WellFormed) (hdefaults : registry.HasDefaults)
    (h : (registry.resolve id source).1 = .error error) :
    ∃ number grammar, registry.slotFor id source = .ok number ∧
      registry.Awaits number grammar := by
  obtain ⟨known, number, hknown, hfor⟩ := hdefaults.slotFor id source
  have hlexer := lexerOf_of_resolve_eq_error hfor h
  have hasked := asked_lexerOf registry number
  rw [hlexer] at hasked
  cases hasked with
  | faulty hslot hnone hgrammar _ => exact ⟨number, _, hfor, _, hslot, hnone, hgrammar⟩
  | refused hslot hnone hgrammar _ _ => exact ⟨number, _, hfor, _, hslot, hnone, hgrammar⟩
  | unknown hempty =>
    -- Every identifier has a slot, and a slot is never without both.
    exact absurd hlexer (lexerOf_ne_unknown hwf (hwf.lt_size known number hknown) _)

/-! ### Asking again -/

/-- A slot waits with the same grammar until it is compiled. -/
theorem Awaits.of_becomes (h : registry.Awaits number grammar)
    (hkept : registry.KeepsDefaults later) (hnot : later.isCompiled number = false) :
    later.Awaits number grammar := by
  obtain ⟨slot, hslot, -, hgrammar⟩ := h
  obtain ⟨next, hnext, hbecomes⟩ := hkept.becomes number slot hslot
  have hsame : next.grammar = some grammar := hbecomes.grammar_eq.trans hgrammar
  unfold isCompiled at hnot
  have hnone : next.lexer = none := by simpa [hnext, hsame] using hnot
  exact ⟨next, hnext, hnone, hsame⟩

/-- What a failure says: which grammar cannot be compiled, and why. -/
structure Fails (registry : Registry) (id : Option String) (source : List Char)
    (error : GrammarError) (number : Nat) (grammar : Grammar) : Prop where
  slotFor_eq : registry.slotFor id source = .ok number
  awaits : registry.Awaits number grammar
  /-- No identifier is added or taken away, and no slot is added or
  compiled. -/
  unchanged : (registry.resolve id source).2 = registry
  again : (registry.resolve id source).2.resolve id source = (.error error, registry)
  /-- The fault is that of the grammar alone, or else it is the first
  identifier that is in the way. -/
  cause : Lexer.ofGrammar grammar = .error error ∧ error.isFault = true ∨
    (∃ lexer, Lexer.ofGrammar grammar = .ok lexer) ∧
      ∃ clash, registry.FirstClash grammar.auxiliary clash ∧ error = .duplicateLanguage clash

theorem Awaits.fails (h : registry.Awaits number grammar)
    (hfor : registry.slotFor id source = .ok number)
    (hfailed : (registry.resolve id source).1 = .error error) :
    registry.Fails id source error number grammar := by
  rcases h.resolve_cases hfor with
    ⟨fault, hfault, hresolve⟩ | ⟨lexer, clash, hlexer, hclash, hresolve⟩ |
    ⟨lexer, hlexer, hfree, hresolve⟩
  -- Only the first two fail, and the registry is the same after them.
  · rw [hresolve] at hfailed
    cases hfailed
    exact ⟨hfor, h, by rw [hresolve], by rw [hresolve, hresolve],
      .inl ⟨hfault, Lexer.isFault_of_ofGrammar hfault⟩⟩
  · rw [hresolve] at hfailed
    cases hfailed
    exact ⟨hfor, h, by rw [hresolve], by rw [hresolve, hresolve],
      .inr ⟨⟨lexer, hlexer⟩, clash, hclash, rfl⟩⟩
  · rw [hresolve] at hfailed
    cases hfailed

/-- Wherever a run of requests leads: if a lexer cannot be had, nothing
changes, and asking again gives the same error. Later, whatever has
happened in between, asking for that slot succeeds if the grammar has no
fault and nothing is in the way of those that it brings along, and only
then, as long as the slot has not been compiled. Once it has been, it
always succeeds. -/
theorem failure_keeps (hstart : IsStart start) (h : Reachable start registry)
    (hfailed : (registry.resolve id source).1 = .error error) :
    ∃ number grammar, registry.Fails id source error number grammar ∧
      ∀ later, Reachable registry later → ∀ id source, later.slotFor id source = .ok number →
        (later.isCompiled number = false →
          ((∃ resolved, (later.resolve id source).1 = .ok resolved) ↔
            (∃ lexer, Lexer.ofGrammar grammar = .ok lexer) ∧
              later.AreFree grammar.auxiliary)) ∧
        (later.isCompiled number = true →
          ∃ resolved, later.resolve id source = (.ok resolved, later)) := by
  have hwf := h.wellFormed hstart.wellFormed
  have hdefaults := (h.keepsDefaults hstart.wellFormed).hasDefaults hstart.hasDefaults
  obtain ⟨number, grammar, hfor, hawaits⟩ := exists_awaits_of_error hwf hdefaults hfailed
  refine ⟨number, grammar, hawaits.fails hfor hfailed, ?_⟩
  intro later hlater id source hfor'
  constructor
  · intro hnot
    exact (hawaits.of_becomes (hlater.keepsDefaults hwf) hnot).resolve_iff hfor'
  · intro hcompiled
    exact exists_resolve_of_isCompiled hcompiled hfor'

/-- A language that brings another one along. -/
def withWord : Grammar := host [⟨["word"], Tagged.words⟩]

/-- The default registry with such a language. The identifier of the
other one has been taken since. -/
def blocked : Registry :=
  ((initial.answer (.register ["host"] (.described withWord))).2.answer
    (.register ["word"] (.described Tagged.words))).2

/-- The identifier has been freed, and then the language has been asked
for. -/
def unblocked : Registry :=
  ((blocked.answer (.register ["word"] (.described Tagged.words))).2.answer
    (.resolve (some "host") [])).2

theorem reachable_blocked : Reachable initial blocked := .step _ (.step _ .start)

theorem reachable_unblocked : Reachable blocked unblocked := .step _ (.step _ .start)

theorem resolve_blocked :
    (blocked.resolve (some "host") []).1 = .error (.duplicateLanguage "word") :=
  map_eq_error (f := Resolved.number) (by decide +kernel)

theorem slotFor_unblocked : unblocked.slotFor (some "host") [] = .ok 4 := by decide +kernel

theorem isCompiled_unblocked : unblocked.isCompiled 4 = true := by decide +kernel

theorem failure_keeps_blocked :
    IsStart initial ∧ Reachable initial blocked ∧
      (blocked.resolve (some "host") []).1 = .error (.duplicateLanguage "word") ∧
      ∃ grammar, blocked.Fails (some "host") [] (.duplicateLanguage "word") 4 grammar ∧
        Reachable blocked unblocked ∧
        ∃ resolved, unblocked.resolve (some "host") [] = (.ok resolved, unblocked) := by
  have hstart : IsStart initial := .inl rfl
  obtain ⟨number, grammar, hfails, hagain⟩ :=
    failure_keeps hstart reachable_blocked resolve_blocked
  have hfor : blocked.slotFor (some "host") [] = .ok 4 := by decide +kernel
  have hnumber : number = 4 := Except.ok.inj (hfails.slotFor_eq.symm.trans hfor)
  subst hnumber
  have hlater := hagain unblocked reachable_unblocked (some "host") [] slotFor_unblocked
  exact ⟨hstart, reachable_blocked, resolve_blocked, grammar, hfails, reachable_unblocked,
    hlater.2 isCompiled_unblocked⟩

/-- Once a slot has been compiled, its identifiers are taken by its own
grammars, and asking for it succeeds all the same. -/
theorem resolved_since :
    IsStart initial ∧ Reachable initial blocked ∧
      (blocked.resolve (some "host") []).1 = .error (.duplicateLanguage "word") ∧
      blocked.slotFor (some "host") [] = .ok 4 ∧ blocked.Awaits 4 withWord ∧
      Reachable blocked unblocked ∧ unblocked.slotFor (some "host") [] = .ok 4 ∧
      ¬((∃ resolved, (unblocked.resolve (some "host") []).1 = .ok resolved) ↔
        (∃ lexer, Lexer.ofGrammar withWord = .ok lexer) ∧
          unblocked.AreFree withWord.auxiliary) := by
  refine ⟨.inl rfl, reachable_blocked, resolve_blocked, by decide +kernel, ⟨_, rfl, rfl, rfl⟩,
    reachable_unblocked, slotFor_unblocked, fun hiff => ?_⟩
  obtain ⟨resolved, hresolve⟩ :=
    exists_resolve_of_isCompiled isCompiled_unblocked slotFor_unblocked
  have hfree := (hiff.mp ⟨resolved, by rw [hresolve]⟩).2
  -- The only list has the identifier that is registered.
  have htaken : unblocked.isRegistered "word" = true := by decide +kernel
  have hword := (hfree _ (List.mem_singleton_self _)).2 "word" (List.mem_singleton_self _)
  unfold isRegistered at htaken
  rw [hword] at htaken
  cases htaken

end Registry

end Highlighter
