import Highlighter.Proofs.Registry.Registration

/-!
# Grammars that bring others along

A grammar is compiled when it is first asked for, and the grammars that
it brings along are registered then: all of them, or none if one of
their identifiers is in the way. An identifier is in the way
(`FirstClash`) if it is registered already, or comes twice in its list.
One that is in two lists is not: the lists are not compared with one
another.

* `Awaits.resolve_cases`: all that can come of asking for a grammar that
  is not compiled yet.
* `exists_slot_addAll`: if several lists have an identifier, the last
  one gets it.
* `auxiliaries_bound`: so each identifier is bound to the grammar of its
  own list, as long as no later list has it.
-/

set_option autoImplicit false

namespace Highlighter

namespace Registry

variable {registry : Registry} {number : Nat} {id : Option String} {source : List Char}
  {grammar : Grammar} {auxiliary : List (Named Grammar)}

/-! ### The identifier that is in the way -/

/-- An identifier is the first one that is in the way of grammars. The
lists before its own may be registered, each for itself. -/
def FirstClash (registry : Registry) (auxiliary : List (Named Grammar)) (clash : String) : Prop :=
  ∃ earlier named rest, auxiliary = earlier ++ named :: rest ∧
    registry.FirstTaken named.ids clash ∧ registry.AreFree earlier

/-- The search for an identifier that is in the way finds the first
one. -/
theorem findSome?_duplicate?_eq_some_iff {clash : String} :
    auxiliary.findSome? (fun named => registry.duplicate? named.ids) = some clash
      ↔ registry.FirstClash auxiliary clash := by
  simp only [List.findSome?_eq_some_iff, duplicate?_eq_some_iff, duplicate?_eq_none_iff]
  constructor
  · rintro ⟨earlier, named, rest, hsplit, htaken, hearlier⟩
    exact ⟨earlier, named, rest, hsplit, htaken, hearlier⟩
  · rintro ⟨earlier, named, rest, hsplit, htaken, hearlier⟩
    exact ⟨earlier, named, rest, hsplit, htaken, hearlier⟩

theorem FirstClash.not_areFree {clash : String} (h : registry.FirstClash auxiliary clash) :
    ¬registry.AreFree auxiliary := by
  rw [← findSome?_duplicate?_eq_none_iff, findSome?_duplicate?_eq_some_iff.mpr h]
  exact Option.some_ne_none clash

/-! ### Asking for a grammar that is not compiled yet -/

/-- A slot has a grammar that is not compiled yet. -/
def Awaits (registry : Registry) (number : Nat) (grammar : Grammar) : Prop :=
  ∃ slot, registry.slots[number]? = some slot ∧ slot.lexer = none ∧ slot.grammar = some grammar

/-- All that can come of asking for a grammar that is not compiled yet:
it has a fault, or an identifier is in the way, and nothing changes; or
it is compiled and what it brings along is registered. -/
theorem Awaits.resolve_cases (h : registry.Awaits number grammar)
    (hfor : registry.slotFor id source = .ok number) :
    (∃ error, Lexer.ofGrammar grammar = .error error ∧
        registry.resolve id source = (.error error, registry)) ∨
      (∃ lexer clash, Lexer.ofGrammar grammar = .ok lexer ∧
        registry.FirstClash grammar.auxiliary clash ∧
        registry.resolve id source = (.error (.duplicateLanguage clash), registry)) ∨
      ∃ lexer, Lexer.ofGrammar grammar = .ok lexer ∧ registry.AreFree grammar.auxiliary ∧
        registry.resolve id source = (.ok ⟨number, lexer⟩,
          (registry.addAll grammar.auxiliary).setLexer number lexer) := by
  obtain ⟨slot, hslot, hnone, hgrammar⟩ := h
  unfold resolve lexerOf addAuxiliary
  simp only [hfor, hslot, hnone, hgrammar]
  cases hcompiled : Lexer.ofGrammar grammar with
  | error error => exact .inl ⟨error, rfl, rfl⟩
  | ok lexer =>
    -- The grammar itself is fine, so the lists that it brings along decide.
    cases hfind : grammar.auxiliary.findSome? fun named => registry.duplicate? named.ids with
    | some clash =>
      have hclash := findSome?_duplicate?_eq_some_iff.mp hfind
      exact .inr (.inl ⟨lexer, clash, rfl, hclash, rfl⟩)
    | none =>
      have hfree := findSome?_duplicate?_eq_none_iff.mp hfind
      exact .inr (.inr ⟨lexer, rfl, hfree, rfl⟩)

/-! ### What identifiers are bound to -/

/-- Of all lists that have an identifier, the last one gets it: it is
bound to the slot of that grammar, which is new. -/
theorem exists_slot_addAll (registry : Registry) {earlier rest : List (Named Grammar)}
    {named : Named Grammar} {part : String} (hpart : part ∈ named.ids)
    (hlast : ∀ other ∈ rest, part ∉ other.ids) :
    ∃ place, (registry.addAll (earlier ++ named :: rest)).slotOf? part = some place ∧
      registry.slots[place]? = none ∧
      (registry.addAll (earlier ++ named :: rest)).slots[place]?
        = some (Slot.ofLanguage (named.ids.headD "") (.described named.grammar)) := by
  -- The lists before come first, then this one, and then those after it.
  have hsplit : registry.addAll (earlier ++ named :: rest)
      = ((registry.addAll earlier).add named.ids (.described named.grammar)).addAll rest := by
    unfold addAll
    rw [List.foldl_append, List.foldl_cons]
  obtain ⟨name, others, hids⟩ := List.exists_cons_of_ne_nil (List.ne_nil_of_mem hpart)
  refine ⟨(registry.addAll earlier).slots.size, ?_, ?_, ?_⟩
  · rw [hsplit]
    refine (slotOf?_foldl_add _ hlast).trans ?_
    rw [slotOf?_add, if_pos hpart]
  · refine Option.eq_none_iff_forall_ne_some.mpr fun slot hslot => ?_
    have hkept := getElem?_slots_foldl_add registry earlier hslot
    exact Nat.lt_irrefl _ (Array.getElem?_eq_some_iff.mp hkept).1
  · rw [hsplit]
    refine getElem?_slots_foldl_add _ rest ?_
    rw [hids, slots_add, Array.getElem?_push_size]
    rfl

/-- Whatever state the registry is in: if a grammar that was not
compiled yet is asked for and compiled, each identifier that it brings
along is bound to a new slot with the very grammar of its list, unless a
later list has it, too, which gets it then. If an identifier comes twice
in one list, asking for the grammar fails and changes nothing; unless
the grammar has a fault of its own, the first identifier that is in the
way is reported. -/
theorem auxiliaries_bound (hfor : registry.slotFor id source = .ok number)
    (hawaits : registry.Awaits number grammar) :
    (∀ resolved after, registry.resolve id source = (.ok resolved, after) →
        ∀ earlier named rest, grammar.auxiliary = earlier ++ named :: rest →
          ∀ part ∈ named.ids, (∀ other ∈ rest, part ∉ other.ids) →
            ∃ place, after.slotOf? part = some place ∧ registry.slots[place]? = none ∧
              after.slots[place]?
                = some (Slot.ofLanguage (named.ids.headD "") (.described named.grammar))) ∧
      ((∃ named ∈ grammar.auxiliary, ¬named.ids.Nodup) →
        (∃ error, Lexer.ofGrammar grammar = .error error ∧
          registry.resolve id source = (.error error, registry)) ∨
        ∃ clash, registry.FirstClash grammar.auxiliary clash ∧
          registry.resolve id source = (.error (.duplicateLanguage clash), registry)) := by
  obtain ⟨error, hfault, hresolve⟩ | ⟨lexer, clash, -, hclash, hresolve⟩ |
    ⟨lexer, -, hfree, hresolve⟩ := hawaits.resolve_cases hfor
  · rw [hresolve]
    exact ⟨fun _ _ hok => (nomatch hok), fun _ => .inl ⟨error, hfault, rfl⟩⟩
  · rw [hresolve]
    exact ⟨fun _ _ hok => (nomatch hok), fun _ => .inr ⟨clash, hclash, rfl⟩⟩
  · rw [hresolve]
    constructor
    · intro resolved after hok earlier named rest hsplit part hpart hlast
      cases hok
      obtain ⟨place, hplace, hnew, hslot⟩ := exists_slot_addAll registry hpart hlast
      rw [← hsplit] at hplace hslot
      refine ⟨place, hplace, hnew, ?_⟩
      -- The slot that gets the lexer was there before, so it is another one.
      have hne : number ≠ place := by
        rintro rfl
        obtain ⟨slot, hknown, -⟩ := hawaits
        rw [hnew] at hknown
        cases hknown
      show ((registry.addAll grammar.auxiliary).slots.modify number _)[place]? = _
      rw [Array.getElem?_modify, if_neg hne]
      exact hslot
    · rintro ⟨named, hnamed, htwice⟩
      exact absurd (hfree named hnamed).1 htwice

/-- A grammar that brings others along. -/
def host (auxiliary : List (Named Grammar)) : Grammar :=
  ⟨[], [⟨.plain, .ofSource "^-", []⟩], auxiliary⟩

/-- The default registry with such a language, which is not compiled
yet. -/
def hosting (auxiliary : List (Named Grammar)) : Registry :=
  (initial.answer (.register ["host"] (.described (host auxiliary)))).2

/-- Two lists, of which the second one has an identifier of the first
one. -/
def overlapping : List (Named Grammar) :=
  [⟨["name", "word"], Tagged.words⟩, ⟨["word"], Tagged.bracketed⟩]

/-- One list, in which an identifier comes twice. -/
def repeating : List (Named Grammar) := [⟨["word", "word"], Tagged.words⟩]

theorem auxiliaries_bound_hosting :
    (hosting overlapping).slotFor (some "host") [] = .ok 4 ∧
      (hosting overlapping).Awaits 4 (host overlapping) ∧
      (∃ resolved after, (hosting overlapping).resolve (some "host") [] = (.ok resolved, after) ∧
        (∃ place, after.slotOf? "name" = some place ∧ (hosting overlapping).slots[place]? = none ∧
          after.slots[place]? = some (Slot.ofLanguage "name" (.described Tagged.words))) ∧
        ∃ place, after.slotOf? "word" = some place ∧ (hosting overlapping).slots[place]? = none ∧
          after.slots[place]? = some (Slot.ofLanguage "word" (.described Tagged.bracketed))) ∧
      (hosting repeating).slotFor (some "host") [] = .ok 4 ∧
      (hosting repeating).Awaits 4 (host repeating) ∧
      ((∃ error, Lexer.ofGrammar (host repeating) = .error error ∧
          (hosting repeating).resolve (some "host") [] = (.error error, hosting repeating)) ∨
        ∃ clash, (hosting repeating).FirstClash (host repeating).auxiliary clash ∧
          (hosting repeating).resolve (some "host") []
            = (.error (.duplicateLanguage clash), hosting repeating)) := by
  have hfor : (hosting overlapping).slotFor (some "host") [] = .ok 4 := by decide +kernel
  have hawaits : (hosting overlapping).Awaits 4 (host overlapping) := ⟨_, rfl, rfl, rfl⟩
  have hcompiled : ((hosting overlapping).resolve (some "host") []).1.isOk = true := by
    decide +kernel
  have hfor' : (hosting repeating).slotFor (some "host") [] = .ok 4 := by decide +kernel
  have hawaits' : (hosting repeating).Awaits 4 (host repeating) := ⟨_, rfl, rfl, rfl⟩
  refine ⟨hfor, hawaits, ?_, hfor', hawaits', ?_⟩
  · cases hresult : (hosting overlapping).resolve (some "host") [] with
    | mk result after =>
      rw [hresult] at hcompiled
      cases result with
      | error error => cases hcompiled
      | ok resolved =>
        have hbound := (auxiliaries_bound hfor hawaits).1 resolved after hresult
        -- No later list has the name, and no list comes after the second one.
        refine ⟨resolved, after, rfl, ?_, ?_⟩
        · exact hbound [] _ [⟨["word"], Tagged.bracketed⟩] rfl "name" (by decide) (by simp)
        · exact hbound [⟨["name", "word"], Tagged.words⟩] _ [] rfl "word" (by decide) (by simp)
  · exact (auxiliaries_bound hfor' hawaits').2 ⟨_, List.mem_singleton_self _, by decide⟩

end Registry

end Highlighter
