import Highlighter.Proofs.Registry.History

/-!
# What a registration does

A registration goes through unless one of its identifiers is registered
already, or comes twice in the list. The first such identifier
(`FirstTaken`) is the one that is reported.

* `duplicate?_eq_some_iff`: this is the identifier that is found.
* `gains_of_free`: what goes through binds all identifiers to one slot
  that is new, and touches no other one.
* `loses_of_firstTaken`: what is refused takes the reported identifier
  away, unless it is a default one, and nothing else.
* `register_effect`: both, for all registries that runs lead to.
-/

set_option autoImplicit false

namespace Highlighter

namespace Registry

variable {registry after start : Registry} {ids : List String} {id : String}

/-! ### The identifier that is reported -/

/-- An identifier is the first one in a list that is registered, or that
comes a second time. -/
def FirstTaken (registry : Registry) (ids : List String) (id : String) : Prop :=
  ∃ earlier rest, ids = earlier ++ id :: rest ∧
    (registry.isRegistered id = true ∨ id ∈ earlier) ∧
    earlier.Nodup ∧ ∀ known ∈ earlier, registry.isRegistered known = false

/-- The search stops at an identifier that is taken, or that has been
seen, and goes past all those before it. -/
theorem duplicateAfter?_eq_some_iff {seen : List String} :
    registry.duplicateAfter? seen ids = some id ↔
      ∃ earlier rest, ids = earlier ++ id :: rest ∧
        (registry.isRegistered id = true ∨ id ∈ earlier ∨ id ∈ seen) ∧
        registry.duplicateAfter? seen earlier = none := by
  induction ids generalizing seen with
  | nil =>
    constructor
    · intro h
      cases h
    · rintro ⟨earlier, rest, hsplit, -⟩
      exact absurd hsplit.symm (List.append_ne_nil_of_right_ne_nil _ (List.cons_ne_nil _ _))
  | cons first others ih =>
    rw [duplicateAfter?]
    by_cases htaken : (registry.isRegistered first || seen.contains first) = true
    · rw [if_pos htaken]
      constructor
      · intro h
        cases h
        rw [Bool.or_eq_true, List.contains_iff_mem] at htaken
        exact ⟨[], others, rfl, htaken.imp_right .inr, rfl⟩
      · -- The search does not go past the first identifier.
        rintro ⟨earlier, rest, hsplit, -, hnone⟩
        cases earlier with
        | nil =>
          cases hsplit
          rfl
        | cons known earlier =>
          cases hsplit
          rw [duplicateAfter?, if_pos htaken] at hnone
          cases hnone
    · rw [if_neg htaken, ih]
      constructor
      · rintro ⟨earlier, rest, rfl, hid, hnone⟩
        refine ⟨first :: earlier, rest, rfl, ?_, by rw [duplicateAfter?, if_neg htaken, hnone]⟩
        rw [List.mem_cons] at hid ⊢
        tauto
      · rintro ⟨earlier, rest, hsplit, hid, hnone⟩
        cases earlier with
        | nil =>
          cases hsplit
          rw [Bool.or_eq_true, List.contains_iff_mem] at htaken
          exact absurd (hid.imp_right (·.resolve_left List.not_mem_nil)) htaken
        | cons known earlier =>
          cases hsplit
          rw [duplicateAfter?, if_neg htaken] at hnone
          refine ⟨earlier, rest, rfl, ?_, hnone⟩
          rw [List.mem_cons] at hid ⊢
          tauto

theorem duplicate?_eq_some_iff : registry.duplicate? ids = some id ↔ registry.FirstTaken ids id := by
  unfold duplicate? FirstTaken
  simp only [duplicateAfter?_eq_some_iff, List.not_mem_nil, or_false]
  simp only [show ∀ earlier, registry.duplicateAfter? [] earlier = registry.duplicate? earlier from
    fun _ => rfl, duplicate?_eq_none_iff, isRegistered_eq_false]

/-! ### What changes -/

/-- A registry gains a language under some identifiers, and nothing else
changes. -/
structure Gains (registry : Registry) (ids : List String) (language : Language)
    (after : Registry) : Prop where
  /-- Without an identifier there is nothing to register. -/
  nothing : ids = [] → after = registry
  /-- There is one more slot, which has its name from the first
  identifier. -/
  slots_eq : ∀ name ∈ ids.head?, after.slots = registry.slots.push (Slot.ofLanguage name language)
  /-- All identifiers are bound to it. -/
  bound : ∀ id ∈ ids, after.slotOf? id = some registry.slots.size
  /-- Before, no identifier was. -/
  fresh : ∀ id, registry.slotOf? id ≠ some registry.slots.size
  others : ∀ id, id ∉ ids → after.slotOf? id = registry.slotOf? id

/-- A registry loses an identifier, unless it is a default one, and
nothing else changes. -/
structure Loses (registry : Registry) (id : String) (after : Registry) : Prop where
  freed : ¬IsDefault id → after.slotOf? id = none
  default : IsDefault id → after = registry
  others : ∀ other, other ≠ id → after.slotOf? other = registry.slotOf? other
  /-- So no identifier is bound to a slot that it did not have before. -/
  none_gained : ∀ other number, after.slotOf? other = some number →
    registry.slotOf? other = some number
  slots_eq : after.slots = registry.slots
  /-- An identifier that shared the slot keeps the lexer, and so does one
  that comes later in the list that was refused. -/
  lexers : ∀ other resolved, other ≠ id → registry.HasLexer other resolved →
    after.HasLexer other resolved

/-- What goes through binds its identifiers to a new slot. -/
theorem gains_of_free (hwf : registry.WellFormed) (h : registry.duplicate? ids = none)
    (language : Language) :
    ∃ after, registry.register ids language = (.ok (), after) ∧
      registry.Gains ids language after := by
  refine ⟨registry.add ids language, register_of_free h language, ?_, ?_, ?_, ?_, ?_⟩
  · rintro rfl
    rfl
  · intro name hname
    obtain ⟨rest, rfl⟩ := List.head?_eq_some_iff.mp hname
    exact slots_add registry name rest language
  · intro id hid
    rw [slotOf?_add, if_pos hid]
  · exact fun id hid => absurd (hwf.lt_size id _ hid) (Nat.lt_irrefl _)
  · intro id hid
    rw [slotOf?_add, if_neg hid]

/-- Taking an identifier away leaves the others their slots. -/
theorem loses_free (hother : ¬IsDefault id) :
    registry.Loses id { registry with ids := without id registry.ids } := by
  have hfreed := slotOf?_free registry id
  have hothers : ∀ other, other ≠ id →
      slotOf? { registry with ids := without id registry.ids } other = registry.slotOf? other :=
    fun other hne => (hfreed other).trans (if_neg hne)
  refine ⟨fun _ => (hfreed id).trans (if_pos rfl), fun hdefault => absurd hdefault hother,
    hothers, fun other number hnumber => ?_, rfl, fun other resolved hne hlexer => ?_⟩
  · rw [hfreed] at hnumber
    split at hnumber
    · cases hnumber
    · exact hnumber
  · exact ⟨(hothers other hne).trans hlexer.slotOf?_eq, hlexer.lexer_eq⟩

/-- What is refused takes away the identifier that it reports, and no
other one. -/
theorem loses_of_firstTaken (h : registry.FirstTaken ids id) (language : Language) :
    ∃ after, registry.register ids language = (.error (.duplicateLanguage id), after) ∧
      registry.Loses id after := by
  rcases register_of_taken (duplicate?_eq_some_iff.mpr h) language with
    ⟨hdefault, heq⟩ | ⟨hother, heq⟩
  · exact ⟨registry, heq, fun hnot => absurd hdefault hnot, fun _ => rfl, fun _ _ => rfl,
      fun _ _ hnumber => hnumber, rfl, fun _ _ _ hlexer => hlexer⟩
  · exact ⟨_, heq, loses_free (not_or.mpr hother)⟩

/-- Wherever a run of requests leads, and whatever is to be registered
there under whichever identifiers: if none of them is taken, and none
comes twice, the registration goes through, and all of them are bound
to one slot that is new. Otherwise the first one of these is reported,
and the only change is that it is not registered any more, unless it is
a default one. -/
theorem register_effect (hstart : IsStart start) (h : Reachable start registry)
    (ids : List String) (language : Language) :
    ((∀ id, ¬registry.FirstTaken ids id) →
        ∃ after, registry.register ids language = (.ok (), after) ∧
          registry.Gains ids language after) ∧
      ∀ id, registry.FirstTaken ids id →
        ∃ after, registry.register ids language = (.error (.duplicateLanguage id), after) ∧
          registry.Loses id after := by
  refine ⟨fun hfree => ?_, fun id htaken => loses_of_firstTaken htaken language⟩
  have hnone : registry.duplicate? ids = none :=
    Option.eq_none_iff_forall_ne_some.mpr fun id hsome =>
      hfree id (duplicate?_eq_some_iff.mp hsome)
  exact gains_of_free (h.wellFormed hstart.wellFormed) hnone language

/-- One language with two identifiers, which has been compiled. -/
def compiledAliases : Registry := (withAliases.answer (.resolve (some "angle") [])).2

theorem register_effect_aliases :
    IsStart initial ∧ Reachable initial compiledAliases ∧
      -- The second identifier is taken, and so is the third one, which shares its slot.
      compiledAliases.FirstTaken ["notes", "brackets", "angle"] "brackets" ∧
      (∃ after, compiledAliases.register ["notes", "brackets", "angle"] (.described Tagged.words)
          = (.error (.duplicateLanguage "brackets"), after) ∧
        compiledAliases.Loses "brackets" after) ∧
      (∀ id, ¬compiledAliases.FirstTaken ["notes", "memo"] id) ∧
      ∃ after, compiledAliases.register ["notes", "memo"] (.described Tagged.words)
          = (.ok (), after) ∧
        compiledAliases.Gains ["notes", "memo"] (.described Tagged.words) after := by
  have hstart : IsStart initial := .inl rfl
  have hreachable : Reachable initial compiledAliases := .step _ (.step _ .start)
  have htaken : compiledAliases.FirstTaken ["notes", "brackets", "angle"] "brackets" :=
    duplicate?_eq_some_iff.mp (by decide +kernel)
  have hfree : ∀ id, ¬compiledAliases.FirstTaken ["notes", "memo"] id := by
    intro id hid
    have hsome := duplicate?_eq_some_iff.mpr hid
    rw [show compiledAliases.duplicate? ["notes", "memo"] = none by decide +kernel] at hsome
    cases hsome
  exact ⟨hstart, hreachable, htaken, (register_effect hstart hreachable _ _).2 _ htaken, hfree,
    (register_effect hstart hreachable _ _).1 hfree⟩

end Registry

end Highlighter
