import Highlighter.Proofs.Registry.WarmUp

/-!
# Identifiers of a registry

What binding and registering do to the slot of an identifier
(`slotOf?_bind`, `slotOf?_add`), and when some identifiers may be
registered (`duplicate?_eq_none_iff`). New slots are numbered from the
end on, so an identifier that is not registered anew keeps its slot.

A registry is well-formed (`WellFormed`) if each identifier is entered
once and bound to a slot that is there, and if each slot is compiled or
can be. Registration keeps that.
-/

set_option autoImplicit false

namespace Highlighter

namespace Registry

variable {registry : Registry} {id : String} {number : Nat}

/-! ### The slot of an identifier -/

theorem lookup_without (id other : String) (ids : List (String × Nat)) :
    (without id ids).lookup other = if other = id then none else ids.lookup other := by
  unfold without
  induction ids with
  | nil => simp
  | cons entry rest ih =>
    obtain ⟨known, number⟩ := entry
    rw [List.filter_cons, List.lookup_cons]
    by_cases hknown : known = id
    · -- The entry is taken out.
      rw [if_neg (by simp [hknown]), ih]
      by_cases hother : other = id
      · rw [if_pos hother, if_pos hother]
      · rw [beq_eq_false_iff_ne.mpr (hknown ▸ hother)]
    · rw [if_pos (by simp [hknown]), List.lookup_cons, ih]
      by_cases hother : other = id
      · rw [beq_eq_false_iff_ne.mpr (hother ▸ Ne.symm hknown), if_pos hother]
      · rw [if_neg hother, if_neg hother]

/-- An identifier has the slot that it was bound to last. -/
theorem slotOf?_bind (registry : Registry) (number : Nat) (id other : String) :
    (registry.bind number id).slotOf? other
      = if other = id then some number else registry.slotOf? other := by
  unfold slotOf? bind
  rw [List.lookup_append, lookup_without, List.lookup_cons, List.lookup_nil]
  by_cases hother : other = id
  · rw [if_pos hother, if_pos hother, beq_iff_eq.mpr hother, Option.none_or]
  · rw [if_neg hother, if_neg hother, beq_eq_false_iff_ne.mpr hother, Option.or_none]

theorem slotOf?_foldl_bind (registry : Registry) (number : Nat) (ids : List String)
    (id : String) :
    (ids.foldl (fun registry id => registry.bind number id) registry).slotOf? id
      = if id ∈ ids then some number else registry.slotOf? id := by
  induction ids generalizing registry with
  | nil => simp
  | cons first rest ih =>
    rw [List.foldl_cons, ih, slotOf?_bind]
    by_cases hrest : id ∈ rest
    · simp [hrest]
    · simp [hrest]

/-- Registering a language binds its identifiers to a new slot. -/
theorem slotOf?_add (registry : Registry) (ids : List String) (language : Language)
    (id : String) :
    (registry.add ids language).slotOf? id
      = if id ∈ ids then some registry.slots.size else registry.slotOf? id := by
  cases ids with
  | nil => simp [add]
  | cons name rest => exact slotOf?_foldl_bind _ _ _ id

theorem isRegistered_eq_false : registry.isRegistered id = false ↔ registry.slotOf? id = none := by
  unfold isRegistered
  rw [Option.isSome_eq_false_iff, Option.isNone_iff_eq_none]

/-! ### Identifiers that are taken -/

theorem duplicateAfter?_eq_none_iff {earlier ids : List String} :
    registry.duplicateAfter? earlier ids = none
      ↔ ids.Nodup ∧ ∀ id ∈ ids, id ∉ earlier ∧ registry.slotOf? id = none := by
  induction ids generalizing earlier with
  | nil => simp [duplicateAfter?]
  | cons first rest ih =>
    rw [duplicateAfter?]
    by_cases htaken : (registry.isRegistered first || earlier.contains first) = true
    · rw [if_pos htaken]
      constructor
      · intro hnone
        cases hnone
      · intro ⟨_, hfree⟩
        obtain ⟨hearlier, hslot⟩ := hfree first List.mem_cons_self
        rw [isRegistered_eq_false.mpr hslot, Bool.false_or, List.contains_iff_mem] at htaken
        exact absurd htaken hearlier
    · rw [if_neg htaken, ih, List.nodup_cons, List.forall_mem_cons]
      rw [Bool.not_eq_true, Bool.or_eq_false_iff, isRegistered_eq_false] at htaken
      have hearlier : first ∉ earlier := by simpa using htaken.2
      constructor
      · intro ⟨hnodup, hfree⟩
        refine ⟨⟨fun hmem => (hfree first hmem).1 List.mem_cons_self, hnodup⟩,
          ⟨hearlier, htaken.1⟩, fun id hid => ⟨fun hmem => ?_, (hfree id hid).2⟩⟩
        exact (hfree id hid).1 (List.mem_cons_of_mem first hmem)
      · intro ⟨⟨hfirst, hnodup⟩, _, hfree⟩
        refine ⟨hnodup, fun id hid => ⟨fun hmem => ?_, (hfree id hid).2⟩⟩
        rcases List.mem_cons.mp hmem with rfl | hmem
        · exact hfirst hid
        · exact (hfree id hid).1 hmem

/-- Identifiers may be registered if each comes once and none is
taken. -/
theorem duplicate?_eq_none_iff {ids : List String} :
    registry.duplicate? ids = none ↔ ids.Nodup ∧ ∀ id ∈ ids, registry.slotOf? id = none := by
  unfold duplicate?
  rw [duplicateAfter?_eq_none_iff]
  simp

/-! ### Well-formed registries -/

/-- Each identifier is entered once and has a slot, and each slot is
compiled or has a grammar. -/
structure WellFormed (registry : Registry) : Prop where
  nodup : (registry.ids.map Prod.fst).Nodup
  lt_size : ∀ id number, registry.slotOf? id = some number → number < registry.slots.size
  ready : ∀ slot ∈ registry.slots, slot.lexer.isSome = true ∨ slot.grammar.isSome = true

theorem wellFormed_empty : empty.WellFormed where
  nodup := List.nodup_nil
  lt_size _ _ h := nomatch h
  ready slot h := absurd h (Array.not_mem_empty slot)

/-- A language is compiled, or it has a grammar. -/
theorem ready_ofLanguage (name : String) (language : Language) :
    (Slot.ofLanguage name language).lexer.isSome = true ∨
      (Slot.ofLanguage name language).grammar.isSome = true := by
  cases language with
  | compiled lexer => exact .inl rfl
  | described grammar => exact .inr rfl

theorem nodup_foldl_bind (number : Nat) (ids : List String)
    (h : (registry.ids.map Prod.fst).Nodup) :
    ((ids.foldl (fun registry id => registry.bind number id) registry).ids.map Prod.fst).Nodup := by
  induction ids generalizing registry with
  | nil => exact h
  | cons first rest ih =>
    refine ih ?_
    have hrest : ((without first registry.ids).map Prod.fst).Nodup :=
      h.sublist (List.filter_sublist.map Prod.fst)
    have hfirst : first ∉ (without first registry.ids).map Prod.fst := by
      intro hmem
      obtain ⟨entry, hentry, heq⟩ := List.mem_map.mp hmem
      have hne := (List.mem_filter.mp hentry).2
      simp [heq] at hne
    show ((without first registry.ids ++ [(first, number)]).map Prod.fst).Nodup
    rw [List.map_append, List.nodup_append]
    refine ⟨hrest, List.pairwise_singleton _ first, fun other hother known hknown heq => ?_⟩
    have hknown : known = first := List.mem_singleton.mp hknown
    rw [heq, hknown] at hother
    exact hfirst hother

theorem WellFormed.add (h : registry.WellFormed) (ids : List String) (language : Language) :
    (registry.add ids language).WellFormed := by
  cases ids with
  | nil => exact h
  | cons name rest =>
    have hslots := slots_add registry name rest language
    refine ⟨nodup_foldl_bind _ (name :: rest) h.nodup, fun id number hid => ?_,
      fun slot hslot => ?_⟩
    · rw [hslots, Array.size_push]
      rw [slotOf?_add] at hid
      split at hid
      · cases hid
        exact Nat.lt_succ_self _
      · exact Nat.lt_succ_of_lt (h.lt_size id number hid)
    · rw [hslots, Array.mem_push] at hslot
      rcases hslot with hslot | rfl
      · exact h.ready slot hslot
      · exact ready_ofLanguage name language

theorem WellFormed.foldl_add (h : registry.WellFormed) (list : List (Named Grammar)) :
    (list.foldl (fun registry named => registry.add named.ids (.described named.grammar))
      registry).WellFormed := by
  induction list generalizing registry with
  | nil => exact h
  | cons named rest ih => exact ih (h.add named.ids (.described named.grammar))

/-- Freeing an identifier keeps the others. -/
theorem slotOf?_free (registry : Registry) (id other : String) :
    slotOf? { registry with ids := without id registry.ids } other
      = if other = id then none else registry.slotOf? other :=
  lookup_without id other registry.ids

theorem WellFormed.free (h : registry.WellFormed) (id : String) :
    WellFormed { registry with ids := without id registry.ids } where
  nodup := h.nodup.sublist (List.filter_sublist.map Prod.fst)
  lt_size other number hother := by
    rw [slotOf?_free] at hother
    split at hother
    · cases hother
    · exact h.lt_size other number hother
  ready := h.ready

/-- A registration goes through if no identifier is taken. -/
theorem register_of_free {ids : List String} (h : registry.duplicate? ids = none)
    (language : Language) : registry.register ids language = (.ok (), registry.add ids language) := by
  unfold register
  rw [h]

/-- A registration is refused since an identifier is taken. That one is
freed then, unless it is a default one. -/
theorem register_of_taken {ids : List String} (h : registry.duplicate? ids = some id)
    (language : Language) :
    (id = defaultCode ∨ id = defaultMarkup) ∧
        registry.register ids language = (.error (.duplicateLanguage id), registry) ∨
      (id ≠ defaultCode ∧ id ≠ defaultMarkup) ∧
        registry.register ids language
          = (.error (.duplicateLanguage id), { registry with ids := without id registry.ids }) := by
  unfold register
  rw [h]
  by_cases hdefault : id = defaultCode ∨ id = defaultMarkup
  · exact .inl ⟨hdefault, by simp [hdefault]⟩
  · exact .inr ⟨not_or.mp hdefault, by simp [hdefault]⟩

/-- A registration goes through, or is refused since an identifier is
taken. -/
theorem register_cases (registry : Registry) (ids : List String) (language : Language) :
    (registry.duplicate? ids = none ∧
        registry.register ids language = (.ok (), registry.add ids language)) ∨
      ∃ id, (id = defaultCode ∨ id = defaultMarkup) ∧
          registry.register ids language = (.error (.duplicateLanguage id), registry) ∨
        (id ≠ defaultCode ∧ id ≠ defaultMarkup) ∧
          registry.register ids language
            = (.error (.duplicateLanguage id),
                { registry with ids := without id registry.ids }) := by
  cases hduplicate : registry.duplicate? ids with
  | none => exact .inl ⟨rfl, register_of_free hduplicate language⟩
  | some id => exact .inr ⟨id, register_of_taken hduplicate language⟩

theorem WellFormed.register (h : registry.WellFormed) (ids : List String) (language : Language) :
    (registry.register ids language).2.WellFormed := by
  rcases register_cases registry ids language with ⟨-, heq⟩ | ⟨id, ⟨-, heq⟩ | ⟨-, heq⟩⟩
  · rw [heq]
    exact h.add ids language
  · rw [heq]
    exact h
  · rw [heq]
    exact h.free id

theorem WellFormed.setLexer (h : registry.WellFormed) (number : Nat) (lexer : Lexer) :
    (registry.setLexer number lexer).WellFormed where
  nodup := h.nodup
  lt_size id number hid := by
    unfold Registry.setLexer
    rw [Array.size_modify]
    exact h.lt_size id number hid
  ready slot hslot := by
    unfold Registry.setLexer at hslot
    obtain ⟨place, hplace⟩ := Array.mem_iff_getElem?.mp hslot
    rw [Array.getElem?_modify] at hplace
    split at hplace
    · obtain ⟨known, -, rfl⟩ := Option.map_eq_some_iff.mp hplace
      exact .inl rfl
    · exact h.ready slot (Array.mem_iff_getElem?.mpr ⟨place, hplace⟩)

/-- Entries and slots of identifiers are the same thing. -/
theorem WellFormed.mem_ids_iff (h : registry.WellFormed) :
    number ∈ registry.ids.map Prod.snd ↔ ∃ id, registry.slotOf? id = some number := by
  constructor
  · intro hmem
    obtain ⟨⟨id, known⟩, hentry, rfl⟩ := List.mem_map.mp hmem
    obtain ⟨before, rest, hsplit⟩ := List.append_of_mem hentry
    refine ⟨id, List.lookup_eq_some_iff.mpr ⟨before, rest, hsplit, fun entry hbefore => ?_⟩⟩
    have hnodup := h.nodup
    rw [hsplit, List.map_append, List.map_cons, List.nodup_append] at hnodup
    have hne := hnodup.2.2 entry.1 (List.mem_map_of_mem hbefore) id List.mem_cons_self
    exact bne_iff_ne.mpr (Ne.symm hne)
  · intro ⟨id, hid⟩
    exact mem_ids_of_slotOf? hid

end Registry

end Highlighter
