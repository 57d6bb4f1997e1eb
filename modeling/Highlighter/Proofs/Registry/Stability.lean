import Highlighter.Proofs.Registry.Requests

/-!
# A lexer stays with its identifier

An identifier that has been resolved has a slot with a lexer
(`HasLexer`). Slots are never taken away and keep their lexers, so the
identifier can lose its lexer in one way only: a registration is refused
because of it, and says so (`slotOf?_answer`).

* `slotOf?_answer`: all that a request does to the slot of an
  identifier.
* `resolve_of_hasLexer`: an identifier with a lexer is resolved to it,
  and nothing changes.
* `RunsTo.hasLexer`: along a run without a report of an identifier, its
  lexer stays.
* `RunsTo.sameSlot`: along a run in which two identifiers stay
  registered, they keep sharing a slot.
-/

set_option autoImplicit false

namespace Highlighter

namespace Registry

variable {registry after start : Registry} {id : String} {number : Nat}
  {resolved : Resolved} {Allowed : Registry → Request → Prop}

/-! ### Runs -/

/-- A registration is refused, and the identifier that it reports is
this one. -/
def Reports (registry : Registry) (request : Request) (id : String) : Prop :=
  request.registers = true ∧
    (registry.answer request).1 = .error (.config (.duplicateLanguage id))

/-- The registries that runs lead to of which each request is allowed in
the registry that it comes to. -/
inductive RunsTo (Allowed : Registry → Request → Prop) (start : Registry) : Registry → Prop where
  | refl : RunsTo Allowed start start
  | step {registry : Registry} {request : Request} (h : RunsTo Allowed start registry)
    (hallowed : Allowed registry request) : RunsTo Allowed start (registry.answer request).2

theorem RunsTo.reachable (h : RunsTo Allowed start registry) : Reachable start registry := by
  induction h with
  | refl => exact .start
  | step _ _ ih => exact .step _ ih

theorem RunsTo.wellFormed (h : RunsTo Allowed start registry) (hwf : start.WellFormed) :
    registry.WellFormed :=
  h.reachable.wellFormed hwf

/-- All slots stay along a run, and are at most compiled. -/
theorem RunsTo.becomes (h : RunsTo Allowed start registry) (hwf : start.WellFormed) {slot : Slot}
    (hslot : start.slots[number]? = some slot) :
    ∃ later, registry.slots[number]? = some later ∧ slot.Becomes later :=
  (h.reachable.keepsDefaults hwf).becomes number slot hslot

/-! ### What a request does to an identifier -/

/-- A registration keeps the slot of a registered identifier, or reports
the identifier and frees it. -/
theorem slotOf?_register (hid : registry.slotOf? id = some number) (ids : List String)
    (language : Language) :
    (registry.register ids language).2.slotOf? id = some number ∨
      (registry.register ids language).1 = .error (.duplicateLanguage id) ∧ ¬IsDefault id ∧
        (registry.register ids language).2.slotOf? id = none := by
  rcases register_cases registry ids language with
    ⟨hfree, heq⟩ | ⟨taken, ⟨-, heq⟩ | ⟨hother, heq⟩⟩
  -- It is accepted, or refused for a default identifier, which is kept, or
  -- for another one, which is freed.
  · rw [heq]
    exact .inl ((growsTo_add (duplicate?_eq_none_iff.mp hfree).2).slotOf?_eq id number hid)
  · rw [heq]
    exact .inl hid
  · rw [heq]
    by_cases htaken : id = taken
    · subst htaken
      exact .inr ⟨rfl, not_or.mpr hother, (slotOf?_free registry id id).trans (if_pos rfl)⟩
    · exact .inl (((slotOf?_free registry taken id).trans (if_neg htaken)).trans hid)

/-- A registered identifier keeps its slot whatever is asked for, unless
it is reported. Then it is freed, as long as it is no default one. -/
theorem slotOf?_answer (hwf : registry.WellFormed) (hid : registry.slotOf? id = some number)
    (request : Request) :
    (registry.answer request).2.slotOf? id = some number ∨
      registry.Reports request id ∧ ¬IsDefault id ∧
        (registry.answer request).2.slotOf? id = none := by
  cases hregisters : request.registers with
  | false => exact .inl ((grows_answer hwf hregisters).1.slotOf?_eq id number hid)
  | true =>
    unfold Reports
    rcases answer_of_registers registry hregisters with ⟨failure, -, heq⟩ | ⟨ids, language, heq⟩
    · rw [heq]
      exact .inl hid
    · rw [heq]
      refine (slotOf?_register hid ids language).imp_right fun hreport => ?_
      -- The answer carries the report of the registration.
      refine ⟨⟨hregisters, ?_⟩, hreport.2⟩
      show (registry.register ids language).1.mapError Failure.config = _
      rw [hreport.1]
      rfl

/-! ### The lexer of an identifier -/

/-- An identifier is registered, and the lexer of its slot is there. -/
structure HasLexer (registry : Registry) (id : String) (resolved : Resolved) : Prop where
  slotOf?_eq : registry.slotOf? id = some resolved.number
  lexer_eq : ∃ slot, registry.slots[resolved.number]? = some slot ∧
    slot.lexer = some resolved.lexer

/-- A registered identifier is looked up in its own slot. -/
theorem slotFor_of_slotOf? (hid : registry.slotOf? id = some number) (source : List Char) :
    registry.slotFor (some id) source = .ok number := by
  unfold slotFor
  rw [Option.bind_some, hid]

/-- Asking for a slot that has a lexer gives the lexer, and nothing
changes. -/
theorem resolve_of_lexer {language : Option String} {source : List Char} {slot : Slot}
    {lexer : Lexer} (hfor : registry.slotFor language source = .ok number)
    (hslot : registry.slots[number]? = some slot) (hlexer : slot.lexer = some lexer) :
    registry.resolve language source = (.ok ⟨number, lexer⟩, registry) := by
  -- Nothing is compiled, so the registry is the one that was asked.
  have hfound : registry.lexerOf number = .ok (lexer, registry) := by
    unfold lexerOf
    simp only [hslot, hlexer]
    rfl
  unfold resolve
  simp only [hfor, hfound]

/-- An identifier with a lexer is resolved to it, and nothing changes. -/
theorem resolve_of_hasLexer (h : registry.HasLexer id resolved) (source : List Char) :
    registry.resolve (some id) source = (.ok resolved, registry) := by
  obtain ⟨hid, slot, hslot, hlexer⟩ := h
  exact resolve_of_lexer (slotFor_of_slotOf? hid source) hslot hlexer

/-- Resolving an identifier gives it a lexer. -/
theorem hasLexer_of_resolve {source : List Char} (hid : registry.isRegistered id = true)
    (h : registry.resolve (some id) source = (.ok resolved, after)) :
    after.HasLexer id resolved := by
  obtain ⟨number, hnumber⟩ := Option.isSome_iff_exists.mp hid
  obtain ⟨hfor, hslot⟩ := exists_slot_of_resolve h
  have hgrows := growsTo_resolve registry (some id) source
  rw [h] at hgrows
  rw [slotFor_of_slotOf? hnumber source] at hfor
  cases hfor
  exact ⟨hgrows.slotOf?_eq id resolved.number hnumber, hslot⟩

/-- What a lexer stays with, as slots stay. -/
theorem HasLexer.mono (h : registry.HasLexer id resolved)
    (hid : after.slotOf? id = some resolved.number)
    (hbecomes : ∀ slot, registry.slots[resolved.number]? = some slot →
      ∃ later, after.slots[resolved.number]? = some later ∧ slot.Becomes later) :
    after.HasLexer id resolved := by
  obtain ⟨-, slot, hslot, hlexer⟩ := h
  obtain ⟨later, hlater, hstays⟩ := hbecomes slot hslot
  exact ⟨hid, later, hlater, hstays.lexer_eq _ hlexer⟩

/-- One request leaves an identifier its lexer, if it does not report
it. -/
theorem HasLexer.answer (hwf : registry.WellFormed) (h : registry.HasLexer id resolved)
    {request : Request} (hquiet : ¬registry.Reports request id) :
    (registry.answer request).2.HasLexer id resolved := by
  refine h.mono ?_ ((keepsDefaults_answer hwf request).becomes resolved.number)
  exact (slotOf?_answer hwf h.slotOf?_eq request).resolve_right fun hreport => hquiet hreport.1

/-- Along a run in which an identifier is never reported, it keeps its
lexer. -/
theorem RunsTo.hasLexer
    (h : RunsTo (fun registry request => ¬registry.Reports request id) start registry)
    (hwf : start.WellFormed) (hstart : start.HasLexer id resolved) :
    registry.HasLexer id resolved := by
  induction h with
  | refl => exact hstart
  | step hrun hquiet ih => exact ih.answer (hrun.wellFormed hwf) hquiet

/-! ### Identifiers that share a slot -/

/-- Two identifiers are both still registered after a request. -/
def BothStay (first second : String) (registry : Registry) (request : Request) : Prop :=
  (registry.answer request).2.isRegistered first = true ∧
    (registry.answer request).2.isRegistered second = true

/-- A registered identifier that stays registered keeps its slot. -/
theorem slotOf?_answer_of_isRegistered (hwf : registry.WellFormed)
    (hid : registry.slotOf? id = some number) {request : Request}
    (hstays : (registry.answer request).2.isRegistered id = true) :
    (registry.answer request).2.slotOf? id = some number := by
  refine (slotOf?_answer hwf hid request).resolve_right fun hreport => ?_
  unfold isRegistered at hstays
  rw [hreport.2.2] at hstays
  cases hstays

/-- Along a run in which two identifiers stay registered, they keep the
slot that they share. -/
theorem RunsTo.sameSlot {first second : String}
    (h : RunsTo (BothStay first second) start registry) (hwf : start.WellFormed)
    (hfirst : start.slotOf? first = some number) (hsecond : start.slotOf? second = some number) :
    registry.slotOf? first = some number ∧ registry.slotOf? second = some number := by
  induction h with
  | refl => exact ⟨hfirst, hsecond⟩
  | step hrun hstay ih =>
    have hbefore := hrun.wellFormed hwf
    exact ⟨slotOf?_answer_of_isRegistered hbefore ih.1 hstay.1,
      slotOf?_answer_of_isRegistered hbefore ih.2 hstay.2⟩

/-- Identifiers with one slot are resolved alike. -/
theorem resolve_eq_of_slotOf? {first second : String} (hfirst : registry.slotOf? first = some number)
    (hsecond : registry.slotOf? second = some number) (source source' : List Char) :
    registry.resolve (some first) source = registry.resolve (some second) source' := by
  unfold resolve
  rw [slotFor_of_slotOf? hfirst, slotFor_of_slotOf? hsecond]

/-- The identifiers of one registration have one slot. -/
theorem slotOf?_of_register {ids : List String} {language : Language}
    (h : registry.register ids language = (.ok (), after)) (hid : id ∈ ids) :
    after.slotOf? id = some registry.slots.size := by
  rcases register_cases registry ids language with
    ⟨-, heq⟩ | ⟨taken, ⟨-, heq⟩ | ⟨-, heq⟩⟩
  · rw [heq] at h
    cases h
    rw [slotOf?_add, if_pos hid]
  · rw [heq] at h
    cases h
  · rw [heq] at h
    cases h

/-! ### All runs from a registry -/

/-- What holds of the lexers of a registry along all runs from it. -/
structure KeepsLexers (registry : Registry) : Prop where
  /-- Once a registered identifier has been resolved, it is resolved to
  the same lexer again, and nothing changes, as long as no registration
  that reports it comes between. -/
  stable : ∀ ⦃id resolved source after later⦄, registry.isRegistered id = true →
    registry.resolve (some id) source = (.ok resolved, after) →
    RunsTo (fun registry request => ¬registry.Reports request id) after later →
    ∀ source, later.resolve (some id) source = (.ok resolved, later)
  /-- The identifiers of one registration are resolved alike as long as
  both stay registered. -/
  shared : ∀ ⦃ids language after first second later⦄,
    registry.register ids language = (.ok (), after) → first ∈ ids → second ∈ ids →
    RunsTo (BothStay first second) after later →
    ∀ source source', later.resolve (some first) source = later.resolve (some second) source'
  /-- This is so, too, if the second one is resolved later than the
  first one. -/
  sharedLater : ∀ ⦃ids language after first second between source resolved ready later⦄,
    registry.register ids language = (.ok (), after) → first ∈ ids → second ∈ ids →
    RunsTo (BothStay first second) after between →
    between.resolve (some first) source = (.ok resolved, ready) →
    RunsTo (BothStay first second) ready later →
    ∀ source, later.resolve (some second) source = (.ok resolved, later)
  /-- A request that is no registration takes no identifier away, and no
  identifier from its slot. -/
  kept : ∀ ⦃request : Request⦄, request.registers = false → ∀ id number,
    registry.slotOf? id = some number → (registry.answer request).2.slotOf? id = some number

/-- A lexer that one identifier of a slot has been resolved to is that
of another one later, too. -/
theorem hasLexer_of_resolve_shared {first second : String} {source : List Char}
    (hwf : registry.WellFormed) (hfirst : registry.slotOf? first = some number)
    (hsecond : registry.slotOf? second = some number)
    (h : registry.resolve (some first) source = (.ok resolved, after)) {later : Registry}
    (hrun : RunsTo (BothStay first second) after later) : later.HasLexer second resolved := by
  have hregistered : registry.isRegistered first = true := Option.isSome_of_eq_some hfirst
  have hfound := hasLexer_of_resolve hregistered h
  have hgrows := growsTo_resolve registry (some first) source
  have hwf' := hwf.resolve (some first) source
  rw [h] at hgrows hwf'
  -- The slot of the second identifier is the one that was compiled.
  have hslot := hgrows.slotOf?_eq first number hfirst
  rw [hfound.slotOf?_eq] at hslot
  cases hslot
  have hboth := hrun.sameSlot hwf' hfound.slotOf?_eq (hgrows.slotOf?_eq second _ hsecond)
  obtain ⟨slot, hslot, hlexer⟩ := hfound.lexer_eq
  obtain ⟨now, hnow, hbecomes⟩ := hrun.becomes hwf' hslot
  exact ⟨hboth.2, now, hnow, hbecomes.lexer_eq _ hlexer⟩

theorem keepsLexers (hwf : registry.WellFormed) : registry.KeepsLexers where
  stable id resolved source after later hid h hrun source' := by
    have hwf' := hwf.resolve (some id) source
    rw [h] at hwf'
    exact resolve_of_hasLexer (hrun.hasLexer hwf' (hasLexer_of_resolve hid h)) source'
  shared ids language after first second later h hfirst hsecond hrun source source' := by
    have hwf' := hwf.register ids language
    rw [h] at hwf'
    have hboth := hrun.sameSlot hwf' (slotOf?_of_register h hfirst)
      (slotOf?_of_register h hsecond)
    exact resolve_eq_of_slotOf? hboth.1 hboth.2 source source'
  sharedLater ids language after first second between source resolved ready later h hfirst hsecond
      hrun hresolved hlater source' := by
    have hwf' := hwf.register ids language
    rw [h] at hwf'
    have hboth := hrun.sameSlot hwf' (slotOf?_of_register h hfirst)
      (slotOf?_of_register h hsecond)
    exact resolve_of_hasLexer (hasLexer_of_resolve_shared (hrun.wellFormed hwf') hboth.1 hboth.2
      hresolved hlater) source'
  kept request hregisters id number hid :=
    (grows_answer hwf hregisters).1.slotOf?_eq id number hid

end Registry

end Highlighter
