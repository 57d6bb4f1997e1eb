import Highlighter.GrammarFile
import Highlighter.Languages.Builtin
import Highlighter.Proofs.Embedding.Failures
import Highlighter.Proofs.Registry.Growth

/-!
# The requests that a registry answers

A registry is used through requests: registering a language or a file,
asking for a lexer, decorating, and warming up in any order.
`Registry.answer` gives the result of a request with the registry after
it, and a registry is reachable if a run of requests leads to it, of
which any may fail.

A request other than a registration lets the registry grow
(`growsTo_answer`). A registration adds a slot or frees an identifier,
but never a default one. So along every run the registry stays
well-formed (`Reachable.wellFormed`) and keeps its default grammars
where they were (`Reachable.keepsDefaults`). There is always a grammar
to fall back on then, and no request finds a language unknown
(`fallbacks_kept`).
-/

set_option autoImplicit false

namespace Highlighter

namespace Registry

variable {registry between after start : Registry} {id : String}

/-! ### Requests -/

/-- An order in which each round of warming up compiles its slots. -/
structure CompileOrder where
  arrange : List Nat → List Nat
  perm : ∀ numbers, (arrange numbers).Perm numbers

/-- The order in which slots are listed. -/
def CompileOrder.listed : CompileOrder := ⟨fun numbers => numbers, fun numbers => .refl numbers⟩

/-- Compile everything, each round in an order of its own. -/
def warmUpIn (order : CompileOrder) (registry : Registry) : Except GrammarError Unit × Registry :=
  warmUpWithin order.arrange (registry.count + 1) registry

theorem warmUpIn_listed (registry : Registry) : registry.warmUpIn .listed = registry.warmUp := rfl

/-- What a registry may be asked for. -/
inductive Request where
  | register (ids : List String) (language : Language)
  | registerFile (contents : Option ByteArray)
  | resolve (id : Option String) (source : List Char)
  | decorate (id : Option String) (source : List Char) (base : Nat)
  /-- A decoration with a lexer that is at hand, of whatever origin. -/
  | decorateWith (lexer : Lexer) (source : List Char) (base : Nat)
  | warmUp (order : CompileOrder)

/-- Whether a request succeeds, and the registry after it. -/
def answer (registry : Registry) : Request → Except Failure Unit × Registry
  | .register ids language =>
    let (result, after) := registry.register ids language
    (result.mapError .config, after)
  | .registerFile contents => registry.registerFile contents
  | .resolve id source =>
    let (result, after) := registry.resolve id source
    ((result.mapError .config).map fun _ => (), after)
  | .decorate id source base =>
    let (result, after) := registry.decorate id source base
    (result.map fun _ => (), after)
  | .decorateWith lexer source base =>
    let (result, after) := registry.decorateWith lexer source base
    (result.map fun _ => (), after)
  | .warmUp order =>
    let (result, after) := registry.warmUpIn order
    (result.mapError .config, after)

/-- Whether a request registers a language. -/
def Request.registers : Request → Bool
  | .register _ _ | .registerFile _ => true
  | _ => false

/-- The registries that runs of requests lead to. -/
inductive Reachable (start : Registry) : Registry → Prop
  | start : Reachable start start
  | step {registry : Registry} (request : Request) (h : Reachable start registry) :
    Reachable start (registry.answer request).2

/-- The registries that runs start from: with the default languages, or
with all that are built in. -/
def IsStart (registry : Registry) : Prop := registry = initial ∨ withBuiltins = .ok registry

/-! ### Registering a file -/

theorem RuleSpec.toRule_ne_unknown (spec : RuleSpec) (id : String) :
    spec.toRule ≠ .error (.unknownLanguage id) := by
  unfold RuleSpec.toRule
  split
  · intro h
    cases h
  · intro h
    cases h

theorem grammarOf_ne_unknown (shortcut fallback : List RuleSpec)
    (auxiliary : List (Named Grammar)) (id : String) :
    grammarOf shortcut fallback auxiliary ≠ .error (.unknownLanguage id) := by
  intro h
  obtain hshortcut | ⟨shortcuts, -, h⟩ := bind_eq_error h
  · obtain ⟨spec, -, hspec⟩ := mapM_eq_error hshortcut
    exact RuleSpec.toRule_ne_unknown spec id hspec
  obtain hfallback | ⟨fallbacks, -, h⟩ := bind_eq_error h
  · obtain ⟨spec, -, hspec⟩ := mapM_eq_error hfallback
    exact RuleSpec.toRule_ne_unknown spec id hspec
  · cases h

theorem AuxiliarySpec.toGrammar_ne_unknown (spec : AuxiliarySpec) (id : String) :
    spec.toGrammar ≠ .error (.unknownLanguage id) := by
  intro h
  obtain hgrammar | ⟨grammar, -, h⟩ := bind_eq_error h
  · exact grammarOf_ne_unknown _ _ _ id hgrammar
  · cases h

theorem GrammarFile.toGrammar_ne_unknown (file : GrammarFile) (id : String) :
    file.toGrammar ≠ .error (.unknownLanguage id) := by
  intro h
  obtain hown | ⟨own, -, h⟩ := bind_eq_error h
  · exact grammarOf_ne_unknown _ _ _ id hown
  obtain hauxiliary | ⟨auxiliary, -, h⟩ := bind_eq_error h
  · obtain ⟨spec, -, hspec⟩ := mapM_eq_error hauxiliary
    exact AuxiliarySpec.toGrammar_ne_unknown spec id hspec
  · cases h

theorem GrammarFile.parse_ne_unknown (contents id : String) :
    GrammarFile.parse contents ≠ .error (.unknownLanguage id) := by
  unfold GrammarFile.parse
  split
  · intro h
    cases h
  · split
    · intro h
      cases h
    · intro h
      cases h

theorem fileText_ne_unknown (contents : Option ByteArray) (id : String) :
    fileText contents ≠ .error (.config (.unknownLanguage id)) := by
  unfold fileText
  split
  · intro h
    cases h
  · split
    · intro h
      cases h
    · intro h
      cases h

/-- What a file says is to be registered. -/
def described (contents : Option ByteArray) : Except Failure (List String × Grammar) := do
  let file ← (GrammarFile.parse (← fileText contents)).mapError Failure.config
  let grammar ← file.toGrammar.mapError Failure.config
  return (file.ids, grammar)

theorem described_ne_unknown (contents : Option ByteArray) (id : String) :
    described contents ≠ .error (.config (.unknownLanguage id)) := by
  intro h
  obtain htext | ⟨text, -, h⟩ := bind_eq_error h
  · exact fileText_ne_unknown contents id htext
  obtain hfile | ⟨file, -, h⟩ := bind_eq_error h
  · obtain ⟨error, herror, heq⟩ := mapError_eq_error hfile
    cases heq
    exact GrammarFile.parse_ne_unknown text id herror
  obtain hgrammar | ⟨grammar, -, h⟩ := bind_eq_error h
  · obtain ⟨error, herror, heq⟩ := mapError_eq_error hgrammar
    cases heq
    exact GrammarFile.toGrammar_ne_unknown file id herror
  · cases h

/-- A file is registered as its grammar is, unless no grammar can be
had from it. That never means that a language is unknown. -/
theorem registerFile_cases (registry : Registry) (contents : Option ByteArray) :
    (∃ failure, (∀ id, failure ≠ .config (.unknownLanguage id)) ∧
        registry.registerFile contents = (.error failure, registry)) ∨
      ∃ ids grammar, registry.registerFile contents
        = registry.answer (.register ids (.described grammar)) := by
  cases hdescribed : described contents with
  | error failure =>
    refine .inl ⟨failure, fun id hunknown => ?_, ?_⟩
    · exact described_ne_unknown contents id (hunknown ▸ hdescribed)
    · unfold described at hdescribed
      unfold registerFile
      simp only [hdescribed]
  | ok found =>
    refine .inr ⟨found.1, found.2, ?_⟩
    unfold described at hdescribed
    unfold registerFile
    simp only [hdescribed]
    rfl

/-- A request that registers fails before it gets to a registration, or
it is answered as that registration is. -/
theorem answer_of_registers (registry : Registry) {request : Request}
    (h : request.registers = true) :
    (∃ failure, (∀ id, failure ≠ .config (.unknownLanguage id)) ∧
        registry.answer request = (.error failure, registry)) ∨
      ∃ ids language, registry.answer request = registry.answer (.register ids language) := by
  cases request with
  | register ids language => exact .inr ⟨ids, language, rfl⟩
  | registerFile contents =>
    rcases registerFile_cases registry contents with ⟨failure, hfailure, heq⟩ | ⟨ids, grammar, heq⟩
    · exact .inl ⟨failure, hfailure, heq⟩
    · exact .inr ⟨ids, .described grammar, heq⟩
  | _ => cases h

/-! ### What a request keeps -/

/-- Whatever each lexer keeps is kept along a decoration, however it
ends. -/
theorem Keeps.steady {P : Registry → Prop} (h : Keeps P) : Steady P fun _ => True where
  kept _ hregistry id source := h.resolve hregistry id source
  fault _ _ _ _ _ _ := trivial
  retries := trivial
  endless := trivial

/-- Whatever each lexer keeps is kept by all requests that register
nothing. -/
theorem Keeps.answer {P : Registry → Prop} (h : Keeps P) (hregistry : P registry)
    {request : Request} (hregisters : request.registers = false) :
    P (registry.answer request).2 := by
  cases request with
  | register ids language => cases hregisters
  | registerFile contents => cases hregisters
  | resolve id source => exact h.resolve hregistry id source
  | decorate id source base => exact (sound_decorate h.steady hregistry id source base).kept
  | decorateWith lexer source base =>
    exact (sound_decorateWith h.steady hregistry lexer source base).kept
  | warmUp order => exact h.warmUpWithin hregistry order.arrange (registry.count + 1)

/-- Growing, staying well-formed and keeping the default languages are
kept where lexers are asked for, and no language is unknown then. -/
theorem steady_growsTo (registry : Registry) :
    Steady (fun after => registry.GrowsTo after ∧ after.WellFormed ∧
        (registry.HasDefaults → after.HasDefaults))
      (fun failure => registry.HasDefaults → ∀ id, failure ≠ .config (.unknownLanguage id)) where
  kept := by
    rintro after ⟨hgrows, hwf, hdefaults⟩ id source
    have hnext := growsTo_resolve after id source
    exact ⟨hgrows.trans hnext, hwf.resolve id source, fun h => (hdefaults h).mono hnext⟩
  fault := by
    rintro after ⟨hgrows, hwf, hdefaults⟩ language source error herror hstart id heq
    cases heq
    exact resolve_ne_unknown hwf (hdefaults hstart) language source id herror
  retries := by
    intro _ id heq
    cases heq
  endless := by
    intro _ id heq
    cases heq

/-- A request that registers nothing lets the registry grow. -/
theorem grows_answer (hwf : registry.WellFormed) {request : Request}
    (h : request.registers = false) :
    registry.GrowsTo (registry.answer request).2 ∧ (registry.answer request).2.WellFormed :=
  ⟨(keeps_growsTo registry).answer (.refl registry) h, keeps_wellFormed.answer hwf h⟩

/-- Whether an identifier is one of a default grammar. -/
def IsDefault (id : String) : Prop := id = defaultCode ∨ id = defaultMarkup

/-- The default identifiers keep their slots, and all slots stay. -/
structure KeepsDefaults (registry after : Registry) : Prop where
  slotOf?_eq : ∀ id number, IsDefault id → registry.slotOf? id = some number →
    after.slotOf? id = some number
  becomes : ∀ (number : Nat) (slot : Slot), registry.slots[number]? = some slot →
    ∃ later, after.slots[number]? = some later ∧ slot.Becomes later

theorem GrowsTo.keepsDefaults (h : registry.GrowsTo after) : registry.KeepsDefaults after where
  slotOf?_eq id number _ hid := h.slotOf?_eq id number hid
  becomes := h.becomes

theorem KeepsDefaults.trans (h : registry.KeepsDefaults between)
    (h' : between.KeepsDefaults after) : registry.KeepsDefaults after where
  slotOf?_eq id number hdefault hid :=
    h'.slotOf?_eq id number hdefault (h.slotOf?_eq id number hdefault hid)
  becomes number slot hslot := by
    obtain ⟨middle, hmiddle, hbecomes⟩ := h.becomes number slot hslot
    obtain ⟨later, hlater, hbecomes'⟩ := h'.becomes number middle hmiddle
    exact ⟨later, hlater, hbecomes.trans hbecomes'⟩

theorem KeepsDefaults.hasDefaults (h : registry.KeepsDefaults after)
    (hdefaults : registry.HasDefaults) : after.HasDefaults where
  code := hdefaults.code.imp fun number => h.slotOf?_eq defaultCode number (.inl rfl)
  markup := hdefaults.markup.imp fun number => h.slotOf?_eq defaultMarkup number (.inr rfl)

/-- A refused registration may free an identifier, but no default
one. -/
theorem keepsDefaults_register (registry : Registry) (ids : List String) (language : Language) :
    registry.KeepsDefaults (registry.register ids language).2 := by
  rcases register_cases registry ids language with
    ⟨hfree, heq⟩ | ⟨taken, ⟨-, heq⟩ | ⟨hother, heq⟩⟩
  · rw [heq]
    exact (growsTo_add (duplicate?_eq_none_iff.mp hfree).2).keepsDefaults
  · rw [heq]
    exact (GrowsTo.refl registry).keepsDefaults
  · rw [heq]
    refine ⟨fun id number hdefault hid => ?_, fun number slot hslot => ⟨slot, hslot, .refl slot⟩⟩
    -- The identifier that is freed is not a default one.
    have hne : id ≠ taken := by
      rintro rfl
      exact hdefault.elim hother.1 hother.2
    rw [slotOf?_free, if_neg hne]
    exact hid

/-- No request takes the default grammars away. -/
theorem keepsDefaults_answer (hwf : registry.WellFormed) (request : Request) :
    registry.KeepsDefaults (registry.answer request).2 := by
  cases hregisters : request.registers with
  | false => exact (grows_answer hwf hregisters).1.keepsDefaults
  | true =>
    rcases answer_of_registers registry hregisters with ⟨failure, -, heq⟩ | ⟨ids, language, heq⟩
    · rw [heq]
      exact (GrowsTo.refl registry).keepsDefaults
    · rw [heq]
      exact keepsDefaults_register registry ids language

theorem WellFormed.answer (hwf : registry.WellFormed) (request : Request) :
    (registry.answer request).2.WellFormed := by
  cases hregisters : request.registers with
  | false => exact (grows_answer hwf hregisters).2
  | true =>
    rcases answer_of_registers registry hregisters with ⟨failure, -, heq⟩ | ⟨ids, language, heq⟩
    · rw [heq]
      exact hwf
    · rw [heq]
      exact hwf.register ids language

theorem register_ne_unknown (registry : Registry) (ids : List String) (language : Language)
    (id : String) : (registry.register ids language).1 ≠ .error (.unknownLanguage id) := by
  intro h
  rcases register_cases registry ids language with ⟨-, heq⟩ | ⟨taken, ⟨-, heq⟩ | ⟨-, heq⟩⟩
  · rw [heq] at h
    cases h
  · rw [heq] at h
    cases h
  · rw [heq] at h
    cases h

/-- Where the default grammars are registered, no request ends in an
unknown language. -/
theorem answer_ne_unknown (hwf : registry.WellFormed) (hdefaults : registry.HasDefaults)
    (request : Request) (id : String) :
    (registry.answer request).1 ≠ .error (.config (.unknownLanguage id)) := by
  -- Both ways to register languages, and both ways to decorate, end in
  -- the same errors.
  have hstart : registry.GrowsTo registry ∧ registry.WellFormed ∧
      (registry.HasDefaults → registry.HasDefaults) := ⟨.refl registry, hwf, fun h => h⟩
  have hregisters : request.registers = true →
      (registry.answer request).1 ≠ .error (.config (.unknownLanguage id)) := by
    intro hregisters h
    rcases answer_of_registers registry hregisters with
      ⟨failure, hfailure, heq⟩ | ⟨ids, language, heq⟩
    · rw [heq] at h
      cases h
      exact hfailure id rfl
    · rw [heq] at h
      obtain ⟨error, herror, heq⟩ := mapError_eq_error h
      cases heq
      exact register_ne_unknown registry ids language id herror
  intro h
  cases request with
  | register ids language => exact hregisters rfl h
  | registerFile contents => exact hregisters rfl h
  | resolve language source =>
    obtain ⟨error, herror, heq⟩ := mapError_eq_error (map_eq_error h)
    cases heq
    exact resolve_ne_unknown hwf hdefaults language source id herror
  | decorate language source base =>
    exact (sound_decorate (steady_growsTo registry) hstart language source base).allowed _
      (map_eq_error h) hdefaults id rfl
  | decorateWith lexer source base =>
    exact (sound_decorateWith (steady_growsTo registry) hstart lexer source base).allowed _
      (map_eq_error h) hdefaults id rfl
  | warmUp order =>
    obtain ⟨error, herror, heq⟩ := mapError_eq_error h
    cases heq
    exact warmUpWithin_ne_unknown hwf order.perm (registry.count + 1) id herror

theorem WellFormed.of_warmUpIn (hwf : registry.WellFormed) {order : CompileOrder}
    (h : registry.warmUpIn order = (.ok (), after)) : after.WellFormed := by
  have hkept := hwf.warmUpWithin order.arrange (registry.count + 1)
  rwa [show Registry.warmUpWithin order.arrange (registry.count + 1) registry = _ from h] at hkept

/-! ### Runs of requests -/

theorem Reachable.wellFormed (h : Reachable start registry) (hstart : start.WellFormed) :
    registry.WellFormed := by
  induction h with
  | start => exact hstart
  | step request _ ih => exact ih.answer request

/-- The default grammars stay where they were at the start. -/
theorem Reachable.keepsDefaults (h : Reachable start registry) (hstart : start.WellFormed) :
    start.KeepsDefaults registry := by
  induction h with
  | start => exact (GrowsTo.refl start).keepsDefaults
  | step request hreachable ih =>
    exact ih.trans (keepsDefaults_answer (hreachable.wellFormed hstart) request)

/-! ### Where runs start -/

theorem wellFormed_initial : initial.WellFormed := wellFormed_empty.foldl_add _

theorem hasDefaults_initial : initial.HasDefaults where
  code := ⟨0, rfl⟩
  markup := ⟨1, rfl⟩

/-- Registering languages one after the other is a run. -/
theorem Reachable.registerAll {list : List (Named Grammar)} (h : Reachable start registry)
    (hall : registry.registerAll list = (.ok (), after)) : Reachable start after := by
  induction list generalizing registry with
  | nil =>
    cases hall
    exact h
  | cons named rest ih =>
    rw [Registry.registerAll] at hall
    split at hall
    · cases hall
    · rename_i next heq
      refine ih ?_ hall
      have hstep : Reachable start (registry.register named.ids (.described named.grammar)).2 :=
        h.step (.register named.ids (.described named.grammar))
      rw [heq] at hstep
      exact hstep

/-- All built-in languages are registered by a run from the default
ones. -/
theorem IsStart.reachable (h : IsStart start) : Reachable initial start := by
  rcases h with rfl | h
  · exact .start
  · unfold withBuiltins at h
    split at h
    · rename_i registry hall
      cases h
      exact Reachable.start.registerAll hall
    · cases h

theorem IsStart.wellFormed (h : IsStart start) : start.WellFormed :=
  h.reachable.wellFormed wellFormed_initial

theorem IsStart.hasDefaults (h : IsStart start) : start.HasDefaults :=
  (h.reachable.keepsDefaults wellFormed_initial).hasDefaults hasDefaults_initial

/-- The fallbacks can never be lost: wherever a run of requests leads,
the default identifiers have the slots that they had, each slot is
compiled or has a grammar, and no request finds a language unknown. -/
theorem fallbacks_kept (hstart : IsStart start) (h : Reachable start registry) :
    (∀ id, IsDefault id → ∃ number slot later,
        start.slotOf? id = some number ∧ start.slots[number]? = some slot ∧
        registry.slotOf? id = some number ∧ registry.slots[number]? = some later ∧
        slot.Becomes later) ∧
      (∀ slot ∈ registry.slots, slot.lexer.isSome = true ∨ slot.grammar.isSome = true) ∧
      ∀ request id, (registry.answer request).1 ≠ .error (.config (.unknownLanguage id)) := by
  have hwf := hstart.wellFormed
  have hkept := h.keepsDefaults hwf
  refine ⟨fun id hdefault => ?_, (h.wellFormed hwf).ready, fun request id =>
    answer_ne_unknown (h.wellFormed hwf) (hkept.hasDefaults hstart.hasDefaults) request id⟩
  obtain ⟨number, hnumber⟩ : ∃ number, start.slotOf? id = some number := by
    rcases hdefault with rfl | rfl
    · exact hstart.hasDefaults.code
    · exact hstart.hasDefaults.markup
  have hslot := Array.getElem?_eq_getElem (hwf.lt_size id number hnumber)
  obtain ⟨later, hlater, hbecomes⟩ := hkept.becomes number _ hslot
  exact ⟨number, _, later, hnumber, hslot, hkept.slotOf?_eq id number hdefault hnumber, hlater,
    hbecomes⟩

/-- The default registry after two refused registrations, of which the
second one frees an identifier of the markup grammar. -/
def afterRefusals : Registry :=
  ((initial.answer (.register [defaultCode, defaultMarkup] (.described ⟨[], [], []⟩))).2.answer
    (.register ["html"] (.described ⟨[], [], []⟩))).2

theorem fallbacks_kept_afterRefusals :
    IsStart initial ∧ Reachable initial afterRefusals ∧ afterRefusals.slotOf? "html" = none ∧
      (∀ id, IsDefault id → ∃ number slot later,
        initial.slotOf? id = some number ∧ initial.slots[number]? = some slot ∧
        afterRefusals.slotOf? id = some number ∧ afterRefusals.slots[number]? = some later ∧
        slot.Becomes later) ∧
      (∀ slot ∈ afterRefusals.slots, slot.lexer.isSome = true ∨ slot.grammar.isSome = true) ∧
      ∀ request id, (afterRefusals.answer request).1 ≠ .error (.config (.unknownLanguage id)) := by
  have hstart : IsStart initial := .inl rfl
  have hreachable : Reachable initial afterRefusals := .step _ (.step _ .start)
  exact ⟨hstart, hreachable, rfl, fallbacks_kept hstart hreachable⟩

end Registry

end Highlighter
