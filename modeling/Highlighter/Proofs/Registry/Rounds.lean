import Highlighter.Proofs.Registry.Failing

/-!
# Rounds until nothing is pending

`warmUp` counts its rounds. Here they are a loop without any count: a
round compiles all that is pending, in whatever order (`Round`), and
rounds follow each other until nothing is pending or a grammar cannot be
compiled (`WarmsUp`).

* `Round.waiting_lt`: a round lowers the number of grammars that may
  still have to be compiled, so there are only so many rounds.
* `warmsUp_warmUpWithin`: with enough rounds, the count never shows.
* `CompilesTo.auxiliary_registered`: what a compiled grammar brings
  along is registered as long as nothing but compiling happens.
* `answer_of_pending_eq_nil`: where nothing is pending, requests that
  register nothing change nothing, and find all lexers.
* `warmUp_settles`: the four together, for every run of requests.
-/

set_option autoImplicit false

namespace Highlighter

namespace Registry

variable {registry after start : Registry} {result : Except GrammarError Unit × Registry}

/-! ### The loop -/

/-- All that is pending, in some order. A slot comes again if it has
another identifier. -/
def Covers (registry : Registry) (numbers : List Nat) : Prop :=
  ∀ number, number ∈ numbers ↔ number ∈ registry.pending

/-- Something is pending, and all of it is compiled. -/
structure Round (registry after : Registry) : Prop where
  pending_ne_nil : registry.pending ≠ []
  compileAll_eq : ∃ numbers, registry.Covers numbers ∧
    registry.compileAll numbers = (.ok (), after)

/-- How rounds may end that follow each other without any bound. -/
inductive WarmsUp : Registry → Except GrammarError Unit × Registry → Prop where
  | done {registry : Registry} (h : registry.pending = []) : WarmsUp registry (.ok (), registry)
  | failed {registry after : Registry} {numbers : List Nat} {error : GrammarError}
    (hcovers : registry.Covers numbers)
    (h : registry.compileAll numbers = (.error error, after)) :
    WarmsUp registry (.error error, after)
  | round {registry after : Registry} {result : Except GrammarError Unit × Registry}
    (hround : registry.Round after) (h : WarmsUp after result) : WarmsUp registry result

/-! ### The loop ends -/

/-- A round leaves less to compile. -/
theorem Round.waiting_lt (h : registry.Round after) : after.waiting < registry.waiting := by
  obtain ⟨hpending, numbers, hcovers, hcompiled⟩ := h
  cases numbers with
  | nil =>
    -- Nothing is compiled, so nothing would have been pending.
    refine absurd (List.eq_nil_iff_forall_not_mem.mpr fun number hmem => ?_) hpending
    exact nomatch (hcovers number).mpr hmem
  | cons number rest =>
    exact waiting_compileAll_lt hcompiled ((hcovers number).mp List.mem_cons_self)

/-- Rounds that follow each other lower what is waiting one by one. -/
theorem rounds_le_waiting {rounds : Nat → Registry} {count : Nat}
    (h : ∀ place < count, (rounds place).Round (rounds (place + 1))) :
    (rounds count).waiting + count ≤ (rounds 0).waiting := by
  induction count with
  | zero => exact Nat.le_refl _
  | succ count ih =>
    have hbefore := ih fun place hplace => h place (Nat.lt_succ_of_lt hplace)
    have hlast := (h count (Nat.lt_succ_self count)).waiting_lt
    omega

/-- Once there are enough rounds, their count does not show in how the
loop ends. -/
theorem warmsUp_warmUpWithin {order : List Nat → List Nat}
    (horder : ∀ numbers, (order numbers).Perm numbers) {rounds : Nat}
    (hrounds : registry.waiting < rounds) :
    WarmsUp registry (warmUpWithin order rounds registry) := by
  induction rounds generalizing registry with
  | zero => omega
  | succ rounds ih =>
    have hcovers : registry.Covers (order registry.pending) :=
      fun number => (horder registry.pending).mem_iff
    rw [warmUpWithin]
    split
    · rename_i hnone
      exact .done hnone
    · rename_i hsome
      split
      · rename_i hfailed
        exact .failed hcovers hfailed
      · rename_i next hcompiled
        have hround : registry.Round next := ⟨hsome, _, hcovers, hcompiled⟩
        have hless := hround.waiting_lt
        exact .round hround (ih (by omega))

/-! ### What the loop leaves -/

/-- Whatever each lexer keeps, the loop keeps, however it ends. -/
theorem Keeps.warmsUp {P : Registry → Prop} (hkeeps : Keeps P) (h : WarmsUp registry result)
    (hregistry : P registry) : P result.2 := by
  induction h with
  | done _ => exact hregistry
  | @failed registry after numbers error _ hfailed =>
    have hkept := hkeeps.compileAll hregistry numbers
    rwa [hfailed] at hkept
  | @round registry after result hround _ ih =>
    obtain ⟨-, numbers, -, hcompiled⟩ := hround
    have hkept := hkeeps.compileAll hregistry numbers
    rw [hcompiled] at hkept
    exact ih hkept

/-- The loop succeeds only where nothing is pending. -/
theorem WarmsUp.pending_eq_nil (h : WarmsUp registry result) (hok : result.1 = .ok ()) :
    result.2.pending = [] := by
  induction h with
  | done hnone => exact hnone
  | failed _ _ => cases hok
  | round _ _ ih => exact ih hok

/-- Where nothing is pending, the slot of an identifier has its
lexer. -/
theorem exists_lexer_of_pending_eq_nil (hwf : registry.WellFormed) (hnone : registry.pending = [])
    {id : String} {number : Nat} (hid : registry.slotOf? id = some number) :
    ∃ slot lexer, registry.slots[number]? = some slot ∧ slot.lexer = some lexer := by
  obtain ⟨slot, hslot⟩ : ∃ slot, registry.slots[number]? = some slot :=
    ⟨_, Array.getElem?_eq_getElem (hwf.lt_size id number hid)⟩
  cases hlexer : slot.lexer with
  | some lexer => exact ⟨slot, lexer, hslot, hlexer⟩
  | none =>
    have hmem := mem_pending.mpr ⟨mem_ids_of_slotOf? hid, slot, hslot, hlexer⟩
    rw [hnone] at hmem
    cases hmem

theorem GrowsTo.isRegistered (h : registry.GrowsTo after) {id : String}
    (hid : registry.isRegistered id = true) : after.isRegistered id = true := by
  obtain ⟨number, hnumber⟩ := Option.isSome_iff_exists.mp hid
  exact Option.isSome_of_eq_some (h.slotOf?_eq id number hnumber)

/-- Compiling lets a registry grow. -/
theorem Happens.growsTo {change : Change} (h : registry.Happens change after)
    (hcompilation : change.isCompilation = true) : registry.GrowsTo after := by
  cases h with
  | registered _ _ => cases hcompilation
  | freed _ => cases hcompilation
  | compiled hslot hnone hgrammar hlexer hfree => exact growsTo_compiled _ hslot hnone hfree

/-- What a grammar in a history of compilations brings along is
registered at its end. -/
theorem History.auxiliary_registered {changes : List Change} {number : Nat} {grammar : Grammar}
    (h : History start changes registry) (hall : ∀ change ∈ changes, change.isCompilation = true)
    (hmem : Change.compiled number grammar ∈ changes) {named : Named Grammar}
    (hnamed : named ∈ grammar.auxiliary) {id : String} (hid : id ∈ named.ids) :
    registry.isRegistered id = true := by
  induction h with
  | nil => cases hmem
  | @step changes change registry after _ hchange ih =>
    rcases List.mem_append.mp hmem with hearlier | hlast
    · have hbefore := ih (fun other hother => hall other (List.mem_append_left _ hother)) hearlier
      exact (hchange.growsTo (hall change List.mem_concat_self)).isRegistered hbefore
    · cases List.mem_singleton.mp hlast
      exact (hchange.auxiliary_registered hnamed hid).2

/-- What the grammar of a slot that has been compiled in between brings
along is registered. -/
theorem CompilesTo.auxiliary_registered (h : start.CompilesTo registry) {number : Nat}
    {grammar : Grammar} (hbefore : start.isCompiled number = false)
    (hafter : registry.isCompiled number = true)
    (hgrammar : registry.slots[number]?.bind Slot.grammar = some grammar) {named : Named Grammar}
    (hnamed : named ∈ grammar.auxiliary) {id : String} (hid : id ∈ named.ids) :
    registry.isRegistered id = true := by
  obtain ⟨changes, hhistory, hall⟩ := h
  have haccounts := hhistory.accounts
  -- The slot is not compiled at the start and is at the end, so there is a change that compiles it.
  have honce := haccounts.once number
  rw [hbefore, hafter] at honce
  have hpos : 0 < changes.countP (Change.compiles number) := by
    simp only [Bool.toNat_false, Bool.toNat_true] at honce
    omega
  obtain ⟨change, hmem, hcompiles⟩ := List.countP_pos_iff.mp hpos
  cases change with
  | registered _ _ => cases hcompiles
  | freed _ => cases hcompiles
  | compiled other compiled =>
    cases beq_iff_eq.mp hcompiles
    have heq := haccounts.grammar_eq number compiled hmem
    rw [hgrammar] at heq
    cases heq
    exact hhistory.auxiliary_registered hall hmem hnamed hid

/-! ### Requests from then on -/

/-- Where nothing is pending, there is a lexer for every source. -/
theorem exists_resolve_of_pending_eq_nil (hwf : registry.WellFormed)
    (hdefaults : registry.HasDefaults) (hnone : registry.pending = []) (id : Option String)
    (source : List Char) :
    ∃ resolved, registry.resolve id source = (.ok resolved, registry) := by
  obtain ⟨known, number, hknown, hfor⟩ := hdefaults.slotFor id source
  obtain ⟨slot, lexer, hslot, hlexer⟩ := exists_lexer_of_pending_eq_nil hwf hnone hknown
  exact ⟨_, resolve_of_lexer hfor hslot hlexer⟩

/-- A registry in which every lexer is found stays as it is along a
decoration, which does not fail for a grammar. -/
theorem steady_eq (h : ∀ id source, ∃ resolved, registry.resolve id source = (.ok resolved, registry)) :
    Steady (· = registry) fun failure => ∀ error, failure ≠ .config error where
  kept := by
    rintro _ rfl id source
    obtain ⟨resolved, hresolve⟩ := h id source
    rw [hresolve]
  fault := by
    rintro _ rfl id source error hfault
    obtain ⟨resolved, hresolve⟩ := h id source
    rw [hresolve] at hfault
    cases hfault
  retries _ heq := by cases heq
  endless _ heq := by cases heq

/-- A request leaves the registry as it is, and its error is not that of
a grammar. -/
def Quiet (registry : Registry) (request : Request) : Prop :=
  (registry.answer request).2 = registry ∧
    ∀ error, (registry.answer request).1 ≠ .error (.config error)

/-- Where nothing is pending, requests that register nothing change
nothing, and no grammar makes them fail. -/
theorem answer_of_pending_eq_nil (hwf : registry.WellFormed) (hdefaults : registry.HasDefaults)
    (hnone : registry.pending = []) {request : Request} (h : request.registers = false) :
    registry.Quiet request := by
  have hfound := exists_resolve_of_pending_eq_nil hwf hdefaults hnone
  unfold Quiet
  cases request with
  | register _ _ => cases h
  | registerFile _ => cases h
  | resolve id source =>
    obtain ⟨resolved, hresolve⟩ := hfound id source
    have hanswer : registry.answer (.resolve id source) = (.ok (), registry) := by
      simp only [answer, hresolve]
      rfl
    rw [hanswer]
    exact ⟨rfl, fun _ heq => nomatch heq⟩
  | decorate id source base =>
    have hsound := sound_decorate (steady_eq hfound) rfl id source base
    exact ⟨hsound.kept, fun error heq => hsound.allowed _ (map_eq_error heq) error rfl⟩
  | decorateWith lexer source base =>
    have hsound := sound_decorateWith (steady_eq hfound) rfl lexer source base
    exact ⟨hsound.kept, fun error heq => hsound.allowed _ (map_eq_error heq) error rfl⟩
  | warmUp order =>
    have hwarm : registry.warmUpIn order = (.ok (), registry) := by
      unfold warmUpIn
      rw [warmUpWithin]
      simp only [hnone]
    have hanswer : registry.answer (.warmUp order) = (.ok (), registry) := by
      simp only [answer, hwarm]
      rfl
    rw [hanswer]
    exact ⟨rfl, fun _ heq => nomatch heq⟩

/-- A run of requests that keep the registry stays where it started. -/
theorem RunsTo.eq_of_quiet {Allowed : Registry → Request → Prop}
    (h : RunsTo Allowed start registry)
    (hquiet : ∀ request, Allowed start request → start.Quiet request) : registry = start := by
  induction h with
  | refl => rfl
  | step _ hallowed ih =>
    subst ih
    exact (hquiet _ hallowed).1

/-! ### Warming up -/

/-- What is left when warming up has succeeded. -/
structure Settles (registry after : Registry) : Prop where
  pending_eq_nil : after.pending = []
  /-- Every registered slot has its lexer. -/
  compiled : ∀ id number, after.slotOf? id = some number →
    ∃ slot lexer, after.slots[number]? = some slot ∧ slot.lexer = some lexer
  /-- What the grammars that have been compiled bring along is
  registered. -/
  brought : ∀ number grammar, registry.isCompiled number = false →
    after.isCompiled number = true → after.slots[number]?.bind Slot.grammar = some grammar →
    ∀ named ∈ grammar.auxiliary, ∀ id ∈ named.ids, after.isRegistered id = true
  /-- Until something is registered, no request changes the registry,
  and no grammar makes one fail. -/
  lasting : ∀ later, RunsTo (fun _ request => request.registers = false) after later →
    later = after ∧ ∀ request, request.registers = false → later.Quiet request

theorem WarmsUp.settles (hwf : registry.WellFormed) (hdefaults : registry.HasDefaults)
    (h : WarmsUp registry (.ok (), after)) : registry.Settles after := by
  have hnone : after.pending = [] := h.pending_eq_nil rfl
  have hwf' : after.WellFormed := keeps_wellFormed.warmsUp h hwf
  have hgrows : registry.GrowsTo after := (keeps_growsTo registry).warmsUp h (.refl registry)
  have hcompiles : registry.CompilesTo after :=
    (keeps_compilesTo registry).warmsUp h (.refl registry)
  have hquiet : ∀ request, request.registers = false → after.Quiet request :=
    fun request => answer_of_pending_eq_nil hwf' (hdefaults.mono hgrows) hnone
  refine ⟨hnone, fun id number => exists_lexer_of_pending_eq_nil hwf' hnone, ?_, fun later hrun => ?_⟩
  · intro number grammar hbefore hafter hgrammar named hnamed id hid
    exact hcompiles.auxiliary_registered hbefore hafter hgrammar hnamed hid
  · cases hrun.eq_of_quiet hquiet
    exact ⟨rfl, hquiet⟩

/-- The small registry of words in angle brackets is warmed up in two
rounds, of which the first one brings the second one about. -/
theorem settles_tagged :
    Tagged.registry.isRegistered "word" = false ∧
      ∃ after, Tagged.registry.warmUp = (.ok (), after) ∧ Tagged.registry.Settles after ∧
        after.isRegistered "word" = true := by
  have hwf : Tagged.registry.WellFormed := (wellFormed_empty.add _ _).add _ _
  have hdefaults : Tagged.registry.HasDefaults := ⟨⟨0, rfl⟩, ⟨1, rfl⟩⟩
  have hcompiled : Tagged.registry.warmUp.1.isOk = true := by decide +kernel
  have hword : Tagged.registry.warmUp.2.isRegistered "word" = true := by decide +kernel
  have hends := warmsUp_warmUpWithin (fun numbers => .refl (id numbers))
    (waiting_lt_count Tagged.registry)
  rw [show warmUpWithin id (Tagged.registry.count + 1) Tagged.registry = Tagged.registry.warmUp
    from rfl] at hends
  refine ⟨by decide +kernel, Tagged.registry.warmUp.2, ?_⟩
  generalize Tagged.registry.warmUp = result at hcompiled hword hends
  obtain ⟨outcome, after⟩ := result
  cases outcome with
  | ok value => exact ⟨rfl, hends.settles hwf hdefaults, hword⟩
  | error error => cases hcompiled

/-- Wherever a run of requests leads, warming up ends. There are no more
rounds than grammars, whatever their order, and the loop ends as
`warmUpIn` does. If it succeeds, in whatever way, nothing is left to
compile, what was brought along is registered, and all lexers are found
from then on, until something is registered. -/
theorem warmUp_settles (hstart : IsStart start) (h : Reachable start registry) :
    (∀ (rounds : Nat → Registry) (count : Nat), rounds 0 = registry →
        (∀ place < count, (rounds place).Round (rounds (place + 1))) → count ≤ registry.count) ∧
      (∀ order, WarmsUp registry (registry.warmUpIn order)) ∧
      ∀ after, WarmsUp registry (.ok (), after) → registry.Settles after := by
  refine ⟨fun rounds count hfirst hrounds => ?_, fun order => ?_, fun after hwarm => ?_⟩
  · have hle := rounds_le_waiting hrounds
    have hlt := waiting_lt_count registry
    rw [hfirst] at hle
    omega
  · exact warmsUp_warmUpWithin order.perm (waiting_lt_count registry)
  · exact hwarm.settles (h.wellFormed hstart.wellFormed)
      ((h.keepsDefaults hstart.wellFormed).hasDefaults hstart.hasDefaults)

/-- A language that brings another one along, which brings along a
third one. -/
def nested : Registry := hosting [⟨["middle"], host [⟨["word"], Tagged.words⟩]⟩]

theorem warmUp_settles_nested :
    IsStart initial ∧ Reachable initial nested ∧ nested.isRegistered "word" = false ∧
      (∀ order, WarmsUp nested (nested.warmUpIn order)) ∧
      ∀ after, WarmsUp nested (.ok (), after) → nested.Settles after := by
  have hstart : IsStart initial := .inl rfl
  have hreachable : Reachable initial nested := .step _ .start
  exact ⟨hstart, hreachable, by decide +kernel, (warmUp_settles hstart hreachable).2⟩

end Registry

end Highlighter
