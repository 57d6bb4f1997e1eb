import Highlighter.Proofs.Registry.Requests
import Highlighter.Proofs.Registry.View
import Mathlib.Data.List.Nodup

/-!
# The order of compilation does not matter

Two slots that can be compiled one after the other can be compiled the
other way round, and the same is seen afterwards (`Compiles.swap`): the
second one was refused nothing that the first one brought along, so
what they bring along is disjoint. So a list of slots can be compiled
in any order (`CompilesAll.perm`), and warming up gives the same view
in every order, round by round (`view_warmUpWithin`).

`warmUpIn_confluent` says this in terms of a registry: whatever the
orders, both runs succeed or both fail, and they end with the same
identifiers, bound to the same slots and sharing them in the same way,
with nothing left to compile.
-/

set_option autoImplicit false

namespace Highlighter

namespace Registry.View

variable {view after between : View} {id other : String} {ids others : List String}
  {auxiliary : List (Named Grammar)}

/-! ### New slots come in any order -/

theorem add_add_comm (h : ∀ id ∈ ids, id ∉ others) (language language' : Language) :
    (view.add ids language).add others language'
      = (view.add others language').add ids language := by
  refine View.ext (funext fun id => ?_) (funext fun first => funext fun second => ?_)
  · simp only [slot?_add]
    by_cases hid : id ∈ ids
    · rw [if_neg (h id hid), if_pos hid, if_pos hid]
    · rw [if_neg hid, if_neg hid]
  · simp only [shares_add]
    by_cases hfirst : first ∈ ids
    · rw [if_neg (h first hfirst), if_pos hfirst, if_pos hfirst]
      by_cases hsecond : second ∈ ids
      · simp [hsecond, h second hsecond]
      · simp [hsecond]
    · rw [if_neg hfirst, if_neg hfirst]
      by_cases hfirst' : first ∈ others
      · rw [if_pos hfirst', if_pos hfirst']
        by_cases hsecond : second ∈ ids
        · simp [hsecond, h second hsecond]
        · simp [hsecond]
      · rw [if_neg hfirst', if_neg hfirst', Bool.and_left_comm]

/-- None of the identifiers is one of those that grammars bring
along. -/
def Apart (ids : List String) (auxiliary : List (Named Grammar)) : Prop :=
  ∀ named ∈ auxiliary, ∀ id ∈ named.ids, id ∉ ids

theorem add_addAll_comm (h : Apart ids auxiliary) (language : Language) :
    (view.add ids language).addAll auxiliary = (view.addAll auxiliary).add ids language := by
  induction auxiliary generalizing view with
  | nil => rfl
  | cons named rest ih =>
    obtain ⟨hnamed, hrest⟩ := List.forall_mem_cons.mp h
    show ((view.add ids language).add named.ids _).addAll rest
      = ((view.add named.ids _).addAll rest).add ids language
    rw [add_add_comm fun id hid hmem => hnamed id hmem hid, ih hrest]

theorem addAll_addAll_comm {first second : List (Named Grammar)}
    (h : ∀ named ∈ first, Apart named.ids second) :
    (view.addAll first).addAll second = (view.addAll second).addAll first := by
  induction first generalizing view with
  | nil => rfl
  | cons named rest ih =>
    obtain ⟨hnamed, hrest⟩ := List.forall_mem_cons.mp h
    show ((view.add named.ids _).addAll rest).addAll second
      = ((view.addAll second).add named.ids _).addAll rest
    rw [ih hrest, add_addAll_comm hnamed]

/-! ### Compiling comes before or after new slots -/

theorem setLexer_add (h : id ∉ ids) (language : Language) (lexer : Lexer) :
    (view.add ids language).setLexer id lexer = (view.setLexer id lexer).add ids language := by
  refine View.ext (funext fun other => ?_) rfl
  by_cases hother : other ∈ ids
  · simp [h, hother]
  · simp [h, hother]

theorem setLexer_addAll (h : ∀ named ∈ auxiliary, id ∉ named.ids) (lexer : Lexer) :
    (view.addAll auxiliary).setLexer id lexer = (view.setLexer id lexer).addAll auxiliary := by
  induction auxiliary generalizing view with
  | nil => rfl
  | cons named rest ih =>
    obtain ⟨hnamed, hrest⟩ := List.forall_mem_cons.mp h
    show ((view.add named.ids _).addAll rest).setLexer id lexer
      = ((view.setLexer id lexer).add named.ids _).addAll rest
    rw [ih hrest, setLexer_add hnamed]

/-- Slots that are not shared are compiled in any order. -/
theorem setLexer_comm (h : ∀ third, view.shares id third = true → view.shares other third = false)
    (lexer lexer' : Lexer) :
    (view.setLexer id lexer).setLexer other lexer'
      = (view.setLexer other lexer').setLexer id lexer := by
  refine View.ext (funext fun third => ?_) rfl
  by_cases hthird : view.shares id third = true
  · simp [hthird, h third hthird]
  · simp [hthird]

/-! ### What stays when grammars bring others along -/

theorem slot?_addAll_eq_none_iff :
    (view.addAll auxiliary).slot? id = none
      ↔ view.slot? id = none ∧ ∀ named ∈ auxiliary, id ∉ named.ids := by
  induction auxiliary generalizing view with
  | nil => simp [addAll]
  | cons named rest ih =>
    show ((view.add named.ids _).addAll rest).slot? id = none ↔ _
    rw [ih, List.forall_mem_cons, slot?_add]
    by_cases hid : id ∈ named.ids
    · simp [hid]
    · simp [hid]

theorem slot?_addAll (h : ∀ named ∈ auxiliary, id ∉ named.ids) :
    (view.addAll auxiliary).slot? id = view.slot? id := by
  induction auxiliary generalizing view with
  | nil => rfl
  | cons named rest ih =>
    obtain ⟨hnamed, hrest⟩ := List.forall_mem_cons.mp h
    show ((view.add named.ids _).addAll rest).slot? id = _
    rw [ih hrest, slot?_add, if_neg hnamed]

theorem shares_addAll (h : ∀ named ∈ auxiliary, id ∉ named.ids)
    (hother : ∀ named ∈ auxiliary, other ∉ named.ids) :
    (view.addAll auxiliary).shares id other = view.shares id other := by
  induction auxiliary generalizing view with
  | nil => rfl
  | cons named rest ih =>
    obtain ⟨hnamed, hrest⟩ := List.forall_mem_cons.mp h
    obtain ⟨hnamed', hrest'⟩ := List.forall_mem_cons.mp hother
    show ((view.add named.ids _).addAll rest).shares id other = _
    rw [ih hrest hrest']
    simp [hnamed, hnamed']

theorem shares_of_addAll (h : ∀ named ∈ auxiliary, id ∉ named.ids)
    (hshares : (view.addAll auxiliary).shares id other = true) : view.shares id other = true := by
  induction auxiliary generalizing view with
  | nil => exact hshares
  | cons named rest ih =>
    obtain ⟨hnamed, hrest⟩ := List.forall_mem_cons.mp h
    have hshares := ih hrest hshares
    rw [shares_add, if_neg hnamed, Bool.and_eq_true] at hshares
    exact hshares.2

/-- An identifier that is registered is not among free ones. -/
theorem AreFree.not_mem (h : view.AreFree auxiliary) {slot : Slot}
    (hslot : view.slot? id = some slot) : ∀ named ∈ auxiliary, id ∉ named.ids := by
  intro named hnamed hmem
  rw [(h named hnamed).2 id hmem] at hslot
  cases hslot

theorem areFree_addAll_iff {first second : List (Named Grammar)} :
    (view.addAll first).AreFree second
      ↔ view.AreFree second ∧ ∀ named ∈ first, Apart named.ids second := by
  unfold AreFree Apart
  simp only [slot?_addAll_eq_none_iff]
  constructor
  · intro h
    refine ⟨fun named hnamed => ⟨(h named hnamed).1, fun id hid => ((h named hnamed).2 id hid).1⟩,
      fun named hnamed other hother id hid => ((h other hother).2 id hid).2 named hnamed⟩
  · intro ⟨hfree, hapart⟩ named hnamed
    exact ⟨(hfree named hnamed).1, fun id hid =>
      ⟨(hfree named hnamed).2 id hid, fun other hother => hapart other hother named hnamed id hid⟩⟩

theorem areFree_setLexer_iff {lexer : Lexer} :
    (view.setLexer id lexer).AreFree auxiliary ↔ view.AreFree auxiliary := by
  have hnone : ∀ other, (view.setLexer id lexer).slot? other = none ↔ view.slot? other = none := by
    intro other
    rw [slot?_setLexer]
    split
    · exact Option.map_eq_none_iff
    · exact Iff.rfl
  unfold AreFree
  simp only [hnone]

/-! ### Two slots, one after the other -/

/-- The slot of a registered identifier after another one, or itself,
has been compiled. -/
theorem slot?_compiled (hfree : view.AreFree auxiliary) {slot slot' : Slot}
    (hid : view.slot? id = some slot) (hother : view.slot? other = some slot') (lexer : Lexer) :
    ((view.addAll auxiliary).setLexer id lexer).slot? other
      = some (if view.shares id other then { slot' with lexer } else slot') := by
  rw [slot?_setLexer, shares_addAll (hfree.not_mem hid) (hfree.not_mem hother),
    slot?_addAll (hfree.not_mem hother), hother]
  split
  · rfl
  · rfl

/-- Registered identifiers stay so. -/
theorem Compiles.isSome (h : view.Compiles id after) (hother : (view.slot? other).isSome = true) :
    (after.slot? other).isSome = true := by
  obtain ⟨slot', hslot'⟩ := Option.isSome_iff_exists.mp hother
  cases h with
  | known hslot hlexer => exact hother
  | fresh hslot hnone hgrammar hlexer hfree =>
    rw [slot?_compiled hfree hslot hslot']
    rfl

/-- A lexer that is known stays so. -/
theorem Compiles.slot?_eq (hcoherent : view.Coherent) (h : view.Compiles id after) {slot : Slot}
    {lexer : Lexer} (hother : view.slot? other = some slot) (hlexer : slot.lexer = some lexer) :
    after.slot? other = some slot := by
  cases h with
  | known hslot hlexer => exact hother
  | fresh hslot hnone hgrammar hlexer' hfree =>
    rw [slot?_compiled hfree hslot hother]
    split
    · -- It would be the slot that had no lexer.
      rename_i hshares
      rw [← hcoherent.slot?_eq id other hshares, hslot] at hother
      cases hother
      rw [hlexer] at hnone
      cases hnone
    · rfl

theorem Coherent.shares_eq (hcoherent : view.Coherent) (h : view.shares id other = true)
    (third : String) : view.shares id third = view.shares other third := by
  rw [Bool.eq_iff_iff]
  exact ⟨hcoherent.trans other id third (hcoherent.symm id other h),
    hcoherent.trans id other third h⟩

/-- What an identifier shares its slot with stays the same when
grammars are brought along. -/
theorem Coherent.shares_addAll (hcoherent : view.Coherent) (hfree : view.AreFree auxiliary)
    {slot : Slot} (hid : view.slot? id = some slot) (third : String) :
    (view.addAll auxiliary).shares id third = view.shares id third := by
  -- New slots are shared among new identifiers only, and both of these are old.
  by_cases hshares : view.shares id third = true
  · have hthird := (hcoherent.slot?_eq id third hshares).symm.trans hid
    exact View.shares_addAll (hfree.not_mem hid) (hfree.not_mem hthird)
  · rw [Bool.not_eq_true] at hshares
    rw [hshares, Bool.eq_false_iff]
    intro h
    rw [shares_of_addAll (hfree.not_mem hid) h] at hshares
    cases hshares

/-- Compiling a slot is the same under each identifier that it has. -/
theorem Compiles.of_shares (hcoherent : view.Coherent) (hshares : view.shares id other = true)
    (h : view.Compiles id after) : view.Compiles other after := by
  have hslots := hcoherent.slot?_eq id other hshares
  cases h with
  | known hslot hlexer => exact .known (hslots ▸ hslot) hlexer
  | @fresh slot grammar lexer hslot hnone hgrammar hlexer hfree =>
    -- Both identifiers share with the same others, so the same slots get the lexer.
    have hsame : (view.addAll grammar.auxiliary).setLexer id lexer
        = (view.addAll grammar.auxiliary).setLexer other lexer := by
      refine View.ext (funext fun third => ?_) rfl
      rw [slot?_setLexer, slot?_setLexer, hcoherent.shares_addAll hfree hslot,
        hcoherent.shares_addAll hfree (hslots ▸ hslot), hcoherent.shares_eq hshares]
    rw [hsame]
    exact .fresh (hslots ▸ hslot) hnone hgrammar hlexer hfree

theorem Compiles.exists_lexer (hcoherent : view.Coherent) (h : view.Compiles id after) :
    ∃ slot lexer, after.slot? id = some slot ∧ slot.lexer = some lexer := by
  cases h with
  | @known slot lexer hslot hlexer => exact ⟨slot, lexer, hslot, hlexer⟩
  | @fresh slot grammar lexer hslot hnone hgrammar hlexer hfree =>
    have hseen := slot?_compiled hfree hslot hslot lexer
    rw [if_pos (hcoherent.refl id slot hslot)] at hseen
    exact ⟨_, lexer, hseen, rfl⟩

/-- Asking for a lexer that is known changes nothing. -/
theorem Compiles.eq_of_lexer (h : view.Compiles id after) {slot : Slot} {lexer : Lexer}
    (hslot : view.slot? id = some slot) (hlexer : slot.lexer = some lexer) : after = view := by
  cases h with
  | known hslot' hlexer' => rfl
  | fresh hslot' hnone hgrammar hlexer' hfree =>
    rw [hslot] at hslot'
    cases hslot'
    rw [hlexer] at hnone
    cases hnone

/-- What two slots bring along is apart if the second one can be
compiled after the first one. Then either comes first. -/
theorem compiled_comm (hcoherent : view.Coherent) {slot slot' : Slot}
    {first second : List (Named Grammar)} (hfree : view.AreFree first)
    (hfree' : view.AreFree second) (hapart : ∀ named ∈ first, Apart named.ids second)
    (hid : view.slot? id = some slot) (hother : view.slot? other = some slot')
    (hshares : view.shares id other = false) (lexer lexer' : Lexer) :
    (((view.addAll first).setLexer id lexer).addAll second).setLexer other lexer'
      = (((view.addAll second).setLexer other lexer').addAll first).setLexer id lexer := by
  rw [← setLexer_addAll (hfree'.not_mem hid), ← setLexer_addAll (hfree.not_mem hother),
    addAll_addAll_comm hapart]
  refine setLexer_comm (fun third hthird => Bool.eq_false_iff.mpr fun hthird' => ?_) lexer lexer'
  -- A slot that both have would make them one.
  have hthird := shares_of_addAll (hfree'.not_mem hid)
    (shares_of_addAll (hfree.not_mem hid) hthird)
  have hthird' := shares_of_addAll (hfree'.not_mem hother)
    (shares_of_addAll (hfree.not_mem hother) hthird')
  have hboth := hcoherent.trans id third other hthird (hcoherent.symm other third hthird')
  rw [hshares] at hboth
  cases hboth

/-- Of two slots that can be compiled one after the other, either can
come first. -/
theorem Compiles.swap (hcoherent : view.Coherent) (hother : (view.slot? other).isSome = true)
    (h : view.Compiles id between) (h' : between.Compiles other after) :
    ∃ middle, view.Compiles other middle ∧ middle.Compiles id after := by
  obtain ⟨slot', hslot'⟩ := Option.isSome_iff_exists.mp hother
  by_cases hshares : view.shares id other = true
  · -- It is one slot, whose lexer is known when it is asked for again.
    have hfirst := h.of_shares hcoherent hshares
    obtain ⟨slot, lexer, hslot, hlexer⟩ := hfirst.exists_lexer hcoherent
    cases h'.eq_of_lexer hslot hlexer
    obtain ⟨slot, lexer, hslot, hlexer⟩ := h.exists_lexer hcoherent
    exact ⟨after, hfirst, .known hslot hlexer⟩
  cases h with
  -- The first one changes nothing, before or after the second one.
  | known hslot hlexer => exact ⟨after, h', .known (h'.slot?_eq hcoherent hslot hlexer) hlexer⟩
  | @fresh slot grammar lexer hslot hnone hgrammar hlexer hfree =>
    have hseen := slot?_compiled hfree hslot hslot' lexer
    rw [if_neg hshares] at hseen
    cases h' with
    | @known found lexer' hfound hlexer' =>
      rw [hseen] at hfound
      cases hfound
      exact ⟨view, .known hslot' hlexer', .fresh hslot hnone hgrammar hlexer hfree⟩
    | @fresh found grammar' lexer' hfound hnone' hgrammar' hlexer' hfree' =>
      rw [hseen] at hfound
      cases hfound
      -- The second one was not refused, so what both bring along is apart.
      obtain ⟨hfree', hapart⟩ := areFree_addAll_iff.mp (areFree_setLexer_iff.mp hfree')
      have hshares' : view.shares other id = false := by
        rw [Bool.eq_false_iff]
        exact fun h => hshares (hcoherent.symm other id h)
      have hseen' := slot?_compiled hfree' hslot' hslot lexer'
      rw [hshares'] at hseen'
      refine ⟨_, .fresh hslot' hnone' hgrammar' hlexer' hfree', ?_⟩
      rw [compiled_comm hcoherent hfree hfree' hapart hslot hslot'
        (Bool.eq_false_iff.mpr hshares) lexer lexer']
      refine .fresh hseen' hnone hgrammar hlexer (areFree_setLexer_iff.mpr ?_)
      exact areFree_addAll_iff.mpr ⟨hfree, fun named hnamed other' hother' id' hid' hmem =>
        hapart other' hother' named hnamed id' hmem hid'⟩

/-! ### Many slots -/

/-- The slots of some identifiers are compiled one after the other. -/
inductive CompilesAll : View → List String → View → Prop
  | nil (view : View) : CompilesAll view [] view
  | cons {view between after : View} {id : String} {rest : List String}
    (hfirst : view.Compiles id between) (hrest : CompilesAll between rest after) :
    CompilesAll view (id :: rest) after

end Registry.View

namespace Registry

variable {registry after other : Registry} {id : String} {number : Nat} {numbers : List Nat}

open View (Compiles CompilesAll)

/-- What is seen of a registry after a slot has been compiled is what
is seen of another one. -/
theorem exists_view_of_compiles (hwf : registry.WellFormed) {seen : View}
    (h : registry.view.Compiles id seen) :
    ∃ after : Registry, after.WellFormed ∧ after.view = seen := by
  have hsome : ∃ slot, registry.view.slot? id = some slot := by
    cases h with
    | known hslot _ => exact ⟨_, hslot⟩
    | fresh hslot _ _ _ _ => exact ⟨_, hslot⟩
  obtain ⟨slot, hslot⟩ := hsome
  obtain ⟨number, hid, -⟩ := Option.bind_eq_some_iff.mp hslot
  obtain ⟨lexer, after, hasked, hview⟩ := lexerOf_of_compiles hwf hid h
  exact ⟨after, hwf.lexerOf hasked, hview⟩

/-- The slots of registered identifiers can be compiled in any order,
with the same result. -/
theorem compilesAll_perm (hwf : registry.WellFormed) {ids ids' : List String} {seen : View}
    (hids : ∀ id ∈ ids, (registry.view.slot? id).isSome = true) (hperm : ids.Perm ids')
    (h : CompilesAll registry.view ids seen) : CompilesAll registry.view ids' seen := by
  induction hperm generalizing registry with
  | nil => exact h
  | cons id _ ih =>
    obtain ⟨-, hrest⟩ := List.forall_mem_cons.mp hids
    cases h with
    | cons hfirst h =>
      obtain ⟨after, hafter, rfl⟩ := exists_view_of_compiles hwf hfirst
      exact .cons hfirst (ih hafter (fun id hid => hfirst.isSome (hrest id hid)) h)
  | swap second first rest =>
    -- The first two change places.
    obtain ⟨hsecond, -⟩ := List.forall_mem_cons.mp hids
    cases h with
    | cons hfirst h =>
      cases h with
      | cons hsecond' h =>
        have hfirst' := (List.forall_mem_cons.mp (List.forall_mem_cons.mp hids).2).1
        obtain ⟨middle, hmiddle, hend⟩ := hfirst.swap (coherent_view registry) hfirst' hsecond'
        exact .cons hmiddle (.cons hend h)
  | trans hperm _ ih ih' =>
    exact ih' hwf (fun id hid => hids id (hperm.mem_iff.mpr hid)) (ih hwf hids h)

/-! ### Compiling by number, and by identifier -/

/-- An identifier that has a slot. Which one it is depends on nothing
but the identifiers of the slot. -/
noncomputable def nameOf (registry : Registry) (number : Nat) : String :=
  Classical.epsilon fun id => registry.slotOf? id = some number

theorem slotOf?_nameOf (h : ∃ id, registry.slotOf? id = some number) :
    registry.slotOf? (registry.nameOf number) = some number :=
  Classical.epsilon_spec h

/-- What compiling some slots does can be seen under any of their
identifiers. -/
theorem compilesAll_of_compileAll (hwf : registry.WellFormed) {name : Nat → String}
    (hname : ∀ number ∈ numbers, registry.slotOf? (name number) = some number)
    (h : registry.compileAll numbers = (.ok (), after)) :
    CompilesAll registry.view (numbers.map name) after.view := by
  induction numbers generalizing registry with
  | nil =>
    cases h
    exact .nil _
  | cons number rest ih =>
    obtain ⟨hnumber, hrest⟩ := List.forall_mem_cons.mp hname
    rw [compileAll] at h
    split at h
    · cases h
    · rename_i lexer next hnext
      have hgrows := growsTo_lexerOf hnext
      exact .cons (compiles_of_lexerOf hwf hnumber hnext) (ih (hwf.lexerOf hnext)
        (fun other hother => hgrows.slotOf?_eq _ _ (hrest other hother)) h)

theorem compileAll_of_compilesAll (hwf : registry.WellFormed) {name : Nat → String} {seen : View}
    (hname : ∀ number ∈ numbers, registry.slotOf? (name number) = some number)
    (h : CompilesAll registry.view (numbers.map name) seen) :
    ∃ after, registry.compileAll numbers = (.ok (), after) ∧ after.view = seen := by
  induction numbers generalizing registry with
  | nil =>
    cases h
    exact ⟨registry, rfl, rfl⟩
  | cons number rest ih =>
    obtain ⟨hnumber, hrest⟩ := List.forall_mem_cons.mp hname
    cases h with
    | cons hfirst h =>
      obtain ⟨lexer, next, hnext, rfl⟩ := lexerOf_of_compiles hwf hnumber hfirst
      have hgrows := growsTo_lexerOf hnext
      obtain ⟨after, hafter, hview⟩ := ih (hwf.lexerOf hnext)
        (fun other hother => hgrows.slotOf?_eq _ _ (hrest other hother)) h
      refine ⟨after, ?_, hview⟩
      rw [compileAll, hnext]
      exact hafter

/-! ### Rounds -/

theorem nodup_eraseDups {α : Type} [BEq α] [LawfulBEq α] (xs : List α) : xs.eraseDups.Nodup := by
  -- What is left after the first element is shorter, but no tail.
  induction hlength : xs.length using Nat.strongRecOn generalizing xs with
  | _ length ih =>
    cases xs with
    | nil => exact List.nodup_nil
    | cons x xs =>
      rw [List.eraseDups_cons, List.nodup_cons, List.mem_eraseDups]
      refine ⟨by simp, ih _ ?_ _ rfl⟩
      have hle := List.length_filter_le (fun b => !b == x) xs
      rw [List.length_cons] at hlength
      omega

/-- The name of a slot, by any of its identifiers. -/
theorem nameOf_eq (hid : registry.slotOf? id = some number) :
    registry.nameOf number
      = Classical.epsilon fun other => registry.view.shares id other = true := by
  refine congrArg Classical.epsilon (funext fun other => propext ?_)
  rw [shares_iff]
  constructor
  · exact fun hother => ⟨number, hid, hother⟩
  · rintro ⟨known, hknown, hother⟩
    rw [hid] at hknown
    cases hknown
    exact hother

/-- Which names are pending depends on the view alone. -/
theorem mem_map_nameOf_pending (hwf : registry.WellFormed) :
    id ∈ registry.pending.map registry.nameOf
      ↔ (∃ slot, registry.view.slot? id = some slot ∧ slot.lexer = none) ∧
        id = Classical.epsilon fun other => registry.view.shares id other = true := by
  rw [List.mem_map]
  constructor
  · rintro ⟨number, hpending, rfl⟩
    obtain ⟨hmem, slot, hslot, hnone⟩ := mem_pending.mp hpending
    have hname := slotOf?_nameOf (hwf.mem_ids_iff.mp hmem)
    exact ⟨⟨slot, (view_slot? hname).trans hslot, hnone⟩, nameOf_eq hname⟩
  · rintro ⟨⟨slot, hslot, hnone⟩, heq⟩
    obtain ⟨number, hid, hslot⟩ := Option.bind_eq_some_iff.mp hslot
    have hmem := hwf.mem_ids_iff.mpr ⟨id, hid⟩
    exact ⟨number, mem_pending.mpr ⟨hmem, slot, hslot, hnone⟩, (nameOf_eq hid).trans heq.symm⟩

theorem nodup_map_nameOf_pending (hwf : registry.WellFormed) :
    (registry.pending.map registry.nameOf).Nodup := by
  have hnodup : registry.pending.Nodup := (nodup_eraseDups _).sublist List.filter_sublist
  refine hnodup.map_on fun number hnumber number' hnumber' heq => ?_
  have hname := slotOf?_nameOf (hwf.mem_ids_iff.mp (mem_pending.mp hnumber).1)
  have hname' := slotOf?_nameOf (hwf.mem_ids_iff.mp (mem_pending.mp hnumber').1)
  rw [heq, hname'] at hname
  exact (Option.some.inj hname).symm

/-- The pending slots of registries that look the same have the same
names. -/
theorem nameOf_pending_perm (hwf : registry.WellFormed) (hwf' : other.WellFormed)
    (hview : registry.view = other.view) :
    (registry.pending.map registry.nameOf).Perm (other.pending.map other.nameOf) := by
  refine (List.perm_ext_iff_of_nodup (nodup_map_nameOf_pending hwf)
    (nodup_map_nameOf_pending hwf')).mpr fun id => ?_
  rw [mem_map_nameOf_pending hwf, mem_map_nameOf_pending hwf', hview]

/-! ### Rounds -/

/-- A round that succeeds in one registry succeeds in each one that
looks the same, in whatever order, and they look the same afterwards. -/
theorem view_compileAll (hwf : registry.WellFormed) (hwf' : other.WellFormed)
    (hview : registry.view = other.view) {numbers' : List Nat}
    (hnumbers : numbers.Perm registry.pending) (hnumbers' : numbers'.Perm other.pending)
    (h : registry.compileAll numbers = (.ok (), after)) :
    ∃ after', other.compileAll numbers' = (.ok (), after') ∧ after'.view = after.view := by
  have hname : ∀ number ∈ numbers, registry.slotOf? (registry.nameOf number) = some number :=
    fun number hmem =>
      slotOf?_nameOf (hwf.mem_ids_iff.mp (mem_pending.mp (hnumbers.mem_iff.mp hmem)).1)
  have hname' : ∀ number ∈ numbers', other.slotOf? (other.nameOf number) = some number :=
    fun number hmem =>
      slotOf?_nameOf (hwf'.mem_ids_iff.mp (mem_pending.mp (hnumbers'.mem_iff.mp hmem)).1)
  have hperm : (numbers.map registry.nameOf).Perm (numbers'.map other.nameOf) :=
    ((hnumbers.map _).trans (nameOf_pending_perm hwf hwf' hview)).trans (hnumbers'.map _).symm
  -- By names, a round in one registry is a round in the other one, in another order.
  have hcompiles := compilesAll_of_compileAll hwf hname h
  refine compileAll_of_compilesAll hwf' hname' (hview ▸ compilesAll_perm hwf ?_ hperm hcompiles)
  intro id hid
  obtain ⟨number, hnumber, rfl⟩ := List.mem_map.mp hid
  have hlt := hwf.lt_size _ number (hname number hnumber)
  rw [view_slot? (hname number hnumber), Array.getElem?_eq_getElem hlt]
  rfl

theorem pending_eq_nil_iff (hwf : registry.WellFormed) :
    registry.pending = [] ↔ ∀ id slot, registry.view.slot? id = some slot → slot.lexer ≠ none := by
  rw [List.eq_nil_iff_forall_not_mem]
  constructor
  · intro h id slot hslot hnone
    obtain ⟨number, hid, hslot⟩ := Option.bind_eq_some_iff.mp hslot
    exact h number (mem_pending.mpr ⟨hwf.mem_ids_iff.mpr ⟨id, hid⟩, slot, hslot, hnone⟩)
  · intro h number hpending
    obtain ⟨hmem, slot, hslot, hnone⟩ := mem_pending.mp hpending
    obtain ⟨id, hid⟩ := hwf.mem_ids_iff.mp hmem
    exact h id slot ((view_slot? hid).trans hslot) hnone

/-- If warming up succeeds in one order, it does in every other one,
and the same is seen afterwards. -/
theorem view_warmUpWithin (first second : CompileOrder) (rounds : Nat) (hwf : registry.WellFormed)
    (hwf' : other.WellFormed) (hview : registry.view = other.view)
    (h : warmUpWithin first.arrange rounds registry = (.ok (), after)) :
    ∃ after', warmUpWithin second.arrange rounds other = (.ok (), after') ∧
      after'.view = after.view := by
  induction rounds generalizing registry other with
  | zero =>
    cases h
    exact ⟨other, rfl, hview.symm⟩
  | succ rounds ih =>
    have hpending : registry.pending = [] ↔ other.pending = [] := by
      rw [pending_eq_nil_iff hwf, pending_eq_nil_iff hwf', hview]
    rw [warmUpWithin] at h
    split at h
    · rename_i hnil
      cases h
      refine ⟨other, ?_, hview.symm⟩
      rw [warmUpWithin, hpending.mp hnil]
    · rename_i hsome
      split at h
      · cases h
      · rename_i next hround
        -- The rounds go side by side: what is pending depends on the view alone.
        obtain ⟨next', hround', hnext⟩ := view_compileAll hwf hwf' hview (first.perm _)
          (second.perm _) hround
        have hnextwf := hwf.compileAll (first.arrange registry.pending)
        have hnextwf' := hwf'.compileAll (second.arrange other.pending)
        rw [hround] at hnextwf
        rw [hround'] at hnextwf'
        obtain ⟨after', hafter', hseen⟩ := ih hnextwf hnextwf' hnext.symm h
        refine ⟨after', ?_, hseen⟩
        rw [warmUpWithin]
        split
        · rename_i hnil
          exact absurd (hpending.mpr hnil) hsome
        · rw [hround']
          exact hafter'

/-! ### Any two orders -/

/-- Two identifiers have one slot, or none, if that is what is seen. -/
theorem slotOf?_eq_slotOf?_iff (hwf : registry.WellFormed) {id' : String} :
    registry.slotOf? id = registry.slotOf? id' ↔ registry.view.shares id id' = true ∨
      registry.view.slot? id = none ∧ registry.view.slot? id' = none := by
  rw [hwf.slot?_eq_none_iff, hwf.slot?_eq_none_iff, shares_iff]
  constructor
  · intro h
    cases hid : registry.slotOf? id with
    | none => exact .inr ⟨rfl, h.symm.trans hid⟩
    | some number => exact .inl ⟨number, rfl, h.symm.trans hid⟩
  · rintro (⟨number, hid, hid'⟩ | ⟨hid, hid'⟩)
    · rw [hid, hid']
    · rw [hid, hid']

/-- Warming up does not depend on the order of compilation: both runs
succeed or both fail, and when they succeed, the same identifiers are
bound to the same slots, in the same groups, and all is compiled. -/
theorem warmUpIn_confluent {start : Registry} (hstart : IsStart start)
    (hreachable : Reachable start registry) (first second : CompileOrder) :
    ((registry.warmUpIn first).1 = .ok () ↔ (registry.warmUpIn second).1 = .ok ()) ∧
      ∀ after after', registry.warmUpIn first = (.ok (), after) →
        registry.warmUpIn second = (.ok (), after') →
        (∀ id, after.isRegistered id = after'.isRegistered id) ∧
        (∀ id, after.view.slot? id = after'.view.slot? id) ∧
        (∀ id id', after.slotOf? id = after.slotOf? id' ↔ after'.slotOf? id = after'.slotOf? id') ∧
        ∀ id, after.isRegistered id = true →
          ∃ slot lexer, after.view.slot? id = some slot ∧ slot.lexer = some lexer := by
  have hwf := hreachable.wellFormed hstart.wellFormed
  have hsame : ∀ (first second : CompileOrder) (after : Registry),
      registry.warmUpIn first = (.ok (), after) → ∃ after' : Registry,
        registry.warmUpIn second = (.ok (), after') ∧ after'.view = after.view :=
    fun first second after h => view_warmUpWithin first second _ hwf hwf rfl h
  have honly : ∀ first second : CompileOrder, (registry.warmUpIn first).1 = .ok () →
      (registry.warmUpIn second).1 = .ok () := by
    intro first second h
    obtain ⟨after', hafter', -⟩ := hsame first second _ (Prod.ext h rfl)
    rw [hafter']
  refine ⟨⟨honly first second, honly second first⟩, fun after after' h h' => ?_⟩
  have hview : after'.view = after.view := by
    obtain ⟨found, hfound, hview⟩ := hsame first second after h
    rw [h'] at hfound
    cases hfound
    exact hview
  have hafter : after.WellFormed := by
    have hkept := hwf.warmUpWithin first.arrange (registry.count + 1)
    rwa [show warmUpWithin first.arrange (registry.count + 1) registry = _ from h] at hkept
  have hafter' : after'.WellFormed := by
    have hkept := hwf.warmUpWithin second.arrange (registry.count + 1)
    rwa [show warmUpWithin second.arrange (registry.count + 1) registry = _ from h'] at hkept
  have hpending := pending_of_warmUpWithin first.perm (waiting_lt_count registry) h
  refine ⟨fun id => ?_, fun id => by rw [hview], fun id id' => ?_, fun id hid => ?_⟩
  · rw [Bool.eq_iff_iff, ← Bool.not_eq_false, ← Bool.not_eq_false, isRegistered_eq_false,
      isRegistered_eq_false, ← hafter.slot?_eq_none_iff, ← hafter'.slot?_eq_none_iff, hview]
  · rw [slotOf?_eq_slotOf?_iff hafter, slotOf?_eq_slotOf?_iff hafter', hview]
  · cases hslot : after.view.slot? id with
    | none =>
      rw [isRegistered_eq_false.mpr (hafter.slot?_eq_none_iff.mp hslot)] at hid
      cases hid
    | some slot =>
      have hlexer := (pending_eq_nil_iff hafter).mp hpending id slot hslot
      obtain ⟨lexer, hlexer⟩ := Option.ne_none_iff_exists'.mp hlexer
      exact ⟨slot, lexer, rfl, hlexer⟩

/-- The order that compiles what came last first. -/
def CompileOrder.reversed : CompileOrder := ⟨List.reverse, List.reverse_perm⟩

theorem warmUpIn_confluent_reversed :
    IsStart initial ∧ Reachable initial afterRefusals ∧
      ((afterRefusals.warmUpIn .listed).1 = .ok () ↔
        (afterRefusals.warmUpIn .reversed).1 = .ok ()) ∧
      ∀ after after', afterRefusals.warmUpIn .listed = (.ok (), after) →
        afterRefusals.warmUpIn .reversed = (.ok (), after') →
        (∀ id, after.isRegistered id = after'.isRegistered id) ∧
        (∀ id, after.view.slot? id = after'.view.slot? id) ∧
        (∀ id id', after.slotOf? id = after.slotOf? id' ↔ after'.slotOf? id = after'.slotOf? id') ∧
        ∀ id, after.isRegistered id = true →
          ∃ slot lexer, after.view.slot? id = some slot ∧ slot.lexer = some lexer := by
  have hstart : IsStart initial := .inl rfl
  have hreachable : Reachable initial afterRefusals := .step _ (.step _ .start)
  exact ⟨hstart, hreachable, warmUpIn_confluent hstart hreachable .listed .reversed⟩

end Registry

end Highlighter
