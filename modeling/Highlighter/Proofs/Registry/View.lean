import Highlighter.Proofs.Registry.Growth

/-!
# What can be seen of a registry

The numbers of slots only tell slots apart. A `View` forgets them: it
says which slot each identifier has, and which identifiers share
theirs. Registering and compiling are functions of the view
(`view_add`, `view_setLexer`), so whether a slot can be compiled, and
what can be seen afterwards, depends on the view alone
(`compiles_of_lexerOf`, `lexerOf_of_compiles`).
-/

set_option autoImplicit false

namespace Highlighter

/-- What can be seen of a registry. -/
@[ext]
structure Registry.View where
  slot? : String → Option Slot
  /-- Whether two identifiers have one slot. -/
  shares : String → String → Bool

namespace Registry.View

variable {view after : View} {id : String}

/-- A new slot for some identifiers. -/
def add (view : View) (ids : List String) (language : Language) : View where
  slot? id := if id ∈ ids then some (Slot.ofLanguage (ids.headD "") language) else view.slot? id
  shares first second :=
    if first ∈ ids then decide (second ∈ ids) else decide (second ∉ ids) && view.shares first second

/-- The slot of an identifier gets a lexer. -/
def setLexer (view : View) (id : String) (lexer : Lexer) : View where
  slot? other :=
    if view.shares id other then (view.slot? other).map fun slot => { slot with lexer }
    else view.slot? other
  shares := view.shares

@[simp]
theorem slot?_add (view : View) (ids : List String) (language : Language) (id : String) :
    (view.add ids language).slot? id
      = if id ∈ ids then some (Slot.ofLanguage (ids.headD "") language) else view.slot? id := rfl

@[simp]
theorem shares_add (view : View) (ids : List String) (language : Language)
    (first second : String) :
    (view.add ids language).shares first second
      = if first ∈ ids then decide (second ∈ ids)
        else decide (second ∉ ids) && view.shares first second := rfl

@[simp]
theorem slot?_setLexer (view : View) (id : String) (lexer : Lexer) (other : String) :
    (view.setLexer id lexer).slot? other
      = if view.shares id other then (view.slot? other).map fun slot => { slot with lexer }
        else view.slot? other := rfl

@[simp]
theorem shares_setLexer (view : View) (id : String) (lexer : Lexer) :
    (view.setLexer id lexer).shares = view.shares := rfl

/-- The identifiers of grammars may be registered. -/
def AreFree (view : View) (auxiliary : List (Named Grammar)) : Prop :=
  ∀ named ∈ auxiliary, named.ids.Nodup ∧ ∀ id ∈ named.ids, view.slot? id = none

/-- New slots for grammars, one after the other. -/
def addAll (view : View) (auxiliary : List (Named Grammar)) : View :=
  auxiliary.foldl (fun view named => view.add named.ids (.described named.grammar)) view

/-- What is seen when the slot of an identifier is compiled, if that
succeeds. -/
inductive Compiles (view : View) (id : String) : View → Prop
  | known {slot : Slot} {lexer : Lexer} (hslot : view.slot? id = some slot)
    (hlexer : slot.lexer = some lexer) : Compiles view id view
  | fresh {slot : Slot} {grammar : Grammar} {lexer : Lexer} (hslot : view.slot? id = some slot)
    (hnone : slot.lexer = none) (hgrammar : slot.grammar = some grammar)
    (hlexer : Lexer.ofGrammar grammar = .ok lexer) (hfree : view.AreFree grammar.auxiliary) :
    Compiles view id ((view.addAll grammar.auxiliary).setLexer id lexer)

/-- What a view of a registry satisfies. -/
structure Coherent (view : View) : Prop where
  symm : ∀ first second, view.shares first second = true → view.shares second first = true
  trans : ∀ first second third, view.shares first second = true →
    view.shares second third = true → view.shares first third = true
  refl : ∀ id slot, view.slot? id = some slot → view.shares id id = true
  slot?_eq : ∀ first second, view.shares first second = true →
    view.slot? first = view.slot? second

end Registry.View

namespace Registry

variable {registry after : Registry} {id : String} {number : Nat} {lexer : Lexer}

/-- What can be seen of a registry. -/
def view (registry : Registry) : View where
  slot? id := (registry.slotOf? id).bind (registry.slots[·]?)
  shares first second :=
    (registry.slotOf? first).any fun number => registry.slotOf? second == some number

theorem shares_iff {first second : String} :
    registry.view.shares first second = true ↔
      ∃ number, registry.slotOf? first = some number ∧ registry.slotOf? second = some number := by
  show (registry.slotOf? first).any _ = true ↔ _
  rw [Option.any_eq_true]
  simp only [beq_iff_eq]

theorem view_slot? (h : registry.slotOf? id = some number) :
    registry.view.slot? id = registry.slots[number]? := by
  show (registry.slotOf? id).bind _ = _
  rw [h]
  rfl

/-- Identifiers without a slot are those that are not registered. -/
theorem WellFormed.slot?_eq_none_iff (hwf : registry.WellFormed) :
    registry.view.slot? id = none ↔ registry.slotOf? id = none := by
  cases hid : registry.slotOf? id with
  | none =>
    have hnone : registry.view.slot? id = none := by
      show (registry.slotOf? id).bind _ = none
      rw [hid]
      rfl
    exact ⟨fun _ => rfl, fun _ => hnone⟩
  | some number =>
    rw [view_slot? hid, Array.getElem?_eq_getElem (hwf.lt_size id number hid)]
    constructor
    · intro h
      cases h
    · intro h
      cases h

theorem coherent_view (registry : Registry) : registry.view.Coherent where
  symm first second h := by
    obtain ⟨number, hfirst, hsecond⟩ := shares_iff.mp h
    exact shares_iff.mpr ⟨number, hsecond, hfirst⟩
  trans first second third h h' := by
    obtain ⟨number, hfirst, hsecond⟩ := shares_iff.mp h
    obtain ⟨other, hsecond', hthird⟩ := shares_iff.mp h'
    rw [hsecond] at hsecond'
    cases hsecond'
    exact shares_iff.mpr ⟨number, hfirst, hthird⟩
  refl id slot h := by
    obtain ⟨number, hnumber, -⟩ := Option.bind_eq_some_iff.mp h
    exact shares_iff.mpr ⟨number, hnumber, hnumber⟩
  slot?_eq first second h := by
    obtain ⟨number, hfirst, hsecond⟩ := shares_iff.mp h
    rw [view_slot? hfirst, view_slot? hsecond]

/-- The view of a new slot does not depend on its number, since no
identifier had it before. -/
theorem view_add (hwf : registry.WellFormed) (ids : List String) (language : Language) :
    (registry.add ids language).view = registry.view.add ids language := by
  have hfresh : ∀ id, registry.slotOf? id ≠ some registry.slots.size := fun id hid =>
    absurd (hwf.lt_size id _ hid) (Nat.lt_irrefl _)
  cases ids with
  | nil =>
    ext id other
    · simp [Registry.add, View.add]
    · simp [Registry.add, View.add]
  | cons name rest =>
    have hslots := slots_add registry name rest language
    refine View.ext (funext fun id => ?_) (funext fun first => funext fun second => ?_)
    · show ((registry.add (name :: rest) language).slotOf? id).bind _ = if _ then _ else _
      rw [slotOf?_add, hslots]
      split
      · rw [Option.bind_some, Array.getElem?_push_size]
        rfl
      · -- An old slot keeps its number.
        cases hid : registry.slotOf? id with
        | none =>
          show none = (registry.slotOf? id).bind _
          rw [hid]
          rfl
        | some number =>
          have hlt := hwf.lt_size id number hid
          rw [view_slot? hid, Option.bind_some, Array.getElem?_push, if_neg (Nat.ne_of_lt hlt)]
    · rw [Bool.eq_iff_iff, shares_iff]
      show _ ↔ (if _ then _ else _) = true
      rw [slotOf?_add, slotOf?_add]
      by_cases hfirst : first ∈ name :: rest
      · rw [if_pos hfirst, if_pos hfirst, decide_eq_true_iff]
        -- An identifier that is not new cannot have the number of the new slot.
        constructor
        · rintro ⟨number, hnew, hold⟩
          cases hnew
          by_cases hsecond : second ∈ name :: rest
          · exact hsecond
          · rw [if_neg hsecond] at hold
            exact absurd hold (hfresh second)
        · exact fun hsecond => ⟨_, rfl, if_pos hsecond⟩
      · rw [if_neg hfirst, if_neg hfirst, Bool.and_eq_true, decide_eq_true_iff, shares_iff]
        by_cases hsecond : second ∈ name :: rest
        · rw [if_pos hsecond]
          constructor
          · rintro ⟨number, hold, hnew⟩
            cases hnew
            exact absurd hold (hfresh first)
          · exact fun h => absurd hsecond h.1
        · rw [if_neg hsecond]
          exact ⟨fun h => ⟨hsecond, h⟩, fun h => h.2⟩

theorem view_foldl_add (hwf : registry.WellFormed) (auxiliary : List (Named Grammar)) :
    (auxiliary.foldl (fun registry named => registry.add named.ids (.described named.grammar))
      registry).view = registry.view.addAll auxiliary := by
  induction auxiliary generalizing registry with
  | nil => rfl
  | cons named rest ih =>
    rw [List.foldl_cons, ih (hwf.add _ _), view_add hwf]
    rfl

theorem view_setLexer (hid : registry.slotOf? id = some number) (lexer : Lexer) :
    (registry.setLexer number lexer).view = registry.view.setLexer id lexer := by
  refine View.ext (funext fun other => ?_) rfl
  show (registry.slotOf? other).bind _ = if _ then _ else _
  -- Whoever shares the slot sees the lexer, and no one else does.
  by_cases hshares : registry.view.shares id other = true
  · obtain ⟨place, hplace, hother⟩ := shares_iff.mp hshares
    rw [hid] at hplace
    cases hplace
    rw [if_pos hshares, hother, view_slot? hother]
    show (registry.slots.modify number _)[number]? = _
    rw [Array.getElem?_modify, if_pos rfl]
  · rw [if_neg hshares]
    cases hother : registry.slotOf? other with
    | none =>
      show none = (registry.slotOf? other).bind _
      rw [hother]
      rfl
    | some place =>
      have hne : number ≠ place := by
        rintro rfl
        exact hshares (shares_iff.mpr ⟨number, hid, hother⟩)
      rw [view_slot? hother]
      show (registry.slots.modify number _)[place]? = _
      rw [Array.getElem?_modify, if_neg hne]

theorem WellFormed.areFree_iff (hwf : registry.WellFormed) {auxiliary : List (Named Grammar)} :
    registry.view.AreFree auxiliary ↔ registry.AreFree auxiliary := by
  unfold View.AreFree AreFree
  simp only [hwf.slot?_eq_none_iff]

/-- The view after the grammar of an identifier has been compiled. -/
theorem view_compiled (hwf : registry.WellFormed) (hid : registry.slotOf? id = some number)
    {auxiliary : List (Named Grammar)} (hfree : registry.AreFree auxiliary) (lexer : Lexer) :
    ((auxiliary.foldl (fun registry named => registry.add named.ids (.described named.grammar))
        registry).setLexer number lexer).view
      = (registry.view.addAll auxiliary).setLexer id lexer := by
  have hgrows := growsTo_foldl_add fun named hnamed => (hfree named hnamed).2
  rw [view_setLexer (hgrows.slotOf?_eq id number hid), view_foldl_add hwf]

theorem compiles_of_lexerOf (hwf : registry.WellFormed) (hid : registry.slotOf? id = some number)
    (h : registry.lexerOf number = .ok (lexer, after)) : registry.view.Compiles id after.view := by
  have hasked := asked_lexerOf registry number
  rw [h] at hasked
  cases hasked with
  | known hslot hlexer => exact .known ((view_slot? hid).trans hslot) hlexer
  | compiled hslot hnone hgrammar hlexer hfree =>
    rw [view_compiled hwf hid hfree]
    exact .fresh ((view_slot? hid).trans hslot) hnone hgrammar hlexer (hwf.areFree_iff.mpr hfree)

theorem lexerOf_of_compiles (hwf : registry.WellFormed) (hid : registry.slotOf? id = some number)
    {seen : View} (h : registry.view.Compiles id seen) :
    ∃ lexer after, registry.lexerOf number = .ok (lexer, after) ∧ after.view = seen := by
  cases h with
  | @known slot lexer hslot hlexer =>
    rw [view_slot? hid] at hslot
    refine ⟨lexer, registry, ?_, rfl⟩
    unfold lexerOf
    simp only [hslot, hlexer]
    rfl
  | @fresh slot grammar lexer hslot hnone hgrammar hlexer hfree =>
    rw [view_slot? hid] at hslot
    have hfree := hwf.areFree_iff.mp hfree
    obtain ⟨-, hadded⟩ := (addAuxiliary_cases registry _).resolve_right fun h => h.1 hfree
    refine ⟨lexer, _, ?_, view_compiled hwf hid hfree lexer⟩
    unfold lexerOf
    simp only [hslot, hnone, hgrammar, hlexer, hadded]
    rfl

end Registry

end Highlighter
