import Highlighter.Registry
import Mathlib.Algebra.GroupWithZero.Nat
import Mathlib.Algebra.Order.BigOperators.Group.List
import Mathlib.Algebra.Order.Group.Nat
import Mathlib.Algebra.Group.Action.Defs

/-!
# What warming up reaches

A slot that is not compiled yet stands for all the grammars in its
own: it may bring them along. `Registry.waiting` adds these up.
Compiling a slot trades its grammar for the ones that it brings along,
so the sum falls (`waiting_lexerOf_lt`), and the rounds that `warmUp`
allows are enough: when it succeeds, nothing is left to compile
(`pending_of_warmUp`). There are no more slots then than grammars that
were known before (`size_warmUpWithin_le_count`).

From then on, asking for a lexer changes nothing
(`resolve_of_pending_eq_nil`).
-/

set_option autoImplicit false

namespace Highlighter

theorem Grammar.count_eq (grammar : Grammar) :
    grammar.count = Named.countAll grammar.auxiliary + 1 := by
  cases grammar
  rw [Grammar.count]

/-- How many grammars a slot may still bring to be compiled. -/
def Slot.waiting (slot : Slot) : Nat :=
  match slot.lexer with
  | none => slot.count
  | some _ => 0

/-- How many slots a slot may lead to, itself among them. -/
def Slot.room (slot : Slot) : Nat :=
  match slot.lexer with
  | none => slot.count
  | some _ => 1

theorem Slot.count_pos (slot : Slot) : 0 < slot.count := by
  unfold count
  split
  · rw [Grammar.count_eq]
    exact Nat.succ_pos _
  · exact Nat.one_pos

namespace Registry

variable {registry after : Registry} {number : Nat} {lexer : Lexer}

/-- How many grammars may still have to be compiled. -/
def waiting (registry : Registry) : Nat :=
  (registry.slots.toList.map Slot.waiting).sum

/-- The weights of all slots together. -/
def total (weight : Slot → Nat) (registry : Registry) : Nat :=
  (registry.slots.toList.map weight).sum

/-! ### What compiling a slot does -/

/-- The two ways in which a lexer is given: it was there, or its
grammar has just been compiled. -/
theorem lexerOf_eq_ok (h : registry.lexerOf number = .ok (lexer, after)) :
    (∃ slot, registry.slots[number]? = some slot ∧ slot.lexer = some lexer ∧
        after = registry) ∨
      ∃ slot grammar added, registry.slots[number]? = some slot ∧ slot.lexer = none ∧
        slot.grammar = some grammar ∧ Lexer.ofGrammar grammar = .ok lexer ∧
        registry.addAuxiliary grammar.auxiliary = .ok added ∧
        after = added.setLexer number lexer := by
  unfold lexerOf at h
  cases hslot : registry.slots[number]? with
  | none =>
    rw [hslot] at h
    cases h
  | some slot =>
    rw [hslot] at h
    cases hlexer : slot.lexer with
    | some known =>
      simp only [hlexer] at h
      cases h
      exact .inl ⟨slot, rfl, hlexer, rfl⟩
    | none =>
      cases hgrammar : slot.grammar with
      | none =>
        simp only [hlexer, hgrammar] at h
        cases h
      | some grammar =>
        simp only [hlexer, hgrammar] at h
        cases hcompiled : Lexer.ofGrammar grammar with
        | error error =>
          rw [hcompiled] at h
          cases h
        | ok compiled =>
          rw [hcompiled] at h
          cases hadded : registry.addAuxiliary grammar.auxiliary with
          | error error =>
            simp only [hadded] at h
            cases h
          | ok added =>
            simp only [hadded, pure, Except.pure] at h
            cases h
            exact .inr ⟨slot, grammar, added, rfl, hlexer, hgrammar, hcompiled, hadded, rfl⟩

/-! ### What is kept while languages are compiled -/

/-- Whether a property is kept when the lexer of a slot is asked for. -/
def Keeps (P : Registry → Prop) : Prop :=
  ∀ registry number lexer after, P registry → registry.lexerOf number = .ok (lexer, after) →
    P after

section

variable {P : Registry → Prop}

theorem Keeps.resolve (h : Keeps P) (hregistry : P registry) (id : Option String)
    (source : List Char) : P (registry.resolve id source).2 := by
  unfold Registry.resolve
  split
  · exact hregistry
  · split
    · exact hregistry
    · rename_i hlexer
      exact h _ _ _ _ hregistry hlexer

theorem Keeps.compileAll (h : Keeps P) (hregistry : P registry) (numbers : List Nat) :
    P (registry.compileAll numbers).2 := by
  induction numbers generalizing registry with
  | nil => exact hregistry
  | cons number rest ih =>
    rw [Registry.compileAll]
    split
    · exact hregistry
    · rename_i hlexer
      exact ih (h _ _ _ _ hregistry hlexer)

/-- Whatever each lexer keeps, warming up keeps, even if it fails. -/
theorem Keeps.warmUpWithin (h : Keeps P) (hregistry : P registry) (order : List Nat → List Nat)
    (rounds : Nat) : P (warmUpWithin order rounds registry).2 := by
  induction rounds generalizing registry with
  | zero => exact hregistry
  | succ rounds ih =>
    rw [Registry.warmUpWithin]
    split
    · exact hregistry
    · have hround := h.compileAll hregistry (order registry.pending)
      split
      · rename_i hcompiled
        rw [hcompiled] at hround
        exact hround
      · rename_i hcompiled
        rw [hcompiled] at hround
        exact ih hround

end

/-! ### How registration changes the slots -/

theorem slots_foldl_bind (registry : Registry) (number : Nat) (ids : List String) :
    (ids.foldl (fun registry id => registry.bind number id) registry).slots
      = registry.slots := by
  induction ids generalizing registry with
  | nil => rfl
  | cons id rest ih => exact ih (registry.bind number id)

/-- Registering a language under some identifiers adds one slot. -/
theorem slots_add (registry : Registry) (name : String) (rest : List String)
    (language : Language) :
    (registry.add (name :: rest) language).slots
      = registry.slots.push (Slot.ofLanguage name language) :=
  slots_foldl_bind _ _ _

theorem total_add (weight : Slot → Nat) (registry : Registry) (name : String) (rest : List String)
    (language : Language) :
    (registry.add (name :: rest) language).total weight
      = registry.total weight + weight (Slot.ofLanguage name language) := by
  unfold total
  rw [slots_add, Array.toList_push, List.map_append, List.sum_append, List.map_singleton,
    List.sum_singleton]

section

variable {weight : Slot → Nat}

/-- The grammars that another one brings along count from then on. -/
theorem total_foldl_add_le
    (h : ∀ name grammar, weight (Slot.ofLanguage name (.described grammar)) ≤ grammar.count)
    (registry : Registry) (auxiliary : List (Named Grammar)) :
    (auxiliary.foldl (fun registry named => registry.add named.ids (.described named.grammar))
        registry).total weight ≤ registry.total weight + Named.countAll auxiliary := by
  induction auxiliary generalizing registry with
  | nil => exact Nat.le_add_right _ _
  | cons named rest ih =>
    have hrest := ih (registry.add named.ids (.described named.grammar))
    rw [Named.countAll, List.foldl_cons]
    cases hids : named.ids with
    | nil =>
      rw [hids] at hrest
      exact Nat.le_trans hrest (Nat.add_le_add_left (Nat.le_add_left _ _) _)
    | cons name others =>
      have hfirst := h name named.grammar
      rw [hids, total_add] at hrest
      omega

/-- New slots take no weight away. -/
theorem total_le_foldl_add (registry : Registry) (auxiliary : List (Named Grammar)) :
    registry.total weight ≤ (auxiliary.foldl
      (fun registry named => registry.add named.ids (.described named.grammar))
        registry).total weight := by
  induction auxiliary generalizing registry with
  | nil => exact Nat.le_refl _
  | cons named rest ih =>
    refine Nat.le_trans ?_ (ih (registry.add named.ids (.described named.grammar)))
    cases named.ids with
    | nil => exact Nat.le_refl _
    | cons name others =>
      rw [total_add]
      exact Nat.le_add_right _ _

theorem total_mono {weight' : Slot → Nat} (h : ∀ slot, weight slot ≤ weight' slot)
    (registry : Registry) : registry.total weight ≤ registry.total weight' :=
  List.sum_le_sum fun slot _ => h slot

end

/-- Registered slots keep their numbers. -/
theorem getElem?_slots_foldl_add (registry : Registry) (auxiliary : List (Named Grammar))
    {slot : Slot} (h : registry.slots[number]? = some slot) :
    (auxiliary.foldl (fun registry named => registry.add named.ids (.described named.grammar))
        registry).slots[number]? = some slot := by
  induction auxiliary generalizing registry with
  | nil => exact h
  | cons named rest ih =>
    refine ih (registry.add named.ids (.described named.grammar)) ?_
    cases hids : named.ids with
    | nil => exact h
    | cons name others =>
      have hlt := (Array.getElem?_eq_some_iff.mp h).1
      rw [slots_add, Array.getElem?_push, if_neg (by omega)]
      exact h

/-- One entry of a sum is replaced. -/
theorem sum_map_modify {slots : List Slot} {slot : Slot} (weight : Slot → Nat)
    (change : Slot → Slot) (h : slots[number]? = some slot) :
    ((slots.modify number change).map weight).sum + weight slot
      = (slots.map weight).sum + weight (change slot) := by
  induction slots generalizing number with
  | nil => cases h
  | cons first rest ih =>
    cases number with
    | zero =>
      cases h
      simp only [List.modify_zero_cons, List.map_cons, List.sum_cons]
      omega
    | succ number =>
      have hrest := ih h
      simp only [List.modify_succ_cons, List.map_cons, List.sum_cons]
      omega

/-- Compiling a slot replaces its weight. -/
theorem total_setLexer {slot : Slot} (weight : Slot → Nat) (lexer : Lexer)
    (h : registry.slots[number]? = some slot) :
    (registry.setLexer number lexer).total weight + weight slot
      = registry.total weight + weight { slot with lexer } := by
  unfold setLexer total
  rw [Array.toList_modify, sum_map_modify weight _ (by rwa [Array.getElem?_toList])]

theorem addAuxiliary_eq_ok {auxiliary : List (Named Grammar)} {added : Registry}
    (h : registry.addAuxiliary auxiliary = .ok added) :
    added = auxiliary.foldl
      (fun registry named => registry.add named.ids (.described named.grammar)) registry := by
  unfold addAuxiliary at h
  split at h
  · cases h
  · cases h
    rfl

/-- Compiling a slot replaces its weight, and what its grammar brings
along counts from then on. -/
theorem total_compiled_le {weight : Slot → Nat}
    (hnew : ∀ name grammar, weight (Slot.ofLanguage name (.described grammar)) ≤ grammar.count)
    {slot : Slot} {auxiliary : List (Named Grammar)} {added : Registry}
    (hslot : registry.slots[number]? = some slot)
    (hadded : registry.addAuxiliary auxiliary = .ok added) (lexer : Lexer) :
    (added.setLexer number lexer).total weight + weight slot
      ≤ registry.total weight + Named.countAll auxiliary + weight { slot with lexer } := by
  cases addAuxiliary_eq_ok hadded
  have hset := total_setLexer weight lexer (getElem?_slots_foldl_add registry auxiliary hslot)
  have hle := total_foldl_add_le hnew registry auxiliary
  omega

/-! ### What is left to do -/

/-- Compiling a slot that has no lexer lowers what is waiting. -/
theorem waiting_lexerOf_lt {slot : Slot} (h : registry.lexerOf number = .ok (lexer, after))
    (hslot : registry.slots[number]? = some slot) (hnone : slot.lexer = none) :
    after.waiting < registry.waiting := by
  rcases lexerOf_eq_ok h with
    ⟨known, hknown, hsome, -⟩ | ⟨known, grammar, added, hknown, -, hgrammar, -, hadded, rfl⟩
  · rw [hslot] at hknown
    cases hknown
    rw [hnone] at hsome
    cases hsome
  · rw [hslot] at hknown
    cases hknown
    -- The slot stops waiting, and what it brings along waits for one grammar less than it did.
    have hnew : ∀ name grammar,
        Slot.waiting (Slot.ofLanguage name (.described grammar)) ≤ grammar.count :=
      fun _ _ => Nat.le_refl _
    have htotal := total_compiled_le hnew hslot hadded lexer
    have hcount : slot.waiting = Named.countAll grammar.auxiliary + 1 := by
      unfold Slot.waiting Slot.count
      simp only [hnone, hgrammar, Grammar.count_eq]
    have hcompiled : Slot.waiting { slot with lexer } = 0 := rfl
    unfold waiting
    unfold total at htotal
    omega

/-- Asking for a lexer never raises what is waiting. -/
theorem waiting_lexerOf_le (h : registry.lexerOf number = .ok (lexer, after)) :
    after.waiting ≤ registry.waiting := by
  rcases lexerOf_eq_ok h with
    ⟨-, -, -, rfl⟩ | ⟨slot, -, -, hslot, hnone, -⟩
  · exact Nat.le_refl _
  · exact Nat.le_of_lt (waiting_lexerOf_lt h hslot hnone)

theorem waiting_compileAll_le {numbers : List Nat}
    (h : registry.compileAll numbers = (.ok (), after)) : after.waiting ≤ registry.waiting := by
  have hkeeps : Keeps fun known => known.waiting ≤ registry.waiting :=
    fun _ _ _ _ hknown hlexer => Nat.le_trans (waiting_lexerOf_le hlexer) hknown
  have hkept := hkeeps.compileAll (Nat.le_refl _) numbers
  rwa [h] at hkept

/-- A slot is pending if it has an identifier and no lexer. -/
theorem mem_pending :
    number ∈ registry.pending ↔ number ∈ registry.ids.map Prod.snd ∧
      ∃ slot, registry.slots[number]? = some slot ∧ slot.lexer = none := by
  unfold pending
  rw [List.mem_filter, List.mem_eraseDups]
  refine and_congr_right fun _ => ?_
  cases registry.slots[number]? with
  | none => simp
  | some slot => simp

/-- A round that compiles pending slots lowers what is waiting. -/
theorem waiting_compileAll_lt {numbers : List Nat}
    (h : registry.compileAll (number :: numbers) = (.ok (), after))
    (hpending : number ∈ registry.pending) : after.waiting < registry.waiting := by
  obtain ⟨-, slot, hslot, hnone⟩ := mem_pending.mp hpending
  rw [compileAll] at h
  split at h
  · cases h
  · rename_i lexer next hnext
    exact Nat.lt_of_le_of_lt (waiting_compileAll_le h) (waiting_lexerOf_lt hnext hslot hnone)

/-- Enough rounds, in whatever order each of them goes, leave nothing
to compile. -/
theorem pending_of_warmUpWithin {order : List Nat → List Nat}
    (horder : ∀ numbers, (order numbers).Perm numbers) {rounds : Nat}
    (hrounds : registry.waiting < rounds)
    (h : warmUpWithin order rounds registry = (.ok (), after)) : after.pending = [] := by
  induction rounds generalizing registry with
  | zero => omega
  | succ rounds ih =>
    rw [warmUpWithin] at h
    split at h
    · rename_i hnone
      cases h
      exact hnone
    · rename_i hsome
      split at h
      · cases h
      · rename_i next hround
        refine ih ?_ h
        cases hnumbers : order registry.pending with
        | nil =>
          have hperm := horder registry.pending
          rw [hnumbers] at hperm
          exact absurd hperm.nil_eq.symm hsome
        | cons number rest =>
          -- The round starts with a slot that is pending.
          have hmem : number ∈ registry.pending :=
            (horder registry.pending).mem_iff.mp (hnumbers ▸ List.mem_cons_self)
          rw [hnumbers] at hround
          have := waiting_compileAll_lt hround hmem
          omega

theorem waiting_le_count (slot : Slot) : slot.waiting ≤ slot.count := by
  unfold Slot.waiting
  split
  · exact Nat.le_refl _
  · exact Nat.zero_le _

theorem count_eq_total (registry : Registry) : registry.count = registry.total Slot.count := by
  have hsum : ∀ (slots : List Slot) (start : Nat),
      slots.foldl (fun total slot => total + slot.count) start
        = start + (slots.map Slot.count).sum := by
    intro slots
    induction slots with
    | nil => exact fun start => rfl
    | cons slot rest ih =>
      intro start
      rw [List.foldl_cons, ih, List.map_cons, List.sum_cons, Nat.add_assoc]
  unfold count total
  rw [← Array.foldl_toList, hsum, Nat.zero_add]

/-- The rounds that warming up allows are enough. -/
theorem waiting_lt_count (registry : Registry) : registry.waiting < registry.count + 1 := by
  rw [count_eq_total]
  exact Nat.lt_succ_of_le (total_mono waiting_le_count registry)

/-- When warming up succeeds, nothing is left to compile. -/
theorem pending_of_warmUp (h : registry.warmUp = (.ok (), after)) : after.pending = [] :=
  pending_of_warmUpWithin (fun numbers => List.Perm.refl numbers) (waiting_lt_count registry) h

/-! ### How many slots there will be -/

/-- A slot leads to no more slots than it stands for grammars. -/
theorem room_le_count (slot : Slot) : slot.room ≤ slot.count := by
  unfold Slot.room
  split
  · exact Nat.le_refl _
  · exact slot.count_pos

theorem one_le_room (slot : Slot) : 1 ≤ slot.room := by
  unfold Slot.room
  split
  · exact slot.count_pos
  · exact Nat.le_refl _

/-- Asking for a lexer makes use of the room that there is. -/
theorem room_lexerOf_le (h : registry.lexerOf number = .ok (lexer, after)) :
    after.total Slot.room ≤ registry.total Slot.room := by
  rcases lexerOf_eq_ok h with
    ⟨-, -, -, rfl⟩ | ⟨slot, grammar, added, hslot, hnone, hgrammar, -, hadded, rfl⟩
  · exact Nat.le_refl _
  · -- The room of the grammar is that of what it brings along, and of the slot itself.
    have hnew : ∀ name grammar,
        Slot.room (Slot.ofLanguage name (.described grammar)) ≤ grammar.count :=
      fun _ _ => Nat.le_refl _
    have htotal := total_compiled_le hnew hslot hadded lexer
    have hroom : slot.room = Named.countAll grammar.auxiliary + 1 := by
      unfold Slot.room Slot.count
      simp only [hnone, hgrammar, Grammar.count_eq]
    have hcompiled : Slot.room { slot with lexer } = 1 := rfl
    omega

theorem room_warmUpWithin_le {order : List Nat → List Nat} {rounds : Nat}
    (h : warmUpWithin order rounds registry = (.ok (), after)) :
    after.total Slot.room ≤ registry.total Slot.room := by
  have hkeeps : Keeps fun known => known.total Slot.room ≤ registry.total Slot.room :=
    fun _ _ _ _ hknown hlexer => Nat.le_trans (room_lexerOf_le hlexer) hknown
  have hkept := hkeeps.warmUpWithin (Nat.le_refl _) order rounds
  rwa [h] at hkept

theorem size_eq_total (registry : Registry) : registry.slots.size = registry.total fun _ => 1 := by
  unfold total
  rw [List.map_const', List.sum_replicate, Array.length_toList, smul_eq_mul, Nat.mul_one]

/-- Every slot stands for a grammar. -/
theorem size_le_count (registry : Registry) : registry.slots.size ≤ registry.count := by
  rw [size_eq_total, count_eq_total]
  exact total_mono Slot.count_pos registry

/-- When warming up succeeds, there are no more slots than grammars that
were known before. -/
theorem size_warmUpWithin_le_count {order : List Nat → List Nat} {rounds : Nat}
    (h : warmUpWithin order rounds registry = (.ok (), after)) :
    after.slots.size ≤ registry.count := by
  rw [size_eq_total, count_eq_total]
  calc after.total (fun _ => 1)
      ≤ after.total Slot.room := total_mono one_le_room after
    _ ≤ registry.total Slot.room := room_warmUpWithin_le h
    _ ≤ registry.total Slot.count := total_mono room_le_count registry

/-- No grammar is forgotten when a lexer is asked for. -/
theorem count_le_lexerOf (h : registry.lexerOf number = .ok (lexer, after)) :
    registry.count ≤ after.count := by
  rcases lexerOf_eq_ok h with
    ⟨-, -, -, rfl⟩ | ⟨slot, grammar, added, hslot, -, -, -, hadded, rfl⟩
  · exact Nat.le_refl _
  · cases addAuxiliary_eq_ok hadded
    have hset := total_setLexer Slot.count lexer
      (getElem?_slots_foldl_add registry grammar.auxiliary hslot)
    have hle := @total_le_foldl_add Slot.count registry grammar.auxiliary
    have hcompiled : Slot.count { slot with lexer } = slot.count := rfl
    rw [count_eq_total, count_eq_total]
    omega

theorem count_le_resolve (registry : Registry) (id : Option String) (source : List Char) :
    registry.count ≤ (registry.resolve id source).2.count := by
  have hkeeps : Keeps fun known => registry.count ≤ known.count :=
    fun _ _ _ _ hknown hlexer => Nat.le_trans hknown (count_le_lexerOf hlexer)
  exact hkeeps.resolve (Nat.le_refl _) id source

/-! ### Asking for lexers from then on -/

theorem mem_ids_of_slotOf? {id : String} (h : registry.slotOf? id = some number) :
    number ∈ registry.ids.map Prod.snd := by
  obtain ⟨before, rest, hsplit, -⟩ := List.lookup_eq_some_iff.mp h
  rw [hsplit]
  simp

theorem mem_ids_of_slotFor {id : Option String} {source : List Char}
    (h : registry.slotFor id source = .ok number) : number ∈ registry.ids.map Prod.snd := by
  unfold slotFor at h
  split at h
  · rename_i known hknown
    cases h
    obtain ⟨id, -, hslot⟩ := Option.bind_eq_some_iff.mp hknown
    exact mem_ids_of_slotOf? hslot
  · split at h
    · rename_i known hknown
      cases h
      exact mem_ids_of_slotOf? hknown
    · cases h

/-- Where everything is compiled, asking for a lexer changes nothing. -/
theorem resolve_of_pending_eq_nil (h : registry.pending = []) (id : Option String)
    (source : List Char) : (registry.resolve id source).2 = registry := by
  unfold resolve
  split
  · rfl
  · rename_i number hnumber
    split
    · rfl
    · rename_i lexer after hlexer
      rcases lexerOf_eq_ok hlexer with
        ⟨-, -, -, rfl⟩ | ⟨slot, -, -, hslot, hnone, -⟩
      · rfl
      · -- A slot that has an identifier and no lexer would be pending.
        have hmem : number ∈ registry.pending :=
          mem_pending.mpr ⟨mem_ids_of_slotFor hnumber, slot, hslot, hnone⟩
        rw [h] at hmem
        cases hmem

end Registry

end Highlighter
