import Highlighter.Proofs.Embedding.Calls
import Highlighter.Proofs.Registry.Growth
import Mathlib.Order.Monotone.Basic
import Mathlib.Data.Finset.Card

/-!
# How deep a decoration goes

A decoration is given a depth that embeddings may not exceed. Where
everything is compiled, a greater depth changes nothing once a call
settles (`Call.Settles.run_eq`). And a call that settles at all does so
within a bound that depends only on the length of its source and on the
number of slots (`Call.Settles.within_bound`). So the depth that
decorations are given is as good as any greater one
(`Call.run_eq_of_bound_le`, `Call.bound_le_nesting`).

The reason for the bound: a chain of calls on one and the same source
goes from slot to slot, and the lexers that settle at a depth settle at
each greater one. So as long as a further level lets more lexers settle
on that source, it lets a further slot settle; and once a level lets no
more of them settle, no level does.
-/

set_option autoImplicit false

namespace Highlighter

variable {warm : Registry} {call inner : Call} {depth deeper : Nat}

/-- Whether a call ends before embeddings are nested too deep. -/
def Call.Settles (warm : Registry) (depth : Nat) (call : Call) : Prop :=
  (call.run depth warm).1 ≠ .error .endlessEmbedding

/-! ### One depth and another one -/

/-- Runs in a registry where everything is compiled, at two depths. -/
theorem simulation_of_pending_eq_nil (hcompiled : warm.pending = []) :
    Simulation warm (fun _ => True) (fun _ registry other => registry = warm ∧ other = warm) where
  excuse _ _ _ := trivial
  leads := by
    rintro _ _ _ ⟨-, rfl⟩
    exact .refl
  lexer_eq := by
    rintro _ _ _ _ _ _ _ _ ⟨rfl, rfl⟩
    rfl
  kept := by
    rintro _ _ language cut _ _ _ _ ⟨rfl, rfl⟩ _ -
    have heq := Registry.resolve_of_pending_eq_nil hcompiled language cut.body
    exact ⟨heq, heq⟩
  region := by
    rintro _ _ language cut _ _ _ _ ⟨rfl, rfl⟩ _ -
    have heq := Registry.resolve_of_pending_eq_nil hcompiled language cut.body
    exact ⟨heq, heq⟩

namespace Call

/-- Where everything is compiled, no call changes the registry. -/
theorem run_snd (hcompiled : warm.pending = []) (call : Call) (depth : Nat) :
    (call.run depth warm).2 = warm := by
  have hsteady : Registry.Steady (· = warm) (fun _ => True) := {
    kept := by
      rintro _ rfl id source
      exact Registry.resolve_of_pending_eq_nil hcompiled id source
    fault := fun _ _ _ _ _ _ => trivial
    retries := trivial
    endless := trivial }
  exact (sound_decorateWithin hsteady depth warm rfl call.lexer call.source call.base).kept

/-- Runs at two depths agree if the second one does not settle, or if
they are the same. -/
theorem agree_iff (hcompiled : warm.pending = []) :
    Agree (fun _ => True) (fun _ registry other => registry = warm ∧ other = warm) warm warm
        (call.run depth warm) (call.run deeper warm)
      ↔ (call.Settles warm deeper → call.run depth warm = call.run deeper warm) := by
  have hafter := run_snd hcompiled call depth
  have hafter' := run_snd hcompiled call deeper
  unfold Settles
  generalize call.run depth warm = result at hafter
  generalize call.run deeper warm = result' at hafter'
  obtain ⟨outcome, _⟩ := result
  obtain ⟨outcome', _⟩ := result'
  cases hafter
  cases hafter'
  constructor
  · intro h hsettles
    cases h with
    | endless _ => exact absurd rfl hsettles
    | same hne hkept => rfl
  · intro h
    by_cases hendless : outcome' = .error .endlessEmbedding
    · rw [hendless]
      exact .endless trivial
    · cases h hendless
      exact .same hendless fun _ hrel => hrel

/-- Once a call settles, a greater depth changes nothing. -/
theorem Settles.run_eq (hcompiled : warm.pending = []) (hle : depth ≤ deeper)
    (h : call.Settles warm depth) : call.run deeper warm = call.run depth warm := by
  refine (agree_iff hcompiled).mp ?_ h
  clear h
  -- At depth zero nothing settles. Above that, nested calls have one level less at both depths.
  induction depth generalizing call deeper with
  | zero => exact .endless trivial
  | succ depth ih =>
    obtain ⟨deeper, rfl⟩ : ∃ count, deeper = count + 1 := ⟨deeper - 1, by omega⟩
    refine (simulation_of_pending_eq_nil hcompiled).agree_run (fun inner _ => ?_) ⟨rfl, rfl⟩
    rintro _ _ ⟨rfl, rfl⟩
    exact ih (Nat.le_of_succ_le_succ hle)

theorem Settles.mono (hcompiled : warm.pending = []) (hle : depth ≤ deeper)
    (h : call.Settles warm depth) : call.Settles warm deeper := by
  unfold Settles
  rw [h.run_eq hcompiled hle]
  exact h

/-- A call that settles does so one level above the calls that are
nested in it, as far as these settle. -/
theorem Settles.of_nested (hcompiled : warm.pending = []) (h : call.Settles warm (deeper + 1))
    (hnested : ∀ inner, call.Nested warm inner → inner.Settles warm deeper →
      inner.Settles warm depth) : call.Settles warm (depth + 1) := by
  have hrun : call.run (depth + 1) warm = call.run (deeper + 1) warm := by
    refine (agree_iff hcompiled).mp ?_ h
    refine (simulation_of_pending_eq_nil hcompiled).agree_run (fun inner hinner => ?_) ⟨rfl, rfl⟩
    rintro _ _ ⟨rfl, rfl⟩
    refine (agree_iff hcompiled).mpr fun hdeeper => ?_
    have hdepth := hnested inner hinner hdeeper
    -- The nested call settles at both depths, so it gives the same at both.
    rcases Nat.le_total depth deeper with hle | hle
    · exact (hdepth.run_eq hcompiled hle).symm
    · exact hdeeper.run_eq hcompiled hle
  unfold Settles
  rw [hrun]
  exact h

end Call

/-! ### A bound -/

/-- Where everything is compiled, the lexer of a language is that of a
slot. -/
theorem Registry.exists_slot_of_compiled {language : Option String} {source : List Char}
    {resolved : Resolved} {after : Registry} (hcompiled : warm.pending = [])
    (h : warm.resolve language source = (.ok resolved, after)) :
    ∃ slot, warm.slots[resolved.number]? = some slot ∧ slot.lexer = some resolved.lexer := by
  have hsame := resolve_of_pending_eq_nil hcompiled language source
  rw [h] at hsame
  obtain ⟨-, slot, hslot, hlexer⟩ := exists_slot_of_resolve h
  exact ⟨slot, hsame ▸ hslot, hlexer⟩

namespace Call

open scoped Classical in
/-- The slots whose lexer settles on a source within a depth. -/
noncomputable def settledSlots (warm : Registry) (source : List Char) (base depth : Nat) :
    Finset Nat :=
  (Finset.range warm.slots.size).filter fun number =>
    ∃ slot lexer, warm.slots[number]? = some slot ∧ slot.lexer = some lexer ∧
      Settles warm depth ⟨lexer, source, base⟩

variable {source : List Char} {base : Nat}

theorem mem_settledSlots {number : Nat} :
    number ∈ settledSlots warm source base depth
      ↔ ∃ slot lexer, warm.slots[number]? = some slot ∧ slot.lexer = some lexer ∧
        Settles warm depth ⟨lexer, source, base⟩ := by
  classical
  unfold settledSlots
  rw [Finset.mem_filter, Finset.mem_range, and_iff_right_iff_imp]
  rintro ⟨slot, lexer, hslot, -⟩
  exact (Array.getElem?_eq_some_iff.mp hslot).1

theorem settledSlots_mono (hcompiled : warm.pending = []) (hle : depth ≤ deeper) :
    settledSlots warm source base depth ⊆ settledSlots warm source base deeper := by
  intro number hmem
  obtain ⟨slot, lexer, hslot, hlexer, hsettles⟩ := mem_settledSlots.mp hmem
  exact mem_settledSlots.mpr ⟨slot, lexer, hslot, hlexer, hsettles.mono hcompiled hle⟩

theorem card_settledSlots_le : (settledSlots warm source base depth).card ≤ warm.slots.size := by
  classical
  refine (Finset.card_le_card (Finset.filter_subset _ _)).trans ?_
  rw [Finset.card_range]

/-- How deep a call on a source goes, if it settles. -/
def bound (warm : Registry) (source : List Char) : Nat :=
  (Text.byteSize source + 1) * (warm.slots.size + 1)

/-- If calls on shorter sources settle within a level, and no more
slots settle on a source at a greater depth than at the level, then no
more calls do at a greater depth than one above the level. -/
theorem Settles.of_settledSlots {level : Nat} (hcompiled : warm.pending = [])
    (hshorter : ∀ inner : Call, Text.byteSize inner.source < Text.byteSize call.source →
      ∀ depth, inner.Settles warm depth → inner.Settles warm level)
    (hslots : settledSlots warm call.source call.base deeper
      ⊆ settledSlots warm call.source call.base level)
    (h : call.Settles warm (deeper + 1)) : call.Settles warm (level + 1) := by
  refine h.of_nested hcompiled fun inner hinner hsettles => ?_
  rcases hinner.shorter_or_whole with
    hlt | ⟨language, cut, place, registry, resolved, after, -, -, hleads, hresolved, rfl⟩
  · exact hshorter inner hlt deeper hsettles
  · -- The same source in another language, whose lexer is that of a slot which settles.
    cases hleads.eq_of_pending_eq_nil hcompiled
    obtain ⟨slot, hslot, hlexer⟩ := Registry.exists_slot_of_compiled hcompiled hresolved
    have hmem := hslots (mem_settledSlots.mpr ⟨slot, _, hslot, hlexer, hsettles⟩)
    obtain ⟨slot', lexer', hslot', hlexer', hlevel⟩ := mem_settledSlots.mp hmem
    rw [hslot] at hslot'
    cases hslot'
    rw [hlexer] at hlexer'
    cases hlexer'
    exact hlevel

/-- The slots that settle on a source no longer grow in number once the
levels above those of shorter sources are as many as the slots. -/
theorem settledSlots_stable (hcompiled : warm.pending = []) {level : Nat}
    (hshorter : ∀ inner : Call, Text.byteSize inner.source < Text.byteSize source →
      ∀ depth, inner.Settles warm depth → inner.Settles warm level) (depth : Nat) :
    settledSlots warm source base depth
      ⊆ settledSlots warm source base (level + warm.slots.size) := by
  let slots (extra : Nat) : Finset Nat := settledSlots warm source base (level + extra)
  have hmono : ∀ {extra extra' : Nat}, extra ≤ extra' → slots extra ⊆ slots extra' :=
    fun hle => settledSlots_mono hcompiled (Nat.add_le_add_left hle level)
  have hshorter' : ∀ extra, ∀ inner : Call, Text.byteSize inner.source < Text.byteSize source →
      ∀ depth, inner.Settles warm depth → inner.Settles warm (level + extra) :=
    fun extra inner hlt depth h => (hshorter inner hlt depth h).mono hcompiled (by omega)
  -- Once a level lets no more slots settle, the next one does not, either.
  have hstep : ∀ extra, (slots extra).card = (slots (extra + 1)).card →
      (slots (extra + 1)).card = (slots (extra + 2)).card := by
    intro extra hcard
    have hslots : slots (extra + 1) ⊆ slots extra :=
      (Finset.eq_of_subset_of_card_le (hmono (Nat.le_succ _)) (Nat.le_of_eq hcard.symm)).ge
    refine congrArg Finset.card (Finset.Subset.antisymm (hmono (Nat.le_succ _)) fun number hmem => ?_)
    obtain ⟨slot, lexer, hslot, hlexer, hsettles⟩ := mem_settledSlots.mp hmem
    exact mem_settledSlots.mpr ⟨slot, lexer, hslot, hlexer,
      Settles.of_settledSlots hcompiled (hshorter' extra) hslots hsettles⟩
  -- There are only so many slots, so the levels up to their number are where growth stops.
  have hcard : ∀ extra, warm.slots.size ≤ extra →
      (slots extra).card = (slots warm.slots.size).card := fun extra hle =>
    Nat.stabilises_of_monotone (fun _ _ hle => Finset.card_le_card (hmono hle))
      (fun _ => card_settledSlots_le) hstep hle
  have hall : slots (max depth warm.slots.size) ⊆ slots warm.slots.size :=
    (Finset.eq_of_subset_of_card_le (hmono (Nat.le_max_right _ _))
      (Nat.le_of_eq (hcard _ (Nat.le_max_right _ _)))).ge
  exact (settledSlots_mono hcompiled (by omega)).trans hall

/-- A call that settles at some depth does so within the bound. -/
theorem Settles.within_bound (hcompiled : warm.pending = []) (h : call.Settles warm depth) :
    call.Settles warm (bound warm call.source) := by
  induction hsize : Text.byteSize call.source using Nat.strongRecOn generalizing call depth with
  | ind size ih =>
    -- Each byte of the source is worth one level more than there are slots.
    have hshorter : ∀ inner : Call, Text.byteSize inner.source < Text.byteSize call.source →
        ∀ depth, inner.Settles warm depth → inner.Settles warm (size * (warm.slots.size + 1)) := by
      intro inner hlt depth hinner
      refine (ih _ (hsize ▸ hlt) hinner rfl).mono hcompiled ?_
      exact Nat.mul_le_mul_right _ (hsize ▸ hlt)
    have hlevel : bound warm call.source
        = size * (warm.slots.size + 1) + warm.slots.size + 1 := by
      rw [bound, hsize, Nat.succ_mul, Nat.add_assoc]
    rw [hlevel]
    refine Settles.of_settledSlots hcompiled ?_ (settledSlots_stable hcompiled hshorter depth)
      (h.mono hcompiled (Nat.le_succ depth))
    exact fun inner hlt depth hinner =>
      (hshorter inner hlt depth hinner).mono hcompiled (Nat.le_add_right _ _)

/-- From the bound on, a call gives the same at every depth, and embeds
without end at all of them if it does at one. -/
theorem run_eq_of_bound_le (hcompiled : warm.pending = []) (hdepth : bound warm call.source ≤ depth)
    (hdeeper : bound warm call.source ≤ deeper) : call.run depth warm = call.run deeper warm := by
  by_cases hsettles : call.Settles warm (bound warm call.source)
  · exact (hsettles.run_eq hcompiled hdepth).trans (hsettles.run_eq hcompiled hdeeper).symm
  · -- What does not settle within the bound settles nowhere.
    have hendless : ∀ depth, call.run depth warm = (.error .endlessEmbedding, warm) := by
      intro depth
      refine Prod.ext ?_ (run_snd hcompiled call depth)
      by_contra hne
      exact hsettles (Settles.within_bound hcompiled hne)
    rw [hendless, hendless]

/-- The depth that decorations are given is beyond the bound. -/
theorem bound_le_nesting (warm : Registry) (source : List Char) :
    bound warm source ≤ warm.nesting source := by
  have hsize := Registry.size_le_count warm
  exact Nat.mul_le_mul (by omega) (by omega)

end Call

end Highlighter
