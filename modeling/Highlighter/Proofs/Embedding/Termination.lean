import Highlighter.Proofs.Embedding.Coverage
import Highlighter.Proofs.Embedding.Depth
import Highlighter.Proofs.Registry.Requests

/-!
# Decorations come to an end

A region may be the whole source, so the length of the source alone
does not bound a decoration. If there is a rank of lexers that falls
whenever a whole token is handed on, length and rank together do: the
length counts first, and the rank falls where the length stays
(`Call.Nested.weight_lt`). No chain of calls is longer than that allows
(`Call.length_le_weight`), and no depth from there on is too small
(`Call.run_eq_of_weight_lt`).

`decoration_terminates` says what this means for a registry where
everything is compiled: the depth that decorations are given is enough,
and every greater depth gives the same result.
-/

set_option autoImplicit false

namespace Highlighter

/-- Whether a rank of lexers falls whenever a whole token is handed on,
in all registries that a registry leads to. -/
def Registry.RankFalls (start : Registry) (rank : Lexer → Nat) : Prop :=
  ∀ (call : Call) (token : List Char) (language : Option String) (cut : Text.Cut) (place : Nat)
    (registry after : Registry) (resolved : Registry.Resolved),
    call.HandsOn token language cut place → cut.body = token → start.LeadsTo registry →
    registry.resolve language token = (.ok resolved, after) → rank resolved.lexer < rank call.lexer

namespace Call

variable {call inner : Call} {start registry : Registry} {rank : Lexer → Nat}
  {most depth deeper : Nat}

/-- The length of the source and the rank of the lexer in one number.
Ranks are at most `most`. -/
def weight (rank : Lexer → Nat) (most : Nat) (call : Call) : Nat :=
  Text.byteSize call.source * (most + 1) + rank call.lexer

theorem weight_lt (hmost : ∀ lexer, rank lexer ≤ most) (call : Call) :
    call.weight rank most < (Text.byteSize call.source + 1) * (most + 1) := by
  have := hmost call.lexer
  rw [weight, Nat.succ_mul]
  omega

/-- Nested calls weigh less. -/
theorem Nested.weight_lt (hmost : ∀ lexer, rank lexer ≤ most) (hrank : start.RankFalls rank)
    (h : call.Nested start inner) : inner.weight rank most < call.weight rank most := by
  rcases h.shorter_or_whole with
    hlt | ⟨language, cut, place, registry, resolved, after, hhands, hbody, hleads, hresolved, rfl⟩
  · -- A shorter source outweighs every rank.
    calc inner.weight rank most
        < (Text.byteSize inner.source + 1) * (most + 1) := Call.weight_lt hmost inner
      _ ≤ Text.byteSize call.source * (most + 1) := Nat.mul_le_mul_right _ hlt
      _ ≤ call.weight rank most := Nat.le_add_right _ _
  · exact Nat.add_lt_add_left
      (hrank call _ language cut place registry after resolved hhands hbody hleads hresolved) _

/-- A chain of nested calls ends. -/
theorem length_le_weight (hmost : ∀ lexer, rank lexer ≤ most) (hrank : start.RankFalls rank)
    {calls : List Call} (h : List.IsChain (Call.Nested start) (call :: calls)) :
    calls.length ≤ call.weight rank most := by
  induction calls generalizing call with
  | nil => exact Nat.zero_le _
  | cons inner rest ih =>
    obtain ⟨hfirst, hrest⟩ := List.isChain_cons_cons.mp h
    exact Nat.lt_of_le_of_lt (ih hrest) (hfirst.weight_lt hmost hrank)

/-- Two runs of the same call in the same registry. They agree without
excuse only if they do not embed without end. -/
theorem simulation_self (start : Registry) :
    Simulation start (fun _ => False)
      (fun _ registry other => registry = other ∧ start.LeadsTo other) where
  excuse _ h := h.elim
  leads _ _ _ h := h.2
  lexer_eq := by
    rintro _ _ _ _ _ _ _ _ ⟨rfl, -⟩
    rfl
  kept := by
    rintro _ _ language cut _ _ _ _ ⟨rfl, hleads⟩ _ -
    exact ⟨rfl, hleads.resolve language cut.body⟩
  region := by
    rintro _ _ language cut _ _ _ _ ⟨rfl, hleads⟩ _ -
    exact ⟨rfl, hleads.resolve language cut.body⟩

/-- Depths above its weight give the same for a call, wherever it is
made. -/
theorem agree_of_weight_lt (hmost : ∀ lexer, rank lexer ≤ most) (hrank : start.RankFalls rank)
    (hdepth : call.weight rank most < depth) (hdeeper : call.weight rank most < deeper) :
    Simulation.AgreeOn (fun _ => False)
      (fun _ registry other => registry = other ∧ start.LeadsTo other) (decorateWithin depth)
      (decorateWithin deeper) call := by
  -- Each nested call weighs less, so one level less is enough for it.
  induction depth generalizing call deeper with
  | zero => exact absurd hdepth (Nat.not_lt_zero _)
  | succ depth ih =>
    cases deeper with
    | zero => exact absurd hdeeper (Nat.not_lt_zero _)
    | succ deeper =>
      rintro registry other hrel
      refine (simulation_self start).agree_run (fun inner hinner => ih ?_ ?_) hrel
      · exact Nat.lt_of_lt_of_le (hinner.weight_lt hmost hrank) (Nat.le_of_lt_succ hdepth)
      · exact Nat.lt_of_lt_of_le (hinner.weight_lt hmost hrank) (Nat.le_of_lt_succ hdeeper)

/-- A depth above its weight is enough for a call. -/
theorem run_eq_of_weight_lt (hmost : ∀ lexer, rank lexer ≤ most) (hrank : start.RankFalls rank)
    (hleads : start.LeadsTo registry) (hdepth : call.weight rank most < depth)
    (hdeeper : call.weight rank most < deeper) :
    (call.run depth registry).1 ≠ .error .endlessEmbedding ∧
      call.run depth registry = call.run deeper registry := by
  have hagree := agree_of_weight_lt hmost hrank hdepth hdeeper registry registry ⟨rfl, hleads⟩
  unfold run
  generalize decorateWithin depth registry call.lexer call.source call.base = result at hagree
  generalize decorateWithin deeper registry call.lexer call.source call.base = result' at hagree
  cases hagree with
  | endless h => exact h.elim
  | same hne hkept => exact ⟨hne, by rw [(hkept call.lexer ⟨rfl, hleads⟩).1]⟩

/-- There is no endless chain of nested calls. -/
theorem wellFounded_nested (hmost : ∀ lexer, rank lexer ≤ most) (hrank : start.RankFalls rank) :
    WellFounded fun inner outer : Call => outer.Nested start inner :=
  Subrelation.wf (fun h => h.weight_lt hmost hrank) (measure (weight rank most)).wf

end Call

namespace Registry

/-- If there is a bounded rank of lexers that falls whenever a whole
token is handed on, decorating comes to an end wherever everything has
been compiled. It never fails by embedding without end, and any depth
that the lengths and the ranks leave room for gives the same result.
Calls nest no deeper than that. What is before a region, or after it, is
shorter than the source of the call, and the region is shorter or has a
lexer of smaller rank. -/
theorem decoration_terminates {registry warm : Registry} {order : CompileOrder}
    {rank : Lexer → Nat} {most : Nat} (hwarm : registry.warmUpIn order = (.ok (), warm))
    (hmost : ∀ lexer, rank lexer ≤ most) (hrank : warm.RankFalls rank) (lexer : Lexer)
    (source : List Char) (base : Nat) :
    (warm.decorateWith lexer source base).1 ≠ .error .endlessEmbedding ∧
      (∀ depth, (Text.byteSize source + 1) * (most + 1) ≤ depth →
        decorateWithin depth warm lexer source base = warm.decorateRaw lexer source base) ∧
      (∀ calls : List Call, List.IsChain (Call.Nested warm) (⟨lexer, source, base⟩ :: calls) →
        calls.length + 1 ≤ (Text.byteSize source + 1) * (most + 1)) ∧
      ∀ call token language cut place, Call.HandsOn call token language cut place →
        Text.byteSize cut.before < Text.byteSize call.source ∧
        Text.byteSize cut.after < Text.byteSize call.source ∧
        ∀ resolved after, warm.resolve language cut.body = (.ok resolved, after) →
          Text.byteSize cut.body < Text.byteSize call.source ∨
            cut.body = call.source ∧ rank resolved.lexer < rank call.lexer := by
  have hcompiled := pending_of_warmUpWithin order.perm (waiting_lt_count registry) hwarm
  let call : Call := ⟨lexer, source, base⟩
  have hweight := call.weight_lt hmost
  have hsettles : call.Settles warm ((Text.byteSize source + 1) * (most + 1)) :=
    (Call.run_eq_of_weight_lt hmost hrank .refl hweight hweight).1
  have hnesting : call.Settles warm (warm.nesting source) :=
    (hsettles.within_bound hcompiled).mono hcompiled (Call.bound_le_nesting warm source)
  refine ⟨fun hendless => hnesting ?_, fun depth hdepth => ?_, fun calls hcalls => ?_,
    fun call token language cut place hhands => ?_⟩
  · exact map_eq_error (decorateWith_fst warm lexer source base ▸ hendless)
  · -- Both depths are at least as great as one at which the call settles.
    have hdeep := hsettles.run_eq hcompiled hdepth
    have hraw : call.run (warm.nesting source) warm
        = call.run ((Text.byteSize source + 1) * (most + 1)) warm := by
      rcases Nat.le_total (warm.nesting source) ((Text.byteSize source + 1) * (most + 1)) with
        hle | hle
      · exact (hnesting.run_eq hcompiled hle).symm
      · exact hsettles.run_eq hcompiled hle
    exact hdeep.trans hraw.symm
  · -- The first call of the chain weighs as much as the whole chain may be long.
    have hlength := Call.length_le_weight hmost hrank hcalls
    exact Nat.lt_of_le_of_lt hlength hweight
  · refine ⟨hhands.around_lt.1, hhands.around_lt.2, fun resolved after hresolved => ?_⟩
    rcases hhands.body_lt_or_whole with hlt | ⟨hbody, rfl, -⟩
    · exact .inl hlt
    · refine .inr ⟨hbody, ?_⟩
      rw [hbody] at hresolved
      exact hrank call _ language cut place warm after resolved hhands hbody .refl hresolved

end Registry

namespace Bracketed

/-- Words are handed on, each as a whole. -/
def wrapping : Lexer := lexerOf (.embedded "") (.group 1 word) 1

open scoped Classical in
/-- All lexers but the inner one come before it. -/
noncomputable def rank (lexer : Lexer) : Nat := if lexer = inner then 0 else 1

/-- The inner lexer hands nothing on, and all else is handed on to it. -/
theorem rankFalls_rank : registry.RankFalls rank := by
  intro call token language cut place found after resolved hhands _ hleads hresolved
  cases hleads.eq_of_pending_eq_nil (show registry.pending = [] from rfl)
  obtain ⟨slot, hslot, hlexer⟩ := Registry.exists_slot_of_compiled rfl hresolved
  have hinner : resolved.lexer = inner := by
    obtain ⟨hlt, -⟩ := Array.getElem?_eq_some_iff.mp hslot
    have hsize : registry.slots.size = 1 := rfl
    have hzero : resolved.number = 0 := by omega
    rw [hzero] at hslot
    cases hslot
    exact (Option.some.inj hlexer).symm
  -- The rule that has matched is for an embedding, and the inner lexer has none.
  have houter : call.lexer ≠ inner := by
    intro heq
    obtain ⟨rule, captures, group, hmem, -, hembedded, -⟩ := hhands.exists_rule
    rw [heq] at hmem
    cases List.mem_singleton.mp hmem
    cases hembedded
  unfold rank
  rw [if_pos hinner, if_neg houter]
  exact Nat.one_pos

end Bracketed

namespace Registry

open Bracketed in
theorem decoration_terminates_wrapping :
    wrapping.classify ['é'] = .ok ⟨.embedded "", some ⟨⟨0, 2, by decide⟩,
        some ⟨0, 2, by decide⟩, none⟩⟩ ∧
      (registry.decorateWith wrapping ['é'] 7).1 ≠ .error .endlessEmbedding ∧
      (∀ depth, 6 ≤ depth →
        decorateWithin depth registry wrapping ['é'] 7 = registry.decorateRaw wrapping ['é'] 7) ∧
      ∀ calls : List Call, List.IsChain (Call.Nested registry) (⟨wrapping, ['é'], 7⟩ :: calls) →
        calls.length + 1 ≤ 6 := by
  have hwarm : registry.warmUpIn .listed = (.ok (), registry) := rfl
  have hmost : ∀ lexer, rank lexer ≤ 1 := by
    intro lexer
    unfold rank
    split
    · exact Nat.zero_le _
    · exact Nat.le_refl _
  obtain ⟨hends, hdepths, hchains, -⟩ :=
    decoration_terminates hwarm hmost rankFalls_rank wrapping ['é'] 7
  exact ⟨by decide +kernel, hends, hdepths, hchains⟩

end Registry

end Highlighter
