import Highlighter.Languages.Builtin
import Highlighter.Proofs.Embedding.Whole
import Highlighter.Proofs.Registry.Requests

/-!
# Decorations in the built-in languages

The built-in languages embed each other in circles. What stands between
`<?` and `?>` in markup is in a language that is guessed, and may be
markup again. Only two kinds of rules hand on a whole token: a tag goes
to `in.tag`, and a regular expression with nothing before it goes to
`regex`. The first of these leaves something out of every token that it
hands on, and the other one hands nothing on. That can be computed from
the patterns (`withBuiltins_wholeOnce`).

So every decoration in a built-in language comes to an end
(`builtins_terminate`).
-/

set_option autoImplicit false

namespace Highlighter.Registry

variable {inner : List String} {start registry : Registry}

/-! ### Where whole tokens are handed on once -/

/-- The depth that decorations are given is enough, and every greater
depth gives the same result. -/
theorem WholeOnce.decorateRaw (h : start.WholeOnce inner) (hsize : 2 ≤ start.slots.size)
    (hleads : start.LeadsTo registry) (lexer : Lexer) (source : List Char) (base : Nat) :
    (registry.decorateRaw lexer source base).1 ≠ .error .endlessEmbedding ∧
      ∀ depth, registry.nesting source ≤ depth →
        decorateWithin depth registry lexer source base
          = registry.decorateRaw lexer source base := by
  let call : Call := ⟨lexer, source, base⟩
  have hgrows := hleads.keeps (keeps_growsTo start) (.refl start)
  have hcount : 2 ≤ registry.count :=
    Nat.le_trans hsize (Nat.le_trans hgrows.size_le (size_le_count registry))
  -- Stages go up to two, and a registry with two slots leaves room for that.
  have hweight : call.weight (Lexer.stage inner) 2 < registry.nesting source :=
    calc call.weight (Lexer.stage inner) 2
        < (Text.byteSize source + 1) * (2 + 1) := call.weight_lt (Lexer.stage_le inner)
      _ ≤ registry.nesting source := Nat.mul_le_mul (by omega) (by omega)
  have hrun := fun depth hdepth =>
    Call.run_eq_of_weight_lt (Lexer.stage_le inner) h.rankFalls hleads hweight
      (Nat.lt_of_lt_of_le hweight hdepth : _ < depth)
  exact ⟨(hrun _ (Nat.le_refl _)).1, fun depth hdepth => (hrun depth hdepth).2.symm⟩

/-- A decoration may fail, but not by embedding without end. -/
theorem WholeOnce.decorate_ne_endless (h : start.WholeOnce inner) (hsize : 2 ≤ start.slots.size)
    (id : Option String) (source : List Char) (base : Nat) :
    (start.decorate id source base).1 ≠ .error .endlessEmbedding := by
  have hleads : start.LeadsTo (start.resolve id source).2 := .resolve .refl id source
  unfold decorate
  cases hresolved : start.resolve id source with
  | mk outcome after =>
    rw [hresolved] at hleads
    cases outcome with
    | error error => exact fun hendless => nomatch hendless
    | ok resolved =>
      intro hendless
      have hraw := decorateWith_fst after resolved.lexer source base
      exact (h.decorateRaw hsize hleads resolved.lexer source base).1
        (map_eq_error (hraw.symm.trans hendless))

/-- What one language hands on as a whole is not handed on as a whole by
the language that it is handed on to. -/
theorem WholeOnce.not_handsWhole (h : start.WholeOnce inner) {id language tag : Option String}
    {text token : List Char} {outer resolved : Resolved} {after last : Registry}
    (houter : start.resolve id text = (.ok outer, after))
    (hwhole : outer.lexer.HandsWhole token language)
    (hresolved : after.resolve language token = (.ok resolved, last)) :
    ¬resolved.lexer.HandsWhole token tag := by
  intro hagain
  have hafter := (keeps_wholeOnce inner).resolve h id text
  rw [houter] at hafter
  -- The language is an inner one, and its lexer hands no whole token on.
  obtain ⟨known, hknown, rfl⟩ := h.wholeOnlyTo houter token language hwhole
  obtain ⟨_, hnone, -⟩ := hafter.wholeOnlyTo_nil hknown hresolved token tag hagain
  cases hnone

/-! ### The built-in languages -/

/-- Whether nothing is compiled yet, and the rules of all grammars show
that whole tokens are only handed on to inner languages, which hand no
whole tokens on. -/
def showsWholeOnce (inner : List String) (registry : Registry) : Bool :=
  (registry.slots.toList.all fun slot =>
      slot.lexer.isNone && slot.grammar.any (Grammar.wholeOnlyTo inner)) &&
    inner.all fun id =>
      ((registry.slotOf? id).bind (registry.slots[·]?)).any fun slot =>
        slot.grammar.any fun grammar => grammar.rules.all (Rule.wholeOnlyTo [])

theorem wholeOnce_of_shows (h : registry.showsWholeOnce inner = true) :
    registry.WholeOnce inner := by
  obtain ⟨hslots, hinner⟩ := Bool.and_eq_true_iff.mp h
  refine ⟨fun slot hslot => ?_, fun id hid => ?_⟩
  · obtain ⟨hnone, hgrammar⟩ :=
      Bool.and_eq_true_iff.mp (List.all_eq_true.mp hslots slot (Array.mem_toList_iff.mpr hslot))
    obtain ⟨grammar, hgrammar, hwhole⟩ := (Option.any_eq_true _ _).mp hgrammar
    refine ⟨grammar, hgrammar, hwhole, fun lexer hlexer => ?_⟩
    rw [hlexer] at hnone
    cases hnone
  · obtain ⟨slot, hslot, hgrammar⟩ := (Option.any_eq_true _ _).mp (List.all_eq_true.mp hinner id hid)
    obtain ⟨number, hnumber, hslot⟩ := Option.bind_eq_some_iff.mp hslot
    obtain ⟨grammar, hgrammar, hrules⟩ := (Option.any_eq_true _ _).mp hgrammar
    exact ⟨number, slot, grammar, hnumber, hslot, hgrammar, hrules⟩

/-- Built-in languages hand whole tokens on to two of them only. -/
theorem withBuiltins_wholeOnce :
    ∃ builtins, withBuiltins = .ok builtins ∧ builtins.WholeOnce ["in.tag", "regex"] ∧
      2 ≤ builtins.slots.size := by
  -- Computed from the grammars: their patterns are read, but nothing is matched.
  have hshows : (match withBuiltins with
      | .ok builtins =>
        builtins.showsWholeOnce ["in.tag", "regex"] && decide (2 ≤ builtins.slots.size)
      | .error _ => false) = true := by
    decide +kernel
  cases hbuiltins : withBuiltins with
  | error error =>
    rw [hbuiltins] at hshows
    cases hshows
  | ok builtins =>
    rw [hbuiltins] at hshows
    obtain ⟨hwhole, hsize⟩ := Bool.and_eq_true_iff.mp hshows
    exact ⟨builtins, rfl, wholeOnce_of_shows hwhole, of_decide_eq_true hsize⟩

/-- Decorating in the built-in languages comes to an end. All of them can
be registered, and when they have been compiled, in whatever order, no
chain of nested calls is endless. No identifier, registered or not, and
no source makes a decoration embed without end: a greater depth than the
one that decorations are given changes nothing. And a token that one
language hands on as a whole is not handed on as a whole by the language
that it is handed on to. -/
theorem builtins_terminate :
    ∃ builtins, withBuiltins = .ok builtins ∧ ∀ order : CompileOrder,
      let warm := (builtins.warmUpIn order).2
      (WellFounded fun inner outer : Call => outer.Nested warm inner) ∧
      (∀ id source base, (warm.decorate id source base).1 ≠ .error .endlessEmbedding) ∧
      (∀ lexer source base depth, warm.nesting source ≤ depth →
        decorateWithin depth warm lexer source base = warm.decorateRaw lexer source base) ∧
      ∀ id text outer after, warm.resolve id text = (.ok outer, after) →
        ∀ token language, outer.lexer.HandsWhole token language →
          ∀ inner last, after.resolve language token = (.ok inner, last) →
            ∀ tag, ¬inner.lexer.HandsWhole token tag := by
  obtain ⟨builtins, hbuiltins, hwhole, hsize⟩ := withBuiltins_wholeOnce
  refine ⟨builtins, hbuiltins, fun order => ?_⟩
  have hkept : (builtins.warmUpIn order).2.WholeOnce ["in.tag", "regex"] :=
    (keeps_wholeOnce _).warmUpWithin hwhole order.arrange (builtins.count + 1)
  have hgrows : builtins.GrowsTo (builtins.warmUpIn order).2 :=
    growsTo_warmUpWithin order.arrange (builtins.count + 1) builtins
  have hmost := Nat.le_trans hsize hgrows.size_le
  exact ⟨Call.wellFounded_nested (Lexer.stage_le _) hkept.rankFalls,
    hkept.decorate_ne_endless hmost,
    fun lexer source base => (hkept.decorateRaw hmost .refl lexer source base).2,
    fun _ _ _ _ houter _ _ hwhole _ _ hinner _ => hkept.not_handsWhole houter hwhole hinner⟩

end Highlighter.Registry
