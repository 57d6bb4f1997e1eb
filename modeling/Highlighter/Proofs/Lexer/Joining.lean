import Highlighter.Proofs.Lexer.Shortcuts
import Highlighter.Proofs.Union.ExtendedUnion
import Highlighter.Proofs.Union.RegularUnion

/-!
# Rules that work alone work together

A grammar whose rules compile one by one is compiled as a whole (`joinable_compiles`): their union
is a pattern as well, of the regular dialect or of the extended one.
-/

set_option autoImplicit false

namespace Highlighter

/-- The patterns that the union of a grammar joins. -/
def Grammar.patterns (grammar : Grammar) : List Pattern :=
  (grammar.rules.map Rule.pattern).eraseDups

namespace Lexer

theorem exists_mapM {α β ε : Type} {f : α → Except ε β} {xs : List α}
    (h : ∀ x ∈ xs, ∃ y, f x = .ok y) : ∃ ys, xs.mapM f = .ok ys := by
  induction xs with
  | nil => exact ⟨[], rfl⟩
  | cons x xs ih =>
    obtain ⟨hx, hxs⟩ := List.forall_mem_cons.mp h
    obtain ⟨y, hy⟩ := hx
    obtain ⟨ys, hys⟩ := ih hxs
    refine ⟨y :: ys, ?_⟩
    rw [List.mapM_cons, hy, hys]
    rfl

/-- Whether the patterns of a grammar can be joined in one of the dialects, and their union is not
too large for it. -/
def CanJoin (patterns : List Pattern) : Prop :=
  ((∀ pattern ∈ patterns,
      Union.Joinable (Union.isFolded patterns pattern) pattern.source.toList) ∧
    Union.Fits (Union.text patterns)) ∨
  (∀ pattern ∈ patterns,
      Union.ExtendedJoinable (Union.isFolded patterns pattern) pattern.source.toList) ∧
    Union.ExtendedFits (Union.text patterns)

/-- The regular dialect comes first, so a pattern of the extended one is a pattern either way. -/
theorem isSome_ofPattern_text {patterns : List Pattern} (h : CanJoin patterns) :
    (Regex.Matcher.ofPattern? (String.ofList (Union.text patterns))).isSome = true := by
  rw [Regex.Matcher.ofPattern?, String.toList_ofList, Option.orElse_eq_orElse, Option.orElse_eq_or,
    Option.isSome_or, Bool.or_eq_true]
  rcases h with ⟨hjoinable, hfits⟩ | ⟨hjoinable, hfits⟩
  · exact .inl (Union.isSome_ofRegular_text hjoinable hfits)
  · exact .inr (Union.isSome_ofExtended_text hjoinable hfits)

/-- Rules that compile one by one compile together. -/
theorem joinable_compiles {grammar : Grammar} (hagree : Rule.Agree grammar.rules)
    (hrules : ∀ rule ∈ grammar.rules, ∃ compiled, CompiledRule.ofRule rule = .ok compiled)
    (hsingle : ∀ rule ∈ grammar.rules, rule.pattern.isMultiline = false)
    (hjoin : CanJoin grammar.patterns) : ∃ lexer, ofGrammar grammar = .ok lexer := by
  obtain ⟨shortcuts, hshortcuts, -⟩ :=
    Shortcut.enter_rules Shortcut.entered_nil grammar.rules hagree []
  rw [List.append_nil, List.length_nil] at hshortcuts
  obtain ⟨compiled, hcompiled⟩ := exists_mapM hrules
  obtain ⟨matcher, hmatcher⟩ := Option.isSome_iff_exists.mp (isSome_ofPattern_text hjoin)
  have hfind : grammar.patterns.find? Pattern.isMultiline = none := by
    refine List.find?_eq_none.mpr fun pattern hpattern => ?_
    obtain ⟨rule, hrule, rfl⟩ := List.mem_map.mp (List.mem_eraseDups.mp hpattern)
    rw [hsingle rule hrule]
    exact Bool.false_ne_true
  have hunion : ∃ union, Union.ofPatterns grammar.patterns = .ok union := by
    rw [Union.ofPatterns, hfind]
    simp only [Regex.Matcher.ofPattern, hmatcher]
    exact ⟨_, rfl⟩
  obtain ⟨union, hunion⟩ := hunion
  rw [ofGrammar, hshortcuts]
  simp only [Shortcut.enter, hcompiled, bind, Except.bind]
  rw [show (grammar.rules.map Rule.pattern).eraseDups = grammar.patterns from rfl, hunion]
  exact ⟨_, rfl⟩

/-! ### Grammars in which letter case counts in part -/

/-- Letter case counts in numbers and not in words. -/
def numbersAndWords : Grammar where
  shortcuts := [⟨.comment, .ofSource "^--.*", ['-']⟩]
  fallbacks := [⟨.keyword, .caseInsensitive "^(?:begin|end)\\b", []⟩,
    ⟨.literal, .ofSource "^(?<_>[0-9]+#)?[0-9a-f]+", []⟩]

/-- Quotes and brackets close as they open, and nothing may follow right after words and numbers.
Letter case counts in numbers and not in words. -/
def quotesAndWords : Grammar where
  shortcuts := [⟨.string, .ofSource "^(['\"])(?>[^'\"\\\\]|\\\\.)*+\\1", ['\'', '"']⟩]
  fallbacks := [⟨.comment, .ofSource "^\\[(=*)\\[(?s:.)*?\\]\\1\\]", []⟩,
    ⟨.literal, .ofSource "^([0-9]+#)?+[0-9a-f]+(?!\\w)", []⟩,
    ⟨.keyword, .caseInsensitive "^(?:begin|\\x41|end)(?=\\s|$)", []⟩]

theorem exists_ofRule {rules : List Rule}
    (h : ∀ rule ∈ rules, (CompiledRule.ofRule rule).toOption.isSome = true) :
    ∀ rule ∈ rules, ∃ compiled, CompiledRule.ofRule rule = .ok compiled := by
  intro rule hrule
  have hsome := h rule hrule
  cases hcompiled : CompiledRule.ofRule rule with
  | error error =>
    rw [hcompiled] at hsome
    cases hsome
  | ok compiled => exact ⟨compiled, rfl⟩

/-- The first grammar is one of the regular dialect, the second one of the extended dialect. -/
theorem joinable_compiles_quotesAndWords : (∃ lexer, ofGrammar numbersAndWords = .ok lexer) ∧
    ∃ lexer, ofGrammar quotesAndWords = .ok lexer := by
  have hpatterns : ∀ pattern ∈ numbersAndWords.patterns,
      pattern = .ofSource "^--.*" ∨ pattern = .caseInsensitive "^(?:begin|end)\\b" ∨
        pattern = .ofSource "^(?<_>[0-9]+#)?[0-9a-f]+" := by decide +kernel
  have hjoinable : ∀ pattern ∈ numbersAndWords.patterns, Union.Joinable
      (Union.isFolded numbersAndWords.patterns pattern) pattern.source.toList := by
    intro pattern hpattern
    rcases hpatterns pattern hpattern with rfl | rfl | rfl <;>
      exact ⟨_, _, rfl, by decide +kernel, by decide +kernel⟩
  refine ⟨joinable_compiles ?_ (exists_ofRule (by decide +kernel)) (by decide +kernel)
      (.inl ⟨hjoinable, by decide +kernel⟩),
    joinable_compiles ?_ (exists_ofRule (by decide +kernel)) (by decide +kernel)
      (.inr ⟨by decide +kernel, by decide +kernel⟩)⟩
  · simp [Rule.Agree, numbersAndWords, Grammar.rules]
  · simp [Rule.Agree, quotesAndWords, Grammar.rules]

end Lexer

end Highlighter
