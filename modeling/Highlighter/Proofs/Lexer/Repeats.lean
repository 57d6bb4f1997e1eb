import Mathlib.Tactic.Choose
import Highlighter.Proofs.Union.ExtendedJoint
import Highlighter.Proofs.Union.FirstMatch
import Highlighter.Proofs.Union.RegularJoint

/-!
# Repeated patterns

A lexer leaves repeated patterns out of its union. References of later members then have other
numbers than in the union of all patterns, but both unions cut every source alike
(`Lexer.tokenize_repeats`), provided that every pattern is read as a member as it is read by itself
(`Union.StandsAlone`).
-/

set_option autoImplicit false

namespace Highlighter

namespace Union

open Regex

/-- A pattern that is read by itself as it is written in a union, by an engine and under a rule for
letter case. -/
def StandsAlone (isBacktracking : Bool) (rule : CaseRule) (pattern : Pattern) : Prop :=
  if isBacktracking then
    ∃ parsed, ExtendedAlone (rule == .ignored) (rule == .mixed && pattern.ignoreCase) pattern parsed
  else
    ∃ parsed : Regular.Ast × Nat,
      RegularAlone (rule == .mixed && pattern.ignoreCase) pattern parsed.1 parsed.2

/-- Whether a pattern is read by itself in the extended dialect, in so many steps. A reference must
also be small for the size of the text. -/
def readsAlone (size steps : Nat) (rule : CaseRule) (pattern : Pattern) : Bool :=
  let folded := rule == .mixed && pattern.ignoreCase
  let (parts, groups) := member 0 pattern.parts
  numbersOnly folded (dropCarets parts) &&
    (Extended.parseBranches? steps 0 (startReading size (rule == .ignored)) []
      (memberText folded parts ++ [')'])).any fun found =>
        found.2.2 == [')'] && found.2.1.groups == groups

theorem standsAlone_of_readsAlone {size steps : Nat} {rule : CaseRule} {pattern : Pattern}
    (h : readsAlone size steps rule pattern = true) : StandsAlone true rule pattern := by
  obtain ⟨hnumbers, hread⟩ := Bool.and_eq_true_iff.mp h
  rw [Option.any_eq_true] at hread
  obtain ⟨⟨tree, after, left⟩, hfound, hends⟩ := hread
  obtain ⟨hleft, hgroups⟩ := Bool.and_eq_true_iff.mp hends
  cases eq_of_beq hleft
  exact ⟨⟨tree, after.groups, after.targets⟩, hnumbers, eq_of_beq hgroups, steps, 0, size, after,
    hfound, rfl, rfl⟩

theorem any_eraseDups (patterns : List Pattern) (test : Pattern → Bool) :
    patterns.eraseDups.any test = patterns.any test := by
  rw [Bool.eq_iff_iff, List.any_eq_true, List.any_eq_true]
  simp only [List.mem_eraseDups]

/-- Repeated patterns do not change how letter case is treated. -/
theorem caseRule_eraseDups (patterns : List Pattern) :
    caseRule patterns.eraseDups = caseRule patterns := by
  rw [caseRule, caseRule, any_eraseDups, any_eraseDups]

variable {patterns : List Pattern} {union full : Union}

/-- Unions are compiled for the regular dialect first. -/
theorem matcher_of_ofPatterns (h : ofPatterns patterns = .ok union) :
    union.matcher.isBacktracking = false ∧ Matcher.ofRegular? (text patterns) = some union.matcher ∨
      union.matcher.isBacktracking = true ∧
        Matcher.ofExtended? (text patterns) = some union.matcher := by
  have hmatcher := ofPatterns_eq_ok h
  rw [Matcher.ofPattern?, String.toList_ofList] at hmatcher
  cases hregular : Matcher.ofRegular? (text patterns) with
  | some matcher =>
    rw [hregular] at hmatcher
    cases hmatcher
    obtain ⟨_, _, _, _, -, -, heq⟩ := Matcher.ofRegular_eq_some hregular
    exact .inl ⟨by rw [heq], rfl⟩
  | none =>
    rw [hregular] at hmatcher
    obtain ⟨_, _, _, -, heq, -⟩ := Matcher.ofExtended_eq_some hmatcher
    exact .inr ⟨by rw [heq], hmatcher⟩

theorem matcher_of_engine {isBacktracking : Bool} (h : ofPatterns patterns = .ok union)
    (hengine : union.matcher.isBacktracking = isBacktracking) :
    (if isBacktracking then Matcher.ofExtended? (text patterns)
      else Matcher.ofRegular? (text patterns)) = some union.matcher := by
  subst hengine
  rcases matcher_of_ofPatterns h with ⟨hengine, hmatcher⟩ | ⟨hengine, hmatcher⟩
  · rw [hengine]
    exact hmatcher
  · rw [hengine]
    exact hmatcher

/-- The union without repeated patterns cuts a text as the union of all patterns does. -/
theorem tokens_eraseDups (hunion : ofPatterns patterns.eraseDups = .ok union)
    (hfull : ofPatterns patterns = .ok full)
    (hengine : union.matcher.isBacktracking = full.matcher.isBacktracking)
    (halone : ∀ pattern ∈ patterns,
      StandsAlone full.matcher.isBacktracking (caseRule patterns) pattern)
    {text : List Char} {tokens tokens' : List (List Char)} (h : union.tokens text = .ok tokens)
    (h' : full.tokens text = .ok tokens') : tokens = tokens' := by
  have hmatcher := matcher_of_engine hunion hengine
  have hmatcher' := matcher_of_engine hfull rfl
  have hrule := caseRule_eraseDups patterns
  generalize full.matcher.isBacktracking = isBacktracking at halone hmatcher hmatcher'
  cases isBacktracking with
  | true =>
    have : Nonempty Extended.Parsed := ⟨⟨.empty, 0, []⟩⟩
    choose! alone halone using halone
    have hself : ∀ pattern ∈ patterns.eraseDups,
        ExtendedAlone (caseRule patterns.eraseDups == .ignored)
          (caseRule patterns.eraseDups == .mixed && pattern.ignoreCase) pattern
          (alone pattern) := by
      rw [hrule]
      exact fun pattern hpattern => halone pattern (List.mem_eraseDups.mp hpattern)
    obtain ⟨hjoint, hlimit⟩ := isJoint_extended hself hmatcher
    obtain ⟨hjoint', hlimit'⟩ := isJoint_extended halone hmatcher'
    have hhard : anyHardPattern alone patterns.eraseDups = anyHardPattern alone patterns :=
      any_eraseDups patterns _
    rw [hhard] at hjoint hlimit
    exact hjoint.tokens_eq hjoint' (hlimit.trans hlimit'.symm) h h'
  | false =>
    have : Nonempty (Regular.Ast × Nat) := ⟨.empty, 0⟩
    choose! alone halone using halone
    have hself : ∀ pattern ∈ patterns.eraseDups,
        RegularAlone (caseRule patterns.eraseDups == .mixed && pattern.ignoreCase) pattern
          (alone pattern).1 (alone pattern).2 := by
      rw [hrule]
      exact fun pattern hpattern => halone pattern (List.mem_eraseDups.mp hpattern)
    obtain ⟨hjoint, hlimit⟩ := isJoint_regular hself hmatcher
    obtain ⟨hjoint', hlimit'⟩ := isJoint_regular halone hmatcher'
    rw [hrule] at hjoint
    exact hjoint.tokens_eq hjoint' (hlimit.trans hlimit'.symm) h h'

end Union

namespace Lexer

variable {grammar : Grammar} {lexer : Lexer} {full : Union}

/-- A lexer, which leaves out repeated patterns, cuts every source as the union of all patterns
does. -/
theorem tokenize_repeats (hlexer : ofGrammar grammar = .ok lexer)
    (hfull : Union.ofPatterns (grammar.rules.map Rule.pattern) = .ok full)
    (hengine : lexer.tokenizer.matcher.isBacktracking = full.matcher.isBacktracking)
    (halone : ∀ pattern ∈ grammar.rules.map Rule.pattern, Union.StandsAlone
      full.matcher.isBacktracking (Union.caseRule (grammar.rules.map Rule.pattern)) pattern)
    {source : List Char} {tokens tokens' : List (List Char)}
    (h : lexer.tokenize source = .ok tokens) (h' : full.tokens source = .ok tokens') :
    tokens = tokens' :=
  Union.tokens_eraseDups (ofGrammar_eq_ok hlexer).2.2.1 hfull hengine halone h h'

/-- Patterns with references, one of which is repeated. -/
def repeatedDoubles : Grammar where
  shortcuts := []
  fallbacks := ["(a)\\1", "(b)\\1", "(a)\\1", "(c)\\1"].map fun source =>
    ⟨.plain, .ofSource source, []⟩

/-- Without the repeated pattern, the last one refers to another group. -/
theorem tokenize_repeats_doubles :
    ∃ lexer full tokens, ofGrammar repeatedDoubles = .ok lexer ∧
      Union.ofPatterns (repeatedDoubles.rules.map Rule.pattern) = .ok full ∧
      lexer.tokenizer.matcher.source = "(?:(a)\\1)|(?:(b)\\2)|(?:(c)\\3)|(?s:.)" ∧
      full.matcher.source = "(?:(a)\\1)|(?:(b)\\2)|(?:(a)\\3)|(?:(c)\\4)|(?s:.)" ∧
      lexer.tokenize "ccaab".toList = .ok tokens ∧ full.tokens "ccaab".toList = .ok tokens := by
  have hok : ∀ {ε α : Type} {found : Except ε α} {value : α},
      found.toOption = some value → found = .ok value := by
    intro ε α found value h
    cases found with
    | error failure => cases h
    | ok found =>
      cases h
      rfl
  have hlexer : (ofGrammar repeatedDoubles).toOption.map (fun lexer =>
      (lexer.tokenizer.matcher.isBacktracking, lexer.tokenizer.matcher.source,
        (lexer.tokenize "ccaab".toList).toOption.isSome))
      = some (true, "(?:(a)\\1)|(?:(b)\\2)|(?:(c)\\3)|(?s:.)", true) := by decide +kernel
  have hfull : (Union.ofPatterns (repeatedDoubles.rules.map Rule.pattern)).toOption.map (fun full =>
      (full.matcher.isBacktracking, full.matcher.source,
        (full.tokens "ccaab".toList).toOption.isSome))
      = some (true, "(?:(a)\\1)|(?:(b)\\2)|(?:(a)\\3)|(?:(c)\\4)|(?s:.)", true) := by decide +kernel
  have halone : (repeatedDoubles.rules.map Rule.pattern).all
      (Union.readsAlone 6 20 (Union.caseRule (repeatedDoubles.rules.map Rule.pattern))) = true := by
    decide +kernel
  obtain ⟨lexer, hcompiled, hlexer⟩ := Option.map_eq_some_iff.mp hlexer
  obtain ⟨full, hunion, hfull⟩ := Option.map_eq_some_iff.mp hfull
  simp only [Prod.mk.injEq, Option.isSome_iff_exists] at hlexer hfull
  obtain ⟨hkind, hsource, tokens, htokens⟩ := hlexer
  obtain ⟨hkind', hsource', tokens', htokens'⟩ := hfull
  have hsame : tokens = tokens' :=
    tokenize_repeats (hok hcompiled) (hok hunion) (hkind.trans hkind'.symm)
      (fun pattern hpattern => hkind' ▸
        Union.standsAlone_of_readsAlone (List.all_eq_true.mp halone pattern hpattern))
      (hok htokens) (hok htokens')
  exact ⟨lexer, full, tokens, hok hcompiled, hok hunion, hsource, hsource', hok htokens,
    hsame ▸ hok htokens'⟩

end Lexer

end Highlighter
