import Highlighter.Proofs.Embedding.Termination
import Highlighter.Proofs.Regex.Extent
import Highlighter.Proofs.Registry.Described

/-!
# Tokens that are handed on as a whole

Most rules for embeddings leave something out of the part of the token
that they hand on, whatever the token is. Those that may hand on all of
it are known with the languages that they hand it on to
(`Rule.wholeOnlyTo`).

A registry hands whole tokens on at most once if they only go to some
inner languages, and no rule of those hands on a whole token
(`Registry.WholeOnce`). Compiling keeps that. Lexers then have ranks
that fall: those of inner languages come last, before them those of the
registry, and before these all others (`Lexer.stage`).
-/

set_option autoImplicit false

namespace Highlighter

variable {inner languages : List String} {token : List Char} {language : Option String}

/-! ### Rules and lexers -/

/-- Whether a token is handed on with nothing before its region and
nothing after it. -/
def Lexer.HandsWhole (lexer : Lexer) (token : List Char) (language : Option String) : Prop :=
  ∃ classified cut, lexer.classify token = .ok classified ∧
    handedOn? token classified = some (language, cut) ∧ cut.body = token

/-- Whether whole tokens are handed on to some languages only. -/
def Lexer.WholeOnlyTo (languages : List String) (lexer : Lexer) : Prop :=
  ∀ token language, lexer.HandsWhole token language → ∃ id ∈ languages, language = some id

/-- Whether a rule hands whole tokens on to some languages only, as far
as its pattern shows. A pattern that cannot be read is never
compiled. -/
def Rule.wholeOnlyTo (languages : List String) (rule : Rule) : Bool :=
  !rule.style.isEmbedded || languages.any (rule.style.language? == some ·) ||
    (Regex.Matcher.ofPattern? rule.pattern.anchored).all Regex.Matcher.leavesOut

mutual

/-- Whether a grammar hands whole tokens on to some languages only, and
all that come with it. -/
def Grammar.wholeOnlyTo (languages : List String) : Grammar → Bool
  | ⟨shortcuts, fallbacks, auxiliary⟩ =>
    (shortcuts ++ fallbacks).all (Rule.wholeOnlyTo languages) &&
      Named.allWholeOnlyTo languages auxiliary

/-- Whether some grammars do. -/
def Named.allWholeOnlyTo (languages : List String) : List (Named Grammar) → Bool
  | [] => true
  | ⟨_, grammar⟩ :: rest =>
    grammar.wholeOnlyTo languages && Named.allWholeOnlyTo languages rest

end

theorem Named.allWholeOnlyTo_iff {list : List (Named Grammar)} :
    Named.allWholeOnlyTo languages list = true ↔
      ∀ named ∈ list, named.grammar.wholeOnlyTo languages = true := by
  induction list with
  | nil => simp [Named.allWholeOnlyTo]
  | cons first rest ih =>
    obtain ⟨ids, grammar⟩ := first
    rw [Named.allWholeOnlyTo, Bool.and_eq_true, ih, List.forall_mem_cons]

theorem Grammar.wholeOnlyTo_iff {grammar : Grammar} :
    grammar.wholeOnlyTo languages = true ↔
      grammar.rules.all (Rule.wholeOnlyTo languages) = true ∧
        ∀ named ∈ grammar.auxiliary, named.grammar.wholeOnlyTo languages = true := by
  cases grammar
  rw [Grammar.wholeOnlyTo, Bool.and_eq_true, Named.allWholeOnlyTo_iff]
  rfl

/-- A lexer hands whole tokens on only where its rules do. -/
theorem Lexer.wholeOnlyTo_of_rules {grammar : Grammar} {lexer : Lexer}
    (hlexer : Lexer.ofGrammar grammar = .ok lexer)
    (hrules : grammar.rules.all (Rule.wholeOnlyTo languages) = true) :
    lexer.WholeOnlyTo languages := by
  rintro token language ⟨classified, cut, hclass, hcut, hbody⟩
  obtain ⟨compiled, captures, group, hmem, hcaptures, hembedded, rfl, hfirst, hlength, hpos⟩ :=
    exists_rule_of_handedOn? hclass hcut
  obtain ⟨rule, hrule, hstyle, hmatcher⟩ := Lexer.exists_rule hlexer hmem
  have hcheck := List.all_eq_true.mp hrules rule hrule
  unfold Rule.wholeOnlyTo at hcheck
  rw [← hstyle, hembedded, Bool.not_true, Bool.false_or, Bool.or_eq_true] at hcheck
  rcases hcheck with htag | hleaves
  · obtain ⟨id, hid, hsame⟩ := List.any_eq_true.mp htag
    exact ⟨id, hid, beq_iff_eq.mp hsame⟩
  · -- The region is as long as the first group, which is shorter than the token.
    have hmatcher? : Regex.Matcher.ofPattern? rule.pattern.anchored = some compiled.matcher := by
      unfold Regex.Matcher.ofPattern at hmatcher
      split at hmatcher
      · cases hmatcher
        assumption
      · cases hmatcher
    rw [hmatcher?] at hleaves
    have hlt := Regex.Matcher.first_lt_of_leavesOut hleaves hcaptures hfirst hpos
    rw [hbody] at hlength
    omega

/-! ### Registries -/

/-- Whole tokens are handed on to some inner languages only, which hand
no whole tokens on. -/
structure Registry.WholeOnce (inner : List String) (registry : Registry) : Prop where
  described : registry.Described fun grammar => grammar.wholeOnlyTo inner = true
  inner : ∀ id ∈ inner, ∃ number slot grammar, registry.slotOf? id = some number ∧
    registry.slots[number]? = some slot ∧ slot.grammar = some grammar ∧
    grammar.rules.all (Rule.wholeOnlyTo []) = true

namespace Registry

variable {start registry after : Registry} {resolved : Resolved} {source : List Char}

/-- Compiling more grammars keeps it. -/
theorem keeps_wholeOnce (inner : List String) : Keeps (WholeOnce inner) := by
  intro registry number lexer after h hlexer
  have hdescribed : Keeps (Described fun grammar => grammar.wholeOnlyTo inner = true) :=
    keeps_described fun grammar hgrammar => (Grammar.wholeOnlyTo_iff.mp hgrammar).2
  refine ⟨hdescribed registry number lexer after h.described hlexer, fun id hid => ?_⟩
  -- The slots of the inner languages keep their numbers and their grammars.
  obtain ⟨number, slot, grammar, hnumber, hslot, hgrammar, hrules⟩ := h.inner id hid
  have hgrows := growsTo_lexerOf hlexer
  obtain ⟨later, hlater, hbecomes⟩ := hgrows.becomes number slot hslot
  exact ⟨number, later, grammar, hgrows.slotOf?_eq id number hnumber, hlater,
    hbecomes.grammar_eq.trans hgrammar, hrules⟩

theorem WholeOnce.wholeOnlyTo (h : registry.WholeOnce inner)
    (hresolved : registry.resolve language source = (.ok resolved, after)) :
    resolved.lexer.WholeOnlyTo inner := by
  have hafter := (keeps_wholeOnce inner).resolve h language source
  rw [hresolved] at hafter
  obtain ⟨slot, grammar, -, -, hgrammar, hlexer⟩ := hafter.described.exists_grammar hresolved
  exact Lexer.wholeOnlyTo_of_rules hlexer (Grammar.wholeOnlyTo_iff.mp hgrammar).1

theorem WholeOnce.wholeOnlyTo_nil (h : registry.WholeOnce inner) {id : String} (hid : id ∈ inner)
    (hresolved : registry.resolve (some id) source = (.ok resolved, after)) :
    resolved.lexer.WholeOnlyTo [] := by
  have hafter := (keeps_wholeOnce inner).resolve h (some id) source
  rw [hresolved] at hafter
  obtain ⟨number, -, -, hnumber, -⟩ := h.inner id hid
  obtain ⟨number', slot', grammar', hnumber', hslot', hgrammar', hrules⟩ := hafter.inner id hid
  obtain ⟨slot, grammar, hslot, hgrammar, -, hlexer⟩ := hafter.described.exists_grammar hresolved
  -- The lexer is the one of the slot that the identifier has.
  have hgrows := growsTo_resolve registry (some id) source
  rw [hresolved] at hgrows
  have hsame : number' = resolved.number := by
    have hfor := (exists_slot_of_resolve hresolved).1
    have hlater := hgrows.slotOf?_eq id number hnumber
    unfold slotFor at hfor
    rw [Option.bind_some, hnumber] at hfor
    rw [hnumber'] at hlater
    exact (Option.some.inj hlater).trans (Except.ok.inj hfor)
  subst hsame
  rw [hslot] at hslot'
  cases hslot'
  rw [hgrammar] at hgrammar'
  cases hgrammar'
  exact Lexer.wholeOnlyTo_of_rules hlexer hrules

end Registry

/-! ### Ranks -/

open scoped Classical in
/-- How often a token may still be handed on as a whole, if the lexer is
one of a registry. All other lexers come before those. -/
noncomputable def Lexer.stage (inner : List String) (lexer : Lexer) : Nat :=
  if lexer.WholeOnlyTo [] then 0 else if lexer.WholeOnlyTo inner then 1 else 2

theorem Lexer.stage_le (inner : List String) (lexer : Lexer) : lexer.stage inner ≤ 2 := by
  unfold stage
  split
  · exact Nat.zero_le _
  · split
    · exact Nat.le_succ 1
    · exact Nat.le_refl _

/-- The stages are ranks. -/
theorem Registry.WholeOnce.rankFalls {start : Registry} (h : start.WholeOnce inner) :
    start.RankFalls (Lexer.stage inner) := by
  intro call token language cut place registry after resolved hhands hbody hleads hresolved
  obtain ⟨classified, hclass, hcut⟩ := hhands.handed
  have hwhole : call.lexer.HandsWhole token language := ⟨classified, cut, hclass, hcut, hbody⟩
  have hregistry := hleads.keeps (keeps_wholeOnce inner) h
  have hnotLast : ¬call.lexer.WholeOnlyTo [] := by
    intro hlast
    obtain ⟨id, hid, -⟩ := hlast token language hwhole
    cases hid
  unfold Lexer.stage
  rw [if_neg hnotLast]
  -- The lexer hands a token on as a whole, so it is not at the last stage.
  by_cases hinner : call.lexer.WholeOnlyTo inner
  · -- The token goes to an inner language.
    obtain ⟨id, hid, rfl⟩ := hinner token language hwhole
    rw [if_pos hinner, if_pos (hregistry.wholeOnlyTo_nil hid hresolved)]
    exact Nat.one_pos
  · -- No lexer of the registry, but the region gets one that is.
    rw [if_neg hinner, if_pos (hregistry.wholeOnlyTo hresolved)]
    split
    · exact Nat.two_pos
    · exact Nat.one_lt_two

end Highlighter
