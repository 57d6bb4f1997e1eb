import Highlighter.Proofs.Lexer.Shortcuts

/-!
# How a token is classified

A token is tried on the last rule that names its first character, if
there is one, and then on all fallback rules in order
(`Grammar.tried`). The lexer leaves that rule out where it comes again
as a fallback rule; this makes no difference, since it has not matched
before (`classifyBy_filter`).

So `classify_follows`: the first of these rules that matches gives the
style and the groups, and no other shortcut rule has a say.
-/

set_option autoImplicit false

namespace Highlighter

/-- The last rule that names a character. -/
def Rule.lastNaming? (rules : List Rule) (c : Char) : Option Rule :=
  rules.reverse.find? fun rule => rule.shortcut.contains c

/-- The rules that a token is tried on, in order. -/
def Grammar.tried (grammar : Grammar) (token : List Char) : List Rule :=
  (token.head?.bind (Rule.lastNaming? grammar.rules)).toList ++ grammar.fallbacks

/-- What comes of matching the pattern of a rule, compiled by itself, at
the start of a token. -/
def Rule.Answers (rule : Rule) (token : List Char)
    (answer : Except Failure (Option Regex.Captures)) : Prop :=
  ∃ matcher, Regex.Matcher.ofPattern rule.pattern.anchored = .ok matcher ∧
    matcher.captures token = answer

/-- Of some rules, the ones before `rule` do not match a token, and that
one gives an answer. -/
def Rule.AnswersFirst (rules : List Rule) (token : List Char) (rule : Rule)
    (answer : Except Failure (Option Regex.Captures)) : Prop :=
  ∃ before after, rules = before ++ rule :: after ∧
    (∀ other ∈ before, other.Answers token (.ok none)) ∧ rule.Answers token answer

/-- What some rules make of a token together. -/
inductive Rule.Verdict (rules : List Rule) (token : List Char) :
    Except Failure Classification → Prop where
  /-- No rule matches. -/
  | plain (h : ∀ rule ∈ rules, rule.Answers token (.ok none)) :
    Verdict rules token (.ok ⟨.plain, none⟩)
  /-- The first rule that matches gives the style and the groups. -/
  | styled {rule : Rule} {captures : Regex.Captures}
    (h : AnswersFirst rules token rule (.ok (some captures))) :
    Verdict rules token (.ok ⟨rule.style, some captures⟩)
  /-- A rule cannot be matched through, and none before it matches. -/
  | failing {rule : Rule} {failure : Failure}
    (h : AnswersFirst rules token rule (.error failure)) :
    Verdict rules token (.error failure)

/-! ### The rules that a token is tried on -/

namespace Rule

variable {rules : List Rule} {rule : Rule} {c : Char} {number : Nat}

theorem lastNaming?_concat {last : Rule} : lastNaming? (rules ++ [last]) c
    = if c ∈ last.shortcut then some last else lastNaming? rules c := by
  rw [lastNaming?, List.reverse_concat, List.find?_cons]
  by_cases hc : c ∈ last.shortcut
  · rw [if_pos hc, List.contains_iff_mem.mpr hc]
  · rw [if_neg hc, Bool.eq_false_iff.mpr (mt List.contains_iff_mem.mp hc)]
    rfl

theorem IsLastNaming.lastNaming?_eq (h : IsLastNaming rules c number rule) :
    lastNaming? rules c = some rule := by
  induction rules using List.reverseRecOn with
  | nil => cases h.1
  | append_singleton rules last ih =>
    rw [lastNaming?_concat]
    rw [isLastNaming_concat] at h
    split
    · rename_i hc
      rw [if_pos hc] at h
      rw [h.2]
    · rename_i hc
      rw [if_neg hc] at h
      exact ih h

theorem exists_of_lastNaming? (h : lastNaming? rules c = some rule) :
    ∃ number, IsLastNaming rules c number rule := by
  have hmem := List.mem_reverse.mp (List.mem_of_find?_eq_some h)
  have hnamed := List.find?_some (p := fun rule : Rule => rule.shortcut.contains c) h
  obtain ⟨number, last, hlast⟩ := exists_isLastNaming hmem (List.contains_iff_mem.mp hnamed)
  rw [hlast.lastNaming?_eq] at h
  cases h
  exact ⟨number, hlast⟩

end Rule

namespace Lexer

variable {grammar : Grammar} {lexer : Lexer} {token : List Char}

/-- Entries from a number on are those of what is left when as many have
been dropped. -/
theorem filter_zipIdx {α : Type} (xs : List α) (start : Nat) (p : α × Nat → Bool) :
    (xs.zipIdx.filter fun entry => start ≤ entry.2 && p entry)
      = ((xs.drop start).zipIdx start).filter p := by
  rcases Nat.le_total xs.length start with hle | hle
  · rw [List.drop_of_length_le hle, List.zipIdx_nil, List.filter_nil, List.filter_eq_nil_iff]
    intro entry hentry
    have hlt := List.snd_lt_of_mem_zipIdx hentry
    have hbefore : ¬start ≤ entry.2 := by omega
    simp only [hbefore, decide_false, Bool.false_and, Bool.false_eq_true, not_false_eq_true]
  · conv => lhs; rw [← List.take_append_drop start xs]
    rw [List.zipIdx_append, List.filter_append, List.length_take, Nat.min_eq_left hle, Nat.zero_add]
    have hbefore : (xs.take start).zipIdx.filter (fun entry => start ≤ entry.2 && p entry) = [] := by
      rw [List.filter_eq_nil_iff]
      intro entry hentry
      have hlt := List.snd_lt_of_mem_zipIdx hentry
      rw [List.length_take] at hlt
      have hnot : ¬start ≤ entry.2 := by omega
      simp only [hnot, decide_false, Bool.false_and, Bool.false_eq_true, not_false_eq_true]
    rw [hbefore, List.nil_append]
    refine List.filter_congr fun entry hentry => ?_
    simp only [List.le_snd_of_mem_zipIdx hentry, decide_true, Bool.true_and]

/-- Rules that do not match may be left out. -/
theorem classifyBy_filter {entries : List (CompiledRule × Nat)} {p : CompiledRule × Nat → Bool}
    (h : ∀ entry ∈ entries, p entry = false → entry.1.matcher.captures token = .ok none) :
    classifyBy token ((entries.filter p).map Prod.fst) = classifyBy token (entries.map Prod.fst) := by
  induction entries with
  | nil => rfl
  | cons entry entries ih =>
    have hrest := ih fun other hother => h other (List.mem_cons_of_mem entry hother)
    rw [List.filter_cons]
    split
    · rw [List.map_cons, List.map_cons, classifyBy, classifyBy, hrest]
    · rename_i hp
      rw [List.map_cons, classifyBy, h entry List.mem_cons_self (Bool.eq_false_iff.mpr hp), hrest]

/-- The rule that comes first may come again. -/
theorem classify_eq (lexer : Lexer) (token : List Char) :
    lexer.classify token = classifyBy token
      (((lexer.shortcutRule? token).bind (lexer.rules[·]?)).toList ++
        lexer.rules.drop lexer.fallbackStart) := by
  have hcandidates : lexer.candidates token
      = ((lexer.shortcutRule? token).bind (lexer.rules[·]?)).toList ++
        (((lexer.rules.drop lexer.fallbackStart).zipIdx lexer.fallbackStart).filter fun entry =>
          lexer.shortcutRule? token != some entry.2).map Prod.fst := by
    rw [← filter_zipIdx lexer.rules lexer.fallbackStart
      fun entry => lexer.shortcutRule? token != some entry.2]
    rfl
  -- What is left out is the rule that came first.
  have hleft : ∀ entry ∈ (lexer.rules.drop lexer.fallbackStart).zipIdx lexer.fallbackStart,
      (lexer.shortcutRule? token != some entry.2) = false →
        (lexer.shortcutRule? token).bind (lexer.rules[·]?) = some entry.1 := by
    intro entry hentry hp
    obtain ⟨hle, hrule⟩ := List.mk_mem_zipIdx_iff_le_and_getElem?_sub.mp hentry
    rw [List.getElem?_drop, Nat.add_sub_cancel' hle] at hrule
    rw [bne_eq_false_iff_eq.mp hp]
    exact hrule
  rw [classify, hcandidates]
  cases hrule : (lexer.shortcutRule? token).bind (lexer.rules[·]?) with
  | none =>
    rw [Option.toList_none, List.nil_append, List.nil_append, classifyBy_filter,
      List.zipIdx_map_fst]
    intro entry hentry hp
    rw [hleft entry hentry hp] at hrule
    cases hrule
  | some compiled =>
    rw [Option.toList_some, List.cons_append, List.cons_append, List.nil_append, List.nil_append,
      classifyBy, classifyBy]
    split
    · rfl
    · rfl
    · rename_i hnone
      rw [classifyBy_filter, List.zipIdx_map_fst]
      intro entry hentry hp
      rw [hleft entry hentry hp] at hrule
      cases hrule
      exact hnone

/-- The rules that a token is tried on are those that the grammar says,
compiled. -/
theorem exists_compiled (h : ofGrammar grammar = .ok lexer) (token : List Char) :
    ∃ rules, List.Forall₂ (fun rule compiled => CompiledRule.ofRule rule = .ok compiled)
        (grammar.tried token) rules ∧ lexer.classify token = classifyBy token rules := by
  obtain ⟨-, hrules, -, hstart⟩ := ofGrammar_eq_ok h
  have hfallbacks : List.Forall₂ (fun rule compiled => CompiledRule.ofRule rule = .ok compiled)
      grammar.fallbacks (lexer.rules.drop lexer.fallbackStart) := by
    have hdrop := List.forall₂_drop grammar.shortcuts.length (forall₂_of_mapM hrules)
    rw [Grammar.rules, List.drop_left] at hdrop
    rw [hstart]
    exact hdrop
  refine ⟨_, ?_, classify_eq lexer token⟩
  refine List.rel_append ?_ hfallbacks
  cases token with
  | nil => exact .nil
  | cons c token =>
    rw [List.head?_cons, Option.bind_some]
    cases hnaming : Rule.lastNaming? grammar.rules c with
    | none =>
      have hnone : lexer.shortcutRule? (c :: token) = none := by
        refine Option.eq_none_iff_forall_ne_some.mpr fun number hnumber => ?_
        obtain ⟨rule, hlast⟩ := (shortcutRule?_eq_some_iff h).mp hnumber
        rw [hlast.lastNaming?_eq] at hnaming
        cases hnaming
      rw [hnone]
      exact .nil
    | some rule =>
      obtain ⟨number, hlast⟩ := Rule.exists_of_lastNaming? hnaming
      obtain ⟨compiled, hcompiled, hof⟩ := getElem?_rules h hlast.1
      rw [(shortcutRule?_eq_some_iff h).mpr ⟨rule, hlast⟩, Option.bind_some, hcompiled]
      exact .cons hof .nil

/-! ### Which rule decides -/

/-- What a compiled rule answers is what its rule answers. -/
theorem answers_iff {rule : Rule} {compiled : CompiledRule}
    (h : CompiledRule.ofRule rule = .ok compiled)
    {answer : Except Failure (Option Regex.Captures)} :
    rule.Answers token answer ↔ compiled.matcher.captures token = answer := by
  obtain ⟨matcher, hmatcher, heq⟩ := bind_eq_ok_iff.mp h
  cases heq
  constructor
  · rintro ⟨other, hother, hanswer⟩
    rw [hmatcher] at hother
    cases hother
    exact hanswer
  · intro hanswer
    exact ⟨matcher, hmatcher, hanswer⟩

theorem style_eq {rule : Rule} {compiled : CompiledRule}
    (h : CompiledRule.ofRule rule = .ok compiled) : compiled.style = rule.style := by
  obtain ⟨matcher, -, heq⟩ := bind_eq_ok_iff.mp h
  cases heq
  rfl

/-- A rule that does not match leaves the answer to the others. -/
theorem verdict_cons {rule : Rule} {rules : List Rule} {answer : Except Failure Classification}
    (hrule : rule.Answers token (.ok none)) (h : Rule.Verdict rules token answer) :
    Rule.Verdict (rule :: rules) token answer := by
  have hfirst : ∀ {found : Rule} {given : Except Failure (Option Regex.Captures)},
      Rule.AnswersFirst rules token found given →
        Rule.AnswersFirst (rule :: rules) token found given := by
    rintro found given ⟨before, after, rfl, hbefore, hfound⟩
    exact ⟨rule :: before, after, rfl, List.forall_mem_cons.mpr ⟨hrule, hbefore⟩, hfound⟩
  cases h with
  | plain h => exact .plain (List.forall_mem_cons.mpr ⟨hrule, h⟩)
  | styled h => exact .styled (hfirst h)
  | failing h => exact .failing (hfirst h)

/-- Compiled rules give the answer that their rules give together. -/
theorem verdict_classifyBy {rules : List Rule} {compiled : List CompiledRule}
    (h : List.Forall₂ (fun rule compiled => CompiledRule.ofRule rule = .ok compiled)
      rules compiled) : Rule.Verdict rules token (classifyBy token compiled) := by
  induction h with
  | nil => exact .plain fun _ hmem => nomatch hmem
  | @cons rule compiled rules others hrule hrest ih =>
    rw [classifyBy]
    split
    · rename_i failure hfailure
      exact .failing ⟨[], rules, rfl, List.forall_mem_nil _, (answers_iff hrule).mpr hfailure⟩
    · rename_i captures hcaptures
      rw [style_eq hrule]
      exact .styled ⟨[], rules, rfl, List.forall_mem_nil _, (answers_iff hrule).mpr hcaptures⟩
    · rename_i hnone
      exact verdict_cons ((answers_iff hrule).mpr hnone) ih

end Lexer

/-! ### There is one answer -/

namespace Rule

variable {rules : List Rule} {rule other : Rule} {token : List Char}
  {answer given : Except Failure (Option Regex.Captures)}

theorem Answers.unique (h : rule.Answers token answer) (h' : rule.Answers token given) :
    answer = given := by
  obtain ⟨matcher, hmatcher, rfl⟩ := h
  obtain ⟨same, hsame, rfl⟩ := h'
  rw [hmatcher] at hsame
  cases hsame
  rfl

/-- Two rules that are the first to answer otherwise are the same. -/
theorem AnswersFirst.unique (h : AnswersFirst rules token rule answer)
    (h' : AnswersFirst rules token other given) (hne : answer ≠ .ok none) (hne' : given ≠ .ok none) :
    rule = other ∧ answer = given := by
  obtain ⟨before, after, rfl, hbefore, hrule⟩ := h
  obtain ⟨before', after', hsplit, hbefore', hother⟩ := h'
  induction before generalizing before' with
  | nil =>
    cases before' with
    | nil =>
      cases hsplit
      exact ⟨rfl, hrule.unique hother⟩
    | cons first before' =>
      cases hsplit
      exact absurd (hrule.unique (hbefore' rule List.mem_cons_self)) hne
  | cons first before ih =>
    cases before' with
    | nil =>
      cases hsplit
      exact absurd (hother.unique (hbefore other List.mem_cons_self)) hne'
    | cons first' before' =>
      obtain ⟨-, hsplit⟩ := List.cons.inj hsplit
      exact ih (List.forall_mem_cons.mp hbefore).2 before' hsplit
        (List.forall_mem_cons.mp hbefore').2

theorem Verdict.unique {first second : Except Failure Classification}
    (h : Verdict rules token first) (h' : Verdict rules token second) : first = second := by
  -- A rule that answers first does not match or does, and the others would miss it.
  have hclash : ∀ {found : Rule} {answer : Except Failure (Option Regex.Captures)},
      AnswersFirst rules token found answer → answer ≠ .ok none →
        ¬∀ rule ∈ rules, rule.Answers token (.ok none) := by
    rintro found answer ⟨before, after, rfl, -, hfound⟩ hne hall
    exact hne (hfound.unique (hall found (by simp)))
  cases h with
  | plain h =>
    cases h' with
    | plain h' => rfl
    | styled h' => exact absurd h (hclash h' (by simp))
    | failing h' => exact absurd h (hclash h' (by simp))
  | styled h =>
    cases h' with
    | plain h' => exact absurd h' (hclash h (by simp))
    | styled h' =>
      obtain ⟨rfl, heq⟩ := h.unique h' (by simp) (by simp)
      cases heq
      rfl
    | failing h' => cases (h.unique h' (by simp) (by simp)).2
  | failing h =>
    cases h' with
    | plain h' => exact absurd h' (hclash h (by simp))
    | styled h' => cases (h.unique h' (by simp) (by simp)).2
    | failing h' =>
      cases (h.unique h' (by simp) (by simp)).2
      rfl

end Rule

namespace Lexer

variable {grammar : Grammar} {lexer : Lexer}

/-- A token is classified by the last rule that names its first
character, if there is one, and then by all fallback rules in order: the
first of them that matches decides. All other rules may be changed. -/
theorem classify_follows (h : ofGrammar grammar = .ok lexer) (token : List Char) :
    (∀ answer, lexer.classify token = answer ↔ Rule.Verdict (grammar.tried token) token answer) ∧
      ∀ other changed, ofGrammar other = .ok changed →
        other.tried token = grammar.tried token → changed.classify token = lexer.classify token := by
  have hverdict : ∀ {grammar : Grammar} {lexer : Lexer}, ofGrammar grammar = .ok lexer →
      Rule.Verdict (grammar.tried token) token (lexer.classify token) := by
    intro grammar lexer h
    obtain ⟨rules, hrules, hclassify⟩ := exists_compiled h token
    rw [hclassify]
    exact verdict_classifyBy hrules
  refine ⟨fun answer => ⟨?_, (hverdict h).unique⟩, fun other changed hchanged htried => ?_⟩
  · rintro rfl
    exact hverdict h
  · have hsame := hverdict hchanged
    rw [htried] at hsame
    exact hsame.unique (hverdict h)

/-! ### A token whose shortcut rule does not match -/

/-- Comments are found by their first character, and so are signs, which
are also tried on all other tokens. -/
def signedOrComment : Grammar where
  shortcuts := [⟨.comment, .ofSource "^--[^\n]*", ['-']⟩]
  fallbacks := [⟨.literal, .ofSource "^[0-9]", []⟩, ⟨.punctuation, .ofSource "^[-+]", ['+']⟩]

/-- A single hyphen is no comment, so the second fallback rule decides. -/
theorem classify_follows_hyphen :
    ∃ lexer, ofGrammar signedOrComment = .ok lexer ∧
      Rule.Verdict (signedOrComment.tried ['-']) ['-']
        (.ok ⟨.punctuation, some ⟨⟨0, 1, by omega⟩, none, none⟩⟩) := by
  have hclassify : (ofGrammar signedOrComment).toOption.map (fun lexer =>
      (lexer.classify ['-']).toOption)
      = some (some ⟨.punctuation, some ⟨⟨0, 1, by omega⟩, none, none⟩⟩) := by decide +kernel
  cases hlexer : ofGrammar signedOrComment with
  | error error =>
    rw [hlexer] at hclassify
    cases hclassify
  | ok lexer =>
    rw [hlexer] at hclassify
    refine ⟨lexer, rfl, ((classify_follows hlexer ['-']).1 _).mp ?_⟩
    cases hanswer : lexer.classify ['-'] with
    | error failure =>
      rw [Except.toOption, Option.map_some, hanswer] at hclassify
      cases hclassify
    | ok classified =>
      rw [Except.toOption, Option.map_some, hanswer] at hclassify
      rw [Option.some.inj (Option.some.inj hclassify)]

end Lexer

end Highlighter
