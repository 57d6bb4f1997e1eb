import Highlighter.Proofs.Lexer.Rules
import Highlighter.Proofs.Registry.Growth
import Mathlib.Data.List.Induction

/-!
# Shortcut characters

A character leads to the last rule that names it, and all rules that
name it have to agree on its style. Characters are entered one by one,
and each is compared with the latest rule that names it only. That
suffices, since those before it agree with one another
(`Entered.on?_eq`).

* `enter_rules`: rules that agree are entered, and each character leads
  to the last rule that names it.
* `enter_firstConflict`: other rules are refused at the first character
  that a rule names against an earlier one.
* `conflicts_found`: so a grammar is refused for its shortcuts exactly
  if two of its rules do not agree, whatever else is wrong with it.
-/

set_option autoImplicit false

namespace Highlighter

/-! ### Rules that agree -/

/-- Rules that name a character in common have one style. -/
def Rule.Agree (rules : List Rule) : Prop :=
  ∀ first ∈ rules, ∀ second ∈ rules, ∀ c ∈ first.shortcut, c ∈ second.shortcut →
    first.style = second.style

/-- Two rules of different styles name a character in common. -/
def Rule.Conflict (rules : List Rule) : Prop :=
  ∃ first ∈ rules, ∃ second ∈ rules, ∃ c, c ∈ first.shortcut ∧ c ∈ second.shortcut ∧
    first.style ≠ second.style

/-- Going through the rules in order, and through the characters of each
in order, `c` is the first one that an earlier rule names with another
style. All earlier rules that name it have the style `first`; the rule
where it is met has the style `second`. -/
def Rule.FirstConflict (rules : List Rule) (c : Char) (first second : Style) : Prop :=
  ∃ before rule after chars others,
    rules = before ++ rule :: after ∧ rule.shortcut = chars ++ c :: others ∧
      rule.style = second ∧ first ≠ second ∧
      Rule.Agree (before ++ [{ rule with shortcut := chars }]) ∧
      (∃ earlier ∈ before, c ∈ earlier.shortcut) ∧
      ∀ earlier ∈ before, c ∈ earlier.shortcut → earlier.style = first

/-- A rule is the last one that names a character. -/
def Rule.IsLastNaming (rules : List Rule) (c : Char) (number : Nat) (rule : Rule) : Prop :=
  rules[number]? = some rule ∧ c ∈ rule.shortcut ∧
    ∀ later other, rules[later]? = some other → c ∈ other.shortcut → later ≤ number

namespace Rule

variable {rules : List Rule} {rule : Rule} {c : Char} {number : Nat}

theorem agree_nil : Agree [] := fun _ hmem => nomatch hmem

theorem Agree.of_subset {others : List Rule} (h : Agree rules) (hsubset : ∀ rule ∈ others,
    ∃ whole ∈ rules, whole.style = rule.style ∧ ∀ c ∈ rule.shortcut, c ∈ whole.shortcut) :
    Agree others := by
  intro first hfirst second hsecond c hc hc'
  obtain ⟨whole, hwhole, hstyle, hchars⟩ := hsubset first hfirst
  obtain ⟨whole', hwhole', hstyle', hchars'⟩ := hsubset second hsecond
  rw [← hstyle, ← hstyle']
  exact h whole hwhole whole' hwhole' c (hchars c hc) (hchars' c hc')

theorem not_agree_iff : ¬Agree rules ↔ Conflict rules := by
  simp only [Agree, Conflict, not_forall]
  constructor
  · rintro ⟨first, hfirst, second, hsecond, c, hc, hc', hstyle⟩
    exact ⟨first, hfirst, second, hsecond, c, hc, hc', hstyle⟩
  · rintro ⟨first, hfirst, second, hsecond, c, hc, hc', hstyle⟩
    exact ⟨first, hfirst, second, hsecond, c, hc, hc', hstyle⟩

/-- A rule more is the last one that names its characters. -/
theorem isLastNaming_concat {last : Rule} :
    IsLastNaming (rules ++ [last]) c number rule ↔
      if c ∈ last.shortcut then number = rules.length ∧ rule = last
      else IsLastNaming rules c number rule := by
  have hlength : (rules ++ [last])[rules.length]? = some last := by simp
  have hbefore : ∀ {place : Nat} {other : Rule}, rules[place]? = some other →
      (rules ++ [last])[place]? = some other := fun hplace => by
    rw [List.getElem?_append_left (List.getElem?_eq_some_iff.mp hplace).1, hplace]
  have hcases : ∀ {place : Nat} {other : Rule}, (rules ++ [last])[place]? = some other →
      rules[place]? = some other ∨ place = rules.length ∧ other = last := by
    intro place other hplace
    rcases Nat.lt_trichotomy place rules.length with hlt | rfl | hgt
    · rw [List.getElem?_append_left hlt] at hplace
      exact .inl hplace
    · rw [hlength] at hplace
      exact .inr ⟨rfl, (Option.some.inj hplace).symm⟩
    · rw [List.getElem?_eq_none (by simp; omega)] at hplace
      cases hplace
  constructor
  · rintro ⟨hrule, hc, hlast⟩
    split
    · rename_i hnamed
      rcases hcases hrule with hrule | hrule
      · have hle := hlast rules.length last hlength hnamed
        have hlt := (List.getElem?_eq_some_iff.mp hrule).1
        omega
      · exact hrule
    · rename_i hnamed
      rcases hcases hrule with hrule | ⟨-, rfl⟩
      · exact ⟨hrule, hc, fun later other hother => hlast later other (hbefore hother)⟩
      · exact absurd hc hnamed
  · split
    · rename_i hnamed
      rintro ⟨rfl, rfl⟩
      refine ⟨hlength, hnamed, fun later other hother _ => ?_⟩
      rcases hcases hother with hother | ⟨rfl, -⟩
      · exact Nat.le_of_lt (List.getElem?_eq_some_iff.mp hother).1
      · exact Nat.le_refl _
    · rename_i hnamed
      rintro ⟨hrule, hc, hlast⟩
      refine ⟨hbefore hrule, hc, fun later other hother hc' => ?_⟩
      rcases hcases hother with hother | ⟨-, rfl⟩
      · exact hlast later other hother hc'
      · exact absurd hc' hnamed

theorem exists_isLastNaming (hmem : rule ∈ rules) (hc : c ∈ rule.shortcut) :
    ∃ number last, IsLastNaming rules c number last := by
  induction rules using List.reverseRecOn with
  | nil => cases hmem
  | append_singleton rules last ih =>
    by_cases hlast : c ∈ last.shortcut
    · exact ⟨rules.length, last, isLastNaming_concat.mpr (by rw [if_pos hlast]; exact ⟨rfl, rfl⟩)⟩
    · have hbefore : rule ∈ rules := by
        rcases List.mem_append.mp hmem with hmem | hmem
        · exact hmem
        · rw [List.mem_singleton.mp hmem] at hc
          exact absurd hc hlast
      obtain ⟨number, found, hfound⟩ := ih hbefore
      exact ⟨number, found, isLastNaming_concat.mpr (by rw [if_neg hlast]; exact hfound)⟩

/-- One rule agrees with those before it. -/
theorem Agree.concat (h : Agree rules) (hrule : ∀ c ∈ rule.shortcut, ∀ earlier ∈ rules,
    c ∈ earlier.shortcut → earlier.style = rule.style) : Agree (rules ++ [rule]) := by
  intro first hfirst second hsecond c hc hc'
  rcases List.mem_append.mp hfirst with hbefore | heq <;>
    rcases List.mem_append.mp hsecond with hbefore' | heq'
  · exact h first hbefore second hbefore' c hc hc'
  · obtain rfl := List.mem_singleton.mp heq'
    exact hrule c hc' first hbefore hc
  · obtain rfl := List.mem_singleton.mp heq
    exact (hrule c hc second hbefore' hc').symm
  · rw [List.mem_singleton.mp heq, List.mem_singleton.mp heq']

theorem Agree.of_append {others : List Rule} (h : Agree (rules ++ others)) : Agree rules :=
  h.of_subset fun rule hmem => ⟨rule, List.mem_append_left _ hmem, rfl, fun _ hc => hc⟩

theorem FirstConflict.not_agree {first second : Style} (h : FirstConflict rules c first second) :
    ¬Agree rules := by
  obtain ⟨before, rule, after, chars, others, rfl, hchars, rfl, hne, -, ⟨earlier, hearlier, hc⟩,
    hstyle⟩ := h
  intro hagree
  rw [← hstyle earlier hearlier hc] at hne
  refine hne (hagree earlier (by simp [hearlier]) rule (by simp) c hc ?_)
  rw [hchars]
  simp

/-- Rules agree, or there is a first conflict. -/
theorem agree_or_firstConflict (rules : List Rule) :
    Agree rules ∨ ∃ c first second, FirstConflict rules c first second := by
  induction rules using List.reverseRecOn with
  | nil => exact .inl agree_nil
  | append_singleton rules rule ih =>
    rcases ih with hagree | ⟨c, first, second, before, earlier, after, chars, others, rfl, hfirst⟩
    · -- The rules before agree, so what matters is the first character of
      -- this one that is named against one of them.
      cases hfind : rule.shortcut.find? fun c =>
          rules.any fun earlier => earlier.shortcut.contains c && earlier.style != rule.style with
      | none =>
        refine .inl (hagree.concat fun c hc earlier hearlier hnamed => ?_)
        have hnone := List.find?_eq_none.mp hfind c hc
        simp only [List.any_eq_true, Bool.and_eq_true, List.contains_iff_mem, bne_iff_ne,
          not_exists, not_and, not_not] at hnone
        exact hnone earlier hearlier hnamed
      | some c =>
        obtain ⟨hc, chars, others, hsplit, hchars⟩ := List.find?_eq_some_iff_append.mp hfind
        simp only [List.any_eq_true, Bool.and_eq_true, List.contains_iff_mem, bne_iff_ne] at hc
        obtain ⟨earlier, hearlier, hnamed, hstyle⟩ := hc
        refine .inr ⟨c, earlier.style, rule.style, rules, rule, [], chars, others, rfl, hsplit,
          rfl, hstyle, hagree.concat fun d hd other hother hnamed' => ?_,
          ⟨earlier, hearlier, hnamed⟩, fun other hother hnamed' =>
            hagree other hother earlier hearlier c hnamed' hnamed⟩
        have hnone := hchars d hd
        simp only [Bool.not_eq_true', List.any_eq_false, Bool.and_eq_true, List.contains_iff_mem,
          bne_iff_ne, not_and, not_not] at hnone
        exact hnone other hother hnamed'
    · refine .inr ⟨c, first, second, before, earlier, after ++ [rule], chars, others, ?_, hfirst⟩
      rw [List.append_assoc, List.cons_append]

end Rule

/-! ### Entering shortcuts -/

namespace Shortcut

open Rule

variable {before rules : List Rule} {rule : Rule} {entered rest : List Shortcut} {c : Char}
  {chars : List Char}

/-- The shortcuts of rules that agree have been entered: each character
leads to the last rule that names it. -/
structure Entered (rules : List Rule) (entered : List Shortcut) : Prop where
  agree : Rule.Agree rules
  on?_eq : ∀ c shortcut, on? c entered = some shortcut ↔
    ∃ number rule, IsLastNaming rules c number rule ∧ shortcut = ⟨c, number, rule.style⟩

theorem entered_nil : Entered [] [] where
  agree := agree_nil
  on?_eq c shortcut := by
    constructor
    · intro h
      cases h
    · rintro ⟨number, rule, ⟨hrule, -⟩, -⟩
      cases hrule

/-- A rule that names nothing makes no difference. -/
theorem Entered.bare (h : Entered before entered) (rule : Rule) :
    Entered (before ++ [{ rule with shortcut := [] }]) entered where
  agree := h.agree.concat fun _ hc => nomatch hc
  on?_eq c shortcut := by
    simp only [isLastNaming_concat, List.not_mem_nil, if_false]
    exact h.on?_eq c shortcut

/-- A character leads to the rule that has been entered for it last. -/
theorem Entered.push (h : Entered (before ++ [{ rule with shortcut := chars }]) entered)
    (hagree : Rule.Agree (before ++ [{ rule with shortcut := chars ++ [c] }])) :
    Entered (before ++ [{ rule with shortcut := chars ++ [c] }])
      (⟨c, before.length, rule.style⟩ :: entered) where
  agree := hagree
  on?_eq d shortcut := by
    have hon := h.on?_eq d shortcut
    simp only [isLastNaming_concat, List.mem_append, List.mem_singleton] at hon ⊢
    rw [on?, List.find?_cons]
    by_cases hcd : d = c
    · subst hcd
      simp only [beq_self_eq_true, or_true, if_true, Option.some.injEq]
      constructor
      · rintro rfl
        exact ⟨_, _, ⟨rfl, rfl⟩, rfl⟩
      · rintro ⟨number, other, ⟨rfl, rfl⟩, rfl⟩
        rfl
    · have hne : (c == d) = false := beq_eq_false_iff_ne.mpr (Ne.symm hcd)
      simp only [hne, hcd, or_false]
      rw [← on?, hon]
      by_cases hd : d ∈ chars
      · simp only [hd, if_true]
        constructor
        · rintro ⟨number, other, ⟨rfl, rfl⟩, rfl⟩
          exact ⟨_, _, ⟨rfl, rfl⟩, rfl⟩
        · rintro ⟨number, other, ⟨rfl, rfl⟩, rfl⟩
          exact ⟨_, _, ⟨rfl, rfl⟩, rfl⟩
      · simp only [hd, if_false]

/-- Characters of a rule that agrees with those before it are entered. -/
theorem enter_chars (h : Entered (before ++ [{ rule with shortcut := chars }]) entered)
    (others : List Char) (hagree : Rule.Agree (before ++ [{ rule with shortcut := chars ++ others }]))
    (rest : List Shortcut) :
    ∃ after, enter entered (others.map (fun c => ⟨c, before.length, rule.style⟩) ++ rest)
        = enter after rest ∧
      Entered (before ++ [{ rule with shortcut := chars ++ others }]) after := by
  induction others generalizing chars entered with
  | nil =>
    rw [List.append_nil]
    exact ⟨entered, rfl, h⟩
  | cons c others ih =>
    have hsplit : chars ++ c :: others = chars ++ [c] ++ others := by simp
    rw [hsplit] at hagree ⊢
    have hpart : Rule.Agree (before ++ [{ rule with shortcut := chars ++ [c] }]) := by
      refine hagree.of_subset fun other hother => ?_
      rcases List.mem_append.mp hother with hmem | hmem
      · exact ⟨other, List.mem_append_left _ hmem, rfl, fun _ hd => hd⟩
      · obtain rfl := List.mem_singleton.mp hmem
        exact ⟨_, List.mem_append_right _ (List.mem_singleton_self _), rfl,
          fun d hd => List.mem_append_left others hd⟩
    obtain ⟨after, henter, hafter⟩ := ih (h.push hpart) hagree
    refine ⟨after, ?_, hafter⟩
    rw [← henter, List.map_cons, List.cons_append, enter]
    split
    · -- Whoever named the character last has the style of this rule.
      rename_i earlier hearlier
      obtain ⟨number, last, ⟨hlast, hc, -⟩, rfl⟩ := (h.on?_eq c earlier).mp hearlier
      have hmem : last ∈ before ++ [{ rule with shortcut := chars }] := List.mem_of_getElem? hlast
      have hstyle : last.style = rule.style := by
        rcases List.mem_append.mp hmem with hmem | hmem
        · exact hpart last (List.mem_append_left _ hmem) { rule with shortcut := chars ++ [c] }
            (by simp) c hc (by simp)
        · rw [List.mem_singleton.mp hmem]
      rw [if_pos hstyle]
    · rfl

theorem ofRulesFrom_append (first : Nat) (rules others : List Rule) :
    ofRulesFrom first (rules ++ others)
      = ofRulesFrom first rules ++ ofRulesFrom (first + rules.length) others := by
  induction rules generalizing first with
  | nil => rfl
  | cons rule rules ih =>
    rw [List.cons_append, ofRulesFrom, ofRulesFrom, ih, List.append_assoc, List.length_cons,
      Nat.add_right_comm, Nat.add_assoc]

/-- Rules that agree are entered. -/
theorem enter_rules (h : Entered before entered) (rules : List Rule)
    (hagree : Rule.Agree (before ++ rules)) (rest : List Shortcut) :
    ∃ after, enter entered (ofRulesFrom before.length rules ++ rest) = enter after rest ∧
      Entered (before ++ rules) after := by
  induction rules generalizing before entered with
  | nil =>
    rw [List.append_nil]
    exact ⟨entered, rfl, h⟩
  | cons rule rules ih =>
    have hsplit : before ++ rule :: rules = before ++ [rule] ++ rules := by simp
    rw [hsplit] at hagree ⊢
    obtain ⟨between, henter, hbetween⟩ := enter_chars (h.bare rule) rule.shortcut
      hagree.of_append (ofRulesFrom (before.length + 1) rules ++ rest)
    obtain ⟨after, henter', hafter⟩ := ih hbetween hagree
    rw [List.length_append, List.length_singleton] at henter'
    refine ⟨after, ?_, hafter⟩
    rw [ofRulesFrom, List.append_assoc, henter, henter']

/-- A conflict is refused at the first character that is named against
an earlier rule. -/
theorem enter_firstConflict {first second : Style} (h : FirstConflict rules c first second) :
    enter [] (ofRulesFrom 0 rules)
      = .error (.conflictingShortcut c first.display second.display) := by
  obtain ⟨before, rule, after, chars, others, rfl, hchars, rfl, hne, hagree,
    ⟨earlier, hearlier, hnamed⟩, hstyle⟩ := h
  rw [ofRulesFrom_append, ofRulesFrom, hchars, List.map_append, List.append_assoc, Nat.zero_add]
  obtain ⟨middle, henter, hmiddle⟩ := enter_rules entered_nil before
    hagree.of_append (List.map (fun c => ⟨c, before.length, rule.style⟩) chars ++
      (List.map (fun c => ⟨c, before.length, rule.style⟩) (c :: others) ++
        ofRulesFrom (before.length + 1) after))
  have hmiddle : Entered before middle := hmiddle
  obtain ⟨inside, henter', hinside⟩ := enter_chars (hmiddle.bare rule) chars hagree
    (List.map (fun c => ⟨c, before.length, rule.style⟩) (c :: others) ++
      ofRulesFrom (before.length + 1) after)
  rw [List.nil_append] at hinside
  rw [List.length_nil] at henter
  rw [henter, henter', List.map_cons, List.cons_append, enter]
  -- The rule that named the character last is an earlier one.
  obtain ⟨number, last, hlast⟩ := exists_isLastNaming hearlier hnamed
  have hc : c ∉ chars := by
    intro hc
    rw [← hstyle earlier hearlier hnamed] at hne
    exact hne (hagree earlier (List.mem_append_left _ hearlier) { rule with shortcut := chars }
      (by simp) c hnamed hc)
  have hon : on? c inside = some ⟨c, number, last.style⟩ := by
    exact (hinside.on?_eq c _).mpr
      ⟨number, last, isLastNaming_concat.mpr ((if_neg hc).mpr hlast), rfl⟩
  have hfirst : last.style = first :=
    hstyle last (List.mem_of_getElem? hlast.1) hlast.2.1
  rw [hon]
  simp only [hfirst, if_neg hne]

end Shortcut

/-! ### Compiling -/

namespace Lexer

open Rule

variable {grammar : Grammar} {lexer : Lexer}

/-- Nothing but the shortcuts of a grammar conflicts. -/
theorem conflict_of_ofGrammar {c : Char} {first second : String}
    (h : ofGrammar grammar = .error (.conflictingShortcut c first second)) :
    Shortcut.enter [] (Shortcut.ofRulesFrom 0 grammar.rules)
      = .error (.conflictingShortcut c first second) := by
  have hpattern : ∀ {pattern : String},
      Regex.Matcher.ofPattern pattern ≠ .error (.conflictingShortcut c first second) := by
    intro pattern hpattern
    unfold Regex.Matcher.ofPattern at hpattern
    split at hpattern <;> cases hpattern
  obtain hshortcuts | ⟨shortcuts, -, h⟩ := bind_eq_error h
  · exact hshortcuts
  obtain hrules | ⟨rules, -, h⟩ := bind_eq_error h
  · obtain ⟨rule, -, hrule⟩ := mapM_eq_error hrules
    obtain hmatcher | ⟨matcher, -, hrule⟩ := bind_eq_error hrule
    · exact absurd hmatcher hpattern
    · cases hrule
  obtain hunion | ⟨union, -, h⟩ := bind_eq_error h
  · unfold Union.ofPatterns at hunion
    split at hunion
    · cases hunion
    · obtain hmatcher | ⟨matcher, -, hunion⟩ := bind_eq_error hunion
      · exact absurd hmatcher hpattern
      · cases hunion
  · cases h

theorem ofGrammar_of_firstConflict {c : Char} {first second : Style}
    (h : FirstConflict grammar.rules c first second) :
    ofGrammar grammar = .error (.conflictingShortcut c first.display second.display) := by
  unfold ofGrammar
  rw [Shortcut.enter_firstConflict h]
  rfl

/-- Where the shortcuts of a grammar can be entered, its rules agree, and
each character leads to the last rule that names it. -/
theorem entered_of_enter {rules : List Rule} {shortcuts : List Shortcut}
    (h : Shortcut.enter [] (Shortcut.ofRulesFrom 0 rules) = .ok shortcuts) :
    Shortcut.Entered rules shortcuts := by
  rcases agree_or_firstConflict rules with hagree | ⟨c, first, second, hconflict⟩
  · obtain ⟨after, henter, hafter⟩ := Shortcut.enter_rules Shortcut.entered_nil _ hagree []
    rw [List.append_nil, List.length_nil, h] at henter
    cases henter
    exact hafter
  · rw [Shortcut.enter_firstConflict hconflict] at h
    cases h

/-- The rules of a lexer are those of its grammar in the same order. -/
theorem getElem?_rules (h : ofGrammar grammar = .ok lexer) {number : Nat} {rule : Rule}
    (hrule : grammar.rules[number]? = some rule) :
    ∃ compiled, lexer.rules[number]? = some compiled ∧ CompiledRule.ofRule rule = .ok compiled := by
  obtain ⟨-, hrules, -⟩ := ofGrammar_eq_ok h
  have hall := forall₂_of_mapM hrules
  obtain ⟨hlt, rfl⟩ := List.getElem?_eq_some_iff.mp hrule
  have hlt' : number < lexer.rules.length := hall.length_eq ▸ hlt
  exact ⟨lexer.rules[number], List.getElem?_eq_getElem hlt', hall.get hlt hlt'⟩

/-- A token is tried first on the rule that its first character leads
to. -/
theorem shortcutRule?_eq_some_iff (h : ofGrammar grammar = .ok lexer) {c : Char}
    {token : List Char} {number : Nat} :
    lexer.shortcutRule? (c :: token) = some number ↔
      ∃ rule, IsLastNaming grammar.rules c number rule := by
  have hentered := entered_of_enter (ofGrammar_eq_ok h).1
  unfold shortcutRule?
  rw [List.head?_cons, Option.bind_eq_bind, Option.bind_some]
  constructor
  · intro hnumber
    obtain ⟨shortcut, hon, hnumber⟩ := Option.bind_eq_some_iff.mp hnumber
    obtain ⟨place, rule, hlast, rfl⟩ := (hentered.on?_eq c shortcut).mp hon
    cases hnumber
    exact ⟨rule, hlast⟩
  · rintro ⟨rule, hlast⟩
    rw [(hentered.on?_eq c _).mpr ⟨number, rule, hlast, rfl⟩]
    rfl

/-- A grammar is refused for a shortcut exactly if two of its rules name
a character with different styles, whatever else is wrong with it. What
is reported is the first conflict that is met. In a grammar that is
compiled, all rules that name a character have one style, and the
character leads to the last of them. -/
theorem conflicts_found (grammar : Grammar) :
    ((∃ c first second, ofGrammar grammar = .error (.conflictingShortcut c first second)) ↔
        Conflict grammar.rules) ∧
      (∀ c first second, ofGrammar grammar = .error (.conflictingShortcut c first second) ↔
        ∃ one other, FirstConflict grammar.rules c one other ∧
          first = one.display ∧ second = other.display) ∧
      ∀ lexer, ofGrammar grammar = .ok lexer → Rule.Agree grammar.rules ∧
        ∀ c token number,
          (lexer.shortcutRule? (c :: token) = some number ↔
            ∃ rule, IsLastNaming grammar.rules c number rule) ∧
          ∀ rule, IsLastNaming grammar.rules c number rule →
            ∃ compiled, CompiledRule.ofRule rule = .ok compiled ∧
              (lexer.candidates (c :: token)).head? = some compiled := by
  have hreport : ∀ c first second,
      ofGrammar grammar = .error (.conflictingShortcut c first second) ↔
        ∃ one other, FirstConflict grammar.rules c one other ∧
          first = one.display ∧ second = other.display := by
    intro c first second
    constructor
    · intro h
      have henter := conflict_of_ofGrammar h
      rcases agree_or_firstConflict grammar.rules with hagree | ⟨d, one, other, hconflict⟩
      · obtain ⟨after, henter', -⟩ := Shortcut.enter_rules Shortcut.entered_nil grammar.rules
          hagree []
        rw [List.append_nil, List.length_nil, henter] at henter'
        cases henter'
      · rw [Shortcut.enter_firstConflict hconflict] at henter
        cases henter
        exact ⟨one, other, hconflict, rfl, rfl⟩
    · rintro ⟨one, other, hconflict, rfl, rfl⟩
      exact ofGrammar_of_firstConflict hconflict
  refine ⟨⟨?_, ?_⟩, hreport, fun lexer h => ⟨?_, fun c token number => ⟨?_, ?_⟩⟩⟩
  · rintro ⟨c, first, second, h⟩
    obtain ⟨one, other, hconflict, -⟩ := (hreport c first second).mp h
    exact not_agree_iff.mp hconflict.not_agree
  · intro hconflict
    rcases agree_or_firstConflict grammar.rules with hagree | ⟨c, one, other, hfirst⟩
    · exact absurd hagree (not_agree_iff.mpr hconflict)
    · exact ⟨c, _, _, ofGrammar_of_firstConflict hfirst⟩
  · exact (entered_of_enter (ofGrammar_eq_ok h).1).agree
  · exact shortcutRule?_eq_some_iff h
  · intro rule hlast
    obtain ⟨compiled, hcompiled, hof⟩ := getElem?_rules h hlast.1
    refine ⟨compiled, hof, ?_⟩
    have hleads : lexer.shortcutRule? (c :: token) = some number :=
      (shortcutRule?_eq_some_iff h).mpr ⟨rule, hlast⟩
    simp only [candidates, hleads, Option.bind_some, hcompiled, Option.toList_some,
      List.cons_append, List.head?_cons]

end Lexer

end Highlighter
