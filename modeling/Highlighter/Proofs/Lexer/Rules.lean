import Highlighter.Proofs.Lexer.Agreement

/-!
# The rules of a lexer

A token is plain, or one of the rules of the lexer matches it and says
what it is (`Lexer.classify_cases`). The rules of a lexer are those of
its grammar, with their patterns compiled (`Lexer.exists_rule`).
-/

set_option autoImplicit false

namespace Highlighter.Lexer

/-! ### Which rule decides -/

variable {lexer : Lexer} {token : List Char}

theorem mem_rules_of_mem_candidates {rule : CompiledRule} (h : rule ∈ lexer.candidates token) :
    rule ∈ lexer.rules := by
  unfold candidates at h
  rcases List.mem_append.mp h with hfirst | hfallback
  · obtain ⟨number, -, hrule⟩ := Option.bind_eq_some_iff.mp (Option.mem_toList.mp hfirst)
    exact List.mem_of_getElem? hrule
  · obtain ⟨⟨found, number⟩, hmem, rfl⟩ := List.mem_map.mp hfallback
    exact List.fst_mem_of_mem_zipIdx (List.mem_filter.mp hmem).1

/-- A token is plain, or one of the rules matches it. -/
theorem classify_cases {classified : Classification}
    (h : lexer.classify token = .ok classified) :
    classified = ⟨.plain, none⟩ ∨ ∃ rule ∈ lexer.rules, ∃ captures,
      rule.matcher.captures token = .ok (some captures) ∧
        classified = ⟨rule.style, some captures⟩ := by
  have hby : ∀ rules : List CompiledRule, classifyBy token rules = .ok classified →
      classified = ⟨.plain, none⟩ ∨ ∃ rule ∈ rules, ∃ captures,
        rule.matcher.captures token = .ok (some captures) ∧
          classified = ⟨rule.style, some captures⟩ := by
    intro rules
    induction rules with
    | nil =>
      intro h
      cases h
      exact .inl rfl
    | cons rule rest ih =>
      intro h
      rw [classifyBy] at h
      split at h
      · cases h
      · rename_i captures hcaptures
        cases h
        exact .inr ⟨rule, List.mem_cons_self, captures, hcaptures, rfl⟩
      · rcases ih h with hplain | ⟨found, hmem, hfound⟩
        · exact .inl hplain
        · exact .inr ⟨found, List.mem_cons_of_mem rule hmem, hfound⟩
  rcases hby _ h with hplain | ⟨rule, hmem, hrule⟩
  · exact .inl hplain
  · exact .inr ⟨rule, mem_rules_of_mem_candidates hmem, hrule⟩

/-! ### Where the rules come from -/

/-- Each rule of a lexer is a rule of its grammar that has been
compiled. -/
theorem exists_rule {grammar : Grammar} (h : ofGrammar grammar = .ok lexer)
    {compiled : CompiledRule} (hmem : compiled ∈ lexer.rules) :
    ∃ rule ∈ grammar.rules, compiled.style = rule.style ∧
      Regex.Matcher.ofPattern rule.pattern.anchored = .ok compiled.matcher := by
  obtain ⟨-, hrules, -⟩ := ofGrammar_eq_ok h
  obtain ⟨place, hplace, rfl⟩ := List.mem_iff_getElem.mp hmem
  have hall := forall₂_of_mapM hrules
  have hlt : place < grammar.rules.length := hall.length_eq ▸ hplace
  have hrule := hall.get hlt hplace
  rw [List.get_eq_getElem, List.get_eq_getElem] at hrule
  refine ⟨grammar.rules[place], List.getElem_mem hlt, ?_⟩
  unfold CompiledRule.ofRule at hrule
  cases hmatcher : Regex.Matcher.ofPattern grammar.rules[place].pattern.anchored with
  | error error =>
    rw [hmatcher] at hrule
    cases hrule
  | ok matcher =>
    rw [hmatcher] at hrule
    rw [← Except.ok.inj hrule]
    exact ⟨rfl, rfl⟩

end Highlighter.Lexer
