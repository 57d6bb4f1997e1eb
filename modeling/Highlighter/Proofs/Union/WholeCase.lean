import Highlighter.Proofs.Regex.Regular.Quiet
import Highlighter.Proofs.Union.CaseModes

/-!
# Letter case in a whole union

Where no member of a union depends on letter case, the whole union
ignores it, also the members that did not ask for that. This is safe for
a member that spells nothing cased: with flags in front of it, it finds
the same in every text (`search_of_caseRule`).

Two things that the test of the members does not look at are supposed
here. A range may hold cased characters although its ends are none, as
`@-_` does. And a class that nests one which starts with its closing
bracket goes on where splitting sees it end, so that what is spelt in it
is taken for the name of a group, say.
-/

set_option autoImplicit false

namespace Highlighter

open Pattern Regex

namespace Regex

/-- The ranges in the classes of a pattern of the regular dialect. -/
def classRanges (source : List Char) : List (Char × Char) :=
  match Regular.parse? source with
  | some (ast, _) => ast.ranges
  | none => []

/-- A pattern in which nothing cased is seen finds the same with flags in
front of it. -/
theorem search_ignoreFlags {source : List Char} {sensitive ignoring : Matcher}
    (hsensitive : Matcher.ofRegular? source = some sensitive)
    (hignoring : Matcher.ofRegular? (ignoreFlags ++ source) = some ignoring)
    (hquiet : ∀ part ∈ Part.split source, part.isQuiet = true)
    (hranges : AreCaseClosed (classRanges source)) (text : Array Char) (start : Nat) :
    ignoring.search text start = sensitive.search text start := by
  obtain ⟨ast, groups, node, after, hparse, hmeaning, rfl⟩ := Matcher.ofRegular_eq_some hsensitive
  obtain ⟨other, groups', node', after', hparse', hmeaning', rfl⟩ :=
    Matcher.ofRegular_eq_some hignoring
  unfold classRanges at hranges
  rw [hparse] at hranges
  obtain ⟨_, items, others, branches, branches', place, hflags, hread⟩ :=
    Regular.parse_ignoreFlags ⟨none, Part.isQuiet_of_mem_fine hquiet⟩ hparse
  rw [hread] at hparse'
  split at hparse'
  case isFalse => cases hparse'
  cases hparse'
  obtain ⟨meant, meant', last, hmeant, hmeant', hrun⟩ := hflags.meaning hranges
  cases hmeaning.symm.trans hmeant
  cases hmeaning'.symm.trans hmeant'
  refine Matcher.search_congr ?_ ?_ (fun search limit rest => ?_) text start
  · rfl
  · rfl
  · exact congrFun (hrun search limit) rest

end Regex

namespace Union

/-- A pattern that sets no flags and spells nothing cased finds the same
whether letter case counts or not. So the members of a union that ignores
letter case as a whole find what they find alone, also where they did not
ask for that. -/
theorem search_of_caseRule {pattern : Pattern} {sensitive ignoring : Matcher}
    (hsensitive : Matcher.ofRegular? pattern.source.toList = some sensitive)
    (hignoring : Matcher.ofRegular? (ignoreFlags ++ pattern.source.toList) = some ignoring)
    (hflags : pattern.parts.any Part.setsFlags = false)
    (hsplit : pattern.parts.any Part.isMissplit = false)
    (hranges : AreCaseClosed (classRanges pattern.source.toList)) :
    (pattern.parts.any Part.isCased = false →
        ∀ text start, ignoring.search text start = sensitive.search text start) ∧
      ∀ patterns, caseRule patterns = .ignored → pattern ∈ patterns → pattern.ignoreCase = false →
        ∀ text start, ignoring.search text start = sensitive.search text start := by
  have halone : pattern.parts.any Part.isCased = false →
      ∀ text start, ignoring.search text start = sensitive.search text start := by
    intro hcased
    refine search_ignoreFlags hsensitive hignoring (fun part hpart => ?_) hranges
    exact (Part.isQuiet_iff part).mpr ⟨Bool.eq_false_iff.mpr (List.any_eq_false.mp hcased part hpart),
      Bool.eq_false_iff.mpr (List.any_eq_false.mp hflags part hpart),
      Bool.eq_false_iff.mpr (List.any_eq_false.mp hsplit part hpart)⟩
  refine ⟨halone, fun patterns hrule hmem hcounts => halone ?_⟩
  rcases caseRule_cases patterns with ⟨hcounts', -⟩ | ⟨-, hcase⟩ | hmixed
  · rw [hcounts'] at hrule
    cases hrule
  · rcases hcase pattern hmem with hignores | hcased
    · exact absurd (hignores.symm.trans hcounts) Bool.noConfusion
    · exact hcased
  · rw [hmixed] at hrule
    cases hrule

/-- Numbers with commas have no letters. -/
def numbers : Pattern := ⟨"[0-9]+(?:,[0-9]+)*", false, false⟩

theorem areCaseClosed_numbers : AreCaseClosed (classRanges numbers.source.toList) := by
  have hranges : classRanges numbers.source.toList = [('0', '9'), ('0', '9')] := by decide +kernel
  rw [hranges]
  intro range hrange
  have hrange : range = ('0', '9') := by simpa using hrange
  subst hrange
  refine .of_not_isCased fun c hc => ?_
  have hle : c.val.toNat ≤ 57 :=
    UInt32.le_iff_toNat_le.mp (of_decide_eq_true (Bool.and_eq_true_iff.mp hc).2)
  refine Expr.isCased_of_ascii (Nat.lt_of_le_of_lt hle (by decide))
    (Bool.eq_false_iff.mpr fun halpha => ?_)
  exact absurd (Nat.le_trans (Unicode.le_code_of_isAlpha halpha) hle) (by decide)

theorem search_of_caseRule_numbers :
    ∃ sensitive ignoring, Matcher.ofRegular? numbers.source.toList = some sensitive ∧
      Matcher.ofRegular? (ignoreFlags ++ numbers.source.toList) = some ignoring ∧
        ∀ text start, ignoring.search text start = sensitive.search text start := by
  have hsensitive : (Matcher.ofRegular? numbers.source.toList).isSome = true := by rfl
  have hignoring : (Matcher.ofRegular? (ignoreFlags ++ numbers.source.toList)).isSome = true := by
    rfl
  obtain ⟨sensitive, hsensitive⟩ := Option.isSome_iff_exists.mp hsensitive
  obtain ⟨ignoring, hignoring⟩ := Option.isSome_iff_exists.mp hignoring
  exact ⟨sensitive, ignoring, hsensitive, hignoring,
    (search_of_caseRule hsensitive hignoring (by decide +kernel) (by decide +kernel)
      areCaseClosed_numbers).1 (by decide +kernel)⟩

end Union

end Highlighter
