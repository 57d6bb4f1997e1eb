import Highlighter.Unicode.Property

/-!
# Names of properties

A scan that counts the brackets of a class reads over the name of a property as over any other text.
It loses nothing there: no name of a property that exists has a bracket or a backslash in it
(`unmarked_of_named`, `unmarked_of_valued`), however loosely names are compared.
-/

set_option autoImplicit false

namespace Highlighter.Unicode.Property

/-- The characters that a scan of classes looks at. -/
def isClassMark (c : Char) : Bool := c == '[' || c == ']' || c == '\\'

theorem isClassMark_cases {c : Char} (h : isClassMark c = true) : c = '[' ∨ c = ']' ∨ c = '\\' := by
  simpa [isClassMark, or_assoc] using h

/-- A text without the characters that a scan of classes looks at. -/
def Unmarked (text : List Char) : Prop := ∀ c ∈ text, isClassMark c = false

theorem unmarked_iff (text : List Char) :
    Unmarked text ↔ (text.all fun c => !isClassMark c) = true := by
  simp [Unmarked]

instance (text : List Char) : Decidable (Unmarked text) :=
  decidable_of_iff _ (unmarked_iff text).symm

theorem unmarked_of_generalCategory {name : String} {property : Property}
    (h : generalCategory? name = some property) : Unmarked name.toList := by
  unfold generalCategory? at h
  split at h
  all_goals first
    | decide
    | cases h

theorem unmarked_of_binary {name : String} {property : Property}
    (h : binary? name = some property) : Unmarked name.toList := by
  unfold binary? at h
  split at h
  all_goals first
    | decide
    | cases h

theorem all_unmarked_scripts : (scripts.all fun script => script.names.all fun name =>
    name.toList.all fun c => !isClassMark c) = true := by
  decide +kernel

theorem unmarked_of_script {name : String} {property : Property}
    (h : script? name = some property) : Unmarked name.toList := by
  obtain ⟨script, hscript, -⟩ := Option.map_eq_some_iff.mp h
  have hname : script.names.contains name = true := by simpa using List.find?_some hscript
  have hnames := List.all_eq_true.mp all_unmarked_scripts script
    (List.mem_of_find?_eq_some hscript)
  exact (unmarked_iff _).mpr (List.all_eq_true.mp hnames name (List.contains_iff_mem.mp hname))

/-- Comparing names loosely does not get rid of brackets. -/
theorem unmarked_of_loosely {name : String} (h : Unmarked (loosely name).toList) :
    Unmarked name.toList := by
  have hkept : ∀ {chars : List Char} {c : Char}, isClassMark c = true → c ∈ chars →
      c ∈ (chars.filter fun c => c.val < 0x80 && c != ' ' && c != '_' && c != '-').map
        Char.toLower := by
    intro chars c hmark hc
    rcases isClassMark_cases hmark with rfl | rfl | rfl
    · exact List.mem_map.mpr ⟨'[', List.mem_filter.mpr ⟨hc, rfl⟩, rfl⟩
    · exact List.mem_map.mpr ⟨']', List.mem_filter.mpr ⟨hc, rfl⟩, rfl⟩
    · exact List.mem_map.mpr ⟨'\\', List.mem_filter.mpr ⟨hc, rfl⟩, rfl⟩
  have hletter : ∀ {c : Char}, isClassMark c = true → c.toLower ≠ 'i' ∧ c.toLower ≠ 's' := by
    intro c hmark
    rcases isClassMark_cases hmark with rfl | rfl | rfl <;> decide
  intro c hc
  refine Bool.eq_false_iff.mpr fun hmark => ?_
  have hmem : ∀ {text : List Char}, c ∈ text → (loosely name).toList = text → False :=
    fun htext heq => Bool.eq_false_iff.mp (h c (heq ▸ htext)) hmark
  unfold loosely at hmem
  simp only at hmem
  split at hmem
  · rename_i first second rest heq
    rw [heq] at hc
    split at hmem
    · rename_i his
      have hrest : c ∈ rest := by
        simp only [Bool.and_eq_true, beq_iff_eq] at his
        rcases List.mem_cons.mp hc with rfl | hc
        · exact absurd his.1 (hletter hmark).1
        · rcases List.mem_cons.mp hc with rfl | hc
          · exact absurd his.2 (hletter hmark).2
          · exact hc
      split at hmem
      · rename_i hbody
        have := hkept hmark hrest
        rw [beq_iff_eq.mp hbody, List.mem_singleton] at this
        subst this
        exact absurd hmark (by decide)
      · exact hmem (hkept hmark hrest) String.toList_ofList
    · exact hmem (hkept hmark hc) String.toList_ofList
  · exact hmem (hkept hmark hc) String.toList_ofList

/-- No property that exists has a bracket in its name. -/
theorem unmarked_of_named {name : String} {property : Property}
    (h : named? name = some property) : Unmarked name.toList := by
  refine unmarked_of_loosely ?_
  unfold named? at h
  cases hbinary : binary? (loosely name) with
  | some found => exact unmarked_of_binary hbinary
  | none =>
    cases hcategory : generalCategory? (loosely name) with
    | some found => exact unmarked_of_generalCategory hcategory
    | none =>
      have hscript : script? (loosely name) = some property := by
        simpa [hbinary, hcategory] using h
      exact unmarked_of_script hscript

theorem unmarked_of_valued {name value : String} {property : Property}
    (h : valued? name value = some property) :
    Unmarked name.toList ∧ Unmarked value.toList := by
  unfold valued? at h
  split at h
  · rename_i hname
    exact ⟨unmarked_of_loosely (hname ▸ by decide),
      unmarked_of_loosely (unmarked_of_generalCategory h)⟩
  · rename_i hname
    exact ⟨unmarked_of_loosely (hname ▸ by decide),
      unmarked_of_loosely (unmarked_of_generalCategory h)⟩
  · rename_i hname
    exact ⟨unmarked_of_loosely (hname ▸ by decide), unmarked_of_loosely (unmarked_of_script h)⟩
  · rename_i hname
    exact ⟨unmarked_of_loosely (hname ▸ by decide), unmarked_of_loosely (unmarked_of_script h)⟩
  · cases h

end Highlighter.Unicode.Property
