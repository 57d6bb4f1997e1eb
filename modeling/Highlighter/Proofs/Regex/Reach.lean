import Highlighter.Proofs.Regex.Ways
import Mathlib.Logic.Relation

/-!
# Where loops lead

The two rules for loops do not list the same ways, but where nothing
but the position is kept, they lead to the same places: those that a
number of iterations reaches, and then any number of iterations that
consume something (`mem_repeated`).
-/

set_option autoImplicit false

namespace Highlighter.Regex.Ways

variable {σ : Type}

/-- A way that keeps everything but the position, which grows up to the
end of the text at most. -/
def Advances (size : Nat) (place next : Nat × σ) : Prop :=
  next.2 = place.2 ∧ place.1 ≤ next.1 ∧ (next.1 = place.1 ∨ next.1 ≤ size)

theorem advances_refl (size : Nat) (place : Nat × σ) : Advances size place place :=
  ⟨rfl, Nat.le_refl _, .inl rfl⟩

theorem advances_trans (size : Nat) (place between next : Nat × σ)
    (h : Advances size place between) (h' : Advances size between next) :
    Advances size place next := by
  refine ⟨h'.1.trans h.1, Nat.le_trans h.2.1 h'.2.1, ?_⟩
  rcases h'.2.2 with hsame | hle
  · rw [hsame]
    exact h.2.2
  · exact .inr hle

/-- An iteration that consumes something. -/
def Moves (step : Nat × σ → List (Nat × σ)) (place next : Nat × σ) : Prop :=
  next ∈ step place ∧ next.1 ≠ place.1

variable {size : Nat} {step : Nat × σ → List (Nat × σ)}

theorem mem_arrange {greedy : Bool} {others : List (Nat × σ)} {place x : Nat × σ} :
    x ∈ arrange greedy others place ↔ x = place ∨ x ∈ others := by
  cases greedy with
  | true => simp [arrange, or_comm]
  | false => simp [arrange]

/-- Enough fuel for every move reaches what moves reach. -/
theorem mem_more (hstep : ∀ place, Along (Advances size) place (step place)) (greedy : Bool)
    {fuel : Nat} {place x : Nat × σ} (hfuel : size < place.1 + fuel) :
    x ∈ more greedy step fuel place ↔ Relation.ReflTransGen (Moves step) place x := by
  have hgrows : ∀ {place next : Nat × σ}, Moves step place next →
      place.1 < next.1 ∧ next.1 ≤ size := by
    intro place next hmove
    obtain ⟨-, hle, hbound⟩ := hstep place next hmove.1
    have hne := hmove.2
    omega
  rw [Relation.ReflTransGen.cases_head_iff]
  induction fuel generalizing place with
  | zero =>
    have hnone : ¬∃ next, Moves step place next ∧ Relation.ReflTransGen (Moves step) next x := by
      rintro ⟨next, hmove, -⟩
      have hnext := hgrows hmove
      omega
    rw [more, List.mem_singleton, or_iff_left hnone]
    exact eq_comm
  | succ fuel ih =>
    rw [more, mem_arrange, eq_comm, List.mem_flatMap]
    refine or_congr_right (exists_congr fun next => ?_)
    by_cases hsame : next.1 = place.1
    · rw [if_pos hsame]
      exact ⟨fun h => (nomatch h.2), fun h => absurd hsame h.1.2⟩
    · rw [if_neg hsame]
      have hiff : next ∈ step place → (x ∈ more greedy step fuel next
          ↔ Relation.ReflTransGen (Moves step) next x) := by
        intro hnext
        have hlt := (hgrows ⟨hnext, hsame⟩).1
        rw [Relation.ReflTransGen.cases_head_iff]
        exact ih (by omega)
      exact ⟨fun h => ⟨⟨h.1, hsame⟩, (hiff h.1).mp h.2⟩, fun h => ⟨h.1.1, (hiff h.1.1).mpr h.2⟩⟩

theorem mem_star (hstep : ∀ place, Along (Advances size) place (step place)) (greedy : Bool)
    {place x : Nat × σ} :
    x ∈ star size greedy step place ↔ Relation.ReflTransGen (Moves step) place x :=
  mem_more hstep greedy (by omega)

/-- At least one iteration. -/
theorem mem_plus (hstep : ∀ place, Along (Advances size) place (step place)) (greedy : Bool)
    {place x : Nat × σ} :
    x ∈ plus size greedy step place
      ↔ ∃ next ∈ step place, Relation.ReflTransGen (Moves step) next x := by
  rw [plus, List.mem_flatMap]
  constructor
  · rintro ⟨next, hnext, hx⟩
    refine ⟨next, hnext, ?_⟩
    by_cases hsame : next.1 = place.1
    · rw [if_pos hsame, List.mem_singleton] at hx
      rw [hx]
    · rw [if_neg hsame] at hx
      exact (mem_star hstep greedy).mp hx
  · rintro ⟨next, hnext, hx⟩
    by_cases hsame : next.1 = place.1
    · -- Nothing was consumed, so this is where the loop began.
      have heq : next = place := Prod.ext hsame (hstep place next hnext).1
      subst heq
      rcases Relation.ReflTransGen.cases_head_iff.mp hx with rfl | ⟨between, hmove, hx⟩
      · exact ⟨next, hnext, by rw [if_pos rfl, List.mem_singleton]⟩
      · refine ⟨between, hmove.1, ?_⟩
        rw [if_neg hmove.2]
        exact (mem_star hstep greedy).mpr hx
    · refine ⟨next, hnext, ?_⟩
      rw [if_neg hsame]
      exact (mem_star hstep greedy).mpr hx

theorem mem_exactly_succ (count : Nat) {place x : Nat × σ} :
    x ∈ exactly step (count + 1) place ↔ ∃ next ∈ exactly step count place, x ∈ step next := by
  induction count generalizing place with
  | zero => simp [exactly]
  | succ count ih =>
    rw [exactly, List.mem_flatMap]
    constructor
    · rintro ⟨first, hfirst, hx⟩
      obtain ⟨next, hnext, hx⟩ := ih.mp hx
      exact ⟨next, List.mem_flatMap.mpr ⟨first, hfirst, hnext⟩, hx⟩
    · rintro ⟨next, hnext, hx⟩
      obtain ⟨first, hfirst, hnext⟩ := List.mem_flatMap.mp hnext
      exact ⟨first, hfirst, ih.mpr ⟨next, hnext, hx⟩⟩

/-- Both rules for loops reach the same places, if nothing but the
position is kept. -/
theorem mem_repeated (hstep : ∀ place, Along (Advances size) place (step place)) (retry : Bool)
    (min : Nat) (greedy : Bool) {place x : Nat × σ} :
    x ∈ repeated size retry min none greedy step place
      ↔ ∃ next ∈ exactly step min place, Relation.ReflTransGen (Moves step) next x := by
  cases retry with
  | true =>
    show x ∈ (exactly step min place).flatMap _ ↔ _
    rw [List.mem_flatMap]
    exact exists_congr fun next => and_congr_right fun _ => mem_star hstep greedy
  | false =>
    cases min with
    | zero =>
      -- Without a least count the body is optional, and a pass that
      -- consumes nothing leads to where it started.
      show x ∈ arrange greedy _ place ↔ ∃ next ∈ [place], _
      rw [mem_arrange, mem_plus hstep]
      constructor
      · rintro (rfl | ⟨next, hnext, hx⟩)
        · exact ⟨x, List.mem_singleton.mpr rfl, .refl⟩
        · refine ⟨place, List.mem_singleton.mpr rfl, ?_⟩
          by_cases hsame : next.1 = place.1
          · rw [← show next = place from Prod.ext hsame (hstep place next hnext).1]
            exact hx
          · exact .head ⟨hnext, hsame⟩ hx
      · rintro ⟨next, hnext, hx⟩
        rw [List.mem_singleton.mp hnext] at hx
        rcases Relation.ReflTransGen.cases_head_iff.mp hx with rfl | ⟨between, hmove, hx⟩
        · exact .inl rfl
        · exact .inr ⟨between, hmove.1, hx⟩
    | succ min =>
      show x ∈ (exactly step min place).flatMap _ ↔ _
      rw [List.mem_flatMap]
      constructor
      · rintro ⟨between, hbetween, hx⟩
        obtain ⟨next, hnext, hx⟩ := (mem_plus hstep greedy).mp hx
        exact ⟨next, (mem_exactly_succ min).mpr ⟨between, hbetween, hnext⟩, hx⟩
      · rintro ⟨next, hnext, hx⟩
        obtain ⟨between, hbetween, hnext⟩ := (mem_exactly_succ min).mp hnext
        exact ⟨between, hbetween, (mem_plus hstep greedy).mpr ⟨next, hnext, hx⟩⟩

section Same

variable {step' : Nat × σ → List (Nat × σ)}
  (hsame : ∀ place next, next ∈ step place ↔ next ∈ step' place)

include hsame

theorem mem_exactly_congr (count : Nat) {place x : Nat × σ} :
    x ∈ exactly step count place ↔ x ∈ exactly step' count place := by
  induction count generalizing place with
  | zero => exact Iff.rfl
  | succ count ih =>
    rw [exactly, exactly, List.mem_flatMap, List.mem_flatMap]
    exact exists_congr fun next => and_congr (hsame place next) ih

theorem mem_upTo_congr (greedy : Bool) (count : Nat) {place x : Nat × σ} :
    x ∈ upTo greedy step count place ↔ x ∈ upTo greedy step' count place := by
  induction count generalizing place with
  | zero => exact Iff.rfl
  | succ count ih =>
    rw [upTo, upTo, mem_arrange, mem_arrange, List.mem_flatMap, List.mem_flatMap]
    exact or_congr_right (exists_congr fun next => and_congr (hsame place next) ih)

/-- Which rule loops follow does not matter to the places that they
reach. -/
theorem mem_repeated_congr (hstep : ∀ place, Along (Advances size) place (step place))
    (hstep' : ∀ place, Along (Advances size) place (step' place)) (retry retry' : Bool) (min : Nat)
    (max? : Option Nat) (greedy : Bool) {place x : Nat × σ} :
    x ∈ repeated size retry min max? greedy step place
      ↔ x ∈ repeated size retry' min max? greedy step' place := by
  cases max? with
  | some max =>
    show x ∈ (exactly step min place).flatMap _ ↔ x ∈ (exactly step' min place).flatMap _
    rw [List.mem_flatMap, List.mem_flatMap]
    exact exists_congr fun next =>
      and_congr (mem_exactly_congr hsame min) (mem_upTo_congr hsame greedy _)
  | none =>
    have hmoves : Moves step = Moves step' := by
      funext place next
      exact propext (and_congr_left' (hsame place next))
    rw [mem_repeated hstep, mem_repeated hstep', hmoves]
    exact exists_congr fun next => and_congr_left' (mem_exactly_congr hsame min)

end Same

end Highlighter.Regex.Ways
