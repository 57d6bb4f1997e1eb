import Highlighter.Proofs.Regex.Run
import Highlighter.Regex.Regular.Meaning

/-!
# Rows, branches and loops of nodes

What the ways of composed nodes are in terms of the ways of their
parts: rows (`Node.ways_seqAll_append`), branches
(`Node.ways_altAll_cons`) and repetitions (`Node.ways_repeated`). A
body that consumes nothing may as well be repeated once
(`Node.agree_loop`).
-/

set_option autoImplicit false

namespace Highlighter.Regex

/-! ### Places at one position -/

/-- Places at the same position, whatever they keep. -/
def SamePos {σ τ : Type} (place : Nat × σ) (place' : Nat × τ) : Prop := place.1 = place'.1

/-- Agreement on positions can be passed on. -/
theorem Agree.trans_samePos {ρ σ τ : Type} [Nonempty ρ] [Nonempty τ] {xs : List (Nat × ρ)}
    {ys : List (Nat × σ)} {zs : List (Nat × τ)} (h : Agree SamePos xs ys)
    (h' : Agree SamePos ys zs) : Agree SamePos xs zs := by
  intro γ f g hfg
  obtain ⟨left⟩ := ‹Nonempty ρ›
  obtain ⟨right⟩ := ‹Nonempty τ›
  have hmiddle : ∀ (y : Nat × σ) (z : Nat × τ), SamePos y z → g (y.1, right) = g z :=
    fun y z hyz => (hfg (y.1, left) (y.1, right) rfl).symm.trans (hfg (y.1, left) z hyz)
  rw [h γ f (fun y => g (y.1, right)) fun x y hxy => hfg x (y.1, right) hxy]
  exact h' γ (fun y => g (y.1, right)) g hmiddle

namespace Node

/-! ### Rows and branches -/

theorem ways_seqAll_cons (search : Search) (node : Node) (nodes : List Node)
    (place : Nat × Slots) :
    (seqAll (node :: nodes)).ways search place
      = (node.ways search place).flatMap ((seqAll nodes).ways search) := by
  cases nodes with
  | nil => exact (List.flatMap_singleton' _).symm
  | cons second rest => rfl

/-- A row after a row. -/
theorem ways_seqAll_append (search : Search) (first second : List Node) (place : Nat × Slots) :
    (seqAll (first ++ second)).ways search place
      = ((seqAll first).ways search place).flatMap ((seqAll second).ways search) := by
  induction first generalizing place with
  | nil =>
    show _ = [place].flatMap _
    rw [List.flatMap_cons, List.flatMap_nil, List.append_nil]
    rfl
  | cons node first ih =>
    rw [List.cons_append, ways_seqAll_cons, ways_seqAll_cons, List.flatMap_assoc]
    exact congrArg (List.flatMap · _) (funext fun next => ih next)

/-- No branch never matches. -/
theorem ways_altAll_nil (search : Search) (place : Nat × Slots) :
    (altAll []).ways search place = [] := by
  show Ways.one search.text (fun _ => false) place = []
  unfold Ways.one
  cases search.text[place.1]? <;> rfl

/-- One branch before others. -/
theorem ways_altAll_cons (search : Search) (node : Node) {nodes : List Node} (h : nodes ≠ [])
    (place : Nat × Slots) :
    (altAll (node :: nodes)).ways search place
      = node.ways search place ++ (altAll nodes).ways search place := by
  cases nodes with
  | nil => exact absurd rfl h
  | cons second rest => rfl

/-! ### Repetitions -/

/-- What a repetition of the regular dialect means. -/
theorem ways_repeated (search : Search) (min : Nat) (max? : Option Nat) (greedy : Bool)
    (hmax : ∀ max ∈ max?, min ≤ max) (body : Node) (place : Nat × Slots) :
    (Node.repeated min max? greedy body).ways search place
      = Ways.repeated search.text.size false min max? greedy (body.ways search) place := by
  cases max? with
  | none =>
    match min with
    | 0 =>
      cases greedy with
      | true => rfl
      | false => rfl
    | 1 =>
      show _ = (Ways.exactly (body.ways search) 0 place).flatMap _
      rw [Ways.exactly_zero]
      rfl
    | min + 2 => rfl
  | some max =>
    have hle := hmax max rfl
    show _ = (Ways.exactly (body.ways search) min place).flatMap _
    cases min with
    | zero =>
      rw [Ways.exactly_zero]
      rfl
    | succ min =>
      -- The node leaves out a second part that repeats nothing.
      have hnode : Node.repeated (min + 1) (some max) greedy body
          = if min + 1 = max then exactly (min + 1) body
            else .seq (exactly (min + 1) body) (upTo (max - (min + 1)) greedy body) := by
        cases min <;> rfl
      rw [hnode]
      by_cases hsame : min + 1 = max
      · subst hsame
        have hone : Ways.upTo greedy (body.ways search) (min + 1 - (min + 1))
            = fun place => [place] := by
          rw [Nat.sub_self]
          rfl
        rw [if_pos rfl, hone, List.flatMap_singleton']
        rfl
      · rw [if_neg hsame]
        rfl

end Node

/-! ### Steps that consume nothing -/

/-- The position stays. -/
def Stays {σ : Type} (place next : Nat × σ) : Prop := next.1 = place.1

theorem stays_refl {σ : Type} (place : Nat × σ) : Stays place place := rfl

theorem stays_trans {σ : Type} (place between next : Nat × σ) (h : Stays place between)
    (h' : Stays between next) : Stays place next :=
  h'.trans h

/-- Lists of ways that all stay agree if both have a way or neither
has. -/
theorem agree_of_stays {σ τ : Type} {place : Nat × σ} {place' : Nat × τ} {xs : List (Nat × σ)}
    {ys : List (Nat × τ)} (hplace : SamePos place place') (hx : Ways.Along Stays place xs)
    (hy : Ways.Along Stays place' ys) (h : xs = [] ↔ ys = []) : Agree SamePos xs ys :=
  Agree.of_forall
    (fun x hxs y hys => (hx x hxs).trans (hplace.trans (hy y hys).symm)) h

theorem flatMap_eq_nil {α β : Type} {xs : List α} {ways : α → List β}
    (h : ∀ x ∈ xs, ways x ≠ []) : xs.flatMap ways = [] ↔ xs = [] := by
  rw [List.flatMap_eq_nil_iff]
  constructor
  · intro hall
    cases xs with
    | nil => rfl
    | cons x xs => exact absurd (hall x List.mem_cons_self) (h x List.mem_cons_self)
  · rintro rfl x hx
    cases hx

theorem arrange_ne_nil {σ : Type} (greedy : Bool) (others : List (Nat × σ)) (place : Nat × σ) :
    Ways.arrange greedy others place ≠ [] := by
  cases greedy <;> simp [Ways.arrange]

theorem upTo_ne_nil {σ : Type} (greedy : Bool) (step : Nat × σ → List (Nat × σ)) (count : Nat)
    (place : Nat × σ) : Ways.upTo greedy step count place ≠ [] := by
  cases count with
  | zero => exact List.cons_ne_nil _ _
  | succ count => exact arrange_ne_nil greedy _ place

theorem star_ne_nil {σ : Type} (size : Nat) (greedy : Bool) (step : Nat × σ → List (Nat × σ))
    (place : Nat × σ) : Ways.star size greedy step place ≠ [] := by
  unfold Ways.star
  cases size + 1 - place.1 with
  | zero => exact List.cons_ne_nil _ _
  | succ fuel => exact arrange_ne_nil greedy _ place

theorem plus_eq_nil {σ : Type} (size : Nat) (greedy : Bool) (step : Nat × σ → List (Nat × σ))
    (place : Nat × σ) : Ways.plus size greedy step place = [] ↔ step place = [] := by
  refine flatMap_eq_nil fun next hnext => ?_
  by_cases hsame : next.1 = place.1
  · rw [if_pos hsame]
    exact List.cons_ne_nil _ _
  · rw [if_neg hsame]
    exact star_ne_nil _ _ _ _

section Stays

variable {σ : Type} {step : Nat × σ → List (Nat × σ)}
  (hstays : ∀ place, Ways.Along Stays place (step place))
  (hsame : ∀ place place', SamePos place place' → (step place = [] ↔ step place' = []))

include hstays hsame

theorem exactly_eq_nil (count : Nat) (place : Nat × σ) :
    Ways.exactly step count place = [] ↔ count ≠ 0 ∧ step place = [] := by
  induction count generalizing place with
  | zero => simp [Ways.exactly]
  | succ count ih =>
    show (step place).flatMap _ = [] ↔ _
    by_cases hempty : step place = []
    · simp [hempty]
    · rw [flatMap_eq_nil]
      · simp
      · intro next hnext hnil
        have hboth := ((ih next).mp hnil).2
        exact hempty ((hsame next place (hstays place next hnext)).mp hboth)

theorem repeated_eq_nil (size : Nat) (retry : Bool) (min : Nat) (max? : Option Nat) (greedy : Bool)
    (place : Nat × σ) :
    Ways.repeated size retry min max? greedy step place = [] ↔ min ≠ 0 ∧ step place = [] := by
  unfold Ways.repeated
  cases max? with
  | some max =>
    rw [flatMap_eq_nil fun next _ => upTo_ne_nil greedy step _ next]
    exact exactly_eq_nil hstays hsame min place
  | none =>
    cases retry with
    | true =>
      simp only [if_true]
      rw [flatMap_eq_nil fun next _ => star_ne_nil size greedy step next]
      exact exactly_eq_nil hstays hsame min place
    | false =>
      cases min with
      | zero =>
        have hne := arrange_ne_nil greedy (Ways.plus size greedy step place) place
        simp [hne]
      | succ min =>
        simp only [Bool.false_eq_true, if_false]
        by_cases hempty : step place = []
        · -- Either no iteration is left to fail, or the first one fails.
          cases min with
          | zero =>
            show [place].flatMap _ = [] ↔ _
            simp [hempty, plus_eq_nil]
          | succ min =>
            rw [(exactly_eq_nil hstays hsame (min + 1) place).mpr ⟨by omega, hempty⟩]
            simp [hempty]
        · rw [flatMap_eq_nil]
          · rw [exactly_eq_nil hstays hsame]
            simp [hempty]
          · intro next hnext hnil
            have hstay := Ways.along_exactly stays_refl stays_trans hstays min place next hnext
            exact hempty ((hsame next place hstay).mp ((plus_eq_nil size greedy step next).mp hnil))

/-- What consumes nothing may as well be repeated once. -/
theorem agree_repeated_once (size : Nat) (retry : Bool) (min : Nat) (max? : Option Nat)
    (greedy : Bool) {place place' : Nat × σ} (h : SamePos place place') :
    Agree SamePos
      (Ways.repeated size false (Nat.min min 1) (some (Nat.min (max?.getD 1) 1)) greedy step place)
      (Ways.repeated size retry min max? greedy step place') := by
  refine agree_of_stays h (Ways.along_repeated stays_refl stays_trans hstays _ _ _ _ _ place)
    (Ways.along_repeated stays_refl stays_trans hstays _ _ _ _ _ place') ?_
  rw [repeated_eq_nil hstays hsame, repeated_eq_nil hstays hsame, hsame place place' h]
  have hmin : Nat.min min 1 ≠ 0 ↔ min ≠ 0 := by
    show Min.min min 1 ≠ 0 ↔ min ≠ 0
    omega
  rw [hmin]

end Stays

/-! ### Nodes that consume nothing -/

/-- Where a node consumes nothing, all its ways stay. -/
theorem Node.stays_ways (search : Search) {node : Node} (h : node.consumesNothing = true)
    (place : Nat × Slots) : Ways.Along Stays place (node.ways search place) := by
  induction node generalizing place with
  | empty => exact Ways.along_single stays_refl place
  | anchor condition =>
    intro x hx
    unfold Node.ways Ways.check at hx
    split at hx
    · rw [List.mem_singleton.mp hx]
      exact stays_refl place
    · cases hx
  | seq first second ihFirst ihSecond =>
    obtain ⟨hfirst, hsecond⟩ := Bool.and_eq_true_iff.mp h
    exact Ways.along_flatMap stays_trans (ihFirst hfirst place) (ihSecond hsecond)
  | alt first second ihFirst ihSecond =>
    obtain ⟨hfirst, hsecond⟩ := Bool.and_eq_true_iff.mp h
    intro x hx
    rcases List.mem_append.mp hx with hx | hx
    · exact ihFirst hfirst place x hx
    · exact ihSecond hsecond place x hx
  | group index body ih =>
    intro x hx
    obtain ⟨next, hnext, rfl⟩ := List.mem_map.mp hx
    exact ih h (place.1, place.2.setIfInBounds (2 * index) (some place.1)) next hnext
  | exactly count body ih => exact Ways.along_exactly stays_refl stays_trans (ih h) count place
  | upTo count greedy body ih =>
    exact Ways.along_upTo stays_refl stays_trans (ih h) greedy count place
  | more greedy body ih => exact Ways.along_more stays_refl stays_trans (ih h) greedy _ place
  | plus greedy body ih => exact Ways.along_plus stays_refl stays_trans (ih h) _ greedy place
  | _ => cases h

/-! ### Repeated nodes -/

namespace Node

/-- A node that is repeated. What consumes nothing is repeated once at
most. -/
def loop (min : Nat) (max? : Option Nat) (greedy : Bool) (node : Node) : Node :=
  if node.consumesNothing then
    .repeated (Nat.min min 1) (some (Nat.min (max?.getD 1) 1)) greedy node
  else .repeated min max? greedy node

theorem min_le_once {min : Nat} {max? : Option Nat} (hmax : ∀ max ∈ max?, min ≤ max) :
    ∀ max ∈ some (Nat.min (max?.getD 1) 1), Nat.min min 1 ≤ max := by
  rintro max ⟨⟩
  show Min.min min 1 ≤ Min.min (max?.getD 1) 1
  cases hbound : max? with
  | none => exact Nat.min_le_right _ _
  | some max =>
    have hle := hmax max hbound
    show Min.min min 1 ≤ Min.min max 1
    omega

section Loop

variable (search : Search) {node : Node} {min : Nat} {max? : Option Nat} (greedy : Bool)
  (hmax : ∀ max ∈ max?, min ≤ max)

include hmax

/-- A loop leads where its body leads. -/
theorem along_loop {P : Nat × Slots → Nat × Slots → Prop} (hrefl : ∀ place, P place place)
    (htrans : ∀ place between next, P place between → P between next → P place next)
    (h : ∀ place, Ways.Along P place (node.ways search place)) (place : Nat × Slots) :
    Ways.Along P place ((loop min max? greedy node).ways search place) := by
  unfold loop
  by_cases hnothing : node.consumesNothing = true
  · rw [if_pos hnothing, ways_repeated search _ _ greedy (min_le_once hmax)]
    exact Ways.along_repeated hrefl htrans h _ _ _ _ greedy place
  · rw [if_neg hnothing, ways_repeated search _ _ greedy hmax]
    exact Ways.along_repeated hrefl htrans h _ _ _ _ greedy place

/-- A loop is a repetition, as far as positions show. -/
theorem agree_loop {τ : Type} [Nonempty τ] {step : Nat × τ → List (Nat × τ)}
    (h : ∀ (place : Nat × Slots) (place' : Nat × τ), SamePos place place' →
      Agree SamePos (node.ways search place) (step place'))
    {place : Nat × Slots} {place' : Nat × τ} (hplace : SamePos place place') :
    Agree SamePos ((loop min max? greedy node).ways search place)
      (Ways.repeated search.text.size false min max? greedy step place') := by
  have hrepeated : Agree SamePos
      (Ways.repeated search.text.size false min max? greedy (node.ways search) place)
      (Ways.repeated search.text.size false min max? greedy step place') :=
    Agree.repeated h (fun _ _ hnext => hnext) _ _ _ _ greedy hplace
  unfold loop
  by_cases hnothing : node.consumesNothing = true
  · have hsame : ∀ next next' : Nat × Slots, SamePos next next' →
        (node.ways search next = [] ↔ node.ways search next' = []) := by
      intro next next' hnext
      obtain ⟨kept⟩ := ‹Nonempty τ›
      exact ((h next (next.1, kept) rfl).eq_nil_iff).trans
        ((h next' (next.1, kept) hnext.symm).eq_nil_iff).symm
    rw [if_pos hnothing, ways_repeated search _ _ greedy (min_le_once hmax)]
    exact (agree_repeated_once (stays_ways search hnothing) hsame _ _ _ _ greedy
      (rfl : SamePos place place)).trans_samePos hrepeated
  · rw [if_neg hnothing, ways_repeated search _ _ greedy hmax]
    exact hrepeated

end Loop

end Node

end Highlighter.Regex
