import Mathlib.Logic.Basic

/-!
# Ways in order

A pattern may match in several ways. They are listed best first, and
what comes after decides how far down the list a match has to go. So
two lists count as the same if no rest can tell them apart: a way that
comes again, after it was refused, changes nothing (`Agree`). The
places in the two lists may keep different things; a relation says
which of them belong together.

A place is a position with what is kept besides. The loops of patterns
are built from a step, which lists the ways of one iteration. They
keep agreement (`Agree.exactly`, `Agree.upTo`, `Agree.star`,
`Agree.plus`).
-/

set_option autoImplicit false

namespace Highlighter.Regex

/-! ### Steps and loops -/

namespace Ways

variable {σ : Type}

/-- One character of a set. -/
def one (text : Array Char) (set : Char → Bool) (place : Nat × σ) : List (Nat × σ) :=
  match text[place.1]? with
  | some c => if set c then [(place.1 + 1, place.2)] else []
  | none => []

/-- The place itself, under a condition. -/
def check (holds : Bool) (place : Nat × σ) : List (Nat × σ) := if holds then [place] else []

/-- One place after the others, or before them. -/
def arrange (greedy : Bool) (others : List (Nat × σ)) (place : Nat × σ) : List (Nat × σ) :=
  if greedy then others ++ [place] else place :: others

/-- A step `count` times in a row. -/
def exactly (step : Nat × σ → List (Nat × σ)) : Nat → Nat × σ → List (Nat × σ)
  | 0, place => [place]
  | count + 1, place => (step place).flatMap (exactly step count)

theorem exactly_zero (step : Nat × σ → List (Nat × σ)) (place : Nat × σ)
    (next : Nat × σ → List (Nat × σ)) : (exactly step 0 place).flatMap next = next place := by
  show [place].flatMap next = _
  rw [List.flatMap_cons, List.flatMap_nil, List.append_nil]

/-- A step at most `count` times. -/
def upTo (greedy : Bool) (step : Nat × σ → List (Nat × σ)) : Nat → Nat × σ → List (Nat × σ)
  | 0, place => [place]
  | count + 1, place => arrange greedy ((step place).flatMap (upTo greedy step count)) place

/-- A step any number of times, each time consuming something. As many
iterations as `fuel` says are enough when no more characters are
left. -/
def more (greedy : Bool) (step : Nat × σ → List (Nat × σ)) : Nat → Nat × σ → List (Nat × σ)
  | 0, place => [place]
  | fuel + 1, place =>
    arrange greedy
      ((step place).flatMap fun next =>
        if next.1 = place.1 then [] else more greedy step fuel next)
      place

/-- A step any number of times in a text of `size` characters, each
time consuming something. -/
def star (size : Nat) (greedy : Bool) (step : Nat × σ → List (Nat × σ)) (place : Nat × σ) :
    List (Nat × σ) :=
  more greedy step (size + 1 - place.1) place

/-- A step at least once. If the first iteration consumes nothing, the
loop is left. -/
def plus (size : Nat) (greedy : Bool) (step : Nat × σ → List (Nat × σ)) (place : Nat × σ) :
    List (Nat × σ) :=
  (step place).flatMap fun next =>
    if next.1 = place.1 then [next] else star size greedy step next

/-- A step from `min` to `max?` times. Without an upper bound there are
two rules for iterations that consume nothing: where loops `retry`,
such an iteration fails once there have been `min` ones. Else it may be
the last one of the `min`, or the only one. -/
def repeated (size : Nat) (retry : Bool) (min : Nat) (max? : Option Nat) (greedy : Bool)
    (step : Nat × σ → List (Nat × σ)) (place : Nat × σ) : List (Nat × σ) :=
  match max? with
  | some max => (exactly step min place).flatMap (upTo greedy step (max - min))
  | none =>
    if retry then (exactly step min place).flatMap (star size greedy step)
    else
      match min with
      | 0 => arrange greedy (plus size greedy step place) place
      | min + 1 => (exactly step min place).flatMap (plus size greedy step)

/-- The ways of what is looked for: ahead it starts at the place, and
behind it ends there. -/
def found (behind : Bool) (step : Nat × σ → List (Nat × σ)) (place : Nat × σ) : List (Nat × σ) :=
  if behind then
    (List.range (place.1 + 1)).flatMap fun start =>
      (step (start, place.2)).flatMap fun next => check (next.1 == place.1) next
  else step place

/-- A look-around. The position stays. -/
def look (behind negated : Bool) (step : Nat × σ → List (Nat × σ)) (place : Nat × σ) :
    List (Nat × σ) :=
  if negated then check (found behind step place).isEmpty place
  else (found behind step place).map fun next => (place.1, next.2)

end Ways

/-! ### Where ways lead -/

namespace Ways

/-- All ways from a place lead to places that are related to it. -/
def Along {σ : Type} (P : Nat × σ → Nat × σ → Prop) (place : Nat × σ) (ways : List (Nat × σ)) :
    Prop :=
  ∀ next ∈ ways, P place next

section Along

variable {σ : Type} {P : Nat × σ → Nat × σ → Prop} (hrefl : ∀ place, P place place)
  (htrans : ∀ place between next, P place between → P between next → P place next)
  {step : Nat × σ → List (Nat × σ)} (hstep : ∀ place, Along P place (step place))

include hrefl in
theorem along_single (place : Nat × σ) : Along P place [place] := by
  intro next hnext
  rw [List.mem_singleton.mp hnext]
  exact hrefl place

include htrans in
theorem along_flatMap {place : Nat × σ} {first : List (Nat × σ)}
    {second : Nat × σ → List (Nat × σ)} (hfirst : Along P place first)
    (hsecond : ∀ between, Along P between (second between)) :
    Along P place (first.flatMap second) := by
  intro next hnext
  obtain ⟨between, hbetween, hnext⟩ := List.mem_flatMap.mp hnext
  exact htrans place between next (hfirst between hbetween) (hsecond between next hnext)

include hrefl in
theorem along_arrange (greedy : Bool) {others : List (Nat × σ)} {place : Nat × σ}
    (h : Along P place others) : Along P place (arrange greedy others place) := by
  intro next hnext
  unfold arrange at hnext
  cases greedy with
  | true =>
    rcases List.mem_append.mp hnext with hnext | hnext
    · exact h next hnext
    · exact along_single hrefl place next hnext
  | false =>
    rcases List.mem_cons.mp hnext with rfl | hnext
    · exact hrefl next
    · exact h next hnext

omit htrans hrefl in
theorem along_one {text : Array Char} {set : Char → Bool} {place : Nat × σ}
    (h : place.1 + 1 ≤ text.size → P place (place.1 + 1, place.2)) :
    Along P place (one text set place) := by
  intro next hnext
  unfold one at hnext
  split at hnext
  · rename_i hchar
    split at hnext
    · rw [List.mem_singleton.mp hnext]
      exact h (Array.getElem?_eq_some_iff.mp hchar).1
    · cases hnext
  · cases hnext

omit htrans hrefl in
theorem along_check {holds : Bool} {place : Nat × σ} (h : P place place) :
    Along P place (check holds place) := by
  intro next hnext
  unfold check at hnext
  split at hnext
  · rw [List.mem_singleton.mp hnext]
    exact h
  · cases hnext

omit htrans hrefl in
/-- What is found around a place is found from there or from somewhere
before. -/
theorem along_found {next : Nat × σ → Prop} {place : Nat × σ}
    (h : ∀ pos ≤ place.1, ∀ found ∈ step (pos, place.2), next found) (behind : Bool) :
    ∀ found ∈ Ways.found behind step place, next found := by
  cases behind with
  | false => exact h place.1 (Nat.le_refl _)
  | true =>
    intro found hfound
    obtain ⟨start, hstart, hfound⟩ := List.mem_flatMap.mp hfound
    obtain ⟨between, hbetween, hfound⟩ := List.mem_flatMap.mp hfound
    unfold check at hfound
    split at hfound
    · rw [List.mem_singleton.mp hfound]
      exact h start (Nat.lt_succ_iff.mp (List.mem_range.mp hstart)) between hbetween
    · cases hfound

omit htrans hrefl in
theorem along_look {behind negated : Bool} {place : Nat × σ} (hplace : P place place)
    (h : ∀ found ∈ Ways.found behind step place, P place (place.1, found.2)) :
    Along P place (look behind negated step place) := by
  cases negated with
  | true => exact along_check hplace
  | false =>
    intro next hnext
    obtain ⟨found, hfound, rfl⟩ := List.mem_map.mp hnext
    exact h found hfound

include hrefl htrans hstep

theorem along_exactly (count : Nat) (place : Nat × σ) :
    Along P place (exactly step count place) := by
  induction count generalizing place with
  | zero => exact along_single hrefl place
  | succ count ih => exact along_flatMap htrans (hstep place) ih

theorem along_upTo (greedy : Bool) (count : Nat) (place : Nat × σ) :
    Along P place (upTo greedy step count place) := by
  induction count generalizing place with
  | zero => exact along_single hrefl place
  | succ count ih => exact along_arrange hrefl greedy (along_flatMap htrans (hstep place) ih)

theorem along_more (greedy : Bool) (fuel : Nat) (place : Nat × σ) :
    Along P place (more greedy step fuel place) := by
  induction fuel generalizing place with
  | zero => exact along_single hrefl place
  | succ fuel ih =>
    refine along_arrange hrefl greedy (along_flatMap htrans (hstep place) fun between => ?_)
    by_cases hsame : between.1 = place.1
    · rw [if_pos hsame]
      exact fun next hnext => nomatch hnext
    · rw [if_neg hsame]
      exact ih between

theorem along_plus (size : Nat) (greedy : Bool) (place : Nat × σ) :
    Along P place (plus size greedy step place) := by
  refine along_flatMap htrans (hstep place) fun between => ?_
  by_cases hsame : between.1 = place.1
  · rw [if_pos hsame]
    exact along_single hrefl between
  · rw [if_neg hsame]
    exact along_more hrefl htrans hstep greedy _ between

/-- Loops lead where their steps lead. -/
theorem along_repeated (size : Nat) (retry : Bool) (min : Nat) (max? : Option Nat) (greedy : Bool)
    (place : Nat × σ) : Along P place (repeated size retry min max? greedy step place) := by
  have hexactly := fun count => along_exactly hrefl htrans hstep count place
  unfold repeated
  cases max? with
  | some max => exact along_flatMap htrans (hexactly min) (along_upTo hrefl htrans hstep greedy _)
  | none =>
    cases retry with
    | true =>
      exact along_flatMap htrans (hexactly min) fun between =>
        along_more hrefl htrans hstep greedy _ between
    | false =>
      cases min with
      | zero => exact along_arrange hrefl greedy (along_plus hrefl htrans hstep size greedy place)
      | succ min =>
        exact along_flatMap htrans (hexactly min) (along_plus hrefl htrans hstep size greedy)

end Along

end Ways

/-! ### Agreement -/

/-- The first success among the ways that follow one of some ways. -/
theorem findSome?_flatMap {α β γ : Type} (xs : List α) (ways : α → List β) (next : β → Option γ) :
    (xs.flatMap ways).findSome? next = xs.findSome? fun x => (ways x).findSome? next := by
  induction xs with
  | nil => rfl
  | cons x xs ih =>
    rw [List.flatMap_cons, List.findSome?_append, ih, List.findSome?_cons]
    cases (ways x).findSome? next with
    | none => rw [Option.none_or]
    | some found => rw [Option.some_or]

theorem findSome?_singleton {α γ : Type} (x : α) (next : α → Option γ) :
    [x].findSome? next = next x := by
  rw [List.findSome?_cons, List.findSome?_nil]
  cases next x with
  | none => rfl
  | some found => rfl

/-- Two lists that no rest can tell apart, if rests do not tell related
entries apart. -/
def Agree {α β : Type} (R : α → β → Prop) (xs : List α) (ys : List β) : Prop :=
  ∀ (γ : Type) (f : α → Option γ) (g : β → Option γ), (∀ x y, R x y → f x = g y) →
    xs.findSome? f = ys.findSome? g

namespace Agree

variable {α β : Type} {R : α → β → Prop} {xs xs' : List α} {ys ys' : List β}

theorem nil : Agree R [] [] := fun _ _ _ _ => rfl

theorem single {x : α} {y : β} (h : R x y) : Agree R [x] [y] := by
  intro γ f g hfg
  rw [findSome?_singleton, findSome?_singleton]
  exact hfg x y h

theorem append (h : Agree R xs ys) (h' : Agree R xs' ys') : Agree R (xs ++ xs') (ys ++ ys') := by
  intro γ f g hfg
  rw [List.findSome?_append, List.findSome?_append, h γ f g hfg, h' γ f g hfg]

theorem flatMap {α' β' : Type} {R' : α' → β' → Prop} {f : α → List α'} {g : β → List β'}
    (h : Agree R xs ys) (hstep : ∀ x y, R x y → Agree R' (f x) (g y)) :
    Agree R' (xs.flatMap f) (ys.flatMap g) := by
  intro γ next next' hnext
  rw [findSome?_flatMap, findSome?_flatMap]
  exact h γ _ _ fun x y hxy => hstep x y hxy γ next next' hnext

theorem map {α' β' : Type} {R' : α' → β' → Prop} {f : α → α'} {g : β → β'}
    (h : Agree R xs ys) (hstep : ∀ x y, R x y → R' (f x) (g y)) :
    Agree R' (xs.map f) (ys.map g) := by
  intro γ next next' hnext
  rw [List.findSome?_map, List.findSome?_map]
  exact h γ _ _ fun x y hxy => hnext _ _ (hstep x y hxy)

/-- A looser relation keeps agreement: it leaves fewer rests. -/
theorem mono {R' : α → β → Prop} (h : Agree R xs ys) (hR : ∀ x y, R x y → R' x y) :
    Agree R' xs ys :=
  fun γ f g hfg => h γ f g fun x y hxy => hfg x y (hR x y hxy)

theorem refl (xs : List α) : Agree Eq xs xs := by
  intro γ f g hfg
  exact congrArg (xs.findSome? ·) (funext fun x => hfg x x rfl)

theorem symm (h : Agree R xs ys) : Agree (fun y x => R x y) ys xs :=
  fun γ f g hfg => (h γ g f fun x y hxy => (hfg y x hxy).symm).symm

/-- A list may be exchanged for one that agrees with it entry by
entry. -/
theorem trans_right (h : Agree R xs ys) (h' : Agree Eq ys ys') : Agree R xs ys' := by
  intro γ f g hfg
  rw [h γ f g hfg]
  exact h' γ g g fun x y hxy => congrArg g hxy

/-- Lists that agree are both empty or both not. -/
theorem eq_nil_iff (h : Agree R xs ys) : xs = [] ↔ ys = [] := by
  have hsome := h Unit (fun _ => some ()) (fun _ => some ()) fun _ _ _ => rfl
  cases xs with
  | nil =>
    cases ys with
    | nil => exact ⟨fun _ => rfl, fun _ => rfl⟩
    | cons y ys => cases hsome
  | cons x xs =>
    cases ys with
    | nil => cases hsome
    | cons y ys => exact ⟨fun hnil => (nomatch hnil), fun hnil => (nomatch hnil)⟩

/-- The best entries of lists that agree are the same, as far as the
relation shows. -/
theorem head?_map {γ : Type} (h : Agree R xs ys) {f : α → γ} {g : β → γ}
    (hfg : ∀ x y, R x y → f x = g y) : xs.head?.map f = ys.head?.map g := by
  have hsome := h γ (some ∘ f) (some ∘ g) fun x y hxy => congrArg some (hfg x y hxy)
  have hhead : ∀ {δ : Type} (zs : List δ) (k : δ → γ),
      zs.findSome? (some ∘ k) = zs.head?.map k := by
    intro δ zs k
    cases zs with
    | nil => rfl
    | cons z zs => rfl
  rw [hhead, hhead] at hsome
  exact hsome

/-- Lists all of whose entries belong together agree if both have an
entry or neither has. -/
theorem of_forall (hall : ∀ x ∈ xs, ∀ y ∈ ys, R x y) (h : xs = [] ↔ ys = []) : Agree R xs ys := by
  intro γ f g hfg
  cases xs with
  | nil => rw [h.mp rfl, List.findSome?_nil, List.findSome?_nil]
  | cons x xs =>
    cases ys with
    | nil => cases h.mpr rfl
    | cons y ys =>
      have hxy : ∀ x' ∈ x :: xs, ∀ y' ∈ y :: ys, f x' = g y' :=
        fun x' hx y' hy => hfg x' y' (hall x' hx y' hy)
      have hfirst := hxy x List.mem_cons_self y List.mem_cons_self
      have hxs : ∀ x' ∈ xs, f x' = g y := fun x' hx' =>
        hxy x' (List.mem_cons_of_mem x hx') y List.mem_cons_self
      have hys : ∀ y' ∈ ys, g y' = g y := fun y' hy' =>
        (hxy x List.mem_cons_self y' (List.mem_cons_of_mem y hy')).symm.trans hfirst
      rw [List.findSome?_cons, List.findSome?_cons, hfirst]
      cases hgy : g y with
      | some found => rfl
      | none =>
        rw [List.findSome?_eq_none_iff.mpr fun x' hx' => (hxs x' hx').trans hgy,
          List.findSome?_eq_none_iff.mpr fun y' hy' => (hys y' hy').trans hgy]

/-- What holds of all entries of one list, as far as the relation
shows, holds of all entries of the other. -/
theorem forall_iff {p : α → Prop} {q : β → Prop} [DecidablePred p] [DecidablePred q]
    (h : Agree R xs ys) (hpq : ∀ x y, R x y → (p x ↔ q y)) : (∀ x ∈ xs, p x) ↔ ∀ y ∈ ys, q y := by
  have hboth := h Unit (fun x => if p x then none else some ())
    (fun y => if q y then none else some ()) fun x y hxy => by simp only [hpq x y hxy]
  have hx : xs.findSome? (fun x => if p x then none else some ()) = none ↔ ∀ x ∈ xs, p x := by
    rw [List.findSome?_eq_none_iff]
    exact forall₂_congr fun x _ => by simp
  have hy : ys.findSome? (fun y => if q y then none else some ()) = none ↔ ∀ y ∈ ys, q y := by
    rw [List.findSome?_eq_none_iff]
    exact forall₂_congr fun y _ => by simp
  rw [← hx, ← hy, hboth]

end Agree

/-! ### Loops keep agreement -/

namespace Agree

variable {σ τ : Type} {R : Nat × σ → Nat × τ → Prop} {step : Nat × σ → List (Nat × σ)}
  {step' : Nat × τ → List (Nat × τ)}

theorem arrange {xs : List (Nat × σ)} {ys : List (Nat × τ)} {place : Nat × σ} {place' : Nat × τ}
    (greedy : Bool) (h : Agree R xs ys) (hplace : R place place') :
    Agree R (Ways.arrange greedy xs place) (Ways.arrange greedy ys place') := by
  cases greedy with
  | true => exact h.append (single hplace)
  | false => exact (single hplace).append h

variable (hstep : ∀ place place', R place place' → Agree R (step place) (step' place'))

include hstep

theorem exactly (count : Nat) {place : Nat × σ} {place' : Nat × τ} (h : R place place') :
    Agree R (Ways.exactly step count place) (Ways.exactly step' count place') := by
  induction count generalizing place place' with
  | zero => exact single h
  | succ count ih => exact (hstep place place' h).flatMap fun next next' hnext => ih hnext

theorem upTo (greedy : Bool) (count : Nat) {place : Nat × σ} {place' : Nat × τ}
    (h : R place place') :
    Agree R (Ways.upTo greedy step count place) (Ways.upTo greedy step' count place') := by
  induction count generalizing place place' with
  | zero => exact single h
  | succ count ih =>
    exact arrange greedy ((hstep place place' h).flatMap fun next next' hnext => ih hnext) h

variable (hpos : ∀ place place', R place place' → place.1 = place'.1)

include hpos

theorem more (greedy : Bool) (fuel : Nat) {place : Nat × σ} {place' : Nat × τ}
    (h : R place place') :
    Agree R (Ways.more greedy step fuel place) (Ways.more greedy step' fuel place') := by
  induction fuel generalizing place place' with
  | zero => exact single h
  | succ fuel ih =>
    refine arrange greedy ((hstep place place' h).flatMap fun next next' hnext => ?_) h
    rw [← hpos place place' h, ← hpos next next' hnext]
    by_cases hsame : next.1 = place.1
    · rw [if_pos hsame, if_pos hsame]
      exact nil
    · rw [if_neg hsame, if_neg hsame]
      exact ih hnext

theorem star (size : Nat) (greedy : Bool) {place : Nat × σ} {place' : Nat × τ}
    (h : R place place') :
    Agree R (Ways.star size greedy step place) (Ways.star size greedy step' place') := by
  unfold Ways.star
  rw [← hpos place place' h]
  exact more hstep hpos greedy _ h

theorem plus (size : Nat) (greedy : Bool) {place : Nat × σ} {place' : Nat × τ}
    (h : R place place') :
    Agree R (Ways.plus size greedy step place) (Ways.plus size greedy step' place') := by
  refine (hstep place place' h).flatMap fun next next' hnext => ?_
  rw [← hpos place place' h, ← hpos next next' hnext]
  by_cases hsame : next.1 = place.1
  · rw [if_pos hsame, if_pos hsame]
    exact single hnext
  · rw [if_neg hsame, if_neg hsame]
    exact star hstep hpos size greedy hnext

theorem repeated (size : Nat) (retry : Bool) (min : Nat) (max? : Option Nat) (greedy : Bool)
    {place : Nat × σ} {place' : Nat × τ} (h : R place place') :
    Agree R (Ways.repeated size retry min max? greedy step place)
      (Ways.repeated size retry min max? greedy step' place') := by
  unfold Ways.repeated
  cases max? with
  | some max =>
    exact (exactly hstep min h).flatMap fun next next' hnext => upTo hstep greedy _ hnext
  | none =>
    cases retry with
    | true =>
      exact (exactly hstep min h).flatMap fun next next' hnext => star hstep hpos size greedy hnext
    | false =>
      cases min with
      | zero => exact arrange greedy (plus hstep hpos size greedy h) h
      | succ min =>
        exact (exactly hstep min h).flatMap fun next next' hnext =>
          plus hstep hpos size greedy hnext

end Agree

/-! ### Single steps keep agreement -/

theorem Agree.one {σ τ : Type} {R : Nat × σ → Nat × τ → Prop} (text : Array Char)
    (set : Char → Bool) {place : Nat × σ} {place' : Nat × τ} (hpos : place.1 = place'.1)
    (hnext : R (place.1 + 1, place.2) (place'.1 + 1, place'.2)) :
    Agree R (Ways.one text set place) (Ways.one text set place') := by
  unfold Ways.one
  rw [← hpos] at hnext ⊢
  cases text[place.1]? with
  | none => exact Agree.nil
  | some c =>
    by_cases hc : set c
    · simp only [hc, if_true]
      exact Agree.single hnext
    · simp only [hc]
      exact Agree.nil

theorem Agree.check {σ τ : Type} {R : Nat × σ → Nat × τ → Prop} (holds : Bool) {place : Nat × σ}
    {place' : Nat × τ} (h : R place place') :
    Agree R (Ways.check holds place) (Ways.check holds place') := by
  cases holds with
  | true => exact Agree.single h
  | false => exact Agree.nil

/-! ### Look-around keeps agreement -/

section Look

variable {σ τ : Type} {R : Nat × σ → Nat × τ → Prop} {step : Nat × σ → List (Nat × σ)}
  {step' : Nat × τ → List (Nat × τ)}
  (hstep : ∀ place place', R place place' → Agree R (step place) (step' place'))
  (hpos : ∀ place place', R place place' → place.1 = place'.1)
  (hmove : ∀ place place', R place place' → ∀ pos, R (pos, place.2) (pos, place'.2))

include hstep hpos hmove

theorem Agree.found (behind : Bool) {place : Nat × σ} {place' : Nat × τ} (h : R place place') :
    Agree R (Ways.found behind step place) (Ways.found behind step' place') := by
  cases behind with
  | false => exact hstep place place' h
  | true =>
    show Agree R ((List.range (place.1 + 1)).flatMap _) ((List.range (place'.1 + 1)).flatMap _)
    rw [← hpos place place' h]
    refine (Agree.refl (List.range (place.1 + 1))).flatMap fun start start' hstart => ?_
    cases hstart
    refine (hstep _ _ (hmove place place' h start)).flatMap fun next next' hnext => ?_
    rw [← hpos next next' hnext]
    exact Agree.check _ hnext

theorem Agree.look (behind negated : Bool) {place : Nat × σ} {place' : Nat × τ}
    (h : R place place') :
    Agree R (Ways.look behind negated step place) (Ways.look behind negated step' place') := by
  have hfound := Agree.found hstep hpos hmove behind h
  cases negated with
  | true =>
    have hempty := hfound.eq_nil_iff
    rw [← List.isEmpty_iff, ← List.isEmpty_iff, ← Bool.eq_iff_iff] at hempty
    show Agree R (Ways.check _ place) (Ways.check _ place')
    rw [hempty]
    exact Agree.check _ h
  | false =>
    refine hfound.map fun next next' hnext => ?_
    rw [← hpos place place' h]
    exact hmove next next' hnext place.1

end Look

end Highlighter.Regex
