import Highlighter.Proofs.Pattern.Meaning
import Mathlib.Data.List.Forall2

/-!
# Patterns in an excerpt of a text

A pattern without assertions cannot see what stands around it. In an
excerpt of a text it has the ways that it has in the whole text, less
those that end beyond the excerpt (`truncates_ways`). Their order stays,
so where the best way in the whole text ends inside the excerpt, it is
the best way in the excerpt too (`stop?_excerpt`), and where there is
none in the whole text, there is none in the excerpt
(`stop?_excerpt_eq_none`).

Leaving out ways is compatible with what ways are built from
(`Truncates`), since no step leads back: what follows a way that ends
beyond the excerpt ends beyond it as well.
-/

set_option autoImplicit false

namespace Highlighter.Regex

/-! ### Ways up to a limit -/

/-- A way does not lead back. -/
def Onward {σ : Type} (place next : Nat × σ) : Prop := place.1 ≤ next.1

theorem onward_refl {σ : Type} (place : Nat × σ) : Onward place place := Nat.le_refl _

theorem onward_trans {σ : Type} (place between next : Nat × σ) (h : Onward place between)
    (h' : Onward between next) : Onward place next :=
  Nat.le_trans h h'

/-- Two lists that belong together entry by entry, once the places
beyond a limit are left out of the first one. -/
def Truncates {σ τ : Type} (R : Nat × σ → Nat × τ → Prop) (limit : Nat) (xs : List (Nat × σ))
    (ys : List (Nat × τ)) : Prop :=
  List.Forall₂ R (xs.filter fun place => place.1 ≤ limit) ys

namespace Truncates

variable {σ τ : Type} {R : Nat × σ → Nat × τ → Prop} {limit : Nat} {xs xs' : List (Nat × σ)}
  {ys ys' : List (Nat × τ)}

theorem nil : Truncates R limit [] [] := List.Forall₂.nil

theorem beyond (h : ∀ place ∈ xs, limit < place.1) : Truncates R limit xs [] := by
  have hnone : xs.filter (fun place => place.1 ≤ limit) = [] :=
    List.filter_eq_nil_iff.mpr fun place hplace =>
      decide_eq_true_iff.not.mpr (Nat.not_le.mpr (h place hplace))
  unfold Truncates
  rw [hnone]
  exact .nil

theorem single {place : Nat × σ} {place' : Nat × τ} (hle : place.1 ≤ limit)
    (h : R place place') : Truncates R limit [place] [place'] := by
  unfold Truncates
  rw [List.filter_singleton, decide_eq_true hle]
  exact .cons h .nil

theorem append (h : Truncates R limit xs ys) (h' : Truncates R limit xs' ys') :
    Truncates R limit (xs ++ xs') (ys ++ ys') := by
  unfold Truncates
  rw [List.filter_append]
  exact List.rel_append h h'

/-- A place up to the limit belongs to the first place of the other
list. -/
theorem of_cons {place : Nat × σ} (h : Truncates R limit (place :: xs) ys)
    (hle : place.1 ≤ limit) :
    ∃ place' rest, ys = place' :: rest ∧ R place place' ∧ Truncates R limit xs rest := by
  have hcons : (place :: xs).filter (fun place => place.1 ≤ limit)
      = place :: xs.filter fun place => place.1 ≤ limit :=
    List.filter_cons_of_pos (decide_eq_true hle)
  unfold Truncates at h
  rw [hcons] at h
  cases h with
  | cons hplace h => exact ⟨_, _, rfl, hplace, h⟩

/-- A place beyond the limit is left out. -/
theorem of_cons_beyond {place : Nat × σ} (h : Truncates R limit (place :: xs) ys)
    (hlt : limit < place.1) : Truncates R limit xs ys := by
  have hcons : (place :: xs).filter (fun place => place.1 ≤ limit)
      = xs.filter fun place => place.1 ≤ limit :=
    List.filter_cons_of_neg (decide_eq_true_iff.not.mpr (Nat.not_le.mpr hlt))
  unfold Truncates at h
  rw [hcons] at h
  exact h

/-- Places are changed, but not their positions. -/
theorem map {σ' τ' : Type} {R' : Nat × σ' → Nat × τ' → Prop} {f : Nat × σ → Nat × σ'}
    {g : Nat × τ → Nat × τ'} (h : Truncates R limit xs ys) (hpos : ∀ place, (f place).1 = place.1)
    (hR : ∀ place place', R place place' → R' (f place) (g place')) :
    Truncates R' limit (xs.map f) (ys.map g) := by
  have hfilter : (xs.map f).filter (fun place => place.1 ≤ limit)
      = (xs.filter fun place => place.1 ≤ limit).map f := by
    rw [List.filter_map]
    exact congrArg (List.map f) (List.filter_congr fun place _ => by simp [hpos])
  unfold Truncates
  rw [hfilter, List.forall₂_map_left_iff, List.forall₂_map_right_iff]
  exact h.imp hR

/-- What follows places beyond the limit is beyond it. -/
theorem flatMap {next : Nat × σ → List (Nat × σ)} {next' : Nat × τ → List (Nat × τ)}
    (h : Truncates R limit xs ys) (honward : ∀ place, Ways.Along Onward place (next place))
    (hnext : ∀ place ∈ xs, ∀ place', R place place' →
      Truncates R limit (next place) (next' place')) :
    Truncates R limit (xs.flatMap next) (ys.flatMap next') := by
  induction xs generalizing ys with
  | nil =>
    cases h
    exact nil
  | cons place xs ih =>
    have hrest := fun other hother => hnext other (List.mem_cons_of_mem place hother)
    rcases Nat.lt_or_ge limit place.1 with hlt | hle
    · rw [List.flatMap_cons, ← List.nil_append (ys.flatMap next')]
      refine (beyond fun found hfound => ?_).append (ih (h.of_cons_beyond hlt) hrest)
      exact Nat.lt_of_lt_of_le hlt (honward place found hfound)
    · obtain ⟨place', rest, rfl, hplace, h⟩ := h.of_cons hle
      exact (hnext place List.mem_cons_self place' hplace).append (ih h hrest)

/-! ### Loops -/

section Loops

variable {offset size : Nat} {step : Nat × σ → List (Nat × σ)} {step' : Nat × τ → List (Nat × τ)}
  (hR : ∀ place place', R place place' → place.1 = offset + place'.1 ∧ place'.1 ≤ size)
  (honward : ∀ place, Ways.Along Onward place (step place))
  (hstep : ∀ place place', R place place' →
    Truncates R (offset + size) (step place) (step' place'))
  {place : Nat × σ} {place' : Nat × τ} (h : R place place')

include hR h

omit honward hstep in
theorem here : Truncates R (offset + size) [place] [place'] := by
  have hpos := hR place place' h
  exact single (by omega) h

omit honward hstep in
theorem arrange (greedy : Bool) (hothers : Truncates R (offset + size) xs ys) :
    Truncates R (offset + size) (Ways.arrange greedy xs place)
      (Ways.arrange greedy ys place') := by
  cases greedy with
  | true => exact hothers.append (here hR h)
  | false => exact (here hR h).append hothers

include honward hstep

theorem exactly (count : Nat) :
    Truncates R (offset + size) (Ways.exactly step count place)
      (Ways.exactly step' count place') := by
  induction count generalizing place place' with
  | zero => exact here hR h
  | succ count ih =>
    exact (hstep place place' h).flatMap (Ways.along_exactly onward_refl onward_trans honward count)
      fun _ _ _ hnext => ih hnext

theorem upTo (greedy : Bool) (count : Nat) :
    Truncates R (offset + size) (Ways.upTo greedy step count place)
      (Ways.upTo greedy step' count place') := by
  induction count generalizing place place' with
  | zero => exact here hR h
  | succ count ih =>
    exact arrange hR h greedy ((hstep place place' h).flatMap
      (Ways.along_upTo onward_refl onward_trans honward greedy count) fun _ _ _ hnext => ih hnext)

/-- There are enough iterations if there are as many as characters are
left of the excerpt. The whole text may leave more. -/
theorem more (greedy : Bool) {fuel fuel' : Nat} (hfuel : size < fuel + place'.1)
    (hfuel' : size < fuel' + place'.1) :
    Truncates R (offset + size) (Ways.more greedy step fuel place)
      (Ways.more greedy step' fuel' place') := by
  -- The excerpt is the shorter one, so its number of iterations carries the induction.
  induction fuel' generalizing fuel place place' with
  | zero =>
    have hpos := hR place place' h
    omega
  | succ fuel' ih =>
    have hpos := hR place place' h
    obtain ⟨rest, rfl⟩ : ∃ rest, fuel = rest + 1 := ⟨fuel - 1, by omega⟩
    have hmore := Ways.along_more onward_refl onward_trans honward greedy rest
    refine arrange hR h greedy ((hstep place place' h).flatMap (fun next => ?_) ?_)
    · by_cases hsame : next.1 = place.1
      · rw [if_pos hsame]
        exact fun _ hfound => by cases hfound
      · rw [if_neg hsame]
        exact hmore next
    · intro next hmem next' hnext
      have hle : place.1 ≤ next.1 := honward place next hmem
      have hpos' := hR next next' hnext
      by_cases hsame : next.1 = place.1
      · rw [if_pos hsame, if_pos (by omega)]
        exact nil
      · rw [if_neg hsame, if_neg (by omega)]
        exact ih hnext (by omega) (by omega)

theorem star {whole : Nat} (hsize : offset + size ≤ whole) (greedy : Bool) :
    Truncates R (offset + size) (Ways.star whole greedy step place)
      (Ways.star size greedy step' place') := by
  have hpos := hR place place' h
  exact more hR honward hstep h greedy (by omega) (by omega)

theorem plus {whole : Nat} (hsize : offset + size ≤ whole) (greedy : Bool) :
    Truncates R (offset + size) (Ways.plus whole greedy step place)
      (Ways.plus size greedy step' place') := by
  have hpos := hR place place' h
  refine (hstep place place' h).flatMap (fun next => ?_) fun next _ next' hnext => ?_
  · by_cases hsame : next.1 = place.1
    · rw [if_pos hsame]
      exact Ways.along_single onward_refl next
    · rw [if_neg hsame]
      exact Ways.along_more onward_refl onward_trans honward greedy _ next
  · have hpos' := hR next next' hnext
    by_cases hsame : next.1 = place.1
    · rw [if_pos hsame, if_pos (by omega)]
      exact here hR hnext
    · rw [if_neg hsame, if_neg (by omega)]
      exact star hR honward hstep hnext hsize greedy

theorem repeated {whole : Nat} (hsize : offset + size ≤ whole) (retry : Bool) (min : Nat)
    (max? : Option Nat) (greedy : Bool) :
    Truncates R (offset + size) (Ways.repeated whole retry min max? greedy step place)
      (Ways.repeated size retry min max? greedy step' place') := by
  have hexactly := fun count => exactly hR honward hstep h count
  have hplus := Ways.along_plus onward_refl onward_trans honward whole greedy
  unfold Ways.repeated
  cases max? with
  | some max =>
    exact (hexactly min).flatMap (Ways.along_upTo onward_refl onward_trans honward greedy _)
      fun _ _ _ hnext => upTo hR honward hstep hnext greedy _
  | none =>
    cases retry with
    | true =>
      exact (hexactly min).flatMap
        (fun next => Ways.along_more onward_refl onward_trans honward greedy _ next)
        fun _ _ _ hnext => star hR honward hstep hnext hsize greedy
    | false =>
      cases min with
      | zero => exact arrange hR h greedy (plus hR honward hstep h hsize greedy)
      | succ min =>
        exact (hexactly min).flatMap hplus fun _ _ _ hnext =>
          plus hR honward hstep hnext hsize greedy

end Loops

/-! ### The best of the ways -/

theorem head?_none (h : Truncates R limit xs ys) (hnone : xs.head? = none) : ys.head? = none := by
  cases List.head?_eq_none_iff.mp hnone
  cases h
  rfl

theorem head?_some (h : Truncates R limit xs ys) {place : Nat × σ} (hhead : xs.head? = some place)
    (hle : place.1 ≤ limit) : ∃ place', ys.head? = some place' ∧ R place place' := by
  obtain ⟨rest, rfl⟩ := List.head?_eq_some_iff.mp hhead
  obtain ⟨place', others, rfl, hplace, -⟩ := h.of_cons hle
  exact ⟨place', rfl, hplace⟩

end Truncates

end Highlighter.Regex

namespace Highlighter.Pattern

open Regex

/-! ### Excerpts -/

/-- A text stands in another one at an offset. -/
structure Excerpt (whole part : Array Char) (offset : Nat) : Prop where
  size_le : offset + part.size ≤ whole.size
  getElem?_eq : ∀ pos < part.size, whole[offset + pos]? = part[pos]?

namespace Excerpt

variable {whole part : Array Char} {offset : Nat}

theorem ofAppend (before token after : List Char) :
    Excerpt (before ++ token ++ after).toArray token.toArray before.length where
  size_le := by
    simp only [List.size_toArray, List.length_append]
    omega
  getElem?_eq pos hpos := by
    rw [List.size_toArray] at hpos
    rw [List.getElem?_toArray, List.getElem?_toArray, List.append_assoc,
      List.getElem?_append_right (Nat.le_add_right _ _), Nat.add_sub_cancel_left,
      List.getElem?_append_left hpos]

variable (h : Excerpt whole part offset)

include h

theorem extract_eq {start stop : Nat} (hstop : stop ≤ part.size) :
    whole.extract (offset + start) (offset + stop) = part.extract start stop := by
  have hwhole := h.size_le
  refine Array.ext_getElem? fun index => ?_
  rw [Array.getElem?_extract, Array.getElem?_extract]
  by_cases hindex : index < min stop part.size - start
  · rw [if_pos hindex, if_pos (by omega), Nat.add_assoc]
    exact h.getElem?_eq (start + index) (by omega)
  · rw [if_neg hindex, if_neg (by omega)]

theorem standsAt_eq {cs : List Char} {pos : Nat} (hle : pos + cs.length ≤ part.size) :
    standsAt whole (offset + pos) cs = standsAt part pos cs := by
  induction cs generalizing pos with
  | nil => rfl
  | cons c cs ih =>
    rw [List.length_cons] at hle
    rw [standsAt, standsAt, h.getElem?_eq pos (by omega), Nat.add_assoc, ih (by omega)]

end Excerpt

/-- A place of an excerpt is a place of the whole text, and what groups
have matched is inside the excerpt. -/
structure Excerpted (offset size : Nat) (place place' : Nat × Marks) : Prop where
  pos_eq : place.1 = offset + place'.1
  pos_le : place'.1 ≤ size
  began : ∀ group, place.2.began group = (place'.2.began group).map (offset + ·)
  ended : ∀ group, place.2.ended group = (place'.2.ended group).map (offset + ·)
  ended_le : ∀ group, ∀ stop ∈ place'.2.ended group, stop ≤ size

namespace Excerpted

variable {offset size : Nat} {place place' : Nat × Marks}

theorem atStart (offset size : Nat) :
    Excerpted offset size (offset, Marks.none) (0, Marks.none) :=
  ⟨rfl, Nat.zero_le _, fun _ => rfl, fun _ => rfl, fun _ _ hstop => by cases hstop⟩

variable (h : Excerpted offset size place place')

include h

theorem move {pos : Nat} (hle : pos ≤ size) :
    Excerpted offset size (offset + pos, place.2) (pos, place'.2) :=
  ⟨rfl, hle, h.began, h.ended, h.ended_le⟩

theorem begin (group : Nat) :
    Excerpted offset size (place.1, place.2.begin group place.1)
      (place'.1, place'.2.begin group place'.1) := by
  refine ⟨h.pos_eq, h.pos_le, fun other => ?_, h.ended, h.ended_le⟩
  unfold Marks.begin
  by_cases hsame : other = group
  · simp only [hsame, if_true, h.pos_eq, Option.map_some]
  · simp only [if_neg hsame, h.began]

theorem finish (group : Nat) :
    Excerpted offset size (place.1, place.2.finish group place.1)
      (place'.1, place'.2.finish group place'.1) := by
  refine ⟨h.pos_eq, h.pos_le, h.began, fun other => ?_, fun other stop hstop => ?_⟩
  · unfold Marks.finish
    by_cases hsame : other = group
    · simp only [hsame, if_true, h.pos_eq, Option.map_some]
    · simp only [if_neg hsame, h.ended]
  · unfold Marks.finish at hstop
    by_cases hsame : other = group
    · simp only [hsame, if_true, Option.mem_def, Option.some.injEq] at hstop
      rw [← hstop]
      exact h.pos_le
    · simp only [if_neg hsame] at hstop
      exact h.ended_le other stop hstop

variable {whole part : Array Char} (hexcerpt : Excerpt whole part offset)

include hexcerpt

/-- At the end of the excerpt, a character of the whole text is too
much. -/
theorem one (hsize : part.size = size) (set : Char → Bool) :
    Truncates (Excerpted offset size) (offset + size) (Ways.one whole set place)
      (Ways.one part set place') := by
  unfold Ways.one
  by_cases hlt : place'.1 < size
  · rw [h.pos_eq, hexcerpt.getElem?_eq place'.1 (by omega)]
    cases part[place'.1]? with
    | none => exact .nil
    | some c =>
      by_cases hc : set c
      · simp only [hc, if_true]
        exact .single (by simp only; omega) (h.move hlt)
      · simp only [hc]
        exact .nil
  · have hend : part[place'.1]? = none := Array.getElem?_eq_none_iff.mpr (by omega)
    rw [hend]
    refine .beyond fun next hnext => ?_
    have hpos := h.pos_eq
    split at hnext
    · split at hnext
      · rw [List.mem_singleton.mp hnext]
        show offset + size < place.1 + 1
        omega
      · cases hnext
    · cases hnext

/-- What a group has matched stands in both texts. Once more, it may
reach beyond the excerpt. -/
theorem again (hsize : part.size = size) (group : Nat) :
    Truncates (Excerpted offset size) (offset + size) (place.2.again whole group place.1)
      (place'.2.again part group place'.1) := by
  unfold Marks.again
  rw [h.began, h.ended]
  cases place'.2.began group with
  | none => exact .nil
  | some start =>
    cases hended : place'.2.ended group with
    | none => exact .nil
    | some stop =>
      have hstop : stop ≤ part.size := hsize ▸ h.ended_le group stop hended
      have hlength : (part.extract start stop).toList.length = stop - start := by
        rw [Array.length_toList, Array.size_extract, Nat.min_eq_left hstop]
      simp only [Option.map_some]
      rw [hexcerpt.extract_eq hstop, Nat.add_sub_add_left, h.pos_eq, Nat.add_assoc]
      -- What is to come again ends inside the excerpt, or else only the whole text can have it.
      by_cases hle : place'.1 + (stop - start) ≤ size
      · rw [hexcerpt.standsAt_eq (by omega)]
        by_cases hstands : standsAt part place'.1 (part.extract start stop).toList
        · simp only [hstands, if_true]
          exact .single (by simp only; omega) (h.move hle)
        · simp only [hstands]
          exact .nil
      · have hnot : ¬standsAt part place'.1 (part.extract start stop).toList = true := by
          intro hstands
          have hinside := le_size_of_standsAt hstands (hsize ▸ h.pos_le)
          omega
        rw [if_neg hnot]
        refine .beyond fun next hnext => ?_
        split at hnext
        · rw [List.mem_singleton.mp hnext]
          show offset + size < offset + (place'.1 + (stop - start))
          omega
        · cases hnext

end Excerpted

/-! ### Patterns without assertions -/

namespace Expr

/-- Whether a pattern has no assertions: it asks only for what it
consumes. -/
def isFree : Expr → Bool
  | wordBoundary | textStart | textEnd | look _ _ _ => false
  | capture body | bare body | ignoring body | repeated _ _ body => body.isFree
  | seq first second | alt first second => first.isFree && second.isFree
  | _ => true

/-- No pattern leads back. -/
theorem onward_ways (sense : Sense) (ignoreCase : Bool) (opened : Nat) (expr : Expr)
    (place : Nat × Marks) :
    Ways.Along Onward place (expr.ways sense ignoreCase opened place) := by
  have hone : ∀ {set : CharSet} {place : Nat × Marks},
      Ways.Along Onward place (Ways.one sense.text set place) :=
    Ways.along_one fun _ => Nat.le_succ _
  induction expr generalizing ignoreCase opened place with
  | empty => exact Ways.along_single onward_refl place
  | coded letter braced digits =>
    rw [ways]
    cases coded? digits with
    | some c => exact hone
    | none => exact fun _ hnext => by cases hnext
  | wordBoundary => exact Ways.along_check (onward_refl place)
  | textStart => exact Ways.along_check (onward_refl place)
  | textEnd => exact Ways.along_check (onward_refl place)
  | capture body ih =>
    obtain ⟨pos, marks⟩ := place
    intro next hnext
    obtain ⟨found, hfound, rfl⟩ := List.mem_map.mp hnext
    exact ih ignoreCase (opened + 1) (pos, marks.begin (opened + 1) pos) found hfound
  | bare body ih => exact ih ignoreCase opened place
  | ignoring body ih => exact ih true opened place
  | look behind negated body ih =>
    exact Ways.along_look (onward_refl place) fun _ _ => onward_refl (place.1, _)
  | backref number =>
    obtain ⟨pos, marks⟩ := place
    intro next hnext
    rw [ways, Marks.again] at hnext
    split at hnext
    · split at hnext
      · rw [List.mem_singleton.mp hnext]
        exact Nat.le_add_right _ _
      · cases hnext
    · cases hnext
  | seq first second ihFirst ihSecond =>
    exact Ways.along_flatMap onward_trans (ihFirst ignoreCase opened place) (ihSecond ignoreCase _)
  | alt first second ihFirst ihSecond =>
    intro next hnext
    rcases List.mem_append.mp hnext with hnext | hnext
    · exact ihFirst ignoreCase opened place next hnext
    · exact ihSecond ignoreCase _ place next hnext
  | repeated count greedy body ih =>
    exact Ways.along_repeated onward_refl onward_trans (ih ignoreCase opened) _ _ _ _ greedy place
  | _ => exact hone

/-- In an excerpt, a pattern without assertions has the ways that it has
in the whole text and that end inside the excerpt. -/
theorem truncates_ways {whole part : Array Char} {offset : Nat} (hexcerpt : Excerpt whole part offset)
    (classSet? : List Char → Option ClassSet) (retry : Bool) {expr : Expr}
    (hfree : expr.isFree = true) (ignoreCase : Bool) (opened : Nat) {place place' : Nat × Marks}
    (h : Excerpted offset part.size place place') :
    Truncates (Excerpted offset part.size) (offset + part.size)
      (expr.ways ⟨whole, classSet?, retry⟩ ignoreCase opened place)
      (expr.ways ⟨part, classSet?, retry⟩ ignoreCase opened place') := by
  have hinside : ∀ place place', Excerpted offset part.size place place' →
      place.1 = offset + place'.1 ∧ place'.1 ≤ part.size :=
    fun _ _ h => ⟨h.pos_eq, h.pos_le⟩
  -- One case for each sort of pattern. Assertions are excluded, since they look at neighbours.
  induction expr generalizing ignoreCase opened place place' with
  | empty => exact .here hinside h
  | coded letter braced digits =>
    rw [ways, ways]
    cases coded? digits with
    | some c => exact h.one hexcerpt rfl _
    | none => exact .nil
  | wordBoundary => cases hfree
  | textStart => cases hfree
  | textEnd => cases hfree
  | look behind negated body ih => cases hfree
  | capture body ih =>
    obtain ⟨pos, marks⟩ := place
    obtain ⟨pos', marks'⟩ := place'
    exact (ih hfree ignoreCase (opened + 1) (h.begin (opened + 1))).map (fun _ => rfl)
      fun _ _ hnext => hnext.finish (opened + 1)
  | bare body ih => exact ih hfree ignoreCase opened h
  | ignoring body ih => exact ih hfree true opened h
  | backref number => exact h.again hexcerpt rfl number
  | seq first second ihFirst ihSecond =>
    obtain ⟨hfirst, hsecond⟩ := Bool.and_eq_true_iff.mp hfree
    exact (ihFirst hfirst ignoreCase opened h).flatMap (onward_ways _ ignoreCase _ second)
      fun _ _ _ hnext => ihSecond hsecond ignoreCase _ hnext
  | alt first second ihFirst ihSecond =>
    obtain ⟨hfirst, hsecond⟩ := Bool.and_eq_true_iff.mp hfree
    exact (ihFirst hfirst ignoreCase opened h).append (ihSecond hsecond ignoreCase _ h)
  | repeated count greedy body ih =>
    exact .repeated hinside (onward_ways _ ignoreCase opened body)
      (fun _ _ hnext => ih hfree ignoreCase opened hnext) h hexcerpt.size_le _ _ _ greedy
  | _ => exact h.one hexcerpt rfl _

section Stops

variable {whole part : Array Char} {offset : Nat} (hexcerpt : Excerpt whole part offset)
  {sense : Sense} {ignoreCase : Bool} {expr : Expr} (hfree : expr.isFree = true)

include hexcerpt hfree

/-- What does not match in the whole text does not match in an excerpt
that starts there. -/
theorem stop?_excerpt_eq_none
    (h : expr.stop? { sense with text := whole } ignoreCase offset = none) :
    expr.stop? { sense with text := part } ignoreCase 0 = none := by
  have htruncates := truncates_ways hexcerpt sense.classSet? sense.retry hfree ignoreCase 0
    (Excerpted.atStart offset part.size)
  exact Option.map_eq_none_iff.mpr (htruncates.head?_none (Option.map_eq_none_iff.mp h))

/-- A match that ends inside an excerpt is the match in the excerpt. -/
theorem stop?_excerpt {stop : Nat} (hstop : stop ≤ part.size)
    (h : expr.stop? { sense with text := whole } ignoreCase offset = some (offset + stop)) :
    expr.stop? { sense with text := part } ignoreCase 0 = some stop := by
  have htruncates := truncates_ways hexcerpt sense.classSet? sense.retry hfree ignoreCase 0
    (Excerpted.atStart offset part.size)
  obtain ⟨place, hhead, hplace⟩ := Option.map_eq_some_iff.mp h
  obtain ⟨place', hhead', hsame⟩ := htruncates.head?_some hhead (by omega)
  refine Option.map_eq_some_iff.mpr ⟨place', hhead', ?_⟩
  have hpos := hsame.pos_eq
  omega

end Stops

end Expr

end Highlighter.Pattern
