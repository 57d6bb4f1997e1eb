import Highlighter.Proofs.Pattern.Meaning
import Highlighter.Proofs.Union.Member

/-!
# Renumbering keeps the meaning

A pattern with its groups numbered anew matches as it did before
(`ways_renumber`): in each of its ways it stops where it stopped, and
each group that is referred to is where it was, under its new number
(`Renamed`). Groups that nothing refers to are forgotten.

The new numbers are counted in the order of the old ones, so they are
the ones that the groups get as they open (`idxOf_eq_countP`,
`captures_renumber`).
-/

set_option autoImplicit false

namespace Highlighter.Union

open Pattern Regex

/-! ### Numbers in order -/

/-- The place of a group among the groups that are kept is how many of
them have opened before it. -/
theorem idxOf_eq_countP {kept : List Nat} (h : kept.Pairwise (· < ·)) {group : Nat}
    (hmem : group + 1 ∈ kept) : kept.idxOf (group + 1) = kept.countP (· ≤ group) := by
  induction kept with
  | nil => cases hmem
  | cons first rest ih =>
    obtain ⟨hfirst, hrest⟩ := List.pairwise_cons.mp h
    rw [List.idxOf_cons, List.countP_cons]
    by_cases hsame : first = group + 1
    · -- It is the first one, and all others are larger.
      have hnone : rest.countP (· ≤ group) = 0 := by
        rw [List.countP_eq_zero]
        intro other hother
        have hlt := hfirst other hother
        simp only [decide_eq_true_eq]
        omega
      simp [hsame, hnone]
    · have hmem' : group + 1 ∈ rest := by
        rcases List.mem_cons.mp hmem with heq | hmem
        · exact absurd heq.symm hsame
        · exact hmem
      have hle : first ≤ group := by
        have hlt := hfirst _ hmem'
        omega
      rw [beq_eq_false_iff_ne.mpr hsame, ih hrest hmem']
      simp [hle]

/-- One more group has opened. -/
theorem countP_succ {kept : List Nat} (h : kept.Pairwise (· < ·)) (group : Nat) :
    kept.countP (· ≤ group + 1)
      = kept.countP (· ≤ group) + if kept.contains (group + 1) then 1 else 0 := by
  induction kept with
  | nil => rfl
  | cons first rest ih =>
    obtain ⟨hfirst, hrest⟩ := List.pairwise_cons.mp h
    rw [List.countP_cons, List.countP_cons, ih hrest, List.contains_cons]
    by_cases hsame : first = group + 1
    · have hnone : rest.contains (group + 1) = false := by
        rw [← Bool.not_eq_true, List.contains_iff_mem]
        intro hmem
        have hlt := hfirst _ hmem
        omega
      have hgt : ¬first ≤ group := by omega
      have hle : first ≤ group + 1 := Nat.le_of_eq hsame
      rw [hnone, hsame, beq_self_eq_true]
      simp
    · have hle : first ≤ group + 1 ↔ first ≤ group := by omega
      have hne : (group + 1 == first) = false := beq_eq_false_iff_ne.mpr fun heq => hsame heq.symm
      rw [hne, Bool.false_or]
      simp only [hle]
      omega

/-- A renumbered pattern captures as many groups as are kept of it. -/
theorem captures_renumber {kept : List Nat} (h : kept.Pairwise (· < ·)) (base opened : Nat)
    (expr : Expr) :
    kept.countP (· ≤ opened) + (expr.renumber base kept opened).captures
      = kept.countP (· ≤ opened + expr.captures) := by
  induction expr generalizing opened with
  | capture body ih =>
    have hbody := ih (opened + 1)
    have hsucc := countP_succ h opened
    rw [Expr.renumber, Expr.captures]
    rw [Nat.add_right_comm, Nat.add_assoc] at hbody
    by_cases hkept : kept.contains (opened + 1)
    · rw [if_pos hkept] at hsucc ⊢
      rw [Expr.captures]
      omega
    · rw [if_neg hkept] at hsucc ⊢
      rw [Expr.captures]
      omega
  | bare body ih => exact ih opened
  | ignoring body ih => exact ih opened
  | look behind negated body ih => exact ih opened
  | repeated count greedy body ih => exact ih opened
  | seq first second ihFirst ihSecond =>
    have hfirst := ihFirst opened
    have hsecond := ihSecond (opened + first.captures)
    rw [Expr.renumber, Expr.captures, Expr.captures, ← Nat.add_assoc opened]
    omega
  | alt first second ihFirst ihSecond =>
    have hfirst := ihFirst opened
    have hsecond := ihSecond (opened + first.captures)
    rw [Expr.renumber, Expr.captures, Expr.captures, ← Nat.add_assoc opened]
    omega
  | _ => rfl

/-! ### Marks under new numbers -/

/-- Places at one position whose marks agree on the groups that are
kept. -/
def Renamed (base : Nat) (kept : List Nat) (place place' : Nat × Marks) : Prop :=
  place.1 = place'.1 ∧ ∀ group ∈ kept,
    place.2.began group = place'.2.began (base + kept.idxOf group + 1) ∧
      place.2.ended group = place'.2.ended (base + kept.idxOf group + 1)

section

variable {base : Nat} {kept : List Nat} {place place' : Nat × Marks}

theorem Renamed.move (h : Renamed base kept place place') {pos pos' : Nat} (hpos : pos = pos') :
    Renamed base kept (pos, place.2) (pos', place'.2) :=
  ⟨hpos, h.2⟩

/-- Groups keep apart under their new numbers. -/
theorem number_eq_iff {group other : Nat} (hgroup : group ∈ kept) :
    base + kept.idxOf other + 1 = base + kept.idxOf group + 1 ↔ other = group := by
  constructor
  · intro heq
    have hidx : kept.idxOf other = kept.idxOf group := by omega
    have hlt : kept.idxOf group < kept.length := List.idxOf_lt_length_iff.mpr hgroup
    have hlt' : kept.idxOf other < kept.length := hidx ▸ hlt
    have hget : kept[kept.idxOf other]? = kept[kept.idxOf group]? := by rw [hidx]
    rw [List.getElem?_eq_getElem hlt, List.getElem?_eq_getElem hlt', List.getElem_idxOf,
      List.getElem_idxOf] at hget
    exact Option.some.inj hget
  · rintro rfl
    rfl

/-- A group that is kept begins. -/
theorem Renamed.begin (h : Renamed base kept place place') {group : Nat} (hgroup : group ∈ kept)
    (pos : Nat) :
    Renamed base kept (place.1, place.2.begin group pos)
      (place'.1, place'.2.begin (base + kept.idxOf group + 1) pos) := by
  refine ⟨h.1, fun other hother => ⟨?_, (h.2 other hother).2⟩⟩
  simp only [Marks.begin, number_eq_iff hgroup]
  split
  · rfl
  · exact (h.2 other hother).1

theorem Renamed.finish (h : Renamed base kept place place') {group : Nat} (hgroup : group ∈ kept)
    (pos : Nat) :
    Renamed base kept (place.1, place.2.finish group pos)
      (place'.1, place'.2.finish (base + kept.idxOf group + 1) pos) := by
  refine ⟨h.1, fun other hother => ⟨(h.2 other hother).1, ?_⟩⟩
  simp only [Marks.finish, number_eq_iff hgroup]
  split
  · rfl
  · exact (h.2 other hother).2

/-- A group that is not kept begins. -/
theorem Renamed.begin_other (h : Renamed base kept place place') {group : Nat}
    (hgroup : group ∉ kept) (pos : Nat) :
    Renamed base kept (place.1, place.2.begin group pos) place' := by
  refine ⟨h.1, fun other hother => ⟨?_, (h.2 other hother).2⟩⟩
  have hne : other ≠ group := fun heq => hgroup (heq ▸ hother)
  simp only [Marks.begin, if_neg hne]
  exact (h.2 other hother).1

theorem Renamed.finish_other (h : Renamed base kept place place') {group : Nat}
    (hgroup : group ∉ kept) (pos : Nat) :
    Renamed base kept (place.1, place.2.finish group pos) place' := by
  refine ⟨h.1, fun other hother => ⟨(h.2 other hother).1, ?_⟩⟩
  have hne : other ≠ group := fun heq => hgroup (heq ▸ hother)
  simp only [Marks.finish, if_neg hne]
  exact (h.2 other hother).2

/-- A reference finds the same text under the new number. -/
theorem Renamed.again (h : Renamed base kept place place') (text : Array Char) {group : Nat}
    (hgroup : group ∈ kept) :
    Agree (Renamed base kept) (place.2.again text group place.1)
      (place'.2.again text (base + kept.idxOf group + 1) place'.1) := by
  obtain ⟨hbegan, hended⟩ := h.2 group hgroup
  unfold Marks.again
  rw [← hbegan, ← hended, ← h.1]
  cases place.2.began group with
  | none => exact Agree.nil
  | some start =>
    cases place.2.ended group with
    | none => exact Agree.nil
    | some stop =>
      by_cases hstands : standsAt text place.1 (text.extract start stop).toList
      · simp only [hstands, if_true]
        exact Agree.single (h.move rfl)
      · simp only [hstands]
        exact Agree.nil

end

/-! ### Every pattern -/

/-- A pattern with its groups numbered anew has the ways that it had
before. -/
theorem ways_renumber (sense : Sense) {kept : List Nat} (hkept : kept.Pairwise (· < ·))
    (base : Nat) {expr : Expr} (hrefs : ∀ number, expr.refersTo number = true → number ∈ kept)
    (ignoreCase : Bool) (opened : Nat) {place place' : Nat × Marks}
    (h : Renamed base kept place place') :
    Agree (Renamed base kept) (expr.ways sense ignoreCase opened place)
      ((expr.renumber base kept opened).ways sense ignoreCase
        (base + kept.countP (· ≤ opened)) place') := by
  induction expr generalizing ignoreCase opened place place' with
  | empty => exact Agree.single h
  | char c => exact Agree.one _ _ h.1 (h.move (by rw [h.1]))
  | escaped c => exact Agree.one _ _ h.1 (h.move (by rw [h.1]))
  | coded letter braced digits =>
    simp only [Expr.renumber, Expr.ways]
    cases coded? digits with
    | some c => exact Agree.one _ _ h.1 (h.move (by rw [h.1]))
    | none => exact Agree.nil
  | dot => exact Agree.one _ _ h.1 (h.move (by rw [h.1]))
  | anyChar => exact Agree.one _ _ h.1 (h.move (by rw [h.1]))
  | short kind negated => exact Agree.one _ _ h.1 (h.move (by rw [h.1]))
  | bracket body => exact Agree.one _ _ h.1 (h.move (by rw [h.1]))
  | wordBoundary =>
    simp only [Expr.renumber, Expr.ways, ← h.1]
    exact Agree.check _ h
  | textStart =>
    simp only [Expr.renumber, Expr.ways, ← h.1]
    exact Agree.check _ h
  | textEnd =>
    simp only [Expr.renumber, Expr.ways, ← h.1]
    exact Agree.check _ h
  | capture body ih =>
    obtain ⟨pos, marks⟩ := place
    obtain ⟨pos', marks'⟩ := place'
    cases (show pos = pos' from h.1)
    have hsucc := countP_succ hkept opened
    by_cases hopens : opened + 1 ∈ kept
    · -- The group gets the number that it has as it opens.
      have hcontains : kept.contains (opened + 1) = true := List.contains_iff_mem.mpr hopens
      have hnumber := idxOf_eq_countP hkept hopens
      rw [if_pos hcontains] at hsucc
      have hopened : base + kept.countP (· ≤ opened) + 1 = base + kept.countP (· ≤ opened + 1) := by
        omega
      have hbody := ih hrefs ignoreCase (opened + 1) (h.begin hopens pos)
      rw [hnumber] at hbody
      simp only [Expr.renumber, if_pos hcontains, Expr.ways]
      rw [← hopened] at hbody
      refine hbody.map fun next next' hnext => ?_
      have hfinish := hnext.finish hopens next.1
      rw [hnumber, ← hnext.1] at hfinish
      rw [← hnext.1]
      exact hfinish
    · -- A group that is not kept opens nothing, so the numbers after it stay.
      have hcontains : ¬kept.contains (opened + 1) = true := fun hcontains =>
        hopens (List.contains_iff_mem.mp hcontains)
      rw [if_neg hcontains, Nat.add_zero] at hsucc
      have hbody := ih hrefs ignoreCase (opened + 1) (h.begin_other hopens pos)
      rw [hsucc] at hbody
      simp only [Expr.renumber, if_neg hcontains, Expr.ways]
      rw [← List.map_id (Expr.ways sense ignoreCase _ _ (pos, marks'))]
      exact hbody.map fun next next' hnext => hnext.finish_other hopens next.1
  | bare body ih => exact ih hrefs ignoreCase opened h
  | ignoring body ih => exact ih hrefs true opened h
  | look behind negated body ih =>
    exact Agree.look (fun next next' hnext => ih hrefs ignoreCase opened hnext)
      (fun next next' hnext => hnext.1) (fun next next' hnext pos => hnext.move rfl) behind negated h
  | backref number => exact h.again sense.text (hrefs number (beq_self_eq_true number))
  | seq first second ihFirst ihSecond =>
    have hfirst := fun number hfirst => hrefs number (Bool.or_eq_true_iff.mpr (.inl hfirst))
    have hsecond := fun number hsecond => hrefs number (Bool.or_eq_true_iff.mpr (.inr hsecond))
    have hcaptures := captures_renumber hkept base opened first
    simp only [Expr.renumber, Expr.ways]
    rw [Nat.add_assoc, hcaptures]
    exact (ihFirst hfirst ignoreCase opened h).flatMap fun next next' hnext =>
      ihSecond hsecond ignoreCase (opened + first.captures) hnext
  | alt first second ihFirst ihSecond =>
    have hfirst := fun number hfirst => hrefs number (Bool.or_eq_true_iff.mpr (.inl hfirst))
    have hsecond := fun number hsecond => hrefs number (Bool.or_eq_true_iff.mpr (.inr hsecond))
    have hcaptures := captures_renumber hkept base opened first
    simp only [Expr.renumber, Expr.ways]
    rw [Nat.add_assoc, hcaptures]
    exact (ihFirst hfirst ignoreCase opened h).append
      (ihSecond hsecond ignoreCase (opened + first.captures) h)
  | repeated count greedy body ih =>
    exact Agree.repeated (fun next next' hnext => ih hrefs ignoreCase opened hnext)
      (fun next next' hnext => hnext.1) _ _ _ _ greedy h

end Highlighter.Union
