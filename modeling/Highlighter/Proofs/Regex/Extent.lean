import Highlighter.Proofs.Regex.Run
import Highlighter.Proofs.Text.Boundary

/-!
# What the first group leaves out

A match may be longer than its first group. `Node.extent?` reads off a
node how many characters it takes at least, and how many of them come
before the first group and after it. It goes through the node once: in a
row of nodes, what stands before the group in the row comes before the
group in the match, and what branches and loops do is estimated from
below (`Node.covers`).

So the estimate is on the safe side. If it says that a character comes
before the group or after it, no match has a first group that covers the
whole text (`Matcher.group_ne_whole`).
-/

set_option autoImplicit false

namespace Highlighter.Regex

/-- What is known of the ways of a node. -/
structure Extent where
  /-- How many characters they take at least. -/
  width : Nat
  /-- How many characters come before the first group at least, if it is
  in the node. -/
  before : Option Nat
  /-- How many characters come after it at least. -/
  after : Option Nat

namespace Extent

/-- Nothing is taken. -/
def skip : Extent := ⟨0, none, none⟩

/-- One node after the other. -/
def andThen (first second : Extent) : Extent where
  width := first.width + second.width
  before := first.before.merge min (second.before.map (first.width + ·))
  after := (first.after.map (· + second.width)).merge min second.after

/-- One node or the other. -/
def or (first second : Extent) : Extent where
  width := min first.width second.width
  before := first.before.merge min second.before
  after := first.after.merge min second.after

/-- A node several times, which take so many characters together. -/
def repeated (extent : Extent) (width : Nat) : Extent := { extent with width }

/-- What is looked for from the place of the node on. Where it ends says
nothing about where the node does, so the group may not be in it. -/
def looked? (extent : Extent) : Option Extent :=
  if extent.after.isNone then some { skip with before := extent.before } else none

/-- Whether the first group never covers all that is matched. -/
def leavesOut (extent : Extent) : Bool :=
  extent.before.all (0 < ·) || extent.after.all (0 < ·)

end Extent

/-- What can be read off a node about its ways, if all that is in it can
be estimated. -/
def Node.extent? : Node → Option Extent
  | char _ => some { Extent.skip with width := 1 }
  | seq first second => do return (← first.extent?).andThen (← second.extent?)
  | alt first second => do return (← first.extent?).or (← second.extent?)
  | group index body => do
    let extent ← body.extent?
    return if index = 1 then ⟨extent.width, some 0, some 0⟩ else extent
  | exactly count body => do
    let extent ← body.extent?
    return extent.repeated (count * extent.width)
  | upTo _ _ body | more _ body => do return (← body.extent?).repeated 0
  | plus _ body | atomic body | once _ _ body => body.extent?
  | ahead body => body.extent?.bind Extent.looked?
  | cond condition yes no => do
    return ((← condition.extent?).andThen (← yes.extent?)).or (← no.extent?)
  | backref _ | behind _ _ => none
  | empty | anchor _ | groupSet _ | notAhead _ | notBehind _ _ | keepOut | searchStart =>
    some .skip

/-! ### Ways within an extent -/

variable {search : Search} {node : Node} {size : Nat} {place between next : Nat × Slots}
  {first second extent : Extent}

/-- A way that is as the extent says. It ends inside the text, and the
first group is where it was or in what the way takes. -/
structure Extent.Covers (extent : Extent) (size : Nat) (place next : Nat × Slots) : Prop where
  width_le : place.1 + extent.width ≤ next.1
  le_size : place.1 ≤ size → next.1 ≤ size
  begins : ∀ start, next.2[2]? = some (some start) →
    place.2[2]? = some (some start) ∨ ∃ gap ∈ extent.before, place.1 + gap ≤ start
  ends : ∀ stop, next.2[3]? = some (some stop) →
    place.2[3]? = some (some stop) ∨ ∃ gap ∈ extent.after, stop + gap ≤ next.1

/-- The first group has not begun or ended anew. -/
def Slots.Keeps (slots later : Slots) : Prop :=
  (∀ start, later[2]? = some (some start) → slots[2]? = some (some start)) ∧
    ∀ stop, later[3]? = some (some stop) → slots[3]? = some (some stop)

theorem Slots.Keeps.refl (slots : Slots) : slots.Keeps slots := ⟨fun _ h => h, fun _ h => h⟩

/-- Other groups have other slots. -/
theorem Slots.keeps_setIfInBounds (slots : Slots) {index : Nat} (hbegin : index ≠ 2)
    (hend : index ≠ 3) (pos : Option Nat) : slots.Keeps (slots.setIfInBounds index pos) := by
  refine ⟨fun start h => ?_, fun stop h => ?_⟩
  · rwa [Array.getElem?_setIfInBounds_ne hbegin] at h
  · rwa [Array.getElem?_setIfInBounds_ne hend] at h

theorem Slots.keeps_fresh (slots : Slots) (lo hi : Nat) : slots.Keeps (slots.fresh lo hi) := by
  have hkept : ∀ (index pos : Nat), (slots.fresh lo hi)[index]? = some (some pos) →
      slots[index]? = some (some pos) := by
    intro index pos h
    unfold Slots.fresh at h
    split at h
    · rw [Array.getElem?_mapIdx, Option.map_eq_some_iff] at h
      obtain ⟨slot, hslot, hpos⟩ := h
      split at hpos
      · cases hpos
      · rwa [hpos] at hslot
    · exact h
  exact ⟨hkept 2, hkept 3⟩

theorem exists_mem_merge_left {gap : Nat} {gaps : Option Nat} (h : gap ∈ gaps)
    (others : Option Nat) : ∃ least ∈ gaps.merge min others, least ≤ gap := by
  cases (show gaps = some gap from h)
  cases others with
  | none => exact ⟨gap, rfl, Nat.le_refl _⟩
  | some other => exact ⟨min gap other, rfl, Nat.min_le_left _ _⟩

theorem exists_mem_merge_right {gap : Nat} {gaps : Option Nat} (h : gap ∈ gaps)
    (others : Option Nat) : ∃ least ∈ others.merge min gaps, least ≤ gap := by
  cases (show gaps = some gap from h)
  cases others with
  | none => exact ⟨gap, rfl, Nat.le_refl _⟩
  | some other => exact ⟨min other gap, rfl, Nat.min_le_right _ _⟩

namespace Extent.Covers

/-- Where the first group does not change, it is enough that the position
is right. -/
theorem of_slots (hwidth : place.1 + extent.width ≤ next.1)
    (hsize : place.1 ≤ size → next.1 ≤ size) (hslots : place.2.Keeps next.2) :
    extent.Covers size place next :=
  ⟨hwidth, hsize, fun start h => .inl (hslots.1 start h), fun stop h => .inl (hslots.2 stop h)⟩

theorem skip (place : Nat × Slots) : Extent.skip.Covers size place place :=
  of_slots (Nat.le_refl _) id (.refl _)

/-- What happens to other groups does not matter. -/
theorem rebase {slots slots' : Slots} (h : extent.Covers size (place.1, slots) next)
    (hslots : place.2.Keeps slots) (hslots' : next.2.Keeps slots') :
    extent.Covers size place (next.1, slots') where
  width_le := h.width_le
  le_size := h.le_size
  begins start hstart := (h.begins start (hslots'.1 start hstart)).imp_left (hslots.1 start)
  ends stop hstop := (h.ends stop (hslots'.2 stop hstop)).imp_left (hslots.2 stop)

theorem andThen (h : first.Covers size place between) (h' : second.Covers size between next) :
    (first.andThen second).Covers size place next where
  width_le := by
    have hfirst := h.width_le
    have hsecond := h'.width_le
    show place.1 + (first.width + second.width) ≤ next.1
    omega
  le_size := fun hplace => h'.le_size (h.le_size hplace)
  begins start hstart := by
    have hwidth := h.width_le
    -- The second node has set the group, or the first one has, or neither of them.
    rcases h'.begins start hstart with hkept | ⟨gap, hgap, hle⟩
    · rcases h.begins start hkept with hkept | ⟨gap, hgap, hle⟩
      · exact .inl hkept
      · obtain ⟨least, hmem, hleast⟩ := exists_mem_merge_left hgap
          (second.before.map (first.width + ·))
        exact .inr ⟨least, hmem, by omega⟩
    · obtain ⟨least, hmem, hleast⟩ := exists_mem_merge_right
        (Option.mem_map_of_mem (first.width + ·) hgap) first.before
      exact .inr ⟨least, hmem, by omega⟩
  ends stop hstop := by
    have hwidth := h'.width_le
    rcases h'.ends stop hstop with hkept | ⟨gap, hgap, hle⟩
    · rcases h.ends stop hkept with hkept | ⟨gap, hgap, hle⟩
      · exact .inl hkept
      · obtain ⟨least, hmem, hleast⟩ := exists_mem_merge_left
          (Option.mem_map_of_mem (· + second.width) hgap) second.after
        exact .inr ⟨least, hmem, by omega⟩
    · obtain ⟨least, hmem, hleast⟩ := exists_mem_merge_right hgap
        (first.after.map (· + second.width))
      exact .inr ⟨least, hmem, by omega⟩

theorem or_left (h : first.Covers size place next) (second : Extent) :
    (first.or second).Covers size place next where
  width_le := Nat.le_trans (Nat.add_le_add_left (Nat.min_le_left _ _) _) h.width_le
  le_size := h.le_size
  begins start hstart := (h.begins start hstart).imp_right fun ⟨gap, hgap, hle⟩ => by
    obtain ⟨least, hmem, hleast⟩ := exists_mem_merge_left hgap second.before
    exact ⟨least, hmem, by omega⟩
  ends stop hstop := (h.ends stop hstop).imp_right fun ⟨gap, hgap, hle⟩ => by
    obtain ⟨least, hmem, hleast⟩ := exists_mem_merge_left hgap second.after
    exact ⟨least, hmem, by omega⟩

theorem or_right (h : second.Covers size place next) (first : Extent) :
    (first.or second).Covers size place next where
  width_le := Nat.le_trans (Nat.add_le_add_left (Nat.min_le_right _ _) _) h.width_le
  le_size := h.le_size
  begins start hstart := (h.begins start hstart).imp_right fun ⟨gap, hgap, hle⟩ => by
    obtain ⟨least, hmem, hleast⟩ := exists_mem_merge_right hgap first.before
    exact ⟨least, hmem, by omega⟩
  ends stop hstop := (h.ends stop hstop).imp_right fun ⟨gap, hgap, hle⟩ => by
    obtain ⟨least, hmem, hleast⟩ := exists_mem_merge_right hgap first.after
    exact ⟨least, hmem, by omega⟩

/-- Iterations add up, and the group is in one of them. -/
theorem repeated {count count' : Nat} (h : (extent.repeated count).Covers size place between)
    (h' : (extent.repeated count').Covers size between next) :
    (extent.repeated (count + count')).Covers size place next where
  width_le := by
    have hfirst : place.1 + count ≤ between.1 := h.width_le
    have hsecond : between.1 + count' ≤ next.1 := h'.width_le
    show place.1 + (count + count') ≤ next.1
    omega
  le_size := fun hplace => h'.le_size (h.le_size hplace)
  begins start hstart := by
    have hwidth := h.width_le
    rcases h'.begins start hstart with hkept | ⟨gap, hgap, hle⟩
    · exact h.begins start hkept
    · exact .inr ⟨gap, hgap, by omega⟩
  ends stop hstop := by
    have hwidth := h'.width_le
    rcases h'.ends stop hstop with hkept | ⟨gap, hgap, hle⟩
    · exact (h.ends stop hkept).imp_right fun ⟨gap, hgap, hle⟩ => ⟨gap, hgap, by omega⟩
    · exact .inr ⟨gap, hgap, hle⟩

theorem widen {width : Nat} (h : extent.Covers size place next) (hle : width ≤ extent.width) :
    (extent.repeated width).Covers size place next :=
  ⟨Nat.le_trans (Nat.add_le_add_left hle _) h.width_le, h.le_size, h.begins, h.ends⟩

/-- The first group begins where it does and ends where it does. -/
theorem group {slots : Slots} (h : extent.Covers size (place.1, slots) next)
    (hslots : slots[2]? = some (some place.1) ∨ slots[2]? = none) :
    (Extent.mk extent.width (some 0) (some 0)).Covers size place
      (next.1, next.2.setIfInBounds 3 (some next.1)) where
  width_le := h.width_le
  le_size := h.le_size
  begins start hstart := by
    refine .inr ⟨0, rfl, ?_⟩
    rw [Array.getElem?_setIfInBounds_ne (by omega)] at hstart
    rcases h.begins start hstart with hkept | ⟨gap, hgap, hle⟩
    · rcases hslots with hslots | hslots
      · rw [hslots] at hkept
        cases hkept
        exact Nat.le_refl _
      · rw [hslots] at hkept
        cases hkept
    · exact Nat.le_trans (Nat.add_le_add_left (Nat.zero_le _) _) hle
  ends stop hstop := by
    refine .inr ⟨0, rfl, ?_⟩
    rw [Array.getElem?_setIfInBounds] at hstop
    split at hstop
    · split at hstop
      · cases hstop
        exact Nat.le_refl _
      · cases hstop
    · omega

/-- What is looked for keeps the position. -/
theorem looked {looked : Extent} (h : extent.Covers size place next)
    (hlooked : extent.looked? = some looked) : looked.Covers size place (place.1, next.2) := by
  unfold looked? at hlooked
  split at hlooked
  · rename_i hnone
    cases hlooked
    refine ⟨Nat.le_refl _, id, h.begins, fun stop hstop => .inl ?_⟩
    refine (h.ends stop hstop).resolve_right fun ⟨gap, hgap, _⟩ => ?_
    rw [Option.isNone_iff_eq_none.mp hnone] at hgap
    cases hgap
  · cases hlooked

end Extent.Covers

open Ways (Along)

section Loops

variable {step : Nat × Slots → List (Nat × Slots)}
  (hstep : ∀ place, Along (extent.Covers size) place (step place))

include hstep

theorem covers_exactly (count : Nat) (place : Nat × Slots) :
    Along ((extent.repeated (count * extent.width)).Covers size) place
      (Ways.exactly step count place) := by
  induction count generalizing place with
  | zero =>
    intro next hnext
    cases List.mem_singleton.mp hnext
    exact .of_slots (by rw [Nat.zero_mul]; exact Nat.le_refl _) id (.refl _)
  | succ count ih =>
    intro next hnext
    obtain ⟨between, hbetween, hnext⟩ := List.mem_flatMap.mp hnext
    rw [Nat.succ_mul, Nat.add_comm]
    exact ((hstep place between hbetween).widen (Nat.le_refl _)).repeated (ih between next hnext)

/-- An extent without a width is that of any number of iterations. -/
theorem covers_loop : (∀ place, (extent.repeated 0).Covers size place place) ∧
    (∀ place between next, (extent.repeated 0).Covers size place between →
      (extent.repeated 0).Covers size between next → (extent.repeated 0).Covers size place next) ∧
    ∀ place, Along ((extent.repeated 0).Covers size) place (step place) :=
  ⟨fun _ => .of_slots (Nat.le_refl _) id (.refl _), fun _ _ _ h h' => h.repeated h',
    fun place next hnext => (hstep place next hnext).widen (Nat.zero_le _)⟩

theorem covers_plus (greedy : Bool) (place : Nat × Slots) :
    Along (extent.Covers size) place (Ways.plus search.text.size greedy step place) := by
  obtain ⟨hrefl, htrans, hloop⟩ := covers_loop hstep
  intro next hnext
  obtain ⟨between, hbetween, hnext⟩ := List.mem_flatMap.mp hnext
  have hrest : (extent.repeated 0).Covers size between next := by
    split at hnext
    · rw [List.mem_singleton.mp hnext]
      exact hrefl between
    · exact Ways.along_more hrefl htrans hloop greedy _ between next hnext
  exact ((hstep place between hbetween).widen (Nat.le_refl _)).repeated hrest

end Loops

/-- The ways of a node are as its extent says. -/
theorem Node.covers (search : Search) (h : node.extent? = some extent) (place : Nat × Slots) :
    Along (extent.Covers search.text.size) place (node.ways search place) := by
  induction node generalizing extent place with
  | empty =>
    cases h
    exact Ways.along_single Extent.Covers.skip place
  | char set =>
    cases h
    exact Ways.along_one fun hsize => .of_slots (Nat.le_refl _) (fun _ => hsize) (.refl _)
  | anchor condition =>
    cases h
    exact Ways.along_check (.skip place)
  | seq first second ihFirst ihSecond =>
    obtain ⟨known, hknown, known', hknown', rfl⟩ : ∃ known, first.extent? = some known ∧
        ∃ known', second.extent? = some known' ∧ known.andThen known' = extent := by
      simpa [extent?, Option.bind_eq_some_iff] using h
    intro next hnext
    obtain ⟨between, hbetween, hnext⟩ := List.mem_flatMap.mp hnext
    exact (ihFirst hknown place between hbetween).andThen (ihSecond hknown' between next hnext)
  | alt first second ihFirst ihSecond =>
    obtain ⟨known, hknown, known', hknown', rfl⟩ : ∃ known, first.extent? = some known ∧
        ∃ known', second.extent? = some known' ∧ known.or known' = extent := by
      simpa [extent?, Option.bind_eq_some_iff] using h
    intro next hnext
    rcases List.mem_append.mp hnext with hnext | hnext
    · exact (ihFirst hknown place next hnext).or_left known'
    · exact (ihSecond hknown' place next hnext).or_right known
  | group index body ih =>
    obtain ⟨known, hknown, rfl⟩ : ∃ known, body.extent? = some known ∧
        (if index = 1 then ⟨known.width, some 0, some 0⟩ else known) = extent := by
      simpa [extent?, Option.bind_eq_some_iff] using h
    intro next hnext
    obtain ⟨found, hfound, rfl⟩ := List.mem_map.mp hnext
    have hbody := ih hknown _ found hfound
    split
    · rename_i hindex
      subst hindex
      refine Extent.Covers.group hbody ?_
      rw [Array.getElem?_setIfInBounds_self]
      split
      · exact .inl rfl
      · exact .inr rfl
    · refine Extent.Covers.rebase hbody ?_ ?_
      · exact Slots.keeps_setIfInBounds _ (by omega) (by omega) _
      · exact Slots.keeps_setIfInBounds _ (by omega) (by omega) _
  | exactly count body ih =>
    obtain ⟨known, hknown, rfl⟩ : ∃ known, body.extent? = some known ∧
        known.repeated (count * known.width) = extent := by
      simpa [extent?, Option.bind_eq_some_iff] using h
    exact covers_exactly (fun place => ih hknown place) count place
  | upTo count greedy body ih =>
    obtain ⟨known, hknown, rfl⟩ : ∃ known, body.extent? = some known ∧
        known.repeated 0 = extent := by
      simpa [extent?, Option.bind_eq_some_iff] using h
    obtain ⟨hrefl, htrans, hloop⟩ := covers_loop fun place => ih hknown place
    exact Ways.along_upTo hrefl htrans hloop greedy count place
  | more greedy body ih =>
    obtain ⟨known, hknown, rfl⟩ : ∃ known, body.extent? = some known ∧
        known.repeated 0 = extent := by
      simpa [extent?, Option.bind_eq_some_iff] using h
    obtain ⟨hrefl, htrans, hloop⟩ := covers_loop fun place => ih hknown place
    exact Ways.along_more hrefl htrans hloop greedy _ place
  | plus greedy body ih => exact covers_plus (fun place => ih h place) greedy place
  | backref index => cases h
  | groupSet index =>
    cases h
    exact Ways.along_check (.skip place)
  | ahead body ih =>
    obtain ⟨known, hknown, hlooked⟩ := Option.bind_eq_some_iff.mp h
    intro next hnext
    obtain ⟨found, hfound, rfl⟩ := List.mem_map.mp hnext
    exact (ih hknown place found hfound).looked hlooked
  | notAhead body =>
    cases h
    exact Ways.along_check (.skip place)
  | behind count body => cases h
  | notBehind count body =>
    cases h
    intro next hnext
    simp only [Node.ways] at hnext
    split at hnext
    · cases hnext
    · cases List.mem_singleton.mp hnext
      exact .skip _
  | atomic body ih => exact fun next hnext => ih h place next (List.mem_of_mem_take hnext)
  | once lo hi body ih =>
    intro next hnext
    have hnext : next ∈ (body.ways search (place.1, place.2.fresh lo hi)).take 1 := hnext
    have hbody := ih h _ next (List.mem_of_mem_take hnext)
    exact Extent.Covers.rebase hbody (Slots.keeps_fresh _ lo hi) (.refl _)
  | cond condition yes no ihCondition ihYes ihNo =>
    obtain ⟨known, hknown, known', hknown', other, hother, rfl⟩ :
        ∃ known, condition.extent? = some known ∧ ∃ known', yes.extent? = some known' ∧
          ∃ other, no.extent? = some other ∧ (known.andThen known').or other = extent := by
      simpa [extent?, Option.bind_eq_some_iff] using h
    intro next hnext
    simp only [Node.ways] at hnext
    split at hnext
    · rename_i between others hways
      -- The condition goes first, and its first way is kept.
      have hcondition := ihCondition hknown place between (hways ▸ List.mem_cons_self)
      exact (hcondition.andThen (ihYes hknown' between next hnext)).or_left other
    · exact (ihNo hother place next hnext).or_right _
  | keepOut =>
    cases h
    intro next hnext
    cases List.mem_singleton.mp hnext
    exact .of_slots (Nat.le_refl _) id
      (Slots.keeps_setIfInBounds _ (by omega) (by omega) _)
  | searchStart =>
    cases h
    intro next hnext
    simp only [Node.ways] at hnext
    split at hnext
    · cases List.mem_singleton.mp hnext
      exact .skip _
    · cases hnext

/-! ### Matches -/

/-- What a search finds is a way of the pattern. -/
theorem Search.exists_mem_waysFrom {groups stop spent : Nat} {slots : Slots}
    (h : search.find node groups = .found stop slots spent) :
    ∃ start ≤ search.text.size, (stop, slots) ∈ node.waysFrom search groups start := by
  have hsays := search.says_find node groups
  rw [h] at hsays
  have hfound : (List.range' search.start (search.text.size + 1 - search.start)).findSome?
      (fun start => (node.waysFrom search groups start).head?) = some (stop, slots) := hsays
  obtain ⟨start, hstart, hway⟩ := List.exists_of_findSome?_eq_some hfound
  have hrange := List.mem_range'_1.mp hstart
  exact ⟨start, by omega, List.mem_of_mem_head? hway⟩

/-- Where a group that took part in a match begins and where it ends. -/
theorem Found.exists_of_group? {stop index : Nat} {slots : Slots} {span : Span}
    (h : (Found.ofSlots size stop slots).group? index = some span) :
    ∃ pos pos', slots[2 * index]?.join = some pos ∧ slots[2 * index + 1]?.join = some pos' ∧
      span = .within size pos pos' := by
  unfold Found.group? Found.ofSlots at h
  rw [List.getElem?_map, Option.join_eq_some_iff, Option.map_eq_some_iff] at h
  obtain ⟨number, hnumber, hspan⟩ := h
  obtain ⟨hlt, rfl⟩ := List.getElem?_eq_some_iff.mp hnumber
  rw [List.getElem_range] at hspan
  unfold Slots.span? at hspan
  split at hspan
  · rename_i pos pos' hpos hpos'
    exact ⟨pos, pos', hpos, hpos', (Option.some.inj hspan).symm⟩
  · cases hspan

namespace Matcher

variable {matcher : Matcher} {text : List Char}

/-- Whether the first group never covers the whole text. -/
def leavesOut (matcher : Matcher) : Bool := matcher.node.extent?.any Extent.leavesOut

/-- The ways of the whole pattern are as its extent says, with the first
group inside. -/
theorem covers_waysFrom {groups start stop : Nat} {slots : Slots} (h : node.extent? = some extent)
    (hstart : start ≤ search.text.size) (hway : (stop, slots) ∈ node.waysFrom search groups start) :
    stop ≤ search.text.size ∧
      (∀ pos, slots[2]?.join = some pos → ∃ gap ∈ extent.before, start + gap ≤ pos) ∧
      ∀ pos, slots[3]?.join = some pos → ∃ gap ∈ extent.after, pos + gap ≤ stop := by
  have hgroup : (Node.group 0 node).extent? = some extent := by
    simp [Node.extent?, h]
  have hcovers := Node.covers search hgroup _ _ hway
  -- At the start, no group has matched.
  have hnone : ∀ index pos : Nat,
      (Array.replicate (2 * (groups + 1)) (none : Option Nat))[index]? ≠ some (some pos) := by
    intro index pos hpos
    rw [Array.getElem?_replicate] at hpos
    split at hpos <;> cases hpos
  refine ⟨hcovers.le_size hstart, fun pos hpos => ?_, fun pos hpos => ?_⟩
  · exact (hcovers.begins pos (Option.join_eq_some_iff.mp hpos)).resolve_left (hnone 2 pos)
  · exact (hcovers.ends pos (Option.join_eq_some_iff.mp hpos)).resolve_left (hnone 3 pos)

/-- A first group that is not empty starts after the start of the text,
or stops before its end. -/
theorem group_ne_whole {found : Found} {span : Span} (h : matcher.leavesOut = true)
    (hfound : matcher.search text.toArray 0 = .ok (some found))
    (hgroup : found.group? 1 = some span) (hlt : span.start < span.stop) :
    span.stop ≤ text.length ∧ (0 < span.start ∨ span.stop < text.length) := by
  obtain ⟨extent, hextent, hleaves⟩ := (Option.any_eq_true _ _).mp h
  unfold search at hfound
  split at hfound
  · rename_i stop slots spent hverdict
    cases hfound
    obtain ⟨start, hstart, hway⟩ := Search.exists_mem_waysFrom hverdict
    obtain ⟨hstop, hbegin, hend⟩ := covers_waysFrom hextent hstart hway
    obtain ⟨pos, pos', hpos, hpos', rfl⟩ := Found.exists_of_group? hgroup
    obtain ⟨gap, hgap, hle⟩ := hbegin pos hpos
    obtain ⟨gap', hgap', hle'⟩ := hend pos' hpos'
    rw [List.size_toArray] at hstop
    unfold Span.within at hlt ⊢
    simp only at hlt ⊢
    rcases Bool.or_eq_true_iff.mp hleaves with hbefore | hafter
    · have hgap := of_decide_eq_true ((Option.all_eq_true _ _).mp hbefore gap hgap)
      omega
    · have hgap := of_decide_eq_true ((Option.all_eq_true _ _).mp hafter gap' hgap')
      omega
  · cases hfound
  · cases hfound

/-- So it is shorter than the text. -/
theorem first_lt_of_leavesOut {captures : Captures} {group : Span} (h : matcher.leavesOut = true)
    (hcaptures : matcher.captures text = .ok (some captures)) (hfirst : captures.first = some group)
    (hpos : 0 < group.length) : group.length < Text.byteSize text := by
  unfold Matcher.captures at hcaptures
  cases hfound : matcher.search text.toArray 0 with
  | error failure =>
    rw [hfound] at hcaptures
    cases hcaptures
  | ok found? =>
    rw [hfound] at hcaptures
    obtain ⟨found, rfl, rfl⟩ := Option.map_eq_some_iff.mp (Except.ok.inj hcaptures)
    obtain ⟨span, hspan, rfl⟩ := Option.map_eq_some_iff.mp hfirst
    unfold Span.length Span.inBytes at hpos ⊢
    simp only at hpos ⊢
    -- Positions of characters and offsets in bytes go up together.
    have hlt : span.start < span.stop := by
      refine Nat.lt_of_not_le fun hle => ?_
      have hmono := Text.offsetOf_mono text hle
      omega
    obtain ⟨hstop, hshort⟩ := group_ne_whole h hfound hspan hlt
    have hwhole : Text.offsetOf text text.length = Text.byteSize text := by
      rw [Text.offsetOf, List.take_length]
    have hle := Text.offsetOf_mono text hstop
    rw [hwhole] at hle
    rcases hshort with hstart | hend
    · have hfirst : Text.offsetOf text 0 < Text.offsetOf text span.start :=
        Text.offsetOf_lt (by omega) hstart
      omega
    · have hlast := Text.offsetOf_lt hend hend
      rw [hwhole] at hlast
      omega

end Matcher

end Highlighter.Regex
