import Highlighter.Proofs.Pattern.Expr
import Highlighter.Proofs.Regex.Ways
import Highlighter.Regex.Run

/-!
# What patterns mean

`Expr.ways` lists the ways in which a pattern matches at a place of a
text, best first: the first branch before the second one, one more
iteration before none in a greedy loop. A place is a position with what
the groups have matched so far. Nothing here is compiled: this is what
the matcher of a pattern is measured by.

The two dialects read patterns alike but for two things, which are
fields of `Sense`: the members of a class, and loops over what may
match nothing.
-/

set_option autoImplicit false

namespace Highlighter.Pattern

open Regex

/-- How patterns are read, and the text that they are matched with. -/
structure Sense where
  text : Array Char
  /-- The class that is written so between brackets. -/
  classSet? : List Char → Option ClassSet
  /-- Which rule loops follow that may match nothing
  (`Ways.repeated`). -/
  retry : Bool

/-- Where the groups have begun and where they have ended, by their
numbers. -/
structure Marks where
  began : Nat → Option Nat
  ended : Nat → Option Nat

namespace Marks

/-- No group has matched. -/
def none : Marks := ⟨fun _ => Option.none, fun _ => Option.none⟩

instance : Nonempty Marks := ⟨none⟩

/-- A group begins. -/
def begin (marks : Marks) (group pos : Nat) : Marks :=
  { marks with began := fun other => if other = group then some pos else marks.began other }

/-- A group ends. -/
def finish (marks : Marks) (group pos : Nat) : Marks :=
  { marks with ended := fun other => if other = group then some pos else marks.ended other }

/-- What stands between where a group began and where it ended, once
more. -/
def again (marks : Marks) (text : Array Char) (group pos : Nat) : List (Nat × Marks) :=
  match marks.began group, marks.ended group with
  | some start, some stop =>
    if standsAt text pos (text.extract start stop).toList then [(pos + (stop - start), marks)]
    else []
  | _, _ => []

end Marks

/-- What stands in a text ends inside it. -/
theorem le_size_of_standsAt {text : Array Char} {part : List Char} {pos : Nat}
    (h : standsAt text pos part = true) (hpos : pos ≤ text.size) :
    pos + part.length ≤ text.size := by
  induction part generalizing pos with
  | nil => exact hpos
  | cons c part ih =>
    obtain ⟨hchar, hrest⟩ := Bool.and_eq_true_iff.mp h
    have hlt := (Array.getElem?_eq_some_iff.mp (beq_iff_eq.mp hchar)).1
    have hle := ih hrest hlt
    rw [List.length_cons]
    omega

namespace Expr

/-- The characters of a class, or no characters where it is not
allowed. -/
def classMembers (sense : Sense) (ignoreCase : Bool) (body : List Char) : CharSet :=
  (((sense.classSet? body).bind fun set => set.meaning? ⟨ignoreCase, true⟩)).getD fun _ => false

/-- The characters of a class with a letter of its own. -/
def shortMembers (kind : ShortClass) (negated : Bool) : CharSet :=
  if negated then (kind.members true).complement else kind.members true

/-- All ways in which a pattern matches at a place, best first. `opened`
groups have opened before the pattern. -/
def ways (sense : Sense) (ignoreCase : Bool) (opened : Nat) :
    Expr → Nat × Marks → List (Nat × Marks)
  | empty, place => [place]
  | char c, place => Ways.one sense.text (CharSet.ofChar ⟨ignoreCase, true⟩ c) place
  | escaped c, place => Ways.one sense.text (· == unescaped c) place
  | coded _ _ digits, place =>
    match coded? digits with
    | some c => Ways.one sense.text (CharSet.ofChar ⟨ignoreCase, true⟩ c) place
    | none => []
  | dot, place => Ways.one sense.text (· != '\n') place
  | anyChar, place => Ways.one sense.text (fun _ => true) place
  | short kind negated, place => Ways.one sense.text (shortMembers kind negated) place
  | bracket body, place => Ways.one sense.text (classMembers sense ignoreCase body) place
  | wordBoundary, place => Ways.check ((Anchor.wordBoundary isWordChar).holds sense.text place.1) place
  | textStart, place => Ways.check (place.1 == 0) place
  | textEnd, place => Ways.check (place.1 == sense.text.size) place
  | capture body, (pos, marks) =>
    (body.ways sense ignoreCase (opened + 1) (pos, marks.begin (opened + 1) pos)).map fun next =>
      (next.1, next.2.finish (opened + 1) next.1)
  | bare body, place => body.ways sense ignoreCase opened place
  | ignoring body, place => body.ways sense true opened place
  | look behind negated body, place =>
    Ways.look behind negated (body.ways sense ignoreCase opened) place
  | backref number, (pos, marks) => marks.again sense.text number pos
  | seq first second, place =>
    (first.ways sense ignoreCase opened place).flatMap
      (second.ways sense ignoreCase (opened + first.captures))
  | alt first second, place =>
    first.ways sense ignoreCase opened place
      ++ second.ways sense ignoreCase (opened + first.captures) place
  | repeated count greedy body, place =>
    Ways.repeated sense.text.size sense.retry count.min count.max? greedy
      (body.ways sense ignoreCase opened) place

/-- The position at which a pattern on its own stops matching, if it
matches at a position. -/
def stop? (sense : Sense) (ignoreCase : Bool) (expr : Expr) (pos : Nat) : Option Nat :=
  (expr.ways sense ignoreCase 0 (pos, Marks.none)).head?.map Prod.fst

/-! ### Where ways end -/

/-- From inside the text, a way leads forward, and not beyond the end.
What groups have matched is inside the text as well. -/
def Forward (size : Nat) (place next : Nat × Marks) : Prop :=
  place.1 ≤ size → (∀ group stop, place.2.ended group = some stop → stop ≤ size) →
    (place.1 ≤ next.1 ∧ next.1 ≤ size) ∧ ∀ group stop, next.2.ended group = some stop → stop ≤ size

theorem forward_refl (size : Nat) (place : Nat × Marks) : Forward size place place :=
  fun hpos hmarks => ⟨⟨Nat.le_refl _, hpos⟩, hmarks⟩

theorem forward_trans (size : Nat) (place between next : Nat × Marks)
    (h : Forward size place between) (h' : Forward size between next) :
    Forward size place next := by
  intro hpos hmarks
  obtain ⟨hbetween, hmarks⟩ := h hpos hmarks
  obtain ⟨hnext, hmarks⟩ := h' hbetween.2 hmarks
  exact ⟨⟨Nat.le_trans hbetween.1 hnext.1, hnext.2⟩, hmarks⟩

/-- What a group has matched is not longer than the text. -/
theorem forward_again (text : Array Char) (marks : Marks) (group pos : Nat) :
    Ways.Along (Forward text.size) (pos, marks) (marks.again text group pos) := by
  intro next hnext hpos hmarks
  unfold Marks.again at hnext
  split at hnext
  · rename_i start stop _ hended
    split at hnext
    · rename_i hstands
      cases List.mem_singleton.mp hnext
      have hstop := hmarks group stop hended
      have hsize := le_size_of_standsAt hstands hpos
      rw [Array.length_toList, Array.size_extract, Nat.min_eq_left hstop] at hsize
      exact ⟨⟨Nat.le_add_right _ _, hsize⟩, hmarks⟩
    · cases hnext
  · cases hnext

/-- Patterns lead forward. -/
theorem forward_ways (sense : Sense) (ignoreCase : Bool) (opened : Nat) (expr : Expr)
    (place : Nat × Marks) :
    Ways.Along (Forward sense.text.size) place (expr.ways sense ignoreCase opened place) := by
  have hrefl := forward_refl sense.text.size
  have htrans := forward_trans sense.text.size
  have hone : ∀ {set : CharSet} {place : Nat × Marks},
      Ways.Along (Forward sense.text.size) place (Ways.one sense.text set place) :=
    Ways.along_one fun hle _ hmarks => ⟨⟨Nat.le_succ _, hle⟩, hmarks⟩
  induction expr generalizing ignoreCase opened place with
  | empty => exact Ways.along_single hrefl place
  | coded letter braced digits =>
    rw [ways]
    cases coded? digits with
    | some c => exact hone
    | none => exact fun next hnext => nomatch hnext
  | wordBoundary => exact Ways.along_check (hrefl place)
  | textStart => exact Ways.along_check (hrefl place)
  | textEnd => exact Ways.along_check (hrefl place)
  | capture body ih =>
    obtain ⟨pos, marks⟩ := place
    intro next hnext hpos hmarks
    obtain ⟨found, hfound, rfl⟩ := List.mem_map.mp hnext
    obtain ⟨hbounds, hended⟩ :=
      ih ignoreCase (opened + 1) (pos, marks.begin (opened + 1) pos) found hfound hpos hmarks
    refine ⟨hbounds, fun group stop hstop => ?_⟩
    -- The group itself ends where the body has led; the others end where they did.
    by_cases hsame : group = opened + 1
    · have hstop : some found.1 = some stop := by simpa [Marks.finish, hsame] using hstop
      cases hstop
      exact hbounds.2
    · exact hended group stop (by simpa [Marks.finish, hsame] using hstop)
  | bare body ih => exact ih ignoreCase opened place
  | ignoring body ih => exact ih true opened place
  | look behind negated body ih =>
    -- Looking around does not move, but groups in it are set.
    refine Ways.along_look (hrefl place) fun found hfound hpos hmarks => ?_
    refine ⟨⟨Nat.le_refl _, hpos⟩, ?_⟩
    have hinside : ∀ start ≤ place.1, ∀ found ∈ body.ways sense ignoreCase opened (start, place.2),
        ∀ group stop, found.2.ended group = some stop → stop ≤ sense.text.size :=
      fun start hstart found hfound =>
        (ih ignoreCase opened (start, place.2) found hfound (Nat.le_trans hstart hpos) hmarks).2
    exact Ways.along_found hinside behind found hfound
  | backref number =>
    obtain ⟨pos, marks⟩ := place
    exact forward_again sense.text marks number pos
  | seq first second ihFirst ihSecond =>
    exact Ways.along_flatMap htrans (ihFirst ignoreCase opened place) (ihSecond ignoreCase _)
  | alt first second ihFirst ihSecond =>
    intro next hnext
    rcases List.mem_append.mp hnext with hnext | hnext
    · exact ihFirst ignoreCase opened place next hnext
    · exact ihSecond ignoreCase _ place next hnext
  | repeated count greedy body ih =>
    exact Ways.along_repeated hrefl htrans (ih ignoreCase opened) _ _ _ _ greedy place
  | _ => exact hone

/-- A match stops after its start and inside the text. -/
theorem stop?_bounds {sense : Sense} {ignoreCase : Bool} {expr : Expr} {pos stop : Nat}
    (hpos : pos ≤ sense.text.size) (h : expr.stop? sense ignoreCase pos = some stop) :
    pos ≤ stop ∧ stop ≤ sense.text.size := by
  obtain ⟨next, hnext, rfl⟩ := Option.map_eq_some_iff.mp h
  exact (forward_ways sense ignoreCase 0 expr (pos, Marks.none) next (List.mem_of_mem_head? hnext)
    hpos fun _ _ hstop => nomatch hstop).1

end Expr

end Highlighter.Pattern
