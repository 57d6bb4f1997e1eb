import Highlighter.Proofs.Regex.Context
import Highlighter.Proofs.Regex.Regular.Becoming
import Highlighter.Proofs.Regex.Regular.OneChar

/-!
# Rows that are read whatever the number of steps

`RowReads` and `BranchesRead` say that a text is read, as long as there are enough steps for its
length. Only patterns that capture nothing and are not verbose are read so: the reader is then the
same before and after. There is one lemma for each thing that a row can go on with, and each only
asks that the reader gets ahead.

`ItemReads` says of a text that it is read as one item, which a given item may become. Items may be
put in a group in which letter case does not count (`ItemReads.ignoring`).
-/

set_option autoImplicit false

namespace Highlighter.Regex.Regular

/-- From `items` on, the row `out` is read, up to `left`. -/
def RowReads (reading : Reading) (items : List Ast) (cs : List Char) (out : List Ast)
    (left : List Char) : Prop :=
  ∀ steps, 2 * cs.length + 1 ≤ steps →
    parseItems? steps reading items cs = some (out, reading, left)

/-- From the branches `before` on, the alternation `ast` is read, up to `left`. -/
def BranchesRead (reading : Reading) (before : List Ast) (cs : List Char) (ast : Ast)
    (left : List Char) : Prop :=
  ∀ steps, 2 * cs.length + 2 ≤ steps →
    parseBranches? steps reading before cs = some (ast, reading, left)

variable {reading : Reading} {items out before : List Ast} {ast item body : Ast}
  {cs rest next opened left : List Char} {c : Char}

theorem isCountStart_of_not_isMark (h : isMark c = false) : Pattern.isCountStart c = false := by
  refine Bool.eq_false_iff.mpr fun hstart => ?_
  have hcases : c = '?' ∨ c = '*' ∨ c = '+' ∨ c = '{' := by
    simpa [Pattern.isCountStart, or_assoc] using hstart
  rcases hcases with rfl | rfl | rfl | rfl <;> cases h

/-- Where there is one step more than are counted, one can be taken. -/
theorem exists_step {count steps : Nat} (h : count + 1 ≤ steps) :
    ∃ others, steps = others + 1 ∧ count ≤ others :=
  ⟨steps - 1, by omega, by omega⟩

theorem rowReads_stop (hverbose : reading.verbose = false)
    (hleft : ∀ c ∈ left.head?, c = ')' ∨ c = '|') :
    RowReads reading items left items.reverse left := by
  intro steps hsteps
  obtain ⟨steps, rfl, -⟩ := exists_step hsteps
  exact parseItems_stop steps items hverbose hleft

namespace RowReads

theorem piece {piece : Primitive} (hverbose : reading.verbose = false) (hmark : isMark c = false)
    (hpiece : parsePrimitive? false (c :: rest) = some (piece, next))
    (hnext : next.length ≤ rest.length)
    (hrow : RowReads reading (.primitive piece :: items) next out left) :
    RowReads reading items (c :: rest) out left := by
  intro steps hsteps
  rw [List.length_cons] at hsteps
  obtain ⟨steps, rfl, hsteps⟩ := exists_step hsteps
  rw [parseItems_primitive steps items (Reading.skipBlank_eq hverbose _) hmark, hverbose, hpiece,
    Option.bind_some]
  exact hrow steps (by omega)

theorem bracket {set : ClassSet} (hverbose : reading.verbose = false)
    (hclass : parseClass? false rest = some (set, next)) (hnext : next.length ≤ rest.length)
    (hrow : RowReads reading
      (.bracket set ⟨reading.placeOf ('[' :: rest), reading.placeOf next⟩ :: items) next out left) :
    RowReads reading items ('[' :: rest) out left := by
  intro steps hsteps
  rw [List.length_cons] at hsteps
  obtain ⟨steps, rfl, hsteps⟩ := exists_step hsteps
  rw [parseItems_class_eq, hverbose, hclass, Option.bind_some]
  exact hrow steps (by omega)

theorem count {min : Nat} {max : Option Nat} {greedy : Bool} (hverbose : reading.verbose = false)
    (hitem : item.isRepeatable = true)
    (hcount : counted? false (c :: rest) = some (min, max, greedy, next))
    (hnext : next.length ≤ rest.length)
    (hrow : RowReads reading (.repetition min max greedy item :: items) next out left) :
    RowReads reading (item :: items) (c :: rest) out left := by
  intro steps hsteps
  rw [List.length_cons] at hsteps
  obtain ⟨steps, rfl, hsteps⟩ := exists_step hsteps
  obtain ⟨hc, hrepetition⟩ : c ∈ "?*+\x7b".toList ∧
      repetition? (c :: rest) = counted? false (c :: rest) := by
    unfold counted? at hcount
    split at hcount
    case h_5 => cases hcount
    all_goals
      rename_i heq
      cases heq
      exact ⟨by decide, rfl⟩
  rw [parseItems_repetition steps _ hverbose hc, hrepetition, hcount, Option.bind_some]
  simp only [repeatLatest_cons hitem, Option.bind_some]
  exact hrow steps (by omega)

theorem flags {change : FlagChange} (hverbose : reading.verbose = false)
    (hopening : parseOpening? reading rest = some (.flags change, reading, next))
    (hchange : change.value? .verbose ≠ some true) (hnext : next.length ≤ rest.length)
    (hrow : RowReads reading
      (.flags change ⟨reading.placeOf ('(' :: rest), reading.placeOf next⟩ :: items) next out
      left) :
    RowReads reading items ('(' :: rest) out left := by
  intro steps hsteps
  rw [List.length_cons] at hsteps
  obtain ⟨steps, rfl, hsteps⟩ := exists_step hsteps
  have hsame : { reading with verbose := (change.value? .verbose).getD reading.verbose }
      = reading := by
    have hoff : (change.value? .verbose).getD reading.verbose = reading.verbose := by
      rw [hverbose]
      cases hvalue : change.value? .verbose with
      | none => rfl
      | some value =>
        cases value with
        | false => rfl
        | true => exact absurd hvalue hchange
    rw [hoff]
  rw [parseItems?, Reading.skipBlank_eq hverbose]
  simp only [hopening, bind, Option.bind_some, hsame]
  exact hrow steps (by omega)

theorem group {change : FlagChange} (hverbose : reading.verbose = false)
    (hopening : parseOpening? reading rest = some (.group (.flagged change), reading, opened))
    (hchange : change.value? .verbose ≠ some true) (hopened : opened.length < rest.length)
    (hnext : next.length ≤ opened.length)
    (hbody : BranchesRead reading [] opened body (')' :: next))
    (hrow : RowReads reading
      (.group (.flagged change) (reading.placeOf ('(' :: rest)) body :: items) next out left) :
    RowReads reading items ('(' :: rest) out left := by
  intro steps hsteps
  rw [List.length_cons] at hsteps
  obtain ⟨steps, rfl, hsteps⟩ := exists_step hsteps
  have hoff : (change.value? .verbose).getD reading.verbose = reading.verbose := by
    rw [hverbose]
    cases hvalue : change.value? .verbose with
    | none => rfl
    | some value =>
      cases value with
      | false => rfl
      | true => exact absurd hvalue hchange
  rw [parseItems?, Reading.skipBlank_eq hverbose]
  simp only [hopening, bind, Option.bind_some, hoff, hbody steps (by omega)]
  exact hrow steps (by omega)

end RowReads

namespace BranchesRead

theorem branch (hrow : RowReads reading [] cs items ('|' :: rest))
    (hlength : rest.length < cs.length)
    (hrest : BranchesRead reading (.ofItems items :: before) rest ast left) :
    BranchesRead reading before cs ast left := by
  intro steps hsteps
  obtain ⟨steps, rfl, hsteps⟩ := exists_step hsteps
  rw [parseBranches?, hrow steps (by omega)]
  simp only [bind, Option.bind_some]
  exact hrest steps (by omega)

theorem last (hrow : RowReads reading [] cs items left) (hleft : ∀ c ∈ left.head?, c ≠ '|') :
    BranchesRead reading before cs (.ofBranches (.ofItems items :: before).reverse) left := by
  intro steps hsteps
  obtain ⟨steps, rfl, hsteps⟩ := exists_step hsteps
  rw [parseBranches?, hrow steps (by omega)]
  simp only [bind, Option.bind_some]
  split
  · exact absurd rfl (hleft '|' rfl)
  · rfl

end BranchesRead

/-! ### Single items -/

/-- Before `more`, the text is read as one item, which `ast` may become. -/
def ItemReads (folded : Bool) (ast : Ast) (written more : List Char) : Prop :=
  ∀ (reading : Reading) (items : List Ast), reading.verbose = false →
    ∃ item : Ast, ast.MayBecome folded item ∧
      (ast.isRepeatable = true → item.isRepeatable = true) ∧ ∀ out left, RowReads reading (item :: items) more out left →
        RowReads reading items (written ++ more) out left

variable {folded : Bool} {written more : List Char}

theorem itemReads_primitive {piece : Primitive} (hmark : isMark c = false)
    (hpiece : parsePrimitive? false (c :: (written ++ more)) = some (piece, more)) :
    ItemReads folded (.primitive piece) (c :: written) more := by
  intro reading items hverbose
  refine ⟨.primitive piece, Ast.mayBecome_primitive piece, fun _ => rfl, fun out left hrow => ?_⟩
  exact RowReads.piece hverbose hmark hpiece (by simp) hrow

theorem itemReads_bracket {set : ClassSet}
    (hast : ∀ place, ast.MayBecome folded (.bracket set place))
    (hclass : parseClass? false (written ++ more) = some (set, more)) :
    ItemReads folded ast ('[' :: written) more := by
  intro reading items hverbose
  exact ⟨_, hast _, fun _ => rfl, fun out left hrow => RowReads.bracket hverbose hclass (by simp) hrow⟩

/-- A group in which letter case does not count takes one item as well. -/
theorem ItemReads.ignoring (h : ItemReads folded ast written (')' :: more))
    (hafter : ∀ ⦃modes after : Modes⦄ ⦃node : Node⦄, ast.meaning? modes = some (node, after) →
      after = modes) : ItemReads folded ast (Pattern.ignoringCase written) more := by
  intro reading items hverbose
  obtain ⟨item, hitem, -, hreads⟩ := h reading [] hverbose
  have hrow : RowReads reading [] (written ++ ')' :: more) [item] (')' :: more) :=
    hreads _ _ (rowReads_stop hverbose (by simp))
  have hbody : BranchesRead reading [] (written ++ ')' :: more) item (')' :: more) :=
    .last hrow (by simp)
  have hshape : Pattern.ignoringCase written ++ more
      = '(' :: '?' :: 'i' :: ':' :: (written ++ ')' :: more) := by
    simp [Pattern.ignoringCase]
  rw [hshape]
  refine ⟨_, hitem.ignoring hafter
    (reading.placeOf ('(' :: '?' :: 'i' :: ':' :: (written ++ ')' :: more))), fun _ => rfl,
    fun out left hrow => ?_⟩
  refine RowReads.group hverbose (parseOpening_flags hverbose _).2.1 (by decide) ?_ ?_ hbody hrow
  · simp only [List.length_cons]
    omega
  · rw [List.length_append, List.length_cons]
    omega

theorem itemReads_flags {change : FlagChange} {place : Place}
    (hopening : ∀ reading : Reading, reading.verbose = false →
      parseOpening? reading (written ++ more) = some (.flags change, reading, more))
    (hverbose : change.value? .verbose ≠ some true)
    (hunicode : folded = true → change.value? .unicode ≠ some false) :
    ItemReads folded (.flags change place) ('(' :: written) more := by
  intro reading items hreading
  exact ⟨_, Ast.mayBecome_flags hunicode place _, nofun, fun out left hrow =>
    RowReads.flags hreading (hopening reading hreading) hverbose (by simp) hrow⟩

theorem itemReads_group {kind : GroupKind} {start : Nat} {opening : List Char}
    (hopening : ∀ reading : Reading, reading.verbose = false →
      parseOpening? reading (opening ++ (written ++ ')' :: more))
        = some (.group (.flagged kind.change), reading, written ++ ')' :: more))
    (hbody : ∀ reading : Reading, reading.verbose = false →
      ∃ body', body.MayBecome folded body' ∧
        BranchesRead reading [] (written ++ ')' :: more) body' (')' :: more))
    (hne : opening ≠ []) (hverbose : kind.change.value? .verbose ≠ some true)
    (hunicode : folded = true → kind.change.value? .unicode ≠ some false) :
    ItemReads folded (.group kind start body) ('(' :: (opening ++ (written ++ [')']))) more := by
  intro reading items hreading
  obtain ⟨body', hbecomes, hread⟩ := hbody reading hreading
  have hshape : '(' :: (opening ++ (written ++ [')'])) ++ more
      = '(' :: (opening ++ (written ++ ')' :: more)) := by simp
  rw [hshape]
  refine ⟨_, Ast.mayBecome_group hbecomes kind hunicode start
    (reading.placeOf ('(' :: (opening ++ (written ++ ')' :: more)))), fun _ => rfl,
    fun out left hrow => RowReads.group hreading (hopening reading hreading) hverbose ?_ ?_ hread
      hrow⟩
  · have hlength := List.length_pos_of_ne_nil hne
    simp only [List.length_append]
    omega
  · rw [List.length_append, List.length_cons]
    omega

end Highlighter.Regex.Regular
