import Highlighter.Proofs.Regex.Ways
import Highlighter.Regex.Matcher

/-!
# The ways in which a node matches

`Node.run` hands each way in which a node matches to what comes after
it. `Node.ways` lists these ways, best first, without a rest and
without a count of retries. A run is then a search in the list
(`Node.finds_run`): its verdict is that of the first way that the rest
accepts, unless the retries are limited and used up.

A search asks at one position after the other (`Search.says_find`). If
it starts where a node matches, it finds its first way there
(`Search.find_eq`).
-/

set_option autoImplicit false

namespace Highlighter.Regex

/-! ### The ways of a node -/

/-- The slots without the groups from `lo` up to `hi`. -/
def Slots.fresh (slots : Slots) (lo hi : Nat) : Slots :=
  if lo < hi then slots.mapIdx fun i slot => if 2 * lo ≤ i && i < 2 * hi then none else slot
  else slots

/-- All ways in which a node matches at a place, best first. -/
def Node.ways (search : Search) : Node → Nat × Slots → List (Nat × Slots)
  | empty, place => [place]
  | char set, place => Ways.one search.text set place
  | anchor condition, place => Ways.check (condition.holds search.text place.1) place
  | seq first second, place => (first.ways search place).flatMap (second.ways search)
  | alt first second, place => first.ways search place ++ second.ways search place
  | group index body, (pos, slots) =>
    (body.ways search (pos, slots.setIfInBounds (2 * index) (some pos))).map fun next =>
      (next.1, next.2.setIfInBounds (2 * index + 1) (some next.1))
  | exactly count body, place => Ways.exactly (body.ways search) count place
  | upTo count greedy body, place => Ways.upTo greedy (body.ways search) count place
  | more greedy body, place => Ways.star search.text.size greedy (body.ways search) place
  | plus greedy body, place => Ways.plus search.text.size greedy (body.ways search) place
  | backref index, (pos, slots) =>
    match slots[2 * index]?.join, slots[2 * index + 1]?.join with
    | some start, some stop =>
      if standsAt search.text pos (search.text.extract start stop).toList then
        [(pos + (stop - start), slots)]
      else []
    | _, _ => []
  | groupSet index, place => Ways.check (place.2[2 * index]?.join).isSome place
  | ahead body, place => (body.ways search place).map fun next => (place.1, next.2)
  | notAhead body, place => Ways.check (body.ways search place).isEmpty place
  | behind count body, (pos, slots) =>
    if count ≤ pos then (body.ways search (pos - count, slots)).map fun next => (pos, next.2)
    else []
  | notBehind count body, (pos, slots) =>
    if count ≤ pos ∧ !(body.ways search (pos - count, slots)).isEmpty then [] else [(pos, slots)]
  | atomic body, place => (body.ways search place).take 1
  | once lo hi body, (pos, slots) => (body.ways search (pos, slots.fresh lo hi)).take 1
  | cond condition yes no, place =>
    match condition.ways search place with
    | next :: _ => yes.ways search next
    | [] => no.ways search place
  | keepOut, (pos, slots) => [(pos, slots.setIfInBounds 0 (some pos))]
  | searchStart, place => if place.1 ≤ search.start then [place] else []

/-! ### What verdicts say -/

/-- Whether a verdict says that a match ends so. A verdict that gave
up says nothing; only limited retries are given up. -/
def Verdict.Says (limit : Option Nat) (verdict : Verdict) (result : Option (Nat × Slots)) : Prop :=
  match verdict with
  | .found stop slots _ => result = some (stop, slots)
  | .failed _ => result = none
  | .exhausted => limit ≠ none

/-- Whether a rest decides every place as a function does. -/
def Rest.Finds (limit : Option Nat) (rest : Rest) (next : Nat × Slots → Option (Nat × Slots)) :
    Prop :=
  ∀ pos slots spent, (rest pos slots spent).Says limit (next (pos, slots))

variable {limit : Option Nat} {rest : Rest} {next : Nat × Slots → Option (Nat × Slots)}
  {verdict : Verdict} {result : Option (Nat × Slots)}

/-- Nothing is left to be matched. -/
theorem Rest.finds_found (limit : Option Nat) : Rest.Finds limit .found some :=
  fun _ _ _ => rfl

/-- Going on after a failure. -/
theorem Verdict.Says.orElse {other : Nat → Verdict} {second : Option (Nat × Slots)}
    (h : verdict.Says limit result) (hother : ∀ spent, (other spent).Says limit second) :
    (verdict.orElse limit other).Says limit (result.or second) := by
  cases verdict with
  | found stop slots spent =>
    cases (show result = some (stop, slots) from h)
    exact rfl
  | failed spent =>
    cases (show result = none from h)
    rw [Option.none_or]
    cases limit with
    | none => exact hother spent
    | some most =>
      show Verdict.Says _ (if most ≤ spent then .exhausted else other (spent + 1)) _
      by_cases hmost : most ≤ spent
      · rw [if_pos hmost]
        exact Option.some_ne_none most
      · rw [if_neg hmost]
        exact hother (spent + 1)
  | exhausted => exact h

/-! ### Loops find what their ways say -/

/-- What is tried first and what is tried second. -/
theorem says_arrange (h : rest.Finds limit next) {again : Nat → Verdict}
    {others : List (Nat × Slots)} {pos : Nat} {slots : Slots} (greedy : Bool) (spent : Nat)
    (hothers : ∀ spent, (again spent).Says limit (others.findSome? next)) :
    Verdict.Says limit
      (if greedy then (again spent).orElse limit fun spent => rest pos slots spent
      else (rest pos slots spent).orElse limit again)
      ((Ways.arrange greedy others (pos, slots)).findSome? next) := by
  cases greedy with
  | true =>
    have hway : (Ways.arrange true others (pos, slots)).findSome? next
        = (others.findSome? next).or (next (pos, slots)) := by
      rw [Ways.arrange, if_pos rfl, List.findSome?_append, findSome?_singleton]
    rw [hway]
    exact (hothers spent).orElse fun spent => h pos slots spent
  | false =>
    have hway : (Ways.arrange false others (pos, slots)).findSome? next
        = (next (pos, slots)).or (others.findSome? next) := by
      rw [Ways.arrange, if_neg Bool.false_ne_true, ← List.singleton_append,
        List.findSome?_append, findSome?_singleton]
    rw [hway]
    exact (h pos slots spent).orElse hothers

section Loops

variable {body : Rest → Rest} {step : Nat × Slots → List (Nat × Slots)}
  (hbody : ∀ rest next, Rest.Finds limit rest next →
    (body rest).Finds limit fun place => (step place).findSome? next)

include hbody

theorem finds_repeatExactly (h : rest.Finds limit next) (count : Nat) :
    (repeatExactly body rest count).Finds limit fun place =>
      (Ways.exactly step count place).findSome? next := by
  induction count with
  | zero =>
    intro pos slots spent
    show Verdict.Says limit (rest pos slots spent) ([(pos, slots)].findSome? next)
    rw [findSome?_singleton]
    exact h pos slots spent
  | succ count ih =>
    intro pos slots spent
    show Verdict.Says limit _ (((step (pos, slots)).flatMap _).findSome? next)
    rw [findSome?_flatMap]
    exact hbody _ _ ih pos slots spent

theorem finds_repeatUpTo (h : rest.Finds limit next) (greedy : Bool) (count : Nat) :
    (repeatUpTo limit greedy body rest count).Finds limit fun place =>
      (Ways.upTo greedy step count place).findSome? next := by
  induction count with
  | zero =>
    intro pos slots spent
    show Verdict.Says limit (rest pos slots spent) ([(pos, slots)].findSome? next)
    rw [findSome?_singleton]
    exact h pos slots spent
  | succ count ih =>
    intro pos slots spent
    refine says_arrange h greedy spent fun spent => ?_
    rw [findSome?_flatMap]
    exact hbody _ _ ih pos slots spent

theorem finds_repeatMore (h : rest.Finds limit next) (greedy : Bool) (fuel : Nat) :
    (repeatMore limit greedy body rest fuel).Finds limit fun place =>
      (Ways.more greedy step fuel place).findSome? next := by
  induction fuel with
  | zero =>
    intro pos slots spent
    show Verdict.Says limit (rest pos slots spent) ([(pos, slots)].findSome? next)
    rw [findSome?_singleton]
    exact h pos slots spent
  | succ fuel ih =>
    intro pos slots spent
    refine says_arrange h greedy spent fun spent => ?_
    rw [findSome?_flatMap]
    refine hbody _ _ (fun pos' slots' spent' => ?_) pos slots spent
    by_cases hsame : pos' = pos
    · rw [if_pos (beq_iff_eq.mpr hsame), if_pos hsame]
      rfl
    · rw [if_neg (by simpa using hsame), if_neg hsame]
      exact ih pos' slots' spent'

end Loops

/-! ### Every node finds what its ways say -/

/-- The first of the ways, and a rest that takes it. -/
theorem findSome?_some {α : Type} (xs : List α) : xs.findSome? some = xs.head? := by
  cases xs with
  | nil => rfl
  | cons x xs => rfl

theorem findSome?_take_one {α γ : Type} (xs : List α) (f : α → Option γ) :
    (xs.take 1).findSome? f = xs.head?.bind f := by
  cases xs with
  | nil => rfl
  | cons x xs => exact findSome?_singleton x f

/-- There is one way, which leads to the rest. -/
theorem finds_single (h : rest.Finds limit next) :
    rest.Finds limit fun place => [place].findSome? next := by
  intro pos slots spent
  show Verdict.Says limit _ ([(pos, slots)].findSome? next)
  rw [findSome?_singleton]
  exact h pos slots spent

/-- There is one way where a condition holds, and none elsewhere. -/
theorem finds_if (h : rest.Finds limit next) (condition : Nat → Slots → Prop)
    [∀ pos slots, Decidable (condition pos slots)] :
    Rest.Finds limit
      (fun pos slots spent =>
        if condition pos slots then rest pos slots spent else .failed spent)
      fun place => (if condition place.1 place.2 then [place] else []).findSome? next := by
  intro pos slots spent
  show Verdict.Says limit
    (if condition pos slots then rest pos slots spent else .failed spent)
    ((if condition pos slots then [(pos, slots)] else []).findSome? next)
  by_cases hcondition : condition pos slots
  · rw [if_pos hcondition, if_pos hcondition]
    exact finds_single h pos slots spent
  · rw [if_neg hcondition, if_neg hcondition]
    exact rfl

/-- A pattern that must not match. -/
theorem says_not (h : rest.Finds limit next) (ways : List (Nat × Slots)) (pos : Nat)
    (slots : Slots) :
    verdict.Says limit (ways.findSome? some) →
      Verdict.Says limit
        (match verdict with
          | .found _ _ spent => .failed spent
          | verdict => verdict.orElse limit fun spent => rest pos slots spent)
        ((if ways.isEmpty then [(pos, slots)] else []).findSome? next) := by
  intro hbody
  rw [findSome?_some] at hbody
  cases verdict with
  | found stop slots' spent =>
    obtain ⟨others, rfl⟩ := List.head?_eq_some_iff.mp hbody
    exact rfl
  | failed spent =>
    cases List.head?_eq_none_iff.mp hbody
    have hfailed : (Verdict.failed spent).Says limit none := rfl
    have hrest : ∀ spent, (rest pos slots spent).Says limit ([(pos, slots)].findSome? next) :=
      fun spent => finds_single h pos slots spent
    exact hfailed.orElse hrest
  | exhausted => exact hbody

theorem Node.run_once (search : Search) (lo hi : Nat) (body : Node) (rest : Rest) (pos : Nat)
    (slots : Slots) (spent : Nat) :
    (Node.once lo hi body).run search limit rest pos slots spent
      = match body.run search none .found pos (slots.fresh lo hi) 0 with
        | .found stop slots _ => rest stop slots spent
        | _ => .failed spent :=
  rfl

/-- Whether the runs of a node find what its ways say, whatever comes after it. -/
def Node.Searches (search : Search) (node : Node) : Prop :=
  ∀ {limit : Option Nat} {rest : Rest} {next : Nat × Slots → Option (Nat × Slots)},
    rest.Finds limit next →
      (node.run search limit rest).Finds limit fun place => (node.ways search place).findSome? next

namespace Node.Searches

variable {search : Search} {body : Node}

theorem char (search : Search) (set : Char → Bool) : (Node.char set).Searches search := by
  intro limit rest next h pos slots spent
  simp only [Node.run, Node.ways, Ways.one]
  cases search.text[pos]? with
  | none => exact rfl
  | some c =>
    by_cases hc : set c
    · simp only [hc, if_true]
      exact finds_single h (pos + 1) slots spent
    · simp only [hc]
      exact rfl

theorem seq {first second : Node} (hfirst : first.Searches search)
    (hsecond : second.Searches search) : (Node.seq first second).Searches search := by
  intro limit rest next h pos slots spent
  show Verdict.Says limit _ (((first.ways search (pos, slots)).flatMap _).findSome? next)
  rw [findSome?_flatMap]
  exact hfirst (hsecond h) pos slots spent

theorem alt {first second : Node} (hfirst : first.Searches search)
    (hsecond : second.Searches search) : (Node.alt first second).Searches search := by
  intro limit rest next h pos slots spent
  show Verdict.Says limit _
    ((first.ways search (pos, slots) ++ second.ways search (pos, slots)).findSome? next)
  rw [List.findSome?_append]
  exact (hfirst h pos slots spent).orElse fun spent => hsecond h pos slots spent

theorem group (hbody : body.Searches search) (index : Nat) :
    (Node.group index body).Searches search := by
  intro limit rest next h pos slots spent
  have hrest : Rest.Finds limit
      (fun stop slots spent =>
        rest stop (slots.setIfInBounds (2 * index + 1) (some stop)) spent)
      (fun place => next (place.1, place.2.setIfInBounds (2 * index + 1) (some place.1))) :=
    fun stop slots spent => h stop _ spent
  simp only [Node.ways, List.findSome?_map]
  exact hbody hrest pos _ spent

theorem plus (hbody : body.Searches search) (greedy : Bool) :
    (Node.plus greedy body).Searches search := by
  intro limit rest next h pos slots spent
  show Verdict.Says limit _ (((body.ways search (pos, slots)).flatMap _).findSome? next)
  rw [findSome?_flatMap]
  refine hbody (fun pos' slots' spent' => ?_) pos slots spent
  -- The first iteration may consume nothing, and then the loop is left.
  by_cases hsame : pos' = pos
  · rw [if_pos (beq_iff_eq.mpr hsame), if_pos hsame]
    exact finds_single h pos' slots' spent'
  · rw [if_neg (by simpa using hsame), if_neg hsame]
    exact finds_repeatMore (fun _ _ h => hbody h) h greedy _ pos' slots' spent'

theorem backref (search : Search) (index : Nat) : (Node.backref index).Searches search := by
  intro limit rest next h pos slots spent
  simp only [Node.run, Node.ways]
  cases slots[2 * index]?.join with
  | none => exact rfl
  | some start =>
    cases slots[2 * index + 1]?.join with
    | none => exact rfl
    | some stop =>
      by_cases hstands : standsAt search.text pos (search.text.extract start stop).toList
      · simp only [hstands, if_true]
        exact finds_single h _ slots spent
      · simp only [hstands]
        exact rfl

theorem ahead (hbody : body.Searches search) : (Node.ahead body).Searches search := by
  intro limit rest next h pos slots spent
  simp only [Node.ways, List.findSome?_map]
  exact hbody (fun _ slots spent => h pos slots spent) pos slots spent

theorem notAhead (hbody : body.Searches search) : (Node.notAhead body).Searches search :=
  fun h pos slots spent => says_not h (body.ways search (pos, slots)) pos slots
    (hbody (Rest.finds_found _) pos slots spent)

theorem behind (hbody : body.Searches search) (count : Nat) :
    (Node.behind count body).Searches search := by
  intro limit rest next h pos slots spent
  simp only [Node.run, Node.ways]
  by_cases hcount : count ≤ pos
  · rw [if_pos hcount, if_pos hcount, List.findSome?_map]
    exact hbody (fun _ slots spent => h pos slots spent) (pos - count) slots spent
  · rw [if_neg hcount, if_neg hcount]
    exact rfl

theorem notBehind (hbody : body.Searches search) (count : Nat) :
    (Node.notBehind count body).Searches search := by
  intro limit rest next h pos slots spent
  simp only [Node.run, Node.ways]
  by_cases hcount : count ≤ pos
  · have hnot := says_not h (body.ways search (pos - count, slots)) pos slots
      (hbody (Rest.finds_found limit) (pos - count) slots spent)
    rw [if_pos hcount]
    cases hways : body.ways search (pos - count, slots) with
    | nil =>
      rw [hways] at hnot
      rw [if_neg (by simp)]
      exact hnot
    | cons way ways =>
      rw [hways] at hnot
      rw [if_pos ⟨hcount, rfl⟩]
      exact hnot
  · rw [if_neg hcount, if_neg fun hboth => hcount hboth.1]
    have hfailed : (Verdict.failed spent).Says limit none := rfl
    exact hfailed.orElse fun spent => finds_single h pos slots spent

theorem atomic (hbody : body.Searches search) : (Node.atomic body).Searches search := by
  intro limit rest next h pos slots spent
  have hfirst := hbody (Rest.finds_found limit) pos slots spent
  simp only [findSome?_some] at hfirst
  simp only [Node.run, Node.ways, findSome?_take_one]
  cases hverdict : body.run search limit .found pos slots spent with
  | found stop slots' spent' =>
    rw [hverdict] at hfirst
    rw [show (body.ways search (pos, slots)).head? = some (stop, slots') from hfirst]
    exact h stop slots' spent'
  | failed spent' =>
    rw [hverdict] at hfirst
    rw [show (body.ways search (pos, slots)).head? = none from hfirst]
    exact rfl
  | exhausted =>
    rw [hverdict] at hfirst
    exact hfirst

theorem once (hbody : body.Searches search) (lo hi : Nat) :
    (Node.once lo hi body).Searches search := by
  intro limit rest next h pos slots spent
  have hfirst := hbody (Rest.finds_found none) pos (slots.fresh lo hi) 0
  simp only [findSome?_some] at hfirst
  rw [Node.run_once]
  simp only [Node.ways, findSome?_take_one]
  cases hverdict : body.run search none .found pos (slots.fresh lo hi) 0 with
  | found stop slots' spent' =>
    rw [hverdict] at hfirst
    rw [show (body.ways search (pos, slots.fresh lo hi)).head? = some (stop, slots') from hfirst]
    exact h stop slots' spent
  | failed spent' =>
    rw [hverdict] at hfirst
    rw [show (body.ways search (pos, slots.fresh lo hi)).head? = none from hfirst]
    exact rfl
  | exhausted =>
    -- Without a limit, nothing is given up.
    rw [hverdict] at hfirst
    exact absurd rfl hfirst

theorem cond {condition yes no : Node} (hcondition : condition.Searches search)
    (hyes : yes.Searches search) (hno : no.Searches search) :
    (Node.cond condition yes no).Searches search := by
  intro limit rest next h pos slots spent
  have hfirst := hcondition (Rest.finds_found limit) pos slots spent
  simp only [findSome?_some] at hfirst
  simp only [Node.run, Node.ways]
  -- The ways of the condition and the verdict of its run have to agree.
  cases hways : condition.ways search (pos, slots) with
  | nil =>
    rw [hways] at hfirst
    cases hverdict : condition.run search limit .found pos slots spent with
    | found stop slots' spent' =>
      rw [hverdict] at hfirst
      cases hfirst
    | failed spent' =>
      have hfailed : (Verdict.failed spent').Says limit none := rfl
      exact hfailed.orElse fun spent => hno h pos slots spent
    | exhausted =>
      rw [hverdict] at hfirst
      exact hfirst
  | cons way ways =>
    rw [hways] at hfirst
    cases hverdict : condition.run search limit .found pos slots spent with
    | found stop slots' spent' =>
      rw [hverdict] at hfirst
      cases (show some way = some (stop, slots') from hfirst)
      exact hyes h stop slots' spent'
    | failed spent' =>
      rw [hverdict] at hfirst
      cases hfirst
    | exhausted =>
      rw [hverdict] at hfirst
      exact hfirst

end Node.Searches

theorem Node.searches (search : Search) (node : Node) : node.Searches search := by
  induction node with
  | empty => exact fun h => finds_single h
  | char set => exact Searches.char search set
  | anchor condition =>
    exact fun h => finds_if h fun pos _ => condition.holds search.text pos = true
  | seq first second ihFirst ihSecond => exact ihFirst.seq ihSecond
  | alt first second ihFirst ihSecond => exact ihFirst.alt ihSecond
  | group index body ih => exact ih.group index
  | exactly count body ih => exact fun h => finds_repeatExactly (fun _ _ h => ih h) h count
  | upTo count greedy body ih => exact fun h => finds_repeatUpTo (fun _ _ h => ih h) h greedy count
  | more greedy body ih =>
    -- How often the loop may run is counted from where it starts.
    exact fun h pos slots spent =>
      finds_repeatMore (fun _ _ h => ih h) h greedy _ pos slots spent
  | plus greedy body ih => exact ih.plus greedy
  | backref index => exact Searches.backref search index
  | groupSet index => exact fun h => finds_if h fun _ slots => (slots[2 * index]?.join).isSome = true
  | ahead body ih => exact ih.ahead
  | notAhead body ih => exact ih.notAhead
  | behind count body ih => exact ih.behind count
  | notBehind count body ih => exact ih.notBehind count
  | atomic body ih => exact ih.atomic
  | once lo hi body ih => exact ih.once lo hi
  | cond condition yes no ihCondition ihYes ihNo => exact ihCondition.cond ihYes ihNo
  | keepOut => exact fun h pos slots spent => finds_single h pos _ spent
  | searchStart => exact fun h => finds_if h fun pos _ => pos ≤ search.start

/-- A run of a node has the verdict of the first way that the rest
accepts. -/
theorem Node.finds_run (search : Search) (node : Node) (h : rest.Finds limit next) :
    (node.run search limit rest).Finds limit fun place =>
      (node.ways search place).findSome? next :=
  node.searches search h

/-! ### Searches -/

/-- The ways of a whole pattern that starts at a place. The match itself
is group 0. -/
def Node.waysFrom (search : Search) (node : Node) (groups pos : Nat) : List (Nat × Slots) :=
  (Node.group 0 node).ways search (pos, Array.replicate (2 * (groups + 1)) none)

/-- A search finds the first way at the first of some positions where
there is one. -/
theorem says_findFrom (search : Search) (node : Node) (groups : Nat) (pos spent fuel : Nat) :
    (findFrom search node groups pos spent fuel).Says search.limit
      ((List.range' pos fuel).findSome? fun start =>
        (node.waysFrom search groups start).head?) := by
  induction fuel generalizing pos spent with
  | zero => exact rfl
  | succ fuel ih =>
    have hrun := (Node.group 0 node).finds_run search (Rest.finds_found search.limit) pos
      (Array.replicate (2 * (groups + 1)) none) spent
    simp only [findSome?_some] at hrun
    rw [List.range'_succ, ← List.singleton_append, List.findSome?_append, findSome?_singleton]
    exact hrun.orElse fun spent => ih (pos + 1) spent

theorem Search.says_find (search : Search) (node : Node) (groups : Nat) :
    (search.find node groups).Says search.limit
      ((List.range' search.start (search.text.size + 1 - search.start)).findSome? fun start =>
        (node.waysFrom search groups start).head?) :=
  says_findFrom search node groups search.start 0 _

/-- A pattern that matches where the search starts is found there, in
its first way, unless the search is given up. -/
theorem Search.find_eq (search : Search) (node : Node) (groups : Nat) {stop : Nat} {slots : Slots}
    (hpos : search.start ≤ search.text.size)
    (h : (node.waysFrom search groups search.start).head? = some (stop, slots)) :
    (search.find node groups = .exhausted ∧ search.limit ≠ none) ∨
      ∃ spent, search.find node groups = .found stop slots spent := by
  have hfuel : search.text.size + 1 - search.start = search.text.size - search.start + 1 := by
    omega
  have hsays := search.says_find node groups
  rw [hfuel, List.range'_succ, List.findSome?_cons, h] at hsays
  cases hverdict : search.find node groups with
  | found stop' slots' spent =>
    rw [hverdict] at hsays
    cases (show some (stop, slots) = some (stop', slots') from hsays)
    exact .inr ⟨spent, rfl⟩
  | failed spent =>
    rw [hverdict] at hsays
    cases hsays
  | exhausted =>
    rw [hverdict] at hsays
    exact .inl ⟨rfl, hsays⟩

/-- A pattern that matches nowhere is not found. -/
theorem Search.find_eq_failed (search : Search) (node : Node) (groups : Nat)
    (h : ∀ start, search.start ≤ start → start ≤ search.text.size →
      node.waysFrom search groups start = []) :
    (search.find node groups = .exhausted ∧ search.limit ≠ none) ∨
      ∃ spent, search.find node groups = .failed spent := by
  have hsays := search.says_find node groups
  have hnone : (List.range' search.start (search.text.size + 1 - search.start)).findSome?
      (fun start => (node.waysFrom search groups start).head?) = none := by
    refine List.findSome?_eq_none_iff.mpr fun start hstart => ?_
    obtain ⟨hle, hlt⟩ := List.mem_range'_1.mp hstart
    rw [h start hle (by omega)]
    rfl
  rw [hnone] at hsays
  cases hverdict : search.find node groups with
  | found stop slots spent =>
    rw [hverdict] at hsays
    cases hsays
  | failed spent => exact .inr ⟨spent, rfl⟩
  | exhausted =>
    rw [hverdict] at hsays
    exact .inl ⟨rfl, hsays⟩

end Highlighter.Regex
