import Highlighter.Proofs.Regex.Regular.Quiet

/-!
# How patterns of the regular dialect are read

`parseItems?` and `parseBranches?` count steps and gather what they have read in accumulators.
`Reads` says the same as a relation, with one constructor for each thing that a row can go on with;
`reads_of_parse` takes every reading apart so. What is claimed of all accepted patterns is then
proved by induction on the relation.

What has been read stays: it may be repeated, but nothing of it is lost (`Reads.mem_subterms`).
-/

set_option autoImplicit false

namespace Highlighter.Regex.Regular

/-! ### The parts of a pattern -/

namespace Ast

mutual

/-- A pattern and all patterns in it, in the order in which they start. -/
def subterms : Ast → List Ast
  | empty => [empty]
  | flags change place => [flags change place]
  | primitive piece => [primitive piece]
  | bracket set place => [bracket set place]
  | repetition min max greedy body => repetition min max greedy body :: body.subterms
  | group kind start body => group kind start body :: body.subterms
  | alternation branches => alternation branches :: subtermsAll branches
  | concat items => concat items :: subtermsAll items

/-- The patterns and all patterns in them. -/
def subtermsAll : List Ast → List Ast
  | [] => []
  | item :: rest => item.subterms ++ subtermsAll rest

end

theorem mem_subtermsAll {items : List Ast} {ast : Ast} :
    ast ∈ subtermsAll items ↔ ∃ item ∈ items, ast ∈ item.subterms := by
  induction items with
  | nil => simp [subtermsAll]
  | cons item rest ih => simp [subtermsAll, ih]

theorem subtermsAll_append (items others : List Ast) :
    subtermsAll (items ++ others) = subtermsAll items ++ subtermsAll others := by
  induction items with
  | nil => rfl
  | cons item rest ih => simp [subtermsAll, ih]

theorem subterms_subset_ofItems (items : List Ast) :
    subtermsAll items ⊆ (ofItems items).subterms := by
  cases items with
  | nil => exact List.nil_subset _
  | cons item rest =>
    cases rest with
    | nil => simp [subtermsAll, ofItems]
    | cons second rest => exact List.subset_cons_self _ _

theorem subterms_subset_ofBranches (branches : List Ast) :
    subtermsAll branches ⊆ (ofBranches branches).subterms := by
  cases branches with
  | nil => exact List.nil_subset _
  | cons branch rest =>
    cases rest with
    | nil => simp [subtermsAll, ofBranches]
    | cons second rest => exact List.subset_cons_self _ _

mutual

/-- All parts of a pattern that is allowed are allowed, under some flags. -/
theorem exists_meaning_of_mem {modes : Modes} {meaning : Node × Modes} {sub : Ast} :
    (ast : Ast) → ast.meaning? modes = some meaning → sub ∈ ast.subterms →
      ∃ modes meaning, sub.meaning? modes = some meaning
  | empty, h, hsub => by
    obtain rfl := List.mem_singleton.mp hsub
    exact ⟨modes, meaning, h⟩
  | flags _ _, h, hsub => by
    obtain rfl := List.mem_singleton.mp hsub
    exact ⟨modes, meaning, h⟩
  | primitive _, h, hsub => by
    obtain rfl := List.mem_singleton.mp hsub
    exact ⟨modes, meaning, h⟩
  | bracket _ _, h, hsub => by
    obtain rfl := List.mem_singleton.mp hsub
    exact ⟨modes, meaning, h⟩
  | repetition _ _ _ body, h, hsub => by
    rcases List.mem_cons.mp hsub with rfl | hsub
    · exact ⟨modes, meaning, h⟩
    · rw [meaning?] at h
      obtain ⟨inner, hinner, -⟩ := Option.bind_eq_some_iff.mp h
      exact exists_meaning_of_mem body hinner hsub
  | group (.capturing _ _) _ body, h, hsub => by
    rcases List.mem_cons.mp hsub with rfl | hsub
    · exact ⟨modes, meaning, h⟩
    · rw [meaning?] at h
      obtain ⟨inner, hinner, -⟩ := Option.bind_eq_some_iff.mp h
      exact exists_meaning_of_mem body hinner hsub
  | group (.flagged _) _ body, h, hsub => by
    rcases List.mem_cons.mp hsub with rfl | hsub
    · exact ⟨modes, meaning, h⟩
    · rw [meaning?] at h
      obtain ⟨inner, hinner, -⟩ := Option.bind_eq_some_iff.mp h
      exact exists_meaning_of_mem body hinner hsub
  | alternation branches, h, hsub => by
    rcases List.mem_cons.mp hsub with rfl | hsub
    · exact ⟨modes, meaning, h⟩
    · rw [meaning?] at h
      obtain ⟨inner, hinner, -⟩ := Option.bind_eq_some_iff.mp h
      exact exists_meaning_of_mem_all branches hinner hsub
  | concat items, h, hsub => by
    rcases List.mem_cons.mp hsub with rfl | hsub
    · exact ⟨modes, meaning, h⟩
    · rw [meaning?] at h
      obtain ⟨inner, hinner, -⟩ := Option.bind_eq_some_iff.mp h
      exact exists_meaning_of_mem_all items hinner hsub

theorem exists_meaning_of_mem_all {modes : Modes} {meanings : List Node × Modes} {sub : Ast} :
    (items : List Ast) → meanings? modes items = some meanings → sub ∈ subtermsAll items →
      ∃ modes meaning, sub.meaning? modes = some meaning
  | [], _, hsub => (nomatch hsub)
  | item :: rest, h, hsub => by
    rw [meanings?] at h
    obtain ⟨first, hfirst, h⟩ := Option.bind_eq_some_iff.mp h
    obtain ⟨others, hothers, -⟩ := Option.bind_eq_some_iff.mp h
    rcases List.mem_append.mp hsub with hsub | hsub
    · exact exists_meaning_of_mem item hfirst hsub
    · exact exists_meaning_of_mem_all rest hothers hsub

end

end Ast

/-! ### Readings as derivations -/

/-- What follows a piece where it is repeated. -/
def counted? (verbose : Bool) : List Char → Option (Nat × Option Nat × Bool × List Char)
  | '?' :: rest => some (0, some 1, lazyMark rest)
  | '*' :: rest => some (0, none, lazyMark rest)
  | '+' :: rest => some (1, none, lazyMark rest)
  | '{' :: rest => (parseBounds? verbose rest).map fun (min, max, rest) =>
    (min, max, lazyMark (skipBlank verbose rest))
  | _ => none

/-- The reader after flags. -/
def Reading.flagged (reading : Reading) (change : FlagChange) : Reading :=
  { reading with verbose := (change.value? .verbose).getD reading.verbose }

/-- The reader inside a group. -/
def Reading.grouped (reading : Reading) (kind : GroupKind) (outside : Reading) : Reading :=
  { reading with verbose := match kind with
    | .flagged change => (change.value? .verbose).getD outside.verbose
    | .capturing _ _ => outside.verbose }

/-- What a reader is at, and what it makes of that. Accumulators hold the latest item or branch
first. -/
inductive Goal where
  /-- From `items` on, the row `out` is read, up to `left`. -/
  | row (reading : Reading) (items : List Ast) (cs : List Char) (out : List Ast) (after : Reading)
    (left : List Char)
  /-- From the branches `before` on, the alternation `ast` is read, up to `left`. -/
  | branches (reading : Reading) (before : List Ast) (cs : List Char) (ast : Ast) (after : Reading)
    (left : List Char)

/-- How a reader comes to its end. -/
inductive Reads : Goal → Prop where
  | stop {reading : Reading} {items : List Ast} {cs left : List Char}
    (hshown : skipBlank reading.verbose cs = left)
    (hleft : ∀ c ∈ left.head?, c = '|' ∨ c = ')') :
    Reads (.row reading items cs items.reverse reading left)
  | flags {reading inside after : Reading} {items out : List Ast} {cs rest next left : List Char}
    {change : FlagChange} (hshown : skipBlank reading.verbose cs = '(' :: rest)
    (hopening : parseOpening? reading rest = some (.flags change, inside, next))
    (hrow : Reads (.row (inside.flagged change)
      (.flags change ⟨reading.placeOf ('(' :: rest), inside.placeOf next⟩ :: items) next out after
      left)) :
    Reads (.row reading items cs out after left)
  | group {reading inside between after : Reading} {items out : List Ast} {body : Ast}
    {cs rest opened next left : List Char} {kind : GroupKind}
    (hshown : skipBlank reading.verbose cs = '(' :: rest)
    (hopening : parseOpening? reading rest = some (.group kind, inside, opened))
    (hbody : Reads (.branches (inside.grouped kind reading) [] opened body between (')' :: next)))
    (hrow : Reads (.row { between with verbose := reading.verbose }
      (.group kind (reading.placeOf ('(' :: rest)) body :: items) next out after left)) :
    Reads (.row reading items cs out after left)
  | bracket {reading after : Reading} {items out : List Ast} {cs rest next left : List Char}
    {set : ClassSet} (hshown : skipBlank reading.verbose cs = '[' :: rest)
    (hclass : parseClass? reading.verbose rest = some (set, next))
    (hrow : Reads (.row reading
      (.bracket set ⟨reading.placeOf ('[' :: rest), reading.placeOf next⟩ :: items) next out after
      left)) :
    Reads (.row reading items cs out after left)
  | count {reading after : Reading} {item : Ast} {items out : List Ast}
    {cs shown next left : List Char} {min : Nat} {max : Option Nat} {greedy : Bool}
    (hshown : skipBlank reading.verbose cs = shown)
    (hcount : counted? reading.verbose shown = some (min, max, greedy, next))
    (hitem : item.isRepeatable = true)
    (hrow : Reads (.row reading (.repetition min max greedy item :: items) next out after left)) :
    Reads (.row reading (item :: items) cs out after left)
  | piece {reading after : Reading} {items out : List Ast} {c : Char} {cs rest next left : List Char}
    {piece : Primitive} (hshown : skipBlank reading.verbose cs = c :: rest)
    (hmark : isMark c = false)
    (hpiece : parsePrimitive? reading.verbose (c :: rest) = some (piece, next))
    (hrow : Reads (.row reading (.primitive piece :: items) next out after left)) :
    Reads (.row reading items cs out after left)
  | branch {reading between after : Reading} {before items : List Ast} {ast : Ast}
    {cs rest left : List Char}
    (hrow : Reads (.row reading [] cs items between ('|' :: rest)))
    (hrest : Reads (.branches between (.ofItems items :: before) rest ast after left)) :
    Reads (.branches reading before cs ast after left)
  | last {reading after : Reading} {before items : List Ast} {cs left : List Char}
    (hrow : Reads (.row reading [] cs items after left))
    (hleft : ∀ c ∈ left.head?, c ≠ '|') :
    Reads (.branches reading before cs (.ofBranches (.ofItems items :: before).reverse) after left)

variable {reading after : Reading} {items out : List Ast} {ast : Ast} {cs left : List Char}

theorem isRepeatable_of_repeatLatest {min : Nat} {max : Option Nat} {greedy : Bool}
    {repeated : List Ast} (h : repeatLatest? min max greedy items = some repeated) :
    ∃ item before, items = item :: before ∧ item.isRepeatable = true ∧
      repeated = .repetition min max greedy item :: before := by
  unfold repeatLatest? at h
  split at h
  · cases h
  · cases h
  · cases h
  · rename_i item before hempty hflags
    cases h
    refine ⟨item, before, rfl, ?_, rfl⟩
    cases item with
    | empty => exact (hempty rfl).elim
    | flags change place => exact (hflags change place rfl).elim
    | _ => rfl

/-- Whatever is read is read step by step. -/
theorem reads_of_parse (steps : Nat) :
    (∀ {reading items cs out after left},
      parseItems? steps reading items cs = some (out, after, left) →
        Reads (.row reading items cs out after left)) ∧
    ∀ {reading before cs ast after left},
      parseBranches? steps reading before cs = some (ast, after, left) →
        Reads (.branches reading before cs ast after left) := by
  induction steps with
  | zero => exact ⟨fun h => (by cases h), fun h => (by cases h)⟩
  | succ steps ih =>
    obtain ⟨hrows, hbranches⟩ := ih
    constructor
    · intro reading items cs out after left h
      have hcount : ∀ {shown next : List Char} {min : Nat} {max : Option Nat} {greedy : Bool},
          skipBlank reading.verbose cs = shown →
          counted? reading.verbose shown = some (min, max, greedy, next) →
          ((repeatLatest? min max greedy items).bind fun items =>
            parseItems? steps reading items next) = some (out, after, left) →
          Reads (.row reading items cs out after left) := by
        intro shown next min max greedy hshown hcount h
        obtain ⟨repeated, hrepeat, h⟩ := Option.bind_eq_some_iff.mp h
        obtain ⟨item, before, rfl, hitem, rfl⟩ := isRepeatable_of_repeatLatest hrepeat
        exact .count hshown hcount hitem (hrows h)
      rw [parseItems?] at h
      split at h
      · rename_i hshown
        cases h
        exact .stop hshown (by simp)
      · rename_i hshown
        cases h
        exact .stop hshown (by simp)
      · rename_i hshown
        cases h
        exact .stop hshown (by simp)
      · rename_i rest hshown
        obtain ⟨⟨opening, inside, next⟩, hopening, h⟩ := Option.bind_eq_some_iff.mp h
        cases opening with
        | flags change => exact .flags hshown hopening (hrows h)
        | group kind =>
          obtain ⟨⟨body, between, closing⟩, hbody, h⟩ := Option.bind_eq_some_iff.mp h
          simp only at h
          split at h
          · exact .group hshown hopening (hbranches hbody) (hrows h)
          · cases h
      · rename_i rest hshown
        obtain ⟨⟨set, next⟩, hclass, h⟩ := Option.bind_eq_some_iff.mp h
        exact .bracket hshown hclass (hrows h)
      · rename_i rest hshown
        exact hcount hshown rfl h
      · rename_i rest hshown
        exact hcount hshown rfl h
      · rename_i rest hshown
        exact hcount hshown rfl h
      · rename_i rest hshown
        obtain ⟨⟨min, max, next⟩, hbounds, h⟩ := Option.bind_eq_some_iff.mp h
        exact hcount hshown (congrArg (Option.map _) hbounds) h
      · rename_i hend hbar hclose hopen hclass hquestion hstar hplus hbrace
        generalize hshown : skipBlank reading.verbose cs = shown at *
        cases shown with
        | nil => exact absurd rfl hend
        | cons c rest =>
          obtain ⟨⟨piece, next⟩, hpiece, h⟩ := Option.bind_eq_some_iff.mp h
          refine .piece hshown ?_ hpiece (hrows h)
          have hne : ∀ d ∈ "|)([?*+\x7b".toList, c ≠ d := by
            simp only [String.reduceToList, List.mem_cons, List.not_mem_nil, or_false]
            rintro d (rfl | rfl | rfl | rfl | rfl | rfl | rfl | rfl) rfl
            · exact hbar rest rfl
            · exact hclose rest rfl
            · exact hopen rest rfl
            · exact hclass rest rfl
            · exact hquestion rest rfl
            · exact hstar rest rfl
            · exact hplus rest rfl
            · exact hbrace rest rfl
          exact Bool.eq_false_iff.mpr fun hmark => hne c (List.contains_iff_mem.mp hmark) rfl
    · intro reading before cs ast after left h
      rw [parseBranches?] at h
      obtain ⟨⟨items, between, next⟩, hrow, h⟩ := Option.bind_eq_some_iff.mp h
      simp only at h
      split at h
      · exact .branch (hrows hrow) (hbranches h)
      · rename_i hbar
        cases h
        exact .last (hrows hrow) fun c hc heq => by
          obtain ⟨rest, hcs⟩ := List.head?_eq_some_iff.mp hc
          exact hbar rest (heq ▸ hcs)

/-- A pattern that is accepted is read to its end. -/
theorem reads_of_parse? {source : List Char} {groups : Nat}
    (h : parse? source = some (ast, groups)) :
    ∃ after, Reads (.branches ⟨source.length, false, 0, []⟩ [] source ast after []) ∧
      after.groups = groups ∧ ast.depth ≤ maxDepth := by
  obtain ⟨⟨read, after, rest⟩, hbranches, h⟩ := Option.bind_eq_some_iff.mp h
  simp only at h
  split at h
  · split at h
    · rename_i hdepth
      cases h
      exact ⟨after, (reads_of_parse _).2 hbranches, rfl, hdepth⟩
    · cases h
  · cases h

/-! ### What has been read stays -/

/-- What has been read when a reader starts. -/
def Goal.given : Goal → List Ast
  | .row _ items _ _ _ _ => items
  | .branches _ before _ _ _ _ => before

/-- What has been read when a reader ends. -/
def Goal.result : Goal → List Ast
  | .row _ _ _ out _ _ => out
  | .branches _ _ _ ast _ _ => [ast]

theorem Reads.mem_subterms {goal : Goal} (h : Reads goal) :
    Ast.subtermsAll goal.given ⊆ Ast.subtermsAll goal.result := by
  have hcons : ∀ (latest : Ast) (items : List Ast),
      Ast.subtermsAll items ⊆ Ast.subtermsAll (latest :: items) := fun _ _ =>
    List.subset_append_right _ _
  induction h with
  | stop =>
    intro ast hast
    obtain ⟨item, hitem, hast⟩ := Ast.mem_subtermsAll.mp hast
    exact Ast.mem_subtermsAll.mpr ⟨item, List.mem_reverse.mpr hitem, hast⟩
  | flags _ _ _ ih => exact List.Subset.trans (hcons _ _) ih
  | group _ _ _ _ _ ih => exact List.Subset.trans (hcons _ _) ih
  | bracket _ _ _ ih => exact List.Subset.trans (hcons _ _) ih
  | @count _ _ item items _ _ _ _ _ min max greedy _ _ _ _ ih =>
    have hbody : Ast.subtermsAll (item :: items)
        ⊆ Ast.subtermsAll (.repetition min max greedy item :: items) :=
      List.append_subset.mpr ⟨fun ast hast => List.mem_append_left _ (.tail _ hast),
        List.subset_append_right _ _⟩
    exact List.Subset.trans hbody ih
  | piece _ _ _ _ ih => exact List.Subset.trans (hcons _ _) ih
  | branch _ _ _ ih => exact List.Subset.trans (hcons _ _) ih
  | last _ _ _ =>
    intro ast hast
    obtain ⟨branch, hbranch, hast⟩ := Ast.mem_subtermsAll.mp hast
    exact List.mem_append_left _ (Ast.subterms_subset_ofBranches _ (Ast.mem_subtermsAll.mpr
      ⟨branch, List.mem_reverse.mpr (.tail _ hbranch), hast⟩))

end Highlighter.Regex.Regular
