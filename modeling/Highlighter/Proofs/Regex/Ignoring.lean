import Highlighter.Proofs.Regex.Compiled

/-!
# Patterns in which letter case does not count

A pattern may start with flags by which letter case does not count in
the rest of it. Both dialects carry them through all branches, so what
is read means what the expression means without letter case
(`isRead_ignoring`).

Flags stand in the first branch only, so the reading of branches is
taken apart here: a first row after the flags, and then, if there are
any, branches as usual.
-/

set_option autoImplicit false

namespace Highlighter.Regex

open Pattern

/-- The flags by which letter case does not count in what follows. -/
def ignoreFlags : List Char := "(?i)".toList

/-! ### The regular dialect -/

namespace Regular

/-- Flags are read as an item. -/
theorem parseItems_flags {steps : Nat} {reading : Reading} {items : List Ast} {rest : List Char}
    {result : List Ast × Reading × List Char} (hverbose : reading.verbose = false)
    (h : parseItems? steps reading items (ignoreFlags ++ rest) = some result) :
    ∃ steps' place,
      parseItems? steps' reading (.flags [(.ignoreCase, true)] place :: items) rest
        = some result := by
  have hopening : parseOpening? reading ('?' :: 'i' :: ')' :: rest)
      = some (.flags [(.ignoreCase, true)], reading, rest) := by
    unfold parseOpening?
    simp only [Reading.skipBlank_eq hverbose]
    rfl
  cases steps with
  | zero => cases h
  | succ steps =>
    rw [show ignoreFlags ++ rest = '(' :: '?' :: 'i' :: ')' :: rest from rfl, parseItems?,
      Reading.skipBlank_eq hverbose] at h
    simp only [hopening, bind, Option.bind_some] at h
    exact ⟨steps, _, h⟩

/-- A row after flags, up to the end of its branch. -/
theorem ReadsRow.ignoring {expr : Expr} (h : ReadsRow expr) {steps : Nat} {reading : Reading}
    {rest : List Char} {result : List Ast × Reading × List Char}
    (hverbose : reading.verbose = false) (hrest : ∀ c ∈ rest.head?, c = '|')
    (hread : parseItems? steps reading [] (ignoreFlags ++ (expr.render ++ rest)) = some result) :
    ∃ reading' items, reading'.verbose = false ∧ RowFrom false true items expr ∧
      result = (items, reading', rest) := by
  obtain ⟨steps', place, hitems⟩ := parseItems_flags hverbose hread
  have hfollow : ∀ {is : Char → Prop}, is '|' → ∀ c ∈ rest.head?, is c := by
    intro is hbar c hc
    rw [hrest c hc]
    exact hbar
  obtain ⟨steps'', reading', pieces, hverbose', hrow, -, hend⟩ :=
    h steps' reading _ rest result hverbose (fun _ => hfollow (by decide))
      ⟨fun _ => hfollow (by decide), fun _ => hfollow (by decide)⟩ hitems
  refine ⟨reading', .flags [(.ignoreCase, true)] place :: pieces, hverbose',
    hrow.ignoring_flags place, ?_⟩
  cases parseItems_end hverbose' (hfollow (.inr rfl)) hend
  simp

/-- Branches after flags, up to the end of the pattern. -/
theorem reads_ignoring {expr : Expr} (h : expr.WellFormed) {steps : Nat} {reading : Reading}
    {result : Ast × Reading × List Char} (hverbose : reading.verbose = false)
    (hread : parseBranches? steps reading [] (ignoreFlags ++ expr.render) = some result) :
    ∃ reading' branches, BranchesFrom false true branches expr ∧
      result = (Ast.ofBranches branches, reading', []) := by
  cases steps with
  | zero => cases hread
  | succ steps =>
    rw [parseBranches?] at hread
    obtain ⟨found, hfound, hread⟩ := Option.bind_eq_some_iff.mp hread
    by_cases hrow : expr.isRow = true
    · rw [← List.append_nil expr.render] at hfound
      obtain ⟨reading', items, -, hitems, rfl⟩ :=
        ((reads h).1 hrow).ignoring hverbose (by rintro c ⟨⟩) hfound
      cases hread
      exact ⟨reading', _, hitems.single_branch, rfl⟩
    · cases expr with
      | alt first second =>
        obtain ⟨hfirst, hwf, hwf'⟩ := h
        obtain ⟨reading', items, hverbose', hitems, rfl⟩ :=
          ((reads hwf).1 hfirst).ignoring hverbose (by rintro c ⟨⟩; rfl) hfound
        simp only at hread
        rw [← List.append_nil second.render] at hread
        obtain ⟨reading'', more, -, hmore, rfl⟩ :=
          (reads hwf').2 steps reading' [Ast.ofItems items] [] result hverbose'
            (by rintro c ⟨⟩) hread
        exact ⟨reading'', _, hitems.cons_branch hmore, rfl⟩
      | _ => exact absurd rfl hrow

/-- Where the regular dialect reads an expression after the flags, the
result has the ways of the expression without letter case. -/
theorem hasWays_ignoring {expr : Expr} (h : expr.WellFormed) {ast : Ast} {groups : Nat}
    (hparse : parse? (ignoreFlags ++ expr.render) = some (ast, groups)) {node : Node}
    {after : Modes} (hmeaning : ast.meaning? .initial = some (node, after)) :
    HasWays node true expr := by
  unfold parse? at hparse
  obtain ⟨found, hfound, hparse⟩ := Option.bind_eq_some_iff.mp hparse
  obtain ⟨reading', branches, hbranches, rfl⟩ := reads_ignoring h rfl hfound
  simp only at hparse
  split at hparse
  · cases hparse
    exact (hbranches.meaning hmeaning).2
  · cases hparse

end Regular

/-! ### The extended dialect -/

namespace Extended

theorem clean_ignoreFlags (rest : List Char) : Clean (ignoreFlags ++ rest) := by
  rintro others heq
  cases heq

/-- What is known inside the rest of a pattern after the flags. -/
def Reading.ignoring (reading : Reading) : Reading :=
  { reading with flags := { reading.flags with ignoreCase := true } }

theorem Reading.flags_ignoring {reading : Reading} (h : reading.flags = .plain false) :
    reading.ignoring.flags = .plain true := by
  unfold Reading.ignoring
  rw [h]
  rfl

theorem parseOpening_ignoreFlags {reading : Reading} (hverbose : reading.flags.verbose = false)
    (rest : List Char) :
    parseOpening? reading ('?' :: 'i' :: ')' :: rest) = some (.flags, reading.ignoring, rest) := by
  have hinside : reading.ignoring.flags.verbose = false := hverbose
  unfold parseOpening?
  simp only [Reading.skip_eq hverbose (clean_cons (show '?' ≠ '(' by decide) _), bind,
    Option.bind_some]
  refine (parseFlags_letter hverbose (show 'i'.isAlpha = true by decide) true none _ _).trans ?_
  show parseFlags? true (some 'i') reading.ignoring (rest.length + 2) (')' :: rest) = _
  rw [parseFlags?, Reading.skip_eq hinside (clean_cons (by decide) rest)]
  simp

/-- Flags are read as nothing, but they change what is known. -/
theorem parseItems_flags {steps depth : Nat} {reading : Reading} {items : List Tree}
    {rest : List Char} {result : List Tree × Reading × List Char}
    (hverbose : reading.flags.verbose = false) (hclean : Clean rest)
    (hrest : ∀ c ∈ rest.head?, isCountStart c = false)
    (h : parseItems? steps depth reading items (ignoreFlags ++ rest) = some result) :
    ∃ steps', parseItems? steps' depth reading.ignoring items rest = some result := by
  have hinside : reading.ignoring.flags.verbose = false := hverbose
  cases steps with
  | zero => cases h
  | succ steps =>
    rw [parseItems?, Reading.skip_eq hverbose (clean_ignoreFlags rest)] at h
    rw [show ignoreFlags ++ rest = '(' :: '?' :: 'i' :: ')' :: rest from rfl] at h
    simp only [bind, Option.bind_some] at h
    obtain ⟨found, hfound, h⟩ := Option.bind_eq_some_iff.mp h
    have hgroup : found = (.empty, reading.ignoring, rest) := by
      cases steps with
      | zero => cases hfound
      | succ steps =>
        rw [parseGroup?] at hfound
        split at hfound
        · cases hfound
        · simp only [parseOpening_ignoreFlags hverbose, bind, Option.bind_some] at hfound
          cases hfound
          rfl
    subst hgroup
    simp only [parseSuffix_none hinside .empty hclean hrest, Option.bind_some] at h
    exact ⟨steps, h⟩

/-- A row after flags, up to the end of its branch. -/
theorem ReadsRow.ignoring {expr : Expr} (hwf : expr.WellFormed) (h : ReadsRow expr)
    {steps depth : Nat} {reading : Reading} {rest : List Char}
    {result : List Tree × Reading × List Char} (hflags : reading.flags = .plain false)
    (hrest : ∀ c ∈ rest.head?, c = '|')
    (hread : parseItems? steps depth reading [] (ignoreFlags ++ (expr.render ++ rest))
      = some result) :
    ∃ reading' pieces, reading.ignoring.Grows reading' expr ∧
      (Tree.ofItems pieces).Means true reading.groups expr ∧
      result = (pieces, reading', rest) := by
  have hfollow : ∀ {is : Char → Prop}, is '|' → ∀ c ∈ rest.head?, is c := by
    intro is hbar c hc
    rw [hrest c hc]
    exact hbar
  have hclean : Clean rest := by
    rintro others rfl
    exact absurd (hrest '(' rfl) (by decide)
  have hcount : ∀ c ∈ rest.head?, isCountStart c = false := hfollow (by decide)
  obtain ⟨steps', hitems⟩ :=
    parseItems_flags (Flags.verbose_of_plain hflags) (clean_render hwf hclean)
      (Expr.head?_render_append hwf hcount) hread
  obtain ⟨steps'', reading', pieces, hgrows, hmeans, hend⟩ :=
    h true steps' depth reading.ignoring [] rest result (Reading.flags_ignoring hflags)
      ⟨fun _ => hfollow (by decide), fun _ => hfollow (by decide)⟩ hclean hcount hitems
  have hverbose := Flags.verbose_of_plain (hgrows.flags_eq.trans (Reading.flags_ignoring hflags))
  cases parseItems_end hverbose (hfollow (.inr rfl)) hend
  exact ⟨reading', pieces, hgrows, hmeans, by simp⟩

/-- Branches after flags, up to the end of the pattern. -/
theorem reads_ignoring {expr : Expr} (h : expr.WellFormed) {steps depth : Nat} {reading : Reading}
    {result : Tree × Reading × List Char} (hflags : reading.flags = .plain false)
    (hread : parseBranches? steps depth reading [] (ignoreFlags ++ expr.render) = some result) :
    ∃ reading' branches, reading.ignoring.Grows reading' expr ∧
      (Tree.ofBranches branches).Means true reading.groups expr ∧
      result = (Tree.ofBranches branches, reading', []) := by
  cases steps with
  | zero => cases hread
  | succ steps =>
    rw [parseBranches?] at hread
    obtain ⟨found, hfound, hread⟩ := Option.bind_eq_some_iff.mp hread
    by_cases hrow : expr.isRow = true
    · rw [← List.append_nil expr.render] at hfound
      obtain ⟨reading', pieces, hgrows, hmeans, rfl⟩ :=
        ((reads h).2.1 hrow).ignoring h hflags (by rintro c ⟨⟩) hfound
      simp only at hread
      split at hread
      · cases hread
      · cases hread
        exact ⟨reading', [Tree.ofItems pieces], hgrows, hmeans, rfl⟩
    · cases expr with
      | alt first second =>
        obtain ⟨hfirst, hwf, hwf'⟩ := h
        obtain ⟨reading', pieces, hgrows, hmeans, rfl⟩ :=
          ((reads hwf).2.1 hfirst).ignoring hwf hflags (by rintro c ⟨⟩; rfl) hfound
        simp only at hread
        rw [← List.append_nil second.render] at hread
        obtain ⟨reading'', more, hgrows', hmeans', rfl⟩ :=
          (reads hwf').2.2 true steps depth reading' [Tree.ofItems pieces] [] result
            (hgrows.flags_eq.trans (Reading.flags_ignoring hflags)) (by rintro c ⟨⟩) hread
        rw [hgrows.groups_eq] at hmeans'
        exact ⟨reading'', Tree.ofItems pieces :: more, hgrows.both hgrows' rfl fun _ => rfl,
          hmeans.alt hmeans', rfl⟩
      | _ => exact absurd rfl hrow

/-- Where the extended dialect reads an expression after the flags, the
tree has the ways of the expression without letter case. -/
theorem means_ignoring {expr : Expr} (h : expr.WellFormed) {parsed : Parsed}
    (hparse : parse? (ignoreFlags ++ expr.render) = some parsed) :
    parsed.tree.Means true 0 expr ∧ parsed.groups = expr.captures ∧
      ∀ group, group ∈ parsed.targets ↔ expr.refersTo group = true := by
  unfold parse? at hparse
  obtain ⟨found, hfound, hparse⟩ := Option.bind_eq_some_iff.mp hparse
  obtain ⟨reading', branches, hgrows, hmeans, rfl⟩ := reads_ignoring h rfl hfound
  cases hparse
  refine ⟨hmeans, hgrows.groups_eq.trans (Nat.zero_add _), fun group => ?_⟩
  rw [hgrows.mem_targets]
  exact or_iff_left (List.not_mem_nil)

end Extended

/-! ### Both dialects -/

/-- The text of an expression after the flags is read as the expression
without letter case. -/
theorem isRead_ignoring {expr : Expr} (hwf : expr.WellFormed) :
    IsRead (ignoreFlags ++ expr.render) true expr where
  regular hparse hmeaning := Regular.hasWays_ignoring hwf hparse hmeaning
  extended := Extended.means_ignoring hwf

end Highlighter.Regex
