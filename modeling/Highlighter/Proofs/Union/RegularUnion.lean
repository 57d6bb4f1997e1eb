import Highlighter.Proofs.Union.Later
import Highlighter.Proofs.Union.RegularRows

/-!
# Unions of patterns of the regular dialect

Patterns that the regular dialect accepts and that can be joined (`Joinable`) give a union that it
accepts, unless the union is too deep or too heavy (`ofRegular_text`).

Every branch of the union is one group, before which the flag for letter case may stand. The flag
holds in all branches; no branch changes it.
-/

set_option autoImplicit false

namespace Highlighter.Union

open Pattern Regex Regex.Regular

/-- A pattern that is accepted by itself and can be joined. `folded` says that letter case is spelt
out. -/
def Joinable (folded : Bool) (source : List Char) : Prop :=
  ∃ ast groups, parse? source = some (ast, groups) ∧ (ast.meaning? .initial).isSome = true ∧
    ∀ sub ∈ ast.subterms, Joins folded source sub

/-- The flags with which a union starts. -/
def startModes (ignoreCase : Bool) : Modes := { Modes.initial with ignoreCase }

/-- A pattern that is allowed with and without letter case, and leaves the flags alone. -/
def Allowed (ast : Ast) : Prop :=
  ∀ ignoreCase, ∃ node, ast.meaning? (startModes ignoreCase) = some (node, startModes ignoreCase)

theorem plain_of_joins {source : List Char} {folded : Bool} {ast : Ast} {meaning : Node × Modes}
    (hmeaning : ast.meaning? .initial = some meaning)
    (hjoins : ∀ sub ∈ ast.subterms, Joins folded source sub) :
    ∀ sub ∈ ast.subterms, Plain source sub ∧ Joins folded source sub := by
  intro sub hsub
  refine ⟨?_, hjoins sub hsub⟩
  have hsteady := hjoins sub hsub
  cases sub with
  | flags change place => exact hsteady.1
  | group kind start body =>
    cases kind with
    | capturing index name => trivial
    | flagged change => exact hsteady.1
  | bracket set place =>
    refine ⟨?_, hsteady.1⟩
    obtain ⟨modes, found, hfound⟩ := Ast.exists_meaning_of_mem ast hmeaning hsub
    rw [Ast.meaning?] at hfound
    obtain ⟨members, hmembers, -⟩ := Option.map_eq_some_iff.mp hfound
    exact ClassSet.isKnown_of_meaning hmembers
  | _ => trivial

theorem modesAlike_start (folded ignoreCase : Bool) :
    ModesAlike folded .initial (startModes ignoreCase) where
  other_eq := rfl
  unicode _ := rfl

/-! ### Branches -/

/-- A text that is read as one item, whatever stands before it in its branch. -/
def ReadsBranch (text : List Char) : Prop :=
  ∀ (reading : Reading) (more : List Char), reading.verbose = false →
    (∀ c ∈ more.head?, c = '|') → ∃ item, Allowed item ∧
      ∀ items, RowReads reading items (text ++ more) (items.reverse ++ [item]) more

theorem readsBranch_group {change : FlagChange} (opening written : List Char)
    (hopening : ∀ (reading : Reading) (rest : List Char), reading.verbose = false →
      parseOpening? reading (opening ++ rest) = some (.group (.flagged change), reading, rest))
    (hne : opening ≠ []) (hchange : change.value? .verbose ≠ some true)
    (hbody : ∀ (reading : Reading) (more : List Char), reading.verbose = false →
      ∃ body, (∀ start, Allowed (.group (.flagged change) start body)) ∧
        BranchesRead reading [] (written ++ ')' :: more) body (')' :: more)) :
    ReadsBranch ('(' :: (opening ++ (written ++ [')']))) := by
  intro reading more hverbose hmore
  obtain ⟨body, hallowed, hread⟩ := hbody reading more hverbose
  have hshape : '(' :: (opening ++ (written ++ [')'])) ++ more
      = '(' :: (opening ++ (written ++ ')' :: more)) := by simp
  rw [hshape]
  refine ⟨_, hallowed (reading.placeOf ('(' :: (opening ++ (written ++ ')' :: more)))),
    fun items => RowReads.group hverbose (hopening reading _ hverbose) hchange ?_ ?_ hread ?_⟩
  · have hlength := List.length_pos_of_ne_nil hne
    simp only [List.length_append]
    omega
  · rw [List.length_append, List.length_cons]
    omega
  · rw [← List.reverse_cons]
    exact rowReads_stop hverbose fun c hc => .inr (hmore c hc)

/-- A pattern that can be joined is a branch of the union. -/
theorem readsBranch_member {folded : Bool} {source : List Char} (h : Joinable folded source)
    (base : Nat) : ReadsBranch
      ("(?:".toList ++ memberText folded (member base (Part.split source)).1 ++ [')']) := by
  obtain ⟨ast, groups, hparse, hsome, hjoins⟩ := h
  obtain ⟨⟨node, after⟩, hmeaning⟩ := Option.isSome_iff_exists.mp hsome
  obtain ⟨last, hreads, -, -⟩ := reads_of_parse? hparse
  have hpass := Recasting.carries_of_reads ⟨folded, base, []⟩ rfl hreads rfl rfl
    (List.suffix_refl source) (plain_of_joins hmeaning hjoins)
  have hkept := targets_of_numbersIn (hpass.numbers.trans numbersIn_nil)
  refine readsBranch_group ['?', ':'] _
    (fun reading rest hverbose => (parseOpening_flags hverbose rest).1) (List.cons_ne_nil _ _) nofun
    fun reading more hverbose => ?_
  obtain ⟨body, hbody, hread⟩ := hpass.reads reading [] (')' :: more) hverbose .nil (by simp)
  rw [Recasting.text_nil] at hread
  rw [Recasting.memberText_eq_text, hkept]
  refine ⟨body, fun start ignoreCase => ?_, hread⟩
  obtain ⟨node', after', hnode, -⟩ := hbody (modesAlike_start folded ignoreCase) hmeaning
  refine ⟨node', ?_⟩
  rw [Ast.meaning?, show (startModes ignoreCase).apply [] = startModes ignoreCase from rfl, hnode]
  rfl

theorem readsBranch_catchAll : ReadsBranch catchAll := by
  refine readsBranch_group ['?', 's', ':'] ['.']
    (fun reading rest hverbose => (parseOpening_flags hverbose rest).2.2) (List.cons_ne_nil _ _)
    (by decide) fun reading more hverbose => ?_
  refine ⟨.primitive .dot, fun start ignoreCase => ⟨_, rfl⟩, ?_⟩
  have hrow : RowReads reading [] ('.' :: ')' :: more) [.primitive .dot] (')' :: more) :=
    .piece hverbose rfl rfl (by simp) (rowReads_stop hverbose (by simp))
  exact .last hrow (by simp)

/-- A row that `hold` holds of is read as a branch. -/
def ReadsRow (hold : Ast → Prop) (text : List Char) : Prop :=
  ∀ (reading : Reading) (more : List Char), reading.verbose = false →
    (∀ c ∈ more.head?, c = '|') → ∃ items, hold (.ofItems items) ∧
      RowReads reading [] (text ++ more) items more

theorem ReadsBranch.row {text : List Char} (h : ReadsBranch text) : ReadsRow Allowed text := by
  intro reading more hverbose hmore
  obtain ⟨item, hitem, hread⟩ := h reading more hverbose hmore
  exact ⟨[item], hitem, hread []⟩

/-- A pattern after which letter case does not count. -/
def TurnsOff (ast : Ast) : Prop := ∃ node, ast.meaning? .initial = some (node, startModes true)

/-- The flag for letter case may stand before a branch. -/
theorem ReadsBranch.ignoring {text : List Char} (h : ReadsBranch text) :
    ReadsRow TurnsOff ("(?i)".toList ++ text) := by
  intro reading more hverbose hmore
  obtain ⟨item, hitem, hread⟩ := h reading more hverbose hmore
  obtain ⟨node, hnode⟩ := hitem true
  have hopening : parseOpening? reading ('?' :: 'i' :: ')' :: (text ++ more))
      = some (.flags [(.ignoreCase, true)], reading, text ++ more) := by
    unfold parseOpening?
    simp only [Reading.skipBlank_eq hverbose]
    rfl
  have hshape : "(?i)".toList ++ text ++ more = '(' :: '?' :: 'i' :: ')' :: (text ++ more) := by
    simp
  rw [hshape]
  have hflags : ∀ place, (Ast.flags [(.ignoreCase, true)] place).meaning? .initial
      = some (.empty, startModes true) := fun _ => rfl
  have hmeaning : ∀ place, TurnsOff (.ofItems [.flags [(.ignoreCase, true)] place, item]) :=
    fun place => ⟨_, Ast.meaning_ofItems_of
      (Ast.meanings_cons_of (hflags place) (Ast.meanings_cons_of hnode rfl))⟩
  refine ⟨_, hmeaning _, .flags hverbose hopening (by decide) ?_ (hread _)⟩
  simp only [List.length_cons]
  omega

/-- The branches of a union, between bars. -/
theorem exists_branches {hold hold' : Ast → Prop} {first : List Char} {texts : List (List Char)}
    (h : ReadsRow hold first) (hrest : ∀ other ∈ texts, ReadsRow hold' other) (reading : Reading)
    (hverbose : reading.verbose = false) (before : List Ast) :
    ∃ ast asts, hold ast ∧ (∀ other ∈ asts, hold' other) ∧
      BranchesRead reading before (List.intercalate ['|'] (first :: texts))
        (.ofBranches (before.reverse ++ ast :: asts)) [] := by
  induction texts generalizing first hold before with
  | nil =>
    obtain ⟨items, hitems, hread⟩ := h reading [] hverbose nofun
    rw [List.append_nil] at hread
    refine ⟨_, [], hitems, nofun, ?_⟩
    rw [List.intercalate_singleton, ← List.reverse_cons]
    exact .last hread nofun
  | cons second texts ih =>
    obtain ⟨hsecond, hothers⟩ := List.forall_mem_cons.mp hrest
    obtain ⟨items, hitems, hread⟩ :=
      h reading ('|' :: List.intercalate ['|'] (second :: texts)) hverbose (by simp)
    obtain ⟨next, others, hnext, hothers, hrest⟩ := ih hsecond hothers (.ofItems items :: before)
    refine ⟨_, next :: others, hitems, List.forall_mem_cons.mpr ⟨hnext, hothers⟩, ?_⟩
    rw [List.intercalate_cons_of_ne_nil (List.cons_ne_nil _ _), List.append_assoc,
      List.singleton_append]
    rw [List.reverse_cons, List.append_assoc] at hrest
    refine .branch hread ?_ hrest
    rw [List.length_append, List.length_cons]
    omega

/-! ### The whole union -/

theorem exists_meanings {ignoreCase : Bool} {asts : List Ast} (h : ∀ ast ∈ asts, Allowed ast) :
    ∃ nodes, Ast.meanings? (startModes ignoreCase) asts = some (nodes, startModes ignoreCase) := by
  induction asts with
  | nil => exact ⟨[], rfl⟩
  | cons ast asts ih =>
    obtain ⟨hast, hasts⟩ := List.forall_mem_cons.mp h
    obtain ⟨node, hnode⟩ := hast ignoreCase
    obtain ⟨nodes, hnodes⟩ := ih hasts
    exact ⟨node :: nodes, Ast.meanings_cons_of hnode hnodes⟩

theorem isSome_meaning_branches {first : Ast} {others : List Ast} {node : Node} {ignoreCase : Bool}
    (hfirst : first.meaning? .initial = some (node, startModes ignoreCase))
    (hothers : ∀ other ∈ others, Allowed other) :
    ((Ast.ofBranches (first :: others)).meaning? .initial).isSome = true := by
  obtain ⟨nodes, hnodes⟩ := exists_meanings hothers
  rw [Ast.meaning_ofBranches_of (List.cons_ne_nil _ _) (Ast.meanings_cons_of hfirst hnodes)]
  rfl

theorem readsBranch_texts {folds : Pattern → Bool} {patterns : List Pattern}
    (h : ∀ pattern ∈ patterns, Joinable (folds pattern) pattern.source.toList) (base : Nat) :
    ∀ text ∈ List.zipWith (fun pattern parts => memberText (folds pattern) parts) patterns
        (members base (patterns.map Pattern.parts)).1,
      ReadsBranch ("(?:".toList ++ text ++ [')']) := by
  induction patterns generalizing base with
  | nil => exact nofun
  | cons pattern patterns ih =>
    obtain ⟨hpattern, hpatterns⟩ := List.forall_mem_cons.mp h
    exact List.forall_mem_cons.mpr ⟨readsBranch_member hpattern base, ih hpatterns _⟩

theorem readsBranch_branches {patterns : List Pattern}
    (h : ∀ pattern ∈ patterns, Joinable (isFolded patterns pattern) pattern.source.toList) :
    ∀ text ∈ branches (caseRule patterns) patterns, ReadsBranch text := by
  intro text htext
  rcases List.mem_append.mp htext with htext | htext
  · obtain ⟨inner, hinner, rfl⟩ := List.mem_map.mp htext
    exact readsBranch_texts h 0 inner hinner
  · obtain rfl := List.mem_singleton.mp htext
    exact readsBranch_catchAll

/-- The union of patterns that can be joined is read, and is allowed. -/
theorem exists_reads_text {patterns : List Pattern}
    (h : ∀ pattern ∈ patterns, Joinable (isFolded patterns pattern) pattern.source.toList)
    (reading : Reading) (hverbose : reading.verbose = false) :
    ∃ ast, BranchesRead reading [] (text patterns) ast [] ∧
      (ast.meaning? .initial).isSome = true := by
  have hbranches := readsBranch_branches h
  obtain ⟨first, others, heq⟩ := List.exists_cons_of_ne_nil
    (show branches (caseRule patterns) patterns ≠ [] by simp [branches])
  rw [heq] at hbranches
  obtain ⟨hfirst, hothers⟩ := List.forall_mem_cons.mp hbranches
  have hothers : ∀ other ∈ others, ReadsRow Allowed other := fun other hother =>
    (hothers other hother).row
  rw [text]
  simp only [heq]
  split
  · obtain ⟨ast, asts, ⟨node, hnode⟩, hasts, hread⟩ :=
      exists_branches hfirst.ignoring hothers reading hverbose []
    have hlead : "(?i)".toList ++ List.intercalate ['|'] (first :: others)
        = List.intercalate ['|'] (("(?i)".toList ++ first) :: others) := by
      cases others with
      | nil => rw [List.intercalate_singleton, List.intercalate_singleton]
      | cons second others =>
        rw [List.intercalate_cons_of_ne_nil (List.cons_ne_nil _ _),
          List.intercalate_cons_of_ne_nil (List.cons_ne_nil _ _)]
        simp only [List.append_assoc]
    rw [hlead]
    exact ⟨_, hread, isSome_meaning_branches hnode hasts⟩
  · obtain ⟨ast, asts, hast, hasts, hread⟩ :=
      exists_branches hfirst.row hothers reading hverbose []
    obtain ⟨node, hnode⟩ := hast false
    exact ⟨_, hread, isSome_meaning_branches hnode hasts⟩

/-- What a text is read as in the regular dialect stays within its limits. -/
def Fits (text : List Char) : Prop :=
  ∀ found ∈ parseBranches? (2 * text.length + 2) ⟨text.length, false, 0, []⟩ [] text,
    found.1.depth ≤ maxDepth ∧ found.1.weight ≤ maxWeight

instance : DecidablePred Fits := fun _ =>
  inferInstanceAs (Decidable (∀ found ∈ parseBranches? _ _ _ _, _ ∧ _))

/-- The union of patterns that can be joined is a pattern of the regular dialect. -/
theorem isSome_ofRegular_text {patterns : List Pattern}
    (h : ∀ pattern ∈ patterns, Joinable (isFolded patterns pattern) pattern.source.toList)
    (hfits : Fits (text patterns)) : (Matcher.ofRegular? (text patterns)).isSome = true := by
  obtain ⟨ast, hread, hmeaning⟩ := exists_reads_text h ⟨(text patterns).length, false, 0, []⟩ rfl
  have hparse := hread _ (Nat.le_refl _)
  obtain ⟨hdepth, hweight⟩ := hfits _ hparse
  have hparse : Regular.parse? (text patterns) = some (ast, 0) := by
    rw [Regular.parse?]
    simp only [hparse, bind, Option.bind_some, if_pos hdepth]
  rw [Matcher.ofRegular_of_parse hparse, if_neg (Nat.not_lt.mpr hweight), Option.isSome_map]
  exact hmeaning

end Highlighter.Union
