import Highlighter.Proofs.Regex.Extended.Apart
import Highlighter.Proofs.Regex.Extended.Renumbering

/-!
# Rows that are read whatever the number of steps

`RowReads`, `BranchesReads` and `GroupReads` say that a text is read, as long as there are enough
steps for its length. There is one lemma for each thing that a row can go on with, and each asks
that the reader gets ahead. A piece is read together with what repeats it, so the lemmas lead from
what is read after a piece (`ReadsOn`) to what is read from the piece on.

In turn, what has been read of a row is one of these things, too (`rowRead`).
-/

set_option autoImplicit false

namespace Highlighter.Regex.Extended

/-- From `items` on, the row `out` is read, up to `left`. -/
def RowReads (depth : Nat) (reading : Reading) (items : List Tree) (cs : List Char)
    (out : List Tree) (after : Reading) (left : List Char) : Prop :=
  ∀ steps, 3 * cs.length + 1 ≤ steps →
    parseItems? steps depth reading items cs = some (out, after, left)

/-- From the branches `before` on, a tree is read, up to `left`. -/
def BranchesReads (depth : Nat) (reading : Reading) (before : List Tree) (cs : List Char)
    (tree : Tree) (after : Reading) (left : List Char) : Prop :=
  ∀ steps, 3 * cs.length + 2 ≤ steps →
    parseBranches? steps depth reading before cs = some (tree, after, left)

/-- After an opening parenthesis, a group is read, up to `left`. -/
def GroupReads (depth : Nat) (reading : Reading) (cs : List Char) (tree : Tree) (after : Reading)
    (left : List Char) : Prop :=
  ∀ steps, 3 * cs.length + 3 ≤ steps →
    parseGroup? steps depth reading cs = some (tree, after, left)

/-- After a tree, what repeats it is read, and then the rest of a row, up to `left`. -/
def ReadsOn (depth : Nat) (reading : Reading) (items : List Tree) (tree : Tree) (cs : List Char)
    (out : List Tree) (after : Reading) (left : List Char) : Prop :=
  ∃ found next, parseSuffix? reading tree cs = some (found, next) ∧ next.length ≤ cs.length ∧
    RowReads depth reading (if found.isEmpty then items else found :: items) next out after left

variable {depth : Nat} {reading inside after : Reading} {items out before : List Tree}
  {tree body : Tree} {cs rest next opened left : List Char} {c : Char}

/-- A group is no comment. -/
theorem clean_group (h : c ≠ '#') (rest : List Char) : Clean ('(' :: '?' :: c :: rest) := by
  intro others heq
  simp only [List.cons.injEq, true_and] at heq
  exact h heq.1

/-- Where there is one step more than are counted, one can be taken. -/
theorem exists_step {count steps : Nat} (h : count + 1 ≤ steps) :
    ∃ others, steps = others + 1 ∧ count ≤ others :=
  ⟨steps - 1, by omega, by omega⟩

theorem ReadsOn.readOn (h : ReadsOn depth reading items tree cs out after left) {steps : Nat}
    (hsteps : 3 * cs.length + 1 ≤ steps) :
    readOn? steps depth reading items tree cs = some (out, after, left) := by
  obtain ⟨found, next, hsuffix, hnext, hrow⟩ := h
  rw [readOn?, hsuffix, Option.bind_some]
  exact hrow steps (by omega)

theorem rowReads_stop (hverbose : reading.flags.verbose = false)
    (hleft : ∀ c ∈ left.head?, c = ')' ∨ c = '|') :
    RowReads depth reading items left items.reverse reading left := by
  intro steps hsteps
  obtain ⟨steps, rfl, -⟩ := exists_step hsteps
  have hclean : Clean left := by
    rintro rest rfl
    rcases hleft '(' rfl with heq | heq <;> cases heq
  rw [parseItems_eq, Reading.skip_eq hverbose hclean, Option.bind_some]
  cases left with
  | nil => rfl
  | cons c left => rcases hleft c rfl with rfl | rfl <;> rfl

namespace RowReads

theorem piece (hverbose : reading.flags.verbose = false) (hmark : isMark c = false)
    (h : ReadsOn depth reading items (reading.flags.piece c) rest out after left) :
    RowReads depth reading items (c :: rest) out after left := by
  intro steps hsteps
  rw [List.length_cons] at hsteps
  obtain ⟨steps, rfl, hsteps⟩ := exists_step hsteps
  have hopen : c ≠ '(' := by
    rintro rfl
    cases hmark
  rw [parseItems_eq, Reading.skip_eq hverbose (clean_cons hopen rest), Option.bind_some,
    itemsShown_piece hmark]
  exact h.readOn (by omega)

theorem bracket (hverbose : reading.flags.verbose = false)
    (hbracket : parseBracket? reading rest = some (tree, next)) (hnext : next.length ≤ rest.length)
    (h : ReadsOn depth reading items tree next out after left) :
    RowReads depth reading items ('[' :: rest) out after left := by
  intro steps hsteps
  rw [List.length_cons] at hsteps
  obtain ⟨steps, rfl, hsteps⟩ := exists_step hsteps
  rw [parseItems_eq, Reading.skip_eq hverbose (clean_cons (by decide) rest), Option.bind_some,
    itemsShown?, hbracket, Option.bind_some]
  exact h.readOn (by omega)

theorem escape {escape : Escape} (hverbose : reading.flags.verbose = false)
    (hescape : parseEscape? reading false rest = some (escape, inside, next))
    (htree : escape.toTree? inside = some tree) (hnext : next.length ≤ rest.length)
    (h : ReadsOn depth inside items tree next out after left) :
    RowReads depth reading items ('\\' :: rest) out after left := by
  intro steps hsteps
  rw [List.length_cons] at hsteps
  obtain ⟨steps, rfl, hsteps⟩ := exists_step hsteps
  rw [parseItems_eq, Reading.skip_eq hverbose (clean_cons (by decide) rest), Option.bind_some,
    itemsShown?, hescape, Option.bind_some, htree, Option.bind_some]
  exact h.readOn (by omega)

theorem group (hverbose : reading.flags.verbose = false) (hclean : Clean ('(' :: rest))
    (hgroup : GroupReads (depth + 1) reading rest tree inside next)
    (hnext : next.length ≤ rest.length)
    (h : ReadsOn depth inside items tree next out after left) :
    RowReads depth reading items ('(' :: rest) out after left := by
  intro steps hsteps
  rw [List.length_cons] at hsteps
  obtain ⟨steps, rfl, hsteps⟩ := exists_step hsteps
  rw [parseItems_eq, Reading.skip_eq hverbose hclean, Option.bind_some, itemsShown?,
    hgroup steps (by omega), Option.bind_some]
  exact h.readOn (by omega)

end RowReads

namespace GroupReads

theorem flags (hdepth : depth ≤ maxDepth)
    (hopening : parseOpening? reading rest = some (.flags, inside, next)) :
    GroupReads depth reading rest .empty inside next := by
  intro steps hsteps
  obtain ⟨steps, rfl, -⟩ := exists_step hsteps
  rw [parseGroup?, if_neg (Nat.not_lt.mpr hdepth), hopening]
  rfl

theorem around {opening : Opening} (hdepth : depth ≤ maxDepth)
    (hopening : parseOpening? reading rest = some (opening, inside, opened))
    (hgroup : opening.isGroup = true) (hflags : opening ≠ .flags)
    (hopened : opened.length ≤ rest.length)
    (hbody : BranchesReads depth inside [] opened body after (')' :: left))
    (hverbose : after.flags.verbose = false) :
    GroupReads depth reading rest (opening.around body) (opening.leave reading after) left := by
  intro steps hsteps
  obtain ⟨steps, rfl, hsteps⟩ := exists_step hsteps
  rw [parseGroup?, if_neg (Nat.not_lt.mpr hdepth), hopening]
  cases opening with
  | flags => exact absurd rfl hflags
  | backref group => cases hgroup
  | cond => cases hgroup
  | look behind negated | capture index | atomic | flagged =>
    simp only [bind, Option.bind_some, hbody steps (by omega), Reading.close_eq hverbose]
    rfl

end GroupReads

namespace BranchesReads

theorem branch (hrow : RowReads depth reading [] cs items inside ('|' :: rest))
    (hlength : rest.length < cs.length)
    (hrest : BranchesReads depth inside (.ofItems items :: before) rest tree after left) :
    BranchesReads depth reading before cs tree after left := by
  intro steps hsteps
  obtain ⟨steps, rfl, hsteps⟩ := exists_step hsteps
  rw [parseBranches?, hrow steps (by omega)]
  simp only [bind, Option.bind_some]
  exact hrest steps (by omega)

theorem last (hrow : RowReads depth reading [] cs items after left) (hnames : after.names = [])
    (hleft : ∀ c ∈ left.head?, c ≠ '|') :
    BranchesReads depth reading before cs (.ofBranches (before.reverse ++ [.ofItems items])) after
      left := by
  intro steps hsteps
  obtain ⟨steps, rfl, hsteps⟩ := exists_step hsteps
  rw [parseBranches?, hrow steps (by omega)]
  simp only [bind, Option.bind_some, hnames]
  split
  · exact absurd rfl (hleft '|' rfl)
  · simp [Tree.ofBranches]
  · rename_i hne _
    rw [ofBranches_append fun hnil => hne (List.reverse_eq_nil_iff.mp hnil), List.reverse_cons]
    rfl

end BranchesReads

/-! ### What has been read -/

/-- How a piece is read, without what repeats it. -/
inductive ItemRead (steps depth : Nat) (reading : Reading) :
    List Char → Tree → Reading → List Char → Prop where
  | group {rest next : List Char} {tree : Tree} {between : Reading}
    (h : parseGroup? steps (depth + 1) reading rest = some (tree, between, next)) :
    ItemRead steps depth reading ('(' :: rest) tree between next
  | bracket {rest next : List Char} {tree : Tree}
    (h : parseBracket? reading rest = some (tree, next)) :
    ItemRead steps depth reading ('[' :: rest) tree reading next
  | escape {rest next : List Char} {escape : Escape} {tree : Tree} {between : Reading}
    (h : parseEscape? reading false rest = some (escape, between, next))
    (htree : escape.toTree? between = some tree) :
    ItemRead steps depth reading ('\\' :: rest) tree between next
  | piece {c : Char} (rest : List Char) (hmark : isMark c = false) :
    ItemRead steps depth reading (c :: rest) (reading.flags.piece c) reading rest

/-- How a row is read, after `items`, from a text that starts with no filler. -/
inductive RowRead (steps depth : Nat) (reading : Reading) (items : List Tree) (cs : List Char) :
    List Tree × Reading × List Char → Prop where
  | stop (hleft : ∀ c ∈ cs.head?, c = ')' ∨ c = '|') :
    RowRead steps depth reading items cs (items.reverse, reading, cs)
  | item {tree found : Tree} {between : Reading} {rest next : List Char}
    {row : List Tree × Reading × List Char}
    (hitem : ItemRead steps depth reading cs tree between rest)
    (hsuffix : parseSuffix? between tree rest = some (found, next))
    (hrow : parseItems? steps depth between (if found.isEmpty then items else found :: items) next
      = some row) :
    RowRead steps depth reading items cs row

theorem rowRead {steps : Nat} {row : List Tree × Reading × List Char}
    (h : parseItems? (steps + 1) depth reading items cs = some row) :
    ∃ shown, reading.skip? cs = some shown ∧ RowRead steps depth reading items shown row := by
  rw [parseItems_eq] at h
  obtain ⟨shown, hskip, h⟩ := Option.bind_eq_some_iff.mp h
  refine ⟨shown, hskip, ?_⟩
  have hitem : ∀ {tree : Tree} {between : Reading} {rest : List Char},
      ItemRead steps depth reading shown tree between rest →
      readOn? steps depth between items tree rest = some row →
      RowRead steps depth reading items shown row := by
    intro tree between rest hitem hon
    obtain ⟨⟨found, next⟩, hsuffix, hrow⟩ := Option.bind_eq_some_iff.mp hon
    exact .item hitem hsuffix hrow
  unfold itemsShown? at h
  split at h
  · cases h
    exact .stop nofun
  · cases h
    exact .stop (by simp)
  · cases h
    exact .stop (by simp)
  · cases h
  · cases h
  · cases h
  · obtain ⟨_, hgroup, hon⟩ := Option.bind_eq_some_iff.mp h
    exact hitem (.group hgroup) hon
  · obtain ⟨_, hbracket, hon⟩ := Option.bind_eq_some_iff.mp h
    exact hitem (.bracket hbracket) hon
  · obtain ⟨_, hescape, h⟩ := Option.bind_eq_some_iff.mp h
    obtain ⟨_, htree, hon⟩ := Option.bind_eq_some_iff.mp h
    exact hitem (.escape hescape htree) hon
  · rename_i c rest hbar hclose hplus hstar hquestion hopen hbracket hslash
    refine hitem (.piece rest ?_) h
    simpa [isMark] using ⟨hbar, hclose, hopen, hbracket, hquestion, hstar, hplus, hslash⟩

/-- Whatever has been read stays in the row. -/
theorem subset_of_parseItems {steps : Nat}
    (h : parseItems? steps depth reading items cs = some (out, after, left)) : items ⊆ out := by
  induction steps generalizing reading items cs with
  | zero => cases h
  | succ steps ih =>
    obtain ⟨shown, -, hread⟩ := rowRead h
    cases hread with
    | stop => exact fun item hitem => List.mem_reverse.mpr hitem
    | item _ _ hrow =>
      have hsubset := ih hrow
      split at hsubset
      · exact hsubset
      · exact List.Subset.trans (List.subset_cons_self _ _) hsubset

end Highlighter.Regex.Extended
