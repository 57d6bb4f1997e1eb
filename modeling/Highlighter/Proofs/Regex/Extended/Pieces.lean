import Highlighter.Proofs.Regex.Extended.Becoming
import Highlighter.Proofs.Regex.Extended.FoldedText
import Highlighter.Proofs.Regex.Extended.OneChar
import Highlighter.Proofs.Regex.Extended.Rows

/-!
# Pieces that are read wherever they stand

A character, a class or an escape of a pattern is read as one piece (`PieceReads`), and so is what
it is spelt as where letter case is spelt out: a class of variants, or a group in which letter case
does not count. The group needs room for one more open group.
-/

set_option autoImplicit false

namespace Highlighter.Regex.Extended

open Pattern

variable {kept : List Nat} {depth : Nat} {tree : Tree} {written more cs : List Char} {c : Char}

/-- Before `more`, a text is read as one piece, which a tree may become. -/
def PieceReads (kept : List Nat) (depth : Nat) (tree : Tree) (written more : List Char) : Prop :=
  ∀ reading : Reading, reading.flags.verbose = false → reading.names = [] →
    ∃ tree' : Tree, tree.MayBecome kept tree' ∧
      ∀ {items out : List Tree} {after : Reading} {left : List Char},
        ReadsOn depth reading items tree' more out after left →
          RowReads depth reading items (written ++ more) out after left

theorem mayBecome_piece (kept : List Nat) (flags flags' : Flags) (c : Char) :
    (flags.piece c).MayBecome kept (flags'.piece c) := by
  unfold Flags.piece
  split
  · exact Tree.mayBecome_any _ _
  · exact Tree.mayBecome_anchor _ _
  · exact Tree.mayBecome_anchor _ _
  · exact Tree.mayBecome_literal _ _ _

theorem pieceReads_char (hmark : isMark c = false) (flags : Flags) :
    PieceReads kept depth (flags.piece c) [c] more :=
  fun reading hverbose _ => ⟨_, mayBecome_piece kept flags reading.flags c, .piece hverbose hmark⟩

theorem pieceReads_set {set : ClassSet}
    (hread : ∀ reading, parseBracket? reading (cs ++ more)
      = some (.set set reading.flags.ignoreCase, more))
    (hbecomes : ∀ ignoreCase, tree.MayBecome kept (.set set ignoreCase)) :
    PieceReads kept depth tree ('[' :: cs) more := by
  refine fun reading hverbose _ => ⟨_, hbecomes reading.flags.ignoreCase, fun hon => ?_⟩
  exact .bracket hverbose (hread reading) (by simp) hon

/-- What an escape stands for is the same wherever it is read, but for letter case. -/
theorem mayBecome_toTree {reading : Reading} (later : Reading) {escape escape' : Escape}
    (h : escape.Alike escape') (htree : escape.toTree? reading = some tree) :
    ∃ tree' : Tree, escape'.toTree? later = some tree' ∧ tree.MayBecome kept tree' := by
  cases h with
  | char c ignoreCase other =>
    cases htree
    exact ⟨_, rfl, Tree.mayBecome_literal _ _ _⟩
  | same =>
    cases escape with
    | char c ignoreCase =>
      cases htree
      exact ⟨_, rfl, Tree.mayBecome_literal _ _ _⟩
    | set written =>
      obtain ⟨set, hset, heq⟩ := Option.map_eq_some_iff.mp htree
      cases heq
      exact ⟨_, by rw [Escape.toTree?, hset]; rfl, Tree.mayBecome_set _ _ _⟩
    | anchor sign =>
      cases htree
      exact ⟨_, rfl, Tree.mayBecome_anchor _ _⟩
    | keepOut =>
      cases htree
      exact ⟨_, rfl, Tree.mayBecome_keepOut⟩
    | searchStart =>
      cases htree
      exact ⟨_, rfl, Tree.mayBecome_searchStart⟩
    | backref group =>
      cases htree
      exact ⟨_, rfl, Tree.mayBecome_backref _ _⟩

theorem pieceReads_escape {escape : Escape} {before : Reading}
    (hread : ∀ reading : Reading, ∃ escape', escape.Alike escape' ∧
      parseEscape? reading false (cs ++ more) = some (escape', reading, more))
    (htree : escape.toTree? before = some tree) :
    PieceReads kept depth tree ('\\' :: cs) more := by
  intro reading hverbose _
  obtain ⟨escape', halike, hescape⟩ := hread reading
  obtain ⟨tree', htree', hbecomes⟩ := mayBecome_toTree reading halike htree
  exact ⟨tree', hbecomes, fun hon => .escape hverbose hescape htree' (by simp) hon⟩

/-- A group in which letter case does not count is read as what is in it. -/
theorem PieceReads.ignoring (h : PieceReads kept (depth + 1) tree written (')' :: more))
    (hdepth : depth + 1 ≤ maxDepth) : PieceReads kept depth tree (ignoringCase written) more := by
  intro reading hverbose hnames
  have hinside : reading.ignoring.flags.verbose = false := hverbose
  obtain ⟨tree', hbecomes, hread⟩ := h reading.ignoring hinside hnames
  have hrow : RowReads (depth + 1) reading.ignoring [] (written ++ ')' :: more)
      (if tree'.isEmpty then [] else [tree']).reverse reading.ignoring (')' :: more) :=
    hread ⟨tree', ')' :: more,
      parseSuffix_none hinside tree' (clean_cons (by decide) _) (by simp [isCountStart]),
      Nat.le_refl _, rowReads_stop hinside (by simp)⟩
  have hbody : BranchesReads (depth + 1) reading.ignoring [] (written ++ ')' :: more)
      (.ofBranches [.ofItems (if tree'.isEmpty then [] else [tree']).reverse]) reading.ignoring
      (')' :: more) :=
    .last hrow hnames (by simp)
  -- One branch of one item is that item, also where there is nothing to match.
  have htree : Tree.ofBranches [.ofItems (if tree'.isEmpty then [] else [tree']).reverse]
      = tree' := by
    cases tree' <;> rfl
  rw [htree] at hbody
  refine ⟨tree', hbecomes, fun hon => ?_⟩
  have hshape : ignoringCase written ++ more
      = '(' :: '?' :: 'i' :: ':' :: (written ++ ')' :: more) := by
    simp [ignoringCase]
  rw [hshape]
  have hopening := parseOpening_ignoring reading (written ++ ')' :: more)
  refine .group hverbose (clean_group (by decide) _)
    (.around hdepth hopening rfl (by simp) ?_ hbody hinside) ?_ hon
  · simp only [List.length_cons]
    omega
  · simp only [List.length_cons, List.length_append]
    omega

/-! ### Letter case spelt out -/

/-- What matches one character may become a set that is known. -/
theorem Tree.mayBecome_of_minSize {set : ClassSet} (hsize : tree.minSize = 1)
    (hset : (set.meaning? ⟨false, true⟩).isSome = true) (ignoreCase : Bool) :
    tree.MayBecome kept (.set set ignoreCase) where
  empty hempty := by
    cases tree with
    | empty => cases hsize
    | _ => cases hempty
  solid _ := rfl
  fit _ := Bool.and_eq_true_iff.mpr ⟨hset, rfl⟩
  const _ := ⟨rfl, hsize.symm⟩
  ends _ := rfl

theorem pieceReads_foldedLetter (h : c.isAlpha = true) (hsize : tree.minSize = 1) :
    PieceReads kept depth tree ('[' :: (foldedLetter c ++ [']'])) more := by
  have hlists := (classLists_foldedLetter h).1.mono fun _ _ => Denotes.spelt
  have hset : ((listedClass false ((foldedLetter c).map .one)).meaning? ⟨false, true⟩).isSome
      = true := by
    rw [meaning_foldedLetter h]
    rfl
  refine pieceReads_set (fun reading => ?_) (Tree.mayBecome_of_minSize hsize hset)
  rw [List.append_assoc]
  exact (parseBracket_body hlists.isClassBody reading more).trans
    (by rw [extendedClass_lists hlists]; rfl)

/-- A character with all its case variants. -/
theorem pieceReads_foldChar (hmark : isMark c = false) (hdepth : depth + 1 ≤ maxDepth)
    (flags : Flags) : PieceReads kept depth (flags.piece c) (foldChar c) more := by
  by_cases halpha : c.isAlpha = true
  · rw [foldChar_letter halpha]
    have hpiece : flags.piece c = .literal c flags.ignoreCase := by
      unfold Flags.piece
      split <;> first
        | exact absurd halpha (by decide)
        | rfl
    rw [hpiece]
    exact pieceReads_foldedLetter halpha rfl
  · rw [foldChar, if_neg halpha]
    split
    · exact (pieceReads_char hmark flags).ignoring hdepth
    · exact pieceReads_char hmark flags

/-- A class with all case variants of its members. -/
theorem pieceReads_foldClass {set : ClassSet} {ignoreCase : Bool}
    (hread : parseBracket? .blank cs = some (.set set ignoreCase, []))
    (hdepth : depth + 1 ≤ maxDepth) (other : Bool) :
    PieceReads kept depth (.set set other) (foldClass ('[' :: cs)) more := by
  obtain ⟨body, rfl, hbody⟩ := exists_members hread
  rw [foldClass_brackets]
  cases hfolded : foldedBody? body with
  | none =>
    obtain ⟨written, heq, happend⟩ := parseBracket_append hread
    cases heq
    exact (pieceReads_set (fun reading => happend reading _) fun _ =>
      Tree.mayBecome_set _ _ _).ignoring hdepth
  | some folded =>
    obtain ⟨folds, hset, hbracket⟩ := parseBracket_foldedBody hbody hfolded
    refine pieceReads_set (fun reading => ?_) (Tree.mayBecome_of_minSize rfl hset)
    rw [List.append_assoc]
    exact hbracket reading more

end Highlighter.Regex.Extended
