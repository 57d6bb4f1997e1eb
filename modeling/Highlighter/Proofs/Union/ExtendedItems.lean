import Highlighter.Proofs.Regex.Extended.Pieces
import Highlighter.Proofs.Union.Renumber
import Highlighter.Proofs.Union.Steady

/-!
# Pieces of a pattern in the text of a member

What the extended dialect reads as one piece of a pattern is read as one piece of the member again,
which the piece may become (`ItemCarried`), and what repeats it in the pattern does so in the member
(`parseSuffix_text`). The two readers go side by side. What they know differs in the number of
groups: the second one has met the groups of other members, and only those of its own that keep a
number (`Follows`).

Spelling out letter case puts some pieces in a group, so there must be room for one more open group
then (`Recasting.lift`).
-/

set_option autoImplicit false

namespace Highlighter.Union

open Pattern Regex Regex.Extended

/-- What the reader of a member knows where the reader of its pattern knows `reading`. -/
structure Follows (recasting : Recasting) (size : Nat) (reading later : Reading) : Prop where
  verbose : reading.flags.verbose = false
  verbose_later : later.flags.verbose = false
  sorted : recasting.kept.Pairwise (· < ·)
  names : later.names = []
  groups : later.groups = recasting.base + recasting.kept.countP (· ≤ reading.groups)
  size_eq : later.size = size
  /-- References are smaller than half of the size. -/
  size_le : 2 * (recasting.base + recasting.kept.length) + 2 ≤ size
  limit : recasting.base + recasting.kept.length < Extended.numberLimit

/-- A reference by the new number of a group is smaller than half of the size, and the group has
opened. -/
theorem Follows.parseNumbered {recasting : Recasting} {size : Nat} {reading later : Reading}
    {rest : List Char} (h : Follows recasting size reading later) {number : Nat}
    (hle : number ≤ reading.groups) (hpos : number ≠ 0) (hkept : number ∈ recasting.kept)
    (hrest : ∀ c ∈ rest.head?, c.isDigit = false) :
    later.parseNumbered?
        (Nat.toDigits 10 (recasting.base + recasting.kept.idxOf number + 1) ++ rest)
      = some (recasting.base + recasting.kept.idxOf number + 1,
          { later with
            numbered := true
            targets := (recasting.base + recasting.kept.idxOf number + 1) :: later.targets },
          rest) := by
  obtain ⟨group, rfl⟩ : ∃ group, number = group + 1 := ⟨number - 1, by omega⟩
  have hsize := h.size_le
  have hlimit := h.limit
  have hindex : recasting.kept.idxOf (group + 1) < recasting.kept.length :=
    List.idxOf_lt_length_of_mem hkept
  have hgroups : recasting.base + recasting.kept.idxOf (group + 1) + 1 ≤ later.groups := by
    have hplace := idxOf_eq_countP h.sorted hkept
    have hsucc := countP_succ h.sorted group
    rw [if_pos (List.contains_iff_mem.mpr hkept)] at hsucc
    have hmono : recasting.kept.countP (· ≤ group + 1)
        ≤ recasting.kept.countP (· ≤ reading.groups) :=
      List.countP_mono_left fun other _ hother => by
        simp only [decide_eq_true_eq] at hother ⊢
        exact hother.trans hle
    rw [h.groups, hplace]
    omega
  have hhalf : recasting.base + recasting.kept.idxOf (group + 1) + 1 < later.size / 2 := by
    rw [h.size_eq]
    omega
  rw [Reading.parseNumbered?, parseNumber_toDigits (by omega) hrest]
  simp only [bind, Option.bind_some, hgroups, hhalf, decide_true, Bool.and_self, if_true]

/-- What a reader knows besides its flags and the number of groups makes no difference. -/
theorem Follows.of_groups {recasting : Recasting} {size : Nat} {reading between later : Reading}
    (h : Follows recasting size reading later) (hverbose : between.flags.verbose = false)
    (hgroups : between.groups = reading.groups) : Follows recasting size between later :=
  { h with verbose := hverbose, groups := hgroups ▸ h.groups }

namespace Recasting

/-- How many more groups may be open at a piece where letter case is spelt out. -/
def lift (recasting : Recasting) : Nat := if recasting.folded then 1 else 0

theorem room_of_folded {recasting : Recasting} {depth : Nat}
    (h : depth + recasting.lift ≤ maxDepth) (hfolded : recasting.folded = true) :
    depth + 1 ≤ maxDepth := by
  rwa [lift, hfolded] at h

/-- From `cs` up to `rest`, what is read has a text in the member. -/
structure Carried (recasting : Recasting) (reading between : Reading) (cs rest : List Char) :
    Prop where
  verbose : between.flags.verbose = false
  steady : Steady recasting.kept between.groups rest
  length : (recasting.text between.groups rest).length ≤ (recasting.text reading.groups cs).length

/-- One piece of a pattern is read from `cs` to `rest`, and then the reader knows `between`. In a
member, it is read as one piece, too. -/
structure ItemCarried (recasting : Recasting) (depth : Nat) (reading between : Reading)
    (tree : Tree) (cs rest : List Char) : Prop extends Carried recasting reading between cs rest where
  reads : ∀ {size : Nat} (later : Reading) (tail : List Char),
    Follows recasting size reading later → Ends tail →
      ∃ tree' between', tree.MayBecome recasting.kept tree' ∧
        Follows recasting size between between' ∧
        ∀ items out after left,
          ReadsOn depth between' items tree' (recasting.text between.groups rest ++ tail) out after
            left →
          RowReads depth later items (recasting.text reading.groups cs ++ tail) out after left

variable {recasting : Recasting} {opened depth : Nat}
  {reading between later : Reading} {tree tree' found : Tree} {cs rest next left tail : List Char}
  {c : Char}

/-! ### What repeats a piece -/

theorem afterMark_text (h : Steady recasting.kept opened cs) (htail : Ends tail) (mark : Char)
    (hmark : isCountStart mark = true) : ∃ missing left, afterMark mark cs = (missing, left) ∧
      afterMark mark (recasting.text opened cs ++ tail)
        = (missing, recasting.text opened left ++ tail) ∧
      Steady recasting.kept opened left ∧
      (recasting.text opened left).length ≤ (recasting.text opened cs).length := by
  have hnone : ∀ {cs : List Char}, cs.head? ≠ some mark → afterMark mark cs = (true, cs) := by
    intro cs hhead
    cases cs with
    | nil => rfl
    | cons c cs => exact if_neg fun heq => hhead (congrArg some heq)
  by_cases hhead : cs.head? = some mark
  · obtain ⟨rest, rfl⟩ := List.head?_eq_some_iff.mp hhead
    have hplain := isPlain_of_isCountStart hmark
    rw [text_plain hplain, char_eq (foldChar_of_isCountStart hmark)]
    exact ⟨false, rest, if_pos rfl, if_pos rfl, (h.plain hplain).1, Nat.le_succ _⟩
  · refine ⟨true, cs, hnone hhead, hnone fun hhead' => ?_, h, Nat.le_refl _⟩
    have hne : mark ≠ ')' := by
      rintro rfl
      cases hmark
    exact hhead (head?_of_count h hmark (head?_of_ends htail hne hhead'))

theorem parseRepetition_text (h : Steady recasting.kept opened cs) (htail : Ends tail)
    (hverbose : reading.flags.verbose = false) (hverbose' : later.flags.verbose = false) :
    parseRepetition? reading cs = none ∧
        parseRepetition? later (recasting.text opened cs ++ tail) = none ∨
      ∃ min max left, parseRepetition? reading cs = some (min, max, left) ∧
        parseRepetition? later (recasting.text opened cs ++ tail)
          = some (min, max, recasting.text opened left ++ tail) ∧
        Steady recasting.kept opened left ∧
        (recasting.text opened left).length ≤ (recasting.text opened cs).length := by
  by_cases hstart : ∃ c rest, cs = c :: rest ∧ isCountStart c = true
  · obtain ⟨c, rest, rfl, hc⟩ := hstart
    have hplain := isPlain_of_isCountStart hc
    have hrest := (h.plain hplain).1
    rw [text_plain hplain, char_eq (foldChar_of_isCountStart hc)]
    have hcases : c = '?' ∨ c = '*' ∨ c = '+' ∨ c = '{' := by
      simpa [isCountStart, or_assoc] using hc
    rcases hcases with rfl | rfl | rfl | rfl
    · exact .inr ⟨0, some 1, rest, rfl, rfl, hrest, Nat.le_succ _⟩
    · exact .inr ⟨0, none, rest, rfl, rfl, hrest, Nat.le_succ _⟩
    · exact .inr ⟨1, none, rest, rfl, rfl, hrest, Nat.le_succ _⟩
    · have halike := countsAlike_text hrest (h.mark (.inl rfl)).2 htail (Nat.le_succ _)
      rcases halike.parseBounds hverbose hverbose' with
        hnone | ⟨min, max, left, left', hleft, hleft', ⟨hsteady, hlength⟩, rfl⟩
      · exact .inl hnone
      · exact .inr ⟨min, max, left, hleft, hleft', hsteady, hlength⟩
  · have hnone : ∀ c, isCountStart c = true → cs.head? ≠ some c := by
      intro c hc hhead
      obtain ⟨rest, hrest⟩ := List.head?_eq_some_iff.mp hhead
      exact hstart ⟨c, rest, hrest, hc⟩
    refine .inl ⟨parseRepetition_none fun c hc => ?_, parseRepetition_none fun c hc => ?_⟩
    · exact Bool.eq_false_iff.mpr fun hstart => hnone c hstart hc
    · refine Bool.eq_false_iff.mpr fun hstart => ?_
      have hne : c ≠ ')' := by
        rintro rfl
        cases hstart
      exact hnone c hstart (head?_of_count h hstart (head?_of_ends htail hne hc))

/-- What repeats a piece of a pattern repeats the piece of the member. -/
theorem parseSuffix_text (h : Steady recasting.kept opened cs) (htail : Ends tail)
    (hverbose : reading.flags.verbose = false) (hverbose' : later.flags.verbose = false)
    (htree : tree.MayBecome recasting.kept tree')
    (hsuffix : parseSuffix? reading tree cs = some (found, left))
    (hrepeats : found.everywhere (Tree.repeatsSolid recasting.kept) = true) :
    (Steady recasting.kept opened left ∧
      (recasting.text opened left).length ≤ (recasting.text opened cs).length) ∧
    ∃ found' : Tree, found.MayBecome recasting.kept found' ∧
      parseSuffix? later tree' (recasting.text opened cs ++ tail)
        = some (found', recasting.text opened left ++ tail) := by
  rw [parseSuffix_eq, Reading.skip_eq hverbose h.clean, Option.bind_some] at hsuffix
  rw [parseSuffix_eq, Reading.skip_eq hverbose' (clean_text h htail), Option.bind_some]
  rcases parseRepetition_text h htail hverbose hverbose' with
    ⟨hnone, hnone'⟩ | ⟨min, max, rest, hcount, hcount', hrest, hlength⟩
  · simp only [hnone] at hsuffix
    cases hsuffix
    simp only [hnone']
    exact ⟨⟨h, Nat.le_refl _⟩, tree', htree, rfl⟩
  · simp only [hcount] at hsuffix
    simp only [hcount']
    split at hsuffix
    · cases hsuffix
    · rw [Reading.skip_eq hverbose hrest.clean, Option.map_some] at hsuffix
      rw [Reading.skip_eq hverbose' (clean_text hrest htail), Option.map_some]
      obtain ⟨greedy, next, hlazy, hlazy', hnext, hlength'⟩ :=
        afterMark_text hrest htail '?' rfl
      obtain ⟨retried, last, hretry, hretry', hlast, hlength''⟩ :=
        afterMark_text hnext htail '+' rfl
      simp only [repeatedBy, hlazy, hretry] at hsuffix
      simp only [repeatedBy, hlazy', hretry']
      obtain ⟨rfl, rfl⟩ := Prod.mk.inj (Option.some.inj hsuffix)
      refine ⟨⟨hlast, hlength''.trans (hlength'.trans hlength)⟩, ?_⟩
      have hsolid : tree.isSolid recasting.kept = true := by
        cases retried with
        | true => exact (Bool.and_eq_true_iff.mp hrepeats).1
        | false =>
          exact (Bool.and_eq_true_iff.mp (Bool.and_eq_true_iff.mp hrepeats).2).1
      rw [htree.solid hsolid]
      refine ⟨_, ?_, rfl⟩
      have hbecomes := Tree.mayBecome_repetition htree min max (greedy != reading.flags.swapGreed)
        (greedy != later.flags.swapGreed)
      cases retried with
      | true => exact hbecomes
      | false => exact Tree.mayBecome_atomic hbecomes

/-- What comes after a repetition is steady, too. -/
theorem steady_of_suffix (h : Steady recasting.kept opened cs)
    (hverbose : reading.flags.verbose = false) (hsuffix : parseSuffix? reading tree cs = some (found, left))
    (hrepeats : found.everywhere (Tree.repeatsSolid recasting.kept) = true) :
    Steady recasting.kept opened left ∧
      (recasting.text opened left).length ≤ (recasting.text opened cs).length :=
  have hends : Ends [] := nofun
  (parseSuffix_text h hends hverbose hverbose (.refl _ tree) hsuffix hrepeats).1

/-! ### Characters and classes -/

/-- What is read as one piece wherever it stands is carried. -/
theorem itemCarried_of_reads {written : List Char} (hverbose : between.flags.verbose = false)
    (hgroups : between.groups = reading.groups) (hrest : Steady recasting.kept reading.groups rest)
    (htext : recasting.text reading.groups cs = written ++ recasting.text reading.groups rest)
    (h : ∀ tail, Ends tail →
      PieceReads recasting.kept depth tree written (recasting.text reading.groups rest ++ tail)) :
    ItemCarried recasting depth reading between tree cs rest where
  verbose := hverbose
  steady := hgroups ▸ hrest
  length := by
    rw [htext, hgroups, List.length_append]
    exact Nat.le_add_left _ _
  reads later tail hfollows htail := by
    obtain ⟨tree', hbecomes, hread⟩ := h tail htail later hfollows.verbose_later hfollows.names
    refine ⟨tree', later, hbecomes, hfollows.of_groups hverbose hgroups,
      fun items out after left hon => ?_⟩
    rw [hgroups] at hon
    rw [htext, List.append_assoc]
    exact hread hon

theorem itemCarried_char (hroom : depth + recasting.lift ≤ maxDepth)
    (hverbose : reading.flags.verbose = false)
    (h : Steady recasting.kept reading.groups (c :: rest))
    (hplain : Part.isPlain c = true) (hmark : isMark c = false) :
    ItemCarried recasting depth reading reading (reading.flags.piece c) (c :: rest) rest := by
  refine itemCarried_of_reads hverbose rfl (h.plain hplain).1 (text_plain hplain rest)
    fun tail _ => ?_
  rw [char]
  cases hfolded : recasting.folded with
  | false => exact pieceReads_char hmark reading.flags
  | true => exact pieceReads_foldChar hmark (room_of_folded hroom hfolded) reading.flags

/-- A class is split off where it is read. -/
theorem itemCarried_bracket (hroom : depth + recasting.lift ≤ maxDepth)
    (hverbose : reading.flags.verbose = false)
    (h : Steady recasting.kept reading.groups ('[' :: rest))
    (hread : parseBracket? reading rest = some (tree, next)) :
    ItemCarried recasting depth reading reading tree ('[' :: rest) next := by
  obtain ⟨⟨halone, -⟩, hsteady⟩ := h.of_split (Part.split_cons '[' rest) rfl
  have halone : (parseBracket? .blank (rest.take (Part.classExtent rest))).any
    (fun found => found.2.isEmpty) = true := halone
  obtain ⟨⟨single, left⟩, hsingle, hleft⟩ := (Option.any_eq_true _ _).mp halone
  obtain rfl := List.isEmpty_iff.mp hleft
  obtain ⟨set, rfl, happend⟩ := parseBracket_append hsingle
  have hsame := happend reading (rest.drop (Part.classExtent rest))
  rw [List.take_append_drop, List.nil_append, hread] at hsame
  cases hsame
  refine itemCarried_of_reads hverbose rfl hsteady (text_bracket rest) fun tail _ => ?_
  cases hfolded : recasting.folded with
  | false =>
    exact pieceReads_set (fun reading' => happend reading' _) fun _ => Tree.mayBecome_set _ _ _
  | true => exact pieceReads_foldClass hsingle (room_of_folded hroom hfolded) _

/-! ### Escapes -/

/-- A word boundary with braces is not of this dialect. -/
theorem head?_of_boundary {escape : Escape} (hc : c = 'b' ∨ c = 'B')
    (h : parseEscape? reading false (c :: rest) = some (escape, between, next)) :
    rest.head? ≠ some '{' := by
  intro hhead
  obtain ⟨others, rfl⟩ := List.head?_eq_some_iff.mp hhead
  rcases hc with rfl | rfl <;> cases h

/-- An escape that is no number is split off where it is read. -/
theorem itemCarried_escape (hroom : depth + recasting.lift ≤ maxDepth)
    (hverbose : reading.flags.verbose = false) {letter : Char} (hdigit : letter.isDigit = false) {escape : Escape}
    (h : Steady recasting.kept reading.groups ('\\' :: letter :: rest))
    (hread : parseEscape? reading false (letter :: rest) = some (escape, between, next))
    (htree : escape.toTree? between = some tree) :
    ItemCarried recasting depth reading between tree ('\\' :: letter :: rest) next := by
  have hsplit := Part.split_cons '\\' (letter :: rest)
  rw [read_escape hdigit, List.drop_succ_cons] at hsplit
  obtain ⟨⟨halone, -⟩, hsteady⟩ := h.of_split hsplit rfl
  have hsteady : Steady recasting.kept reading.groups
    (rest.drop (Part.escapeExtent letter rest)) := hsteady
  obtain ⟨hname, halone⟩ := Bool.and_eq_true_iff.mp halone
  have hname : letter ≠ 'k' := by
    rintro rfl
    cases hname
  obtain ⟨⟨single, _, left⟩, hsingle, hleft⟩ := (Option.any_eq_true _ _).mp halone
  obtain rfl := List.isEmpty_iff.mp hleft
  have hbrace : letter = 'b' ∨ letter = 'B' →
      (rest.drop (Part.escapeExtent letter rest)).head? ≠ some '{' := by
    intro hletter
    have hhead := head?_of_boundary hletter hread
    have hextent : Part.escapeExtent letter rest = 0 := by
      rcases hletter with rfl | rfl <;> simp [Part.escapeExtent, hhead]
    rwa [hextent, List.drop_zero]
  have happend : ∀ {more : List Char}, (letter = 'b' ∨ letter = 'B' → more.head? ≠ some '{') →
      ∀ reading' : Reading, ∃ escape', single.Alike escape' ∧
        parseEscape? reading' false (letter :: (rest.take (Part.escapeExtent letter rest) ++ more))
          = some (escape', reading', more) := fun hmore reading' =>
    parseEscape_append hsingle (fun _ => ⟨hdigit, hname⟩) _ (fun _ => hmore) reading'
  obtain ⟨escape', halike, hsame⟩ := happend hbrace reading
  rw [List.take_append_drop, hread] at hsame
  cases hsame
  have hreads : ∀ {depth : Nat} {more : List Char},
      (letter = 'b' ∨ letter = 'B' → more.head? ≠ some '{') →
        PieceReads recasting.kept depth tree
          ('\\' :: letter :: rest.take (Part.escapeExtent letter rest)) more := fun hmore =>
    pieceReads_escape
      (fun reading' => (happend hmore reading').imp fun _ => And.imp_left halike.of_both) htree
  refine itemCarried_of_reads hverbose rfl hsteady (text_escape hdigit rest) fun tail htail => ?_
  have hbrace' : letter = 'b' ∨ letter = 'B' → (recasting.text reading.groups
      (rest.drop (Part.escapeExtent letter rest)) ++ tail).head? ≠ some '{' := fun hletter hhead =>
    hbrace hletter (head?_of_count hsteady rfl (head?_of_ends htail (by decide) hhead))
  cases hfolded : recasting.folded with
  | false => exact hreads hbrace'
  | true =>
    show PieceReads _ _ _ (if isCasedEscape letter then ignoringCase _ else _) _
    split
    · exact (hreads (by simp)).ignoring (room_of_folded hroom hfolded)
    · exact hreads hbrace'

/-! ### References -/

/-- What a reference by number is read as. -/
theorem parseNumbered_eq_some {digit : Char} (hdigit : digit.isDigit = true) {number : Nat}
    (h : reading.parseNumbered? (digit :: rest) = some (number, between, next)) :
    number = Part.decimal ((digit :: rest).takeWhile Char.isDigit) ∧
      next = (digit :: rest).dropWhile Char.isDigit ∧ number ≤ reading.groups ∧
      between = { reading with numbered := true, targets := number :: reading.targets } := by
  obtain ⟨⟨value, left⟩, hvalue, h⟩ := Option.bind_eq_some_iff.mp h
  rw [parseNumber?, List.takeWhile_cons_of_pos hdigit] at hvalue
  split at hvalue
  · cases hvalue
  · dsimp only at hvalue
    split at hvalue
    · cases hvalue
      dsimp only at h
      split at h
      · rename_i hbounds
        cases h
        refine ⟨?_, rfl, ?_, rfl⟩
        · rw [List.takeWhile_cons_of_pos hdigit]
          rfl
        · exact of_decide_eq_true (Bool.and_eq_true_iff.mp hbounds).2
      · cases h
    · cases hvalue

/-- A reference is split off where it is read. -/
theorem split_number {kept : List Nat} {digit : Char} (hdigit : digit.isDigit = true)
    (h : Steady kept opened ('\\' :: digit :: rest)) :
    Part.split ('\\' :: digit :: rest)
      = .numeric (Part.decimal ((digit :: rest).takeWhile Char.isDigit)) ::
          Part.split ((digit :: rest).dropWhile Char.isDigit) := by
  have hsplit := Part.split_cons '\\' (digit :: rest)
  by_cases hlimit : Part.decimal ((digit :: rest).takeWhile Char.isDigit) < Part.numberLimit
  · have hescape : Part.read '\\' (digit :: rest)
        = (.numeric (Part.decimal ((digit :: rest).takeWhile Char.isDigit)),
          ((digit :: rest).takeWhile Char.isDigit).length) := by
      show Part.readEscape (digit :: rest) = _
      simp only [Part.readEscape, hdigit, hlimit, if_true]
    rwa [hescape, drop_takeWhile] at hsplit
  · have hescape : Part.read '\\' (digit :: rest)
        = (.escape ('\\' :: (digit :: rest).takeWhile Char.isDigit),
          ((digit :: rest).takeWhile Char.isDigit).length) := by
      show Part.readEscape (digit :: rest) = _
      simp only [Part.readEscape, hdigit, hlimit, if_true, if_false]
    -- Escapes by digits are not read alone.
    rw [hescape] at hsplit
    have halone := (h.of_split hsplit rfl).1.1
    rw [List.takeWhile_cons_of_pos hdigit] at halone
    simp [isReadAlone, hdigit] at halone

theorem part_zero : recasting.part opened (.numeric 0)
    = if recasting.folded then ignoringCase ['\\', 'x', '{', '0', '}']
      else ['\\', 'x', '{', '0', '}'] := by
  show partText recasting.folded (.escape ['\\', 'x', '{', '0', '}']) = _
  cases recasting.folded <;> rfl

theorem pieceReads_zero {kept : List Nat} {more : List Char} :
    PieceReads kept depth (.backref 0) ['\\', 'x', '{', '0', '}'] more := by
  intro reading hverbose _
  have hescape : parseEscape? reading false ('x' :: '{' :: '0' :: '}' :: more)
      = some (.char '\x00' reading.flags.ignoreCase, reading, more) := rfl
  exact ⟨_, Tree.backref_mayBecome 0 '\x00' reading.flags.ignoreCase, fun hon =>
    .escape hverbose hescape rfl (by simp; omega) hon⟩

theorem part_number {number : Nat} (hpos : number ≠ 0) (hle : number ≤ opened) :
    recasting.part opened (.numeric number)
      = '\\' :: Nat.toDigits 10 (recasting.base + recasting.kept.idxOf number + 1) := by
  have hresolved : resolvedPart opened (.numeric number) = .numeric number := by
    simp [resolvedPart, hle, Nat.one_le_iff_ne_zero.mpr hpos]
  rw [Recasting.part, hresolved]
  show partText recasting.folded (.numeric (recasting.base + recasting.kept.idxOf number + 1)) = _
  cases recasting.folded <;> rfl

/-- No digit comes after a reference, given that no caret is left out there. -/
theorem isDigit_after (h : Steady recasting.kept opened (cs.dropWhile Char.isDigit))
    (hcaret : (cs.dropWhile Char.isDigit).head? ≠ some '^') (htail : Ends tail) :
    ∀ c ∈ (recasting.text opened (cs.dropWhile Char.isDigit) ++ tail).head?,
      c.isDigit = false := by
  intro c hc
  by_cases hmarks : c = '[' ∨ c = '(' ∨ c = ')'
  · rcases hmarks with rfl | rfl | rfl <;> rfl
  · rw [not_or, not_or] at hmarks
    have hhead := (startsAs_text h hcaret).eq hmarks.1 hmarks.2.1
      (head?_of_ends htail hmarks.2.2 hc)
    have hnot := List.head?_dropWhile_not Char.isDigit cs
    rwa [hhead] at hnot

/-- A reference becomes one by the new number, and a number that no group has a character. -/
theorem itemCarried_number (hroom : depth + recasting.lift ≤ maxDepth)
    (hverbose : reading.flags.verbose = false) {digit : Char} (hdigit : digit.isDigit = true) {number : Nat}
    (h : Steady recasting.kept reading.groups ('\\' :: digit :: rest))
    (hread : reading.parseNumbered? (digit :: rest) = some (number, between, next)) :
    ItemCarried recasting depth reading between (.backref number) ('\\' :: digit :: rest) next := by
  obtain ⟨hnumber, hnext, hle, hbetween⟩ := parseNumbered_eq_some hdigit hread
  have hsplit := split_number hdigit h
  rw [← hnumber, ← hnext] at hsplit
  obtain ⟨⟨halone, hcaret⟩, hsteady⟩ := h.of_split hsplit rfl
  have hcaret : next.head? ≠ some '^' := Steady.head?_ne_caret hcaret rfl
  have hsteady : Steady recasting.kept reading.groups next := hsteady
  have htext : recasting.text reading.groups ('\\' :: digit :: rest)
      = recasting.part reading.groups (.numeric number) ++ recasting.text reading.groups next :=
    text_of_split hsplit rfl nofun
  have hgroups : between.groups = reading.groups := by rw [hbetween]
  have hverbose' : between.flags.verbose = false := by rwa [hbetween]
  by_cases hzero : number = 0
  · subst hzero
    rw [part_zero] at htext
    refine itemCarried_of_reads hverbose' hgroups hsteady htext fun tail _ => ?_
    cases hfolded : recasting.folded with
    | false => exact pieceReads_zero
    | true => exact pieceReads_zero.ignoring (room_of_folded hroom hfolded)
  · have hkept : recasting.kept.contains number = true := by
      simpa [isReadAlone, hzero, hle] using halone
    obtain ⟨first, digits, hdigits, hfirst⟩ :=
      head_toDigits (recasting.base + recasting.kept.idxOf number + 1)
    rw [part_number hzero hle, hdigits] at htext
    refine ⟨⟨hverbose', hgroups ▸ hsteady, ?_⟩, fun later tail hfollows htail => ?_⟩
    · rw [htext, hgroups, List.length_append]
      exact Nat.le_add_left _ _
    subst hnext
    have hnumbered := hfollows.parseNumbered hle hzero (List.contains_iff_mem.mp hkept)
      (isDigit_after hsteady hcaret htail)
    rw [hdigits, List.cons_append] at hnumbered
    have hescape := parseEscape_digit hfirst later (digits ++
      (recasting.text reading.groups ((digit :: rest).dropWhile Char.isDigit) ++ tail))
    rw [hnumbered] at hescape
    refine ⟨.backref (recasting.base + recasting.kept.idxOf number + 1),
      { later with
        numbered := true
        targets := (recasting.base + recasting.kept.idxOf number + 1) :: later.targets },
      Tree.mayBecome_backref number _, ?_, fun items out after left hrow => ?_⟩
    · exact { hfollows.of_groups hverbose' hgroups with }
    · rw [hgroups] at hrow
      rw [htext, List.cons_append, List.cons_append, List.cons_append, List.cons_append,
        List.append_assoc]
      refine .escape hfollows.verbose_later hescape rfl ?_ hrow
      simp only [List.length_cons, List.length_append]
      omega

end Recasting

end Highlighter.Union
