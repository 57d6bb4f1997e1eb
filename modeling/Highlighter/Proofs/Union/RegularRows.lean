import Highlighter.Proofs.Pattern.Marks
import Highlighter.Proofs.Union.RegularItems

/-!
# Patterns of the regular dialect as members

A pattern that the regular dialect accepts is still accepted as a member of a union
(`carries_of_reads`). The induction is on how the pattern is read: what is read next is read in the
member too, and what has been read in the end may become what is read there.

`Joins` says which patterns are left out. In verbose patterns, and where a bracket hides the end of a
class, the splitter goes wrong. A caret that is repeated is dropped without its repetition. Where
letter case is spelt out, classes without Unicode cannot hold the case variants.
-/

set_option autoImplicit false

namespace Highlighter.Regex.Regular

/-- Where a row goes on with a repetition, its latest item is repeated. -/
theorem Reads.count_of_head {reading after : Reading} {items out : List Ast} {c : Char}
    {rest left : List Char} (h : Reads (.row reading items (c :: rest) out after left))
    (hverbose : reading.verbose = false) (hc : Pattern.isCountStart c = true) :
    ∃ item others min max greedy next, items = item :: others ∧
      counted? false (c :: rest) = some (min, max, greedy, next) ∧
      Ast.repetition min max greedy item ∈ Ast.subtermsAll out := by
  have hshow : ∀ {shown}, skipBlank reading.verbose (c :: rest) = shown → shown = c :: rest :=
    fun hshown => hshown.symm.trans (Reading.skipBlank_eq hverbose _)
  cases h with
  | stop hshown hleft =>
    obtain rfl := hshow hshown
    rcases hleft c rfl with rfl | rfl <;> cases hc
  | flags hshown =>
    cases hshow hshown
    cases hc
  | group hshown =>
    cases hshow hshown
    cases hc
  | bracket hshown =>
    cases hshow hshown
    cases hc
  | @count _ _ item others _ _ _ _ _ min max greedy hshown hcount _ hrow =>
    obtain rfl := hshow hshown
    rw [hverbose] at hcount
    exact ⟨item, others, min, max, greedy, _, rfl, hcount, hrow.mem_latest (Ast.mem_subterms_self _)⟩
  | piece hshown hmark =>
    cases hshow hshown
    rw [isCountStart_of_not_isMark hmark] at hc
    cases hc

end Highlighter.Regex.Regular

namespace Highlighter.Union

open Pattern Regex Regex.Regular

/-- Flags that are neither verbose nor, where letter case is spelt out, without Unicode. -/
def SteadyFlags (folded : Bool) (change : FlagChange) : Prop :=
  change.value? .verbose ≠ some true ∧ (folded = true → change.value? .unicode ≠ some false)

instance (folded : Bool) (change : FlagChange) : Decidable (SteadyFlags folded change) :=
  inferInstanceAs (Decidable (_ ∧ _))

/-- Whether a pattern is a caret. -/
def isCaret : Ast → Bool
  | .primitive (.anchor .caret) => true
  | _ => false

/-- What is asked of the parts of a pattern that is to be joined. -/
def Joins (folded : Bool) (source : List Char) : Ast → Prop
  | .flags change _ => SteadyFlags folded change
  | .group kind _ _ => SteadyFlags folded kind.change
  | .bracket _ place => hidesEnd (source.drop (place.start + 1)) = false ∧
    (folded = true → isMisread (betweenBrackets (cut source place)) = false)
  | .repetition _ _ _ body => isCaret body = false
  | _ => True

instance (folded : Bool) (source : List Char) : DecidablePred (Joins folded source)
  | .flags change _ => inferInstanceAs (Decidable (SteadyFlags folded change))
  | .group kind _ _ => inferInstanceAs (Decidable (SteadyFlags folded kind.change))
  | .bracket _ _ => inferInstanceAs (Decidable (_ ∧ _))
  | .repetition _ _ _ body => inferInstanceAs (Decidable (isCaret body = false))
  | .empty | .primitive _ | .alternation _ | .concat _ => .isTrue trivial

namespace Recasting

/-- From `cs` up to `left`, what the reader passes over has a text in the member. -/
structure Passes (recasting : Recasting) (source : List Char) (reading after : Reading)
    (cs left : List Char) : Prop where
  verbose : after.verbose = false
  length : after.length = source.length
  suffix : left <:+ cs
  numbers : numbersIn cs = numbersIn left
  suffix_text : recasting.text after.groups left <:+ recasting.text reading.groups cs

/-- What a row becomes is read where the row is. -/
structure RowPasses (recasting : Recasting) (source : List Char) (reading after : Reading)
    (items out : List Ast) (cs left : List Char) : Prop
    extends Passes recasting source reading after cs left where
  ends : ∀ c ∈ left.head?, c = '|' ∨ c = ')'
  /-- A repetition comes next only where one does in the pattern. -/
  head : ∀ c, isCountStart c = true → (recasting.text reading.groups cs).head? = some c →
    cs.head? = some c
  reads : ∀ (reading' : Reading) (items' : List Ast) (tail : List Char), reading'.verbose = false →
    Ast.RowBecomes recasting.folded items items' → (∀ c ∈ tail.head?, c = ')' ∨ c = '|') →
    ∃ out', Ast.RowBecomes recasting.folded out out' ∧
      RowReads reading' items' (recasting.text reading.groups cs ++ tail) out'
        (recasting.text after.groups left ++ tail)

/-- What an alternation becomes is read where the alternation is. -/
structure BranchesPass (recasting : Recasting) (source : List Char) (reading after : Reading)
    (before : List Ast) (ast : Ast) (cs left : List Char) : Prop
    extends Passes recasting source reading after cs left where
  reads : ∀ (reading' : Reading) (before' : List Ast) (tail : List Char), reading'.verbose = false →
    List.Forall₂ (Ast.MayBecome recasting.folded) before before' →
    (∀ c ∈ tail.head?, c = ')' ∨ c = '|' ∧ left ≠ []) →
    ∃ ast', ast.MayBecome recasting.folded ast' ∧
      BranchesRead reading' before' (recasting.text reading.groups cs ++ tail) ast'
        (recasting.text after.groups left ++ tail)

/-- What is read of a pattern passes, given that nothing in it is asked too much. -/
def Carries (recasting : Recasting) (source : List Char) : Goal → Prop
  | .row reading items cs out after left =>
    reading.verbose = false → reading.length = source.length → cs <:+ source →
      (∀ ast ∈ Ast.subtermsAll out, Plain source ast ∧ Joins recasting.folded source ast) →
      RowPasses recasting source reading after items out cs left
  | .branches reading before cs ast after left =>
    reading.verbose = false → reading.length = source.length → cs <:+ source →
      (∀ sub ∈ ast.subterms, Plain source sub ∧ Joins recasting.folded source sub) →
      BranchesPass recasting source reading after before ast cs left

variable {recasting : Recasting} {source cs next left : List Char}
  {reading inside between after : Reading} {item : Ast} {items out : List Ast}

/-- A row that goes on with an item. -/
theorem RowPasses.prepend (d : Char) (written : List Char)
    (h : RowPasses recasting source inside after (item :: items) out next left) (hnext : next <:+ cs)
    (hnumbers : numbersIn cs = numbersIn next)
    (htext : recasting.text reading.groups cs
      = d :: (written ++ recasting.text inside.groups next))
    (hd : isCountStart d = false)
    (hitem : ∀ tail : List Char, (∀ c ∈ tail.head?, c = ')' ∨ c = '|') →
      ItemReads recasting.folded item (d :: written) (recasting.text inside.groups next ++ tail)) :
    RowPasses recasting source reading after items out cs left where
  verbose := h.verbose
  length := h.length
  suffix := h.suffix.trans hnext
  numbers := hnumbers.trans h.numbers
  suffix_text := by
    rw [htext]
    exact h.suffix_text.trans ((List.suffix_append _ _).trans (List.suffix_cons _ _))
  ends := h.ends
  head c hc hhead := by
    rw [htext] at hhead
    obtain rfl : d = c := Option.some.inj hhead
    rw [hd] at hc
    cases hc
  reads reading' items' tail hverbose hitems htail := by
    obtain ⟨other, hother, hrepeat, hread⟩ := hitem tail htail reading' items' hverbose
    obtain ⟨out', hout, hrow⟩ :=
      h.reads reading' (other :: items') tail hverbose (.item hother hrepeat hitems) htail
    refine ⟨out', hout, ?_⟩
    rw [htext, ← List.cons_append, List.append_assoc]
    exact hread _ _ hrow

/-- What starts with a repetition does so before what ends it. -/
theorem head?_of_append {text tail : List Char} {c : Char} (hc : isCountStart c = true)
    (htail : ∀ c ∈ tail.head?, c = ')' ∨ c = '|') (h : (text ++ tail).head? = some c) :
    text.head? = some c := by
  cases text with
  | nil => rcases htail c h with rfl | rfl <;> cases hc
  | cons d text => exact h

/-- A row that goes on with a caret that is left out. -/
theorem RowPasses.drop_caret
    (h : RowPasses recasting source reading after (.primitive (.anchor .caret) :: items) out next left)
    (htext : recasting.text reading.groups ('^' :: next) = recasting.text reading.groups next)
    (hrepeat : ∀ c ∈ next.head?, isCountStart c = false) :
    RowPasses recasting source reading after items out ('^' :: next) left where
  verbose := h.verbose
  length := h.length
  suffix := h.suffix.trans (List.suffix_cons _ _)
  numbers := (numbersIn_caret next).trans h.numbers
  suffix_text := htext ▸ h.suffix_text
  ends := h.ends
  head c hc hhead := by
    rw [htext] at hhead
    exact absurd ((hrepeat c (h.head c hc hhead)).symm.trans hc) Bool.false_ne_true
  reads reading' items' tail hverbose hitems htail := by
    rw [htext]
    exact h.reads reading' items' tail hverbose (.caret hitems) htail

/-- A row whose latest item is repeated. -/
theorem RowPasses.repeated {min : Nat} {max : Option Nat} {greedy : Bool}
    (h : RowPasses recasting source reading after (.repetition min max greedy item :: items) out next
      left)
    (hcount : counted? false cs = some (min, max, greedy, next)) (hitem : item.isRepeatable = true)
    (hcaret : item ≠ .primitive (.anchor .caret)) :
    RowPasses recasting source reading after (item :: items) out cs left := by
  obtain ⟨sign, text, rfl, hmarks, hread⟩ := apart_counted hcount
  have htext : recasting.text reading.groups (sign :: (text ++ next))
      = sign :: (text ++ recasting.text reading.groups next) := text_count hmarks next
  refine ⟨⟨h.verbose, h.length, h.suffix.trans ?_, ?_, ?_⟩, h.ends, ?_, ?_⟩
  · exact (List.suffix_append _ _).trans (List.suffix_cons _ _)
  · exact (numbersIn_count hmarks next).trans h.numbers
  · rw [htext]
    exact h.suffix_text.trans ((List.suffix_append _ _).trans (List.suffix_cons _ _))
  · intro c _ hhead
    rwa [htext] at hhead
  · intro reading' items' tail hverbose hitems htail
    cases hitems with
    | caret => exact absurd rfl hcaret
    | @item _ other _ others hother hrepeat hrest =>
      obtain ⟨out', hout, hrow⟩ := h.reads reading' (.repetition min max greedy other :: others) tail
        hverbose (.item (Ast.mayBecome_repetition hother min max greedy) (fun _ => rfl) hrest) htail
      have hmore := hread (recasting.text reading.groups next ++ tail) fun hhead =>
        h.head '?' rfl (head?_of_append rfl htail hhead)
      refine ⟨out', hout, ?_⟩
      rw [htext, List.cons_append, List.append_assoc]
      exact .count hverbose (hrepeat hitem) hmore (by simp) hrow

/-- A row that ends. -/
theorem rowPasses_stop (hverbose : reading.verbose = false) (hlength : reading.length = source.length)
    (hleft : ∀ c ∈ left.head?, c = '|' ∨ c = ')') :
    RowPasses recasting source reading reading items items.reverse left left := by
  have hhead : ∀ c ∈ (recasting.text reading.groups left).head?, left.head? = some c := by
    intro c hc
    cases left with
    | nil =>
      rw [text_nil] at hc
      cases hc
    | cons d rest =>
      rcases hleft d rfl with rfl | rfl
      · rw [text_plain rfl] at hc
        cases hfolded : recasting.folded <;> simpa [char, hfolded, foldChar] using hc
      · rwa [text_close] at hc
  refine ⟨⟨hverbose, hlength, List.suffix_refl _, rfl, List.suffix_refl _⟩, hleft,
    fun c _ hc => hhead c hc, ?_⟩
  intro reading' items' tail hverbose' hitems htail
  refine ⟨items'.reverse, hitems.reverse, rowReads_stop hverbose' fun c hc => ?_⟩
  cases htext : recasting.text reading.groups left with
  | nil =>
    rw [htext] at hc
    exact htail c hc
  | cons d text =>
    rw [htext] at hc hhead
    exact (hleft c (hhead c hc)).symm

variable {before : List Ast} {ast : Ast}

theorem BranchesPass.branch
    (hrow : RowPasses recasting source reading between [] items cs ('|' :: next))
    (h : BranchesPass recasting source between after (.ofItems items :: before) ast next left) :
    BranchesPass recasting source reading after before ast cs left := by
  have hnext := hrow.suffix_text
  rw [text_bar] at hnext
  refine ⟨⟨h.verbose, h.length, h.suffix.trans ((List.suffix_cons _ _).trans hrow.suffix),
    (hrow.numbers.trans (numbersIn_plain rfl next)).trans h.numbers,
    h.suffix_text.trans ((List.suffix_cons _ _).trans hnext)⟩, ?_⟩
  intro reading' before' tail hverbose hbefore htail
  obtain ⟨items', hitems, hread⟩ :=
    hrow.reads reading' [] tail hverbose .nil fun c hc => (htail c hc).imp_right And.left
  obtain ⟨ast', hast, hrest⟩ := h.reads reading' (.ofItems items' :: before') tail hverbose
    (.cons hitems.ofItems hbefore) htail
  rw [text_bar] at hread
  refine ⟨ast', hast, .branch hread ?_ hrest⟩
  have hlength := hnext.length_le
  show (recasting.text between.groups next ++ tail).length < _
  rw [List.length_cons] at hlength
  rw [List.length_append, List.length_append]
  omega

theorem BranchesPass.last (hrow : RowPasses recasting source reading after [] items cs left)
    (hleft : ∀ c ∈ left.head?, c ≠ '|') :
    BranchesPass recasting source reading after before
      (.ofBranches (.ofItems items :: before).reverse) cs left := by
  refine ⟨hrow.toPasses, ?_⟩
  intro reading' before' tail hverbose hbefore htail
  obtain ⟨items', hitems, hread⟩ :=
    hrow.reads reading' [] tail hverbose .nil fun c hc => (htail c hc).imp_right And.left
  refine ⟨.ofBranches (.ofItems items' :: before').reverse, ?_, .last hread fun c hc => ?_⟩
  · exact Ast.mayBecome_ofBranches (List.rel_reverse (.cons hitems.ofItems hbefore)) (by simp)
  · cases left with
    | nil =>
      rw [text_nil] at hc
      rcases htail c hc with rfl | ⟨-, hne⟩
      · decide
      · exact absurd rfl hne
    | cons d rest =>
      rcases hrow.ends d rfl with rfl | rfl
      · exact absurd rfl (hleft '|' rfl)
      · rw [text_close] at hc
        cases hc
        decide

/-! ### The induction -/

/-- Bounds come next where braces do. -/
theorem boundsNext_of_reads (h : Reads (.row reading items next out after left))
    (hverbose : reading.verbose = false) : BoundsNext next := by
  rintro rest rfl
  obtain ⟨_, _, min, max, greedy, others, -, hcount, -⟩ := h.count_of_head hverbose rfl
  obtain ⟨⟨_, _, after⟩, hbounds, -⟩ := Option.map_eq_some_iff.mp hcount
  obtain ⟨inner, rfl, hinner⟩ := parseBounds_eq_some hbounds
  exact ⟨inner, after, rfl, hinner⟩

/-- Braces come next in the text where they do in the pattern. -/
theorem RowPasses.bracesAlike (h : RowPasses recasting source reading after items out next left)
    (hnext : BoundsNext next) {tail : List Char} (htail : ∀ c ∈ tail.head?, c = ')' ∨ c = '|') :
    BracesAlike next (recasting.text reading.groups next ++ tail) := by
  intro hhead
  obtain ⟨rest, rfl⟩ := List.head?_eq_some_iff.mp (h.head '{' rfl (head?_of_append rfl htail hhead))
  obtain ⟨inner, after, rfl, hinner⟩ := hnext rest rfl
  have hshape : '{' :: (inner ++ '}' :: after) = ('{' :: (inner ++ ['}'])) ++ after := by simp
  rw [hshape, text_count]
  · cases inner <;> rfl
  · exact List.forall_mem_cons.mpr ⟨.inl rfl, List.forall_mem_append.mpr
      ⟨fun c hc => .inr (.inr (hinner c hc)), List.forall_mem_singleton.mpr (.inr (.inl rfl))⟩⟩

/-- No caret that is left out is repeated. -/
theorem not_repeated_caret
    (h : Reads (.row reading (.primitive (.anchor .caret) :: items) next out after left))
    (hverbose : reading.verbose = false)
    (hjoins : ∀ ast ∈ Ast.subtermsAll out, Joins recasting.folded source ast) :
    ∀ c ∈ next.head?, isCountStart c = false := by
  intro c hc
  obtain ⟨rest, rfl⟩ := List.head?_eq_some_iff.mp hc
  refine Bool.eq_false_iff.mpr fun hstart => ?_
  obtain ⟨item, others, min, max, greedy, _, hitems, -, hmem⟩ := h.count_of_head hverbose hstart
  obtain ⟨rfl, -⟩ := List.cons.inj hitems
  exact Bool.false_ne_true (hjoins _ hmem).symm

/-- Whatever is read of a pattern passes. -/
theorem carries_of_reads (recasting : Recasting) (hkept : recasting.kept = []) {goal : Goal} (h : Reads goal) :
    Carries recasting source goal := by
  induction h with
  | stop hshown hleft =>
    intro hverbose hlength _ _
    rw [Reading.skipBlank_eq hverbose] at hshown
    subst hshown
    exact rowPasses_stop hverbose hlength hleft
  | @flags reading inside after items out cs rest next left change hshown hopening hrow ih =>
    intro hverbose hlength hcs hjoins
    rw [Reading.skipBlank_eq hverbose] at hshown
    subst hshown
    obtain ⟨-, hplain, hunicode⟩ := hjoins _ (hrow.mem_latest (Ast.mem_subterms_self _))
    obtain ⟨rfl, hnumbers, letters, rfl, htext, hread⟩ :=
      text_flags recasting reading.groups hverbose hopening
    have hnext : next <:+ '(' :: '?' :: (letters ++ ')' :: next) :=
      ⟨'(' :: '?' :: (letters ++ [')']), by simp⟩
    refine (ih (verbose_getD hplain hverbose) hlength (hnext.trans hcs) hjoins).prepend '('
      ('?' :: (letters ++ [')'])) hnext hnumbers (htext.trans ?_) rfl fun tail _ => ?_
    · simp [Reading.flagged]
    · refine itemReads_flags (fun reading' hverbose' => ?_) hplain hunicode
      have hmore := hread reading' (recasting.text inside.groups next ++ tail) hverbose'
      simpa [Reading.flagged] using hmore
  | @group reading inside between after items out body cs rest opened next left kind hshown hopening
      hbody hrow ihbody ihrow =>
    intro hverbose hlength hcs hjoins
    rw [Reading.skipBlank_eq hverbose] at hshown
    subst hshown
    have hgroup := hrow.mem_latest
    obtain ⟨-, hchange, hunicode⟩ := hjoins _ (hgroup (Ast.mem_subterms_self _))
    obtain ⟨hinside, hinsideVerbose, hopenedLe, hopened, hnumbers, letters, htext, hread⟩ :=
      text_group recasting hkept hverbose hopening
    have hkind : (inside.grouped kind reading).verbose = false := by
      cases kind with
      | capturing index name => exact hverbose
      | flagged change => exact verbose_getD hchange hverbose
    have hpass := ihbody hkind (hinside.trans hlength)
      ((hopened.trans (List.suffix_cons _ _)).trans hcs)
      fun sub hsub => hjoins sub (hgroup (List.mem_cons_of_mem _ hsub))
    have hnext : next <:+ '(' :: rest :=
      ((List.suffix_cons _ _).trans (hpass.suffix.trans hopened)).trans (List.suffix_cons _ _)
    obtain ⟨written, hwritten⟩ := hpass.suffix_text
    rw [text_close] at hwritten
    have hrest := ihrow hverbose hpass.length (hnext.trans hcs) hjoins
    refine hrest.prepend '(' (('?' :: (letters ++ [':'])) ++ (written ++ [')'])) hnext
      ((hnumbers.trans hpass.numbers).trans (numbersIn_close next)) (htext.trans ?_) rfl
      fun tail htail => ?_
    · have hinner : recasting.text inside.groups opened
          = written ++ ')' :: recasting.text between.groups next := hwritten.symm
      rw [hinner]
      simp
    · refine itemReads_group (fun reading' hverbose' => ?_) (fun reading' hverbose' => ?_)
        (List.cons_ne_nil _ _) hchange hunicode
      · have hmore := hread reading' (written ++ ')' :: (recasting.text between.groups next ++ tail))
          hverbose'
        simpa using hmore
      · obtain ⟨body', hbody', hreads⟩ :=
          hpass.reads reading' [] tail hverbose' .nil fun c hc =>
            (htail c hc).imp_right fun hbar => ⟨hbar, List.cons_ne_nil _ _⟩
        have hinner : recasting.text (inside.grouped kind reading).groups opened
            = written ++ ')' :: recasting.text between.groups next := hwritten.symm
        rw [hinner, text_close, List.append_assoc] at hreads
        exact ⟨body', hbody', hreads⟩
  | @bracket reading after items out cs rest next left set hshown hclass hrow ih =>
    intro hverbose hlength hcs hjoins
    rw [Reading.skipBlank_eq hverbose] at hshown
    rw [hverbose] at hclass
    subst hshown
    obtain ⟨⟨hknown, hhides⟩, -, hread⟩ := hjoins _ (hrow.mem_latest (Ast.mem_subterms_self _))
    have hrest : source.drop (reading.placeOf ('[' :: rest) + 1) = rest := by
      rw [Reading.placeOf, hlength, ← List.drop_drop, drop_of_suffix hcs, List.drop_one,
        List.tail_cons]
    have hdrop := drop_classExtent hclass hknown (hrest ▸ hhides)
    have hnext : next <:+ '[' :: rest :=
      (hdrop ▸ List.drop_suffix _ _).trans (List.suffix_cons _ _)
    have hfolds : ∀ body, rest = body ++ ']' :: next → recasting.folded = true →
        isMisread body = false := fun body hbody hfolded => by
      have hcut := Part.cut_class hcs (Part.classExtent rest)
      have htake : rest.take (Part.classExtent rest) = body ++ [']'] := by
        have happend := List.take_append_drop (Part.classExtent rest) rest
        rw [hdrop] at happend
        exact List.append_cancel_right (happend.trans (hbody.trans (by simp)))
      have hfound := hread hfolded
      rw [Reading.placeOf, Reading.placeOf, hlength, ← hdrop, hcut, htake] at hfound
      simpa [betweenBrackets] using hfound
    obtain ⟨hnumbers, d, written, htext, hd, hitem⟩ :=
      text_class recasting reading.groups hclass hdrop hfolds ⟨reading.placeOf ('[' :: rest), reading.placeOf next⟩
    exact (ih hverbose hlength (hnext.trans hcs) hjoins).prepend d written hnext hnumbers htext hd
      fun tail _ => hitem _
  | @count reading after item items out cs shown next left min max greedy hshown hcount hitem hrow
      ih =>
    intro hverbose hlength hcs hjoins
    rw [Reading.skipBlank_eq hverbose] at hshown
    rw [hverbose] at hcount
    subst hshown
    obtain ⟨text, htext, -⟩ := plain_of_counted hcount (.inl rfl)
    have hnext : next <:+ cs := ⟨text, htext.symm⟩
    refine (ih hverbose hlength (hnext.trans hcs) hjoins).repeated hcount hitem ?_
    rintro rfl
    exact Bool.false_ne_true (hjoins _ (hrow.mem_latest (Ast.mem_subterms_self _))).2.symm
  | @piece reading after items out c cs rest next left piece hshown hmark hpiece hrow ih =>
    intro hverbose hlength hcs hjoins
    rw [Reading.skipBlank_eq hverbose] at hshown
    rw [hverbose] at hpiece
    subst hshown
    have hnext : next <:+ c :: rest := (@marksIn_piece source _ _ _ _ hmark hpiece).1
    have hpass := ih hverbose hlength (hnext.trans hcs) hjoins
    by_cases hcaret : c = '^'
    · subst hcaret
      cases hpiece
      have htext : recasting.text reading.groups ('^' :: rest) = _ := text_caret rest
      by_cases hkeep : rest.head? = some '^'
      · rw [if_pos hkeep] at htext
        exact hpass.prepend '^' [] hnext (numbersIn_caret rest) htext rfl fun tail _ => itemReads_primitive rfl rfl
      · rw [if_neg hkeep] at htext
        exact hpass.drop_caret htext
          (not_repeated_caret hrow hverbose fun ast hast => (hjoins ast hast).2)
    · have hbounds := boundsNext_of_reads hrow hverbose
      obtain ⟨hnumbers, d, written, htext, hd, hitem⟩ :=
        text_piece recasting reading.groups hmark hcaret hpiece hbounds
      exact hpass.prepend d written hnext hnumbers htext hd fun tail htail =>
        hitem _ (hpass.bracesAlike hbounds htail)
  | @branch reading between after before items ast cs rest left hrow hrest ihrow ihrest =>
    intro hverbose hlength hcs hjoins
    have hitems : Ast.subtermsAll items ⊆ ast.subterms := by
      refine List.Subset.trans (Ast.subterms_subset_ofItems items) fun sub hsub => ?_
      simpa [Goal.result, Ast.subtermsAll] using hrest.mem_subterms (List.mem_append_left _ hsub)
    have hfirst := ihrow hverbose hlength hcs fun sub hsub => hjoins sub (hitems hsub)
    exact .branch hfirst (ihrest hfirst.verbose hfirst.length
      (((List.suffix_cons _ _).trans hfirst.suffix).trans hcs) hjoins)
  | @last reading after before items cs left hrow hleft ih =>
    intro hverbose hlength hcs hjoins
    have hitems : Ast.subtermsAll items
        ⊆ (Ast.ofBranches (Ast.ofItems items :: before).reverse).subterms := by
      refine List.Subset.trans (Ast.subterms_subset_ofItems items) fun sub hsub => ?_
      exact Ast.subterms_subset_ofBranches _ (Ast.mem_subtermsAll.mpr ⟨_, by simp, hsub⟩)
    exact .last (ih hverbose hlength hcs fun sub hsub => hjoins sub (hitems hsub)) hleft

end Recasting

end Highlighter.Union
