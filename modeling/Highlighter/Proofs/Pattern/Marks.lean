import Highlighter.Proofs.Regex.Regular.Splitting
import Highlighter.Proofs.Union.Groups

/-!
# Groups, classes and flags where the splitter finds them

A `Mark` is a capturing group, a class or a flag group of a pattern, with the place where it stands.
`Part.marks` are those that the splitter finds, and `Ast.marks` are those that the reader of the
regular dialect finds. They are the same, in the same order (`marks_agree`).

Two things are asked of the pattern: it is not verbose, and no bracket hides the end of a class
(`hidesEnd`). There the splitter does go wrong: in `[a[]b](c)]` it takes the class to end before
the parenthesis.
-/

set_option autoImplicit false

namespace Highlighter.Pattern

open Regex Regex.Regular

/-- What groups, classes and flags there are in a pattern, and where. -/
inductive Mark where
  | capture (start : Nat)
  | bracket (place : Place)
  /-- Flags; `opens` says that they are those of a group that opens there. -/
  | flags (start : Nat) (change : FlagChange) (opens : Bool)
  deriving DecidableEq, Repr

namespace Part

/-- The parts of a text, with the places where they stand in a pattern of `length` characters that
ends with the text. -/
def placedIn (length : Nat) : List Char → List (Place × Part)
  | [] => []
  | c :: rest =>
    (⟨length - (c :: rest).length, length - (rest.drop (read c rest).2).length⟩,
      (read c rest).1) :: placedIn length (rest.drop (read c rest).2)
termination_by text => text.length
decreasing_by
  simp only [List.length_drop, List.length_cons]
  omega

/-- The mark that a part is, if it is one. -/
def mark? (place : Place) : Part → Option Mark
  | bracket _ => some (.bracket place)
  | flags letters => some (.flags place.start (flagChange true letters) false)
  | opening (.flagged letters) => some (.flags place.start (flagChange true letters) true)
  | opening kind => if kind.isCapturing then some (.capture place.start) else none
  | _ => none

/-- The marks of a text that ends a pattern of `length` characters. -/
def marksIn (length : Nat) (text : List Char) : List Mark :=
  (placedIn length text).filterMap fun found => found.2.mark? found.1

/-- The marks that the splitter finds in a pattern. -/
def marks (source : List Char) : List Mark := marksIn source.length source

theorem map_placedIn (length : Nat) (text : List Char) :
    (placedIn length text).map Prod.snd = split text := by
  fun_induction placedIn length text with
  | case1 => rw [split]; rfl
  | case2 c rest ih => rw [split, List.map_cons, ih]

variable {length : Nat} {cs : List Char} {c : Char}

theorem marksIn_nil (length : Nat) : marksIn length [] = [] := by
  rw [marksIn, placedIn]
  rfl

theorem marksIn_cons (length : Nat) (c : Char) (rest : List Char) :
    marksIn length (c :: rest)
      = ((read c rest).1.mark? ⟨length - (c :: rest).length,
          length - (rest.drop (read c rest).2).length⟩).toList ++
        marksIn length (rest.drop (read c rest).2) := by
  rw [marksIn, placedIn, List.filterMap_cons]
  split
  · rename_i heq
    rw [heq]
    rfl
  · rename_i mark heq
    rw [heq]
    rfl

/-- Characters that start no part of their own are no marks. -/
theorem marksIn_plain (h : isPlain c = true) (rest : List Char) :
    marksIn length (c :: rest) = marksIn length rest := by
  rw [marksIn_cons, read_plain h]
  show marksIn length (rest.drop (rest.takeWhile isPlain).length) = _
  cases rest with
  | nil => rfl
  | cons d rest =>
    by_cases hd : isPlain d = true
    · rw [marksIn_cons, read_plain hd, List.takeWhile_cons_of_pos hd, List.length_cons,
        List.drop_succ_cons]
      rfl
    · rw [List.takeWhile_cons_of_neg hd, List.length_nil, List.drop_zero]

theorem marksIn_plains {text : List Char} (h : ∀ c ∈ text, isPlain c = true) (rest : List Char) :
    marksIn length (text ++ rest) = marksIn length rest := by
  induction text with
  | nil => rfl
  | cons c text ih =>
    obtain ⟨hc, htext⟩ := List.forall_mem_cons.mp h
    rw [List.cons_append, marksIn_plain hc, ih htext]

theorem marksIn_close (rest : List Char) : marksIn length (')' :: rest) = marksIn length rest := by
  rw [marksIn_cons]
  rfl

theorem marksIn_caret (rest : List Char) : marksIn length ('^' :: rest) = marksIn length rest := by
  rw [marksIn_cons]
  rfl

theorem marksIn_escape {letter : Char} (h : letter.isDigit = false) (rest : List Char) :
    marksIn length ('\\' :: letter :: rest)
      = marksIn length (rest.drop (escapeExtent letter rest)) := by
  rw [marksIn_cons, read_escape h, List.drop_succ_cons]
  rfl

theorem marksIn_bracket (rest : List Char) :
    marksIn length ('[' :: rest)
      = .bracket ⟨length - ('[' :: rest).length, length - (rest.drop (classExtent rest)).length⟩ ::
        marksIn length (rest.drop (classExtent rest)) := by
  rw [marksIn_cons]
  rfl

theorem marksIn_opening {text rest : List Char} {part : Part} {mark : Mark}
    (hread : readOpening (text ++ rest) = (part, text.length))
    (hmark : ∀ place : Place, place.start = length - ('(' :: (text ++ rest)).length →
      part.mark? place = some mark) :
    marksIn length ('(' :: (text ++ rest)) = mark :: marksIn length rest := by
  have hread : read '(' (text ++ rest) = (part, text.length) := hread
  rw [marksIn_cons, hread, List.drop_left, hmark _ rfl]
  rfl

end Part

namespace Mark

/-- Whether a mark is a capturing group. -/
def isCapture : Mark → Bool
  | capture _ => true
  | _ => false

/-- Where a class stands. -/
def classPlace? : Mark → Option Place
  | bracket place => some place
  | _ => none

/-- Whether a mark turns a flag on. -/
def turnsOn (flag : Flag) : Mark → Bool
  | flags _ change _ => change.value? flag == some true
  | _ => false

end Mark

end Highlighter.Pattern

namespace Highlighter.Regex.Regular

open Pattern

/-- The mark that a group is. -/
def GroupKind.mark (start : Nat) : GroupKind → Mark
  | capturing _ _ => .capture start
  | flagged change => .flags start change true

theorem GroupKind.countP_mark (start : Nat) (kind : GroupKind) :
    [kind.mark start].countP Mark.isCapture = kind.captures := by
  cases kind <;> rfl

theorem Opens.mark {kind : GroupKind} {opening : Pattern.Opening} (h : Opens kind opening)
    (place : Place) : (Part.opening opening).mark? place = some (kind.mark place.start) := by
  cases h with
  | capturing index name hcapture =>
    cases opening <;> first
      | rfl
      | cases hcapture
  | flagged letters => rfl

namespace Ast

/-- The mark with which a pattern starts, if there is one. -/
def mark? : Ast → Option Mark
  | bracket _ place => some (.bracket place)
  | flags change place => some (.flags place.start change false)
  | group kind start _ => some (kind.mark start)
  | _ => none

/-- The marks of a pattern, in order. -/
def marks (ast : Ast) : List Mark := ast.subterms.filterMap mark?

/-- The marks of patterns one after the other. -/
def marksAll (items : List Ast) : List Mark := (subtermsAll items).filterMap mark?

theorem marksAll_append (items others : List Ast) :
    marksAll (items ++ others) = marksAll items ++ marksAll others := by
  rw [marksAll, subtermsAll_append, List.filterMap_append]
  rfl

theorem marksAll_singleton (ast : Ast) : marksAll [ast] = ast.marks := by
  rw [marksAll, subtermsAll, subtermsAll, List.append_nil]
  rfl

theorem marksAll_reverse_cons (item : Ast) (items : List Ast) :
    marksAll (item :: items).reverse = marksAll items.reverse ++ item.marks := by
  rw [List.reverse_cons, marksAll_append, marksAll_singleton]

theorem marks_ofItems (items : List Ast) : (ofItems items).marks = marksAll items := by
  cases items with
  | nil => rfl
  | cons item rest =>
    cases rest with
    | nil => exact (marksAll_singleton item).symm
    | cons second rest => rfl

theorem marks_ofBranches {branches : List Ast} (h : branches ≠ []) :
    (ofBranches branches).marks = marksAll branches := by
  cases branches with
  | nil => exact absurd rfl h
  | cons branch rest =>
    cases rest with
    | nil => exact (marksAll_singleton branch).symm
    | cons second rest => rfl

theorem marks_repetition (min : Nat) (max : Option Nat) (greedy : Bool) (body : Ast) :
    (repetition min max greedy body).marks = body.marks := by
  rw [marks, subterms]
  rfl

theorem marks_group (kind : GroupKind) (start : Nat) (body : Ast) :
    (group kind start body).marks = kind.mark start :: body.marks := by
  rw [marks, subterms]
  rfl

end Ast

/-! ### The reading and the splitting side by side -/

/-- What is asked of the parts of a pattern: flags do not make it verbose, the properties that a
class asks for exist, and no bracket hides the end of a class. -/
def Plain (source : List Char) : Ast → Prop
  | .flags change _ => change.value? .verbose ≠ some true
  | .group (.flagged change) _ _ => change.value? .verbose ≠ some true
  | .bracket set place => set.IsKnown ∧ hidesEnd (source.drop (place.start + 1)) = false
  | _ => True

/-- From `cs` up to `left`, splitting the pattern `source` finds the marks `new`. -/
structure Found (source : List Char) (reading after : Reading) (cs left : List Char)
    (new : List Mark) : Prop where
  verbose : after.verbose = false
  length : after.length = source.length
  suffix : left <:+ cs
  groups : after.groups = reading.groups + new.countP Mark.isCapture
  marks : ∀ seen, Seen cs seen →
    Part.marksIn source.length seen = new ++ Part.marksIn source.length left

namespace Found

variable {source cs next left : List Char} {reading inside after : Reading} {new : List Mark}

/-- What is found after something, and what that is. -/
theorem prepend {first : List Mark} (h : Found source inside after next left new)
    (hgroups : inside.groups = reading.groups + first.countP Mark.isCapture) (hnext : next <:+ cs)
    (hmarks : ∀ seen, Seen cs seen → ∃ seen', Seen next seen' ∧
      Part.marksIn source.length seen = first ++ Part.marksIn source.length seen') :
    Found source reading after cs left (first ++ new) where
  verbose := h.verbose
  length := h.length
  suffix := h.suffix.trans hnext
  groups := by rw [h.groups, hgroups, List.countP_append, Nat.add_assoc]
  marks seen hseen := by
    obtain ⟨seen', hseen', heq⟩ := hmarks seen hseen
    rw [heq, h.marks seen' hseen', List.append_assoc]

/-- The same where no braces come next. -/
theorem prepend_apart {first : List Mark} (h : Found source inside after next left new)
    (hgroups : inside.groups = reading.groups + first.countP Mark.isCapture) (hnext : next <:+ cs)
    (hbrace : cs.head? ≠ some '{')
    (hmarks : Part.marksIn source.length cs = first ++ Part.marksIn source.length next) :
    Found source reading after cs left (first ++ new) :=
  h.prepend hgroups hnext fun seen hseen =>
    ⟨next, .inl rfl, by rw [hseen.eq hbrace]; exact hmarks⟩

end Found

/-- What the splitter finds of what has been read, given that nothing in it is asked too much. -/
def Agrees (source : List Char) : Goal → Prop
  | .row reading items cs out after left =>
    reading.verbose = false → reading.length = source.length → cs <:+ source →
      (∀ ast ∈ Ast.subtermsAll out, Plain source ast) →
      ∃ new, Ast.marksAll out = Ast.marksAll items.reverse ++ new ∧
        Found source reading after cs left new
  | .branches reading before cs ast after left =>
    reading.verbose = false → reading.length = source.length → cs <:+ source →
      (∀ sub ∈ ast.subterms, Plain source sub) →
      ∃ new, ast.marks = Ast.marksAll before.reverse ++ new ∧
        Found source reading after cs left new

theorem verbose_getD {change : FlagChange} {verbose : Bool} (h : change.value? .verbose ≠ some true)
    (hverbose : verbose = false) : (change.value? .verbose).getD verbose = false := by
  cases hvalue : change.value? .verbose with
  | none => exact hverbose
  | some value =>
    cases value with
    | false => rfl
    | true => exact absurd hvalue h

/-- The latest item is among what has been read in the end. -/
theorem Reads.mem_latest {reading after : Reading} {latest : Ast} {items out : List Ast}
    {cs left : List Char} (h : Reads (.row reading (latest :: items) cs out after left)) :
    latest.subterms ⊆ Ast.subtermsAll out :=
  List.Subset.trans (List.subset_append_left _ _) h.mem_subterms

theorem Ast.mem_subterms_self (ast : Ast) : ast ∈ ast.subterms := by
  cases ast <;> first
    | exact List.mem_singleton_self _
    | exact List.mem_cons_self

/-- Flags are where the splitter finds them. -/
theorem marksIn_flags {source rest next : List Char} {reading inside : Reading}
    {change : FlagChange} (hverbose : reading.verbose = false)
    (hlength : reading.length = source.length)
    (hopening : parseOpening? reading rest = some (.flags change, inside, next)) :
    inside = reading ∧ next <:+ '(' :: rest ∧
      Part.marksIn source.length ('(' :: rest)
        = [.flags (reading.placeOf ('(' :: rest)) change false] ++
          Part.marksIn source.length next := by
  cases openingRead_of_parseOpening hverbose hopening with
  | @flags letters hcs hletters hinside =>
    have hshape : rest = ('?' :: (letters ++ [')'])) ++ next := by simp [hcs]
    have hread : Part.readOpening (('?' :: (letters ++ [')'])) ++ next)
        = (.flags letters, ('?' :: (letters ++ [')'])).length) := by
      rw [← hshape, hcs, readOpening_flags (.inr rfl) hletters]
      simp
    refine ⟨hinside, ⟨'(' :: ('?' :: (letters ++ [')'])), by rw [hshape]; rfl⟩, ?_⟩
    rw [hshape]
    refine Part.marksIn_opening hread fun place hplace => ?_
    rw [Part.mark?, hplace, Reading.placeOf, hlength]

/-- A group opens where the splitter finds that it does. -/
theorem marksIn_group {source rest opened : List Char} {reading inside : Reading}
    {kind : GroupKind} (hverbose : reading.verbose = false)
    (hlength : reading.length = source.length)
    (hopening : parseOpening? reading rest = some (.group kind, inside, opened)) :
    inside.length = source.length ∧
      inside.groups = reading.groups + kind.captures ∧ opened <:+ '(' :: rest ∧
      Part.marksIn source.length ('(' :: rest)
        = [kind.mark (reading.placeOf ('(' :: rest))] ++ Part.marksIn source.length opened := by
  cases openingRead_of_parseOpening hverbose hopening with
  | @group text _ opening hcs hread hopens hinside _ hgroups =>
    subst hcs
    refine ⟨hinside.trans hlength, hgroups, ⟨'(' :: text, rfl⟩, ?_⟩
    refine Part.marksIn_opening hread fun place hplace => ?_
    rw [hopens.mark, hplace, Reading.placeOf, hlength]

/-- What stands inside a text at its end is found by counting from its start. -/
theorem drop_of_suffix {source cs : List Char} (h : cs <:+ source) :
    source.drop (source.length - cs.length) = cs :=
  (List.suffix_iff_eq_drop.mp h).symm

/-- A class stands where the splitter finds it. -/
theorem marksIn_class {source rest next : List Char} {reading : Reading} {set : ClassSet}
    (hlength : reading.length = source.length) (hcs : '[' :: rest <:+ source)
    (hclass : parseClass? false rest = some (set, next))
    (hplain : Plain source
      (.bracket set ⟨reading.placeOf ('[' :: rest), reading.placeOf next⟩)) :
    next <:+ '[' :: rest ∧ Part.marksIn source.length ('[' :: rest)
      = [.bracket ⟨reading.placeOf ('[' :: rest), reading.placeOf next⟩] ++
        Part.marksIn source.length next := by
  obtain ⟨hknown, hhides⟩ := hplain
  have hrest : source.drop (reading.placeOf ('[' :: rest) + 1) = rest := by
    rw [Reading.placeOf, hlength, ← List.drop_drop, drop_of_suffix hcs, List.drop_one,
      List.tail_cons]
  have hdrop := drop_classExtent hclass hknown (hrest ▸ hhides)
  refine ⟨(hdrop ▸ List.drop_suffix _ _).trans (List.suffix_cons _ _), ?_⟩
  rw [Part.marksIn_bracket, hdrop, Reading.placeOf, Reading.placeOf, hlength]
  rfl

/-- A piece is no mark. The splitter may take braces after it along. -/
theorem marksIn_piece {source rest next : List Char} {c : Char} {piece : Primitive}
    (hmark : isMark c = false) (hpiece : parsePrimitive? false (c :: rest) = some (piece, next)) :
    next <:+ c :: rest ∧ ∃ seen, Seen next seen ∧
      Part.marksIn source.length (c :: rest) = Part.marksIn source.length seen := by
  unfold parsePrimitive? at hpiece
  split at hpiece
  · cases hpiece
  · rename_i others heq
    cases heq
    cases rest with
    | nil => cases hpiece
    | cons letter rest =>
      obtain ⟨hdigit, hseen⟩ := seen_of_parseEscape hpiece
      obtain ⟨d, text, heq⟩ := takes_parseEscape _ _ _ hpiece
      exact ⟨⟨'\\' :: d :: text, by rw [heq]; rfl⟩, _, hseen, Part.marksIn_escape hdigit rest⟩
  · rename_i heq
    cases heq
    cases hpiece
    exact ⟨List.suffix_cons _ _, _, .inl rfl, Part.marksIn_plain rfl _⟩
  · rename_i heq
    cases heq
    cases hpiece
    exact ⟨List.suffix_cons _ _, _, .inl rfl, Part.marksIn_caret _⟩
  · rename_i heq
    cases heq
    cases hpiece
    exact ⟨List.suffix_cons _ _, _, .inl rfl, Part.marksIn_plain rfl _⟩
  · rename_i hslash hdot hcaret hdollar heq
    cases heq
    cases hpiece
    have hslash : c ≠ '\\' := hslash
    have hcaret : c ≠ '^' := hcaret
    have hne : ∀ d, isMark d = true → c ≠ d := by
      rintro d hd rfl
      exact absurd (hmark.symm.trans hd) Bool.false_ne_true
    have hplain : Part.isPlain c = true := by
      simp [Part.isPlain, hslash, hcaret, hne '[' rfl, hne '(' rfl, hne ')' rfl]
    exact ⟨List.suffix_cons _ _, _, .inl rfl, Part.marksIn_plain hplain _⟩

/-- Whatever is read, the splitter finds the marks of it. The induction is on the reading. -/
theorem agrees_of_reads (source : List Char) {goal : Goal} (h : Reads goal) :
    Agrees source goal := by
  induction h with
  | @stop reading items cs left hshown hleft =>
    intro hverbose hlength hcs hplain
    rw [Reading.skipBlank_eq hverbose] at hshown
    subst hshown
    refine ⟨[], (List.append_nil _).symm, hverbose, hlength, List.suffix_refl _, rfl, ?_⟩
    intro seen hseen
    rw [hseen.eq fun hhead => by rcases hleft _ hhead with h | h <;> cases h]
    rfl
  | @flags reading inside after items out cs rest next left change hshown hopening hrow ih =>
    intro hverbose hlength hcs hplain
    rw [Reading.skipBlank_eq hverbose] at hshown
    subst hshown
    have hchange := hplain _ (hrow.mem_latest (Ast.mem_subterms_self _))
    obtain ⟨rfl, hnext, hmarks⟩ := marksIn_flags hverbose hlength hopening
    obtain ⟨new, hnew, hfound⟩ :=
      ih (verbose_getD hchange hverbose) hlength (hnext.trans hcs) hplain
    refine ⟨_, ?_, hfound.prepend_apart rfl hnext (by simp) hmarks⟩
    rw [hnew, Ast.marksAll_reverse_cons, List.append_assoc]
    rfl
  | @group reading inside between after items out body cs rest opened next left kind hshown hopening
      hbody hrow ihbody ihrow =>
    intro hverbose hlength hcs hplain
    rw [Reading.skipBlank_eq hverbose] at hshown
    subst hshown
    have hgroup := hrow.mem_latest
    have hkind : (inside.grouped kind reading).verbose = false := by
      cases kind with
      | capturing index name => exact hverbose
      | flagged change => exact verbose_getD (hplain _ (hgroup (Ast.mem_subterms_self _))) hverbose
    obtain ⟨hinside, hcaptured, hopened, hmarks⟩ := marksIn_group hverbose hlength hopening
    obtain ⟨inner, hinner, hbody⟩ := ihbody hkind hinside (hopened.trans hcs)
      fun sub hsub => hplain sub (hgroup (List.mem_cons_of_mem _ hsub))
    have hnext : next <:+ '(' :: rest :=
      (List.suffix_cons _ _).trans (hbody.suffix.trans hopened)
    obtain ⟨new, hnew, hfound⟩ := ihrow hverbose hbody.length (hnext.trans hcs) hplain
    have hmarks : Part.marksIn source.length ('(' :: rest)
        = ([kind.mark (reading.placeOf ('(' :: rest))] ++ inner) ++
          Part.marksIn source.length next := by
      rw [hmarks, hbody.marks opened (.inl rfl), Part.marksIn_close, List.append_assoc]
    refine ⟨_, ?_, hfound.prepend_apart ?_ hnext (by simp) hmarks⟩
    · rw [hnew, Ast.marksAll_reverse_cons, Ast.marks_group, hinner, List.append_assoc]
      rfl
    · rw [List.countP_append, kind.countP_mark, ← Nat.add_assoc, ← hcaptured]
      exact hbody.groups
  | @bracket reading after items out cs rest next left set hshown hclass hrow ih =>
    intro hverbose hlength hcs hplain
    rw [Reading.skipBlank_eq hverbose] at hshown
    rw [hverbose] at hclass
    subst hshown
    obtain ⟨hnext, hmarks⟩ := marksIn_class hlength hcs hclass
      (hplain _ (hrow.mem_latest (Ast.mem_subterms_self _)))
    obtain ⟨new, hnew, hfound⟩ := ih hverbose hlength (hnext.trans hcs) hplain
    refine ⟨_, ?_, hfound.prepend_apart rfl hnext (by simp) hmarks⟩
    rw [hnew, Ast.marksAll_reverse_cons, List.append_assoc]
    rfl
  | @count reading after item items out cs shown next left min max greedy hshown hcount hitem hrow
      ih =>
    intro hverbose hlength hcs hplain
    rw [Reading.skipBlank_eq hverbose] at hshown
    rw [hverbose] at hcount
    subst hshown
    obtain ⟨text, htext, hchars⟩ := plain_of_counted hcount (.inl rfl)
    have hnext : next <:+ cs := ⟨text, htext.symm⟩
    obtain ⟨new, hnew, hfound⟩ := ih hverbose hlength (hnext.trans hcs) hplain
    refine ⟨[] ++ new, ?_, hfound.prepend rfl hnext fun seen hseen => ?_⟩
    · rw [hnew, Ast.marksAll_reverse_cons, Ast.marksAll_reverse_cons, Ast.marks_repetition]
      rfl
    · obtain ⟨text, rfl, hchars⟩ := plain_of_counted hcount hseen
      exact ⟨next, .inl rfl, Part.marksIn_plains hchars next⟩
  | @piece reading after items out c cs rest next left piece hshown hmark hpiece hrow ih =>
    intro hverbose hlength hcs hplain
    rw [Reading.skipBlank_eq hverbose] at hshown
    rw [hverbose] at hpiece
    subst hshown
    obtain ⟨hnext, seen', hseen', hmarks⟩ := marksIn_piece hmark hpiece
    obtain ⟨new, hnew, hfound⟩ := ih hverbose hlength (hnext.trans hcs) hplain
    refine ⟨[] ++ new, ?_, hfound.prepend rfl hnext fun seen hseen => ⟨seen', hseen', ?_⟩⟩
    · rw [hnew, Ast.marksAll_reverse_cons]
      exact List.append_assoc _ _ _
    · have hbrace : c ≠ '{' := by
        rintro rfl
        cases hmark
      rw [hseen.eq fun hhead => hbrace (Option.some.inj hhead)]
      exact hmarks
  | @branch reading between after before items ast cs rest left hrow hrest ihrow ihrest =>
    intro hverbose hlength hcs hplain
    have hitems : Ast.subtermsAll items ⊆ ast.subterms := by
      refine List.Subset.trans (Ast.subterms_subset_ofItems items) fun sub hsub => ?_
      simpa [Goal.result, Ast.subtermsAll] using hrest.mem_subterms (List.mem_append_left _ hsub)
    obtain ⟨first, hfirst, hrowFound⟩ :=
      ihrow hverbose hlength hcs fun sub hsub => hplain sub (hitems hsub)
    have hnext : rest <:+ cs := (List.suffix_cons _ _).trans hrowFound.suffix
    obtain ⟨new, hnew, hfound⟩ :=
      ihrest hrowFound.verbose hrowFound.length (hnext.trans hcs) hplain
    refine ⟨first ++ new, ?_, hfound.prepend hrowFound.groups hnext fun seen hseen => ?_⟩
    · rw [hnew, Ast.marksAll_reverse_cons, Ast.marks_ofItems, hfirst, List.append_assoc]
      rfl
    · refine ⟨rest, .inl rfl, ?_⟩
      rw [hrowFound.marks seen hseen, Part.marksIn_plain rfl]
  | @last reading after before items cs left hrow hleft ih =>
    intro hverbose hlength hcs hplain
    have hne : (Ast.ofItems items :: before).reverse ≠ [] := by simp
    have hitems : Ast.subtermsAll items
        ⊆ (Ast.ofBranches (Ast.ofItems items :: before).reverse).subterms := by
      refine List.Subset.trans (Ast.subterms_subset_ofItems items) fun sub hsub => ?_
      exact Ast.subterms_subset_ofBranches _
        (Ast.mem_subtermsAll.mpr ⟨_, by simp, hsub⟩)
    obtain ⟨new, hnew, hfound⟩ := ih hverbose hlength hcs fun sub hsub => hplain sub (hitems hsub)
    refine ⟨new, ?_, hfound⟩
    rw [Ast.marks_ofBranches hne, Ast.marksAll_reverse_cons, Ast.marks_ofItems, hnew]
    rfl

end Highlighter.Regex.Regular

namespace Highlighter.Pattern

open Regex Regex.Regular

/-! ### What the parts say about the pattern -/

/-- The text of a part of a pattern. -/
def cut (source : List Char) (place : Place) : List Char :=
  (source.take place.stop).drop place.start

namespace Part

/-- Whether a part is a class. -/
def isBracket : Part → Bool
  | bracket _ => true
  | _ => false

/-- What only depends on the marks that parts are can be counted by the marks. -/
theorem countP_split {ofPart : Part → Bool} {ofMark : Mark → Bool}
    (h : ∀ part place, ofPart part = ((part.mark? place).map ofMark).getD false)
    (source : List Char) : (split source).countP ofPart = (marks source).countP ofMark := by
  rw [← map_placedIn source.length, List.countP_map, marks, marksIn, List.countP_filterMap]
  exact List.countP_congr fun found _ => by rw [Function.comp_apply, h found.2 found.1]

theorem captureCount_split (source : List Char) :
    Union.captureCount (split source) = (marks source).countP Mark.isCapture := by
  have hcount : ∀ parts, Union.captureCount parts = parts.countP Union.captures := by
    intro parts
    induction parts with
    | nil => rfl
    | cons part rest ih => rw [Union.captureCount_cons, List.countP_cons, ih]
  rw [hcount]
  refine countP_split (fun part place => ?_) source
  cases part with
  | opening kind => cases kind <;> rfl
  | _ => rfl

theorem lookup_append_ofLetter (flag : Flag) (c : Char) (on : Bool) (rest : FlagChange) :
    FlagChange.value? ((Flag.ofLetter? c).toList.map (·, on) ++ rest) flag
      = if Flag.ofLetter? c = some flag then some on else rest.value? flag := by
  cases hletter : Flag.ofLetter? c with
  | none => rfl
  | some found =>
    show List.lookup flag ((found, on) :: rest) = _
    rw [List.lookup_cons]
    by_cases hflag : found = flag
    · subst hflag
      simp
    · have hbeq : (flag == found) = false := beq_eq_false_iff_ne.mpr (Ne.symm hflag)
      simp [hbeq, hflag, FlagChange.value?]

/-- After a hyphen, flags are only turned off. -/
theorem value_flagChange_false (flag : Flag) (letters : List Char) :
    (flagChange false letters).value? flag ≠ some true := by
  induction letters with
  | nil => exact nofun
  | cons c rest ih =>
    by_cases hc : c = '-'
    · subst hc
      exact ih
    · rw [flagChange, lookup_append_ofLetter]
      · split
        · exact fun h => Bool.false_ne_true (Option.some.inj h)
        · exact ih
      · exact hc

/-- A flag is turned on by its letter before a hyphen. -/
theorem value_flagChange {flag : Flag} {letter : Char}
    (hletter : ∀ c, Flag.ofLetter? c = some flag ↔ c = letter) (letters : List Char) :
    (flagChange true letters).value? flag = some true
      ↔ letter ∈ letters.takeWhile (· != '-') := by
  have hhyphen : letter ≠ '-' := by
    rintro rfl
    exact absurd ((hletter '-').mpr rfl) nofun
  induction letters with
  | nil => exact ⟨nofun, nofun⟩
  | cons c rest ih =>
    by_cases hc : c = '-'
    · subst hc
      exact ⟨fun h => absurd h (value_flagChange_false flag rest), nofun⟩
    · have htake : (c :: rest).takeWhile (· != '-') = c :: rest.takeWhile (· != '-') :=
        List.takeWhile_cons_of_pos (bne_iff_ne.mpr hc)
      rw [flagChange, lookup_append_ofLetter, htake, List.mem_cons]
      · split
        · rename_i hfound
          exact ⟨fun _ => .inl ((hletter c).mp hfound).symm, fun _ => rfl⟩
        · rename_i hfound
          have hne : letter ≠ c := fun heq => hfound ((hletter c).mpr heq.symm)
          exact ih.trans ⟨.inr, fun h => h.resolve_left hne⟩
      · exact hc

theorem ofLetter_multiline (c : Char) : Flag.ofLetter? c = some .multiline ↔ c = 'm' := by
  constructor
  · intro h
    unfold Flag.ofLetter? at h
    split at h <;> first
      | rfl
      | cases h
  · rintro rfl
    rfl

theorem any_setsMultiline (source : List Char) :
    (split source).any setsMultiline = (marks source).any (Mark.turnsOn .multiline) := by
  have hletters : ∀ letters : List Char, (letters.takeWhile (· != '-')).contains 'm'
      = ((flagChange true letters).value? .multiline == some true) := fun letters => by
    rw [Bool.eq_iff_iff, List.contains_iff_mem, beq_iff_eq]
    exact (value_flagChange ofLetter_multiline letters).symm
  have hcount : (split source).countP setsMultiline
      = (marks source).countP (Mark.turnsOn .multiline) := by
    refine countP_split (fun part place => ?_) source
    cases part with
    | flags letters => exact hletters letters
    | opening kind =>
      cases kind with
      | flagged letters => exact hletters letters
      | _ => rfl
    | _ => rfl
  rw [Bool.eq_iff_iff, List.any_eq_true, List.any_eq_true, ← List.countP_pos_iff,
    ← List.countP_pos_iff, hcount]

/-! ### The texts of classes -/

theorem isBracket_readDirective (cs : List Char) : (readDirective cs).1.isBracket = false := by
  unfold readDirective
  split
  · rfl
  · rfl
  · rfl
  · rfl
  · dsimp only
    split <;> rfl

theorem isBracket_readOpening (cs : List Char) : (readOpening cs).1.isBracket = false := by
  unfold readOpening
  split
  · rfl
  · split
    · exact isBracket_readDirective _
    · rfl

theorem isBracket_readEscape (cs : List Char) : (readEscape cs).1.isBracket = false := by
  unfold readEscape
  split
  · rfl
  · split
    · dsimp only
      split <;> rfl
    · rfl

theorem isBracket_read {c : Char} (h : c ≠ '[') (rest : List Char) :
    (read c rest).1.isBracket = false := by
  unfold read
  split
  · exact absurd rfl h
  · exact isBracket_readEscape rest
  · exact isBracket_readOpening rest
  · rfl
  · rfl
  · rfl

/-- A class is cut out of the pattern that ends with it and what follows. -/
theorem cut_class {source rest : List Char} (h : '[' :: rest <:+ source) (extent : Nat) :
    cut source ⟨source.length - ('[' :: rest).length, source.length - (rest.drop extent).length⟩
      = '[' :: rest.take extent := by
  have hlength := h.length_le
  have htake : source.length - (rest.drop extent).length - (source.length - ('[' :: rest).length)
      = min extent rest.length + 1 := by
    simp only [List.length_drop, List.length_cons] at *
    omega
  rw [cut, List.drop_take, drop_of_suffix h, htake, List.take_succ_cons,
    ← List.take_eq_take_min]

/-- The classes of a text that ends a pattern are cut out of the pattern. -/
theorem brackets_split {source text : List Char} (h : text <:+ source) :
    (split text).filter isBracket
      = ((marksIn source.length text).filterMap Mark.classPlace?).map
          fun place => bracket (cut source place) := by
  fun_induction split text with
  | case1 => rw [marksIn_nil]; rfl
  | case2 c rest ih =>
    have hleft : rest.drop (read c rest).2 <:+ source :=
      (List.drop_suffix _ _).trans ((List.suffix_cons _ _).trans h)
    rw [marksIn_cons, List.filterMap_append, List.map_append, ← ih hleft]
    by_cases hc : c = '['
    · subst hc
      have hcut := cut_class h (classExtent rest)
      have hread : (read '[' rest).1 = bracket ('[' :: rest.take (classExtent rest)) := rfl
      rw [List.filter_cons_of_pos (by rw [hread]; rfl), hread, ← hcut]
      rfl
    · have hbracket := isBracket_read hc rest
      rw [List.filter_cons_of_neg (by rw [hbracket]; exact Bool.false_ne_true)]
      cases hpart : (read c rest).1 with
      | bracket text => rw [hpart] at hbracket; cases hbracket
      | opening kind => cases kind <;> rfl
      | _ => rfl

end Part

end Highlighter.Pattern

namespace Highlighter.Union

open Pattern

theorem brackets_resolve (opened : Nat) (parts : List Part) :
    (resolve opened parts).filter Part.isBracket = parts.filter Part.isBracket := by
  have hcode : ∀ number, (codePart number).isBracket = false := by
    intro number
    unfold codePart
    split <;> rfl
  fun_induction resolve opened parts with
  | case1 => rfl
  | case2 _ _ _ ih => exact ih
  | case3 opened number rest ih =>
    rw [List.filter_cons_of_neg, ih]
    · rfl
    · split
      · exact Bool.false_ne_true
      · rw [hcode]
        exact Bool.false_ne_true
  | case4 opened part rest _ _ ih => rw [List.filter_cons, List.filter_cons, ih]

theorem brackets_renumber (base : Nat) (kept : List Nat) (opened : Nat) (parts : List Part) :
    (renumber base kept opened parts).filter Part.isBracket = parts.filter Part.isBracket := by
  fun_induction renumber base kept opened parts with
  | case1 => rfl
  | case2 opened kind rest hcaptures ih =>
    rw [List.filter_cons_of_neg, ih]
    · rfl
    · split <;> exact Bool.false_ne_true
  | case3 _ _ _ _ ih => exact ih
  | case4 _ _ _ ih => exact ih
  | case5 opened part rest _ _ ih => rw [List.filter_cons, List.filter_cons, ih]

/-- Rewriting a member leaves its classes as they are. -/
theorem brackets_member (base : Nat) (parts : List Part) :
    (dropCarets (member base parts).1).filter Part.isBracket = parts.filter Part.isBracket := by
  have hcarets : ∀ parts, (dropCarets parts).filter Part.isBracket
      = parts.filter Part.isBracket := by
    intro parts
    fun_induction dropCarets parts with
    | case1 _ ih => exact ih
    | case2 _ _ ih => exact ih
    | case3 part rest _ _ ih => rw [List.filter_cons, List.filter_cons, ih]
    | case4 => rfl
  rw [hcarets, member, brackets_renumber, brackets_resolve]

end Highlighter.Union

namespace Highlighter.Pattern

open Regex Regex.Regular

theorem plain_of_marks {source : List Char} {ast : Ast} {meaning : Node × Modes}
    (hmeaning : ast.meaning? .initial = some meaning)
    (hverbose : ∀ mark ∈ ast.marks, mark.turnsOn .verbose = false)
    (hclasses : ∀ place, .bracket place ∈ ast.marks →
      hidesEnd (source.drop (place.start + 1)) = false) :
    ∀ sub ∈ ast.subterms, Plain source sub := by
  intro sub hsub
  have hmem : ∀ {mark : Mark}, sub.mark? = some mark → mark ∈ ast.marks := fun hmark =>
    List.mem_filterMap.mpr ⟨sub, hsub, hmark⟩
  have hflags : ∀ {start : Nat} {change : FlagChange} {opens : Bool},
      sub.mark? = some (.flags start change opens) → change.value? .verbose ≠ some true := by
    intro start change opens hmark hvalue
    have hoff := hverbose _ (hmem hmark)
    rw [Mark.turnsOn, hvalue] at hoff
    cases hoff
  cases sub with
  | flags change place => exact hflags rfl
  | group kind start body =>
    cases kind with
    | capturing index name => trivial
    | flagged change => exact hflags rfl
  | bracket set place =>
    refine ⟨?_, hclasses place (hmem rfl)⟩
    obtain ⟨modes, found, hfound⟩ := Ast.exists_meaning_of_mem ast hmeaning hsub
    rw [Ast.meaning?] at hfound
    obtain ⟨members, hmembers, -⟩ := Option.map_eq_some_iff.mp hfound
    exact ClassSet.isKnown_of_meaning hmembers
  | _ => trivial

/-- The splitter reads a pattern as the regular dialect does: it finds the same groups, classes and
flags at the same places. So it counts the groups right, and knows whether the anchors hold at line
ends; and what is rewritten in a union keeps every class letter by letter. -/
theorem marks_agree {source : List Char} {ast : Ast} {groups : Nat}
    (hparse : parse? source = some (ast, groups))
    (hmeaning : (ast.meaning? .initial).isSome = true)
    (hverbose : ∀ mark ∈ ast.marks, mark.turnsOn .verbose = false)
    (hclasses : ∀ place, .bracket place ∈ ast.marks →
      hidesEnd (source.drop (place.start + 1)) = false) :
    Part.marks source = ast.marks ∧ Union.captureCount (Part.split source) = groups ∧
      (∀ pattern : Pattern, pattern.source.toList = source → (pattern.isMultiline = true
        ↔ pattern.multiline = true ∨ ∃ mark ∈ ast.marks, mark.turnsOn .multiline = true)) ∧
      ∀ base, (Union.dropCarets (Union.member base (Part.split source)).1).filter Part.isBracket
        = (ast.marks.filterMap Mark.classPlace?).map fun place => .bracket (cut source place) := by
  obtain ⟨meaning, hmeaning⟩ := Option.isSome_iff_exists.mp hmeaning
  have hplain := plain_of_marks hmeaning hverbose hclasses
  obtain ⟨after, hreads, hgroups, -⟩ := reads_of_parse? hparse
  obtain ⟨new, hnew, hfound⟩ :=
    agrees_of_reads source hreads rfl rfl (List.suffix_refl source) hplain
  have hmarks : Part.marks source = ast.marks := by
    rw [Part.marks, hfound.marks source (.inl rfl), Part.marksIn_nil, List.append_nil, hnew]
    rfl
  refine ⟨hmarks, ?_, ?_, ?_⟩
  · rw [Part.captureCount_split, hmarks, hnew, ← hgroups, hfound.groups]
    exact (Nat.zero_add _).symm
  · rintro pattern rfl
    rw [Pattern.isMultiline, Pattern.parts, Part.any_setsMultiline, hmarks, Bool.or_eq_true,
      List.any_eq_true]
  · intro base
    rw [Union.brackets_member, Part.brackets_split (List.suffix_refl source), ← hmarks]
    rfl

/-- A class that opens with a closing bracket and has another one nested in it. -/
theorem marks_agree_nested : ∃ ast groups,
    parse? "([]a[^b]]+)(?m:x)".toList = some (ast, groups) ∧
      Part.marks "([]a[^b]]+)(?m:x)".toList = ast.marks ∧
      ast.marks = [.capture 0, .bracket ⟨1, 9⟩, .flags 11 [(.multiline, true)] true] := by
  refine ⟨_, _, rfl, (marks_agree rfl (by decide) (by decide) ?_).1, rfl⟩
  intro place hplace
  have hmem : Mark.bracket place ∈
      [.capture 0, .bracket ⟨1, 9⟩, .flags 11 [(.multiline, true)] true] := hplace
  have hfirst : place = ⟨1, 9⟩ := by simpa using hmem
  subst hfirst
  decide

end Highlighter.Pattern
