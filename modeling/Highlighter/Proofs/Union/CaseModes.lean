import Highlighter.Proofs.Pattern.Folded
import Highlighter.Proofs.Regex.Ignoring
import Highlighter.Proofs.Union.FirstMatch

/-!
# Each member of a union keeps its letter case

Patterns of which some ignore letter case are joined in one of three
ways: letter case counts in the whole union, or in none of it, or it is
spelt out in the members that ignore it. Whichever it is, the token at
a position stops with the match of the first pattern that matches
there, with letter case or without it as that pattern asks for
(`tokenAt_ownCase`).

This is about simple patterns (`Expr.IsSimple`) whose classes list
characters and ranges. Their matchers never give up, and both dialects
match them alike. Where letter case is spelt out, no class may open
with a closing bracket that a hyphen joins to another member
(`IsFoldable`): it would be spelt as a range.
-/

set_option autoImplicit false

namespace Highlighter.Union

open Pattern Regex

/-! ### Simple members -/

section Simple

variable {isClass : List Char → Prop}

theorem isSimple_renumber (base : Nat) (kept : List Nat) {expr : Expr}
    (h : expr.IsSimple isClass) (opened : Nat) :
    (expr.renumber base kept opened).IsSimple isClass := by
  induction expr generalizing opened with
  | capture body ih =>
    rw [Expr.renumber]
    split <;> exact ih h _
  | bare body ih => exact ih h _
  | repeated count greedy body ih => exact ih h _
  | seq first second ihFirst ihSecond => exact ⟨ihFirst h.1 _, ihSecond h.2 _⟩
  | alt first second ihFirst ihSecond => exact ⟨ihFirst h.1 _, ihSecond h.2 _⟩
  | wordBoundary => exact h.elim
  | ignoring body => exact h.elim
  | look behind negated body => exact h.elim
  | backref number => exact h.elim
  | _ => exact h

theorem isSimple_afterStart {expr : Expr} (h : expr.IsSimple isClass) :
    expr.afterStart.IsSimple isClass := by
  induction expr with
  | alt first second ihFirst => exact ⟨ihFirst h.1, h.2⟩
  | _ => exact ⟨trivial, h⟩

namespace Member

variable {member : Member}

theorem isSimple_expr (h : member.body.IsSimple isClass) : member.expr.IsSimple isClass := by
  obtain ⟨lead, body, ignoreCase⟩ := member
  cases lead with
  | doubled => exact isSimple_afterStart h
  | _ => exact h

theorem isSimple_joined (h : member.body.IsSimple isClass) (base : Nat) :
    (member.joined base).IsSimple isClass :=
  isSimple_renumber base _ (isSimple_expr h) 0

end Member

end Simple

/-- Branches are easy together. -/
theorem isEasy_branched {exprs : List Expr} (h : ∀ expr ∈ exprs, expr.isEasy = true) :
    (branched exprs).isEasy = true := by
  induction exprs with
  | nil => rfl
  | cons expr exprs ih =>
    obtain ⟨hexpr, hexprs⟩ := List.forall_mem_cons.mp h
    exact Bool.and_eq_true_iff.mpr ⟨hexpr, ih hexprs⟩

/-! ### Members that ignore letter case anyway -/

/-- Cutting runs makes no part cased. -/
theorem isCased_fine {parts : List Part} (h : parts.any Part.isCased = false) :
    ∀ part ∈ Part.fine parts, part.isCased = false := by
  intro part hpart
  obtain ⟨whole, hwhole, hpart⟩ := List.mem_flatMap.mp hpart
  have hcased := Bool.eq_false_iff.mpr (List.any_eq_false.mp h whole hwhole)
  rcases fineOf_cases whole with heq | ⟨text, heq, rfl⟩
  · rw [heq, List.mem_singleton] at hpart
    rw [hpart]
    exact hcased
  · rw [heq] at hpart
    obtain ⟨c, hc, rfl⟩ := List.mem_map.mp hpart
    have hc : Unicode.isCased c = false :=
      Bool.eq_false_iff.mpr (List.any_eq_false.mp hcased c hc)
    rw [Part.isCased, List.any_cons, hc]
    rfl

namespace Member

variable {member : Member}

/-- No part is cased that asserts the start. -/
theorem isCased_parts_expr (h : member.Valid)
    (hcased : member.pattern.parts.any Part.isCased = false) :
    ∀ part ∈ member.expr.parts, part.isCased = false := by
  have hparts := isCased_fine hcased
  rw [fine_parts h] at hparts
  have hbody : ∀ part ∈ member.body.parts, part.isCased = false :=
    fun part hpart => hparts part (List.mem_append_right _ hpart)
  obtain ⟨lead, body, ignoreCase⟩ := member
  cases lead with
  | doubled =>
    show ∀ part ∈ body.afterStart.parts, part.isCased = false
    rw [Expr.parts_afterStart]
    exact List.forall_mem_cons.mpr ⟨rfl, hbody⟩
  | _ => exact hbody

/-- A member without cased parts matches the same either way. -/
theorem stop?_of_not_isCased (h : member.Valid) (hlisting : member.body.IsSimple IsListing)
    (hcased : member.pattern.parts.any Part.isCased = false) {sense : Sense}
    (hsense : ReadsLists sense) (pos : Nat) :
    member.expr.stop? sense true pos = member.expr.stop? sense false pos :=
  congrArg (fun ways => ways.head?.map Prod.fst)
    (Expr.ways_of_not_isCased hsense (wellFormed_expr h) (isSimple_expr hlisting)
      (isCased_parts_expr h hcased) 0 (pos, Marks.none))

end Member

/-! ### Members with letter case spelt out -/

namespace Member

variable {member : Member}

/-- The branch of a member, with letter case spelt out if the member
ignores it. -/
def foldedIn (member : Member) (expr : Expr) : Expr :=
  if member.ignoreCase then expr.folded else expr

theorem captures_foldedIn (member : Member) (expr : Expr) :
    (member.foldedIn expr).captures = expr.captures := by
  unfold foldedIn
  split
  · exact Expr.captures_folded expr
  · rfl

theorem render_foldedIn (h : member.Valid) (base : Nat) :
    (member.foldedIn (member.joined base)).render
      = (member.joined base).parts.flatMap fun part =>
          if true && member.ignoreCase then part.renderFolded else part.render := by
  unfold foldedIn
  cases member.ignoreCase with
  | true => exact Expr.render_folded (wellFormed_joined h base)
  | false => exact (Expr.flatMap_render_parts _).symm

theorem isEasy_foldedIn (hsimple : member.body.IsSimple IsListing) (base : Nat) :
    (member.foldedIn (member.joined base)).isEasy = true := by
  unfold foldedIn
  have heasy := (isSimple_joined hsimple base).isEasy
  split
  · exact Expr.isEasy_folded heasy
  · exact heasy

variable (hfoldable : member.ignoreCase = true → member.body.IsSimple IsFoldable)

include hfoldable

theorem wellFormed_foldedIn (h : member.Valid) (base : Nat) :
    (member.foldedIn (member.joined base)).WellFormed := by
  unfold foldedIn
  have hwf := wellFormed_joined h base
  split
  · rename_i hcase
    exact Expr.wellFormed_folded hwf (isSimple_joined (hfoldable hcase) base)
  · exact hwf

/-- The branch of a member matches as the member asks for. -/
theorem head_foldedIn (h : member.Valid) {sense : Sense} (hsense : ReadsLists sense)
    (base pos : Nat) :
    ((member.foldedIn (member.joined base)).ways sense false base (pos, Marks.none)).head?.map
        Prod.fst = member.expr.stop? sense member.ignoreCase pos := by
  unfold foldedIn
  cases hcase : member.ignoreCase with
  | true =>
    rw [if_pos rfl, Expr.ways_folded hsense (isSimple_joined (hfoldable hcase) base)]
    exact head_joined h sense true base pos
  | false => exact head_joined h sense false base pos

end Member

/-! ### Dialects -/

/-- Whatever the dialect of a matcher, it reads lists as such. -/
theorem readsLists_sense_matcher (matcher : Matcher) (source : Array Char) :
    ReadsLists (matcher.sense source) := by
  unfold Matcher.sense
  split
  · exact Extended.readsLists_sense source _
  · exact Regular.readsLists_sense source

/-- A matcher that never gives up matches simple patterns as the regular
dialect does. -/
theorem firstStop?_sense {matcher : Matcher} (hlimit : matcher.limit = none) (source : Array Char)
    {list : List Member} (hsimple : ∀ member ∈ list, member.body.IsSimple IsListing) (pos : Nat) :
    firstStop? (matcher.sense source) list pos = firstStop? (Regular.sense source) list pos := by
  have hretry : (matcher.sense source).retry = false := by
    unfold Matcher.sense
    rw [hlimit]
    split <;> rfl
  induction list with
  | nil => rfl
  | cons member list ih =>
    obtain ⟨hmember, hlist⟩ := List.forall_mem_cons.mp hsimple
    have hways := Expr.ways_sense_eq (readsLists_sense_matcher matcher source)
      (Regular.readsLists_sense source) (matcher.text_sense source) hretry
      (Member.isSimple_expr hmember) member.ignoreCase 0 (pos, Marks.none)
    have hstop : member.expr.stop? (matcher.sense source) member.ignoreCase pos
        = member.expr.stop? (Regular.sense source) member.ignoreCase pos :=
      congrArg (fun ways => ways.head?.map Prod.fst) hways
    rw [firstStop?_cons, firstStop?_cons, hstop, ih hlist]

/-! ### The three ways to join -/

/-- A union with letter case spelt out in the members that ignore it. -/
def foldedJoint (list : List Member) : Expr :=
  branched (List.zipWith Member.foldedIn list (joinedFrom 0 list))

/-- When letter case counts, and when it is ignored, in a whole
union. -/
theorem caseRule_cases (patterns : List Pattern) :
    caseRule patterns = .counts ∧ (∀ pattern ∈ patterns, pattern.ignoreCase = false) ∨
      caseRule patterns = .ignored ∧ (∀ pattern ∈ patterns,
        pattern.ignoreCase = true ∨ pattern.parts.any Part.isCased = false) ∨
      caseRule patterns = .mixed := by
  unfold caseRule
  by_cases hany : patterns.any Pattern.ignoreCase = true
  · rw [hany]
    by_cases hcased : (patterns.any fun pattern =>
        !pattern.ignoreCase && pattern.parts.any Part.isCased) = true
    · rw [hcased]
      exact .inr (.inr rfl)
    · refine .inr (.inl ⟨by rw [Bool.eq_false_iff.mpr hcased]; rfl, fun pattern hpattern => ?_⟩)
      have hnone := List.any_eq_false.mp (Bool.eq_false_iff.mpr hcased) pattern hpattern
      cases hcase : pattern.ignoreCase with
      | true => exact .inl rfl
      | false =>
        rw [hcase] at hnone
        exact .inr (Bool.eq_false_iff.mpr hnone)
  · have hnone := Bool.eq_false_iff.mpr hany
    rw [hnone]
    exact .inl ⟨rfl, fun pattern hpattern =>
      Bool.eq_false_iff.mpr (List.any_eq_false.mp hnone pattern hpattern)⟩

section Tokens

variable {list : List Member} (hvalid : ∀ member ∈ list, member.Valid)
  (hsimple : ∀ member ∈ list, member.body.IsSimple IsListing)
  (hfoldable : ∀ member ∈ list, member.ignoreCase = true → member.body.IsSimple IsFoldable)

include hsimple in
theorem isEasy_joint : (joint list).isEasy = true := by
  have hall := forall_mem_spelt (motive := fun expr => expr.isEasy = true) (fun _ expr => expr)
    (fun member hmember base => (Member.isSimple_joined (hsimple member hmember) base).isEasy) 0
  rw [zipWith_joinedFrom] at hall
  exact isEasy_branched hall

include hvalid hsimple in
/-- A union that ignores letter case matches as its first member does
that matches, if none of them is changed by that. -/
theorem stop?_joint_ignoring (hcase : ∀ member ∈ list,
      member.ignoreCase = true ∨ member.pattern.parts.any Part.isCased = false)
    {sense : Sense} (hsense : ReadsLists sense) {pos : Nat} (hpos : pos < sense.text.size) :
    (joint list).stop? sense true pos = (firstStop? sense list pos).or (some (pos + 1)) := by
  refine stop?_joint hpos hvalid fun member hmember => ?_
  rcases hcase member hmember with hcase | hcased
  · rw [hcase]
  · cases member.ignoreCase with
    | true => rfl
    | false =>
      exact Member.stop?_of_not_isCased (hvalid member hmember) (hsimple member hmember) hcased
        hsense pos

include hvalid hfoldable in
/-- A union with letter case spelt out matches as its first member does
that matches. -/
theorem stop?_foldedJoint {sense : Sense} (hsense : ReadsLists sense) {pos : Nat}
    (hpos : pos < sense.text.size) :
    (foldedJoint list).stop? sense false pos
      = (firstStop? sense list pos).or (some (pos + 1)) :=
  head_branched hpos hvalid Member.captures_foldedIn (fun member hmember base =>
    Member.head_foldedIn (hfoldable member hmember) (hvalid member hmember) hsense base pos) 0

include hvalid in
/-- The text of a union with letter case spelt out. -/
theorem text_eq_render_folded (hrule : caseRule (list.map Member.pattern) = .mixed) :
    Union.text (list.map Member.pattern) = (foldedJoint list).render := by
  rw [text, intercalate_spelt hvalid Member.foldedIn (by rw [hrule]; rfl)
    fun member hmember => Member.render_foldedIn (hvalid member hmember), hrule]
  rfl

include hvalid hsimple hfoldable in
/-- However members are joined, the text of the union is read as
something that matches as the first member does that matches. -/
theorem exists_isRead :
    ∃ ignoreCase expr, IsRead (text (list.map Member.pattern)) ignoreCase expr ∧
      expr.isEasy = true ∧ ∀ sense pos, ReadsLists sense → pos < sense.text.size →
        expr.stop? sense ignoreCase pos = (firstStop? sense list pos).or (some (pos + 1)) := by
  rcases caseRule_cases (list.map Member.pattern) with ⟨hrule, hcase⟩ | ⟨hrule, hcase⟩ | hrule
  · -- Letter case counts in every member.
    refine ⟨false, joint list, ?_, isEasy_joint hsimple, fun sense pos _ hpos => ?_⟩
    · rw [text, intercalate_joined hvalid (by rw [hrule]; decide), hrule]
      exact isRead_render (wellFormed_joint hvalid)
    · refine stop?_joint hpos hvalid fun member hmember => ?_
      rw [show member.ignoreCase = false from hcase _ (List.mem_map_of_mem hmember)]
  · -- The flags come first, and members that do not ask for them hold nothing cased.
    refine ⟨true, joint list, ?_, isEasy_joint hsimple, fun sense pos hsense hpos => ?_⟩
    · rw [text, intercalate_joined hvalid (by rw [hrule]; decide), hrule]
      exact isRead_ignoring (wellFormed_joint hvalid)
    · exact stop?_joint_ignoring hvalid hsimple
        (fun member hmember => hcase _ (List.mem_map_of_mem hmember)) hsense hpos
  · -- Each branch is spelt as its member asks for.
    refine ⟨false, foldedJoint list, ?_, ?_, fun sense pos hsense hpos => ?_⟩
    · rw [text_eq_render_folded hvalid hrule]
      exact isRead_render (wellFormed_branched (forall_mem_spelt Member.foldedIn
        (fun member hmember => Member.wellFormed_foldedIn (hfoldable member hmember)
          (hvalid member hmember)) 0))
    · exact isEasy_branched (forall_mem_spelt Member.foldedIn
        (fun member hmember => Member.isEasy_foldedIn (hsimple member hmember)) 0)
    · exact stop?_foldedJoint hvalid hfoldable hsense hpos

include hvalid hsimple hfoldable in
/-- The token at a position stops with the match of the first pattern
that matches there, each with letter case or without it as it asks
for. -/
theorem tokenAt_ownCase {union : Union} (hunion : ofPatterns (list.map Member.pattern) = .ok union)
    {source : List Char} {pos : Nat} (hpos : pos < source.length) :
    ∃ span, union.tokenAt source (Text.offsetOf source pos) = .ok span ∧
      span.start = Text.offsetOf source pos ∧
      span.stop = Text.offsetOf source (tokenStop (Regular.sense source.toArray) list pos) := by
  obtain ⟨ignoreCase, expr, hread, heasy, hfirst⟩ := exists_isRead hvalid hsimple hfoldable
  have hmatcher := ofPatterns_eq_ok hunion
  have hlimit := hread.limit_eq heasy hmatcher
  have hsense := readsLists_sense_matcher union.matcher source.toArray
  have htoken := tokenStops_of_first (hread.finds heasy hmatcher) hpos
    (hfirst _ pos hsense (lt_size_sense union.matcher hpos))
  have hstop : tokenStop (union.matcher.sense source.toArray) list pos
      = tokenStop (Regular.sense source.toArray) list pos := by
    unfold tokenStop
    rw [firstStop?_sense hlimit source.toArray hsimple]
  rw [hstop] at htoken
  exact htoken.resolve_right fun hgivesUp => hgivesUp.1 hlimit

end Tokens

/-- Letters of a range without letter case, and a letter with it. -/
def rangeOrLetter : List Member :=
  [⟨.none, .repeated .plus true (.bracket "K-M".toList), true⟩, ⟨.caret, .char 'b', false⟩]

theorem valid_rangeOrLetter : ∀ member ∈ rangeOrLetter, member.Valid :=
  List.forall_mem_cons.mpr
    ⟨⟨⟨⟨rfl, trivial⟩, rfl, fun hboundary => nomatch hboundary⟩, trivial, rfl, by decide⟩,
      List.forall_mem_singleton.mpr ⟨rfl, trivial, rfl, by decide⟩⟩

theorem classLists_range : ClassLists Spells "K-M".toList false [.range 'K' 'M'] := by
  have hlists : Lists Spells (['K'] ++ '-' :: (['M'] ++ [])) [.range 'K' 'M'] :=
    .range (.plain rfl) (.plain rfl) (by decide) (by decide) (by decide) .nil
  exact .plain (by decide) (by decide) hlists

/-- The ranges of the class are sorted as they are listed. -/
theorem foldedClass_range : Expr.foldedClass "K-M".toList = .bracket "K-Mk-m\u212a".toList := by
  have hclosed : closed [(0x4B, 0x4D)] = [(0x4B, 0x4D), (0x6B, 0x6D), (0x212A, 0x212A)] := by
    decide
  have hmerged : merged (closed [(0x4B, 0x4D)])
      = [(0x4B, 0x4D), (0x6B, 0x6D), (0x212A, 0x212A)] := by
    rw [merged, hclosed, List.mergeSort_of_pairwise (by decide)]
    rfl
  have hfolded : foldedBody? "K-M".toList
      = some ((merged (closed [(0x4B, 0x4D)])).flatMap rangeText) := rfl
  rw [Expr.foldedClass, hfolded, hmerged]
  decide

theorem text_rangeOrLetter :
    Union.text (rangeOrLetter.map Member.pattern) = "(?:[K-Mk-m\u212a]+)|(?:b)|(?s:.)".toList := by
  have hjoint : foldedJoint rangeOrLetter
      = branched [.repeated .plus true (Expr.foldedClass "K-M".toList), .char 'b'] := rfl
  rw [text_eq_render_folded valid_rangeOrLetter (by decide +kernel), hjoint, foldedClass_range]
  decide

/-- A union is compiled if its text is. -/
theorem isOk_ofPatterns {patterns : List Pattern} (h : patterns.find? Pattern.isMultiline = none) :
    (ofPatterns patterns).isOk = (Matcher.ofPattern (String.ofList (text patterns))).isOk := by
  unfold ofPatterns
  rw [h]
  cases Matcher.ofPattern (String.ofList (text patterns)) <;> rfl

/-- The Kelvin sign is a letter of the range, as a capital is. -/
theorem tokenAt_ownCase_rangeOrLetter :
    ∃ union, ofPatterns (rangeOrLetter.map Member.pattern) = .ok union ∧
      ∃ span, union.tokenAt "\u212alB".toList 0 = .ok span ∧ span.start = 0 ∧ span.stop = 4 := by
  have hcompiles : (ofPatterns (rangeOrLetter.map Member.pattern)).isOk = true := by
    rw [isOk_ofPatterns (by decide +kernel), text_rangeOrLetter]
    decide +kernel
  cases hunion : ofPatterns (rangeOrLetter.map Member.pattern) with
  | error failure =>
    rw [hunion] at hcompiles
    cases hcompiles
  | ok union =>
    have hlisting : IsListing "K-M".toList :=
      ⟨false, _, classLists_range, fun lo hi hrange => by
        cases List.mem_singleton.mp hrange
        exact .inl (.inl (by decide +kernel))⟩
    have htoken : ∃ span, union.tokenAt "\u212alB".toList (Text.offsetOf "\u212alB".toList 0)
          = .ok span ∧
        span.start = Text.offsetOf "\u212alB".toList 0 ∧
        span.stop = Text.offsetOf "\u212alB".toList
          (tokenStop (Regular.sense "\u212alB".toList.toArray) rangeOrLetter 0) :=
      tokenAt_ownCase valid_rangeOrLetter
        (List.forall_mem_cons.mpr ⟨hlisting, List.forall_mem_singleton.mpr trivial⟩)
        (List.forall_mem_cons.mpr ⟨fun _ => ⟨⟨false, _, classLists_range⟩, by decide⟩,
          List.forall_mem_singleton.mpr fun _ => trivial⟩)
        hunion (by decide)
    rw [show tokenStop (Regular.sense "\u212alB".toList.toArray) rangeOrLetter 0 = 2
      by decide +kernel] at htoken
    exact ⟨union, rfl, htoken⟩

end Highlighter.Union
