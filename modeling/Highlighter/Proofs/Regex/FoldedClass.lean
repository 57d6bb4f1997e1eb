import Highlighter.Proofs.Pattern.ClassMembers
import Highlighter.Proofs.Regex.ClassEnd
import Highlighter.Proofs.Regex.Ignoring
import Highlighter.Proofs.Unicode.Words

/-!
# A folded class matches what the class matches without letter case

Any class that is a whole pattern of the regular dialect may be folded:
the result can be read, and as a pattern of its own it finds what the
class finds after flags by which letter case does not count
(`search_foldClass`). Where folding spells the members out, they are
read as the engine reads them (`readAlike_of_parseClass`), what is
written for them is read back (`parseClass_folded`), and it holds the
characters with a case variant in the class (`holds_folded`). Elsewhere
the class becomes a group with flags of its own.

`isMisread` says which classes are spelt out wrongly; these are left
out.
-/

set_option autoImplicit false

namespace Highlighter.Regex

open Pattern

/-! ### Reading a folded class back -/

/-- Whether a member is a class with a letter of its own. -/
def ClassMember.isShort : ClassMember → Bool
  | .listed _ => false
  | .short _ _ => true

/-- The members that are written for members. -/
def foldedMembers (members : List ClassMember) : List ClassMember :=
  members.filter ClassMember.isShort ++
    ((merged (closed (members.flatMap ClassMember.spans))).map listedRange).map ClassMember.listed

theorem parseMember_short (kind : ShortClass) (negated : Bool) (cs : List Char) :
    parseMember? false ('\\' :: shortLetter kind negated :: cs)
      = some (.short kind negated, cs) := by
  cases kind <;> cases negated <;> rfl

/-- What is written for classes with a letter of their own starts with
no hyphen, if what follows does not. -/
theorem head?_shortTexts (members : List ClassMember) {rest : List Char} {c : Char}
    (hrest : rest.head? ≠ some c) (hc : c ≠ '\\') :
    (members.flatMap ClassMember.shortText ++ rest).head? ≠ some c := by
  induction members with
  | nil => exact hrest
  | cons member members ih =>
    cases member with
    | listed item => exact ih
    | short kind negated => exact fun heq => hc (Option.some.inj heq).symm

/-- Classes with a letter of their own are read one after another, and
then what follows them. -/
theorem parseMembers_shortTexts (members : List ClassMember) {body : List Char} {items : List Listed}
    (hlists : Lists Denotes body items) (hsign : body.head? ≠ some '-') (before : List ClassSet)
    {steps : Nat} (hsteps : (members.flatMap ClassMember.shortText ++ body).length < steps)
    (rest : List Char) :
    parseMembers? false steps none before
        (members.flatMap ClassMember.shortText ++ (body ++ ']' :: rest))
      = some (.unionAll (before.reverse ++ ((members.filter ClassMember.isShort).map ClassMember.toClass ++
        items.map Listed.toClass)), rest) := by
  induction members generalizing before steps with
  | nil => exact parseMembers_lists hlists before hsteps rest
  | cons member members ih =>
    cases member with
    | listed item => exact ih before hsteps
    | short kind negated =>
      obtain ⟨steps, rfl⟩ : ∃ count, steps = count + 1 := ⟨steps - 1, by omega⟩
      have hend : (body ++ ']' :: rest).head? ≠ some '-' := by
        cases body with
        | nil => rintro ⟨⟩
        | cons c body => exact hsign
      have hnext := head?_shortTexts members hend (by decide)
      have hread := parseRange_single (parseMember_short kind negated
          (members.flatMap ClassMember.shortText ++ (body ++ ']' :: rest)))
        (by simp) fun others heq => hnext (by rw [heq]; rfl)
      have hop : (shortLetter kind negated :: (members.flatMap ClassMember.shortText ++
          (body ++ ']' :: rest))).head? = some '\\' → doubledOp? '\\' = none := fun _ => rfl
      show parseMembers? false (steps + 1) none before ('\\' :: shortLetter kind negated ::
        (members.flatMap ClassMember.shortText ++ (body ++ ']' :: rest))) = _
      rw [parseMembers_item (by decide) (by decide) hop, hread]
      refine (ih (.short kind negated :: before) ?_).trans ?_
      · simp only [List.flatMap_cons, ClassMember.shortText, List.length_append, List.length_cons,
          List.length_nil] at hsteps ⊢
        omega
      · rw [List.reverse_cons, List.append_assoc]
        rfl

/-- A class whose members start with no sign is read from them on. -/
theorem parseClass_members {negated : Bool} {members : List Char} {set : ClassSet}
    (hsign : ∀ c ∈ members.head?, isClassSign c = false ∧ c ≠ ']') (hne : members ≠ [])
    (h : parseMembers? false (members.length + 1) none [] members = some (set, [])) :
    parseClass? false (negation negated ++ members) = some (.bracket negated set, []) := by
  obtain ⟨c, rest, rfl⟩ := List.exists_cons_of_ne_nil hne
  obtain ⟨hplain, hclose⟩ := hsign c rfl
  have hhyphen : c ≠ '-' := by
    rintro rfl
    exact absurd hplain (by decide)
  have hlead : leadingHyphens? false ((c :: rest).length + 1) (c :: rest) = some ([], c :: rest) := by
    rw [leadingHyphens?]
    · rintro ⟨⟩
    · exact fun others heq => hhyphen (List.cons.inj heq).1
  have hmembers : openMembers? negated (c :: rest) = some (negated, [], c :: rest) := by
    unfold openMembers?
    rw [hlead]
    simp only [bind, Option.bind_some]
    split
    · rename_i heq
      exact absurd (List.cons.inj heq).1 hclose
    · rfl
  have hopen : openClass? false (negation negated ++ (c :: rest)) = some (negated, [], c :: rest) := by
    cases negated with
    | true => exact hmembers
    | false =>
      show openClass? false (c :: rest) = _
      rw [openClass_members, hmembers]
      rintro others heq
      cases heq
      exact absurd hplain (by decide)
  unfold parseClass?
  rw [hopen]
  simp only [bind, Option.bind_some]
  rw [List.reverse_nil, h]
  rfl

section Folded

variable {members : List ClassMember}

/-- Ranges or classes with a letter of their own are written, and what
is written starts with no sign. -/
theorem head?_foldedText (hne : members ≠ [])
    (hproper : ∀ range ∈ members.flatMap ClassMember.spans, IsProper range) {rest : List Char} :
    ∀ c ∈ (members.flatMap ClassMember.shortText ++
        ((merged (closed (members.flatMap ClassMember.spans))).flatMap rangeText ++ rest)).head?,
      isClassSign c = false ∧ c ≠ ']' := by
  obtain ⟨hlists, hsign⟩ := lists_rangeText (isProper_merged (isProper_closed hproper))
  obtain ⟨member, others, rfl⟩ := List.exists_cons_of_ne_nil hne
  cases member with
  | short kind negated =>
    rintro c ⟨⟩
    decide
  | listed item =>
    -- Then there are ranges.
    have hranges : merged (closed ((ClassMember.listed item :: others).flatMap ClassMember.spans)) ≠ [] :=
      merged_ne_nil (closed_ne_nil (List.cons_ne_nil _ _))
    generalize merged (closed ((ClassMember.listed item :: others).flatMap ClassMember.spans)) = ranges
      at hlists hsign hranges ⊢
    have hbody := hlists.ne_nil.mpr (by simpa using hranges)
    have hclose := hlists.head?_ne_close
    obtain ⟨d, body, hcons⟩ := List.exists_cons_of_ne_nil hbody
    rw [hcons] at hsign hclose ⊢
    intro c hc
    have hhead : ∀ c, isClassSign c = true ∨ c = ']' →
        ((ClassMember.listed item :: others).flatMap ClassMember.shortText ++ (d :: body ++ rest)).head?
          ≠ some c := by
      intro c hc
      refine head?_shortTexts _ (fun heq => ?_) ?_
      · cases heq
        rcases hc with hc | rfl
        · exact absurd ((hsign _ rfl).symm.trans hc) Bool.false_ne_true
        · exact hclose rfl
      · rintro rfl
        exact hc.elim (fun hc => absurd hc (by decide)) (fun hc => absurd hc (by decide))
    refine ⟨?_, fun heq => hhead c (.inr heq) hc⟩
    rw [← Bool.not_eq_true]
    exact fun heq => hhead c (.inl heq) hc

/-- What is written for members is read as the folded members. -/
theorem parseClass_folded (negated : Bool) (hne : members ≠ [])
    (hproper : ∀ range ∈ members.flatMap ClassMember.spans, IsProper range) :
    parseClass? false (negation negated ++ (members.flatMap ClassMember.shortText ++
        ((merged (closed (members.flatMap ClassMember.spans))).flatMap rangeText ++ [']'])))
      = some (.bracket negated (.unionAll ((foldedMembers members).map ClassMember.toClass)), []) := by
  obtain ⟨hlists, hsign⟩ := lists_rangeText (isProper_merged (isProper_closed hproper))
  have hhyphen : ((merged (closed (members.flatMap ClassMember.spans))).flatMap rangeText).head?
      ≠ some '-' := fun hhead => absurd (hsign '-' hhead) (by decide)
  have hclasses : (foldedMembers members).map ClassMember.toClass
      = (members.filter ClassMember.isShort).map ClassMember.toClass ++
        ((merged (closed (members.flatMap ClassMember.spans))).map listedRange).map Listed.toClass := by
    rw [foldedMembers, List.map_append, List.map_map (g := ClassMember.toClass)]
    rfl
  rw [hclasses]
  refine parseClass_members (head?_foldedText hne hproper) (by simp) ?_
  refine parseMembers_shortTexts members hlists hhyphen [] ?_ []
  simp only [List.length_append, List.length_singleton]
  omega

/-- Members hold what their ranges hold, and what is held by classes
with a letter of their own. -/
theorem any_holds (c : Char) :
    members.any (·.holds c) = ((members.filter ClassMember.isShort).any (·.holds c) ||
      (members.flatMap ClassMember.spans).any (rangeHolds c.toNat)) := by
  induction members with
  | nil => rfl
  | cons member members ih =>
    cases member with
    | listed item =>
      have hspan : (ClassMember.listed item).holds c = rangeHolds c.toNat item.span :=
        (item.holds_span c).symm
      rw [List.any_cons, ih, hspan]
      exact Bool.or_left_comm _ _ _
    | short kind negated =>
      rw [List.any_cons, ih]
      exact (Bool.or_assoc _ _ _).symm

/-- Classes with a letter of their own hold all variants of a character
or none. -/
theorem any_holds_of_mem_variants {c : Char} {code : Nat} (h : code ∈ Unicode.variants c.toNat) :
    (members.filter ClassMember.isShort).any (·.holds (Char.ofNat code))
      = (members.filter ClassMember.isShort).any (·.holds c) := by
  induction members with
  | nil => rfl
  | cons member members ih =>
    cases member with
    | listed item => exact ih
    | short kind negated =>
      have hsame : (ClassMember.short kind negated).holds (Char.ofNat code)
          = (ClassMember.short kind negated).holds c :=
        congrArg (· != negated) (kind.members_of_mem_variants h)
      rw [List.filter_cons_of_pos rfl, List.any_cons, List.any_cons, ih, hsame]

/-- Folded members hold the characters with a case variant among what
the members hold. -/
theorem holds_folded (hproper : ∀ range ∈ members.flatMap ClassMember.spans, IsProper range)
    (hascii : ∀ range ∈ members.flatMap ClassMember.spans, range.2 ≤ 0x7F) (c : Char) :
    (foldedMembers members).any (·.holds c)
      = CharSet.closeCase (fun d => members.any (·.holds d)) c := by
  have hranges : (((merged (closed (members.flatMap ClassMember.spans))).map listedRange).map
      ClassMember.listed).any (·.holds c) = (closed (members.flatMap ClassMember.spans)).any
        (rangeHolds c.toNat) := by
    rw [List.any_map, ← holds_merged]
    exact any_listedRange (isProper_merged (isProper_closed hproper)) c
  have hclose : CharSet.closeCase (fun d => members.any (·.holds d)) c = true
      ↔ ∃ code ∈ Unicode.variants c.toNat, members.any (·.holds (Char.ofNat code)) = true :=
    List.any_eq_true
  rw [foldedMembers, List.any_append, hranges, Bool.eq_iff_iff, Bool.or_eq_true,
    holds_closed hascii, hclose]
  constructor
  · rintro (hshort | ⟨other, hother, hrange⟩)
    · refine ⟨c.toNat, Unicode.self_mem_variants _, ?_⟩
      rw [any_holds, Char.ofNat_toNat, hshort, Bool.true_or]
    · refine ⟨other, hother, ?_⟩
      rw [any_holds, Unicode.toNat_ofNat_of_mem_variants hother, hrange, Bool.or_true]
  · rintro ⟨other, hother, hholds⟩
    rw [any_holds, any_holds_of_mem_variants hother, Unicode.toNat_ofNat_of_mem_variants hother]
      at hholds
    exact (Bool.or_eq_true_iff.mp hholds).imp id fun hrange => ⟨other, hother, hrange⟩

end Folded

/-- A class that is spelt out is read back, and holds with letter case
what the class holds without it. -/
theorem meaning_foldedBody {body folded : List Char} {set : ClassSet}
    (hclass : parseClass? false (body ++ [']']) = some (set, [])) (hread : isMisread body = false)
    (hfolded : foldedBody? body = some folded) :
    ∃ foldedSet held, parseClass? false (folded ++ [']']) = some (foldedSet, []) ∧
      foldedSet.depth ≤ 2 ∧ set.meaning? ⟨true, true⟩ = some held ∧
      foldedSet.meaning? ⟨false, true⟩ = some held := by
  unfold foldedBody? at hfolded
  unfold isMisread at hread
  simp only at hfolded hread
  split at hfolded
  · cases hfolded
  · rename_i hplain
    rw [Bool.not_eq_true, Bool.or_eq_false_iff] at hplain
    obtain ⟨hcomplex, hinside⟩ := hplain
    rw [hcomplex, hinside] at hread
    obtain ⟨negated, members, hnegated, halike, hne, rfl⟩ :=
      readAlike_of_parseClass hclass hcomplex (Bool.or_eq_false_iff.mp hread)
    have hascii : ∀ range ∈ members.flatMap ClassMember.spans, range.2 ≤ 0x7F := by
      rw [← halike.spans]
      exact stop_le_of_ascii fun _ => le_of_not_isOutsideAscii hinside
    have hproper : ∀ range ∈ members.flatMap ClassMember.spans, IsProper range := fun range hrange =>
      isProper_of_ascii (halike.start_le range hrange) (hascii range hrange)
    have hheld : ∀ ignoreCase, (ClassSet.bracket negated (.unionAll (members.map
        ClassMember.toClass))).meaning? ⟨ignoreCase, true⟩ = CharSet.negate? ⟨false, true⟩ negated
          (CharSet.fold ⟨ignoreCase, true⟩ fun c => members.any (·.holds c)) := by
      intro ignoreCase
      rw [ClassSet.meaning?, meaning_unionAll_map fun member => member.meaning_toClass ignoreCase]
      cases negated <;> rfl
    cases hfolded
    refine ⟨.bracket negated (.unionAll ((foldedMembers members).map ClassMember.toClass)),
      if negated then CharSet.complement (CharSet.closeCase fun c => members.any (·.holds c))
        else CharSet.closeCase fun c => members.any (·.holds c), ?_, ?_, ?_, ?_⟩
    · rw [hnegated, halike.shorts, halike.spans, List.append_assoc, List.append_assoc]
      exact parseClass_folded negated hne hproper
    · exact Nat.succ_le_succ (depth_unionAll (by simp [ClassMember.depth_toClass])).1
    · rw [hheld]
      cases negated <;> rfl
    · rw [ClassSet.meaning?, meaning_unionAll_map fun member => member.meaning_toClass false,
        funext (holds_folded hproper hascii)]
      cases negated <;> rfl

/-! ### Patterns that are one class -/

namespace Regular

variable {cs : List Char} {set : ClassSet}

/-- A pattern of one branch is what its items make. -/
theorem parse_of_parseItems (pattern : List Char) {items : List Ast} {reading : Reading}
    (h : parseItems? (2 * pattern.length + 1) ⟨pattern.length, false, 0, []⟩ [] pattern
      = some (items, reading, [])) :
    parse? pattern = if (Ast.ofItems items).depth ≤ maxDepth then
      some (.ofItems items, reading.groups) else none := by
  have hbranches : parseBranches? (2 * pattern.length + 2) ⟨pattern.length, false, 0, []⟩ [] pattern
      = some (.ofItems items, reading, []) := by
    rw [parseBranches?, h]
    rfl
  unfold parse?
  simp only [hbranches, bind, Option.bind_some]

/-- A class is read as an item, and what follows it ends the branch. -/
theorem parseItems_class (reading : Reading) (hverbose : reading.verbose = false)
    {rest : List Char} (h : parseClass? false cs = some (set, rest)) (steps : Nat)
    (items : List Ast) (hrest : rest = [] ∨ rest = [')']) :
    ∃ place, parseItems? (steps + 2) reading items ('[' :: cs)
      = some ((.bracket set place :: items).reverse, reading, rest) := by
  refine ⟨⟨reading.placeOf ('[' :: cs), reading.placeOf rest⟩, ?_⟩
  rw [parseItems?, Reading.skipBlank_eq hverbose]
  simp only [hverbose, h, bind, Option.bind_some]
  rw [parseItems?, Reading.skipBlank_eq hverbose]
  rcases hrest with rfl | rfl <;> rfl

/-- A pattern that is a class. -/
theorem parse_class (h : parseClass? false cs = some (set, [])) (hdepth : set.depth ≤ maxDepth) :
    ∃ place, parse? ('[' :: cs) = some (.bracket set place, 0) := by
  obtain ⟨place, hread⟩ := parseItems_class ⟨cs.length + 1, false, 0, []⟩ rfl h
    (2 * cs.length + 1) [] (.inl rfl)
  exact ⟨place, (parse_of_parseItems ('[' :: cs) hread).trans (if_pos hdepth)⟩

/-- Flags by which letter case does not count are read as an item. -/
theorem parseItems_ignoreFlags (reading : Reading) (hverbose : reading.verbose = false)
    (steps : Nat) (cs : List Char) :
    ∃ place, parseItems? (steps + 1) reading [] (ignoreFlags ++ cs)
      = parseItems? steps reading [.flags [(.ignoreCase, true)] place] cs := by
  have hopening : parseOpening? reading ('?' :: 'i' :: ')' :: cs)
      = some (.flags [(.ignoreCase, true)], reading, cs) := by
    unfold parseOpening?
    simp only [Reading.skipBlank_eq hverbose]
    rfl
  refine ⟨⟨reading.placeOf (ignoreFlags ++ cs), reading.placeOf cs⟩, ?_⟩
  rw [show ignoreFlags ++ cs = '(' :: '?' :: 'i' :: ')' :: cs from rfl, parseItems?,
    Reading.skipBlank_eq hverbose]
  simp only [hopening, bind, Option.bind_some]
  rfl

/-- A pattern that is a class after flags by which letter case does not
count. -/
theorem parse_ignoreFlags_class (h : parseClass? false cs = some (set, [])) :
    ∃ place place', parse? (ignoreFlags ++ '[' :: cs) = if set.depth + 1 ≤ maxDepth then
      some (.concat [.flags [(.ignoreCase, true)] place, .bracket set place'], 0) else none := by
  let reading : Reading := ⟨cs.length + 5, false, 0, []⟩
  obtain ⟨place, hflags⟩ := parseItems_ignoreFlags reading rfl (2 * cs.length + 10) ('[' :: cs)
  obtain ⟨place', hread⟩ := parseItems_class reading rfl h (2 * cs.length + 8)
    [.flags [(.ignoreCase, true)] place] (.inl rfl)
  have hdepth : (Ast.concat [.flags [(.ignoreCase, true)] place, .bracket set place']).depth
      = set.depth + 1 := by
    show max 0 (max set.depth 0) + 1 = _
    rw [Nat.max_eq_right (Nat.zero_le _), Nat.max_eq_left (Nat.zero_le _)]
  rw [← hdepth]
  exact ⟨place, place', parse_of_parseItems (ignoreFlags ++ '[' :: cs) (hflags.trans hread)⟩

/-- A pattern that is a class in a group in which letter case does not
count. -/
theorem parse_ignoringCase_class (h : parseClass? false cs = some (set, []))
    (hdepth : set.depth + 1 ≤ maxDepth) :
    ∃ start place, parse? (ignoringCase ('[' :: cs))
      = some (.group (.flagged [(.ignoreCase, true)]) start (.bracket set place), 0) := by
  have hclass := parseClass_append h [')']
  have hlength : (ignoringCase ('[' :: cs)).length = cs.length + 6 := by
    simp [ignoringCase]
  let reading : Reading := ⟨cs.length + 6, false, 0, []⟩
  obtain ⟨place, hread⟩ := parseItems_class reading rfl hclass (2 * cs.length + 9) [] (.inr rfl)
  -- Flags in front of the colon leave the class as readable as it was.
  have hbody : parseBranches? (2 * cs.length + 12)
      { reading with
        verbose := (FlagChange.value? [(.ignoreCase, true)] .verbose).getD reading.verbose }
      [] ('[' :: (cs ++ [')'])) = some (.bracket set place, reading, [')']) := by
    show parseBranches? (2 * cs.length + 11 + 1) reading [] _ = _
    rw [parseBranches?, hread]
    rfl
  have hopening : parseOpening? reading ('?' :: 'i' :: ':' :: '[' :: (cs ++ [')']))
      = some (.group (.flagged [(.ignoreCase, true)]), reading, '[' :: (cs ++ [')'])) := rfl
  have hgroup : parseItems? (2 * (ignoringCase ('[' :: cs)).length + 1)
        ⟨(ignoringCase ('[' :: cs)).length, false, 0, []⟩ [] (ignoringCase ('[' :: cs))
      = some ([.group (.flagged [(.ignoreCase, true)]) (reading.placeOf (ignoringCase ('[' :: cs)))
          (.bracket set place)], reading, []) := by
    rw [hlength]
    show parseItems? (2 * cs.length + 12 + 1) reading []
      ('(' :: '?' :: 'i' :: ':' :: '[' :: (cs ++ [')'])) = _
    rw [parseItems?, Reading.skipBlank_eq rfl]
    simp only [hopening, bind, Option.bind_some]
    rw [hbody]
    rfl
  exact ⟨_, place, (parse_of_parseItems _ hgroup).trans (if_pos hdepth)⟩

theorem meaning_class {modes : Modes} {place : Place} {held : CharSet}
    (h : set.meaning? modes.chars = some held) :
    (Ast.bracket set place).meaning? modes = some (.char held, modes) := by
  rw [Ast.meaning?, h]
  rfl

/-- A class in a group in which letter case does not count. -/
theorem meaning_ignoringCase_class {start : Nat} {place : Place} {held : CharSet}
    (h : set.meaning? ⟨true, true⟩ = some held) :
    (Ast.group (.flagged [(.ignoreCase, true)]) start (.bracket set place)).meaning? .initial
      = some (.char held, .initial) := by
  have hbody : (Ast.bracket set place).meaning? (Modes.initial.apply [(.ignoreCase, true)])
      = some (.char held, Modes.initial.apply [(.ignoreCase, true)]) := meaning_class h
  rw [Ast.meaning?]
  simp only [hbody, bind, Option.bind_some]
  rfl

/-- A class after flags by which letter case does not count. -/
theorem meaning_ignoreFlags_class {place place' : Place} {node : Node} {after : Modes}
    (h : (Ast.concat [.flags [(.ignoreCase, true)] place, .bracket set place']).meaning? .initial
      = some (node, after)) :
    ∃ held, set.meaning? ⟨true, true⟩ = some held ∧ node = .seq .empty (.char held) := by
  obtain ⟨⟨nodes, last⟩, hnodes, heq⟩ := Option.bind_eq_some_iff.mp h
  cases heq
  obtain ⟨first, between, rest, hfirst, hrest, rfl⟩ := meanings_cons hnodes
  cases hfirst
  obtain ⟨second, last', others, hsecond, hothers, rfl⟩ := meanings_cons hrest
  cases hothers
  obtain ⟨held, hheld, heq⟩ := Option.map_eq_some_iff.mp hsecond
  cases heq
  exact ⟨held, hheld, rfl⟩

end Regular

/-! ### What is found -/

/-- Nodes that run alike are found alike. -/
theorem Search.find_congr {search : Search} {node other : Node}
    (h : ∀ limit rest, node.run search limit rest = other.run search limit rest) (groups : Nat) :
    search.find node groups = search.find other groups := by
  have hfrom : ∀ fuel pos spent, findFrom search node groups pos spent fuel
      = findFrom search other groups pos spent fuel := by
    intro fuel
    induction fuel with
    | zero => exact fun pos spent => rfl
    | succ fuel ih =>
      intro pos spent
      have hgroup : ∀ limit rest, (Node.group 0 node).run search limit rest
          = (Node.group 0 other).run search limit rest := by
        intro limit rest
        rw [Node.run, Node.run]
        exact funext fun pos => funext fun slots => funext fun spent => by rw [h]
      rw [findFrom, findFrom, hgroup, funext (ih (pos + 1))]
  exact hfrom _ _ _

namespace Matcher

/-- What becomes of a pattern that can be read. -/
theorem ofRegular_of_parse {pattern : List Char} {ast : Regular.Ast} {groups : Nat}
    (h : Regular.parse? pattern = some (ast, groups)) :
    ofRegular? pattern = if maxWeight < ast.weight then none
      else (ast.meaning? .initial).map fun found =>
        ⟨String.ofList pattern, found.1, groups, false, none⟩ := by
  unfold ofRegular?
  simp only [h, bind, Option.bind_some]
  split
  · rfl
  · cases ast.meaning? .initial <;> rfl

/-- Matchers whose nodes run alike find the same. -/
theorem search_congr {matcher other : Matcher} (hgroups : matcher.groups = other.groups)
    (hlimit : matcher.limit = other.limit)
    (hrun : ∀ search limit rest, matcher.node.run search limit rest
      = other.node.run search limit rest) (text : Array Char) (start : Nat) :
    matcher.search text start = other.search text start := by
  unfold search
  rw [hgroups, hlimit, Search.find_congr (hrun _)]

end Matcher

/-- The folded text of a class is a pattern that finds what the class
finds where letter case does not count. Whether it is too large is
another matter, as the variants make it larger. -/
theorem search_foldClass {body : List Char} {set : ClassSet}
    (hclass : parseClass? false (body ++ [']']) = some (set, [])) {ignoring : Matcher}
    (hignoring : Matcher.ofRegular? (ignoreFlags ++ '[' :: (body ++ [']'])) = some ignoring)
    (hread : isMisread body = false) :
    ∃ ast, Regular.parse? (foldClass ('[' :: (body ++ [']']))) = some (ast, 0) ∧
      (ast.weight ≤ maxWeight →
        ∃ folded, Matcher.ofRegular? (foldClass ('[' :: (body ++ [']']))) = some folded ∧
          ∀ text start, folded.search text start = ignoring.search text start) := by
  obtain ⟨place, place', hparse⟩ := Regular.parse_ignoreFlags_class hclass
  obtain ⟨ast, groups, node, after, hparse', hmeaning, rfl⟩ := Matcher.ofRegular_eq_some hignoring
  rw [hparse] at hparse'
  split at hparse'
  case isFalse => cases hparse'
  rename_i hdepth
  cases hparse'
  obtain ⟨held, hheld, rfl⟩ := Regular.meaning_ignoreFlags_class hmeaning
  -- Either way, what is folded means one character that the class holds.
  have hfound : ∀ {ast : Regular.Ast} {last : Regular.Modes},
      Regular.parse? (foldClass ('[' :: (body ++ [']']))) = some (ast, 0) →
      ast.meaning? .initial = some (.char held, last) →
      ast.weight ≤ maxWeight →
        ∃ folded, Matcher.ofRegular? (foldClass ('[' :: (body ++ [']']))) = some folded ∧
          ∀ text start, folded.search text start = Matcher.search ⟨String.ofList (ignoreFlags ++
            '[' :: (body ++ [']'])), .seq .empty (.char held), 0, false, none⟩ text start := by
    intro ast last hast hmeans hweight
    rw [Matcher.ofRegular_of_parse hast, if_neg (Nat.not_lt.mpr hweight), hmeans]
    exact ⟨_, rfl, Matcher.search_congr rfl rfl fun _ _ _ => rfl⟩
  rw [foldClass_brackets] at hfound ⊢
  cases hfolded : foldedBody? body with
  | some folded =>
    obtain ⟨foldedSet, held', hread, hdepth', hset, hheld'⟩ :=
      meaning_foldedBody hclass hread hfolded
    cases hheld.symm.trans hset
    obtain ⟨place, hparse⟩ := Regular.parse_class hread (Nat.le_trans hdepth' (by decide))
    rw [hfolded] at hfound
    exact ⟨_, hparse, hfound hparse (Regular.meaning_class hheld')⟩
  | none =>
    obtain ⟨start, place, hparse⟩ := Regular.parse_ignoringCase_class hclass hdepth
    rw [hfolded] at hfound
    exact ⟨_, hparse, hfound hparse (Regular.meaning_ignoringCase_class hheld)⟩

theorem search_foldClass_lettersAndDigits :
    parseClass? false ("^\\da-c-".toList ++ [']'])
        = some (.bracket true (.unionAll [.short .digit false, .range 'a' 'c', .literal '-']), []) ∧
      isMisread "^\\da-c-".toList = false ∧
      ∃ ignoring, Matcher.ofRegular? (ignoreFlags ++ '[' :: ("^\\da-c-".toList ++ [']']))
          = some ignoring ∧
        ∃ ast, Regular.parse? (foldClass ('[' :: ("^\\da-c-".toList ++ [']']))) = some (ast, 0) ∧
          (ast.weight ≤ maxWeight → ∃ folded,
            Matcher.ofRegular? (foldClass ('[' :: ("^\\da-c-".toList ++ [']']))) = some folded ∧
              ∀ text start, folded.search text start = ignoring.search text start) := by
  have hclass : parseClass? false ("^\\da-c-".toList ++ [']'])
      = some (.bracket true (.unionAll [.short .digit false, .range 'a' 'c', .literal '-']), []) := by
    decide +kernel
  have hread : isMisread "^\\da-c-".toList = false := by decide +kernel
  have hcompiled : (Matcher.ofRegular? (ignoreFlags ++ '[' :: ("^\\da-c-".toList ++ [']']))).isSome
      = true := by rfl
  obtain ⟨ignoring, hignoring⟩ := Option.isSome_iff_exists.mp hcompiled
  exact ⟨hclass, hread, ignoring, hignoring, search_foldClass hclass hignoring hread⟩

end Highlighter.Regex
