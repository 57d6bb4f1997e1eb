import Highlighter.Proofs.Regex.Extended.Apart
import Highlighter.Proofs.Regex.FoldedClass

/-!
# Folded classes in the extended dialect

A class that is spelt out with all case variants of its members is a class of the extended dialect,
whatever the members are (`parseBracket_foldedBody`): what is written for them is read back, also
where folding does not read them as the dialect does.
-/

set_option autoImplicit false

namespace Highlighter.Pattern

/-! ### Ranges that are written -/

/-- Both ends of a range are below the surrogates. -/
def EndsLow (range : CodeRange) : Prop := range.1 < 0xD800 ∧ range.2 < 0xD800

variable {given : List CodeRange} {first : Bool} {items : List ClassItem}

/-- The starts of ranges are hyphens or codes of members. -/
theorem start_of_mem_ranges {range : CodeRange} (h : range ∈ ranges first items) :
    range.1 = 0x2D ∨ .code range.1 ∈ items := by
  fun_induction ranges first items with
  | case1 => cases h
  | case2 first letter rest ih => exact (ih h).imp_right (List.mem_cons_of_mem _)
  | _ =>
    rename_i ih
    rcases List.mem_cons.mp h with rfl | hrest
    · simp
    · exact (ih hrest).imp_right fun hcode => by grind

/-- A member that is no class with a letter of its own makes a range. -/
theorem ranges_cons_ne_nil {item : ClassItem} (h : item.shorthandText = []) :
    ranges first (item :: items) ≠ [] := by
  generalize hall : item :: items = all
  fun_cases ranges first all with
  | case1 => cases hall
  | case2 =>
    cases hall
    cases h
  | _ => exact List.cons_ne_nil _ _

theorem endsLow_ranges (h : items.any ClassItem.isOutsideAscii = false) :
    ∀ range ∈ ranges first items, EndsLow range := by
  intro range hrange
  have hcode : ∀ value, ClassItem.code value ∈ items → value < 0xD800 := fun value hvalue =>
    Nat.lt_of_le_of_lt (le_of_not_isOutsideAscii h hvalue) (by decide)
  refine ⟨?_, ?_⟩
  · rcases start_of_mem_ranges hrange with hhyphen | hstart
    · omega
    · exact hcode _ hstart
  · rcases stop_of_mem_ranges hrange with hhyphen | hstop
    · omega
    · exact hcode _ hstop

theorem endsLow_closed (h : ∀ range ∈ given, EndsLow range) :
    ∀ range ∈ closed given, EndsLow range := by
  intro range hrange
  rcases List.mem_append.mp hrange with hboth | houtside
  · obtain ⟨⟨start, stop⟩, hmem, hother⟩ := List.mem_flatMap.mp hboth
    have hlow := h _ hmem
    unfold withOtherCase at hother
    dsimp only at hother
    simp only [List.mem_append, List.mem_cons] at hother
    unfold EndsLow at hlow ⊢
    rcases hother with (rfl | hlower) | hupper
    · exact hlow
    · split at hlower
      · rename_i hcond
        obtain rfl := List.mem_singleton.mp hlower
        simp only [Bool.and_eq_true, decide_eq_true_eq] at hcond ⊢
        omega
      · cases hlower
    · split at hupper
      · rename_i hcond
        obtain rfl := List.mem_singleton.mp hupper
        simp only [Bool.and_eq_true, decide_eq_true_eq] at hcond ⊢
        omega
      · cases hupper
  · obtain ⟨⟨letter, other⟩, hmem, rfl⟩ := List.mem_map.mp houtside
    have hall : ∀ entry ∈ variantsOutsideAscii, entry.2.toNat < 0xD800 := by decide
    have hlow := hall _ (List.mem_filter.mp hmem).1
    exact ⟨hlow, hlow⟩

theorem endsLow_merged (h : ∀ range ∈ given, EndsLow range) :
    ∀ range ∈ merged given, EndsLow range := by
  rcases merged_cases given with ⟨-, hnil⟩ | ⟨first, rest, hperm, -, hjoined⟩
  · rw [hnil]
    exact List.forall_mem_nil _
  · rw [hjoined]
    refine forall_joinSorted (fun first second hfirst hsecond => ?_) fun range hrange =>
      h range (hperm.mem_iff.mp hrange)
    exact ⟨hfirst.1, Nat.max_lt.mpr ⟨hfirst.2, hsecond.2⟩⟩

/-- The text of ranges lists members, also where a range stops before it starts. -/
theorem lists_endsLow (h : ∀ range ∈ given, EndsLow range) :
    ∃ items, Lists Denotes (given.flatMap rangeText) items ∧ (items = [] ↔ given = []) ∧
      ∀ c ∈ (given.flatMap rangeText).head?, isClassSign c = false := by
  -- Such a range is written as its start alone.
  let inOrder : CodeRange → CodeRange := fun range =>
    if range.1 < range.2 then range else (range.1, range.1)
  have htext : ∀ range, rangeText (inOrder range) = rangeText range := by
    intro range
    by_cases hlt : range.1 < range.2
    · simp [inOrder, hlt]
    · simp [inOrder, hlt, rangeText]
  have hproper : ∀ range ∈ given.map inOrder, IsProper range := by
    intro range hrange
    obtain ⟨source, hsource, rfl⟩ := List.mem_map.mp hrange
    obtain ⟨hstart, hstop⟩ := h source hsource
    by_cases hlt : source.1 < source.2
    · simp only [inOrder, if_pos hlt]
      exact ⟨Nat.le_of_lt hlt, .inl hstart, .inl hstop⟩
    · simp only [inOrder, if_neg hlt]
      exact ⟨Nat.le_refl _, .inl hstart, .inl hstart⟩
  have hwritten : (given.map inOrder).flatMap rangeText = given.flatMap rangeText := by
    rw [List.flatMap_map]
    exact congrArg (given.flatMap ·) (funext htext)
  obtain ⟨hlists, hsign⟩ := lists_rangeText hproper
  rw [hwritten] at hlists hsign
  exact ⟨_, hlists, by simp, hsign⟩

/-! ### Classes with a letter of their own -/

theorem exists_shortLetter {letter : Char} (h : "dDsSwW".toList.contains letter = true) :
    ∃ kind negated, letter = shortLetter kind negated := by
  have hcases : letter = 'd' ∨ letter = 'D' ∨ letter = 's' ∨ letter = 'S' ∨ letter = 'w' ∨
      letter = 'W' := by simpa using h
  rcases hcases with rfl | rfl | rfl | rfl | rfl | rfl
  · exact ⟨.digit, false, rfl⟩
  · exact ⟨.digit, true, rfl⟩
  · exact ⟨.space, false, rfl⟩
  · exact ⟨.space, true, rfl⟩
  · exact ⟨.word, false, rfl⟩
  · exact ⟨.word, true, rfl⟩

open ClassItem in
/-- A class with a letter of its own is read by one of the six letters. -/
theorem contains_of_readEscape {cs left : List Char} {letter : Char}
    (h : readEscape cs = (shorthand letter, left)) : "dDsSwW".toList.contains letter = true := by
  have hcode : ∀ most cs, (readCode most cs).1 ≠ shorthand letter := by
    intro most cs
    unfold readCode
    split
    · dsimp only
      split <;> rintro ⟨⟩
    · rintro ⟨⟩
  unfold readEscape at h
  split at h
  · cases h
  · split at h <;> first
      | exact absurd (congrArg Prod.fst h) (hcode _ _)
      | cases h
      | skip
    split at h
    · cases h
      assumption
    · cases h

open ClassItem in
/-- What is written for the classes with a letter of their own is written for members. -/
theorem exists_shortTexts (steps : Nat) (body : List Char) :
    ∃ members : List ClassMember, (ofBodyWithin steps body).flatMap shorthandText
      = members.flatMap ClassMember.shortText := by
  induction steps generalizing body with
  | zero => exact ⟨[], rfl⟩
  | succ steps ih =>
    cases body with
    | nil => exact ⟨[], rfl⟩
    | cons c rest =>
      by_cases hslash : c = '\\'
      · subst hslash
        obtain ⟨members, hmembers⟩ := ih (readEscape rest).2
        show ∃ members : List ClassMember, ((readEscape rest).1 ::
          ofBodyWithin steps (readEscape rest).2).flatMap shorthandText = _
        rw [List.flatMap_cons, hmembers]
        cases hitem : (readEscape rest).1 with
        | shorthand letter =>
          obtain ⟨kind, negated, rfl⟩ := exists_shortLetter
            (contains_of_readEscape (Prod.ext hitem rfl))
          exact ⟨.short kind negated :: members, rfl⟩
        | code | dash => exact ⟨members, rfl⟩
      · obtain ⟨members, hmembers⟩ := ih rest
        rw [ofBodyWithin_plain hslash, List.flatMap_cons, hmembers]
        refine ⟨members, ?_⟩
        unfold ofText
        split <;> rfl

end Highlighter.Pattern

namespace Highlighter.Regex.Extended

open Pattern

variable {reading : Reading} {cs left body folded : List Char}

/-! ### Where classes close -/

theorem suffix_of_parseCode {digits : Nat} {c : Char} (h : parseCode? digits cs = some (c, left)) :
    left <:+ cs := by
  unfold parseCode? at h
  dsimp only at h
  split at h
  · obtain ⟨number, -, h⟩ := Option.bind_eq_some_iff.mp h
    obtain ⟨c, -, heq⟩ := Option.bind_eq_some_iff.mp h
    cases heq
    exact List.drop_suffix _ _
  · split at h
    · rename_i _ rest _
      split at h
      · rename_i after hafter
        split at h
        · obtain ⟨number, -, h⟩ := Option.bind_eq_some_iff.mp h
          obtain ⟨c, -, heq⟩ := Option.bind_eq_some_iff.mp h
          cases heq
          have hdrop := List.drop_suffix (rest.takeWhile fun c => (hexValue? c).isSome).length rest
          rw [hafter] at hdrop
          exact (List.suffix_cons _ _).trans (hdrop.trans (List.suffix_cons _ _))
        · cases h
      · cases h
    · cases h

theorem suffix_of_parsePropertyText {text : List Char}
    (h : parsePropertyText? cs = some (text, left)) : left <:+ cs := by
  unfold parsePropertyText? at h
  split at h
  · cases h
  · rename_i rest
    split at h
    · rename_i after hafter
      cases h
      have hdrop := List.dropWhile_suffix (l := rest) (· != '}')
      rw [hafter] at hdrop
      exact (List.suffix_cons _ _).trans (hdrop.trans (List.suffix_cons _ _))
    · cases h
  · cases h
    exact List.suffix_cons _ _

theorem suffix_of_classEscape {text : List Char} (h : classEscape? cs = some (text, left)) :
    left <:+ cs := by
  obtain ⟨⟨escape, after, rest⟩, hescape, htext⟩ := Option.bind_eq_some_iff.mp h
  obtain ⟨written, -, heq⟩ := Option.map_eq_some_iff.mp htext
  obtain rfl : rest = left := congrArg Prod.snd heq
  cases cs with
  | nil => cases hescape
  | cons c cs =>
    refine List.IsSuffix.trans ?_ (List.suffix_cons c cs)
    have hcode : ∀ {digits : Nat}, parseEscape?.code .blank digits cs = some (escape, after, rest) →
        rest <:+ cs := by
      intro digits h
      obtain ⟨⟨d, others⟩, hread, heq⟩ := Option.bind_eq_some_iff.mp h
      cases heq
      exact suffix_of_parseCode hread
    have hproperty : ∀ {letter : Char}, parseEscape?.property .blank letter cs
        = some (escape, after, rest) → rest <:+ cs := by
      intro letter h
      obtain ⟨⟨d, others⟩, hread, heq⟩ := Option.bind_eq_some_iff.mp h
      cases heq
      exact suffix_of_parsePropertyText hread
    unfold parseEscape? at hescape
    simp only [Bool.not_true, Bool.false_and, Bool.false_eq_true, if_false] at hescape
    split at hescape
    · cases hescape
    · split at hescape
      · exact hcode hescape
      · exact hcode hescape
      · exact hcode hescape
      · exact hproperty hescape
      · exact hproperty hescape
      · obtain ⟨plain, -, heq⟩ := Option.bind_eq_some_iff.mp hescape
        cases heq
        exact List.suffix_refl _

/-- A class ends with its closing bracket. -/
theorem close_of_classText {depth steps : Nat} {text : List Char}
    (h : classText? reading depth steps cs = some (text, left)) : ']' :: left <:+ cs := by
  induction steps generalizing depth cs text with
  | zero => cases h
  | succ steps ih =>
    cases cs with
    | nil => cases h
    | cons c cs =>
      by_cases hslash : c = '\\'
      · subst hslash
        rw [classText_escape] at h
        obtain ⟨⟨written, rest⟩, hescape, h⟩ := Option.bind_eq_some_iff.mp h
        obtain ⟨⟨others, rest'⟩, hothers, heq⟩ := Option.map_eq_some_iff.mp h
        cases heq
        exact (ih hothers).trans ((suffix_of_classEscape hescape).trans (List.suffix_cons _ _))
      · rw [classText_cons hslash] at h
        split at h
        · rename_i hclose
          cases h
          exact hclose.1 ▸ List.suffix_refl _
        · obtain ⟨⟨others, rest'⟩, hothers, heq⟩ := Option.map_eq_some_iff.mp h
          cases heq
          exact (ih hothers).trans (List.suffix_cons _ _)

theorem suffix_openBracket (cs : List Char) : (openBracket cs).2 <:+ cs := by
  unfold openBracket
  split
  · exact (List.suffix_cons _ _).trans (List.suffix_cons _ _)
  · exact List.suffix_cons _ _
  · exact List.suffix_cons _ _
  · exact List.suffix_refl _

/-- A class has members before its closing bracket. -/
theorem exists_members {tree : Tree} (h : parseBracket? reading cs = some (tree, left)) :
    ∃ body, cs = body ++ ']' :: left ∧ (splitNegation body).2 ≠ [] := by
  rw [parseBracket_eq] at h
  obtain ⟨⟨text, rest⟩, htext, h⟩ := Option.bind_eq_some_iff.mp h
  obtain ⟨set, -, heq⟩ := Option.map_eq_some_iff.mp h
  obtain rfl : rest = left := congrArg Prod.snd heq
  have hclose := close_of_classText htext
  obtain ⟨body, rfl⟩ := hclose.trans (suffix_openBracket cs)
  refine ⟨body, rfl, fun hnil => ?_⟩
  -- Where the bracket would close at once, it is a member.
  have hmember : (openBracket (body ++ ']' :: rest)).2 = rest := by
    unfold splitNegation at hnil
    split at hnil <;> subst hnil <;> rfl
  rw [hmember] at hclose
  exact absurd hclose.length_le (by simp)

/-! ### Reading back -/

theorem classEscape_short (kind : ShortClass) (negated : Bool) (rest : List Char) :
    classEscape? (shortLetter kind negated :: rest)
      = some (['\\', shortLetter kind negated], rest) := by
  cases kind <;> cases negated <;> rfl

/-- Classes with a letter of their own are left as they are. -/
theorem classText_shortTexts (members : List ClassMember) {written : List Char}
    (h : ∀ reading steps rest, body.length < steps →
      classText? reading 1 steps (body ++ ']' :: rest) = some (written ++ [']'], rest))
    (reading : Reading) {steps : Nat}
    (hsteps : (members.flatMap ClassMember.shortText ++ body).length < steps) (rest : List Char) :
    classText? reading 1 steps (members.flatMap ClassMember.shortText ++ (body ++ ']' :: rest))
      = some (members.flatMap ClassMember.shortText ++ (written ++ [']']), rest) := by
  induction members generalizing steps with
  | nil => exact h reading steps rest hsteps
  | cons member members ih =>
    cases member with
    | listed item => exact ih hsteps
    | short kind negated =>
      obtain ⟨steps, rfl⟩ : ∃ count, steps = count + 1 := ⟨steps - 1, by omega⟩
      show classText? reading 1 (steps + 1) ('\\' :: shortLetter kind negated ::
        (members.flatMap ClassMember.shortText ++ (body ++ ']' :: rest))) = _
      rw [classText_escape, classEscape_short, Option.bind_some, ih, Option.map_some]
      · rfl
      · simp only [List.flatMap_cons, ClassMember.shortText, List.length_append, List.length_cons,
          List.length_nil] at hsteps ⊢
        omega

theorem eq_of_head?_shortTexts (members : List ClassMember) :
    ∀ c ∈ (members.flatMap ClassMember.shortText).head?, c = '\\' := by
  induction members with
  | nil => nofun
  | cons member members ih =>
    cases member with
    | listed item => exact ih
    | short kind negated =>
      rintro c ⟨⟩
      rfl

/-- What is written for members starts with no sign. -/
theorem isClassSign_members {members : List ClassMember} {items : List Listed}
    (h : Lists Denotes body items) (hne : members.flatMap ClassMember.shortText ++ body ≠ [])
    (hsign : ∀ c ∈ body.head?, isClassSign c = false) (rest : List Char) :
    ∀ c ∈ (members.flatMap ClassMember.shortText ++ (body ++ ']' :: rest)).head?,
      isClassSign c = false ∧ c ≠ ']' := by
  intro c hc
  have hshort := eq_of_head?_shortTexts members
  generalize members.flatMap ClassMember.shortText = texts at hne hc hshort
  cases texts with
  | cons d texts =>
    cases hc
    obtain rfl := hshort c rfl
    decide
  | nil =>
    cases body with
    | nil => exact absurd rfl hne
    | cons d body =>
      cases hc
      exact ⟨hsign c rfl, fun heq => h.head?_ne_close (congrArg some heq)⟩

/-- Members that start with no sign make a set of the regular dialect. -/
theorem writtenSet_members (negated : Bool) {members : List ClassMember} {items : List Listed}
    (h : Lists Spells body items) (hne : members.flatMap ClassMember.shortText ++ body ≠ [])
    (hsign : ∀ c ∈ body.head?, isClassSign c = false) :
    ∃ set : ClassSet, (set.meaning? ⟨false, true⟩).isSome = true ∧
      writtenSet? ('[' :: (negation negated ++
        (members.flatMap ClassMember.shortText ++ (body ++ [']'])))) = some set := by
  have hdenotes : Lists Denotes body items := h.mono fun _ _ => .spelt
  have hhead := isClassSign_members hdenotes hne hsign []
  have hhyphen : body.head? ≠ some '-' := fun heq => absurd (hsign '-' heq) (by decide)
  have hmembers := parseMembers_shortTexts members hdenotes hhyphen []
    (show _ < (members.flatMap ClassMember.shortText ++ (body ++ [']'])).length + 1 by
      simp only [List.length_append, List.length_singleton]
      omega) []
  have hclasses : [].reverse ++ ((members.filter ClassMember.isShort).map ClassMember.toClass
      ++ items.map Listed.toClass)
        = (members.filter ClassMember.isShort ++ items.map ClassMember.listed).map
          ClassMember.toClass := by
    rw [List.reverse_nil, List.nil_append, List.map_append, List.map_map]
    rfl
  rw [hclasses] at hmembers
  have hclass : parseClass? false (negation negated ++ _) = _ :=
    parseClass_members hhead (by simp) hmembers
  generalize members.filter ClassMember.isShort ++ items.map ClassMember.listed = found at hclass
  have hdepth : (ClassSet.unionAll (found.map ClassMember.toClass)).depth ≤ 1 :=
    (depth_unionAll (by simp [ClassMember.depth_toClass])).1
  refine ⟨.bracket negated (.unionAll (found.map ClassMember.toClass)), ?_, ?_⟩
  · rw [ClassSet.meaning?, meaning_unionAll_map fun member => member.meaning_toClass false]
    cases negated <;> rfl
  · unfold writtenSet?
    simp only [hclass, bind, Option.bind_some]
    exact if_pos (Nat.le_trans (Nat.succ_le_succ hdepth) (by decide))

theorem openBracket_members (negated : Bool)
    (h : ∀ c ∈ cs.head?, isClassSign c = false ∧ c ≠ ']') :
    openBracket (negation negated ++ cs) = ('[' :: negation negated, cs) := by
  have hclose : cs.head? ≠ some ']' := fun hhead => (h ']' hhead).2 rfl
  cases negated with
  | true => exact openBracket_caret hclose
  | false => exact openBracket_plain (fun hhead => absurd (h '^' hhead).1 (by decide)) hclose

/-- Whatever members there are, some text is written for them. -/
theorem foldedText_ne_nil (hbody : body ≠ []) :
    (ClassItem.ofBody body).flatMap ClassItem.shorthandText ≠ [] ∨
      ranges true (ClassItem.ofBody body) ≠ [] := by
  cases body with
  | nil => exact absurd rfl hbody
  | cons c rest =>
    obtain ⟨item, items, hitems⟩ : ∃ item items, ClassItem.ofBody (c :: rest) = item :: items := by
      unfold ClassItem.ofBody
      by_cases hslash : c = '\\'
      · subst hslash
        exact ⟨_, _, rfl⟩
      · exact ⟨_, _, ClassItem.ofBodyWithin_plain hslash _ _⟩
    rw [hitems]
    cases item with
    | shorthand letter => exact .inl nofun
    | code | dash => exact .inr (ranges_cons_ne_nil rfl)

/-- What is spelt out for a class is read as a set. -/
theorem parseBracket_foldedBody (hbody : (splitNegation body).2 ≠ [])
    (h : foldedBody? body = some folded) :
    ∃ set : ClassSet, (set.meaning? ⟨false, true⟩).isSome = true ∧
      ∀ (reading : Reading) (rest : List Char), parseBracket? reading (folded ++ ']' :: rest)
        = some (.set set reading.flags.ignoreCase, rest) := by
  obtain ⟨negated, hnegated⟩ : ∃ negated, (splitNegation body).1 = negation negated := by
    unfold splitNegation
    split
    · exact ⟨true, rfl⟩
    · exact ⟨false, rfl⟩
  unfold foldedBody? at h
  generalize splitNegation body = parts at hbody h hnegated
  obtain ⟨opening, members⟩ := parts
  dsimp only at hbody h hnegated
  split at h
  · cases h
  · rename_i hplain
    cases h
    have hinside := (Bool.or_eq_false_iff.mp (Bool.eq_false_iff.mpr hplain)).2
    have hlow : ∀ range ∈ merged (closed (ranges true (ClassItem.ofBody members))), EndsLow range :=
      endsLow_merged (endsLow_closed (endsLow_ranges hinside))
    obtain ⟨items, hlists, hitems, hsign⟩ := lists_endsLow hlow
    obtain ⟨shorts, hshorts⟩ := exists_shortTexts members.length members
    obtain ⟨written, hspells, hsame, ⟨-, hempty⟩, hread⟩ := classText_lists hlists
    have hne : shorts.flatMap ClassMember.shortText ++
        (merged (closed (ranges true (ClassItem.ofBody members)))).flatMap rangeText ≠ [] := by
      rw [← hshorts]
      rcases foldedText_ne_nil hbody with hshort | hranges
      · exact List.append_ne_nil_of_left_ne_nil hshort _
      · exact List.append_ne_nil_of_right_ne_nil _
          (hlists.ne_nil.mpr (mt hitems.mp (merged_ne_nil (closed_ne_nil hranges))))
    -- The dialect spells the ranges anew before it leaves the class to the regular one.
    have hsigns := isClassSign_members hlists hne hsign
    generalize (merged (closed (ranges true (ClassItem.ofBody members)))).flatMap rangeText = text
      at hlists hsign hsame hempty hread hne hsigns
    have hsign' : ∀ c ∈ written.head?, isClassSign c = false := fun c hc =>
      Bool.eq_false_iff.mpr fun hc' => by
        have hbare := hsign c (hsame c hc' hc)
        rw [hc'] at hbare
        cases hbare
    have hne' : shorts.flatMap ClassMember.shortText ++ written ≠ [] := fun hnil => by
      obtain ⟨hshort, hwritten⟩ := List.append_eq_nil_iff.mp hnil
      exact hne (by rw [hshort, hempty.mp hwritten]; rfl)
    obtain ⟨set, hmeaning, hset⟩ := writtenSet_members negated hspells hne' hsign'
    refine ⟨set, hmeaning, fun reading rest => ?_⟩
    have hshape : opening ++ ((ClassItem.ofBody members).flatMap
        ClassItem.shorthandText ++ text) ++ ']' :: rest
        = negation negated ++ (shorts.flatMap ClassMember.shortText ++ (text ++ ']' :: rest)) := by
      have hshort : (ClassItem.ofBody members).flatMap ClassItem.shorthandText = _ := hshorts
      rw [hnegated, hshort]
      simp only [List.append_assoc]
    rw [hshape, parseBracket_eq, openBracket_members negated (hsigns rest),
      classText_shortTexts shorts hread reading (by simp only [List.length_append]; omega) rest,
      Option.bind_some, List.cons_append, hset]
    rfl

end Highlighter.Regex.Extended
