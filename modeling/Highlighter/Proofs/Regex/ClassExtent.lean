import Highlighter.Proofs.Pattern.Parts
import Highlighter.Proofs.Regex.ClassEnd
import Highlighter.Proofs.Unicode.Property

/-!
# Where classes end

`Part.classExtent` looks for the end of a class by counting brackets, and `parseClass?` reads the
members. The two agree (`classExtent_of_parseClass`) unless a bracket inside the class is a member
where the count takes it for one that opens or closes (`hidesEnd`): a closing bracket that comes
first in a nested class, or an opening bracket that ends a range.
-/

set_option autoImplicit false

namespace Highlighter.Regex

open Pattern Unicode.Property

/-! ### Brackets that are members -/

/-- Whether a class opens with a closing bracket, which is a member there. -/
def opensWithClose : List Char → Bool
  | ']' :: _ => true
  | '^' :: ']' :: _ => true
  | _ => false

/-- Whether a range comes next that ends with an opening bracket, which is a member there. -/
def rangesToOpen (cs : List Char) : Bool :=
  match parseMember? false cs with
  | some (_, '-' :: '[' :: _) => true
  | _ => false

/-- Whether a bracket is a member, from the members `cs` of a class up to the end of the class,
where counting brackets would have it open or close a class. Members are passed over as
`parseMembers?` does. -/
def hidesEndWithin : Nat → List Char → Bool
  | 0, _ => false
  | _ + 1, [] => false
  | steps + 1, c :: tail =>
    if c = ']' then false
    else if c = '[' then
      match parsePosix? tail with
      | some (_, rest) => hidesEndWithin steps rest
      | none =>
        opensWithClose tail ||
          match openClass? false tail with
          | none => false
          | some (_, inner, rest) =>
            hidesEndWithin steps rest ||
              match parseMembers? false steps none inner.reverse rest with
              | none => false
              | some (_, rest) => hidesEndWithin steps rest
    else if tail.head? = some c ∧ doubledOp? c ≠ none then hidesEndWithin steps tail.tail
    else
      rangesToOpen (c :: tail) ||
        match parseRange? false (c :: tail) with
        | none => false
        | some (_, rest) => hidesEndWithin steps rest

/-- Whether a bracket is a member of a class, after its own bracket, where counting brackets would
have it open or close a class. A closing bracket that the class itself opens with is not meant. -/
def hidesEnd (cs : List Char) : Bool :=
  match openClass? false cs with
  | none => false
  | some (_, _, rest) => hidesEndWithin (rest.length + 1) rest

variable {cs left : List Char}

/-! ### Texts that a count of brackets passes over -/

/-- A text after which as many brackets are open as before. -/
def Neutral (text : List Char) : Prop :=
  ∀ depth rest, Part.classRest depth (text ++ rest) = text.length + Part.classRest depth rest

namespace Neutral

variable {text other : List Char}

theorem nil : Neutral [] := fun _ _ => (Nat.zero_add _).symm

theorem append (h : Neutral text) (h' : Neutral other) : Neutral (text ++ other) := by
  intro depth rest
  rw [List.append_assoc, h, h', List.length_append, Nat.add_assoc]

theorem single {c : Char} (h : isClassMark c = false) : Neutral [c] := by
  have hne : ∀ d, isClassMark d = true → c ≠ d := by
    rintro d hd rfl
    rw [hd] at h
    cases h
  intro depth rest
  rw [List.singleton_append, Part.classRest_plain (hne _ rfl) (hne _ rfl) (hne _ rfl),
    List.length_singleton, Nat.add_comm]

theorem of_unmarked (h : Unmarked text) : Neutral text := by
  induction text with
  | nil => exact nil
  | cons c text ih =>
    obtain ⟨hc, htext⟩ := List.forall_mem_cons.mp h
    exact (single hc).append (ih htext)

theorem escape (letter : Char) : Neutral ['\\', letter] := by
  intro depth rest
  rw [List.cons_append, List.singleton_append, Part.classRest, List.length_cons,
    List.length_singleton, Nat.add_comm]

theorem nested (h : Neutral text) : Neutral ('[' :: (text ++ [']'])) := by
  intro depth rest
  rw [List.cons_append, List.append_assoc, Part.classRest, h, List.singleton_append,
    Part.classRest, if_neg (by omega)]
  simp only [List.length_cons, List.length_append, List.length_nil, Nat.add_sub_cancel]
  omega

end Neutral

/-! ### Members -/

namespace ClassSet

/-- The properties that a class asks for. -/
def queries : ClassSet → List PropertyQuery
  | property query _ => [query]
  | union first second => first.queries ++ second.queries
  | bracket _ body => body.queries
  | intersection first second => first.queries ++ second.queries
  | difference first second => first.queries ++ second.queries
  | symmetricDifference first second => first.queries ++ second.queries
  | _ => []

/-- Whether all properties that a class asks for exist. -/
def IsKnown (set : ClassSet) : Prop := ∀ query ∈ set.queries, query.find?.isSome = true

theorem isKnown_of_meaning {set : ClassSet} {mode : CharMode} {members : CharSet}
    (h : set.meaning? mode = some members) : set.IsKnown := by
  have hboth : ∀ {first second : ClassSet} {combine : CharSet → CharSet → CharSet}
      {both : CharSet}, (∀ {members}, first.meaning? mode = some members → first.IsKnown) →
      (∀ {members}, second.meaning? mode = some members → second.IsKnown) →
      ((first.meaning? mode).bind fun a => (second.meaning? mode).bind fun b =>
        some (combine a b)) = some both →
      ∀ query ∈ first.queries ++ second.queries, query.find?.isSome = true := by
    intro first second combine both hfirst hsecond h
    obtain ⟨a, ha, h⟩ := Option.bind_eq_some_iff.mp h
    obtain ⟨b, hb, -⟩ := Option.bind_eq_some_iff.mp h
    exact List.forall_mem_append.mpr ⟨hfirst ha, hsecond hb⟩
  induction set generalizing members with
  | property query negated =>
    refine List.forall_mem_singleton.mpr ?_
    rw [meaning?, PropertyQuery.members?] at h
    split at h
    · cases h
    · obtain ⟨found, hfound, -⟩ := Option.map_eq_some_iff.mp h
      rw [hfound]
      rfl
  | union first second ih ih' => exact hboth ih ih' h
  | bracket negated body ih =>
    obtain ⟨inner, hinner, -⟩ := Option.bind_eq_some_iff.mp h
    exact ih hinner
  | intersection first second ih ih' => exact hboth ih ih' h
  | difference first second ih ih' => exact hboth ih ih' h
  | symmetricDifference first second ih ih' => exact hboth ih ih' h
  | _ => exact List.forall_mem_nil _

theorem queries_unionAll (items : List ClassSet) {item : ClassSet} (h : item ∈ items) :
    item.queries ⊆ (unionAll items).queries := by
  induction items with
  | nil => cases h
  | cons first rest ih =>
    cases rest with
    | nil =>
      obtain rfl := List.mem_singleton.mp h
      exact List.Subset.refl _
    | cons second rest =>
      rcases List.mem_cons.mp h with rfl | h
      · exact List.subset_append_left _ _
      · exact List.Subset.trans (ih h) (List.subset_append_right _ _)

theorem exists_of_mem_queries {items : List ClassSet} {query : PropertyQuery}
    (h : query ∈ (unionAll items).queries) : ∃ item ∈ items, query ∈ item.queries := by
  induction items with
  | nil => cases h
  | cons first rest ih =>
    cases rest with
    | nil => exact ⟨first, List.mem_cons_self, h⟩
    | cons second rest =>
      rcases List.mem_append.mp h with h | h
      · exact ⟨first, List.mem_cons_self, h⟩
      · obtain ⟨item, hitem, hquery⟩ := ih h
        exact ⟨item, .tail _ hitem, hquery⟩

end ClassSet

theorem queries_closeOperand {pending : Option (ClassOp × ClassSet)} {items : List ClassSet}
    {item : ClassSet} (h : item ∈ items) : item.queries ⊆ (closeOperand pending items).queries := by
  have hitems := ClassSet.queries_unionAll items.reverse (List.mem_reverse.mpr h)
  cases pending with
  | none => exact hitems
  | some before =>
    obtain ⟨op, first⟩ := before
    cases op <;> exact List.Subset.trans hitems (List.subset_append_right _ _)

theorem queries_closeOperand_pending {op : ClassOp} {before : ClassSet} {items : List ClassSet} :
    before.queries ⊆ (closeOperand (some (op, before)) items).queries := by
  cases op <;> exact List.subset_append_left _ _

/-! ### What a class is read from -/

theorem unmarked_of_code {width : Nat} {text digits : List Char} {code : Nat}
    (htext : CodeText width text digits) (hcode : hexNumber? digits = some code) :
    Unmarked text := by
  have hdigits : Unmarked digits := fun c hc => by
    have hhex := isHexDigit_of_hexNumber hcode c hc
    refine Bool.eq_false_iff.mpr fun hmark => ?_
    rcases isClassMark_cases hmark with rfl | rfl | rfl <;> exact absurd hhex (by decide)
  cases htext with
  | braced =>
    exact List.forall_mem_cons.mpr ⟨rfl, List.forall_mem_append.mpr
      ⟨hdigits, List.forall_mem_singleton.mpr rfl⟩⟩
  | fixed => exact hdigits

theorem splitAt?_eq_append {mark text head tail : List Char}
    (h : splitAt? mark text = some (head, tail)) : text = head ++ (mark ++ tail) := by
  induction text generalizing head with
  | nil => cases h
  | cons c rest ih =>
    rw [splitAt?] at h
    split at h
    · rename_i hprefix
      cases h
      exact (List.prefix_iff_eq_append.mp (List.isPrefixOf_iff_prefix.mp hprefix)).symm
    · obtain ⟨⟨before, after⟩, hsplit, heq⟩ := Option.map_eq_some_iff.mp h
      cases heq
      exact congrArg (c :: ·) (ih hsplit)

theorem unmarked_of_name {name : String} (h : (PropertyQuery.named name).find?.isSome = true) :
    Unmarked name.toList := by
  obtain ⟨found, hfound⟩ := Option.isSome_iff_exists.mp h
  obtain ⟨property, hproperty, -⟩ := Option.map_eq_some_iff.mp hfound
  exact unmarked_of_named hproperty

theorem unmarked_of_query {text : List Char} (h : (propertyQuery text).find?.isSome = true) :
    Unmarked text := by
  have hvalued : ∀ {mark name value : List Char} {differs : Bool}, Unmarked mark →
      splitAt? mark text = some (name, value) →
      (PropertyQuery.valued (String.ofList name) (String.ofList value) differs).find?.isSome = true →
      Unmarked text := by
    intro mark name value differs hmark hsplit h
    obtain ⟨found, hfound⟩ := Option.isSome_iff_exists.mp h
    obtain ⟨property, hproperty, -⟩ := Option.map_eq_some_iff.mp hfound
    obtain ⟨hname, hvalue⟩ := unmarked_of_valued hproperty
    rw [String.toList_ofList] at hname hvalue
    rw [splitAt?_eq_append hsplit]
    exact List.forall_mem_append.mpr ⟨hname, List.forall_mem_append.mpr ⟨hmark, hvalue⟩⟩
  unfold propertyQuery at h
  split at h
  · rename_i hsplit
    exact hvalued (by decide) hsplit h
  · split at h
    · rename_i hsplit
      exact hvalued (by decide) hsplit h
    · split at h
      · rename_i hsplit
        exact hvalued (by decide) hsplit h
      · have hname := unmarked_of_name h
        rwa [String.toList_ofList] at hname

/-- A property that exists is named by a text without brackets. -/
theorem unmarked_of_parseProperty {negated : Bool} {query : PropertyQuery}
    (h : parseProperty? false negated cs = some (.property query negated, left))
    (hknown : query.find?.isSome = true) : ∃ text, cs = text ++ left ∧ Unmarked text := by
  unfold parseProperty? at h
  rw [skipBlank_false] at h
  split at h
  · cases h
  · obtain ⟨⟨inner, after⟩, hinner, h⟩ := Option.bind_eq_some_iff.mp h
    cases h
    obtain ⟨rfl, -⟩ := untilBrace_eq_some hinner
    refine ⟨'{' :: (inner ++ ['}']), by simp, List.forall_mem_cons.mpr ⟨rfl, ?_⟩⟩
    exact List.forall_mem_append.mpr
      ⟨unmarked_of_query hknown, List.forall_mem_singleton.mpr rfl⟩
  · cases h
  · rename_i c rest _ _
    cases h
    refine ⟨[c], rfl, ?_⟩
    have hname := unmarked_of_name hknown
    rwa [String.toList_singleton] at hname

/-- An escape that is a member opens and closes nothing. -/
theorem neutral_of_parseEscape {piece : Primitive} {item : ClassSet}
    (h : parseEscape? false cs = some (piece, left)) (hclass : piece.toClass? = some item)
    (hknown : item.IsKnown) : ∃ text, cs = text ++ left ∧ Neutral ('\\' :: text) := by
  cases cs with
  | nil => cases h
  | cons letter rest =>
    have hunmarked : ∀ {text : List Char}, rest = text ++ left → Unmarked text →
        ∃ text, letter :: rest = text ++ left ∧ Neutral ('\\' :: text) := by
      rintro text rfl htext
      exact ⟨letter :: text, rfl, (Neutral.escape letter).append (.of_unmarked htext)⟩
    have hcode : ∀ {width : Nat}, width ≠ 0 → parseCode? false width rest = some (piece, left) →
        ∃ text, letter :: rest = text ++ left ∧ Neutral ('\\' :: text) := by
      intro width hwidth hread
      obtain ⟨text, digits, code, c, byte, heq, htext, hnumber, -, -⟩ :=
        parseCode_eq_some hwidth hread
      exact hunmarked heq (unmarked_of_code htext hnumber)
    have hproperty : ∀ {negated : Bool}, parseProperty? false negated rest = some (piece, left) →
        ∃ text, letter :: rest = text ++ left ∧ Neutral ('\\' :: text) := by
      intro negated hread
      obtain ⟨-, -, query, rfl⟩ := parseProperty_eq_some hread
      cases hclass
      obtain ⟨text, heq, htext⟩ :=
        unmarked_of_parseProperty hread (hknown query (List.mem_singleton_self _))
      exact hunmarked heq htext
    by_cases hletter : "xuUpPb".toList.contains letter = true
    · have hcases : letter = 'x' ∨ letter = 'u' ∨ letter = 'U' ∨ letter = 'p' ∨ letter = 'P' ∨
          letter = 'b' := by simpa using hletter
      rcases hcases with rfl | rfl | rfl | rfl | rfl | rfl
      · exact hcode (by decide) h
      · exact hcode (by decide) h
      · exact hcode (by decide) h
      · exact hproperty h
      · exact hproperty h
      · obtain ⟨sign, hsign⟩ := parseBoundary_anchor h
        cases hsign
        cases hclass
    · rw [parseEscape_letter (Bool.eq_false_iff.mpr hletter)] at h
      obtain ⟨found, -, heq⟩ := Option.map_eq_some_iff.mp h
      cases heq
      exact ⟨[letter], rfl, Neutral.escape letter⟩

/-- A member opens and closes nothing unless it is a bracket itself. -/
theorem neutral_of_parseMember {piece : Primitive} {item : ClassSet}
    (h : parseMember? false cs = some (piece, left)) (hclass : piece.toClass? = some item)
    (hknown : item.IsKnown) (hopen : cs.head? ≠ some '[') (hclose : cs.head? ≠ some ']') :
    ∃ text, cs = text ++ left ∧ Neutral text := by
  unfold parseMember? at h
  split at h
  · cases h
  · obtain ⟨text, rfl, htext⟩ := neutral_of_parseEscape h hclass hknown
    exact ⟨'\\' :: text, rfl, htext⟩
  · rename_i c rest hslash
    cases h
    refine ⟨[c], rfl, .single (Bool.eq_false_iff.mpr fun hmark => ?_)⟩
    rcases isClassMark_cases hmark with rfl | rfl | rfl
    · exact hopen rfl
    · exact hclose rfl
    · exact hslash rfl

/-- A member or a range opens and closes nothing unless a bracket is a member. -/
theorem RangeRead.neutral {item : ClassSet} (h : RangeRead cs item left) (hknown : item.IsKnown)
    (hopen : cs.head? ≠ some '[') (hclose : cs.head? ≠ some ']') (hranges : rangesToOpen cs = false) :
    ∃ text, cs = text ++ left ∧ Neutral text := by
  cases h with
  | single hfirst hclass _ _ => exact neutral_of_parseMember hfirst hclass hknown hopen hclose
  | hyphen hfirst hclass hleft _ =>
    exact neutral_of_parseMember (hleft ▸ hfirst) hclass hknown hopen hclose
  | @range lo hi _ _ rest hfirst hsecond _ _ hclose' _ =>
    have hopen' : rest.head? ≠ some '[' := by
      rintro hhead
      obtain ⟨after, rfl⟩ := List.head?_eq_some_iff.mp hhead
      rw [rangesToOpen, hfirst] at hranges
      cases hranges
    have hliteral : ∀ c, (ClassSet.literal c).IsKnown := fun _ => List.forall_mem_nil _
    obtain ⟨text, rfl, htext⟩ :=
      neutral_of_parseMember hfirst (Primitive.toClass?.eq_1 lo _) (hliteral lo) hopen hclose
    obtain ⟨text', rfl, htext'⟩ :=
      neutral_of_parseMember hsecond (Primitive.toClass?.eq_1 hi _) (hliteral hi) hopen' hclose'
    exact ⟨text ++ ('-' :: text'), by simp, htext.append ((Neutral.single rfl).append htext')⟩

theorem unmarked_negation (negated : Bool) : Unmarked (negation negated) := by
  cases negated
  · exact List.forall_mem_nil _
  · exact List.forall_mem_singleton.mpr rfl

theorem neutral_of_parsePosix {item : ClassSet} (h : parsePosix? cs = some (item, left)) :
    ∃ text, '[' :: cs = text ++ left ∧ Neutral text := by
  obtain ⟨negated, name, kind, rfl, hkind, rfl⟩ := parsePosix_eq_some h
  have hname : Unmarked name := by
    have hnames : (posixNames.all fun name => name.toList.all fun c => !isClassMark c) = true := by
      decide
    have hall := List.all_eq_true.mp hnames _ (mem_posixNames hkind)
    rw [String.toList_ofList] at hall
    exact (unmarked_iff name).mpr hall
  have hnegation := unmarked_negation negated
  refine ⟨'[' :: ((':' :: (negation negated ++ (name ++ [':']))) ++ [']']), by simp,
    .nested (.of_unmarked ?_)⟩
  exact List.forall_mem_cons.mpr ⟨rfl, List.forall_mem_append.mpr ⟨hnegation,
    List.forall_mem_append.mpr ⟨hname, List.forall_mem_singleton.mpr rfl⟩⟩⟩

/-- What a class starts with opens and closes nothing unless it is a closing bracket. -/
theorem Opened.neutral {negated : Bool} {items : List ClassSet} {rest : List Char}
    (h : Opened cs negated items left rest) (hclose : opensWithClose cs = false) :
    ∃ text, cs = text ++ left ∧ Neutral text := by
  obtain ⟨rfl, -, hcases⟩ := h
  rcases hcases with ⟨rfl, -⟩ | ⟨count, rfl, -⟩
  · cases negated <;> cases hclose
  · refine ⟨negation negated ++ List.replicate count '-', by simp, .of_unmarked ?_⟩
    refine List.forall_mem_append.mpr ⟨unmarked_negation negated, fun c hc => ?_⟩
    rw [List.eq_of_mem_replicate hc]
    rfl

/-! ### The end of a class -/

theorem queries_closeOperand_cons {pending : Option (ClassOp × ClassSet)} {item : ClassSet}
    {items : List ClassSet} :
    (closeOperand pending items).queries ⊆ (closeOperand pending (item :: items)).queries := by
  have hitems : (ClassSet.unionAll items.reverse).queries
      ⊆ (ClassSet.unionAll (item :: items).reverse).queries := by
    intro query hquery
    obtain ⟨other, hother, hquery⟩ := ClassSet.exists_of_mem_queries hquery
    exact ClassSet.queries_unionAll _ (List.mem_reverse.mpr
      (.tail _ (List.mem_reverse.mp hother))) hquery
  cases pending with
  | none => exact hitems
  | some before =>
    obtain ⟨op, first⟩ := before
    cases op <;>
      exact List.append_subset.mpr ⟨List.subset_append_left _ _,
        List.Subset.trans hitems (List.subset_append_right _ _)⟩

/-- Members that have been read stay. -/
theorem queries_of_parseMembers {steps : Nat} {pending : Option (ClassOp × ClassSet)}
    {items : List ClassSet} {set : ClassSet}
    (h : parseMembers? false steps pending items cs = some (set, left)) :
    (closeOperand pending items).queries ⊆ set.queries := by
  induction steps generalizing pending items cs with
  | zero => cases h
  | succ steps ih =>
    cases parseMembers_eq_some h with
    | close _ hset => exact hset ▸ List.Subset.refl _
    | op _ _ hrest => exact List.Subset.trans queries_closeOperand_pending (ih hrest)
    | posix _ _ hrest => exact List.Subset.trans queries_closeOperand_cons (ih hrest)
    | nested _ _ _ _ hrest => exact List.Subset.trans queries_closeOperand_cons (ih hrest)
    | item _ _ _ _ _ hrest => exact List.Subset.trans queries_closeOperand_cons (ih hrest)

theorem isKnown_latest {steps : Nat} {pending : Option (ClassOp × ClassSet)} {item : ClassSet}
    {items : List ClassSet} {set : ClassSet}
    (h : parseMembers? false steps pending (item :: items) cs = some (set, left))
    (hknown : set.IsKnown) : item.IsKnown := fun query hquery =>
  hknown query (queries_of_parseMembers h (queries_closeOperand List.mem_cons_self hquery))

/-- The members of a class are balanced in brackets up to its end. -/
theorem neutral_of_parseMembers {steps : Nat} {pending : Option (ClassOp × ClassSet)}
    {items : List ClassSet} {set : ClassSet}
    (h : parseMembers? false steps pending items cs = some (set, left)) (hknown : set.IsKnown)
    (hhides : hidesEndWithin steps cs = false) : ∃ text, cs = text ++ ']' :: left ∧ Neutral text := by
  induction steps generalizing pending items cs set left with
  | zero => cases h
  | succ steps ih =>
    cases parseMembers_eq_some h with
    | close hcs _ => exact ⟨[], hcs, .nil⟩
    | @op c op rest hop hcs hrest =>
      subst hcs
      have hmark : isClassMark c = false := by
        refine Bool.eq_false_iff.mpr fun hmark => ?_
        rcases isClassMark_cases hmark with rfl | rfl | rfl <;> cases hop
      have hne : c ≠ ']' ∧ c ≠ '[' := by
        constructor <;> rintro rfl <;> cases hop
      rw [hidesEndWithin, if_neg hne.1, if_neg hne.2,
        if_pos ⟨rfl, by rw [hop]; exact Option.some_ne_none _⟩] at hhides
      obtain ⟨text, rfl, htext⟩ := ih hrest hknown hhides
      exact ⟨c :: c :: text, rfl, (Neutral.single hmark).append ((Neutral.single hmark).append htext)⟩
    | @posix item rest after hcs hposix hrest =>
      subst hcs
      rw [hidesEndWithin, if_neg (by decide), if_pos rfl, hposix] at hhides
      obtain ⟨text, heq, htext⟩ := neutral_of_parsePosix hposix
      obtain ⟨others, rfl, hothers⟩ := ih hrest hknown hhides
      exact ⟨text ++ others, by rw [heq, List.append_assoc], htext.append hothers⟩
    | @nested negated inner body rest opened after hcs hposix hopen hbody hrest =>
      subst hcs
      rw [hidesEndWithin, if_neg (by decide), if_pos rfl, hposix] at hhides
      simp only [hopen, hbody, Bool.or_eq_false_iff] at hhides
      obtain ⟨hclose, hinside, hafter⟩ := hhides
      obtain ⟨start, hopened⟩ := openClass_eq_some hopen
      obtain ⟨lead, rfl, hlead⟩ := hopened.neutral hclose
      have hbracket : (ClassSet.bracket negated body).IsKnown := isKnown_latest hrest hknown
      obtain ⟨text, rfl, htext⟩ := ih hbody hbracket hinside
      obtain ⟨others, rfl, hothers⟩ := ih hrest hknown hafter
      exact ⟨'[' :: ((lead ++ text) ++ [']']) ++ others, by simp,
        (hlead.append htext).nested.append hothers⟩
    | @item c tail after item hcs hopen hclose hop hrange hrest =>
      subst hcs
      have hnot : ¬(tail.head? = some c ∧ doubledOp? c ≠ none) := fun hdoubled =>
        hdoubled.2 (hop hdoubled.1)
      rw [hidesEndWithin, if_neg hclose, if_neg hopen, if_neg hnot] at hhides
      obtain ⟨hranges, hafter⟩ := Bool.or_eq_false_iff.mp hhides
      have hread : parseRange? false (c :: tail) = some (item, after) := by
        have := parseRange_append hrange []
        rwa [List.append_nil, List.append_nil] at this
      rw [hread] at hafter
      obtain ⟨text, heq, htext⟩ := hrange.neutral (isKnown_latest hrest hknown)
        (fun hhead => hopen (Option.some.inj hhead)) (fun hhead => hclose (Option.some.inj hhead))
        hranges
      obtain ⟨others, rfl, hothers⟩ := ih hrest hknown hafter
      exact ⟨text ++ others, by rw [heq, List.append_assoc], htext.append hothers⟩

theorem classExtent_negated {cs : List Char} (h : cs.head? ≠ some ']') :
    Part.classExtent ('^' :: cs) = Part.classRest 0 cs + 1 := by
  rw [Part.classExtent]
  rintro rest rfl
  exact h rfl

theorem classExtent_plain {cs : List Char} (hclose : cs.head? ≠ some ']')
    (hcaret : cs.head? ≠ some '^') : Part.classExtent cs = Part.classRest 0 cs := by
  rw [Part.classExtent]
  · rintro rest rfl
    exact hcaret rfl
  · rintro rest rfl
    exact hcaret rfl
  · rintro rest rfl
    exact hclose rfl

/-- Counting brackets finds the end of a class that is allowed, unless a bracket hides it. -/
theorem classExtent_of_parseClass {set : ClassSet} (h : parseClass? false cs = some (set, left))
    (hknown : set.IsKnown) (hhides : hidesEnd cs = false) :
    ∃ text, cs = text ++ left ∧ Part.classExtent cs = text.length := by
  obtain ⟨⟨negated, items, opened⟩, hopen, h⟩ := Option.bind_eq_some_iff.mp h
  obtain ⟨⟨body, after⟩, hbody, h⟩ := Option.bind_eq_some_iff.mp h
  cases h
  rw [hidesEnd, hopen] at hhides
  obtain ⟨text, rfl, htext⟩ := neutral_of_parseMembers hbody hknown hhides
  have hend : ∀ {start : List Char}, Neutral start →
      Part.classRest 0 (start ++ (text ++ ']' :: left)) = (start ++ text).length + 1 := by
    intro start hstart
    rw [← List.append_assoc, hstart.append htext, Part.classRest, if_pos rfl]
  obtain ⟨rest, rfl, hcaret, hcases⟩ := openClass_eq_some hopen
  rcases hcases with ⟨rfl, -⟩ | ⟨count, rfl, -, -, hclose⟩
  · refine ⟨negation negated ++ (']' :: (text ++ [']'])), by simp, ?_⟩
    cases negated <;> simp [negation, Part.classExtent, htext 0, Part.classRest]
  · have hhyphens : Neutral (List.replicate count '-') := .of_unmarked fun c hc => by
      rw [List.eq_of_mem_replicate hc]
      rfl
    have hhead : (List.replicate count '-' ++ (text ++ ']' :: left)).head? ≠ some ']' := by
      cases count with
      | zero => exact hclose rfl
      | succ count => exact fun hhead => absurd (Option.some.inj hhead) (by decide)
    refine ⟨negation negated ++ (List.replicate count '-' ++ (text ++ [']'])), by simp, ?_⟩
    cases negated with
    | true =>
      rw [show negation true = ['^'] from rfl, List.singleton_append, classExtent_negated hhead,
        hend hhyphens]
      simp [Nat.add_assoc]
    | false =>
      rw [show negation false = [] from rfl, List.nil_append,
        classExtent_plain hhead (hcaret rfl), hend hhyphens]
      simp [Nat.add_assoc]

example : hidesEnd "a[]b](c)]".toList = true := by decide
example : hidesEnd "!-[]".toList = true := by decide
example : hidesEnd "]a[b-c[:alpha:]]--[^d]]".toList = false := by decide

end Highlighter.Regex
