import Highlighter.Proofs.Pattern.Expr
import Highlighter.Regex.ClassParser

/-!
# Classes end with their closing bracket

What a class means is up to what stands between its brackets
(`parseClass?_body`). Each reader of `ClassParser` stays inside the
body of a class: what it answers does not depend on what comes after
the closing bracket, and the members that it leaves are members again.
-/

set_option autoImplicit false

namespace Highlighter.Regex

open Pattern

/-! ### What is left of the members of a class -/

theorem areMembers_tail {c : Char} {body : List Char} (hslash : c ≠ '\\')
    (h : areMembers (c :: body) = true) : areMembers body = true := by
  rw [areMembers] at h
  · exact (Bool.and_eq_true_iff.mp h).2
  · exact fun heq => absurd heq hslash
  · exact fun d rest heq _ => absurd heq hslash

theorem areMembers_escape {c : Char} {body : List Char} (h : areMembers ('\\' :: c :: body) = true) :
    isClassEscape c body = true ∧ areMembers body = true := by
  rw [areMembers] at h
  exact Bool.and_eq_true_iff.mp h

/-- After a closing brace, members go on. -/
theorem areMembers_afterBrace (inner body : List Char)
    (h : areMembers (inner ++ '}' :: body) = true) : areMembers body = true := by
  match inner with
  | [] => exact areMembers_tail (by decide) h
  | ['\\'] => exact (areMembers_escape h).2
  | '\\' :: c :: inner => exact areMembers_afterBrace inner body (areMembers_escape h).2
  | c :: inner =>
    by_cases hslash : c = '\\'
    · subst hslash
      cases inner with
      | nil => exact (areMembers_escape h).2
      | cons d inner => exact areMembers_afterBrace inner body (areMembers_escape h).2
    · exact areMembers_afterBrace inner body (areMembers_tail hslash h)

/-! ### Readers that stay inside -/

/-- A reader answers the same whatever comes after the closing bracket,
and leaves members of the class. -/
def StaysInside {α : Type} (read : List Char → Option (α × List Char)) (body : List Char) : Prop :=
  (∀ rest, read (body ++ ']' :: rest) = none) ∨
    ∃ item left, areMembers left = true ∧ left.length ≤ body.length ∧
      ∀ rest, read (body ++ ']' :: rest) = some (item, left ++ ']' :: rest)

theorem skipBlank_false (cs : List Char) : skipBlank false cs = cs := rfl

/-- Hexadecimal digits end before the bracket at the latest. -/
theorem staysInside_parseHexDigits (count value : Nat) {body : List Char}
    (h : areMembers body = true) : StaysInside (parseHexDigits? false count value) body := by
  induction count generalizing value body with
  | zero => exact .inr ⟨value, body, h, Nat.le_refl _, fun _ => rfl⟩
  | succ count ih =>
    cases body with
    | nil => exact .inl fun _ => rfl
    | cons c body =>
      cases hdigit : hexValue? c with
      | none =>
        refine .inl fun rest => ?_
        simp [parseHexDigits?, hdigit]
      | some digit =>
        have hslash : c ≠ '\\' := by
          rintro rfl
          cases hdigit
        have hstep : ∀ rest, parseHexDigits? false (count + 1) value (c :: body ++ ']' :: rest)
            = parseHexDigits? false count (16 * value + digit) (body ++ ']' :: rest) := by
          intro rest
          simp [parseHexDigits?, hdigit, skipBlank_false]
        rcases ih (16 * value + digit) (areMembers_tail hslash h) with hnone | hsome
        · exact .inl fun rest => (hstep rest).trans (hnone rest)
        · obtain ⟨code, left, hleft, hlength, hread⟩ := hsome
          exact .inr ⟨code, left, hleft, Nat.le_succ_of_le hlength,
            fun rest => (hstep rest).trans (hread rest)⟩

/-- The text up to a closing brace. -/
theorem untilBrace_inner {inner : List Char} (h : '}' ∉ inner) (rest : List Char) {steps : Nat}
    (hsteps : inner.length < steps) :
    untilBrace? false steps (inner ++ '}' :: rest) = some (inner, rest) := by
  induction inner generalizing steps with
  | nil =>
    obtain ⟨steps, rfl⟩ := Nat.exists_eq_add_of_lt hsteps
    rfl
  | cons c inner ih =>
    rw [List.mem_cons, not_or] at h
    cases steps with
    | zero => cases hsteps
    | succ steps =>
      have hinner := ih h.2 (Nat.lt_of_succ_lt_succ hsteps)
      rw [List.cons_append, untilBrace?, skipBlank_false]
      split
      · rename_i hnil
        cases hnil
      · rename_i heq
        cases heq
        exact absurd rfl h.1
      · rename_i heq
        cases heq
        rw [hinner]
        rfl

/-- What is made of what was read does not change what is left. -/
theorem StaysInside.map? {α β : Type} {read : List Char → Option (α × List Char)}
    {body : List Char} (h : StaysInside read body) (make : α → Option β)
    {other : List Char → Option (β × List Char)}
    (hother : ∀ rest, other (body ++ ']' :: rest)
      = (read (body ++ ']' :: rest)).bind fun found => (make found.1).map (·, found.2)) :
    StaysInside other body := by
  rcases h with hnone | ⟨item, left, hleft, hlength, hread⟩
  · refine .inl fun rest => ?_
    rw [hother, hnone]
    rfl
  · cases hmake : make item with
    | none =>
      refine .inl fun rest => ?_
      rw [hother, hread, Option.bind_some, hmake]
      rfl
    | some made =>
      refine .inr ⟨made, left, hleft, hlength, fun rest => ?_⟩
      rw [hother, hread, Option.bind_some, hmake]
      rfl

/-- What is read after a character. -/
theorem StaysInside.cons {α : Type} {read other : List Char → Option (α × List Char)}
    {c : Char} {body : List Char} (h : StaysInside read body)
    (hother : ∀ rest, other (c :: (body ++ ']' :: rest)) = read (body ++ ']' :: rest)) :
    StaysInside other (c :: body) := by
  rcases h with hnone | ⟨item, left, hleft, hlength, hread⟩
  · exact .inl fun rest => (hother rest).trans (hnone rest)
  · exact .inr ⟨item, left, hleft, Nat.le_succ_of_le hlength,
      fun rest => (hother rest).trans (hread rest)⟩

/-- What stands in braces ends inside the class. -/
theorem staysInside_braces {body : List Char} (h : areMembers ('{' :: body) = true)
    (hbrace : body.contains '}' = true) :
    StaysInside (fun cs => untilBrace? false (cs.length + 1) cs) body := by
  obtain ⟨inner, left, rfl, hinner⟩ := List.eq_append_cons_of_mem (List.contains_iff_mem.mp hbrace)
  have hleft := areMembers_afterBrace inner left (areMembers_tail (by decide) h)
  refine .inr ⟨inner, left, hleft, by simp; omega, fun rest => ?_⟩
  rw [List.append_assoc, List.cons_append]
  exact untilBrace_inner hinner _ (by rw [List.length_append]; omega)

/-- A code ends inside the class. -/
theorem staysInside_parseCode (digits : Nat) {body : List Char} (h : areMembers body = true)
    (hbrace : ∀ rest, body = '{' :: rest → rest.contains '}' = true) :
    StaysInside (parseCode? false digits) body := by
  by_cases hopen : ∃ others, body = '{' :: others
  · obtain ⟨others, rfl⟩ := hopen
    have hcode : StaysInside (fun cs => parseCode? false digits ('{' :: cs)) others := by
      refine (staysInside_braces h (hbrace others rfl)).map?
        (fun inner => do return .literal (← charOfCode? (← hexNumber? inner)) false) fun rest => ?_
      simp only [parseCode?, skipBlank_false]
      cases untilBrace? false ((others ++ ']' :: rest).length + 1) (others ++ ']' :: rest) with
      | none => rfl
      | some found =>
        simp only [Option.bind_some, bind]
        cases hexNumber? found.1 with
        | none => rfl
        | some code =>
          cases hchar : charOfCode? code with
          | none => simp [hchar]
          | some c => simp [hchar]
    exact hcode.cons fun rest => rfl
  · refine (staysInside_parseHexDigits digits 0 h).map?
      (fun code => (charOfCode? code).map fun c => Primitive.literal c (digits == 2))
      fun rest => ?_
    have hne : ∀ others, body ++ ']' :: rest ≠ '{' :: others := by
      rintro others heq
      cases body with
      | nil => cases heq
      | cons c body =>
        cases heq
        exact hopen ⟨body, rfl⟩
    rw [parseCode?, skipBlank_false]
    split
    · rename_i others heq
      exact absurd heq (hne others)
    · cases parseHexDigits? false digits 0 (body ++ ']' :: rest) with
      | none => rfl
      | some found =>
        simp only [Option.bind_some, bind]
        cases charOfCode? found.1 with
        | none => rfl
        | some c => rfl

/-- The name of a property ends inside the class. -/
theorem staysInside_parseProperty (negated : Bool) {letter : Char} {body : List Char}
    (hletter : "xuUpP".toList.contains letter = true)
    (h : areMembers ('\\' :: letter :: body) = true) :
    StaysInside (parseProperty? false negated) body := by
  obtain ⟨hescape, hbody⟩ := areMembers_escape h
  unfold isClassEscape at hescape
  rw [if_pos hletter] at hescape
  cases body with
  | nil => cases hescape
  | cons c body =>
    by_cases hopen : c = '{'
    · subst hopen
      have hbraces : StaysInside (fun cs => parseProperty? false negated ('{' :: cs)) body := by
        refine (staysInside_braces hbody hescape).map?
          (fun inner => some (.property (propertyQuery inner) negated)) fun rest => ?_
        simp only [parseProperty?, skipBlank_false]
        cases untilBrace? false ((body ++ ']' :: rest).length + 1) (body ++ ']' :: rest) with
        | none => rfl
        | some found => rfl
      exact hbraces.cons fun rest => rfl
    · have hslash : c ≠ '\\' := by
        split at hescape
        · rename_i heq
          cases heq
        · rename_i heq
          cases heq
          exact absurd rfl hopen
        · rename_i heq
          cases heq
          exact bne_iff_ne.mp hescape
      refine .inr ⟨.property (.named (String.singleton c)) negated, body,
        areMembers_tail hslash hbody, Nat.le_succ _, fun rest => ?_⟩
      rw [List.cons_append, parseProperty?, skipBlank_false]
      split
      · rename_i heq
        cases heq
      · rename_i heq
        cases heq
        exact absurd rfl hopen
      · rename_i heq
        cases heq
        exact absurd rfl hslash
      · rename_i heq
        cases heq
        rfl

/-- An escape that is nothing but its letter. -/
theorem parseEscape_letter {c : Char} (h : "xuUpPb".toList.contains c = false) (cs : List Char) :
    parseEscape? false (c :: cs) = (parseEscape? false [c]).map fun found => (found.1, cs) := by
  have hne : ∀ d ∈ "xuUpPb".toList, c ≠ d := by
    rintro d hd rfl
    rw [List.contains_iff_mem.mpr hd] at h
    cases h
  unfold parseEscape?
  dsimp only
  split <;> first
    | rfl
    | exact absurd rfl (hne _ (by decide))
    | (split <;> rfl)

/-- An escape in a class ends inside it. -/
theorem staysInside_parseEscape {c : Char} {body : List Char}
    (h : areMembers ('\\' :: c :: body) = true) (hboundary : c ≠ 'b') :
    StaysInside (fun cs => parseEscape? false (c :: cs)) body := by
  obtain ⟨hescape, hbody⟩ := areMembers_escape h
  have hbrace : "xuUpP".toList.contains c = true → ∀ rest, body = '{' :: rest →
      rest.contains '}' = true := by
    rintro hletter rest rfl
    unfold isClassEscape at hescape
    rw [if_pos hletter] at hescape
    exact hescape
  by_cases hletter : "xuUpPb".toList.contains c = true
  · have hcases : c = 'x' ∨ c = 'u' ∨ c = 'U' ∨ c = 'p' ∨ c = 'P' ∨ c = 'b' := by
      simpa using hletter
    rcases hcases with rfl | rfl | rfl | rfl | rfl | rfl
    · exact staysInside_parseCode 2 hbody (hbrace rfl)
    · exact staysInside_parseCode 4 hbody (hbrace rfl)
    · exact staysInside_parseCode 8 hbody (hbrace rfl)
    · exact staysInside_parseProperty false rfl h
    · exact staysInside_parseProperty true rfl h
    · exact absurd rfl hboundary
  · have hread := parseEscape_letter (Bool.eq_false_iff.mpr hletter)
    cases hfound : parseEscape? false [c] with
    | none =>
      refine .inl fun rest => ?_
      show parseEscape? false (c :: (body ++ ']' :: rest)) = none
      rw [hread, hfound]
      rfl
    | some found =>
      refine .inr ⟨found.1, body, hbody, Nat.le_refl _, fun rest => ?_⟩
      show parseEscape? false (c :: (body ++ ']' :: rest)) = _
      rw [hread, hfound]
      rfl

/-! ### Members and ranges -/

/-- What follows a word boundary does not make a member of it. -/
theorem parseBoundary_anchor {cs : List Char} {found : Primitive × List Char}
    (h : parseBoundary? false cs = some found) : ∃ sign, found.1 = .anchor sign := by
  unfold parseBoundary? at h
  repeat' split at h
  all_goals first
    | cases h; exact ⟨_, rfl⟩
    | cases h

/-- A member ends inside the class, or is none at all. -/
theorem staysInside_parseMember {c : Char} {body : List Char} (h : areMembers (c :: body) = true) :
    StaysInside (fun cs => parseMember? false (c :: cs)) body ∨
      ∀ rest found, parseMember? false (c :: (body ++ ']' :: rest)) = some found →
        ∃ sign, found.1 = .anchor sign := by
  by_cases hslash : c = '\\'
  · subst hslash
    cases body with
    | nil => cases h
    | cons letter body =>
      by_cases hboundary : letter = 'b'
      · subst hboundary
        exact .inr fun rest found hfound => parseBoundary_anchor hfound
      · exact .inl ((staysInside_parseEscape h hboundary).cons fun rest => rfl)
  · refine .inl (.inr ⟨.literal c false, body, areMembers_tail hslash h, Nat.le_refl _,
      fun rest => ?_⟩)
    show parseMember? false (c :: (body ++ ']' :: rest)) = _
    rw [parseMember?]
    exact fun heq => absurd heq hslash

/-- A word boundary makes no range. -/
theorem parseRange_anchor {cs left : List Char} {sign : AnchorSign}
    (h : parseMember? false cs = some (.anchor sign, left)) : parseRange? false cs = none := by
  simp only [parseRange?, h, bind, Option.bind_some, skipBlank_false, Primitive.toClass?]
  split
  · rfl
  · split
    · rfl
    · cases parseMember? false _ with
      | none => rfl
      | some found => rfl
  · rfl

/-- A member that a hyphen does not follow. -/
theorem parseRange_single {cs left : List Char} {first : Primitive}
    (h : parseMember? false cs = some (first, left)) (hne : left ≠ [])
    (hhyphen : ∀ rest, left ≠ '-' :: rest) :
    parseRange? false cs = first.toClass?.map (·, left) := by
  simp only [parseRange?, h, bind, Option.bind_some, skipBlank_false]
  cases first.toClass? <;> rfl

/-- A member that a hyphen follows which makes no range. -/
theorem parseRange_hyphen {cs left : List Char} {first : Primitive}
    (h : parseMember? false cs = some (first, '-' :: left))
    (hnext : left.head? = some ']' ∨ left.head? = some '-') :
    parseRange? false cs = first.toClass?.map (·, '-' :: left) := by
  have hpeek : (peekMember false left == some ']' || peekMember false left == some '-') = true := by
    rw [peekMember, if_neg Bool.false_ne_true]
    rcases hnext with hnext | hnext <;> rw [hnext] <;> rfl
  simp only [parseRange?, h, bind, Option.bind_some, skipBlank_false, hpeek, if_true]
  cases first.toClass? <;> rfl

/-- The range between two members, or nothing where they make none. -/
def rangeOf? : Primitive → Primitive → Option ClassSet
  | .literal lo _, .literal hi _ => if lo ≤ hi then some (.range lo hi) else none
  | _, _ => none

/-- A member that a hyphen and another member follow. -/
theorem parseRange_range {cs left : List Char} {first : Primitive}
    (h : parseMember? false cs = some (first, '-' :: left))
    (hclose : left.head? ≠ some ']') (hhyphen : left.head? ≠ some '-') :
    parseRange? false cs
      = (parseMember? false left).bind fun found => (rangeOf? first found.1).map (·, found.2) := by
  have hpeek : (peekMember false left == some ']' || peekMember false left == some '-') = false := by
    rw [peekMember, if_neg Bool.false_ne_true, Bool.or_eq_false_iff]
    exact ⟨beq_eq_false_iff_ne.mpr hclose, beq_eq_false_iff_ne.mpr hhyphen⟩
  simp only [parseRange?, h, bind, Option.bind_some, skipBlank_false, hpeek, Bool.false_eq_true,
    if_false]
  cases parseMember? false left with
  | none => rfl
  | some found =>
    obtain ⟨second, rest⟩ := found
    cases first <;> cases second <;> try rfl
    rename_i lo _ hi _
    by_cases hle : lo ≤ hi
    · simp [rangeOf?, hle]
    · simp [rangeOf?, hle]

theorem StaysInside.ofMap {α : Type} {read : List Char → Option (α × List Char)}
    {body left : List Char} (item? : Option α) (hleft : areMembers left = true)
    (hlength : left.length ≤ body.length)
    (h : ∀ rest, read (body ++ ']' :: rest) = item?.map (·, left ++ ']' :: rest)) :
    StaysInside read body := by
  cases item? with
  | none => exact .inl h
  | some item => exact .inr ⟨item, left, hleft, hlength, h⟩

/-- A range ends inside the class. -/
theorem staysInside_parseRange {c : Char} {body : List Char} (h : areMembers (c :: body) = true) :
    StaysInside (fun cs => parseRange? false (c :: cs)) body := by
  -- The first member is looked at, then what comes after it: nothing, a
  -- hyphen at the end or before another hyphen, or the end of a range.
  rcases staysInside_parseMember h with hinside | hanchor
  · rcases hinside with hnone | ⟨first, left, hleft, hlength, hread⟩
    · refine .inl fun rest => ?_
      simp only [parseRange?, show parseMember? false (c :: (body ++ ']' :: rest)) = none from
        hnone rest]
      rfl
    · cases left with
      | nil =>
        exact .ofMap _ hleft hlength fun rest =>
          parseRange_single (hread rest) (List.cons_ne_nil _ _) fun _ heq => by cases heq
      | cons d left =>
        by_cases hd : d = '-'
        · subst hd
          have htail := areMembers_tail (by decide) hleft
          cases left with
          | nil =>
            exact .ofMap _ hleft hlength fun rest => parseRange_hyphen (hread rest) (.inl rfl)
          | cons e left =>
            by_cases he : e = '-'
            · subst he
              exact .ofMap _ hleft hlength fun rest => parseRange_hyphen (hread rest) (.inr rfl)
            · have hclose : e ≠ ']' := by
                rintro rfl
                unfold areMembers at htail
                simp at htail
              have hrange : ∀ rest, parseRange? false (c :: (body ++ ']' :: rest))
                  = (parseMember? false (e :: (left ++ ']' :: rest))).bind fun found =>
                      (rangeOf? first found.1).map (·, found.2) := fun rest =>
                parseRange_range (hread rest) (by simpa using hclose) (by simpa using he)
              -- An anchor is a member, but no end of a range.
              rcases staysInside_parseMember htail with hsecond | hsecond
              · have hmapped : StaysInside (fun cs => (parseMember? false (e :: cs)).bind fun found =>
                    (rangeOf? first found.1).map (·, found.2)) left :=
                  hsecond.map? (rangeOf? first) fun rest => rfl
                rcases hmapped with hnone | ⟨item, others, hothers, hshorter, hread⟩
                · exact .inl fun rest => (hrange rest).trans (hnone rest)
                · have hlength' : others.length ≤ body.length := by
                    simp only [List.length_cons] at hlength
                    omega
                  exact .inr ⟨item, others, hothers, hlength',
                    fun rest => (hrange rest).trans (hread rest)⟩
              · refine .inl fun rest => ?_
                show parseRange? false (c :: (body ++ ']' :: rest)) = none
                rw [hrange]
                cases hfound : parseMember? false (e :: (left ++ ']' :: rest)) with
                | none => rfl
                | some found =>
                  obtain ⟨sign, hsign⟩ := hsecond rest found hfound
                  rw [Option.bind_some, hsign]
                  cases first <;> rfl
        · exact .ofMap _ hleft hlength fun rest =>
            parseRange_single (hread rest) (List.cons_ne_nil _ _) fun _ heq => by
              cases heq
              exact hd rfl
  · refine .inl fun rest => ?_
    show parseRange? false (c :: (body ++ ']' :: rest)) = none
    cases hfound : parseMember? false (c :: (body ++ ']' :: rest)) with
    | none => simp only [parseRange?, hfound]; rfl
    | some found =>
      obtain ⟨sign, hsign⟩ := hanchor rest found hfound
      obtain ⟨first, left⟩ := found
      cases hsign
      exact parseRange_anchor hfound

/-! ### Whole classes -/

/-- The operation that a character written twice stands for. -/
def doubledOp? : Char → Option ClassOp
  | '&' => some .intersection
  | '-' => some .difference
  | '~' => some .symmetricDifference
  | _ => none

section Shown

variable {verbose : Bool} {c : Char} {cs rest : List Char}

theorem parseMembers_shown_op {op : ClassOp} (h : doubledOp? c = some op)
    (hshown : skipBlank verbose cs = c :: c :: rest) (steps : Nat)
    (pending : Option (ClassOp × ClassSet)) (items : List ClassSet) :
    parseMembers? verbose (steps + 1) pending items cs
      = parseMembers? verbose steps (some (op, closeOperand pending items)) [] rest := by
  rw [parseMembers?, hshown]
  unfold doubledOp? at h
  split at h
  · cases h; rfl
  · cases h; rfl
  · cases h; rfl
  · cases h

theorem parseMembers_shown_item (hshown : skipBlank verbose cs = c :: rest) (hopen : c ≠ '[')
    (hclose : c ≠ ']') (hop : rest.head? = some c → doubledOp? c = none) (steps : Nat)
    (pending : Option (ClassOp × ClassSet)) (items : List ClassSet) :
    parseMembers? verbose (steps + 1) pending items cs
      = (parseRange? verbose (c :: rest)).bind fun found =>
          parseMembers? verbose steps pending (found.1 :: items) found.2 := by
  rw [parseMembers?, hshown]
  split
  · rename_i heq
    cases heq
  · rename_i heq
    cases heq
    exact absurd rfl hclose
  · rename_i heq
    cases heq
    cases hop rfl
  · rename_i heq
    cases heq
    cases hop rfl
  · rename_i heq
    cases heq
    cases hop rfl
  · rename_i heq
    cases heq
    exact absurd rfl hopen
  · rfl

end Shown

theorem parseMembers_op {c : Char} {op : ClassOp} (h : doubledOp? c = some op) (steps : Nat)
    (pending : Option (ClassOp × ClassSet)) (items : List ClassSet) (cs : List Char) :
    parseMembers? false (steps + 1) pending items (c :: c :: cs)
      = parseMembers? false steps (some (op, closeOperand pending items)) [] cs :=
  parseMembers_shown_op h (skipBlank_false _) steps pending items

theorem parseMembers_item {c : Char} (hopen : c ≠ '[') (hclose : c ≠ ']') {cs : List Char}
    (hop : cs.head? = some c → doubledOp? c = none) (steps : Nat)
    (pending : Option (ClassOp × ClassSet)) (items : List ClassSet) :
    parseMembers? false (steps + 1) pending items (c :: cs)
      = (parseRange? false (c :: cs)).bind fun found =>
          parseMembers? false steps pending (found.1 :: items) found.2 :=
  parseMembers_shown_item (skipBlank_false _) hopen hclose hop steps pending items

/-- The members of a class make the same set whatever comes after it. -/
theorem parseMembers_body {body : List Char} (h : areMembers body = true)
    (pending : Option (ClassOp × ClassSet)) (items : List ClassSet) :
    ∃ set? : Option ClassSet, ∀ steps rest, body.length < steps →
      parseMembers? false steps pending items (body ++ ']' :: rest) = set?.map (·, rest) := by
  -- By the length of what is left, as an item takes any number of
  -- characters. What is read does not depend on the fuel.
  match body with
  | [] =>
    refine ⟨some (closeOperand pending items), fun steps rest hsteps => ?_⟩
    cases steps with
    | zero => cases hsteps
    | succ steps => rfl
  | c :: others =>
    by_cases hdoubled : others.head? = some c ∧ doubledOp? c ≠ none
    · -- An operation starts a new operand.
      obtain ⟨hhead, hop⟩ := hdoubled
      obtain ⟨op, hop⟩ := Option.ne_none_iff_exists'.mp hop
      obtain ⟨left, rfl⟩ := List.head?_eq_some_iff.mp hhead
      have hslash : c ≠ '\\' := by
        rintro rfl
        cases hop
      have hleft := areMembers_tail hslash (areMembers_tail hslash h)
      obtain ⟨set?, hset⟩ := parseMembers_body hleft (some (op, closeOperand pending items)) []
      refine ⟨set?, fun steps rest hsteps => ?_⟩
      simp only [List.length_cons] at hsteps
      cases steps with
      | zero => cases hsteps
      | succ steps =>
        rw [List.cons_append, List.cons_append, parseMembers_op hop]
        exact hset steps rest (by omega)
    · have hclose : c ≠ ']' := by
        rintro rfl
        unfold areMembers at h
        simp at h
      have hopen : c ≠ '[' := by
        rintro rfl
        unfold areMembers at h
        simp at h
      have hitem : ∀ steps rest, parseMembers? false (steps + 1) pending items
            (c :: (others ++ ']' :: rest))
          = (parseRange? false (c :: (others ++ ']' :: rest))).bind fun found =>
              parseMembers? false steps pending (found.1 :: items) found.2 := by
        intro steps rest
        refine parseMembers_item hopen hclose (fun hhead => ?_) steps pending items
        cases others with
        | nil => exact absurd (Option.some.inj hhead).symm hclose
        | cons d others =>
          by_cases hop : doubledOp? c = none
          · exact hop
          · exact absurd ⟨hhead, hop⟩ hdoubled
      rcases staysInside_parseRange h with hnone | ⟨item, left, hleft, hlength, hread⟩
      · refine ⟨none, fun steps rest hsteps => ?_⟩
        cases steps with
        | zero => cases hsteps
        | succ steps =>
          rw [List.cons_append, hitem, show parseRange? false (c :: (others ++ ']' :: rest)) = none
            from hnone rest]
          rfl
      · obtain ⟨set?, hset⟩ := parseMembers_body hleft pending (item :: items)
        refine ⟨set?, fun steps rest hsteps => ?_⟩
        simp only [List.length_cons] at hsteps
        cases steps with
        | zero => cases hsteps
        | succ steps =>
          rw [List.cons_append, hitem, show parseRange? false (c :: (others ++ ']' :: rest))
            = some (item, left ++ ']' :: rest) from hread rest]
          exact hset steps rest (by omega)
termination_by body.length
decreasing_by
  all_goals grind

/-- The hyphens that a class starts with. -/
theorem leadingHyphens_members {body : List Char} (h : areMembers body = true) :
    ∃ items left, areMembers left = true ∧ (items = [] → left = body) ∧
      ∀ steps rest, body.length < steps →
        leadingHyphens? false steps (body ++ ']' :: rest) = some (items, left ++ ']' :: rest) := by
  induction body with
  | nil =>
    refine ⟨[], [], rfl, fun _ => rfl, fun steps rest hsteps => ?_⟩
    cases steps with
    | zero => cases hsteps
    | succ steps => rfl
  | cons c body ih =>
    by_cases hhyphen : c = '-'
    · subst hhyphen
      obtain ⟨items, left, hleft, -, hread⟩ := ih (areMembers_tail (by decide) h)
      refine ⟨.literal '-' :: items, left, hleft, fun hnil => (nomatch hnil),
        fun steps rest hsteps => ?_⟩
      cases steps with
      | zero => cases hsteps
      | succ steps =>
        rw [List.cons_append, leadingHyphens?, skipBlank_false,
          hread steps rest (Nat.lt_of_succ_lt_succ hsteps)]
        rfl
    · refine ⟨[], c :: body, h, fun _ => rfl, fun steps rest hsteps => ?_⟩
      cases steps with
      | zero => cases hsteps
      | succ steps =>
        rw [List.cons_append, leadingHyphens?]
        · exact fun heq => (nomatch heq)
        · exact fun others heq => hhyphen (List.cons.inj heq).1

/-- What a class starts with, after its negation. -/
def openMembers? (negated : Bool) (cs : List Char) : Option (Bool × List ClassSet × List Char) := do
  let (items, cs) ← leadingHyphens? false (cs.length + 1) cs
  match items, cs with
  | [], ']' :: rest =>
    match rest with
    | [] => none
    | rest => return (negated, [.literal ']'], rest)
  | items, cs => return (negated, items, cs)

theorem openClass_members {cs : List Char} (h : ∀ rest, cs ≠ '^' :: rest) :
    openClass? false cs = openMembers? false cs := by
  simp only [openClass?, skipBlank_false]
  rfl

/-- A class that starts with its closing bracket as a member. -/
theorem openMembers_close (negated : Bool) (body rest : List Char) :
    openMembers? negated (']' :: (body ++ ']' :: rest))
      = some (negated, [.literal ']'], body ++ ']' :: rest) := by
  cases body <;> rfl

/-- A class that starts with other members. -/
theorem openMembers_body (negated : Bool) {c : Char} {body : List Char}
    (h : areMembers (c :: body) = true) :
    ∃ items left, areMembers left = true ∧ ∀ rest,
      openMembers? negated (c :: body ++ ']' :: rest)
        = some (negated, items, left ++ ']' :: rest) := by
  obtain ⟨items, left, hleft, hitems, hread⟩ := leadingHyphens_members h
  refine ⟨items, left, hleft, fun rest => ?_⟩
  rw [openMembers?, hread _ rest (by rw [List.length_append]; omega)]
  cases items with
  | nil =>
    cases hitems rfl
    have hclose : c ≠ ']' := by
      rintro rfl
      unfold areMembers at h
      simp at h
    simp only [Option.bind_some, bind, List.cons_append]
    split
    · rename_i heq
      exact absurd (List.cons.inj heq).1 hclose
    · rfl
  | cons item items => rfl

/-- The class that the regular dialect reads between brackets. -/
def regularClass? (body : List Char) : Option ClassSet :=
  (parseClass? false (body ++ [']'])).map Prod.fst

/-- A class is read up to its closing bracket, and means the same
whatever comes after it. -/
theorem parseClass_body {body : List Char} (h : isClassBody body = true) (rest : List Char) :
    parseClass? false (body ++ ']' :: rest) = (regularClass? body).map (·, rest) := by
  have hopen : ∃ negated items left, areMembers left = true ∧ ∀ rest,
      openClass? false (body ++ ']' :: rest) = some (negated, items, left ++ ']' :: rest) := by
    unfold isClassBody at h
    split at h
    · rename_i others
      exact ⟨true, [.literal ']'], others, h, fun rest => openMembers_close true others rest⟩
    · rename_i others hclose
      obtain ⟨hne, hmembers⟩ := Bool.and_eq_true_iff.mp h
      cases others with
      | nil => cases hne
      | cons c others =>
        obtain ⟨items, left, hleft, hread⟩ := openMembers_body true hmembers
        exact ⟨true, items, left, hleft, hread⟩
    · rename_i others
      refine ⟨false, [.literal ']'], others, h, fun rest => ?_⟩
      rw [openClass_members fun _ heq => by cases heq]
      exact openMembers_close false others rest
    · rename_i hcaret hclose
      obtain ⟨hne, hmembers⟩ := Bool.and_eq_true_iff.mp h
      cases body with
      | nil => cases hne
      | cons c others =>
        obtain ⟨items, left, hleft, hread⟩ := openMembers_body false hmembers
        refine ⟨false, items, left, hleft, fun rest => ?_⟩
        rw [openClass_members fun _ heq => hcaret others (by cases heq; rfl)]
        exact hread rest
  obtain ⟨negated, items, left, hleft, hread⟩ := hopen
  obtain ⟨set?, hset⟩ := parseMembers_body hleft none items.reverse
  have hclass : ∀ rest, parseClass? false (body ++ ']' :: rest)
      = (set?.map (.bracket negated)).map (·, rest) := by
    intro rest
    simp only [parseClass?, hread, bind, Option.bind_some]
    rw [hset _ rest (by rw [List.length_append]; omega)]
    cases set? <;> rfl
  have hregular : regularClass? body = set?.map (.bracket negated) := by
    rw [regularClass?, hclass]
    cases set? <;> rfl
  rw [hclass, hregular]

end Highlighter.Regex
