import Highlighter.Proofs.Pattern.ClassList
import Highlighter.Proofs.Pattern.Meaning
import Highlighter.Proofs.Regex.Extended.Meaning
import Highlighter.Proofs.Regex.Regular.Reading

/-!
# Both dialects read lists of characters and ranges

A class that lists characters and ranges is read as just these by the
regular dialect (`regularClass_lists`). The extended dialect spells the
members anew before it leaves the class to the regular one, and so
reads the same (`extendedClass_lists`).

What such a class holds is told by `listedSet`: a member, or where
letter case does not count a variant of one, unless the class is
negated.
-/

set_option autoImplicit false

namespace Highlighter.Regex

open Pattern

/-- A member of a class as the readers of classes give it. -/
def Listed.toClass : Listed → ClassSet
  | .one c => .literal c
  | .range lo hi => .range lo hi

/-- The class that lists members. -/
def listedClass (negated : Bool) (items : List Listed) : ClassSet :=
  .bracket negated (.unionAll (items.map Listed.toClass))

/-! ### The regular dialect -/

theorem parseEscape_classSpelling {c : Char} (h : isClassSpelling c = true) (rest : List Char) :
    parseEscape? false (c :: rest) = some (.literal (unescaped c) false, rest) := by
  rcases Bool.or_eq_true_iff.mp h with hcontrol | hescapable
  · have hcases : c = 'a' ∨ c = 'f' ∨ c = 't' ∨ c = 'n' ∨ c = 'r' ∨ c = 'v' := by
      simpa using hcontrol
    rcases hcases with rfl | rfl | rfl | rfl | rfl | rfl <;> rfl
  · rw [Regular.unescaped_of_isEscapable hescapable]
    unfold parseEscape?
    dsimp only
    split <;> first
      | exact absurd hescapable (by decide)
      | rw [if_pos hescapable]

/-- A character of a class is read. -/
theorem parseMember_denotes {text : List Char} {c : Char} (h : Denotes text c)
    (rest : List Char) : parseMember? false (text ++ rest) = some (.literal c false, rest) := by
  cases h with
  | spelt h =>
    cases h with
    | plain h =>
      show parseMember? false (c :: rest) = _
      rw [parseMember?]
      exact fun heq => absurd heq (ne_of_plain h).1
    | escaped h => exact parseEscape_classSpelling h rest
  | coded hhex hlength hcode =>
    rename_i digits
    have hbrace : '}' ∉ digits := fun hmem => absurd (hhex '}' hmem) (by decide)
    have hshape : '\\' :: 'x' :: '{' :: (digits ++ ['}']) ++ rest
        = '\\' :: 'x' :: '{' :: (digits ++ '}' :: rest) := by simp
    have hinner := untilBrace_inner hbrace rest
      (show digits.length < (digits ++ '}' :: rest).length + 1 by
        rw [List.length_append]; omega)
    obtain ⟨code, hnumber, hchar⟩ := Option.bind_eq_some_iff.mp hcode
    rw [hshape]
    show parseCode? false 2 ('{' :: (digits ++ '}' :: rest)) = _
    simp only [parseCode?, skipBlank_false, hinner, bind, Option.bind_some, hnumber, hchar]
    rfl

theorem doubledOp_of_not_isOperator {c : Char} (h : isOperator c = false) : doubledOp? c = none := by
  unfold doubledOp?
  split
  · cases h
  · cases h
  · cases h
  · rfl

/-- What starts with a character of a class is read as a member or a
range. -/
theorem parseMembers_denotes {text : List Char} {c : Char} (h : Denotes text c) {rest : List Char}
    (hdoubled : ∀ d, text = [d] → isOperator d = true → rest.head? ≠ some d) (steps : Nat)
    (pending : Option (ClassOp × ClassSet)) (items : List ClassSet) :
    parseMembers? false (steps + 1) pending items (text ++ rest)
      = (parseRange? false (text ++ rest)).bind fun found =>
          parseMembers? false steps pending (found.1 :: items) found.2 := by
  obtain ⟨d, others, rfl, ⟨hopen, hclose⟩, hslash⟩ := h.exists_cons
  refine parseMembers_item hopen hclose (fun hhead => ?_) steps pending items
  cases others with
  | nil =>
    cases hop : isOperator d with
    | false => exact doubledOp_of_not_isOperator hop
    | true => exact absurd hhead (hdoubled d rfl hop)
  | cons e others =>
    rw [hslash (List.cons_ne_nil _ _)]
    rfl

/-- The members of a class are read one after another. -/
theorem parseMembers_lists {body : List Char} {items : List Listed} (h : Lists Denotes body items)
    (before : List ClassSet) {steps : Nat} (hsteps : body.length < steps) (rest : List Char) :
    parseMembers? false steps none before (body ++ ']' :: rest)
      = some (.unionAll (before.reverse ++ items.map Listed.toClass), rest) := by
  induction h generalizing before steps with
  | nil =>
    obtain ⟨steps, rfl⟩ := Nat.exists_eq_succ_of_ne_zero (Nat.ne_of_gt hsteps)
    rw [List.map_nil, List.append_nil]
    rfl
  | @one text others c items htext hhyphen hdoubled _ ih =>
    obtain ⟨steps, rfl⟩ := Nat.exists_eq_succ_of_ne_zero (Nat.ne_of_gt (Nat.lt_of_le_of_lt
      (Nat.zero_le _) hsteps))
    have hlength : others.length < steps := by
      obtain ⟨d, tail, rfl, -⟩ := htext.exists_cons
      simp only [List.length_append, List.length_cons] at hsteps
      omega
    -- A member that is an operator is not written twice in a row.
    have hnext : ∀ d, text = [d] → isOperator d = true →
        (others ++ ']' :: rest).head? ≠ some d := by
      intro d hd hop hhead
      cases others with
      | nil =>
        cases hhead
        cases hop
      | cons e others => exact hdoubled d hd hop hhead
    have hmember := parseMember_denotes htext (others ++ ']' :: rest)
    have hrange : parseRange? false (text ++ (others ++ ']' :: rest))
        = some (.literal c, others ++ ']' :: rest) := by
      by_cases hhead : others.head? = some '-'
      · cases hhyphen hhead
        exact parseRange_hyphen hmember (.inl rfl)
      · refine parseRange_single hmember (by simp) fun left heq => hhead ?_
        cases others with
        | nil => cases heq
        | cons e others =>
          cases heq
          rfl
    rw [List.append_assoc, parseMembers_denotes htext hnext, hrange, Option.bind_some,
      ih _ hlength, List.reverse_cons, List.append_assoc]
    rfl
  | @range first second others lo hi items hfirst hsecond hstart hhyphen hle _ ih =>
    obtain ⟨steps, rfl⟩ := Nat.exists_eq_succ_of_ne_zero (Nat.ne_of_gt (Nat.lt_of_le_of_lt
      (Nat.zero_le _) hsteps))
    have hlength : others.length < steps := by
      simp only [List.length_append, List.length_cons] at hsteps
      omega
    have hshape : first ++ '-' :: (second ++ others) ++ ']' :: rest
        = first ++ '-' :: (second ++ (others ++ ']' :: rest)) := by simp
    have hnext : ∀ d, first = [d] → isOperator d = true →
        ('-' :: (second ++ (others ++ ']' :: rest))).head? ≠ some d := by
      rintro d rfl - ⟨⟩
      exact hstart rfl
    obtain ⟨e, tail, rfl, ⟨-, hclose⟩, -⟩ := hsecond.exists_cons
    have hmember := parseMember_denotes hfirst ('-' :: (e :: tail ++ (others ++ ']' :: rest)))
    have hrange : parseRange? false (first ++ '-' :: (e :: tail ++ (others ++ ']' :: rest)))
        = some (.range lo hi, others ++ ']' :: rest) := by
      rw [parseRange_range hmember (fun heq => hclose (Option.some.inj heq)) hhyphen,
        parseMember_denotes hsecond, Option.bind_some, rangeOf?, if_pos hle]
      rfl
    rw [hshape, parseMembers_denotes hfirst hnext, hrange, Option.bind_some, ih _ hlength,
      List.reverse_cons, List.append_assoc]
    rfl

/-- A hyphen that a class starts with is a member. -/
theorem leadingHyphens_lists {body : List Char} {items : List Listed}
    (h : Lists Denotes body items) :
    ∃ lead left others, Lists Denotes left others ∧
      items.map Listed.toClass = lead ++ others.map Listed.toClass ∧ (lead = [] → left = body) ∧
      ∀ steps rest, body.length < steps →
        leadingHyphens? false steps (body ++ ']' :: rest) = some (lead, left ++ ']' :: rest) := by
  have hstop : ∀ {body : List Char} (_ : body.head? ≠ some '-') (steps : Nat) (rest : List Char),
      leadingHyphens? false (steps + 1) (body ++ ']' :: rest) = some ([], body ++ ']' :: rest) := by
    intro body hhead steps rest
    cases body with
    | nil => rfl
    | cons c body =>
      rw [List.cons_append, leadingHyphens?]
      · intro heq
        cases heq
      · rintro others heq
        cases heq
        exact hhead rfl
  by_cases hhead : body.head? = some '-'
  · cases h with
    | nil => cases hhead
    | @one text left c others htext hhyphen hdoubled hrest =>
      -- The hyphen is on its own, and no other hyphen follows.
      have hsingle : text = ['-'] ∧ c = '-' := by
        cases htext with
        | spelt htext =>
          cases htext with
          | plain _ =>
            cases hhead
            exact ⟨rfl, rfl⟩
          | escaped _ => cases hhead
        | coded _ _ _ => cases hhead
      obtain ⟨rfl, rfl⟩ := hsingle
      have hnext : left.head? ≠ some '-' := hdoubled '-' rfl rfl
      refine ⟨[.literal '-'], left, others, hrest, rfl, fun hnil => absurd hnil (List.cons_ne_nil _ _),
        fun steps rest hsteps => ?_⟩
      obtain ⟨steps, rfl⟩ : ∃ count, steps = count + 2 :=
        ⟨steps - 2, by simp only [List.cons_append, List.nil_append, List.length_cons] at hsteps; omega⟩
      rw [List.cons_append, List.nil_append, List.cons_append, leadingHyphens?, skipBlank_false,
        hstop hnext]
      rfl
    | @range first second left lo hi others hfirst _ hstart _ _ _ =>
      obtain ⟨d, tail, rfl, -, hslash⟩ := hfirst.exists_cons
      cases hhead
      cases tail with
      | nil => exact absurd rfl hstart
      | cons e tail => cases hslash (List.cons_ne_nil _ _)
  · refine ⟨[], body, items, h, rfl, fun _ => rfl, fun steps rest hsteps => ?_⟩
    obtain ⟨steps, rfl⟩ := Nat.exists_eq_succ_of_ne_zero (Nat.ne_of_gt (Nat.lt_of_le_of_lt
      (Nat.zero_le _) hsteps))
    exact hstop hhead steps rest

/-- What a class starts with is told from what it lists. -/
theorem openMembers_lists (negated : Bool) {body : List Char} {items : List Listed}
    (hne : body ≠ []) (h : Lists Denotes body items) :
    ∃ lead left others, Lists Denotes left others ∧
      items.map Listed.toClass = lead ++ others.map Listed.toClass ∧
      ∀ rest, openMembers? negated (body ++ ']' :: rest)
        = some (negated, lead, left ++ ']' :: rest) := by
  obtain ⟨lead, left, others, hleft, hitems, hlead, hread⟩ := leadingHyphens_lists h
  refine ⟨lead, left, others, hleft, hitems, fun rest => ?_⟩
  rw [openMembers?, hread _ rest (by rw [List.length_append]; omega)]
  cases lead with
  | nil =>
    cases hlead rfl
    cases body with
    | nil => exact absurd rfl hne
    | cons c body =>
      have hclose : c ≠ ']' := fun heq => h.head?_ne_close (congrArg some heq)
      simp only [Option.bind_some, bind, List.cons_append]
      split
      · rename_i heq
        exact absurd (List.cons.inj heq).1 hclose
      · rfl
  | cons item lead => rfl

/-- A class is read as what it lists. -/
theorem parseClass_lists {body : List Char} {negated : Bool} {items : List Listed}
    (h : ClassLists Denotes body negated items) (rest : List Char) :
    parseClass? false (body ++ ']' :: rest) = some (listedClass negated items, rest) := by
  have hmembers : ∀ (lead : List ClassSet) {left : List Char} {others : List Listed},
      Lists Denotes left others → items.map Listed.toClass = lead ++ others.map Listed.toClass →
      openClass? false (body ++ ']' :: rest) = some (negated, lead, left ++ ']' :: rest) →
      parseClass? false (body ++ ']' :: rest) = some (listedClass negated items, rest) := by
    intro lead left others hleft hitems hopen
    have hread := parseMembers_lists hleft lead.reverse
      (show left.length < (left ++ ']' :: rest).length + 1 by rw [List.length_append]; omega) rest
    rw [List.reverse_reverse, ← hitems] at hread
    simp only [parseClass?, hopen, bind, Option.bind_some, hread]
    rfl
  cases h with
  | plain hne hcaret h =>
    obtain ⟨lead, left, others, hleft, hitems, hread⟩ := openMembers_lists false hne h
    refine hmembers lead hleft hitems ?_
    rw [openClass_members, hread]
    intro others heq
    cases body with
    | nil => exact hne rfl
    | cons c body =>
      cases heq
      exact hcaret rfl
  | negated hne h =>
    obtain ⟨lead, left, others, hleft, hitems, hread⟩ := openMembers_lists true hne h
    exact hmembers lead hleft hitems (hread rest)
  | bracket h =>
    rename_i body items
    refine hmembers [.literal ']'] h rfl ?_
    rw [openClass_members fun _ heq => by cases heq]
    exact openMembers_close false body rest
  | negatedBracket h =>
    rename_i body items
    exact hmembers [.literal ']'] h rfl (openMembers_close true body rest)

theorem regularClass_lists {body : List Char} {negated : Bool} {items : List Listed}
    (h : ClassLists Denotes body negated items) :
    regularClass? body = some (listedClass negated items) := by
  unfold regularClass?
  rw [parseClass_lists h []]
  rfl

/-- Members that do not nest make one level together. -/
theorem depth_unionAll {items : List ClassSet} (h : ∀ item ∈ items, item.depth = 0) :
    (ClassSet.unionAll items).depth ≤ 1 ∧
      ((ClassSet.unionAll items).isUnion = false → (ClassSet.unionAll items).depth = 0) := by
  induction items with
  | nil => exact ⟨Nat.zero_le _, fun _ => rfl⟩
  | cons item items ih =>
    obtain ⟨hitem, hitems⟩ := List.forall_mem_cons.mp h
    obtain ⟨hle, hleaf⟩ := ih hitems
    cases items with
    | nil => exact ⟨Nat.le_trans (Nat.le_of_eq hitem) (Nat.zero_le _), fun _ => hitem⟩
    | cons other items =>
      refine ⟨?_, fun hunion => (nomatch hunion)⟩
      show max (item.depth + 1) (if _ then _ else _) ≤ 1
      rw [hitem]
      split
      · exact Nat.max_le.mpr ⟨Nat.le_refl 1, hle⟩
      · rename_i hunion
        have hdepth := hleaf (Bool.eq_false_iff.mpr hunion)
        exact Nat.max_le.mpr ⟨Nat.le_refl 1, Nat.le_of_eq (congrArg (· + 1) hdepth)⟩

theorem depth_toClass (item : Listed) : (Listed.toClass item).depth = 0 := by
  cases item <;> rfl

/-! ### The extended dialect -/

namespace Extended

/-- Whether a character is an operator, or negates a class that it
starts. -/
def isSignificant (c : Char) : Bool := "&-~^".toList.contains c

theorem spells_quoted (c : Char) : Spells (quoted c) c := by
  unfold quoted
  split
  · rename_i hquoted
    have hescapable : isEscapable c = true := by
      have hall : "\\.+*?()|[]\x7b\x7d^$#&-~".toList.all isEscapable = true := by decide
      exact List.all_eq_true.mp hall c (List.contains_iff_mem.mp hquoted)
    have hescaped : Spells ['\\', c] (unescaped c) :=
      .escaped (Bool.or_eq_true_iff.mpr (.inr hescapable))
    rwa [Regular.unescaped_of_isEscapable hescapable] at hescaped
  · rename_i hquoted
    refine .plain ?_
    cases hspecial : "\\[]".toList.contains c with
    | false => rfl
    | true =>
      have hcases : c = '\\' ∨ c = '[' ∨ c = ']' := by simpa using hspecial
      rcases hcases with rfl | rfl | rfl <;> exact absurd (by decide) hquoted

/-- What is quoted neither is an operator nor negates a class. -/
theorem head?_quoted {c d : Char} (h : isSignificant d = true) : (quoted c).head? ≠ some d := by
  have hcases : d = '&' ∨ d = '-' ∨ d = '~' ∨ d = '^' := by simpa [isSignificant] using h
  intro hhead
  unfold quoted at hhead
  split at hhead
  · cases hhead
    revert h
    decide
  · rename_i hquoted
    cases hhead
    rcases hcases with rfl | rfl | rfl | rfl <;> exact hquoted (by decide)

theorem classEscape_classSpelling {c : Char} (h : isClassSpelling c = true) (rest : List Char) :
    classEscape? (c :: rest) = some (quoted (unescaped c), rest) := by
  rw [classEscape_letter (contains_eq_false isClassSpelling (by decide) h)]
  rcases Bool.or_eq_true_iff.mp h with hcontrol | hescapable
  · have hcases : c = 'a' ∨ c = 'f' ∨ c = 't' ∨ c = 'n' ∨ c = 'r' ∨ c = 'v' := by
      simpa using hcontrol
    rcases hcases with rfl | rfl | rfl | rfl | rfl | rfl <;> rfl
  · have halnum : c.isAlpha = false ∧ c.isDigit = false := by
      unfold isEscapable Char.isAlphanum at hescapable
      simp only [Bool.and_eq_true, Bool.not_eq_true', Bool.or_eq_false_iff] at hescapable
      exact hescapable.1.1.2
    have hplain : plainEscape? true c = some (.char c false) := by
      have hshort : "dDsSwW".toList.contains c = false :=
        contains_eq_false isEscapable (by decide) hescapable
      unfold plainEscape?
      split <;> first
        | exact absurd hescapable (by decide)
        | skip
      have hboundary : (c == 'b') = false := by
        rw [beq_eq_false_iff_ne]
        rintro rfl
        exact absurd hescapable (by decide)
      simp only [hshort, hboundary, halnum.1, Bool.and_false, Bool.false_and, Bool.false_eq_true,
        if_false]
    rw [halnum.2, if_neg Bool.false_ne_true, hplain, Regular.unescaped_of_isEscapable hescapable]
    rfl

/-- A character that stands for itself is left as it is. -/
theorem classText_char {c : Char} (h : "\\[]".toList.contains c = false) (reading : Reading)
    (steps : Nat) (rest : List Char) :
    classText? reading 1 (steps + 1) (c :: rest)
      = (classText? reading 1 steps rest).map fun more => (c :: more.1, more.2) := by
  obtain ⟨hslash, hopen, hclose⟩ := ne_of_plain h
  rw [classText?]
  · cases classText? reading 1 steps rest <;> rfl
  · exact hslash
  · exact hclose
  · exact hopen

/-- A character of a class is spelt anew. It only then is an operator,
or negates the class, if it was one before. -/
theorem classText_denotes {text : List Char} {c : Char} (h : Denotes text c) :
    ∃ written, Spells written c ∧
      (∀ d, isSignificant d = true → written.head? = some d → text = [d]) ∧
      (text = ['-'] → written = ['-']) ∧
      ∀ reading steps rest, classText? reading 1 (steps + 1) (text ++ rest)
        = (classText? reading 1 steps rest).map fun more => (written ++ more.1, more.2) := by
  have hquoted : ∀ {text : List Char}, text ≠ ['-'] →
      (∀ reading steps rest, classText? reading 1 (steps + 1) (text ++ rest)
        = (classText? reading 1 steps rest).map fun more => (quoted c ++ more.1, more.2)) →
      ∃ written, Spells written c ∧
        (∀ d, isSignificant d = true → written.head? = some d → text = [d]) ∧
        (text = ['-'] → written = ['-']) ∧
        ∀ reading steps rest, classText? reading 1 (steps + 1) (text ++ rest)
          = (classText? reading 1 steps rest).map fun more => (written ++ more.1, more.2) :=
    fun hne hread => ⟨quoted c, spells_quoted c,
      fun d hd hhead => absurd hhead (head?_quoted hd), fun heq => absurd heq hne, hread⟩
  cases h with
  | spelt h =>
    cases h with
    | plain h =>
      refine ⟨[c], .plain h, fun d _ hhead => ?_, id, fun reading steps rest =>
        classText_char h reading steps rest⟩
      cases hhead
      rfl
    | escaped h =>
      refine hquoted (by simp) fun reading steps rest => ?_
      show classText? reading 1 (steps + 1) ('\\' :: _ :: rest) = _
      rw [classText_escape, classEscape_classSpelling h, Option.bind_some]
  | coded hhex hlength hcode =>
    rename_i digits
    have hbrace : '}' ∉ digits := fun hmem => absurd (hhex '}' hmem) (by decide)
    refine hquoted (by simp) fun reading steps rest => ?_
    have hshape : '\\' :: 'x' :: '{' :: (digits ++ ['}']) ++ rest
        = '\\' :: 'x' :: '{' :: (digits ++ '}' :: rest) := by simp
    have hescape : classEscape? ('x' :: '{' :: (digits ++ '}' :: rest)) = some (quoted c, rest) := by
      have hcode' := parseCode_braces (show 2 ≠ 0 by decide) hbrace rest
      rw [if_pos ⟨List.all_eq_true.mpr hhex, hlength⟩, hcode, Option.map_some] at hcode'
      show ((parseEscape?.code .blank 2 ('{' :: (digits ++ '}' :: rest))).bind _) = _
      unfold parseEscape?.code
      rw [hcode']
      rfl
    rw [hshape, classText_escape, hescape, Option.bind_some]

/-- The members of a class are spelt anew one after another. -/
theorem classText_lists {body : List Char} {items : List Listed} (h : Lists Denotes body items) :
    ∃ written, Lists Spells written items ∧
      (∀ d, isSignificant d = true → written.head? = some d → body.head? = some d) ∧
      ((body = ['-'] → written = ['-']) ∧ (written = [] ↔ body = [])) ∧
      ∀ reading steps rest, body.length < steps →
        classText? reading 1 steps (body ++ ']' :: rest) = some (written ++ [']'], rest) := by
  have hcons : ∀ {text : List Char} {c : Char}, Spells text c → ∃ d tail, text = d :: tail := by
    intro text c htext
    obtain ⟨d, tail, rfl, -⟩ := (Denotes.spelt htext).exists_cons
    exact ⟨d, tail, rfl⟩
  induction h with
  | nil =>
    refine ⟨[], .nil, fun d _ hhead => (nomatch hhead), ⟨id, Iff.rfl⟩,
      fun reading steps rest hsteps => ?_⟩
    obtain ⟨steps, rfl⟩ := Nat.exists_eq_succ_of_ne_zero (Nat.ne_of_gt hsteps)
    rfl
  | @one text others c items htext hhyphen hdoubled _ ih =>
    obtain ⟨first, hfirst, hsame, hkept, hread⟩ := classText_denotes htext
    obtain ⟨rest, hrest, hagain, ⟨hkept', hempty⟩, hread'⟩ := ih
    obtain ⟨e, tail, rfl, -⟩ := htext.exists_cons
    obtain ⟨e', tail', rfl⟩ := hcons hfirst
    -- What is written starts with an operator only if the text did, so no
    -- operator is doubled that was not.
    refine ⟨e' :: tail' ++ rest, .one hfirst (fun hhead => hkept' (hhyphen (hagain '-' rfl hhead)))
      (fun d hd hop hhead => ?_) hrest, fun d hd hd' => ?_,
      ⟨fun heq => ?_, fun hnil => (nomatch hnil), fun hnil => nomatch hnil⟩,
      fun reading steps after hsteps => ?_⟩
    · have hsignificant : isSignificant d = true := by
        have hcases : d = '&' ∨ d = '-' ∨ d = '~' := by simpa [isOperator] using hop
        rcases hcases with rfl | rfl | rfl <;> rfl
      cases hd
      exact hdoubled e' (hsame e' hsignificant rfl) hop (hagain e' hsignificant hhead)
    · cases hsame d hd hd'
      rfl
    · obtain ⟨rfl, htail⟩ := List.cons.inj heq
      obtain ⟨rfl, hnil⟩ := List.append_eq_nil_iff.mp htail
      rw [hkept rfl, hempty.mpr hnil]
      rfl
    · simp only [List.length_append, List.length_cons] at hsteps
      obtain ⟨steps, rfl⟩ : ∃ count, steps = count + 1 := ⟨steps - 1, by omega⟩
      rw [List.append_assoc, hread, hread' _ _ _ (by omega), Option.map_some, List.append_assoc]
  | @range first second others lo hi items hfirst hsecond hstart hhyphen hle _ ih =>
    obtain ⟨left, hleft, hsame, -, hread⟩ := classText_denotes hfirst
    obtain ⟨right, hright, hagain, -, hread'⟩ := classText_denotes hsecond
    obtain ⟨rest, hrest, -, -, hread''⟩ := ih
    obtain ⟨e, tail, rfl, -⟩ := hfirst.exists_cons
    obtain ⟨e', tail', rfl⟩ := hcons hleft
    have hlength : 0 < second.length := by
      obtain ⟨d, others, rfl, -⟩ := hsecond.exists_cons
      exact Nat.succ_pos _
    refine ⟨e' :: tail' ++ '-' :: (right ++ rest), .range hleft hright (fun heq => ?_)
      (fun hhead => ?_) hle hrest, fun d hd hd' => ?_,
      ⟨fun heq => ?_, fun hnil => (nomatch hnil), fun hnil => nomatch hnil⟩,
      fun reading steps after hsteps => ?_⟩
    · cases heq
      exact hstart (hsame '-' rfl rfl)
    · rw [hagain '-' rfl hhead] at hhyphen
      exact hhyphen rfl
    · cases hsame d hd hd'
      rfl
    · have hlength := congrArg List.length heq
      simp at hlength
    · simp only [List.length_append, List.length_cons] at hsteps
      obtain ⟨steps, rfl⟩ : ∃ count, steps = count + 3 := ⟨steps - 3, by omega⟩
      have hshape : e :: tail ++ '-' :: (second ++ others) ++ ']' :: after
          = e :: tail ++ ('-' :: (second ++ (others ++ ']' :: after))) := by simp
      rw [hshape, hread, classText_char (by decide), hread', hread'' _ _ _ (by omega)]
      simp

/-- The class is left to the regular dialect. -/
theorem writtenSet_lists {body : List Char} {negated : Bool} {items : List Listed}
    (h : ClassLists Spells body negated items) :
    writtenSet? ('[' :: (body ++ [']'])) = some (listedClass negated items) := by
  have hdepth : (listedClass negated items).depth ≤ 250 :=
    Nat.le_trans (Nat.succ_le_succ (depth_unionAll (by simp [depth_toClass])).1) (by decide)
  unfold writtenSet?
  simp only [parseClass_lists (h.mono fun _ _ => .spelt) [], bind, Option.bind_some, if_pos hdepth]

/-- What is left to the regular dialect lists the same, after the same
opening. -/
theorem extendedClass_opening (opening : List Char) {body others written : List Char}
    {set : ClassSet} (hbracket : parseBracket? .blank (body ++ [']']) = do
      let (text, rest) ← classText? .blank 1 ((others ++ [']']).length + 1) (others ++ [']'])
      return (.set (← writtenSet? (opening ++ text)) Reading.blank.flags.ignoreCase, rest))
    (htext : ∀ reading steps rest, others.length < steps →
      classText? reading 1 steps (others ++ ']' :: rest) = some (written ++ [']'], rest))
    (hwritten : writtenSet? (opening ++ (written ++ [']'])) = some set) :
    extendedClass? body = some set := by
  rw [extendedClass?, parseBracket_opening opening .blank hbracket,
    htext .blank _ [] (by rw [List.length_append]; omega), Option.bind_some, hwritten]
  rfl

theorem extendedClass_lists {body : List Char} {negated : Bool} {items : List Listed}
    (h : ClassLists Denotes body negated items) :
    extendedClass? body = some (listedClass negated items) := by
  cases h with
  | plain hne hcaret h =>
    obtain ⟨written, hlists, hsame, ⟨-, hempty⟩, htext⟩ := classText_lists h
    refine extendedClass_opening ['['] ?_ htext (writtenSet_lists (.plain (fun hnil =>
      hne (hempty.mp hnil)) (fun hhead => hcaret (hsame '^' rfl hhead)) hlists))
    have hclose := h.head?_ne_close
    cases body with
    | nil => exact absurd rfl hne
    | cons c body =>
      have hc : c ≠ '^' := fun heq => hcaret (congrArg some heq)
      have hc' : c ≠ ']' := fun heq => hclose (congrArg some heq)
      simp [parseBracket?, hc, hc']
  | negated hne h =>
    rename_i body
    obtain ⟨written, hlists, -, ⟨-, hempty⟩, htext⟩ := classText_lists h
    refine extendedClass_opening ['[', '^'] ?_ htext
      (writtenSet_lists (.negated (fun hnil => hne (hempty.mp hnil)) hlists))
    have hclose := h.head?_ne_close
    cases body with
    | nil => exact absurd rfl hne
    | cons c body =>
      have hc : c ≠ ']' := fun heq => hclose (congrArg some heq)
      simp [parseBracket?, hc]
  | bracket h =>
    obtain ⟨written, hlists, -, -, htext⟩ := classText_lists h
    exact extendedClass_opening ['[', ']'] rfl htext (writtenSet_lists (.bracket hlists))
  | negatedBracket h =>
    obtain ⟨written, hlists, -, -, htext⟩ := classText_lists h
    exact extendedClass_opening ['[', '^', ']'] rfl htext (writtenSet_lists (.negatedBracket hlists))

end Extended

/-! ### What a class holds -/

/-- The characters of a class that lists members. -/
def listedSet (ignoreCase negated : Bool) (items : List Listed) : CharSet := fun c =>
  CharSet.fold ⟨ignoreCase, true⟩ (fun d => items.any (·.holds d)) c != negated

/-- Members in a row hold what one of them holds. -/
theorem meaning_unionAll_map {α : Type} {toClass : α → ClassSet} {holds : α → CharSet}
    {mode : CharMode} (hitem : ∀ item, (toClass item).meaning? mode = some (holds item))
    (items : List α) : (ClassSet.unionAll (items.map toClass)).meaning? mode
      = some fun c => items.any (holds · c) := by
  induction items with
  | nil => rfl
  | cons item items ih =>
    cases items with
    | nil =>
      show (toClass item).meaning? mode = _
      rw [hitem]
      simp
    | cons other items =>
      show ((toClass item).union (ClassSet.unionAll ((other :: items).map toClass))).meaning? mode
        = _
      rw [ClassSet.meaning?, hitem, ih]
      rfl

theorem meaning_unionAll (items : List Listed) (ignoreCase : Bool) :
    (ClassSet.unionAll (items.map Listed.toClass)).meaning? ⟨ignoreCase, true⟩
      = some fun c => items.any (·.holds c) :=
  meaning_unionAll_map (fun item => by cases item <;> rfl) items

theorem meaning_listedClass (negated : Bool) (items : List Listed) (ignoreCase : Bool) :
    (listedClass negated items).meaning? ⟨ignoreCase, true⟩
      = some (listedSet ignoreCase negated items) := by
  unfold listedClass
  rw [ClassSet.meaning?, meaning_unionAll]
  cases negated with
  | false =>
    refine congrArg some (funext fun c => ?_)
    exact (Bool.xor_false _).symm
  | true =>
    refine congrArg some (funext fun c => ?_)
    exact (Bool.xor_true _).symm

/-- Whether a dialect reads lists of characters and ranges as such. -/
def ReadsLists (sense : Sense) : Prop :=
  ∀ body negated items, ClassLists Denotes body negated items →
    sense.classSet? body = some (listedClass negated items)

theorem Regular.readsLists_sense (text : Array Char) : ReadsLists (sense text) :=
  fun _ _ _ h => regularClass_lists h

theorem Extended.readsLists_sense (text : Array Char) (retry : Bool) :
    ReadsLists (sense text retry) :=
  fun _ _ _ h => extendedClass_lists h

theorem classMembers_lists {sense : Sense} (hsense : ReadsLists sense) {body : List Char}
    {negated : Bool} {items : List Listed} (h : ClassLists Denotes body negated items)
    (ignoreCase : Bool) :
    Expr.classMembers sense ignoreCase body = listedSet ignoreCase negated items := by
  unfold Expr.classMembers
  rw [hsense _ _ _ h, Option.bind_some, meaning_listedClass]
  rfl

end Highlighter.Regex
