import Highlighter.Proofs.Pattern.Expr
import Highlighter.Union.Member

/-!
# The parts of an expression

`Part.split` keeps everything between two marks in one run. Cut into
single characters (`Part.fine`), the parts of the text of an
expression are the parts of the expression one by one (`Expr.parts`,
`Expr.fine_split_render`).

How parts become a member of a union does not depend on whether runs
are cut (`memberText_fine` and the lemmas before it).
-/

set_option autoImplicit false

namespace Highlighter.Pattern

/-! ### Runs of characters -/

namespace Part

/-- A part with its run of characters cut into single ones. -/
def fineOf : Part → List Part
  | literal (c :: rest) => (c :: rest).map fun d => literal [d]
  | part => [part]

/-- Parts with all runs of characters cut into single ones. -/
def fine (parts : List Part) : List Part := parts.flatMap fineOf

theorem fine_cons (part : Part) (parts : List Part) :
    fine (part :: parts) = fineOf part ++ fine parts :=
  List.flatMap_cons

theorem fine_append (first second : List Part) :
    fine (first ++ second) = fine first ++ fine second :=
  List.flatMap_append

theorem split_cons (c : Char) (rest : List Char) :
    split (c :: rest) = (read c rest).1 :: split (rest.drop (read c rest).2) := by
  rw [split]

/-- A character that starts no part of its own starts a run. -/
theorem read_plain {c : Char} (h : isPlain c = true) (rest : List Char) :
    read c rest = (literal (c :: rest.takeWhile isPlain), (rest.takeWhile isPlain).length) := by
  unfold read
  split
  · exact absurd h (by decide)
  · exact absurd h (by decide)
  · exact absurd h (by decide)
  · exact absurd h (by decide)
  · exact absurd h (by decide)
  · rfl

/-- A character that starts no part of its own is a part, once runs are
cut. -/
theorem fine_split_plain {c : Char} (h : isPlain c = true) (rest : List Char) :
    fine (split (c :: rest)) = literal [c] :: fine (split rest) := by
  rw [split_cons, read_plain h]
  cases rest with
  | nil => rfl
  | cons d others =>
    by_cases hd : isPlain d = true
    · -- The run goes on, and is cut where the rest starts.
      rw [split_cons d, read_plain hd, List.takeWhile_cons_of_pos hd, fine_cons, fine_cons]
      rfl
    · rw [List.takeWhile_cons_of_neg hd]
      rfl

/-- A text of such characters. -/
theorem fine_split_plains {text : List Char} (h : ∀ c ∈ text, isPlain c = true)
    (rest : List Char) :
    fine (split (text ++ rest)) = text.map (fun c => literal [c]) ++ fine (split rest) := by
  induction text with
  | nil => rfl
  | cons c text ih =>
    rw [List.cons_append, fine_split_plain (h c List.mem_cons_self),
      ih fun d hd => h d (List.mem_cons_of_mem c hd)]
    rfl

/-! ### How far classes reach -/

theorem classRest_plain {c : Char} (hslash : c ≠ '\\') (hopen : c ≠ '[') (hclose : c ≠ ']')
    (depth : Nat) (rest : List Char) :
    classRest depth (c :: rest) = classRest depth rest + 1 := by
  rw [classRest]
  · exact fun h => absurd h hslash
  · exact fun d others h _ => absurd h hslash
  · exact hopen
  · exact hclose

/-- Members reach up to the bracket that closes their class. -/
theorem classRest_members {body : List Char} (h : areMembers body = true) (rest : List Char) :
    classRest 0 (body ++ ']' :: rest) = body.length + 1 := by
  fun_induction areMembers body with
  | case1 => rfl
  | case2 => cases h
  | case3 c others ih =>
    rw [Bool.and_eq_true] at h
    rw [List.cons_append, List.cons_append, classRest, ih h.2]
    rfl
  | case4 c others hlast hescape ih =>
    simp only [Bool.and_eq_true, bne_iff_ne] at h
    obtain ⟨⟨hopen, hclose⟩, hothers⟩ := h
    have hslash : c ≠ '\\' := by
      rintro rfl
      cases others with
      | nil => exact hlast rfl rfl
      | cons d others => exact hescape d others rfl rfl
    rw [List.cons_append, classRest_plain hslash hopen hclose, ih hothers]
    rfl

/-- No member is a closing bracket. -/
theorem ne_close_of_areMembers {c : Char} {rest : List Char} (h : areMembers (c :: rest) = true) :
    c ≠ ']' := by
  rintro rfl
  unfold areMembers at h
  simp at h

/-- A class reaches up to its closing bracket. -/
theorem classExtent_body {body : List Char} (h : isClassBody body = true) (rest : List Char) :
    classExtent (body ++ ']' :: rest) = body.length + 1 := by
  unfold isClassBody at h
  split at h
  · rename_i others
    show classRest 0 (others ++ ']' :: rest) + 2 = others.length + 2 + 1
    rw [classRest_members h]
  · rename_i others hclose
    rw [Bool.and_eq_true] at h
    cases others with
    | nil => cases h.1
    | cons c others =>
      have hc := ne_close_of_areMembers h.2
      have hextent : classExtent ('^' :: c :: others ++ ']' :: rest)
          = classRest 0 (c :: others ++ ']' :: rest) + 1 := by
        unfold classExtent
        simp [hc]
      rw [hextent, classRest_members h.2]
      rfl
  · rename_i others
    show classRest 0 (others ++ ']' :: rest) + 1 = others.length + 1 + 1
    rw [classRest_members h]
  · rename_i hcaret hclose
    rw [Bool.and_eq_true] at h
    cases body with
    | nil => cases h.1
    | cons c others =>
      have hc := ne_close_of_areMembers h.2
      have hextent : classExtent (c :: others ++ ']' :: rest)
          = classRest 0 (c :: others ++ ']' :: rest) := by
        have hne : c ≠ '^' := fun heq => hcaret others (by rw [heq])
        unfold classExtent
        simp [hc, hne]
      rw [hextent, classRest_members h.2]

/-! ### Single parts -/

theorem split_caret (rest : List Char) : split ('^' :: rest) = .caret :: split rest := by
  rw [split_cons]
  rfl

theorem split_bracket {body : List Char} (h : isClassBody body = true) (rest : List Char) :
    split ('[' :: (body ++ [']']) ++ rest) = bracket ('[' :: (body ++ [']'])) :: split rest := by
  have hshape : '[' :: (body ++ [']']) ++ rest = '[' :: (body ++ ']' :: rest) := by simp
  rw [hshape, split_cons]
  show bracket ('[' :: (body ++ ']' :: rest).take (classExtent (body ++ ']' :: rest))) ::
      split ((body ++ ']' :: rest).drop (classExtent (body ++ ']' :: rest))) = _
  rw [classExtent_body h]
  have hsplit : body ++ ']' :: rest = (body ++ [']']) ++ rest := by simp
  have hlength : body.length + 1 = (body ++ [']']).length := by simp
  rw [hsplit, hlength, List.take_left, List.drop_left]

/-- An escape with nothing after its letter. -/
theorem split_escape {letter : Char} {rest : List Char} (hdigit : letter.isDigit = false)
    (hextent : escapeExtent letter rest = 0) :
    split ('\\' :: letter :: rest) = escape ['\\', letter] :: split rest := by
  have hread : read '\\' (letter :: rest) = (escape ['\\', letter], 1) := by
    show readEscape (letter :: rest) = _
    simp only [readEscape, hdigit, hextent]
    rfl
  rw [split_cons, hread]
  rfl

/-- A row of hexadecimal digits of the right length. -/
theorem hexExtent_append {digits : List Char} (h : ∀ c ∈ digits, isHexDigit c = true)
    (rest : List Char) : hexExtent digits.length (digits ++ rest) = digits.length := by
  unfold hexExtent
  have hall : (digits ++ []).takeWhile isHexDigit = digits ++ [].takeWhile isHexDigit :=
    List.takeWhile_append_of_pos h
  rw [List.append_nil, List.takeWhile_nil, List.append_nil] at hall
  rw [List.take_left, hall]

/-- A closing brace after hexadecimal digits. -/
theorem closingExtent_digits {digits : List Char} (h : ∀ c ∈ digits, isHexDigit c = true)
    (rest : List Char) : closingExtent '}' (digits ++ '}' :: rest) = digits.length + 1 := by
  induction digits with
  | nil => rfl
  | cons c digits ih =>
    have hc : (c == '}') = false := by
      rw [beq_eq_false_iff_ne]
      rintro rfl
      exact absurd (h '}' List.mem_cons_self) (by decide)
    rw [List.cons_append, closingExtent, hc, if_neg Bool.false_ne_true,
      ih fun d hd => h d (List.mem_cons_of_mem c hd)]
    rfl

/-- An escape that gives a code ends with it. -/
theorem escapeExtent_code {letter : Char} {braced : Bool} {digits : List Char}
    (h : (Expr.coded letter braced digits).WellFormed) (rest : List Char) :
    escapeExtent letter (codeText braced digits ++ rest) = (codeText braced digits).length := by
  obtain ⟨⟨hletter, hdigits, hhex⟩, hwidth⟩ := h
  cases braced with
  | true =>
    have hbraces : escapeExtent letter ('{' :: (digits ++ '}' :: rest))
        = closingExtent '}' ('{' :: (digits ++ '}' :: rest)) := by
      have hcontains : "xuUpPbB".toList.contains letter = true := by
        unfold codeWidth at hletter
        split at hletter <;> first | rfl | exact absurd rfl hletter
      unfold escapeExtent
      rw [hcontains]
      rfl
    have hshape : codeText true digits ++ rest = '{' :: (digits ++ '}' :: rest) := by
      simp [codeText]
    rw [hshape, hbraces]
    show closingExtent '}' (digits ++ '}' :: rest) + 1 = ('{' :: (digits ++ ['}'])).length
    rw [closingExtent_digits hhex, List.length_cons, List.length_append]
    rfl
  | false =>
    have hlength := hwidth rfl
    obtain ⟨c, others, rfl⟩ := List.exists_cons_of_ne_nil hdigits
    have hhead : (((c :: others) ++ rest).head? == some '{') = false := by
      rw [List.cons_append, List.head?_cons, beq_eq_false_iff_ne]
      intro heq
      cases heq
      exact absurd (hhex '{' List.mem_cons_self) (by decide)
    show escapeExtent letter ((c :: others) ++ rest) = (c :: others).length
    have hextent := hexExtent_append hhex rest
    rw [hlength] at hextent ⊢
    unfold escapeExtent
    rw [hhead]
    unfold codeWidth at hletter hextent ⊢
    split at hletter
    · exact hextent
    · exact hextent
    · exact hextent
    · exact absurd rfl hletter

theorem split_coded {letter : Char} {braced : Bool} {digits : List Char}
    (h : (Expr.coded letter braced digits).WellFormed) (rest : List Char) :
    split ('\\' :: letter :: (codeText braced digits ++ rest))
      = escape ('\\' :: letter :: codeText braced digits) :: split rest := by
  have hletter : letter.isDigit = false := by
    have hwidth := h.1.1
    unfold codeWidth at hwidth
    split at hwidth <;> first | rfl | exact absurd rfl hwidth
  have hread : read '\\' (letter :: (codeText braced digits ++ rest))
      = (escape ('\\' :: letter :: codeText braced digits),
        (codeText braced digits).length + 1) := by
    show readEscape (letter :: (codeText braced digits ++ rest)) = _
    simp only [readEscape, hletter, escapeExtent_code h]
    rw [if_neg Bool.false_ne_true, List.take_succ_cons, List.take_left]
  rw [split_cons, hread, List.drop_succ_cons, List.drop_left]

/-- A number that ends before what follows. -/
theorem split_numeric {number : Nat} (h : number < numberLimit) {rest : List Char}
    (hrest : ∀ c ∈ rest.head?, c.isDigit = false) :
    split ('\\' :: (Nat.toDigits 10 number ++ rest)) = numeric number :: split rest := by
  have hread : read '\\' (Nat.toDigits 10 number ++ rest)
      = (numeric number, (Nat.toDigits 10 number).length) := by
    show readEscape (Nat.toDigits 10 number ++ rest) = _
    obtain ⟨digit, digits, hdigits, hdigit⟩ := head_toDigits number
    have htake := takeWhile_toDigits number hrest
    have hvalue : decimal (Nat.toDigits 10 number) = number := foldl_toDigits number
    rw [hdigits, List.cons_append] at htake ⊢
    rw [hdigits] at hvalue
    simp only [readEscape, hdigit, htake, hvalue, h, if_true]
  rw [split_cons, hread, List.drop_left]

/-- What opens a group, read after its parenthesis. -/
theorem split_opening {text rest : List Char} {kind : Opening}
    (h : readOpening (text ++ rest) = (opening kind, text.length)) :
    split ('(' :: (text ++ rest)) = opening kind :: split rest := by
  have hread : read '(' (text ++ rest) = (opening kind, text.length) := h
  rw [split_cons, hread, List.drop_left]

end Part

/-! ### The parts of an expression -/

namespace Expr

open Part

/-- The parts of the text of a pattern, runs of characters cut into
single ones. -/
def parts : Expr → List Part
  | empty => []
  | char c => [.literal [c]]
  | escaped c => [.escape ['\\', c]]
  | coded letter braced digits => [.escape ('\\' :: letter :: codeText braced digits)]
  | dot => [.literal ['.']]
  | anyChar => [.opening (.flagged ['s']), .literal ['.'], .close]
  | short kind negated => [.escape ['\\', shortLetter kind negated]]
  | bracket body => [.bracket ('[' :: (body ++ [']']))]
  | wordBoundary => [.escape ['\\', 'b']]
  | textStart => [.caret]
  | textEnd => [.literal ['$']]
  | capture body => .opening .capture :: (body.parts ++ [.close])
  | bare body => .opening (.flagged []) :: (body.parts ++ [.close])
  | ignoring body => .opening (.flagged ['i']) :: (body.parts ++ [.close])
  | look behind negated body =>
    .opening (.look (lookMark behind negated)) :: (body.parts ++ [.close])
  | backref number => [.numeric number]
  | seq first second => first.parts ++ second.parts
  | alt first second => first.parts ++ .literal ['|'] :: second.parts
  | repeated count greedy body =>
    body.parts ++ (countText count greedy).map fun c => .literal [c]

/-- The parts of an expression are its text. -/
theorem flatMap_render_parts (expr : Expr) : expr.parts.flatMap Part.render = expr.render := by
  have hsingle : ∀ text : List Char,
      (text.map fun c => Part.literal [c]).flatMap Part.render = text := by
    intro text
    induction text with
    | nil => rfl
    | cons c text ih =>
      rw [List.map_cons, List.flatMap_cons, ih]
      rfl
  induction expr with
  | capture body ih =>
    rw [parts, List.flatMap_cons, List.flatMap_append, ih]
    rfl
  | bare body ih =>
    rw [parts, List.flatMap_cons, List.flatMap_append, ih]
    rfl
  | ignoring body ih =>
    rw [parts, List.flatMap_cons, List.flatMap_append, ih]
    rfl
  | look behind negated body ih =>
    rw [parts, List.flatMap_cons, List.flatMap_append, ih]
    cases behind <;> cases negated <;> rfl
  | seq first second ihFirst ihSecond => rw [parts, List.flatMap_append, ihFirst, ihSecond, render]
  | alt first second ihFirst ihSecond =>
    rw [parts, List.flatMap_append, List.flatMap_cons, ihFirst, ihSecond]
    rfl
  | repeated count greedy body ih => rw [parts, List.flatMap_append, ih, hsingle, render]
  | backref number => rw [parts, List.flatMap_singleton]; rfl
  | coded letter braced digits => rw [parts, List.flatMap_singleton]; rfl
  | bracket body => rw [parts, List.flatMap_singleton]; rfl
  | _ => rfl

/-- No run is left to be cut. -/
theorem fine_parts (expr : Expr) : Part.fine expr.parts = expr.parts := by
  have hsingle : ∀ text : List Char,
      Part.fine (text.map fun c => Part.literal [c]) = text.map fun c => Part.literal [c] := by
    intro text
    induction text with
    | nil => rfl
    | cons c text ih =>
      rw [List.map_cons, fine_cons, ih]
      rfl
  have hgroup : ∀ (kind : Opening) (parts : List Part), Part.fine parts = parts →
      Part.fine (.opening kind :: (parts ++ [.close])) = .opening kind :: (parts ++ [.close]) := by
    intro kind parts ih
    rw [fine_cons, fine_append, ih]
    rfl
  induction expr with
  | capture body ih => exact hgroup _ _ ih
  | bare body ih => exact hgroup _ _ ih
  | ignoring body ih => exact hgroup _ _ ih
  | look behind negated body ih => exact hgroup _ _ ih
  | seq first second ihFirst ihSecond => rw [parts, fine_append, ihFirst, ihSecond]
  | alt first second ihFirst ihSecond =>
    rw [parts, fine_append, fine_cons, ihFirst, ihSecond]
    rfl
  | repeated count greedy body ih => rw [parts, fine_append, ih, hsingle]
  | _ => rfl

/-- Only some letters of escapes take more characters along. -/
theorem escapeExtent_eq_zero {c : Char} {rest : List Char}
    (h : "xuUpPbBk".toList.contains c = false) : escapeExtent c rest = 0 := by
  have hne : ∀ d ∈ "xuUpPbBk".toList, c ≠ d := by
    rintro d hd rfl
    rw [List.contains_iff_mem.mpr hd] at h
    cases h
  have hbraced : "xuUpPbB".toList.contains c = false :=
    contains_eq_false (fun d => !"xuUpPbBk".toList.contains d) (by decide) (by rw [h]; rfl)
  unfold escapeExtent
  simp only [hbraced, Bool.and_false, Bool.false_eq_true, if_false]
  split
  · exact absurd rfl (hne 'x' (by decide))
  · exact absurd rfl (hne 'u' (by decide))
  · exact absurd rfl (hne 'U' (by decide))
  · exact absurd rfl (hne 'p' (by decide))
  · exact absurd rfl (hne 'P' (by decide))
  · exact absurd rfl (hne 'k' (by decide))
  · rfl

/-- An escape that stands for one character has nothing after it. -/
theorem split_escaped {c : Char} (h : isEscape c = true) (rest : List Char) :
    split ('\\' :: c :: rest) = .escape ['\\', c] :: split rest :=
  split_escape (isDigit_of_isEscape h)
    (escapeExtent_eq_zero (contains_eq_false isEscape (by decide) h))

/-- A word boundary has nothing after it, if no brace follows. -/
theorem split_wordBoundary {rest : List Char} (h : ∀ c ∈ rest.head?, c ≠ '{') :
    split ('\\' :: 'b' :: rest) = .escape ['\\', 'b'] :: split rest := by
  refine split_escape (by decide) ?_
  have hbrace : (rest.head? == some '{') = false := by
    rw [beq_eq_false_iff_ne]
    exact fun heq => h '{' heq rfl
  unfold escapeExtent
  simp [hbrace]

/-- A parenthesis without a question mark after it captures. -/
theorem readOpening_capture {rest : List Char} (h : ∀ c ∈ rest.head?, isCountStart c = false) :
    readOpening rest = (.opening .capture, 0) := by
  cases rest with
  | nil => rfl
  | cons c rest =>
    have hc : c ≠ '?' := by
      rintro rfl
      exact absurd (h '?' rfl) (by decide)
    unfold readOpening nameExtent?
    simp [hc]

/-- A group, from its opening to its closing parenthesis. -/
theorem fine_split_group {text : List Char} {kind : Opening} {body : Expr} {rest : List Char}
    (hopen : readOpening (text ++ (body.render ++ ')' :: rest)) = (.opening kind, text.length))
    (hbody : fine (split (body.render ++ ')' :: rest)) = body.parts ++ fine (split (')' :: rest))) :
    fine (split ('(' :: (text ++ (body.render ++ [')'])) ++ rest))
      = .opening kind :: (body.parts ++ [.close]) ++ fine (split rest) := by
  have hshape : '(' :: (text ++ (body.render ++ [')'])) ++ rest
      = '(' :: (text ++ (body.render ++ ')' :: rest)) := by simp
  rw [hshape, split_opening hopen, fine_cons, hbody, split_cons]
  show [_] ++ (body.parts ++ fine (.close :: split rest)) = _
  rw [fine_cons]
  simp [fineOf]

/-- The parts of a text that an expression writes. -/
theorem fine_split_render {expr : Expr} (h : expr.WellFormed)
    (hnumbers : ∀ number, expr.refersTo number = true → number < numberLimit) {rest : List Char}
    (happart : expr.Apart rest) :
    fine (split (expr.render ++ rest)) = expr.parts ++ fine (split rest) := by
  -- On the pattern, with any text after it. Where the text after a part could be taken for
  -- more of it, the pattern is apart from that text.
  induction expr generalizing rest with
  | empty => rfl
  | char c =>
    refine fine_split_plain ?_ rest
    have hc : isLiteral c = true := h
    unfold Part.isPlain
    simp only [Bool.and_eq_true, bne_iff_ne]
    refine ⟨⟨⟨⟨?_, ?_⟩, ?_⟩, ?_⟩, ?_⟩ <;> · rintro rfl; revert hc; decide
  | escaped c =>
    show fine (split ('\\' :: c :: rest)) = _
    rw [split_escaped h]
    rfl
  | coded letter braced digits =>
    show fine (split ('\\' :: letter :: (codeText braced digits ++ rest))) = _
    rw [split_coded h]
    rfl
  | dot => exact fine_split_plain (by decide) rest
  | anyChar =>
    show fine (split ('(' :: (['?', 's', ':'] ++ '.' :: ')' :: rest))) = _
    rw [split_opening rfl, fine_cons, fine_split_plain (by decide), split_cons]
    rfl
  | short kind negated =>
    show fine (split ('\\' :: shortLetter kind negated :: rest)) = _
    rw [split_escape (by cases kind <;> cases negated <;> rfl)
      (escapeExtent_eq_zero (by cases kind <;> cases negated <;> rfl))]
    rfl
  | bracket body =>
    show fine (split ('[' :: (body ++ [']']) ++ rest)) = _
    rw [split_bracket h]
    rfl
  | wordBoundary =>
    show fine (split ('\\' :: 'b' :: rest)) = _
    rw [split_wordBoundary (happart.2 rfl)]
    rfl
  | textStart =>
    show fine (split ('^' :: rest)) = _
    rw [split_caret]
    rfl
  | textEnd => exact fine_split_plain (by decide) rest
  | capture body ih =>
    have hopen : readOpening ([] ++ (body.render ++ ')' :: rest)) = (.opening .capture, 0) :=
      readOpening_capture (head?_render_close (show body.WellFormed from h) rest)
    exact fine_split_group hopen (ih h hnumbers (apart_close body rest))
  | bare body ih =>
    have hopen : readOpening (['?', ':'] ++ (body.render ++ ')' :: rest))
        = (.opening (.flagged []), 2) := rfl
    exact fine_split_group hopen (ih h hnumbers (apart_close body rest))
  | ignoring body ih =>
    have hopen : readOpening (['?', 'i', ':'] ++ (body.render ++ ')' :: rest))
        = (.opening (.flagged ['i']), 3) := rfl
    exact fine_split_group hopen (ih h hnumbers (apart_close body rest))
  | look behind negated body ih =>
    have hopen : readOpening ('?' :: lookMark behind negated ++ (body.render ++ ')' :: rest))
        = (.opening (.look (lookMark behind negated)),
          ('?' :: lookMark behind negated).length) := by
      cases behind <;> cases negated <;> rfl
    have hgroup := fine_split_group hopen (ih h hnumbers (apart_close body rest))
    rw [List.cons_append] at hgroup
    exact hgroup
  | backref number =>
    show fine (split ('\\' :: (Nat.toDigits 10 number ++ rest))) = _
    rw [split_numeric (hnumbers number (beq_self_eq_true number)) (happart.1 rfl)]
    rfl
  | seq first second ihFirst ihSecond =>
    have hfirst := fun number hfirst => hnumbers number (Bool.or_eq_true_iff.mpr (.inl hfirst))
    have hsecond := fun number hsecond => hnumbers number (Bool.or_eq_true_iff.mpr (.inr hsecond))
    rw [render, List.append_assoc, ihFirst h.2.1.1 hfirst (Apart.first h happart),
      ihSecond h.2.1.2 hsecond happart.second, parts, List.append_assoc]
  | alt first second ihFirst ihSecond =>
    -- The bar ends the first branch, so nothing that follows it matters there.
    have hfirst := fun number hfirst => hnumbers number (Bool.or_eq_true_iff.mpr (.inl hfirst))
    have hsecond := fun number hsecond => hnumbers number (Bool.or_eq_true_iff.mpr (.inr hsecond))
    have happart : second.Apart rest := happart
    have hshape : (alt first second).render ++ rest
        = first.render ++ '|' :: (second.render ++ rest) := by simp [render]
    rw [hshape, ihFirst h.2.1 hfirst (apart_cons (by decide) (by decide) _),
      fine_split_plain (by decide), ihSecond h.2.2 hsecond happart, parts]
    simp
  | repeated count greedy body ih =>
    rw [render, List.append_assoc, ih h.2.1 hnumbers (apart_countText h rest),
      fine_split_plains (isPlain_countText count greedy), parts, List.append_assoc]

end Expr

end Highlighter.Pattern
