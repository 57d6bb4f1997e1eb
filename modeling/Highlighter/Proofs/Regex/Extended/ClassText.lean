import Highlighter.Proofs.Regex.ClassBody
import Highlighter.Regex.Extended.Parser

/-!
# Classes of the extended dialect

The extended dialect resolves the escapes of a class and leaves the
rest to the regular one. It does so up to the closing bracket, and
neither what comes after it nor what was read before plays a part
(`parseBracket_body`).
-/

set_option autoImplicit false

namespace Highlighter.Regex.Extended

open Pattern

/-- The text that an escape leaves in a class. -/
def Escape.classText? : Escape → Option (List Char)
  | char c _ => some (quoted c)
  | set written => some written
  | _ => none

/-- Nothing has been read. -/
def Reading.blank : Reading := ⟨0, ⟨false, false, false, false, false⟩, 0, [], false, []⟩

/-- The text of an escape in a class, and what comes after it. -/
def classEscape? (cs : List Char) : Option (List Char × List Char) :=
  (parseEscape? .blank true cs).bind fun found => found.1.classText?.map (·, found.2.2)

/-- The text of an escape in a class is the same whatever was read
before. -/
theorem classEscape_eq (reading : Reading) (cs : List Char) :
    ((parseEscape? reading true cs).bind fun found => found.1.classText?.map (·, found.2.2))
      = classEscape? cs := by
  cases cs with
  | nil => rfl
  | cons c rest =>
    have hcode : ∀ digits,
        ((parseEscape?.code reading digits rest).bind fun found =>
          found.1.classText?.map (·, found.2.2))
        = (parseEscape?.code .blank digits rest).bind fun found =>
          found.1.classText?.map (·, found.2.2) := by
      intro digits
      unfold parseEscape?.code
      cases parseCode? digits rest <;> rfl
    have hproperty : ∀ letter,
        ((parseEscape?.property reading letter rest).bind fun found =>
          found.1.classText?.map (·, found.2.2))
        = (parseEscape?.property .blank letter rest).bind fun found =>
          found.1.classText?.map (·, found.2.2) := by
      intro letter
      unfold parseEscape?.property
      cases parsePropertyText? rest <;> rfl
    unfold classEscape? parseEscape?
    simp only [Bool.not_true, Bool.false_and, Bool.false_eq_true, if_false]
    by_cases hdigit : c.isDigit = true
    · rw [if_pos hdigit, if_pos hdigit]
    · rw [if_neg hdigit, if_neg hdigit]
      split
      · exact hcode 2
      · exact hcode 4
      · exact hcode 8
      · exact hproperty 'p'
      · exact hproperty 'P'
      · cases plainEscape? true c <;> rfl

/-! ### Escapes stay inside -/

/-- Hexadecimal digits before other members. -/
theorem areMembers_afterDigits {digits body : List Char}
    (hdigits : ∀ c ∈ digits, isHexDigit c = true) (h : areMembers (digits ++ body) = true) :
    areMembers body = true := by
  induction digits with
  | nil => exact h
  | cons c digits ih =>
    have hslash : c ≠ '\\' := by
      rintro rfl
      exact absurd (hdigits '\\' List.mem_cons_self) (by decide)
    exact ih (fun d hd => hdigits d (List.mem_cons_of_mem c hd)) (areMembers_tail hslash h)

/-- A list up to the first entry that fails a test. -/
theorem exists_takeWhile {α : Type} (test : α → Bool) {xs : List α}
    (h : ¬∀ x ∈ xs, test x = true) :
    ∃ first x rest, xs = first ++ x :: rest ∧ (∀ y ∈ first, test y = true) ∧ test x = false := by
  induction xs with
  | nil => exact absurd (fun x hx => (nomatch hx)) h
  | cons x xs ih =>
    by_cases hx : test x = true
    · have hrest : ¬∀ y ∈ xs, test y = true := by
        intro hall
        refine h fun y hy => ?_
        rcases List.mem_cons.mp hy with rfl | hy
        · exact hx
        · exact hall y hy
      obtain ⟨first, y, rest, rfl, hfirst, hy⟩ := ih hrest
      refine ⟨x :: first, y, rest, rfl, fun z hz => ?_, hy⟩
      rcases List.mem_cons.mp hz with rfl | hz
      · exact hx
      · exact hfirst z hz
    · exact ⟨[], x, xs, rfl, fun y hy => (nomatch hy), Bool.eq_false_iff.mpr hx⟩

/-- A code in braces. -/
def bracedCode? : List Char → Option (Char × List Char)
  | '{' :: rest =>
    let body := rest.takeWhile isHexDigit
    match rest.drop body.length with
    | '}' :: rest =>
      if body.length ≤ 8 then (coded? body).map (·, rest) else none
    | _ => none
  | _ => none

/-- A code that is no row of digits stands in braces. -/
theorem parseCode_otherwise {digits : Nat} {cs : List Char}
    (h : ¬((cs.take digits).length = digits ∧ ∀ c ∈ cs.take digits, isHexDigit c = true)) :
    parseCode? digits cs = bracedCode? cs := by
  have hfixed : ((cs.take digits).length == digits &&
      (cs.take digits).all fun c => (hexValue? c).isSome) = false := by
    rw [← Bool.not_eq_true, Bool.and_eq_true, beq_iff_eq, List.all_eq_true]
    exact h
  have hmake : ∀ (body rest : List Char),
      (do return (← charOfCode? (← hexNumber? body), rest) : Option (Char × List Char))
        = ((hexNumber? body).bind charOfCode?).map (·, rest) := by
    intro body rest
    cases hexNumber? body with
    | none => rfl
    | some code => exact (Option.map_eq_bind).symm
  unfold parseCode? bracedCode?
  simp only [hfixed, Bool.false_eq_true, if_false, hmake]
  rfl

/-- A code is read from the digits that it has. -/
theorem parseCode_digits {digits : List Char} (hhex : ∀ c ∈ digits, isHexDigit c = true)
    (rest : List Char) :
    parseCode? digits.length (digits ++ rest) = (coded? digits).map (·, rest) := by
  have hcondition : (digits.length == digits.length &&
      digits.all fun c => (hexValue? c).isSome) = true := by
    rw [Bool.and_eq_true, beq_iff_eq, List.all_eq_true]
    exact ⟨rfl, hhex⟩
  unfold parseCode? coded?
  simp only [List.take_left, List.drop_left, hcondition, if_true]
  cases hexNumber? digits with
  | none => rfl
  | some code => exact (Option.map_eq_bind).symm

/-- A code in braces is read from what is between them. -/
theorem parseCode_braces {digits : Nat} (hdigits : digits ≠ 0) {inner : List Char}
    (hinner : '}' ∉ inner) (rest : List Char) :
    parseCode? digits ('{' :: (inner ++ '}' :: rest))
      = (if inner.all isHexDigit = true ∧ inner.length ≤ 8 then coded? inner else none).map (·, rest) := by
  have hfixed : ¬((('{' :: (inner ++ '}' :: rest)).take digits).length = digits ∧
      ∀ c ∈ ('{' :: (inner ++ '}' :: rest)).take digits, isHexDigit c = true) := by
    rintro ⟨-, hall⟩
    obtain ⟨digits, rfl⟩ := Nat.exists_eq_succ_of_ne_zero hdigits
    exact absurd (hall '{' (by rw [List.take_succ_cons]; exact List.mem_cons_self)) (by decide)
  rw [parseCode_otherwise hfixed, bracedCode?]
  by_cases hall : ∀ c ∈ inner, isHexDigit c = true
  · have htake : (inner ++ '}' :: rest).takeWhile isHexDigit = inner := by
      rw [List.takeWhile_append_of_pos hall, List.takeWhile_cons_of_neg (by decide), List.append_nil]
    simp only [htake, List.drop_left]
    by_cases hlength : inner.length ≤ 8
    · rw [if_pos hlength, if_pos ⟨List.all_eq_true.mpr hall, hlength⟩]
    · rw [if_neg hlength, if_neg fun hboth => hlength hboth.2]
      rfl
  · obtain ⟨first, c, others, rfl, hfirst, hc⟩ := exists_takeWhile isHexDigit hall
    have htake : (first ++ c :: others ++ '}' :: rest).takeWhile isHexDigit = first := by
      rw [List.append_assoc, List.takeWhile_append_of_pos hfirst, List.cons_append,
        List.takeWhile_cons_of_neg (by rw [hc]; exact Bool.false_ne_true), List.append_nil]
    have hne : c ≠ '}' := by
      rintro rfl
      exact hinner (by simp)
    rw [if_neg fun hboth => hall (List.all_eq_true.mp hboth.1)]
    simp only [htake]
    rw [List.append_assoc, List.drop_left, List.cons_append]
    split
    · rename_i heq
      exact absurd (List.cons.inj heq).1 hne
    · rfl

/-- A code ends inside the class. -/
theorem staysInside_parseCode {digits : Nat} (hdigits : digits ≠ 0) {body : List Char}
    (h : areMembers body = true) (hbrace : ∀ rest, body = '{' :: rest → rest.contains '}' = true) :
    StaysInside (parseCode? digits) body := by
  by_cases hfixed : (body.take digits).length = digits ∧
      ∀ c ∈ body.take digits, isHexDigit c = true
  · -- All digits stand before the bracket.
    obtain ⟨hlength, hhex⟩ := hfixed
    have hle : digits ≤ body.length := by
      rw [List.length_take] at hlength
      omega
    have hbody : body.take digits ++ body.drop digits = body := List.take_append_drop digits body
    have hleft : areMembers (body.drop digits) = true := by
      rw [← hbody] at h
      exact areMembers_afterDigits hhex h
    refine .ofMap (coded? (body.take digits)) hleft (by rw [List.length_drop]; omega)
      fun rest => ?_
    have hread := parseCode_digits hhex (body.drop digits ++ ']' :: rest)
    rw [hlength, ← List.append_assoc, hbody] at hread
    exact hread
  · have hlong : ∀ rest, ¬(((body ++ ']' :: rest).take digits).length = digits ∧
        ∀ c ∈ (body ++ ']' :: rest).take digits, isHexDigit c = true) := by
      rintro rest ⟨hlength, hhex⟩
      by_cases hle : digits ≤ body.length
      · rw [List.take_append_of_le_length hle] at hlength hhex
        exact hfixed ⟨hlength, hhex⟩
      · refine absurd (hhex ']' ?_) (by decide)
        rw [List.mem_take_iff_getElem]
        refine ⟨body.length, by simp; omega, by simp⟩
    by_cases hopen : ∃ others, body = '{' :: others
    · obtain ⟨others, rfl⟩ := hopen
      obtain ⟨inner, left, rfl, hinner⟩ :=
        List.eq_append_cons_of_mem (List.contains_iff_mem.mp (hbrace others rfl))
      have hleft := areMembers_afterBrace inner left (areMembers_tail (by decide) h)
      refine .ofMap (if inner.all isHexDigit = true ∧ inner.length ≤ 8 then
        coded? inner else none) hleft (by simp; omega) fun rest => ?_
      rw [← parseCode_braces hdigits hinner]
      simp
    · refine .inl fun rest => ?_
      rw [parseCode_otherwise (hlong rest)]
      cases body with
      | nil => rfl
      | cons c body =>
        rw [List.cons_append, bracedCode?]
        rintro others heq
        cases heq
        exact hopen ⟨body, rfl⟩

/-- The name of a property ends inside the class. -/
theorem staysInside_parsePropertyText {letter : Char} {body : List Char}
    (hletter : "xuUpP".toList.contains letter = true)
    (h : areMembers ('\\' :: letter :: body) = true) :
    StaysInside parsePropertyText? body := by
  obtain ⟨hescape, hbody⟩ := areMembers_escape h
  unfold isClassEscape at hescape
  rw [if_pos hletter] at hescape
  cases body with
  | nil => cases hescape
  | cons c body =>
    by_cases hopen : c = '{'
    · subst hopen
      obtain ⟨inner, left, rfl, hinner⟩ :=
        List.eq_append_cons_of_mem (List.contains_iff_mem.mp hescape)
      have hleft := areMembers_afterBrace inner left (areMembers_tail (by decide) hbody)
      refine .inr ⟨'{' :: inner ++ ['}'], left, hleft, by simp; omega, fun rest => ?_⟩
      have hother : ∀ d ∈ inner, (d != '}') = true := by
        intro d hd
        rw [bne_iff_ne]
        rintro rfl
        exact hinner hd
      have hshape : '{' :: (inner ++ '}' :: left) ++ ']' :: rest
          = '{' :: (inner ++ '}' :: (left ++ ']' :: rest)) := by simp
      rw [hshape, parsePropertyText?, List.takeWhile_append_of_pos hother,
        List.dropWhile_append_of_pos hother]
      simp
    · have hslash : c ≠ '\\' := by
        split at hescape
        · rename_i heq
          cases heq
        · rename_i heq
          cases heq
          exact absurd rfl hopen
        · rename_i heq
          cases heq
          exact bne_iff_ne.mp hescape
      refine .inr ⟨[c], body, areMembers_tail hslash hbody, Nat.le_succ _, fun rest => ?_⟩
      rw [List.cons_append, parsePropertyText?]
      exact hopen

/-- An escape in a class that is nothing but its letter. -/
theorem classEscape_letter {c : Char} (h : "xuUpP".toList.contains c = false) (cs : List Char) :
    classEscape? (c :: cs) = ((if c.isDigit then none else plainEscape? true c).bind
      Escape.classText?).map (·, cs) := by
  have hne : ∀ d ∈ "xuUpP".toList, c ≠ d := by
    rintro d hd rfl
    rw [List.contains_iff_mem.mpr hd] at h
    cases h
  unfold classEscape? parseEscape?
  simp only [Bool.not_true, Bool.false_and, Bool.false_eq_true, if_false]
  by_cases hdigit : c.isDigit = true
  · rw [if_pos hdigit, if_pos hdigit]
    rfl
  · rw [if_neg hdigit, if_neg hdigit]
    split
    · exact absurd rfl (hne _ (by decide))
    · exact absurd rfl (hne _ (by decide))
    · exact absurd rfl (hne _ (by decide))
    · exact absurd rfl (hne _ (by decide))
    · exact absurd rfl (hne _ (by decide))
    · cases plainEscape? true c <;> rfl

/-- An escape in a class ends inside it. -/
theorem staysInside_classEscape {c : Char} {body : List Char}
    (h : areMembers ('\\' :: c :: body) = true) :
    StaysInside (fun cs => classEscape? (c :: cs)) body := by
  obtain ⟨hescape, hbody⟩ := areMembers_escape h
  by_cases hletter : "xuUpP".toList.contains c = true
  · -- These letters may take a brace, which closes inside the class.
    have hbrace : ∀ rest, body = '{' :: rest → rest.contains '}' = true := by
      rintro rest rfl
      unfold isClassEscape at hescape
      rw [if_pos hletter] at hescape
      exact hescape
    have hcode : ∀ {digits : Nat}, digits ≠ 0 →
        (∀ cs, classEscape? (c :: cs) = (parseCode? digits cs).bind fun found =>
          (some (quoted found.1)).map (·, found.2)) →
        StaysInside (fun cs => classEscape? (c :: cs)) body :=
      fun hdigits hread => (staysInside_parseCode hdigits hbody hbrace).map?
        (fun char => some (quoted char)) fun rest => hread _
    have hproperty : (∀ cs, classEscape? (c :: cs) = (parsePropertyText? cs).bind fun found =>
          (some ('\\' :: c :: found.1)).map (·, found.2)) →
        StaysInside (fun cs => classEscape? (c :: cs)) body :=
      fun hread => (staysInside_parsePropertyText hletter h).map?
        (fun text => some ('\\' :: c :: text)) fun rest => hread _
    have hcases : c = 'x' ∨ c = 'u' ∨ c = 'U' ∨ c = 'p' ∨ c = 'P' := by
      simpa using hletter
    rcases hcases with rfl | rfl | rfl | rfl | rfl
    · refine hcode (show 2 ≠ 0 by decide) fun cs => ?_
      show ((parseEscape?.code .blank 2 cs).bind _) = _
      unfold parseEscape?.code
      cases parseCode? 2 cs <;> rfl
    · refine hcode (show 4 ≠ 0 by decide) fun cs => ?_
      show ((parseEscape?.code .blank 4 cs).bind _) = _
      unfold parseEscape?.code
      cases parseCode? 4 cs <;> rfl
    · refine hcode (show 8 ≠ 0 by decide) fun cs => ?_
      show ((parseEscape?.code .blank 8 cs).bind _) = _
      unfold parseEscape?.code
      cases parseCode? 8 cs <;> rfl
    · refine hproperty fun cs => ?_
      show ((parseEscape?.property .blank 'p' cs).bind _) = _
      unfold parseEscape?.property
      cases parsePropertyText? cs <;> rfl
    · refine hproperty fun cs => ?_
      show ((parseEscape?.property .blank 'P' cs).bind _) = _
      unfold parseEscape?.property
      cases parsePropertyText? cs <;> rfl
  · exact .ofMap _ hbody (Nat.le_refl _) fun rest =>
      classEscape_letter (Bool.eq_false_iff.mpr hletter) _

/-! ### Whole classes -/

/-- An escape, and then the rest of a class. -/
theorem classText_escape (reading : Reading) (depth steps : Nat) (cs : List Char) :
    classText? reading depth (steps + 1) ('\\' :: cs)
      = (classEscape? cs).bind fun found =>
          (classText? reading depth steps found.2).map fun more => (found.1 ++ more.1, more.2) := by
  rw [classText?, ← classEscape_eq reading cs]
  cases parseEscape? reading true cs with
  | none => rfl
  | some found =>
    obtain ⟨escape, -, rest⟩ := found
    simp only [bind, Option.bind_some]
    cases hmore : classText? reading depth steps rest with
    | none =>
      cases escape <;> simp [Escape.classText?, hmore]
    | some more =>
      cases escape <;> simp [Escape.classText?, hmore]

/-- A character that stands for itself, and then the rest of a class. -/
theorem classText_plain {c : Char} {others : List Char} (hslash : c ≠ '\\')
    (h : areMembers (c :: others) = true)
    (hothers : ∃ text? : Option (List Char), ∀ reading steps rest, others.length < steps →
      classText? reading 1 steps (others ++ ']' :: rest) = text?.map (· ++ [']'], rest)) :
    ∃ text? : Option (List Char), ∀ reading steps rest, (c :: others).length < steps →
      classText? reading 1 steps (c :: others ++ ']' :: rest) = text?.map (· ++ [']'], rest) := by
  obtain ⟨more?, hmore⟩ := hothers
  have hclose : c ≠ ']' := by
    rintro rfl
    unfold areMembers at h
    simp at h
  have hopen : c ≠ '[' := by
    rintro rfl
    unfold areMembers at h
    simp at h
  refine ⟨more?.map (c :: ·), fun reading steps rest hsteps => ?_⟩
  simp only [List.length_cons] at hsteps
  cases steps with
  | zero => cases hsteps
  | succ steps =>
    rw [List.cons_append, classText?]
    · rw [hmore reading steps rest (by omega)]
      cases more? with
      | none => rfl
      | some more => rfl
    · exact hslash
    · exact hclose
    · exact hopen

/-- A class is resolved up to its closing bracket. -/
theorem classText_body {body : List Char} (h : areMembers body = true) :
    ∃ text? : Option (List Char), ∀ reading steps rest, body.length < steps →
      classText? reading 1 steps (body ++ ']' :: rest) = text?.map (· ++ [']'], rest) := by
  -- By the length of what is left, since an escape takes several
  -- characters in one step.
  match body with
  | [] =>
    refine ⟨some [], fun reading steps rest hsteps => ?_⟩
    cases steps with
    | zero => cases hsteps
    | succ steps => rfl
  | [c] =>
    by_cases hslash : c = '\\'
    · subst hslash
      cases h
    · exact classText_plain hslash h ⟨some [], fun reading steps rest hsteps => by
        cases steps with
        | zero => cases hsteps
        | succ steps => rfl⟩
  | c :: d :: others =>
    by_cases hslash : c = '\\'
    · subst hslash
      rcases staysInside_classEscape h with hnone | ⟨text, left, hleft, hlength, hread⟩
      · refine ⟨none, fun reading steps rest hsteps => ?_⟩
        cases steps with
        | zero => cases hsteps
        | succ steps =>
          rw [List.cons_append, List.cons_append, classText_escape,
            show classEscape? (d :: (others ++ ']' :: rest)) = none from hnone rest]
          rfl
      · obtain ⟨more?, hmore⟩ := classText_body hleft
        refine ⟨more?.map (text ++ ·), fun reading steps rest hsteps => ?_⟩
        simp only [List.length_cons] at hsteps
        cases steps with
        | zero => cases hsteps
        | succ steps =>
          rw [List.cons_append, List.cons_append, classText_escape,
            show classEscape? (d :: (others ++ ']' :: rest)) = some (text, left ++ ']' :: rest) from
              hread rest, Option.bind_some, hmore reading steps rest (by omega)]
          cases more? with
          | none => rfl
          | some more => simp
    · exact classText_plain hslash h (classText_body (areMembers_tail hslash h))
termination_by body.length
decreasing_by
  · simp_all
    omega
  · simp_all

/-- The class that the extended dialect reads between brackets. -/
def extendedClass? (body : List Char) : Option ClassSet :=
  match parseBracket? .blank (body ++ [']']) with
  | some (.set set _, _) => some set
  | _ => none

/-- A class whose opening is known. -/
theorem parseBracket_opening (opening : List Char) {cs whole : List Char} (reading : Reading)
    (h : parseBracket? reading whole = do
      let (text, rest) ← classText? reading 1 (cs.length + 1) cs
      return (.set (← writtenSet? (opening ++ text)) reading.flags.ignoreCase, rest)) :
    parseBracket? reading whole
      = (classText? reading 1 (cs.length + 1) cs).bind fun found =>
          (writtenSet? (opening ++ found.1)).map fun set =>
            (.set set reading.flags.ignoreCase, found.2) := by
  rw [h]
  cases classText? reading 1 (cs.length + 1) cs with
  | none => rfl
  | some found =>
    show (writtenSet? (opening ++ found.1)).bind _ = (writtenSet? (opening ++ found.1)).map _
    cases writtenSet? (opening ++ found.1) <;> rfl

/-- What a class opens with is told from its body. -/
theorem exists_opening {body : List Char} (h : isClassBody body = true) :
    ∃ opening others, areMembers others = true ∧ ∀ (reading : Reading) (rest : List Char),
      parseBracket? reading (body ++ ']' :: rest)
        = (classText? reading 1 ((others ++ ']' :: rest).length + 1) (others ++ ']' :: rest)).bind
            fun found => (writtenSet? (opening ++ found.1)).map fun set =>
              (.set set reading.flags.ignoreCase, found.2) := by
  unfold isClassBody at h
  split at h
  · rename_i others
    exact ⟨['[', '^', ']'], others, h, fun reading rest => parseBracket_opening _ _ rfl⟩
  · rename_i others hclose
    obtain ⟨hne, hmembers⟩ := Bool.and_eq_true_iff.mp h
    cases others with
    | nil => cases hne
    | cons c others =>
      have hc : c ≠ ']' := fun heq => hclose others (by rw [heq])
      refine ⟨['[', '^'], c :: others, hmembers, fun reading rest => parseBracket_opening _ _ ?_⟩
      simp [parseBracket?, hc]
  · rename_i others
    exact ⟨['[', ']'], others, h, fun reading rest => parseBracket_opening _ _ rfl⟩
  · rename_i hcaret hclose
    obtain ⟨hne, hmembers⟩ := Bool.and_eq_true_iff.mp h
    cases body with
    | nil => cases hne
    | cons c others =>
      have hc : c ≠ '^' := fun heq => hcaret others (by rw [heq])
      have hc' : c ≠ ']' := fun heq => hclose others (by rw [heq])
      refine ⟨['['], c :: others, hmembers, fun reading rest => parseBracket_opening _ _ ?_⟩
      simp [parseBracket?, hc, hc']

/-- A class is read up to its closing bracket, and means the same
whatever stands around it. -/
theorem parseBracket_body {body : List Char} (h : isClassBody body = true) (reading : Reading)
    (rest : List Char) :
    parseBracket? reading (body ++ ']' :: rest)
      = (extendedClass? body).map fun set => (.set set reading.flags.ignoreCase, rest) := by
  obtain ⟨opening, others, hothers, hopening⟩ := exists_opening h
  obtain ⟨text?, htext⟩ := classText_body hothers
  have hset : ∀ (reading : Reading) rest, parseBracket? reading (body ++ ']' :: rest)
      = (text?.bind fun text => writtenSet? (opening ++ (text ++ [']']))).map fun set =>
          (.set set reading.flags.ignoreCase, rest) := by
    intro reading rest
    rw [hopening reading rest, htext reading _ rest (by rw [List.length_append]; omega)]
    cases text? with
    | none => rfl
    | some text => rfl
  have hclass : extendedClass? body
      = text?.bind fun text => writtenSet? (opening ++ (text ++ [']'])) := by
    rw [extendedClass?, hset]
    cases text?.bind fun text => writtenSet? (opening ++ (text ++ [']'])) <;> rfl
  rw [hset, hclass]

end Highlighter.Regex.Extended
