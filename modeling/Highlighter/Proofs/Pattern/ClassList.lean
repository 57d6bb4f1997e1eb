import Highlighter.Proofs.Pattern.Expr

/-!
# Classes that list characters and ranges

`ClassLists spells body negated items` says that what stands between the
brackets of a class lists characters and ranges, and nothing else, and
whether it is negated. What a hyphen or a bracket is depends on where
it stands: at the end of a class, or where no character stands before
it to begin a range, a hyphen is a member, and so is a closing bracket
that comes first.

How a single character is spelt is a parameter. `Spells` has characters
as they are and with a backslash; `Denotes` has codes as well.
-/

set_option autoImplicit false

namespace Highlighter.Pattern

/-- A character or a range, as a class lists them. -/
inductive Listed where
  | one (c : Char)
  | range (lo hi : Char)
  deriving DecidableEq, Repr

/-- Whether a member of a class holds a character. -/
def Listed.holds : Listed → Char → Bool
  | one c, d => d == c
  | range lo hi, d => lo ≤ d && d ≤ hi

/-- Whether a character with a backslash before it stands for one
character of a class, in both dialects. -/
def isClassSpelling (c : Char) : Bool := "aftnrv".toList.contains c || Regex.isEscapable c

/-- Whether a character is an operation of a class when it is doubled. -/
def isOperator (c : Char) : Bool := "&-~".toList.contains c

/-- The text of a character in a class: the character as it is, or with
a backslash. -/
inductive Spells : List Char → Char → Prop where
  | plain {c : Char} (h : "\\[]".toList.contains c = false) : Spells [c] c
  | escaped {c : Char} (h : isClassSpelling c = true) : Spells ['\\', c] (unescaped c)

/-- The text of a character in a class, which may also be its code. -/
inductive Denotes : List Char → Char → Prop where
  | spelt {text : List Char} {c : Char} (h : Spells text c) : Denotes text c
  | coded {digits : List Char} {c : Char} (hhex : ∀ d ∈ digits, isHexDigit d = true)
    (hlength : digits.length ≤ 8) (hcode : coded? digits = some c) :
    Denotes ('\\' :: 'x' :: '{' :: (digits ++ ['}'])) c

/-- The characters and ranges that a text lists. A hyphen after a single
character stands at the end, or else it makes a range; and no
operation is written. -/
inductive Lists (spells : List Char → Char → Prop) : List Char → List Listed → Prop where
  | nil : Lists spells [] []
  | one {text rest : List Char} {c : Char} {items : List Listed} (htext : spells text c)
    (hhyphen : rest.head? = some '-' → rest = ['-'])
    (hdoubled : ∀ d, text = [d] → isOperator d = true → rest.head? ≠ some d)
    (hrest : Lists spells rest items) : Lists spells (text ++ rest) (.one c :: items)
  | range {first second rest : List Char} {lo hi : Char} {items : List Listed}
    (hfirst : spells first lo) (hsecond : spells second hi) (hstart : first ≠ ['-'])
    (hhyphen : second.head? ≠ some '-') (hle : lo ≤ hi) (hrest : Lists spells rest items) :
    Lists spells (first ++ '-' :: (second ++ rest)) (.range lo hi :: items)

/-- What a class lists, and whether it is negated. -/
inductive ClassLists (spells : List Char → Char → Prop) :
    List Char → Bool → List Listed → Prop where
  | plain {body : List Char} {items : List Listed} (hne : body ≠ [])
    (hcaret : body.head? ≠ some '^') (h : Lists spells body items) :
    ClassLists spells body false items
  | negated {body : List Char} {items : List Listed} (hne : body ≠ [])
    (h : Lists spells body items) : ClassLists spells ('^' :: body) true items
  | bracket {body : List Char} {items : List Listed} (h : Lists spells body items) :
    ClassLists spells (']' :: body) false (.one ']' :: items)
  | negatedBracket {body : List Char} {items : List Listed} (h : Lists spells body items) :
    ClassLists spells ('^' :: ']' :: body) true (.one ']' :: items)

/-! ### More spellings -/

theorem Lists.mono {spells spells' : List Char → Char → Prop}
    (hspells : ∀ text c, spells text c → spells' text c) {body : List Char} {items : List Listed}
    (h : Lists spells body items) : Lists spells' body items := by
  induction h with
  | nil => exact .nil
  | one htext hhyphen hdoubled _ ih => exact .one (hspells _ _ htext) hhyphen hdoubled ih
  | range hfirst hsecond hstart hhyphen hle _ ih =>
    exact .range (hspells _ _ hfirst) (hspells _ _ hsecond) hstart hhyphen hle ih

theorem ClassLists.mono {spells spells' : List Char → Char → Prop}
    (hspells : ∀ text c, spells text c → spells' text c) {body : List Char} {negated : Bool}
    {items : List Listed} (h : ClassLists spells body negated items) :
    ClassLists spells' body negated items := by
  cases h with
  | plain hne hcaret h => exact .plain hne hcaret (h.mono hspells)
  | negated hne h => exact .negated hne (h.mono hspells)
  | bracket h => exact .bracket (h.mono hspells)
  | negatedBracket h => exact .negatedBracket (h.mono hspells)

/-! ### What stands between brackets -/

theorem ne_of_plain {c : Char} (h : "\\[]".toList.contains c = false) :
    c ≠ '\\' ∧ c ≠ '[' ∧ c ≠ ']' := by
  refine ⟨?_, ?_, ?_⟩ <;> · rintro rfl; revert h; decide

theorem areMembers_plain {c : Char} (h : "\\[]".toList.contains c = false) (rest : List Char) :
    areMembers (c :: rest) = areMembers rest := by
  obtain ⟨hslash, hopen, hclose⟩ := ne_of_plain h
  rw [areMembers]
  · rw [bne_iff_ne.mpr hopen, bne_iff_ne.mpr hclose, Bool.true_and, Bool.true_and]
  · exact fun heq => absurd heq hslash
  · exact fun d others heq _ => absurd heq hslash

/-- An escape of a single letter ends with it. -/
theorem isClassEscape_of_isClassSpelling {c : Char} (h : isClassSpelling c = true)
    (rest : List Char) : isClassEscape c rest = true := by
  have hletter : "xuUpP".toList.contains c = false :=
    contains_eq_false isClassSpelling (by decide) h
  have hdigit : c.isDigit = false := by
    cases hdigit : c.isDigit with
    | false => rfl
    | true =>
      have hcontrol : "aftnrv".toList.contains c = false :=
        contains_eq_false Char.isDigit (by decide) hdigit
      unfold isClassSpelling Regex.isEscapable Char.isAlphanum at h
      rw [hcontrol, hdigit] at h
      simp at h
  unfold isClassEscape
  rw [hletter, hdigit]
  rfl

theorem plain_of_isHexDigit {c : Char} (h : isHexDigit c = true) :
    "\\[]".toList.contains c = false :=
  contains_eq_false isHexDigit (by decide) h

theorem areMembers_digits {digits : List Char} (h : ∀ d ∈ digits, isHexDigit d = true)
    (rest : List Char) : areMembers (digits ++ rest) = areMembers rest := by
  induction digits with
  | nil => rfl
  | cons d digits ih =>
    rw [List.cons_append, areMembers_plain (plain_of_isHexDigit (h d List.mem_cons_self)),
      ih fun e he => h e (List.mem_cons_of_mem d he)]

/-- A character of a class, and then other members. -/
theorem areMembers_denotes {text : List Char} {c : Char} (h : Denotes text c) (rest : List Char) :
    areMembers (text ++ rest) = areMembers rest := by
  cases h with
  | spelt h =>
    cases h with
    | plain h => exact areMembers_plain h rest
    | escaped h =>
      show areMembers ('\\' :: _ :: rest) = _
      rw [areMembers, isClassEscape_of_isClassSpelling h, Bool.true_and]
  | coded hhex hlength hcode =>
    rename_i digits
    have hescape : isClassEscape 'x' ('{' :: (digits ++ '}' :: rest)) = true := by
      show (digits ++ '}' :: rest).contains '}' = true
      simp
    have hshape : '\\' :: 'x' :: '{' :: (digits ++ ['}']) ++ rest
        = '\\' :: 'x' :: '{' :: (digits ++ '}' :: rest) := by simp
    rw [hshape, areMembers, hescape, Bool.true_and, areMembers_plain (by decide),
      areMembers_digits hhex, areMembers_plain (by decide)]

theorem Lists.areMembers {body : List Char} {items : List Listed} (h : Lists Denotes body items) :
    areMembers body = true := by
  induction h with
  | nil => rfl
  | one htext _ _ _ ih => rw [areMembers_denotes htext, ih]
  | range hfirst hsecond _ _ _ _ ih =>
    rw [areMembers_denotes hfirst, areMembers_plain (by decide), areMembers_denotes hsecond, ih]

/-- What the text of a character starts with. A text of more than one
character starts with a backslash. -/
theorem Denotes.exists_cons {text : List Char} {c : Char} (h : Denotes text c) :
    ∃ d others, text = d :: others ∧ (d ≠ '[' ∧ d ≠ ']') ∧ (others ≠ [] → d = '\\') := by
  cases h with
  | spelt h =>
    cases h with
    | plain h =>
      obtain ⟨-, hopen, hclose⟩ := ne_of_plain h
      exact ⟨c, [], rfl, ⟨hopen, hclose⟩, fun hne => absurd rfl hne⟩
    | escaped h => exact ⟨'\\', _, rfl, by decide, fun _ => rfl⟩
  | coded hhex hlength hcode => exact ⟨'\\', _, rfl, by decide, fun _ => rfl⟩

/-- No member starts with a closing bracket. -/
theorem Lists.head?_ne_close {body : List Char} {items : List Listed}
    (h : Lists Denotes body items) : body.head? ≠ some ']' := by
  cases h with
  | nil => exact fun heq => nomatch heq
  | one htext =>
    obtain ⟨d, others, rfl, ⟨-, hclose⟩, -⟩ := htext.exists_cons
    exact fun heq => hclose (Option.some.inj heq)
  | range hfirst =>
    obtain ⟨d, others, rfl, ⟨-, hclose⟩, -⟩ := hfirst.exists_cons
    exact fun heq => hclose (Option.some.inj heq)

/-- What a class lists can stand between brackets. -/
theorem ClassLists.isClassBody {body : List Char} {negated : Bool} {items : List Listed}
    (h : ClassLists Denotes body negated items) : isClassBody body = true := by
  have hclose : ∀ {body : List Char} {items : List Listed}, Lists Denotes body items →
      ∀ rest, body ≠ ']' :: rest := by
    rintro body items h rest rfl
    exact h.head?_ne_close rfl
  cases h with
  | plain hne hcaret h =>
    have hempty : body.isEmpty = false := by
      cases body with
      | nil => exact absurd rfl hne
      | cons c rest => rfl
    unfold Pattern.isClassBody
    split
    · exact absurd rfl hcaret
    · exact absurd rfl hcaret
    · exact absurd rfl (hclose h _)
    · rw [hempty, h.areMembers]
      rfl
  | negated hne h =>
    rename_i body
    have hempty : body.isEmpty = false := by
      cases body with
      | nil => exact absurd rfl hne
      | cons c rest => rfl
    unfold Pattern.isClassBody
    split
    · rename_i rest heq
      exact absurd (List.cons.inj heq).2 (hclose h rest)
    · rename_i rest _ heq
      cases heq
      rw [hempty, h.areMembers]
      rfl
    · rename_i heq
      cases heq
    · rename_i hcaret _
      exact absurd rfl (hcaret body)
  | bracket h => exact h.areMembers
  | negatedBracket h => exact h.areMembers

end Highlighter.Pattern
