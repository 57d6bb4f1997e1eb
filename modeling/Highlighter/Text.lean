/-!
# Offsets in a text

A text is a list of characters. Offsets into it count the bytes of its UTF-8 form. `cut?` cuts a
part out of a text; it answers only where both ends stand between two characters.

Main statement: a split loses nothing, and its first part is as long as asked for
(`splitAt?_eq_some`).
-/

set_option autoImplicit false

namespace Highlighter

/-- A part of a text, from `start` up to `stop`. -/
structure Span where
  start : Nat
  stop : Nat
  start_le_stop : start ≤ stop := by omega
  deriving DecidableEq, Repr

namespace Span

/-- The part between two places, moved back where it would reach beyond `size`. -/
def within (size start stop : Nat) : Span where
  start := min start (min stop size)
  stop := min stop size
  start_le_stop := Nat.min_le_right _ _

/-- How far a part reaches. -/
def length (span : Span) : Nat := span.stop - span.start

/-- Whether nothing is between the two ends. -/
def isEmpty (span : Span) : Bool := span.start == span.stop

theorem stop_within_le (size start stop : Nat) : (within size start stop).stop ≤ size :=
  Nat.min_le_right _ _

end Span

namespace Text

/-- How many bytes the UTF-8 form of a text has. -/
def byteSize : List Char → Nat
  | [] => 0
  | c :: rest => c.utf8Size + byteSize rest

@[simp] theorem byteSize_nil : byteSize [] = 0 := rfl

@[simp] theorem byteSize_cons (c : Char) (text : List Char) :
    byteSize (c :: text) = c.utf8Size + byteSize text := rfl

@[simp] theorem byteSize_append (first second : List Char) :
    byteSize (first ++ second) = byteSize first + byteSize second := by
  induction first with
  | nil => simp
  | cons c rest ih => simp [ih, Nat.add_assoc]

/-- Where the character with a number starts. -/
def offsetOf (text : List Char) (index : Nat) : Nat := byteSize (text.take index)

theorem offsetOf_mono (text : List Char) {i j : Nat} (h : i ≤ j) :
    offsetOf text i ≤ offsetOf text j := by
  have split : text.take j = text.take i ++ (text.take j).drop i := by
    conv => lhs; rw [← List.take_append_drop i (text.take j)]
    rw [List.take_take, Nat.min_eq_left h]
  rw [offsetOf, offsetOf, split, byteSize_append]
  exact Nat.le_add_right _ _

/-- How many characters start before an offset. -/
def indexOf (offset : Nat) : List Char → Nat
  | [] => 0
  | c :: rest => if offset = 0 then 0 else indexOf (offset - c.utf8Size) rest + 1

/-- The text before an offset and the text after it. -/
def splitAt? (offset : Nat) : List Char → Option (List Char × List Char)
  | [] => if offset = 0 then some ([], []) else none
  | c :: rest =>
    if offset = 0 then some ([], c :: rest)
    else if offset < c.utf8Size then none
    else (splitAt? (offset - c.utf8Size) rest).map fun (before, after) => (c :: before, after)

/-- A split loses nothing, and its first part is as long as asked for. -/
theorem splitAt?_eq_some {offset : Nat} {text before after : List Char}
    (h : splitAt? offset text = some (before, after)) :
    before ++ after = text ∧ byteSize before = offset := by
  induction text generalizing offset before with
  | nil => grind [splitAt?, byteSize]
  | cons c rest ih =>
    rw [splitAt?] at h
    split at h
    · grind [byteSize]
    · split at h
      · contradiction
      · obtain ⟨⟨head, tail⟩, found, eq⟩ := Option.map_eq_some_iff.1 h
        obtain ⟨rfl, rfl⟩ := Prod.mk.injEq .. ▸ eq
        obtain ⟨whole, size⟩ := ih found
        constructor
        · simp [whole]
        · rw [byteSize_cons, size]
          omega

/-- A text in three parts. -/
structure Cut where
  before : List Char
  body : List Char
  after : List Char
  deriving DecidableEq, Repr

/-- Cut out the part of a text between two offsets. -/
def cut? (span : Span) (text : List Char) : Option Cut := do
  let (before, rest) ← splitAt? span.start text
  let (body, after) ← splitAt? span.length rest
  return ⟨before, body, after⟩

end Text

/-- A part given by character numbers, as offsets. -/
def Span.inBytes (text : List Char) (span : Span) : Span where
  start := Text.offsetOf text span.start
  stop := Text.offsetOf text span.stop
  start_le_stop := Text.offsetOf_mono text span.start_le_stop

end Highlighter
