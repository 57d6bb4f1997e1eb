import Highlighter.Text

/-!
# Offsets between characters

`IsBoundary text base offset` says that an offset stands between two
characters of a text that starts at `base`, or at one of its ends. A
boundary of a part of a text is one of the whole text
(`IsBoundary.append_left`, `IsBoundary.append_right`).

A cut takes a text apart and loses nothing (`append_of_cut?`). It
succeeds wherever both ends are boundaries (`cut?_append`,
`IsBoundary.exists_between`).
-/

set_option autoImplicit false

namespace Highlighter.Text

/-- Whether an offset is between two characters of a text that starts
at `base`, or at one of its ends. -/
def IsBoundary (text : List Char) (base offset : Nat) : Prop :=
  ∃ before after, before ++ after = text ∧ offset = base + byteSize before

namespace IsBoundary

variable {text first second : List Char} {base offset : Nat}

theorem start (text : List Char) (base : Nat) : IsBoundary text base base :=
  ⟨[], text, rfl, rfl⟩

theorem le (h : IsBoundary text base offset) : base ≤ offset := by
  obtain ⟨before, after, -, rfl⟩ := h
  exact Nat.le_add_right _ _

theorem le_stop (h : IsBoundary text base offset) : offset ≤ base + byteSize text := by
  obtain ⟨before, after, rfl, rfl⟩ := h
  rw [byteSize_append]
  omega

theorem append_left (h : IsBoundary first base offset) (second : List Char) :
    IsBoundary (first ++ second) base offset := by
  obtain ⟨before, after, rfl, rfl⟩ := h
  exact ⟨before, after ++ second, by rw [List.append_assoc], rfl⟩

theorem append_right (first : List Char)
    (h : IsBoundary second (base + byteSize first) offset) :
    IsBoundary (first ++ second) base offset := by
  obtain ⟨before, after, rfl, rfl⟩ := h
  refine ⟨first ++ before, after, by rw [List.append_assoc], ?_⟩
  rw [byteSize_append, Nat.add_assoc]

end IsBoundary

/-- Every character takes at least one byte. -/
theorem byteSize_pos {text : List Char} (h : text ≠ []) : 0 < byteSize text := by
  cases text with
  | nil => exact absurd rfl h
  | cons c rest =>
    have := c.utf8Size_pos
    rw [byteSize_cons]
    omega

/-- Offsets grow from one character of a text to the next ones. -/
theorem offsetOf_lt {text : List Char} {index next : Nat} (hindex : index < text.length)
    (hnext : index < next) : offsetOf text index < offsetOf text next := by
  refine Nat.lt_of_lt_of_le ?_ (offsetOf_mono text hnext)
  rw [offsetOf, offsetOf, List.take_succ_eq_append_getElem hindex, byteSize_append]
  exact Nat.lt_add_of_pos_right (byteSize_pos (List.cons_ne_nil _ _))

/-- A cut loses nothing. -/
theorem append_of_cut? {span : Span} {text : List Char} {cut : Cut}
    (h : cut? span text = some cut) : cut.before ++ cut.body ++ cut.after = text := by
  simp only [cut?, Option.bind_eq_bind, Option.bind_eq_some_iff, Option.pure_def,
    Option.some.injEq] at h
  obtain ⟨⟨before, rest⟩, hstart, ⟨body, after⟩, hstop, rfl⟩ := h
  obtain ⟨hrest, -⟩ := splitAt?_eq_some hstart
  obtain ⟨hbody, -⟩ := splitAt?_eq_some hstop
  rw [List.append_assoc, hbody, hrest]

/-- A text can be split between any two parts of it. -/
theorem splitAt?_append (before after : List Char) :
    splitAt? (byteSize before) (before ++ after) = some (before, after) := by
  induction before with
  | nil => cases after <;> rfl
  | cons c before ih =>
    have hpos := c.utf8Size_pos
    rw [List.cons_append, splitAt?, byteSize_cons, if_neg (by omega), if_neg (by omega),
      Nat.add_sub_cancel_left, ih]
    rfl

/-- A part of a text can be cut out of it. -/
theorem cut?_append {span : Span} {before body after : List Char}
    (hstart : span.start = byteSize before) (hlength : span.length = byteSize body) :
    cut? span (before ++ (body ++ after)) = some ⟨before, body, after⟩ := by
  simp only [cut?, hstart, hlength, splitAt?_append, Option.bind_eq_bind, Option.bind_some,
    Option.pure_def]

/-- Between two boundaries of a text there is a part of it. -/
theorem IsBoundary.exists_between {text : List Char} {start stop : Nat}
    (hstart : IsBoundary text 0 start) (hstop : IsBoundary text 0 stop) (hle : start ≤ stop) :
    ∃ before body after, before ++ (body ++ after) = text ∧ start = byteSize before ∧
      stop = start + byteSize body := by
  obtain ⟨before, rest, rfl, rfl⟩ := hstart
  obtain ⟨before', rest', htext, rfl⟩ := hstop
  simp only [Nat.zero_add] at hle ⊢
  rcases List.append_eq_append_iff.mp htext with ⟨body, rfl, rfl⟩ | ⟨body, rfl, rfl⟩
  · -- The second boundary comes first, so that nothing is between them.
    rw [byteSize_append] at hle
    cases body with
    | nil => exact ⟨before', [], rest, by simp, by simp, by simp⟩
    | cons c body =>
      have := c.utf8Size_pos
      rw [byteSize_cons] at hle
      omega
  · exact ⟨before, body, rest', rfl, rfl, byteSize_append _ _⟩

/-- The character that starts at the offset of a character is that
character. -/
theorem indexOf_offsetOf {text : List Char} {index : Nat} (h : index ≤ text.length) :
    indexOf (offsetOf text index) text = index := by
  induction text generalizing index with
  | nil => exact (Nat.le_zero.mp h).symm
  | cons c rest ih =>
    cases index with
    | zero => rfl
    | succ index =>
      have hoffset : offsetOf (c :: rest) (index + 1) = c.utf8Size + offsetOf rest index := rfl
      have hpos := c.utf8Size_pos
      rw [hoffset, indexOf, if_neg (by omega), Nat.add_sub_cancel_left,
        ih (Nat.le_of_succ_le_succ h)]

end Highlighter.Text
