import Highlighter.Proofs.Embedding.Failures
import Highlighter.Proofs.Text.Boundary
import Highlighter.Proofs.Union.Tokens

/-!
# Tokens and their offsets

Whatever the patterns of a lexer match, be it nothing, or something
that starts later than it was looked for, a token takes at least one
character from where the one before it ends. So cutting a source into
tokens either gives up a match or parts the source, and each token is
what the union reports at the offset where it starts
(`tokenize_partition`).

Offsets count bytes. `offsetOf_indexOf` says that an offset between two
characters is the one of its character, so none is reported that a
source could not be cut at.
-/

set_option autoImplicit false

namespace Highlighter

namespace Text

variable {text before after : List Char} {offset : Nat}

/-- The start of what is left of a text has as many characters before
it as were taken. -/
theorem indexOf_byteSize (before after : List Char) :
    indexOf (byteSize before) (before ++ after) = before.length := by
  have hlength : before.length ≤ (before ++ after).length := by
    rw [List.length_append]
    omega
  have hindex := indexOf_offsetOf hlength
  rwa [offsetOf, List.take_left] at hindex

/-- An offset between two characters is the one of the character after
it. -/
theorem offsetOf_indexOf (h : IsBoundary text 0 offset) :
    offsetOf text (indexOf offset text) = offset := by
  obtain ⟨before, after, rfl, rfl⟩ := h
  rw [Nat.zero_add, indexOf_byteSize, offsetOf, List.take_left]

/-- Before the end of a text there is a character left. -/
theorem indexOf_lt_length (h : IsBoundary text 0 offset) (hlt : offset < byteSize text) :
    indexOf offset text < text.length := by
  obtain ⟨before, after, rfl, rfl⟩ := h
  rw [Nat.zero_add, byteSize_append] at hlt
  rw [Nat.zero_add, indexOf_byteSize, List.length_append]
  have hne : after ≠ [] := by
    rintro rfl
    rw [byteSize_nil] at hlt
    omega
  have := List.length_pos_iff.mpr hne
  omega

/-- The offset of a character is between two characters. -/
theorem isBoundary_offsetOf (text : List Char) (index : Nat) :
    IsBoundary text 0 (offsetOf text index) :=
  ⟨text.take index, text.drop index, List.take_append_drop index text, (Nat.zero_add _).symm⟩

end Text

namespace Union

variable {union : Union} {text : List Char}

theorem tokenAt_eq_error {offset : Nat} {failure : Failure}
    (h : union.tokenAt text offset = .error failure) : failure = .retriesExhausted := by
  unfold tokenAt at h
  cases hextent : union.tokenExtent text.toArray (Text.indexOf offset text) with
  | error known =>
    simp only [hextent] at h
    cases h
    exact tokenExtent_eq_error hextent
  | ok extent =>
    simp only [hextent] at h
    cases h

/-- The token at an offset is what the union reports for its
character. -/
theorem tokenAt_eq_ok {offset : Nat} {span : Span} (h : union.tokenAt text offset = .ok span) :
    ∃ extent, union.tokenExtent text.toArray (Text.indexOf offset text) = .ok extent ∧
      span.start = Text.offsetOf text (Text.indexOf offset text) ∧
      span.stop = Text.offsetOf text (Text.indexOf offset text + 1 + extent) := by
  unfold tokenAt at h
  cases hextent : union.tokenExtent text.toArray (Text.indexOf offset text) with
  | error failure =>
    simp only [hextent] at h
    cases h
  | ok extent =>
    simp only [hextent] at h
    cases h
    exact ⟨extent, rfl, rfl, rfl⟩

/-- Before the end of a text, a token starts where it was asked for,
and takes at least one character. -/
theorem tokenAt_advances {offset : Nat} {span : Span} (hoffset : Text.IsBoundary text 0 offset)
    (hlt : offset < Text.byteSize text) (h : union.tokenAt text offset = .ok span) :
    span.start = offset ∧ offset < span.stop ∧ Text.IsBoundary text 0 span.stop := by
  obtain ⟨extent, -, hstart, hstop⟩ := tokenAt_eq_ok h
  have hindex := Text.indexOf_lt_length hoffset hlt
  have hplace := Text.offsetOf_indexOf hoffset
  refine ⟨hstart.trans hplace, ?_, ?_⟩
  · calc offset = Text.offsetOf text (Text.indexOf offset text) := hplace.symm
      _ < Text.offsetOf text (Text.indexOf offset text + 1 + extent) :=
        Text.offsetOf_lt hindex (by omega)
      _ = span.stop := hstop.symm
  · rw [hstop]
    exact Text.isBoundary_offsetOf text _

/-- Each token of a text is the one that the union reports where it
starts. -/
theorem tokenAt_of_tokens {before after : List (List Char)} {token : List Char}
    (h : union.tokens text = .ok (before ++ token :: after)) :
    ∃ span, union.tokenAt text (Text.byteSize before.flatten) = .ok span ∧
      span.start = Text.byteSize before.flatten ∧
      span.stop = Text.byteSize before.flatten + Text.byteSize token := by
  obtain ⟨extent, hextent, htoken⟩ := token_of_tokens h
  have hwhole := flatten_tokens h
  rw [List.flatten_append, List.flatten_cons] at hwhole
  -- Bytes before the token are turned back into the number of characters before it.
  have hindex : Text.indexOf (Text.byteSize before.flatten) text = before.flatten.length := by
    rw [← hwhole]
    exact Text.indexOf_byteSize _ _
  have hbefore : text.take before.flatten.length = before.flatten := by
    rw [← hwhole, List.take_left]
  refine ⟨Span.inBytes text ⟨before.flatten.length, before.flatten.length + 1 + extent, by omega⟩,
    ?_, ?_, ?_⟩
  · unfold tokenAt
    simp only [hindex, hextent]
    rfl
  · show Text.byteSize (text.take before.flatten.length) = _
    rw [hbefore]
  · show Text.byteSize (text.take (before.flatten.length + 1 + extent)) = _
    rw [Nat.add_assoc, List.take_add, Nat.add_comm 1 extent, ← htoken, hbefore,
      Text.byteSize_append]

end Union

/-- Whatever its patterns are, a lexer parts every source. It fails
only by giving up a match. Otherwise its tokens, put together, are the
source; none is empty, each lies between two boundaries of characters,
and is the one reported at the offset where it starts. And wherever
there is something left of a text, the token that is reported starts
there, is not empty, and ends between two characters. -/
theorem Lexer.tokenize_partition (lexer : Lexer) (source : List Char) :
    (∀ failure, lexer.tokenize source = .error failure → failure = .retriesExhausted) ∧
    (∀ tokens, lexer.tokenize source = .ok tokens →
      tokens.flatten = source ∧ (∀ token ∈ tokens, token ≠ []) ∧
      ∀ before token after, tokens = before ++ token :: after →
        let start := Text.byteSize before.flatten
        let stop := start + Text.byteSize token
        Text.IsBoundary source 0 start ∧ Text.IsBoundary source 0 stop ∧
        ∃ span, lexer.tokenizer.tokenAt source start = .ok span ∧ span.start = start ∧
          span.stop = stop) ∧
    ∀ offset, Text.IsBoundary source 0 offset → offset < Text.byteSize source →
      (∀ failure, lexer.tokenizer.tokenAt source offset = .error failure →
        failure = .retriesExhausted) ∧
      ∀ span, lexer.tokenizer.tokenAt source offset = .ok span →
        span.start = offset ∧ offset < span.stop ∧ Text.IsBoundary source 0 span.stop := by
  refine ⟨fun failure => tokenize_eq_error, fun tokens h => ⟨Union.flatten_tokens h,
    fun token => Union.ne_nil_of_mem_tokens h, ?_⟩, fun offset hoffset hlt =>
    ⟨fun failure => Union.tokenAt_eq_error, fun span => Union.tokenAt_advances hoffset hlt⟩⟩
  rintro before token after rfl
  have hwhole := Union.flatten_tokens h
  rw [List.flatten_append, List.flatten_cons] at hwhole
  refine ⟨⟨before.flatten, token ++ after.flatten, hwhole, (Nat.zero_add _).symm⟩,
    ⟨before.flatten ++ token, after.flatten, by rw [← hwhole, List.append_assoc], ?_⟩,
    Union.tokenAt_of_tokens h⟩
  rw [Nat.zero_add, Text.byteSize_append]

end Highlighter
