import Highlighter.Embedding

/-!
# Where a source starts does not matter

A source may start at any offset. If it starts later by some distance,
its decorations do, too, and nothing else changes: not their styles, not
the failure if there is one, and not the registry afterwards.

* `Stream.compact_shift`: compacting compares offsets with one another
  and with the end of the source. All of these move together.
* `decorateCut_shift`: the parts of a token are sources with starts of
  their own, each of which is the start of the token and what is before
  the part.
* `decorateWithin_shift`: so at every depth of nesting a source is
  decorated alike, by induction on the depth and on the tokens. The
  memo holds no offsets.
* `Registry.base_only_shifts`: this for all ways to ask for decorations.
-/

set_option autoImplicit false

namespace Highlighter

/-- A decoration that starts later by a distance. -/
def Decoration.shift (distance : Nat) (decoration : Decoration) : Decoration :=
  { decoration with offset := decoration.offset + distance }

@[simp]
theorem Decoration.offset_shift (distance : Nat) (decoration : Decoration) :
    (decoration.shift distance).offset = decoration.offset + distance := rfl

@[simp]
theorem Decoration.style_shift (distance : Nat) (decoration : Decoration) :
    (decoration.shift distance).style = decoration.style := rfl

/-! ### Streams -/

namespace Stream

/-- A stream of which each decoration starts later by a distance. -/
def shift (distance : Nat) (stream : Stream) : Stream :=
  stream.map (Decoration.shift distance)

variable (distance : Nat)

@[simp]
theorem shift_nil : shift distance [] = [] := rfl

@[simp]
theorem shift_cons (first : Decoration) (rest : Stream) :
    shift distance (first :: rest) = first.shift distance :: shift distance rest := rfl

@[simp]
theorem shift_append (first second : Stream) :
    shift distance (first ++ second) = shift distance first ++ shift distance second :=
  List.map_append

/-- A decoration finds its place by comparing offsets. -/
theorem insertDown_shift (decoration : Decoration) (stream : Stream) :
    insertDown (decoration.shift distance) (shift distance stream)
      = shift distance (insertDown decoration stream) := by
  induction stream with
  | nil => rfl
  | cons first rest ih =>
    rw [shift_cons, insertDown, insertDown]
    simp only [Decoration.offset_shift, Nat.add_lt_add_iff_right, Nat.add_right_cancel_iff, ih]
    split
    · rfl
    · split
      · rfl
      · rfl

theorem foldl_insertDown_shift (raw stream : Stream) :
    (shift distance raw).foldl (fun stream decoration => insertDown decoration stream)
        (shift distance stream)
      = shift distance
          (raw.foldl (fun stream decoration => insertDown decoration stream) stream) := by
  induction raw generalizing stream with
  | nil => rfl
  | cons first rest ih =>
    rw [shift_cons, List.foldl_cons, List.foldl_cons, insertDown_shift, ih]

theorem sorted_shift (raw : Stream) :
    sorted (shift distance raw) = shift distance (sorted raw) := by
  have hfold := foldl_insertDown_shift distance raw []
  unfold sorted
  rw [← shift_nil distance, hfold]
  exact List.map_reverse.symm

/-- Which decorations repeat a style does not depend on offsets. -/
theorem dropRepeats_shift (style : Option Style) (stream : Stream) :
    dropRepeats style (shift distance stream) = shift distance (dropRepeats style stream) := by
  induction stream generalizing style with
  | nil => rfl
  | cons first rest ih =>
    rw [shift_cons, dropRepeats, dropRepeats, Decoration.style_shift, ih, ih]
    split
    · rfl
    · rfl

/-- The end of the source moves with the last decoration. -/
theorem dropAtEnd_shift (stop : Nat) (stream : Stream) :
    dropAtEnd (stop + distance) (shift distance stream)
      = shift distance (dropAtEnd stop stream) := by
  unfold dropAtEnd
  rw [show (shift distance stream).getLast? = stream.getLast?.map (Decoration.shift distance) from
    List.getLast?_map]
  cases stream.getLast? with
  | none => rfl
  | some last =>
    simp only [Option.map_some, Decoration.offset_shift, Nat.add_right_cancel_iff]
    split
    · exact List.map_dropLast.symm
    · rfl

/-- A stream is compacted in the same way wherever its source starts. -/
theorem compact_shift (raw : Stream) (base size : Nat) :
    compact (shift distance raw) (base + distance) size
      = shift distance (compact raw base size) := by
  unfold compact
  rw [sorted_shift, dropRepeats_shift, Nat.add_right_comm, dropAtEnd_shift]

end Stream

/-! ### Results -/

namespace Decorated

/-- A result of which each decoration starts later by a distance. A
failure stays as it is, and so does the registry. -/
def shift (distance : Nat) : Decorated → Decorated
  | (result, registry) => (result.map (Stream.shift distance), registry)

variable (distance : Nat)

theorem shift_after (before : Stream) (first : Decorated) :
    (first.after before).shift distance = (first.shift distance).after (before.shift distance) := by
  obtain ⟨result, registry⟩ := first
  cases result with
  | error failure => rfl
  | ok stream =>
    show (Except.ok (Stream.shift distance (before ++ stream)), registry) = _
    rw [Stream.shift_append]
    rfl

/-- A decoration that is put before the others moves with them. -/
theorem shift_after_single (start : Nat) (style : Style) (first : Decorated) :
    (first.after [⟨start, style⟩]).shift distance
      = (first.shift distance).after [⟨start + distance, style⟩] :=
  shift_after distance [⟨start, style⟩] first

theorem shift_andThen (first : Decorated) (second : Registry → Decorated) :
    (first.andThen second).shift distance
      = (first.shift distance).andThen fun registry => (second registry).shift distance := by
  obtain ⟨result, registry⟩ := first
  cases result with
  | error failure => rfl
  | ok stream => exact shift_after distance stream (second registry)

end Decorated

/-! ### Decorating -/

/-- Where a source starts only shifts what the decorator gives. -/
def Decorator.Shifts (decorator : Decorator) (distance : Nat) : Prop :=
  ∀ registry lexer source base, decorator registry lexer source (base + distance)
    = (decorator registry lexer source base).shift distance

variable {decorator : Decorator} {distance : Nat}

/-- The three parts of a token move with the token. -/
theorem decorateCut_shift (h : decorator.Shifts distance) (registry : Registry) (lexer : Lexer)
    (language : Option String) (cut : Text.Cut) (start : Nat) :
    decorateCut decorator registry lexer language cut (start + distance)
      = (decorateCut decorator registry lexer language cut start).shift distance := by
  -- Where the region starts and where it stops, counted from the token.
  have hregion : start + distance + Text.byteSize cut.before
      = start + Text.byteSize cut.before + distance := Nat.add_right_comm _ _ _
  have hafter : start + Text.byteSize cut.before + distance + Text.byteSize cut.body
      = start + Text.byteSize cut.before + Text.byteSize cut.body + distance :=
    Nat.add_right_comm _ _ _
  simp only [decorateCut, hregion, hafter, Decorated.shift_andThen]
  rw [h]
  congr 1
  funext middle
  -- Which lexer the region gets is up to its text and the registry.
  cases middle.resolve language cut.body with
  | mk result ready =>
    cases result with
    | error error => rfl
    | ok resolved => simp only [Decorated.shift_andThen, h _ _ _ _]

/-- Tokens move with the first one. -/
theorem decorateTokens_shift (h : decorator.Shifts distance) (lexer : Lexer) (memo : StyleMemo)
    (registry : Registry) (start : Nat) (tokens : List (List Char)) :
    decorateTokens decorator lexer memo registry (start + distance) tokens
      = (decorateTokens decorator lexer memo registry start tokens).shift distance := by
  induction tokens generalizing memo registry start with
  | nil => rfl
  | cons token rest ih =>
    have hstop : start + distance + Text.byteSize token
        = start + Text.byteSize token + distance := Nat.add_right_comm _ _ _
    rw [decorateTokens, decorateTokens]
    cases hstyle : memo[String.ofList token]? with
    | some style => simp only [hstop, ih, Decorated.shift_after_single]
    | none =>
      cases hclass : lexer.classify token with
      | error failure => rfl
      | ok classified =>
        cases hcut : handedOn? token classified with
        | some handed =>
          simp only [hcut, hstop, ih, decorateCut_shift h, Decorated.shift_andThen]
        | none => simp only [hcut, hstop, ih, Decorated.shift_after_single]

/-- At every depth of nesting, a source is decorated alike wherever it
starts. -/
theorem decorateWithin_shift (depth distance : Nat) : (decorateWithin depth).Shifts distance := by
  induction depth with
  | zero => exact fun _ _ _ _ => rfl
  | succ depth ih =>
    intro registry lexer source base
    rw [decorateWithin, decorateWithin]
    cases lexer.tokenize source with
    | error failure => rfl
    | ok tokens => simp only [decorateTokens_shift ih, Decorated.shift_after_single]

namespace Registry

variable (registry : Registry) (lexer : Lexer) (source : List Char) (base distance : Nat)

/-- How deep embeddings may nest is up to the source and the registry, and
not to where the source starts. -/
theorem decorateRaw_shift : registry.decorateRaw lexer source (base + distance)
    = (registry.decorateRaw lexer source base).shift distance :=
  decorateWithin_shift _ distance registry lexer source base

theorem decorateWith_shift : registry.decorateWith lexer source (base + distance)
    = (registry.decorateWith lexer source base).shift distance := by
  unfold decorateWith
  rw [decorateRaw_shift]
  cases registry.decorateRaw lexer source base with
  | mk result after =>
    cases result with
    | error failure => rfl
    | ok raw =>
      show (Except.ok (Stream.compact (raw.shift distance) (base + distance) _), after) = _
      rw [Stream.compact_shift]
      rfl

/-- Whatever state the registry is in, and whatever the lexer or the
language and the source are: a source that starts later by a distance has
the same decorations, later by that distance, or fails in the same way.
The registry after it is the same, too. -/
theorem base_only_shifts :
    registry.decorateRaw lexer source (base + distance)
        = (registry.decorateRaw lexer source base).shift distance ∧
      registry.decorateWith lexer source (base + distance)
        = (registry.decorateWith lexer source base).shift distance ∧
      ∀ id, registry.decorate id source (base + distance)
        = (registry.decorate id source base).shift distance := by
  refine ⟨registry.decorateRaw_shift lexer source base distance,
    registry.decorateWith_shift lexer source base distance, fun id => ?_⟩
  unfold decorate
  cases registry.resolve id source with
  | mk result ready =>
    cases result with
    | error error => rfl
    | ok resolved => exact ready.decorateWith_shift resolved.lexer source base distance

end Registry

end Highlighter
