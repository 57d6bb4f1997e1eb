import Highlighter.Proofs.Embedding.Coverage

/-!
# The shape of a raw stream

Before it is compacted, the stream of a source has a plain seed where
the source starts, and then what its tokens put out, one after the
other. Whatever a token puts out begins where the token starts: a
token that is handed on begins with the seed of its first part, which
is the part before the region, even where that part is empty.

* `head?_tokenStep`: the first decoration of a token.
* `tokenStarts_decorateTokens`: after the seed, the starts of all tokens
  are found among the offsets, in order.
* `shaped_decorateRaw`: this together with what is known of the offsets.
-/

set_option autoImplicit false

namespace Highlighter

/-- Where tokens start, the first of which is at an offset. -/
def tokenStarts (start : Nat) : List (List Char) → List Nat
  | [] => []
  | token :: rest => start :: tokenStarts (start + Text.byteSize token) rest

/-- The decorations of a source that starts at `base`, as they are
found. -/
structure Stream.Shaped (lexer : Lexer) (source : List Char) (base : Nat) (raw : Stream) :
    Prop where
  /-- The source is plain until something is found. -/
  seed : raw.head? = some ⟨base, .plain⟩
  sorted : raw.Pairwise fun first second => first.offset ≤ second.offset
  inside : ∀ decoration ∈ raw,
    base ≤ decoration.offset ∧ decoration.offset ≤ base + Text.byteSize source
  boundary : ∀ decoration ∈ raw, Text.IsBoundary source base decoration.offset
  /-- Besides the seed, each token has a decoration where it starts, and
  no two tokens share one. -/
  starts : ∃ tokens, lexer.tokenize source = .ok tokens ∧
    (tokenStarts base tokens).Sublist (raw.tail.map Decoration.offset)

variable {decorator : Decorator} {registry after : Registry} {lexer : Lexer} {memo : StyleMemo}
  {start : Nat} {raw : Stream}

/-- A decorator that puts a plain seed first. -/
def Decorator.Seeds (decorator : Decorator) : Prop :=
  ∀ ⦃registry lexer source base raw after⦄,
    decorator registry lexer source base = (.ok raw, after) → raw.head? = some ⟨base, .plain⟩

/-- What a token puts out begins where the token starts. -/
theorem head?_tokenStep {token : List Char} {first : Stream} {memo' : StyleMemo}
    (hseeds : decorator.Seeds)
    (h : TokenStep decorator lexer memo registry token start first memo' after) :
    first.head?.map Decoration.offset = some start := by
  cases h with
  | remembered hmemo => rfl
  | handedOn hclass hcut hraw =>
    -- The part before the region comes first, and has a seed if it is empty, too.
    obtain ⟨before, middle, resolved, ready, body, inside, rest, hbefore, -, -, -, rfl⟩ :=
      decorateCut_eq_ok hraw
    rw [List.head?_append, hseeds hbefore]
    rfl
  | own hclass hown => rfl

theorem tokenStarts_decorateTokens {tokens : List (List Char)} (hseeds : decorator.Seeds)
    (h : decorateTokens decorator lexer memo registry start tokens = (.ok raw, after)) :
    (tokenStarts start tokens).Sublist (raw.map Decoration.offset) := by
  induction tokens generalizing memo registry start raw with
  | nil => exact List.nil_sublist _
  | cons token tokens ih =>
    obtain ⟨first, memo', middle, rest, hstep, hrest, rfl⟩ := decorateTokens_cons h
    have hhead := head?_tokenStep hseeds hstep
    obtain ⟨decoration, hfirst, hoffset⟩ := Option.map_eq_some_iff.mp hhead
    obtain ⟨others, rfl⟩ := List.head?_eq_some_iff.mp hfirst
    -- What else the token puts out is passed over.
    rw [tokenStarts, List.cons_append, List.map_cons, hoffset, List.map_append]
    exact ((ih hrest).trans (List.sublist_append_right _ _)).cons_cons start

/-- At every depth of nesting, the tokens of a source come after its
seed. -/
theorem tokenStarts_decorateWithin {depth base : Nat} {source : List Char}
    (h : decorateWithin depth registry lexer source base = (.ok raw, after)) :
    ∃ tokens, lexer.tokenize source = .ok tokens ∧
      (tokenStarts base tokens).Sublist (raw.tail.map Decoration.offset) := by
  cases depth with
  | zero => cases h
  | succ depth =>
    obtain ⟨tokens, rest, htokens, hrest, rfl⟩ := decorateWithin_succ_eq_ok h
    have hseeds : (decorateWithin depth).Seeds := fun _ _ _ _ _ _ => head?_decorateWithin
    exact ⟨tokens, htokens, tokenStarts_decorateTokens hseeds hrest⟩

/-- Whatever the registry, the lexer, the source and its place are: the
raw stream of a source has a plain seed first, offsets that never fall
and are between characters of the source, and a decoration where each
of its tokens starts. -/
theorem shaped_decorateRaw {source : List Char} {base : Nat}
    (h : registry.decorateRaw lexer source base = (.ok raw, after)) :
    raw.Shaped lexer source base := by
  have hwithin : Stream.Within source base raw := within_decorateWithin _ h
  refine ⟨head?_decorateWithin h, hwithin.sorted, fun decoration hmem => ?_, hwithin.boundary,
    tokenStarts_decorateWithin h⟩
  have hboundary := hwithin.boundary decoration hmem
  exact ⟨hboundary.le, hboundary.le_stop⟩

theorem shaped_decorateRaw_bracketed :
    Bracketed.registry.decorateRaw Bracketed.outer ['<', 'é', '>'] 7
        = (.ok [⟨7, .plain⟩, ⟨7, .plain⟩, ⟨7, .plain⟩, ⟨8, .plain⟩, ⟨8, .keyword⟩, ⟨10, .plain⟩,
            ⟨10, .plain⟩], Bracketed.registry) ∧
      Stream.Shaped Bracketed.outer ['<', 'é', '>'] 7 [⟨7, .plain⟩, ⟨7, .plain⟩, ⟨7, .plain⟩,
        ⟨8, .plain⟩, ⟨8, .keyword⟩, ⟨10, .plain⟩, ⟨10, .plain⟩] :=
  ⟨Bracketed.decorateRaw_bracketed, shaped_decorateRaw Bracketed.decorateRaw_bracketed⟩

end Highlighter
