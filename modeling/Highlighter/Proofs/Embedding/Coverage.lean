import Highlighter.Proofs.Embedding.Raw
import Highlighter.Proofs.Stream.Compact
import Highlighter.Proofs.Stream.Runs

/-!
# Decorations cover the source

However embeddings nest, a source that can be decorated is covered
from its first byte to its last one. The stream starts where the
source does, its offsets grow and are between characters, and
neighbours differ in their style (`Stream.Canonical`). Each
decoration has one run, and the runs tile the source.
-/

set_option autoImplicit false

namespace Highlighter

/-! ### A source in two languages -/

namespace Bracketed

/-- What is no angle bracket. -/
def word : Regex.Node := .plus true (.char fun c => c != '<' && c != '>')

/-- A word in angle brackets. -/
def bracketed : Regex.Node :=
  .seq (.char (· == '<')) (.seq (.group 1 word) (.char (· == '>')))

/-- A lexer with one rule. -/
def lexerOf (style : Style) (node : Regex.Node) (groups : Nat) : Lexer where
  rules := [⟨style, ⟨"", node, groups, false, none⟩⟩]
  fallbackStart := 0
  shortcuts := []
  tokenizer := ⟨⟨"", node, groups, false, none⟩, false, false, groups⟩

/-- Words in angle brackets are handed on. -/
def outer : Lexer := lexerOf (.embedded "") bracketed 1

/-- Words are keywords. -/
def inner : Lexer := lexerOf .keyword word 0

/-- Words are what unknown languages consist of. -/
def registry : Registry := Registry.empty.add [Registry.defaultCode] (.compiled inner)

/-- What the outer lexer says of a word in angle brackets. -/
def classified : Classification where
  style := .embedded ""
  captures := some ⟨⟨0, 4, by decide⟩, some ⟨1, 3, by decide⟩, none⟩

/-- Each of the three parts of the token has a plain seed, and so has
the token. -/
theorem decorateRaw_bracketed :
    registry.decorateRaw outer ['<', 'é', '>'] 7
      = (.ok [⟨7, .plain⟩, ⟨7, .plain⟩, ⟨7, .plain⟩, ⟨8, .plain⟩, ⟨8, .keyword⟩, ⟨10, .plain⟩,
          ⟨10, .plain⟩], registry) := by
  have htokens : outer.tokenize ['<', 'é', '>'] = .ok [['<', 'é', '>']] := by decide +kernel
  have hclass : outer.classify ['<', 'é', '>'] = .ok classified := by decide +kernel
  have hcut : handedOn? ['<', 'é', '>'] classified = some (none, ⟨['<'], ['é'], ['>']⟩) := by
    decide +kernel
  have hinner : registry.resolve none ['é'] = (.ok ⟨0, inner⟩, registry) := rfl
  -- The three parts of the token are tokens themselves.
  have hopen : outer.tokenize ['<'] = .ok [['<']] := by decide +kernel
  have hplain : outer.classify ['<'] = .ok ⟨.plain, none⟩ := by decide +kernel
  have hword : inner.tokenize ['é'] = .ok [['é']] := by decide +kernel
  have hkeyword : inner.classify ['é']
      = .ok ⟨.keyword, some ⟨⟨0, 2, by decide⟩, none, none⟩⟩ := by decide +kernel
  have hclose : outer.tokenize ['>'] = .ok [['>']] := by decide +kernel
  have hplain' : outer.classify ['>'] = .ok ⟨.plain, none⟩ := by decide +kernel
  have hdepth : registry.nesting ['<', 'é', '>'] = 10 + 2 := by decide +kernel
  unfold Registry.decorateRaw
  rw [hdepth]
  refine decorateWithin_handedOn htokens hclass hcut ?_
  simp only [decorateCut, decorateWithin_own hopen hplain rfl, hinner,
    decorateWithin_own hword hkeyword rfl, decorateWithin_own hclose hplain' rfl,
    Decorated.andThen, Decorated.after]
  rfl

theorem decorateWith_bracketed :
    registry.decorateWith outer ['<', 'é', '>'] 7
      = (.ok [⟨7, .plain⟩, ⟨8, .keyword⟩, ⟨10, .plain⟩], registry) := by
  unfold Registry.decorateWith
  rw [decorateRaw_bracketed]
  rfl

end Bracketed

/-! ### Covered sources -/

/-- The one stream that styles a source at an offset in a given way. An
empty source has no decoration. -/
structure Stream.Canonical (source : List Char) (base : Nat) (stream : Stream) : Prop where
  empty : source = [] → stream = []
  first : source ≠ [] → stream.head?.map Decoration.offset = some base
  increasing : stream.Pairwise fun first second => first.offset < second.offset
  inside : ∀ decoration ∈ stream, decoration.offset < base + Text.byteSize source
  boundary : ∀ decoration ∈ stream, Text.IsBoundary source base decoration.offset
  changing : stream.IsChain fun first second => first.style ≠ second.style

/-- One run for each decoration of a stream, and the runs tile the
source. -/
structure Stream.Tiled (source : List Char) (base : Nat) (stream : Stream) : Prop where
  runs : (stream.runs base (Text.byteSize source)).map
    (fun run => (⟨run.start, run.style⟩ : Decoration)) = stream
  tiles : source ≠ [] → Run.Tiles base (base + Text.byteSize source)
    (stream.runs base (Text.byteSize source))

variable {registry after : Registry} {lexer : Lexer} {source : List Char} {base : Nat}
  {stream : Stream}

/-- A decoration is a compacted raw one. -/
theorem Registry.decorateWith_eq_ok
    (h : registry.decorateWith lexer source base = (.ok stream, after)) :
    ∃ raw, decorateWithin (registry.nesting source) registry lexer source base
        = (.ok raw, after) ∧ stream = raw.compact base (Text.byteSize source) := by
  unfold Registry.decorateWith Registry.decorateRaw at h
  cases hraw : decorateWithin (registry.nesting source) registry lexer source base with
  | mk result state =>
    rw [hraw] at h
    cases result with
    | error failure => cases h
    | ok raw =>
      cases h
      exact ⟨raw, rfl, rfl⟩

namespace Stream

/-- What stays within a source and starts where it does becomes a
canonical stream. -/
theorem canonical_compact {raw : Stream} (hwithin : Within source base raw)
    (hhead : raw.head? = some ⟨base, .plain⟩) :
    Canonical source base (raw.compact base (Text.byteSize source)) := by
  have hinside : ∀ decoration ∈ raw.compact base (Text.byteSize source),
      decoration.offset < base + Text.byteSize source := by
    intro decoration hmem
    exact offset_lt_of_mem_compact (fun other hother => (hwithin.boundary other hother).le_stop)
      hmem
  refine ⟨fun hnil => ?_, fun hne => ?_, pairwise_compact _ _ _, hinside, fun decoration hmem => ?_,
    isChain_compact _ _ _⟩
  · -- Every offset would be before the start and not before it.
    rw [List.eq_nil_iff_forall_not_mem]
    intro decoration hmem
    have hge := (hwithin.boundary decoration (mem_of_mem_compact hmem)).le
    have hlt := hinside decoration hmem
    rw [hnil, Text.byteSize_nil] at hlt
    omega
  · exact head?_compact (Text.byteSize_pos hne)
      (fun other hother => (hwithin.boundary other hother).le)
      ⟨_, List.mem_of_mem_head? hhead, rfl⟩
  · exact hwithin.boundary decoration (mem_of_mem_compact hmem)

/-- A canonical stream has one run for each decoration. -/
theorem Canonical.tiled (h : Canonical source base stream) : Tiled source base stream where
  runs := map_start_runsUpTo h.increasing h.inside
  tiles := fun hne => by
    have hfirst := h.first hne
    obtain ⟨first, hhead, rfl⟩ := Option.map_eq_some_iff.mp hfirst
    obtain ⟨rest, rfl⟩ := List.head?_eq_some_iff.mp hhead
    exact tiles_runsUpTo h.increasing h.inside

end Stream

/-- Whatever a registry knows, a source that can be decorated is
covered: its stream is canonical, and the runs of the stream tile it. -/
theorem canonical_of_decorateWith
    (h : registry.decorateWith lexer source base = (.ok stream, after)) :
    stream.Canonical source base ∧ stream.Tiled source base := by
  obtain ⟨raw, hraw, rfl⟩ := Registry.decorateWith_eq_ok h
  have hcanonical := Stream.canonical_compact (within_decorateWithin _ hraw)
    (head?_decorateWithin hraw)
  exact ⟨hcanonical, hcanonical.tiled⟩

theorem canonical_of_decorateWith_bracketed :
    Stream.Canonical ['<', 'é', '>'] 7 [⟨7, .plain⟩, ⟨8, .keyword⟩, ⟨10, .plain⟩] ∧
      Stream.Tiled ['<', 'é', '>'] 7 [⟨7, .plain⟩, ⟨8, .keyword⟩, ⟨10, .plain⟩] :=
  canonical_of_decorateWith Bracketed.decorateWith_bracketed

end Highlighter
