import Highlighter.Proofs.Embedding.Calls
import Highlighter.Proofs.Embedding.Coverage
import Highlighter.Proofs.Embedding.Meaning

/-!
# What a source puts out

Decorating counts down how deep embeddings may nest, and remembers the
styles of tokens. Neither shows in the result. `Emits` says without
them what a source puts out: a plain seed, and then what each of its
tokens puts out. A token puts out its own style; or, if a rule for an
embedding matches it, what the three parts of it put out, which are
sources again; or, if there is no region to hand on, that it is source.

* `emits_decorateWithin`: what is decorated puts out that, at every
  depth and also where a style was remembered.
* `Emits.noEmbedding`: no embedding is put out, however deep sources
  nest. This follows the three relations, one case for each way in
  which a token is decorated.
* `no_embedding_left`: both, for all ways to ask for decorations.
-/

set_option autoImplicit false

namespace Highlighter

/-! ### The relation -/

mutual

/-- What a source at an offset puts out, and the registry after it. -/
inductive Emits : Registry → Lexer → List Char → Nat → Stream → Registry → Prop where
  /-- A plain seed comes before what the tokens put out. -/
  | seed {registry after : Registry} {lexer : Lexer} {source : List Char} {base : Nat}
    {tokens : List (List Char)} {raw : Stream} (htokens : lexer.tokenize source = .ok tokens)
    (hall : EmitsAll registry lexer tokens base raw after) :
    Emits registry lexer source base (⟨base, .plain⟩ :: raw) after

/-- What tokens put out, the first of which is at an offset. -/
inductive EmitsAll : Registry → Lexer → List (List Char) → Nat → Stream → Registry → Prop where
  | nil {registry : Registry} {lexer : Lexer} {start : Nat} :
    EmitsAll registry lexer [] start [] registry
  | cons {registry middle after : Registry} {lexer : Lexer} {token : List Char}
    {tokens : List (List Char)} {start : Nat} {first rest : Stream}
    (hfirst : EmitsToken registry lexer token start first middle)
    (hrest : EmitsAll middle lexer tokens (start + Text.byteSize token) rest after) :
    EmitsAll registry lexer (token :: tokens) start (first ++ rest) after

/-- What one token puts out. -/
inductive EmitsToken : Registry → Lexer → List Char → Nat → Stream → Registry → Prop where
  /-- The rule that matches the token is not for an embedding. -/
  | own {registry : Registry} {lexer : Lexer} {token : List Char} {start : Nat}
    {classified : Classification} (hclass : lexer.classify token = .ok classified)
    (hplain : classified.style.isEmbedded = false) :
    EmitsToken registry lexer token start [⟨start, classified.style⟩] registry
  /-- The rule is for an embedding, and the token has no region. -/
  | source {registry : Registry} {lexer : Lexer} {token : List Char} {start : Nat}
    {classified : Classification} (hclass : lexer.classify token = .ok classified)
    (hembedded : classified.style.isEmbedded = true)
    (hregion : classified.captures.bind (embeddedRegion? token) = none) :
    EmitsToken registry lexer token start [⟨start, .source⟩] registry
  /-- The rule is for an embedding, and the three parts of the token are
  sources. The middle one is not empty, and in the language that the
  rule names. -/
  | parts {registry middle ready inside after : Registry} {lexer : Lexer} {token : List Char}
    {start : Nat} {classified : Classification} {cut : Text.Cut} {resolved : Registry.Resolved}
    {before body rest : Stream} (hclass : lexer.classify token = .ok classified)
    (hembedded : classified.style.isEmbedded = true)
    (hregion : classified.captures.bind (embeddedRegion? token) = some cut)
    (hbody : cut.body ≠ [])
    (hbefore : Emits registry lexer cut.before start before middle)
    (hresolved : middle.resolve classified.style.language? cut.body = (.ok resolved, ready))
    (hinside : Emits ready resolved.lexer cut.body (start + Text.byteSize cut.before) body inside)
    (hrest : Emits inside lexer cut.after
      (start + Text.byteSize cut.before + Text.byteSize cut.body) rest after) :
    EmitsToken registry lexer token start (before ++ (body ++ rest)) after

end

/-! ### Decorating gives what is put out -/

/-- A decorator that gives nothing but what sources put out. -/
def Decorator.Emitting (decorator : Decorator) : Prop :=
  ∀ ⦃registry lexer source base raw after⦄,
    decorator registry lexer source base = (.ok raw, after) →
      Emits registry lexer source base raw after

variable {decorator : Decorator} {registry after : Registry} {lexer : Lexer} {memo : StyleMemo}
  {token : List Char} {start : Nat} {raw : Stream}

/-- A token that is not handed on puts out its own style, or that it is
source. -/
theorem emitsToken_of_own {classified : Classification}
    (hclass : lexer.classify token = .ok classified)
    (hown : handedOn? token classified = none) :
    EmitsToken registry lexer token start [⟨start, ownStyle classified.style⟩] registry := by
  rcases handedOn?_eq_none hown with ⟨hplain, hstyle⟩ | ⟨hembedded, hstyle, hregion⟩
  · rw [hstyle]
    exact .own hclass hplain
  · rw [hstyle]
    exact .source hclass hembedded hregion

/-- A token that is handed on puts out what its parts do. -/
theorem emitsToken_of_handedOn {classified : Classification} {language : Option String}
    {cut : Text.Cut} (hemits : decorator.Emitting)
    (hclass : lexer.classify token = .ok classified)
    (hcut : handedOn? token classified = some (language, cut))
    (h : decorateCut decorator registry lexer language cut start = (.ok raw, after)) :
    EmitsToken registry lexer token start raw after := by
  obtain ⟨before, middle, resolved, ready, body, inside, rest, hbefore, hresolved, hbody, hrest,
    rfl⟩ := decorateCut_eq_ok h
  obtain ⟨hembedded, rfl, hregion⟩ := handedOn?_eq_some hcut
  obtain ⟨captures, -, hplace⟩ := Option.bind_eq_some_iff.mp hregion
  obtain ⟨group, -, hlength, hpos⟩ := byteSize_of_embeddedRegion? hplace
  -- A region takes up bytes, so there is something to hand on.
  have hne : cut.body ≠ [] := by
    intro hnil
    rw [hnil, Text.byteSize_nil] at hlength
    omega
  exact .parts hclass hembedded hregion hne (hemits hbefore) hresolved (hemits hbody)
    (hemits hrest)

/-- Whichever way a token is decorated, it puts that out. -/
theorem TokenStep.emitsToken {memo' : StyleMemo} (hemits : decorator.Emitting)
    (hmemo : memo.Sound lexer)
    (h : TokenStep decorator lexer memo registry token start raw memo' after) :
    EmitsToken registry lexer token start raw after := by
  cases h with
  | remembered hstyle =>
    -- The style was remembered when the same text came before.
    obtain ⟨classified, hclass, hown, rfl⟩ := hmemo hstyle
    exact emitsToken_of_own hclass hown
  | handedOn hclass hcut hraw => exact emitsToken_of_handedOn hemits hclass hcut hraw
  | own hclass hown => exact emitsToken_of_own hclass hown

theorem emitsAll_decorateTokens {tokens : List (List Char)} (hemits : decorator.Emitting)
    (hmemo : memo.Sound lexer)
    (h : decorateTokens decorator lexer memo registry start tokens = (.ok raw, after)) :
    EmitsAll registry lexer tokens start raw after := by
  induction tokens generalizing memo registry start raw with
  | nil =>
    cases h
    exact .nil
  | cons token tokens ih =>
    -- What is remembered changes with each token, and stays sound.
    obtain ⟨first, memo', middle, rest, hstep, hrest, rfl⟩ := decorateTokens_cons h
    exact .cons (hstep.emitsToken hemits hmemo) (ih (hstep.sound hmemo) hrest)

/-- However deep embeddings nest, what is decorated is what the source
puts out. -/
theorem emits_decorateWithin (depth : Nat) : (decorateWithin depth).Emitting := by
  induction depth with
  | zero =>
    -- Without any depth left, decorating fails.
    intro registry lexer source base raw after h
    cases h
  | succ depth ih =>
    intro registry lexer source base raw after h
    obtain ⟨tokens, rest, htokens, hrest, rfl⟩ := decorateWithin_succ_eq_ok h
    exact .seed htokens (emitsAll_decorateTokens ih (StyleMemo.sound_empty lexer) hrest)

/-! ### Embeddings stay inside -/

/-- No decoration of a stream has an embedding as its style. -/
def Stream.NoEmbedding (stream : Stream) : Prop :=
  ∀ decoration ∈ stream, decoration.style.isEmbedded = false

namespace Stream.NoEmbedding

variable {first second stream : Stream}

theorem single {start : Nat} {style : Style} (h : style.isEmbedded = false) :
    NoEmbedding [⟨start, style⟩] := by
  intro decoration hmem
  rw [List.mem_singleton.mp hmem]
  exact h

theorem append (hfirst : first.NoEmbedding) (hsecond : second.NoEmbedding) :
    NoEmbedding (first ++ second) :=
  List.forall_mem_append.mpr ⟨hfirst, hsecond⟩

/-- Compaction adds no decoration. -/
theorem compact (h : stream.NoEmbedding) (base size : Nat) :
    NoEmbedding (stream.compact base size) :=
  fun decoration hmem => h decoration (mem_of_mem_compact hmem)

end Stream.NoEmbedding

mutual

/-- No embedding is put out by a source. -/
theorem Emits.noEmbedding {registry after : Registry} {lexer : Lexer} {source : List Char}
    {base : Nat} {raw : Stream} (h : Emits registry lexer source base raw after) :
    raw.NoEmbedding := by
  match h with
  | .seed htokens hall => exact (Stream.NoEmbedding.single rfl).append hall.noEmbedding

theorem EmitsAll.noEmbedding {registry after : Registry} {lexer : Lexer}
    {tokens : List (List Char)} {start : Nat} {raw : Stream}
    (h : EmitsAll registry lexer tokens start raw after) : raw.NoEmbedding := by
  match h with
  | .nil => exact fun decoration hmem => nomatch hmem
  | .cons hfirst hrest => exact hfirst.noEmbedding.append hrest.noEmbedding

theorem EmitsToken.noEmbedding {registry after : Registry} {lexer : Lexer} {token : List Char}
    {start : Nat} {raw : Stream} (h : EmitsToken registry lexer token start raw after) :
    raw.NoEmbedding := by
  match h with
  | .own hclass hplain => exact .single hplain
  | .source hclass hembedded hregion => exact .single rfl
  | .parts hclass hembedded hregion hbody hbefore hresolved hinside hrest =>
    -- The rule of the token leaves no decoration of its own.
    exact hbefore.noEmbedding.append (hinside.noEmbedding.append hrest.noEmbedding)

end

/-! ### All ways to decorate -/

namespace Registry

variable {source : List Char} {base : Nat} {stream : Stream}

theorem noEmbedding_of_decorateWith
    (h : registry.decorateWith lexer source base = (.ok stream, after)) : stream.NoEmbedding := by
  obtain ⟨raw, hraw, rfl⟩ := decorateWith_eq_ok h
  exact (emits_decorateWithin _ hraw).noEmbedding.compact base _

/-- A source in a language is decorated with the lexer of the language. -/
theorem decorate_eq_ok {id : Option String}
    (h : registry.decorate id source base = (.ok stream, after)) :
    ∃ resolved ready, registry.resolve id source = (.ok resolved, ready) ∧
      ready.decorateWith resolved.lexer source base = (.ok stream, after) := by
  unfold decorate at h
  split at h
  · cases h
  · rename_i resolved ready hresolved
    exact ⟨resolved, ready, hresolved, h⟩

theorem noEmbedding_of_decorate {id : Option String}
    (h : registry.decorate id source base = (.ok stream, after)) : stream.NoEmbedding := by
  obtain ⟨resolved, ready, -, hwith⟩ := decorate_eq_ok h
  exact noEmbedding_of_decorateWith hwith

/-- Whatever the registry, the lexer, the source and its place are: what
is decorated is what the source puts out, token by token and embedding
by embedding, and no decoration of it has an embedding as its style.
This stays so where the decorations are compacted, and where the lexer
is looked up by an identifier. -/
theorem no_embedding_left (registry : Registry) (lexer : Lexer) (source : List Char) (base : Nat) :
    (∀ ⦃raw after⦄, registry.decorateRaw lexer source base = (.ok raw, after) →
      Emits registry lexer source base raw after ∧ raw.NoEmbedding) ∧
    (∀ ⦃stream after⦄, registry.decorateWith lexer source base = (.ok stream, after) →
      stream.NoEmbedding) ∧
    ∀ ⦃id stream after⦄, registry.decorate id source base = (.ok stream, after) →
      stream.NoEmbedding := by
  refine ⟨fun raw after hraw => ?_, fun _ _ => noEmbedding_of_decorateWith,
    fun _ _ _ => noEmbedding_of_decorate⟩
  have hemits : Emits registry lexer source base raw after := emits_decorateWithin _ hraw
  exact ⟨hemits, hemits.noEmbedding⟩

end Registry

namespace Bracketed

/-- Words in angle brackets are handed on, and there may be no word. -/
def hollow : Lexer :=
  lexerOf (.embedded "") (.seq (.char (· == '<'))
    (.seq (.group 1 (.more true (.char fun c => c != '<' && c != '>'))) (.char (· == '>')))) 1

/-- The style of the second token is remembered from the first one. -/
theorem decorateRaw_hollow :
    Bracketed.registry.decorateRaw hollow ['<', '>', '<', '>'] 7
      = (.ok [⟨7, .plain⟩, ⟨7, .source⟩, ⟨9, .source⟩], Bracketed.registry) := by
  have htokens : hollow.tokenize ['<', '>', '<', '>'] = .ok [['<', '>'], ['<', '>']] := by
    decide +kernel
  have hclass : hollow.classify ['<', '>']
      = .ok ⟨.embedded "", some ⟨⟨0, 2, by decide⟩, some ⟨1, 1, by decide⟩, none⟩⟩ := by
    decide +kernel
  unfold Registry.decorateRaw
  rw [show Bracketed.registry.nesting ['<', '>', '<', '>'] = 11 + 1 by decide +kernel]
  simp [decorateWithin, htokens, decorateTokens, hclass, handedOn?, ownStyle, Style.isEmbedded,
    embeddedRegion?, Span.isEmpty, Decorated.after, Text.byteSize]
  decide

end Bracketed

theorem Registry.no_embedding_left_bracketed :
    Emits Bracketed.registry Bracketed.hollow ['<', '>', '<', '>'] 7
        [⟨7, .plain⟩, ⟨7, .source⟩, ⟨9, .source⟩] Bracketed.registry ∧
      Stream.NoEmbedding [⟨7, .plain⟩, ⟨8, .keyword⟩, ⟨10, .plain⟩] :=
  ⟨((no_embedding_left _ _ _ _).1 Bracketed.decorateRaw_hollow).1,
    (no_embedding_left _ _ _ _).2.1 Bracketed.decorateWith_bracketed⟩

end Highlighter
