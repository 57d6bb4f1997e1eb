import Highlighter.Proofs.Embedding.Meaning

/-!
# Remembered styles do not show

Within a source, the style of a token that was not handed on is
remembered, and the same text is not classified again. Without that,
every token is classified afresh (`decorateTokensAfresh`), and the
result is the same: the decorations, the failure if there is one, and
the registry after it (`decorateRaw_eq_afresh`).

The invariant is that a remembered style is the one that its token
would get (`StyleMemo.Sound`). A token that is handed on is never
remembered. Its parts are at other offsets the next time, and asking for
the lexer of its region may change the registry; so it is decorated
again by both.
-/

set_option autoImplicit false

namespace Highlighter

/-- Decorate tokens, each of which is classified for itself. -/
def decorateTokensAfresh (decorator : Decorator) (lexer : Lexer) :
    Registry → Nat → List (List Char) → Decorated
  | registry, _, [] => (.ok [], registry)
  | registry, start, token :: rest =>
    let stop := start + Text.byteSize token
    match lexer.classify token with
    | .error failure => (.error failure, registry)
    | .ok classified =>
      match handedOn? token classified with
      | some (language, cut) =>
        (decorateCut decorator registry lexer language cut start).andThen fun registry =>
          decorateTokensAfresh decorator lexer registry stop rest
      | none =>
        (decorateTokensAfresh decorator lexer registry stop rest).after
          [⟨start, ownStyle classified.style⟩]

/-- Decorate a source without remembering styles, in it or in what is
embedded in it. -/
def decorateWithinAfresh : Nat → Decorator
  | 0, registry, _, _, _ => (.error .endlessEmbedding, registry)
  | depth + 1, registry, lexer, source, base =>
    match lexer.tokenize source with
    | .error failure => (.error failure, registry)
    | .ok tokens =>
      (decorateTokensAfresh (decorateWithinAfresh depth) lexer registry base tokens).after
        [⟨base, .plain⟩]

/-- Decorate a source that starts at an offset, with a lexer and without
remembering styles. -/
def Registry.decorateRawAfresh (registry : Registry) (lexer : Lexer) (source : List Char)
    (base : Nat) : Decorated :=
  decorateWithinAfresh (registry.nesting source) registry lexer source base

variable {decorator : Decorator} {lexer : Lexer} {memo : StyleMemo} {registry : Registry}

/-- Tokens are decorated in the same way with a sound memo and
without one. -/
theorem decorateTokens_eq_afresh (hmemo : memo.Sound lexer) (start : Nat)
    (tokens : List (List Char)) :
    decorateTokens decorator lexer memo registry start tokens
      = decorateTokensAfresh decorator lexer registry start tokens := by
  -- The memo grows with the tokens, and the registry changes where one is handed on.
  induction tokens generalizing memo registry start with
  | nil => rfl
  | cons token rest ih =>
    rw [decorateTokens, decorateTokensAfresh]
    cases hstyle : memo[String.ofList token]? with
    | some style =>
      obtain ⟨classified, hclass, hown, rfl⟩ := hmemo hstyle
      simp only [hclass, hown, ih hmemo]
    | none =>
      cases hclass : lexer.classify token with
      | error failure => rfl
      | ok classified =>
        cases hcut : handedOn? token classified with
        | some handed => simp only [hcut, ih hmemo]
        | none => simp only [hcut, ih (hmemo.insert hclass hcut)]

/-- At every depth of nesting, sources are decorated in the same way. -/
theorem decorateWithin_eq_afresh (depth : Nat) :
    decorateWithin depth = decorateWithinAfresh depth := by
  induction depth with
  | zero => rfl
  | succ depth ih =>
    funext registry lexer source base
    rw [decorateWithin, decorateWithinAfresh, ih]
    cases lexer.tokenize source with
    | error failure => rfl
    | ok tokens =>
      simp only [decorateTokens_eq_afresh (StyleMemo.sound_empty lexer)]

/-- Whatever state the registry is in, and whatever the lexer, the source
and its place are: the decorations or the failure, and the registry
after it, are those of decorating every token afresh. This holds for
each bound on how deep embeddings nest. -/
theorem decorateRaw_eq_afresh (registry : Registry) (lexer : Lexer) (source : List Char)
    (base : Nat) :
    registry.decorateRaw lexer source base = registry.decorateRawAfresh lexer source base ∧
      ∀ depth, decorateWithin depth registry lexer source base
        = decorateWithinAfresh depth registry lexer source base := by
  have hdepth : ∀ depth, decorateWithin depth registry lexer source base
      = decorateWithinAfresh depth registry lexer source base := fun depth => by
    rw [decorateWithin_eq_afresh]
  exact ⟨hdepth (registry.nesting source), hdepth⟩

end Highlighter
