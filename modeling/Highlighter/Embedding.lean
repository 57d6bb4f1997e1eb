import Highlighter.Registry
import Highlighter.Stream
import Std.Data.HashMap

/-!
# Decorating a source

A source is decorated token by token. The style of a token is where it starts. A token whose style
is an embedding has a region in another language: what is before the region and what is after it
are sources of their own, decorated with the same lexer, and the region is decorated with the lexer
of its language.

Embeddings nest, and a region may be a whole token. So the nesting is bounded by a count. It is
enough unless a whole token comes back to a lexer that was handed it before.
-/

set_option autoImplicit false

namespace Highlighter

/-- Where the embedded region of a token is, if there is one: the first group, if it is not empty.
A second group that is not empty is what follows the region. The region is then as long as the first
group, and ends where the second group starts, as far as these places are between characters. -/
def embeddedRegion? (token : List Char) (captures : Regex.Captures) : Option Text.Cut := do
  let group ← captures.first
  if group.isEmpty then none
  match captures.second with
  | none => Text.cut? group token
  | some context =>
    if context.isEmpty then Text.cut? group token
    else if context.start < group.length then none
    else
      Text.cut? ⟨context.start - group.length, context.start, Nat.sub_le _ _⟩ token <|>
        Text.cut? group token

/-- The styles of tokens that have been met, by their text. -/
abbrev StyleMemo := Std.HashMap String Style

/-- The result of a decoration, with the registry after it. -/
abbrev Decorated := Except Failure Stream × Registry

/-- How a source at an offset is decorated with a lexer. -/
abbrev Decorator := Registry → Lexer → List Char → Nat → Decorated

namespace Decorated

/-- A result with decorations put before it. -/
def after (before : Stream) : Decorated → Decorated
  | (.ok stream, registry) => (.ok (before ++ stream), registry)
  | failed => failed

/-- One result after the other. The second one sees the registry of the first one. -/
def andThen (first : Decorated) (second : Registry → Decorated) : Decorated :=
  match first with
  | (.ok stream, registry) => (second registry).after stream
  | failed => failed

end Decorated

/-- Decorate a token with an embedded region: what is before it, the region, and what is after. -/
def decorateCut (decorator : Decorator) (registry : Registry) (lexer : Lexer)
    (language : Option String) (cut : Text.Cut) (start : Nat) : Decorated :=
  let regionStart := start + Text.byteSize cut.before
  let regionStop := regionStart + Text.byteSize cut.body
  (decorator registry lexer cut.before start).andThen fun registry =>
    match registry.resolve language cut.body with
    | (.error error, registry) => (.error (.config error), registry)
    | (.ok inner, registry) =>
      (decorator registry inner.lexer cut.body regionStart).andThen fun registry =>
        decorator registry lexer cut.after regionStop

/-- The region of a token that an embedding hands on, with the language of the region. -/
def handedOn? (token : List Char) (classified : Classification) :
    Option (Option String × Text.Cut) :=
  if classified.style.isEmbedded then
    (classified.captures.bind (embeddedRegion? token)).map fun cut =>
      (classified.style.language?, cut)
  else none

/-- The style of a token that is not handed on. An embedding without a region is plain source. -/
def ownStyle (style : Style) : Style := if style.isEmbedded then .source else style

/-- Decorate tokens, the first of which starts at an offset. Only tokens that are not handed on are
remembered: their style depends on nothing but their text. -/
def decorateTokens (decorator : Decorator) (lexer : Lexer) :
    StyleMemo → Registry → Nat → List (List Char) → Decorated
  | _, registry, _, [] => (.ok [], registry)
  | memo, registry, start, token :: rest =>
    let stop := start + Text.byteSize token
    match memo[String.ofList token]? with
    | some style =>
      (decorateTokens decorator lexer memo registry stop rest).after [⟨start, style⟩]
    | none =>
      match lexer.classify token with
      | .error failure => (.error failure, registry)
      | .ok classified =>
        match handedOn? token classified with
        | some (language, cut) =>
          (decorateCut decorator registry lexer language cut start).andThen fun registry =>
            decorateTokens decorator lexer memo registry stop rest
        | none =>
          let style := ownStyle classified.style
          let memo := memo.insert (String.ofList token) style
          (decorateTokens decorator lexer memo registry stop rest).after [⟨start, style⟩]

/-- Decorate a source, with embeddings nested no deeper than the count. -/
def decorateWithin : Nat → Decorator
  | 0, registry, _, _, _ => (.error .endlessEmbedding, registry)
  | depth + 1, registry, lexer, source, base =>
    match lexer.tokenize source with
    | .error failure => (.error failure, registry)
    | .ok tokens =>
      (decorateTokens (decorateWithin depth) lexer {} registry base tokens).after [⟨base, .plain⟩]

namespace Registry

/-- How deep embeddings can nest. A nested source is shorter, or a grammar was compiled before it,
or its lexer is another one than all since the last time that one of these happened. -/
def nesting (registry : Registry) (source : List Char) : Nat :=
  (Text.byteSize source + registry.count + 1) * (registry.count + 1)

/-- Decorate a source that starts at an offset, with a lexer. The decorations come as they are
found. -/
def decorateRaw (registry : Registry) (lexer : Lexer) (source : List Char) (base : Nat) :
    Decorated :=
  decorateWithin (registry.nesting source) registry lexer source base

/-- Decorate a source that starts at an offset, with a lexer. -/
def decorateWith (registry : Registry) (lexer : Lexer) (source : List Char) (base : Nat) :
    Decorated :=
  match registry.decorateRaw lexer source base with
  | (.ok raw, registry) => (.ok (raw.compact base (Text.byteSize source)), registry)
  | failed => failed

/-- Decorate a source that starts at an offset, with the lexer of a language. -/
def decorate (registry : Registry) (id : Option String) (source : List Char) (base : Nat) :
    Decorated :=
  match registry.resolve id source with
  | (.error error, registry) => (.error (.config error), registry)
  | (.ok resolved, registry) => registry.decorateWith resolved.lexer source base

end Registry

end Highlighter
