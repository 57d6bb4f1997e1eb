import Highlighter.Proofs.Embedding.Coverage
import Highlighter.Proofs.Registry.WarmUp
import Std.Data.HashMap.Lemmas

/-!
# What decorations mean

What style a source has at an offset can be said without a stream:
look at the token around the offset, and where the token has a region
in another language, look into the part of the token that the offset
is in (`StyledAs`). This says nothing of plain seeds, of remembered
styles or of the order in which decorations are found.

In a registry where everything is compiled, the decorations of a
source say just that at every offset (`styledAs_decorateWith`). The
induction is on the depth of nesting, and then on the tokens. A
remembered style is the one that the token would get again
(`StyleMemo.Sound`), and no decoration of a part of a source is
before that part, so of all that was written the last one counts.
-/

set_option autoImplicit false

namespace Highlighter

/-! ### The meaning -/

/-- The token around an offset and where it starts. The first token
starts at `start`. -/
def tokenAround? (x start : Nat) : List (List Char) → Option (List Char × Nat)
  | [] => none
  | token :: rest =>
    if x < start + Text.byteSize token then some (token, start)
    else tokenAround? x (start + Text.byteSize token) rest

/-- What a look at an offset of a source shows: a style, or a source
to look into, with its lexer and its start. -/
inductive View where
  | style (style : Style)
  | part (lexer : Lexer) (source : List Char) (base : Nat)

namespace Lexer

/-- What a token shows at an offset. A token that is no embedding has
its own style, and an embedding without a region is plain source. Else
what is before the region and what is after it are sources in the same
language, and the region is one in the language of the embedding. -/
def viewToken? (lexer : Lexer) (registry : Registry) (x : Nat) (token : List Char) (start : Nat)
    (classified : Classification) : Option View :=
  if classified.style.isEmbedded then
    match classified.captures.bind (embeddedRegion? token) with
    | none => some (.style .source)
    | some cut =>
      let regionStart := start + Text.byteSize cut.before
      let regionStop := regionStart + Text.byteSize cut.body
      if x < regionStart then some (.part lexer cut.before start)
      else if x < regionStop then
        match (registry.resolve classified.style.language? cut.body).1 with
        | .ok inner => some (.part inner.lexer cut.body regionStart)
        | .error _ => none
      else some (.part lexer cut.after regionStop)
  else some (.style classified.style)

/-- What a source shows at an offset. -/
def view? (lexer : Lexer) (registry : Registry) (x : Nat) (source : List Char) (base : Nat) :
    Option View := do
  let tokens ← (lexer.tokenize source).toOption
  let (token, start) ← tokenAround? x base tokens
  let classified ← (lexer.classify token).toOption
  lexer.viewToken? registry x token start classified

end Lexer

/-- The style of a source at an offset, found by looking into parts
until a style shows. -/
inductive StyledAs (registry : Registry) (x : Nat) : Lexer → List Char → Nat → Style → Prop where
  | here {lexer : Lexer} {source : List Char} {base : Nat} {style : Style}
    (hview : lexer.view? registry x source base = some (.style style)) :
    StyledAs registry x lexer source base style
  | within {lexer inner : Lexer} {source part : List Char} {base start : Nat} {style : Style}
    (hview : lexer.view? registry x source base = some (.part inner part start))
    (hpart : StyledAs registry x inner part start style) :
    StyledAs registry x lexer source base style

/-- A source has at most one style at an offset. -/
theorem StyledAs.unique {registry : Registry} {x base : Nat} {lexer : Lexer}
    {source : List Char} {style other : Style} (h : StyledAs registry x lexer source base style)
    (hother : StyledAs registry x lexer source base other) : style = other := by
  induction h with
  | here hview =>
    cases hother with
    | here hview' =>
      rw [hview] at hview'
      cases hview'
      rfl
    | within hview' hpart =>
      rw [hview] at hview'
      cases hview'
  | within hview hpart ih =>
    cases hother with
    | here hview' =>
      rw [hview] at hview'
      cases hview'
    | within hview' hpart' =>
      rw [hview] at hview'
      cases hview'
      exact ih hpart'

/-! ### Remembered styles -/

variable {registry after : Registry} {lexer : Lexer} {memo : StyleMemo} {raw : Stream}
  {decorator : Decorator} {start : Nat}

/-- Every remembered style is the own style of its token. -/
def StyleMemo.Sound (lexer : Lexer) (memo : StyleMemo) : Prop :=
  ∀ ⦃token style⦄, memo[String.ofList token]? = some style →
    ∃ classified, lexer.classify token = .ok classified ∧ handedOn? token classified = none ∧
      style = ownStyle classified.style

theorem StyleMemo.sound_empty (lexer : Lexer) : StyleMemo.Sound lexer {} := by
  intro token style h
  rw [Std.HashMap.getElem?_empty] at h
  cases h

/-- The own style of a token may be remembered. -/
theorem StyleMemo.Sound.insert {token : List Char} {classified : Classification}
    (hmemo : memo.Sound lexer) (hclass : lexer.classify token = .ok classified)
    (hown : handedOn? token classified = none) :
    StyleMemo.Sound lexer (memo.insert (String.ofList token) (ownStyle classified.style)) := by
  intro other style hother
  rw [Std.HashMap.getElem?_insert] at hother
  split at hother
  · rename_i heq
    cases String.ofList_injective (beq_iff_eq.mp heq)
    cases hother
    exact ⟨classified, hclass, hown, rfl⟩
  · exact hmemo hother

/-- Memos stay sound, whichever way a token is decorated. -/
theorem TokenStep.sound {token : List Char} {memo' : StyleMemo}
    (h : TokenStep decorator lexer memo registry token start raw memo' after)
    (hmemo : memo.Sound lexer) : memo'.Sound lexer := by
  cases h with
  | remembered hstyle => exact hmemo
  | handedOn hclass hcut hraw => exact hmemo
  | own hclass hown => exact hmemo.insert hclass hown

/-! ### Streams that show the meaning -/

/-- Whether a stream says at each offset of a source what style it has
there. -/
def Stream.Shows (registry : Registry) (lexer : Lexer) (source : List Char) (base : Nat)
    (raw : Stream) : Prop :=
  ∀ ⦃x⦄, base ≤ x → x < base + Text.byteSize source →
    ∃ style, raw.styleAt? x = some style ∧ StyledAs registry x lexer source base style

/-- A decorator that says what a source means, and leaves the registry
as it is. -/
def Decorator.Refines (registry : Registry) (decorator : Decorator) : Prop :=
  ∀ ⦃lexer source base raw after⦄, decorator registry lexer source base = (.ok raw, after) →
    after = registry ∧ raw.Shows registry lexer source base

/-- A token that is not handed on shows its own style. -/
theorem viewToken?_of_own {x : Nat} {token : List Char} {classified : Classification}
    (h : handedOn? token classified = none) :
    lexer.viewToken? registry x token start classified
      = some (.style (ownStyle classified.style)) := by
  unfold Lexer.viewToken?
  rcases handedOn?_eq_none h with ⟨hplain, hown⟩ | ⟨hembedded, hown, hregion⟩
  · rw [hplain, hown]
    rfl
  · rw [if_pos hembedded, hown, hregion]

/-- What is written last counts. -/
theorem Stream.styleAt?_append_right {first second : Stream} {x : Nat} {style : Style}
    (h : second.styleAt? x = some style) : (first ++ second).styleAt? x = some style := by
  rw [Stream.styleAt?_append, h, Option.some_or]

/-- The decorations of the text after an offset do not change what
holds there. -/
theorem Stream.Within.styleAt?_append_left {first second : Stream} {text : List Char} {x : Nat}
    (h : Stream.Within text start second) (hx : x < start) :
    (first ++ second).styleAt? x = first.styleAt? x := by
  have hnone : second.styleAt? x = none :=
    Stream.styleAt?_eq_none fun decoration hmem =>
      Nat.lt_of_lt_of_le hx (h.boundary decoration hmem).le
  rw [Stream.styleAt?_append, hnone, Option.none_or]

/-- The decorations of a token with a region show what the token
does. -/
theorem shows_decorateCut {token : List Char} {classified : Classification}
    {language : Option String} {cut : Text.Cut} (hcompiled : registry.pending = [])
    (hstays : decorator.StaysWithin) (hrefines : decorator.Refines registry)
    (hcut : handedOn? token classified = some (language, cut))
    (h : decorateCut decorator registry lexer language cut start = (.ok raw, after)) :
    after = registry ∧ ∀ ⦃x⦄, start ≤ x → x < start + Text.byteSize token →
      ∃ inner part base style,
        lexer.viewToken? registry x token start classified = some (.part inner part base) ∧
        raw.styleAt? x = some style ∧ StyledAs registry x inner part base style := by
  obtain ⟨before, middle, resolved, ready, body, inside, rest, hbefore, hresolved, hbody, hrest,
    rfl⟩ := decorateCut_eq_ok h
  obtain ⟨rfl, hbeforeShows⟩ := hrefines hbefore
  have hready := Registry.resolve_of_pending_eq_nil hcompiled language cut.body
  rw [hresolved] at hready
  obtain rfl : ready = middle := hready
  obtain ⟨rfl, hbodyShows⟩ := hrefines hbody
  obtain ⟨rfl, hrestShows⟩ := hrefines hrest
  refine ⟨rfl, fun x hstart hstop => ?_⟩
  have hwhole := append_of_handedOn? hcut
  have hsize : Text.byteSize token
      = Text.byteSize cut.before + Text.byteSize cut.body + Text.byteSize cut.after := by
    rw [← hwhole, Text.byteSize_append, Text.byteSize_append]
  obtain ⟨hembedded, rfl, hregion⟩ := handedOn?_eq_some hcut
  unfold Lexer.viewToken?
  simp only [hembedded, hregion, hresolved, if_true]
  -- The offset is in one of the three parts, and no later part is written over it.
  by_cases hfirst : x < start + Text.byteSize cut.before
  · obtain ⟨style, hstyle, hmeans⟩ := hbeforeShows hstart hfirst
    refine ⟨_, _, _, style, if_pos hfirst, ?_, hmeans⟩
    have hlater := (hstays hbody).append (hstays hrest)
    rw [hlater.styleAt?_append_left hfirst, hstyle]
  · rw [if_neg hfirst]
    by_cases hsecond : x < start + Text.byteSize cut.before + Text.byteSize cut.body
    · obtain ⟨style, hstyle, hmeans⟩ := hbodyShows (Nat.not_lt.mp hfirst) hsecond
      refine ⟨_, _, _, style, if_pos hsecond, ?_, hmeans⟩
      refine Stream.styleAt?_append_right ?_
      rw [(hstays hrest).styleAt?_append_left hsecond, hstyle]
    · obtain ⟨style, hstyle, hmeans⟩ := hrestShows (Nat.not_lt.mp hsecond) (by omega)
      refine ⟨_, _, _, style, if_neg hsecond, ?_, hmeans⟩
      exact Stream.styleAt?_append_right (Stream.styleAt?_append_right hstyle)

/-- What a token shows, said of a source that has the token. -/
def Lexer.Means (lexer : Lexer) (registry : Registry) (x : Nat) (token : List Char) (start : Nat)
    (style : Style) : Prop :=
  ∃ classified, lexer.classify token = .ok classified ∧
    (lexer.viewToken? registry x token start classified = some (.style style) ∨
      ∃ inner part base,
        lexer.viewToken? registry x token start classified = some (.part inner part base) ∧
        StyledAs registry x inner part base style)

/-- A source has the style of the token around the offset. -/
theorem Lexer.Means.styledAs {x base : Nat} {source token : List Char}
    {tokens : List (List Char)} {style : Style} (h : lexer.Means registry x token start style)
    (htokens : lexer.tokenize source = .ok tokens)
    (haround : tokenAround? x base tokens = some (token, start)) :
    StyledAs registry x lexer source base style := by
  obtain ⟨classified, hclass, hview⟩ := h
  have hsource : lexer.view? registry x source base
      = lexer.viewToken? registry x token start classified := by
    unfold Lexer.view?
    rw [htokens]
    simp only [Except.toOption, Option.bind_eq_bind, Option.bind_some, haround, hclass]
  rcases hview with hview | ⟨inner, part, base', hview, hpart⟩
  · exact .here (hsource.trans hview)
  · exact .within (hsource.trans hview) hpart

/-- Whichever way a token is decorated, its decorations show what it
does. -/
theorem TokenStep.means {token : List Char} {memo' : StyleMemo}
    (hcompiled : registry.pending = []) (hstays : decorator.StaysWithin)
    (hrefines : decorator.Refines registry) (hmemo : memo.Sound lexer)
    (h : TokenStep decorator lexer memo registry token start raw memo' after) :
    after = registry ∧ ∀ ⦃x⦄, start ≤ x → x < start + Text.byteSize token →
      ∃ style, raw.styleAt? x = some style ∧ lexer.Means registry x token start style := by
  have hsingle : ∀ (style : Style) {x : Nat}, start ≤ x →
      Stream.styleAt? [⟨start, style⟩] x = some style := by
    intro style x hx
    rw [Stream.styleAt?_cons, Stream.styleAt?_nil, Option.none_or, if_pos hx]
  cases h with
  | remembered hstyle =>
    obtain ⟨classified, hclass, hown, rfl⟩ := hmemo hstyle
    exact ⟨rfl, fun x hx _ =>
      ⟨_, hsingle _ hx, classified, hclass, .inl (viewToken?_of_own hown)⟩⟩
  | handedOn hclass hcut hraw =>
    obtain ⟨hafter, hshows⟩ := shows_decorateCut hcompiled hstays hrefines hcut hraw
    refine ⟨hafter, fun x hx hstop => ?_⟩
    obtain ⟨inner, part, base, style, hview, hstyle, hpart⟩ := hshows hx hstop
    exact ⟨style, hstyle, _, hclass, .inr ⟨inner, part, base, hview, hpart⟩⟩
  | own hclass hown =>
    exact ⟨rfl, fun x hx _ => ⟨_, hsingle _ hx, _, hclass, .inl (viewToken?_of_own hown)⟩⟩

/-- The decorations of tokens show what the token around an offset
does. -/
theorem means_decorateTokens {tokens : List (List Char)} (hcompiled : registry.pending = [])
    (hstays : decorator.StaysWithin) (hrefines : decorator.Refines registry)
    (hmemo : memo.Sound lexer)
    (h : decorateTokens decorator lexer memo registry start tokens = (.ok raw, after)) :
    after = registry ∧ ∀ ⦃x⦄, start ≤ x → x < start + Text.byteSize tokens.flatten →
      ∃ style token place, raw.styleAt? x = some style ∧
        tokenAround? x start tokens = some (token, place) ∧
        lexer.Means registry x token place style := by
  induction tokens generalizing memo start raw with
  | nil =>
    cases h
    refine ⟨rfl, fun x hx hstop => ?_⟩
    rw [List.flatten_nil, Text.byteSize_nil] at hstop
    omega
  | cons token tokens ih =>
    obtain ⟨first, memo', middle, rest, hstep, hrest, rfl⟩ := decorateTokens_cons h
    obtain ⟨rfl, hfirst⟩ := hstep.means hcompiled hstays hrefines hmemo
    obtain ⟨hafter, hothers⟩ := ih (hstep.sound hmemo) hrest
    refine ⟨hafter, fun x hx hstop => ?_⟩
    rw [List.flatten_cons, Text.byteSize_append] at hstop
    by_cases hin : x < start + Text.byteSize token
    · obtain ⟨style, hstyle, hmeans⟩ := hfirst hx hin
      refine ⟨style, token, start, ?_, if_pos hin, hmeans⟩
      rw [(within_decorateTokens hstays hrest).styleAt?_append_left hin, hstyle]
    · obtain ⟨style, found, place, hstyle, haround, hmeans⟩ :=
        hothers (Nat.not_lt.mp hin) (by omega)
      exact ⟨style, found, place, Stream.styleAt?_append_right hstyle,
        (if_neg hin).trans haround, hmeans⟩

/-- However deep embeddings nest, decorations say what the source
means. -/
theorem refines_decorateWithin (hcompiled : registry.pending = []) (depth : Nat) :
    (decorateWithin depth).Refines registry := by
  induction depth with
  | zero =>
    intro lexer source base raw after h
    cases h
  | succ depth ih =>
    intro lexer source base raw after h
    obtain ⟨tokens, rest, htokens, hrest, rfl⟩ := decorateWithin_succ_eq_ok h
    obtain ⟨hafter, hmeans⟩ := means_decorateTokens hcompiled (within_decorateWithin depth) ih
      (StyleMemo.sound_empty lexer) hrest
    refine ⟨hafter, fun x hx hstop => ?_⟩
    rw [← Union.flatten_tokens htokens] at hstop
    obtain ⟨style, token, place, hstyle, haround, htoken⟩ := hmeans hx hstop
    refine ⟨style, ?_, htoken.styledAs htokens haround⟩
    -- The plain seed comes before all that the tokens say.
    rw [Stream.styleAt?_cons, hstyle, Option.some_or]

/-- Once everything is compiled, in whatever order, the decorations of
a source say at each offset exactly what style it has there. -/
theorem styledAs_decorateWith {order : List Nat → List Nat} {warm : Registry} {base x : Nat}
    {source : List Char} {stream : Stream} (horder : ∀ numbers, (order numbers).Perm numbers)
    (hwarm : Registry.warmUpWithin order (registry.count + 1) registry = (.ok (), warm))
    (h : warm.decorateWith lexer source base = (.ok stream, after)) (hstart : base ≤ x)
    (hstop : x < base + Text.byteSize source) :
    ∃ style, stream.styleAt? x = some style ∧
      ∀ other, StyledAs warm x lexer source base other ↔ other = style := by
  have hcompiled := Registry.pending_of_warmUpWithin horder (Registry.waiting_lt_count registry)
    hwarm
  obtain ⟨raw, hraw, rfl⟩ := Registry.decorateWith_eq_ok h
  obtain ⟨-, hshows⟩ := refines_decorateWithin hcompiled _ hraw
  obtain ⟨style, hstyle, hmeans⟩ := hshows hstart hstop
  refine ⟨style, ?_, fun other => ⟨fun hother => hother.unique hmeans, ?_⟩⟩
  · rw [Stream.styleAt?_compact raw hstop,
      Stream.latestAt?_eq_styleAt? x (within_decorateWithin _ hraw).sorted, hstyle]
  · rintro rfl
    exact hmeans

theorem styledAs_decorateWith_bracketed :
    StyledAs Bracketed.registry 8 Bracketed.outer ['<', 'é', '>'] 7 .keyword := by
  have hwarm : Registry.warmUpWithin List.reverse (Bracketed.registry.count + 1)
      Bracketed.registry = (.ok (), Bracketed.registry) := rfl
  obtain ⟨style, hstyle, hmeans⟩ := styledAs_decorateWith List.reverse_perm hwarm
    Bracketed.decorateWith_bracketed (show 7 ≤ 8 by decide) (by decide)
  cases hstyle
  exact (hmeans _).mpr rfl

end Highlighter
