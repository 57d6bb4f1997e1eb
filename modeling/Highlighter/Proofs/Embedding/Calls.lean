import Highlighter.Proofs.Embedding.Failures
import Highlighter.Proofs.Embedding.Raw
import Highlighter.Proofs.Lexer.Rules
import Highlighter.Proofs.Registry.WarmUp

/-!
# Calls of a decoration

To decorate a source is to decorate the parts of its tokens that have a
region: what is before the region, the region, and what is after it.
These are the calls that are nested in the one for the source
(`Call.Nested`). What is before a region and what is after it is always
shorter than the source. A region is, too, unless the source is one
token that is handed on as a whole (`Call.Nested.shorter_or_whole`).

Runs of one call, in two registries and at two depths, are compared
token by token: if the runs of all nested calls agree, then so do those
of the call (`Simulation.agree_run`). This one induction on the tokens
serves all comparisons.
-/

set_option autoImplicit false

namespace Highlighter

/-! ### How long a region is -/

theorem Text.byteSize_of_cut? {span : Span} {text : List Char} {cut : Cut}
    (h : cut? span text = some cut) : byteSize cut.body = span.length := by
  simp only [cut?, Option.bind_eq_bind, Option.bind_eq_some_iff, Option.pure_def,
    Option.some.injEq] at h
  obtain ⟨⟨before, rest⟩, -, ⟨body, after⟩, hstop, rfl⟩ := h
  exact (splitAt?_eq_some hstop).2

/-- A region is as long as the first group, wherever it is, and not
empty. -/
theorem byteSize_of_embeddedRegion? {token : List Char} {captures : Regex.Captures}
    {cut : Text.Cut} (h : embeddedRegion? token captures = some cut) :
    ∃ group, captures.first = some group ∧ Text.byteSize cut.body = group.length ∧
      0 < group.length := by
  obtain ⟨group, span, hfirst, hpos, hspan, hlength⟩ := embeddedRegion?_eq_some h
  exact ⟨group, hfirst, (Text.byteSize_of_cut? hspan).trans hlength, hpos⟩

/-- A token that is handed on is matched by a rule for an embedding, with
a first group that is as long as the region. -/
theorem Lexer.exists_rule_of_handedOn? {lexer : Lexer} {token : List Char}
    {classified : Classification} {language : Option String} {cut : Text.Cut}
    (hclass : lexer.classify token = .ok classified)
    (hcut : handedOn? token classified = some (language, cut)) :
    ∃ rule captures group, rule ∈ lexer.rules ∧
      rule.matcher.captures token = .ok (some captures) ∧ rule.style.isEmbedded = true ∧
      language = rule.style.language? ∧ captures.first = some group ∧
      Text.byteSize cut.body = group.length ∧ 0 < group.length := by
  obtain ⟨hembedded, hlanguage, hfound⟩ := handedOn?_eq_some hcut
  obtain ⟨captures, hcaptures, hregion⟩ := Option.bind_eq_some_iff.mp hfound
  obtain ⟨group, hgroup, hlength, hpos⟩ := byteSize_of_embeddedRegion? hregion
  rcases Lexer.classify_cases hclass with rfl | ⟨rule, hrule, captures', hmatch, rfl⟩
  · cases hcaptures
  · cases hcaptures
    exact ⟨rule, captures, group, hrule, hmatch, hembedded, hlanguage.symm, hgroup, hlength, hpos⟩

/-! ### Registries -/

/-- The registries that asking for lexers leads to. -/
inductive Registry.LeadsTo (start : Registry) : Registry → Prop where
  | refl : LeadsTo start start
  | resolve {registry : Registry} (h : LeadsTo start registry) (id : Option String)
    (source : List Char) : LeadsTo start (registry.resolve id source).2

/-- What each lexer keeps holds wherever asking for lexers leads. -/
theorem Registry.LeadsTo.keeps {P : Registry → Prop} {start registry : Registry}
    (h : start.LeadsTo registry) (hkeeps : Keeps P) (hstart : P start) : P registry := by
  induction h with
  | refl => exact hstart
  | resolve _ id source ih => exact hkeeps.resolve ih id source

/-- Where everything is compiled, asking for lexers leads nowhere. -/
theorem Registry.LeadsTo.eq_of_pending_eq_nil {start registry : Registry}
    (hcompiled : start.pending = []) (h : start.LeadsTo registry) : registry = start := by
  induction h with
  | refl => rfl
  | resolve h id source ih =>
    rw [ih]
    exact resolve_of_pending_eq_nil hcompiled id source

/-! ### Calls -/

/-- A source that is decorated, with its lexer and the offset where it
starts. -/
structure Call where
  lexer : Lexer
  source : List Char
  base : Nat

namespace Call

variable {call inner : Call} {start : Registry} {token : List Char} {language : Option String}
  {cut : Text.Cut} {place : Nat}

/-- What a call gives if embeddings are nested no deeper than the
count. -/
def run (call : Call) (depth : Nat) (registry : Registry) : Decorated :=
  decorateWithin depth registry call.lexer call.source call.base

/-- The source has a token that starts at an offset and is handed on,
with a region in a language. -/
structure HandsOn (call : Call) (token : List Char) (language : Option String) (cut : Text.Cut)
    (place : Nat) : Prop where
  found : ∃ before after, call.lexer.tokenize call.source = .ok (before ++ token :: after) ∧
    place = call.base + Text.byteSize before.flatten
  handed : ∃ classified, call.lexer.classify token = .ok classified ∧
    handedOn? token classified = some (language, cut)

/-- The calls that a call makes, if it comes that far. The lexer of a
region is resolved in a registry that the first one leads to. -/
inductive Nested (start : Registry) (call : Call) : Call → Prop where
  | before {token : List Char} {language : Option String} {cut : Text.Cut} {place : Nat}
    (h : call.HandsOn token language cut place) :
    Nested start call ⟨call.lexer, cut.before, place⟩
  | region {token : List Char} {language : Option String} {cut : Text.Cut} {place : Nat}
    {registry after : Registry} {resolved : Registry.Resolved}
    (h : call.HandsOn token language cut place) (hleads : start.LeadsTo registry)
    (hresolved : registry.resolve language cut.body = (.ok resolved, after)) :
    Nested start call ⟨resolved.lexer, cut.body, place + Text.byteSize cut.before⟩
  | after {token : List Char} {language : Option String} {cut : Text.Cut} {place : Nat}
    (h : call.HandsOn token language cut place) :
    Nested start call
      ⟨call.lexer, cut.after, place + Text.byteSize cut.before + Text.byteSize cut.body⟩

/-- The parts of a token make up the token. -/
theorem HandsOn.append (h : call.HandsOn token language cut place) :
    cut.before ++ cut.body ++ cut.after = token := by
  obtain ⟨classified, -, hcut⟩ := h.handed
  exact append_of_handedOn? hcut

/-- A rule for an embedding matches the token, and its first group is as
long as the region. -/
theorem HandsOn.exists_rule (h : call.HandsOn token language cut place) :
    ∃ rule captures group, rule ∈ call.lexer.rules ∧
      rule.matcher.captures token = .ok (some captures) ∧ rule.style.isEmbedded = true ∧
      language = rule.style.language? ∧ captures.first = some group ∧
      Text.byteSize cut.body = group.length ∧ 0 < group.length := by
  obtain ⟨classified, hclass, hcut⟩ := h.handed
  exact Lexer.exists_rule_of_handedOn? hclass hcut

/-- A region is not empty. -/
theorem HandsOn.body_pos (h : call.HandsOn token language cut place) :
    0 < Text.byteSize cut.body := by
  obtain ⟨rule, captures, group, -, -, -, -, -, hlength, hpos⟩ := h.exists_rule
  omega

/-- A token is shorter than the source, unless it is the source. -/
theorem HandsOn.token_lt_or_whole (h : call.HandsOn token language cut place) :
    Text.byteSize token < Text.byteSize call.source ∨ token = call.source ∧ place = call.base := by
  obtain ⟨before, after, htokens, hplace⟩ := h.found
  have hwhole := Union.flatten_tokens htokens
  rw [List.flatten_append, List.flatten_cons] at hwhole
  rw [hplace, ← hwhole, Text.byteSize_append, Text.byteSize_append]
  -- No token is empty, so one with neighbours is shorter than the source.
  by_cases hrest : before.flatten = [] ∧ after.flatten = []
  · right
    rw [hrest.1, hrest.2]
    exact ⟨(List.append_nil _).symm, Nat.add_zero _⟩
  · left
    rcases not_and_or.mp hrest with hne | hne
    · have := Text.byteSize_pos hne
      omega
    · have := Text.byteSize_pos hne
      omega

theorem HandsOn.byteSize_le (h : call.HandsOn token language cut place) :
    Text.byteSize cut.before + Text.byteSize cut.body + Text.byteSize cut.after
      ≤ Text.byteSize call.source := by
  rw [← Text.byteSize_append, ← Text.byteSize_append, h.append]
  rcases h.token_lt_or_whole with hlt | ⟨rfl, -⟩
  · exact Nat.le_of_lt hlt
  · exact Nat.le_refl _

/-- What is before a region and what is after it is shorter than the
source. -/
theorem HandsOn.around_lt (h : call.HandsOn token language cut place) :
    Text.byteSize cut.before < Text.byteSize call.source ∧
      Text.byteSize cut.after < Text.byteSize call.source := by
  have hbody := h.body_pos
  have hle := h.byteSize_le
  omega

/-- A region is shorter than the source, unless it is the source. -/
theorem HandsOn.body_lt_or_whole (h : call.HandsOn token language cut place) :
    Text.byteSize cut.body < Text.byteSize call.source ∨
      cut.body = token ∧ token = call.source ∧ place + Text.byteSize cut.before = call.base := by
  by_cases haround : cut.before = [] ∧ cut.after = []
  · have hbody : cut.body = token := by
      rw [← h.append, haround.1, haround.2, List.append_nil, List.nil_append]
    rcases h.token_lt_or_whole with hlt | ⟨heq, hplace⟩
    · exact .inl (hbody ▸ hlt)
    · exact .inr ⟨hbody, heq, by rw [haround.1, hplace, Text.byteSize_nil, Nat.add_zero]⟩
  · left
    have hle := h.byteSize_le
    rcases not_and_or.mp haround with hne | hne
    · have := Text.byteSize_pos hne
      omega
    · have := Text.byteSize_pos hne
      omega

/-- A nested call has a shorter source, or the same source in the
language that it is handed on to as a whole. -/
theorem Nested.shorter_or_whole (h : call.Nested start inner) :
    Text.byteSize inner.source < Text.byteSize call.source ∨
      ∃ language cut place registry resolved after,
        call.HandsOn call.source language cut place ∧ cut.body = call.source ∧
        start.LeadsTo registry ∧
        registry.resolve language call.source = (.ok resolved, after) ∧
        inner = ⟨resolved.lexer, call.source, call.base⟩ := by
  cases h with
  | before h => exact .inl h.around_lt.1
  | after h => exact .inl h.around_lt.2
  | @region token language cut place registry after resolved h hleads hresolved =>
    rcases h.body_lt_or_whole with hlt | ⟨hbody, rfl, hplace⟩
    · exact .inl hlt
    · refine .inr ⟨language, cut, place, registry, resolved, after, h, hbody, hleads, ?_, ?_⟩
      · rw [← hbody]
        exact hresolved
      · rw [hplace, hbody]

end Call

/-! ### Two runs of a call -/

/-- How a run ends, next to another one. It ends in the same way and
keeps what held of the two registries, unless the other one embeds
without end. Then there is a condition of its own on how the run
ends. -/
inductive Agree (Excuse : Except Failure Stream → Prop)
    (Rel : Lexer → Registry → Registry → Prop) (registry other : Registry) :
    Decorated → Decorated → Prop where
  | endless {outcome : Except Failure Stream} {after after' : Registry} (h : Excuse outcome) :
    Agree Excuse Rel registry other (outcome, after) (.error .endlessEmbedding, after')
  | same {outcome : Except Failure Stream} {after after' : Registry}
    (hne : outcome ≠ .error .endlessEmbedding)
    (hkept : ∀ lexer, Rel lexer registry other → Rel lexer after after') :
    Agree Excuse Rel registry other (outcome, after) (outcome, after')

/-- A relation between registries, and the lexers in use there, under
which the languages of regions mean the same. -/
structure Simulation (start : Registry) (Excuse : Except Failure Stream → Prop)
    (Rel : Lexer → Registry → Registry → Prop) : Prop where
  /-- A run that goes on where the other one has ended may end in any
  way. -/
  excuse : ∀ stream, Excuse (.ok stream) → ∀ outcome, Excuse outcome
  leads : ∀ lexer registry other, Rel lexer registry other → start.LeadsTo other
  lexer_eq : ∀ call token language cut place registry other,
    Call.HandsOn call token language cut place → Rel call.lexer registry other →
    (registry.resolve language cut.body).1.map Registry.Resolved.lexer
      = (other.resolve language cut.body).1.map Registry.Resolved.lexer
  kept : ∀ call token language cut place registry other,
    Call.HandsOn call token language cut place → Rel call.lexer registry other →
    ∀ lexer, Rel lexer registry other →
      Rel lexer (registry.resolve language cut.body).2 (other.resolve language cut.body).2
  region : ∀ call token language cut place registry other,
    Call.HandsOn call token language cut place → Rel call.lexer registry other →
    ∀ resolved, (other.resolve language cut.body).1 = .ok resolved →
      Rel resolved.lexer (registry.resolve language cut.body).2
        (other.resolve language cut.body).2

section

variable {Excuse : Except Failure Stream → Prop} {Rel : Lexer → Registry → Registry → Prop}
  {start registry other : Registry} {result result' : Decorated}

/-- Relations that are kept are kept by one result after the other. -/
theorem Agree.trans_kept {between between' : Registry}
    (hkept : ∀ lexer, Rel lexer registry other → Rel lexer between between')
    (h : Agree Excuse Rel between between' result result') :
    Agree Excuse Rel registry other result result' := by
  cases h with
  | endless h => exact .endless h
  | same hne hkept' => exact .same hne fun lexer h => hkept' lexer (hkept lexer h)

theorem Agree.after (hexcuse : ∀ stream, Excuse (.ok stream) → ∀ outcome, Excuse outcome)
    (h : Agree Excuse Rel registry other result result') (before : Stream) :
    Agree Excuse Rel registry other (result.after before) (result'.after before) := by
  cases h with
  | @endless outcome after after' h =>
    cases outcome with
    | error failure => exact .endless h
    | ok stream => exact .endless (hexcuse stream h _)
  | @same outcome after after' hne hkept =>
    cases outcome with
    | error failure => exact .same hne hkept
    | ok stream => exact .same (fun h => nomatch h) hkept

theorem Agree.andThen (hexcuse : ∀ stream, Excuse (.ok stream) → ∀ outcome, Excuse outcome)
    {second second' : Registry → Decorated} (h : Agree Excuse Rel registry other result result')
    (hsecond : ∀ after after', (∀ lexer, Rel lexer registry other → Rel lexer after after') →
      Agree Excuse Rel after after' (second after) (second' after')) :
    Agree Excuse Rel registry other (result.andThen second) (result'.andThen second') := by
  cases h with
  | @endless outcome after after' h =>
    cases outcome with
    | error failure => exact .endless h
    | ok stream => exact .endless (hexcuse stream h _)
  | @same outcome after after' hne hkept =>
    cases outcome with
    | error failure => exact .same hne hkept
    | ok stream => exact ((hsecond after after' hkept).after hexcuse stream).trans_kept hkept

namespace Simulation

variable {call : Call} {first second : Decorator}

/-- Two decorators agree on a call wherever its lexer is in use. -/
def AgreeOn (Excuse : Except Failure Stream → Prop) (Rel : Lexer → Registry → Registry → Prop)
    (first second : Decorator) (call : Call) : Prop :=
  ∀ registry other, Rel call.lexer registry other →
    Agree Excuse Rel registry other (first registry call.lexer call.source call.base)
      (second other call.lexer call.source call.base)

theorem agree_decorateCut (hsim : Simulation start Excuse Rel) {token : List Char}
    {language : Option String} {cut : Text.Cut} {place : Nat}
    (hhands : call.HandsOn token language cut place)
    (hnested : ∀ inner, call.Nested start inner → AgreeOn Excuse Rel first second inner)
    (hrel : Rel call.lexer registry other) :
    Agree Excuse Rel registry other
      (decorateCut first registry call.lexer language cut place)
      (decorateCut second other call.lexer language cut place) := by
  unfold decorateCut
  -- What is before the region comes first, and leaves the registries related.
  refine (hnested _ (.before hhands) registry other hrel).andThen hsim.excuse
    fun between between' hkept => ?_
  have hrel := hkept call.lexer hrel
  have hlexer := hsim.lexer_eq call token language cut place between between' hhands hrel
  have hkept := hsim.kept call token language cut place between between' hhands hrel
  have hregion := hsim.region call token language cut place between between' hhands hrel
  have hleads := hsim.leads _ _ _ hrel
  -- Both registries give the same lexer for the region, or fail alike.
  cases hresolved : between.resolve language cut.body with
  | mk outcome after =>
    cases hresolved' : between'.resolve language cut.body with
    | mk outcome' after' =>
      rw [hresolved, hresolved'] at hlexer hkept
      rw [hresolved, hresolved'] at hregion
      cases outcome with
      | error error =>
        cases outcome' with
        | ok resolved' => cases hlexer
        | error error' =>
          cases hlexer
          exact .same (fun h => nomatch h) hkept
      | ok resolved =>
        cases outcome' with
        | error error' => cases hlexer
        | ok resolved' =>
          have hlexer : resolved.lexer = resolved'.lexer := Except.ok.inj hlexer
          simp only [hlexer]
          refine Agree.trans_kept hkept ?_
          -- The lexer in use comes back into play after the region.
          refine (hnested _ (.region hhands hleads hresolved') after after'
            (hregion resolved' rfl)).andThen hsim.excuse fun last last' hlast => ?_
          exact hnested _ (.after hhands) last last' (hlast _ (hkept _ hrel))

theorem agree_decorateTokens (hsim : Simulation start Excuse Rel)
    (hnested : ∀ inner, call.Nested start inner → AgreeOn Excuse Rel first second inner)
    {before tokens : List (List Char)} {memo : StyleMemo} {place : Nat}
    (htokens : call.lexer.tokenize call.source = .ok (before ++ tokens))
    (hplace : place = call.base + Text.byteSize before.flatten)
    (hrel : Rel call.lexer registry other) :
    Agree Excuse Rel registry other
      (decorateTokens first call.lexer memo registry place tokens)
      (decorateTokens second call.lexer memo other place tokens) := by
  -- `before` are the tokens that both runs have behind them. Their memos are the same.
  induction tokens generalizing before memo registry other place with
  | nil =>
    refine .same ?_ fun lexer h => h
    intro h
    cases h
  | cons token rest ih =>
    have hsplit : before ++ token :: rest = (before ++ [token]) ++ rest := by simp
    have hrest : place + Text.byteSize token
        = call.base + Text.byteSize (before ++ [token]).flatten := by
      rw [hplace, List.flatten_append, List.flatten_singleton, Text.byteSize_append, Nat.add_assoc]
    rw [decorateTokens, decorateTokens]
    split
    · exact (ih (hsplit ▸ htokens) hrest hrel).after hsim.excuse _
    · split
      · rename_i failure hclass
        refine .same ?_ fun lexer h => h
        rw [Lexer.classify_eq_error hclass]
        intro h
        cases h
      · rename_i classified hclass
        split
        · rename_i language cut hcut
          have hhands : call.HandsOn token language cut place :=
            ⟨⟨before, rest, htokens, hplace⟩, classified, hclass, hcut⟩
          exact (hsim.agree_decorateCut hhands hnested hrel).andThen hsim.excuse
            fun after after' hkept => ih (hsplit ▸ htokens) hrest (hkept _ hrel)
        · exact (ih (hsplit ▸ htokens) hrest hrel).after hsim.excuse _

/-- If the runs of all calls that are nested in a call agree, so do
those of the call. -/
theorem agree_run (hsim : Simulation start Excuse Rel) {depth depth' : Nat}
    (hnested : ∀ inner, call.Nested start inner →
      AgreeOn Excuse Rel (decorateWithin depth) (decorateWithin depth') inner)
    (hrel : Rel call.lexer registry other) :
    Agree Excuse Rel registry other (call.run (depth + 1) registry)
      (call.run (depth' + 1) other) := by
  unfold Call.run
  rw [decorateWithin, decorateWithin]
  split
  · rename_i failure htokens
    refine .same ?_ fun lexer h => h
    rw [Lexer.tokenize_eq_error htokens]
    intro h
    cases h
  · rename_i tokens htokens
    have htokens : call.lexer.tokenize call.source = .ok ([] ++ tokens) := htokens
    exact (hsim.agree_decorateTokens hnested htokens rfl hrel).after hsim.excuse _

end Simulation

end

end Highlighter
