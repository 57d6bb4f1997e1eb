import Highlighter.Embedding

/-!
# Failures of a decoration

Tokenizing and classifying fail only if a match is given up
(`Lexer.tokenize_eq_error`, `Lexer.classify_eq_error`). All else that a decoration
does to a registry, and all other faults that it ends in, come from
asking for the lexers of embedded regions.

So what resolving keeps is kept by a whole decoration, whether it
succeeds or fails, and it fails only as resolving may fail, by giving
up a match, or by embedding without end (`sound_decorate`). The
induction is on the depth of nesting, and then on the tokens.
-/

set_option autoImplicit false

namespace Highlighter

/-! ### Failures of a lexer -/

theorem Regex.Matcher.search_eq_error {matcher : Matcher} {text : Array Char} {start : Nat}
    {failure : Failure} (h : matcher.search text start = .error failure) :
    failure = .retriesExhausted := by
  unfold search at h
  split at h
  · cases h
  · cases h
  · cases h
    rfl

theorem Regex.Matcher.captures_eq_error {matcher : Matcher} {text : List Char}
    {failure : Failure} (h : matcher.captures text = .error failure) :
    failure = .retriesExhausted := by
  unfold captures at h
  cases hsearch : matcher.search text.toArray 0 with
  | error known =>
    rw [hsearch] at h
    cases h
    exact search_eq_error hsearch
  | ok found =>
    rw [hsearch] at h
    cases h

theorem Union.tokenExtent_eq_error {union : Union} {text : Array Char} {pos : Nat}
    {failure : Failure} (h : union.tokenExtent text pos = .error failure) :
    failure = .retriesExhausted := by
  unfold tokenExtent at h
  cases hsearch : union.matcher.search text pos with
  | error known =>
    rw [hsearch] at h
    cases h
    exact Regex.Matcher.search_eq_error hsearch
  | ok result =>
    rw [hsearch] at h
    cases result with
    | none => cases h
    | some found =>
      simp only [bind, Except.bind] at h
      split at h
      · cases h
      · cases h

theorem Union.tokensFrom_eq_error {union : Union} {text : Array Char} {pos : Nat}
    {rest : List Char} {failure : Failure}
    (h : union.tokensFrom text pos rest = .error failure) : failure = .retriesExhausted := by
  fun_induction tokensFrom union text pos rest with
  | case1 => cases h
  | case2 pos c rest known hextent =>
    cases h
    exact tokenExtent_eq_error hextent
  | case3 pos c rest extent hextent known hrest ih =>
    cases h
    exact ih hrest
  | case4 => cases h

theorem Lexer.tokenize_eq_error {lexer : Lexer} {source : List Char} {failure : Failure}
    (h : lexer.tokenize source = .error failure) : failure = .retriesExhausted :=
  Union.tokensFrom_eq_error h

theorem Lexer.classifyBy_eq_error {token : List Char} {rules : List CompiledRule}
    {failure : Failure} (h : classifyBy token rules = .error failure) :
    failure = .retriesExhausted := by
  induction rules with
  | nil => cases h
  | cons rule rest ih =>
    rw [classifyBy] at h
    cases hcaptures : rule.matcher.captures token with
    | error known =>
      rw [hcaptures] at h
      cases h
      exact Regex.Matcher.captures_eq_error hcaptures
    | ok result =>
      rw [hcaptures] at h
      cases result with
      | some captures => cases h
      | none => exact ih h

theorem Lexer.classify_eq_error {lexer : Lexer} {token : List Char} {failure : Failure}
    (h : lexer.classify token = .error failure) : failure = .retriesExhausted :=
  classifyBy_eq_error h

/-! ### What a decoration keeps -/

/-- What is kept when a lexer is asked for, and the failures that a
decoration may end in then. -/
structure Registry.Steady (Keeps : Registry → Prop) (Allowed : Failure → Prop) : Prop where
  kept : ∀ registry, Keeps registry → ∀ id source, Keeps (registry.resolve id source).2
  fault : ∀ registry, Keeps registry → ∀ id source error,
    (registry.resolve id source).1 = .error error → Allowed (.config error)
  retries : Allowed .retriesExhausted
  endless : Allowed .endlessEmbedding

namespace Decorated

variable {Keeps : Registry → Prop} {Allowed : Failure → Prop} {result first : Decorated}

/-- The registry after a decoration keeps a property, and a failure is
one of those that are allowed. -/
structure Sound (Keeps : Registry → Prop) (Allowed : Failure → Prop) (result : Decorated) :
    Prop where
  kept : Keeps result.2
  allowed : ∀ failure, result.1 = .error failure → Allowed failure

theorem Sound.ok {registry : Registry} (h : Keeps registry) (raw : Stream) :
    Sound Keeps Allowed (.ok raw, registry) where
  kept := h
  allowed _ heq := by cases heq

theorem Sound.error {registry : Registry} {failure : Failure} (h : Keeps registry)
    (hallowed : Allowed failure) : Sound Keeps Allowed (.error failure, registry) where
  kept := h
  allowed _ heq := by
    cases heq
    exact hallowed

theorem Sound.after (h : Sound Keeps Allowed result) (before : Stream) :
    Sound Keeps Allowed (result.after before) := by
  obtain ⟨outcome, registry⟩ := result
  cases outcome with
  | error failure => exact h
  | ok stream => exact .ok h.kept _

theorem Sound.andThen {second : Registry → Decorated} (h : Sound Keeps Allowed first)
    (hsecond : ∀ registry, Keeps registry → Sound Keeps Allowed (second registry)) :
    Sound Keeps Allowed (first.andThen second) := by
  obtain ⟨outcome, registry⟩ := first
  cases outcome with
  | error failure => exact h
  | ok stream => exact (hsecond registry h.kept).after stream

end Decorated

open Decorated (Sound)

section

variable {Keeps : Registry → Prop} {Allowed : Failure → Prop} {decorator : Decorator}
  {registry : Registry}

/-- A decorator that keeps a property of the registry. -/
def Decorator.IsSound (Keeps : Registry → Prop) (Allowed : Failure → Prop)
    (decorator : Decorator) : Prop :=
  ∀ registry, Keeps registry → ∀ lexer source base,
    Sound Keeps Allowed (decorator registry lexer source base)

theorem sound_decorateCut (hsteady : Registry.Steady Keeps Allowed)
    (hdecorator : decorator.IsSound Keeps Allowed) (h : Keeps registry) (lexer : Lexer)
    (language : Option String) (cut : Text.Cut) (start : Nat) :
    Sound Keeps Allowed (decorateCut decorator registry lexer language cut start) := by
  unfold decorateCut
  refine (hdecorator registry h lexer _ _).andThen fun middle hmiddle => ?_
  have hkept := hsteady.kept middle hmiddle language cut.body
  have hfault := hsteady.fault middle hmiddle language cut.body
  cases hresolved : middle.resolve language cut.body with
  | mk outcome ready =>
    rw [hresolved] at hkept hfault
    cases outcome with
    | error error => exact .error hkept (hfault error rfl)
    | ok inner =>
      exact (hdecorator ready hkept inner.lexer _ _).andThen fun inside hinside =>
        hdecorator inside hinside lexer _ _

theorem sound_decorateTokens (hsteady : Registry.Steady Keeps Allowed)
    (hdecorator : decorator.IsSound Keeps Allowed) (h : Keeps registry) (lexer : Lexer)
    (memo : StyleMemo) (start : Nat) (tokens : List (List Char)) :
    Sound Keeps Allowed (decorateTokens decorator lexer memo registry start tokens) := by
  induction tokens generalizing memo registry start with
  | nil => exact .ok h []
  | cons token tokens ih =>
    rw [decorateTokens]
    split
    · exact (ih h _ _).after _
    · split
      · rename_i failure hclass
        rw [Lexer.classify_eq_error hclass]
        exact .error h hsteady.retries
      · split
        · rename_i language cut hcut
          exact (sound_decorateCut hsteady hdecorator h lexer language cut start).andThen
            fun after hafter => ih hafter _ _
        · exact (ih h _ _).after _

/-- What resolving keeps is kept at any depth of nesting. -/
theorem sound_decorateWithin (hsteady : Registry.Steady Keeps Allowed) (depth : Nat) :
    (decorateWithin depth).IsSound Keeps Allowed := by
  induction depth with
  | zero => exact fun registry h lexer source base => .error h hsteady.endless
  | succ depth ih =>
    intro registry h lexer source base
    rw [decorateWithin]
    split
    · rename_i failure htokens
      rw [Lexer.tokenize_eq_error htokens]
      exact .error h hsteady.retries
    · exact (sound_decorateTokens hsteady ih h lexer _ _ _).after _

theorem sound_decorateWith (hsteady : Registry.Steady Keeps Allowed) (h : Keeps registry)
    (lexer : Lexer) (source : List Char) (base : Nat) :
    Sound Keeps Allowed (registry.decorateWith lexer source base) := by
  have hraw : Sound Keeps Allowed (registry.decorateRaw lexer source base) :=
    sound_decorateWithin hsteady _ registry h lexer source base
  unfold Registry.decorateWith
  split
  · rename_i raw after heq
    rw [heq] at hraw
    exact .ok hraw.kept _
  · exact hraw

/-- What resolving keeps is kept by a decoration, which fails only as
it may. -/
theorem sound_decorate (hsteady : Registry.Steady Keeps Allowed) (h : Keeps registry)
    (id : Option String) (source : List Char) (base : Nat) :
    Sound Keeps Allowed (registry.decorate id source base) := by
  have hkept := hsteady.kept registry h id source
  have hfault := hsteady.fault registry h id source
  unfold Registry.decorate
  split
  · rename_i error after heq
    rw [heq] at hkept hfault
    exact .error hkept (hfault error rfl)
  · rename_i resolved after heq
    rw [heq] at hkept
    exact sound_decorateWith hsteady hkept _ source base

end

end Highlighter
