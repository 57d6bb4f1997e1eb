import Highlighter.Embedding
import Highlighter.Proofs.Text.Boundary
import Highlighter.Proofs.Union.Tokens
import Std.Data.HashMap.Lemmas

/-!
# The decorations of a source, as they are found

The decorations of a source come token by token, and those of an
embedded region come in place. `TokenStep` lists the three ways in
which a token is decorated, and `decorateTokens_cons` takes the first
token off a source. What holds of all decorations of a source follows
by induction on the tokens, for any depth of nesting:

* their offsets never fall, and each is between two characters of the
  source (`within_decorateWithin`);
* the first one is plain, where the source starts
  (`head?_decorateWithin`).
-/

set_option autoImplicit false

namespace Highlighter

/-! ### One result after the other -/

namespace Decorated

variable {first : Decorated} {second : Registry → Decorated} {before raw : Stream}
  {registry : Registry}

theorem after_eq_ok (h : first.after before = (.ok raw, registry)) :
    ∃ rest, first = (.ok rest, registry) ∧ raw = before ++ rest := by
  obtain ⟨result, state⟩ := first
  cases result with
  | error failure => cases h
  | ok rest =>
    cases h
    exact ⟨rest, rfl, rfl⟩

theorem andThen_eq_ok (h : first.andThen second = (.ok raw, registry)) :
    ∃ start middle rest, first = (.ok start, middle) ∧ second middle = (.ok rest, registry) ∧
      raw = start ++ rest := by
  obtain ⟨result, middle⟩ := first
  cases result with
  | error failure => cases h
  | ok start =>
    obtain ⟨rest, hrest, rfl⟩ := after_eq_ok h
    exact ⟨start, middle, rest, rfl, hrest, rfl⟩

end Decorated

/-! ### How a token is decorated -/

/-- How one token is decorated: what is put out, and the memo and the
registry after it. -/
inductive TokenStep (decorator : Decorator) (lexer : Lexer) (memo : StyleMemo)
    (registry : Registry) (token : List Char) (start : Nat) :
    Stream → StyleMemo → Registry → Prop where
  /-- The style of the token is remembered. -/
  | remembered {style : Style} (hmemo : memo[String.ofList token]? = some style) :
    TokenStep decorator lexer memo registry token start [⟨start, style⟩] memo registry
  /-- A region of the token is handed on. -/
  | handedOn {classified : Classification} {language : Option String} {cut : Text.Cut}
    {raw : Stream} {after : Registry} (hclass : lexer.classify token = .ok classified)
    (hcut : handedOn? token classified = some (language, cut))
    (hraw : decorateCut decorator registry lexer language cut start = (.ok raw, after)) :
    TokenStep decorator lexer memo registry token start raw memo after
  /-- The token has a style of its own, which is remembered from now
  on. -/
  | own {classified : Classification} (hclass : lexer.classify token = .ok classified)
    (hown : handedOn? token classified = none) :
    TokenStep decorator lexer memo registry token start [⟨start, ownStyle classified.style⟩]
      (memo.insert (String.ofList token) (ownStyle classified.style)) registry

variable {decorator : Decorator} {lexer : Lexer} {memo : StyleMemo}
  {registry after : Registry} {token : List Char} {tokens : List (List Char)} {start : Nat}
  {raw : Stream}

/-- The first token of a source is decorated, and then the others. -/
theorem decorateTokens_cons
    (h : decorateTokens decorator lexer memo registry start (token :: tokens)
      = (.ok raw, after)) :
    ∃ first memo' middle rest,
      TokenStep decorator lexer memo registry token start first memo' middle ∧
      decorateTokens decorator lexer memo' middle (start + Text.byteSize token) tokens
        = (.ok rest, after) ∧ raw = first ++ rest := by
  rw [decorateTokens] at h
  cases hmemo : memo[String.ofList token]? with
  | some style =>
    simp only [hmemo] at h
    obtain ⟨rest, hrest, rfl⟩ := Decorated.after_eq_ok h
    exact ⟨_, memo, registry, rest, .remembered hmemo, hrest, rfl⟩
  | none =>
    cases hclass : lexer.classify token with
    | error failure =>
      simp only [hmemo, hclass] at h
      cases h
    | ok classified =>
      cases hcut : handedOn? token classified with
      | some handed =>
        obtain ⟨language, cut⟩ := handed
        simp only [hmemo, hclass, hcut] at h
        obtain ⟨first, middle, rest, hfirst, hrest, rfl⟩ := Decorated.andThen_eq_ok h
        exact ⟨first, memo, middle, rest, .handedOn hclass hcut hfirst, hrest, rfl⟩
      | none =>
        simp only [hmemo, hclass, hcut] at h
        obtain ⟨rest, hrest, rfl⟩ := Decorated.after_eq_ok h
        exact ⟨_, _, registry, rest, .own hclass hcut, hrest, rfl⟩

/-- A token with a region gives three results in a row: of what is
before the region, of the region, and of what is after it. -/
theorem decorateCut_eq_ok {language : Option String} {cut : Text.Cut}
    (h : decorateCut decorator registry lexer language cut start = (.ok raw, after)) :
    ∃ before middle resolved ready body inside rest,
      decorator registry lexer cut.before start = (.ok before, middle) ∧
      middle.resolve language cut.body = (.ok resolved, ready) ∧
      decorator ready resolved.lexer cut.body (start + Text.byteSize cut.before)
        = (.ok body, inside) ∧
      decorator inside lexer cut.after
          (start + Text.byteSize cut.before + Text.byteSize cut.body) = (.ok rest, after) ∧
      raw = before ++ (body ++ rest) := by
  unfold decorateCut at h
  obtain ⟨before, middle, others, hbefore, hothers, rfl⟩ := Decorated.andThen_eq_ok h
  cases hresolved : middle.resolve language cut.body with
  | mk result ready =>
    cases result with
    | error error =>
      simp only [hresolved] at hothers
      cases hothers
    | ok resolved =>
      simp only [hresolved] at hothers
      obtain ⟨body, inside, rest, hbody, hrest, rfl⟩ := Decorated.andThen_eq_ok hothers
      exact ⟨before, middle, resolved, ready, body, inside, rest, hbefore, hresolved, hbody,
        hrest, rfl⟩

/-- Decorating a source puts a plain seed before its tokens. -/
theorem decorateWithin_succ_eq_ok {depth : Nat} {source : List Char} {base : Nat}
    (h : decorateWithin (depth + 1) registry lexer source base = (.ok raw, after)) :
    ∃ tokens rest, lexer.tokenize source = .ok tokens ∧
      decorateTokens (decorateWithin depth) lexer {} registry base tokens
        = (.ok rest, after) ∧ raw = ⟨base, .plain⟩ :: rest := by
  rw [decorateWithin] at h
  cases htokens : lexer.tokenize source with
  | error failure =>
    simp only [htokens] at h
    cases h
  | ok tokens =>
    simp only [htokens] at h
    obtain ⟨rest, hrest, rfl⟩ := Decorated.after_eq_ok h
    exact ⟨tokens, rest, rfl, hrest, rfl⟩

/-- A source that is one token with a style of its own. -/
theorem decorateWithin_own {depth base : Nat} {classified : Classification}
    (htokens : lexer.tokenize token = .ok [token]) (hclass : lexer.classify token = .ok classified)
    (hown : handedOn? token classified = none) :
    decorateWithin (depth + 1) registry lexer token base
      = (.ok [⟨base, .plain⟩, ⟨base, ownStyle classified.style⟩], registry) := by
  simp only [decorateWithin, htokens, decorateTokens, Std.HashMap.getElem?_empty, hclass, hown,
    Decorated.after, List.cons_append, List.nil_append]

/-- A source that is one token with a region. -/
theorem decorateWithin_handedOn {depth base : Nat} {classified : Classification}
    {language : Option String} {cut : Text.Cut} (htokens : lexer.tokenize token = .ok [token])
    (hclass : lexer.classify token = .ok classified)
    (hcut : handedOn? token classified = some (language, cut))
    (hraw : decorateCut (decorateWithin depth) registry lexer language cut base
      = (.ok raw, after)) :
    decorateWithin (depth + 1) registry lexer token base = (.ok (⟨base, .plain⟩ :: raw), after) := by
  simp only [decorateWithin, htokens, decorateTokens, Std.HashMap.getElem?_empty, hclass, hcut,
    hraw, Decorated.after, Decorated.andThen, List.cons_append, List.nil_append, List.append_nil]

/-- A region is cut out of the token. It is the first group, or it is
as long as that group and ends where the second group starts. -/
theorem embeddedRegion?_eq_some {captures : Regex.Captures} {cut : Text.Cut}
    (h : embeddedRegion? token captures = some cut) :
    ∃ group span, captures.first = some group ∧ 0 < group.length ∧
      Text.cut? span token = some cut ∧ span.length = group.length := by
  unfold embeddedRegion? at h
  obtain ⟨group, hfirst, h⟩ := Option.bind_eq_some_iff.mp h
  cases hempty : group.isEmpty with
  | true =>
    rw [hempty] at h
    cases h
  | false =>
    have hpos : 0 < group.length := by
      have hle := group.start_le_stop
      have hne : group.start ≠ group.stop := ne_of_beq_false hempty
      unfold Span.length
      omega
    have hgroup : Text.cut? group token = some cut → ∃ group span, captures.first = some group ∧
        0 < group.length ∧ Text.cut? span token = some cut ∧ span.length = group.length :=
      fun hcut => ⟨group, group, hfirst, hpos, hcut, rfl⟩
    simp only [hempty, Bool.false_eq_true, if_false] at h
    split at h
    · exact hgroup h
    · split at h
      · exact hgroup h
      · split at h
        · cases h
        · rename_i context _ _ hroom
          rw [Option.orElse_eq_orElse, Option.orElse_eq_or] at h
          rcases Option.or_eq_some_iff.mp h with hplace | ⟨-, hcut⟩
          · exact ⟨group, _, hfirst, hpos, hplace, Nat.sub_sub_self (Nat.not_lt.mp hroom)⟩
          · exact hgroup hcut

/-- A token that is handed on is an embedding, and has a region. -/
theorem handedOn?_eq_some {classified : Classification} {language : Option String}
    {cut : Text.Cut} (h : handedOn? token classified = some (language, cut)) :
    classified.style.isEmbedded = true ∧ classified.style.language? = language ∧
      classified.captures.bind (embeddedRegion? token) = some cut := by
  unfold handedOn? at h
  split at h
  · rename_i hembedded
    obtain ⟨found, hregion, heq⟩ := Option.map_eq_some_iff.mp h
    cases heq
    exact ⟨hembedded, rfl, hregion⟩
  · cases h

/-- A token that is not handed on is no embedding, and has its own
style, or it has no region, and is plain source. -/
theorem handedOn?_eq_none {classified : Classification}
    (h : handedOn? token classified = none) :
    (classified.style.isEmbedded = false ∧ ownStyle classified.style = classified.style) ∨
      (classified.style.isEmbedded = true ∧ ownStyle classified.style = .source ∧
        classified.captures.bind (embeddedRegion? token) = none) := by
  unfold handedOn? at h
  unfold ownStyle
  by_cases hembedded : classified.style.isEmbedded = true
  · rw [if_pos hembedded, Option.map_eq_none_iff] at h
    exact .inr ⟨hembedded, if_pos hembedded, h⟩
  · exact .inl ⟨Bool.eq_false_iff.mpr hembedded, if_neg hembedded⟩

/-- The cut of a region that is handed on loses nothing of the token. -/
theorem append_of_handedOn? {classified : Classification} {language : Option String}
    {cut : Text.Cut} (h : handedOn? token classified = some (language, cut)) :
    cut.before ++ cut.body ++ cut.after = token := by
  obtain ⟨-, -, hcut⟩ := handedOn?_eq_some h
  obtain ⟨captures, -, hregion⟩ := Option.bind_eq_some_iff.mp hcut
  obtain ⟨group, span, -, -, hspan, -⟩ := embeddedRegion?_eq_some hregion
  exact Text.append_of_cut? hspan

/-! ### Where the decorations are -/

/-- The decorations of a text that starts at an offset: their offsets
never fall, and each is between two characters of the text. -/
structure Stream.Within (text : List Char) (start : Nat) (raw : Stream) : Prop where
  sorted : raw.Pairwise fun first second => first.offset ≤ second.offset
  boundary : ∀ decoration ∈ raw, Text.IsBoundary text start decoration.offset

namespace Stream.Within

variable {text first second : List Char} {before rest : Stream}

theorem nil (text : List Char) (start : Nat) : Within text start [] where
  sorted := List.Pairwise.nil
  boundary := fun _ hmem => nomatch hmem

/-- One decoration where the text starts. -/
theorem atStart (text : List Char) (start : Nat) (style : Style) :
    Within text start [⟨start, style⟩] where
  sorted := List.pairwise_singleton _ _
  boundary := fun decoration hmem => by
    rw [List.mem_singleton.mp hmem]
    exact Text.IsBoundary.start text start

/-- The decorations of two texts in a row. -/
theorem append (hfirst : Within first start before)
    (hsecond : Within second (start + Text.byteSize first) rest) :
    Within (first ++ second) start (before ++ rest) where
  sorted := by
    refine List.pairwise_append.mpr ⟨hfirst.sorted, hsecond.sorted, ?_⟩
    intro earlier hearlier later hlater
    exact Nat.le_trans (hfirst.boundary earlier hearlier).le_stop
      (hsecond.boundary later hlater).le
  boundary := fun decoration hmem => by
    rcases List.mem_append.mp hmem with hmem | hmem
    · exact (hfirst.boundary decoration hmem).append_left second
    · exact (hsecond.boundary decoration hmem).append_right first

/-- A plain seed before the decorations of a text. -/
theorem cons (style : Style) (h : Within text start rest) :
    Within text start (⟨start, style⟩ :: rest) where
  sorted := List.pairwise_cons.mpr
    ⟨fun decoration hmem => (h.boundary decoration hmem).le, h.sorted⟩
  boundary := List.forall_mem_cons.mpr ⟨Text.IsBoundary.start text start, h.boundary⟩

end Stream.Within

/-- A decorator whose decorations stay within the source. -/
def Decorator.StaysWithin (decorator : Decorator) : Prop :=
  ∀ ⦃registry lexer source base raw after⦄,
    decorator registry lexer source base = (.ok raw, after) → Stream.Within source base raw

theorem within_decorateCut {language : Option String} {cut : Text.Cut}
    (hdecorator : decorator.StaysWithin)
    (h : decorateCut decorator registry lexer language cut start = (.ok raw, after)) :
    Stream.Within (cut.before ++ cut.body ++ cut.after) start raw := by
  obtain ⟨before, middle, resolved, ready, body, inside, rest, hbefore, -, hbody, hrest, rfl⟩ :=
    decorateCut_eq_ok h
  rw [List.append_assoc]
  exact (hdecorator hbefore).append ((hdecorator hbody).append (hdecorator hrest))

theorem within_tokenStep {first : Stream} {memo' : StyleMemo} (hdecorator : decorator.StaysWithin)
    (h : TokenStep decorator lexer memo registry token start first memo' after) :
    Stream.Within token start first := by
  cases h with
  | remembered hmemo => exact Stream.Within.atStart token start _
  | handedOn hclass hcut hraw =>
    rw [← append_of_handedOn? hcut]
    exact within_decorateCut hdecorator hraw
  | own hclass hown => exact Stream.Within.atStart token start _

theorem within_decorateTokens (hdecorator : decorator.StaysWithin)
    (h : decorateTokens decorator lexer memo registry start tokens = (.ok raw, after)) :
    Stream.Within tokens.flatten start raw := by
  induction tokens generalizing memo registry start raw with
  | nil =>
    cases h
    exact Stream.Within.nil _ _
  | cons token tokens ih =>
    obtain ⟨first, memo', middle, rest, hstep, hrest, rfl⟩ := decorateTokens_cons h
    rw [List.flatten_cons]
    exact (within_tokenStep hdecorator hstep).append (ih hrest)

/-- However deep embeddings nest, decorations stay within the source. -/
theorem within_decorateWithin (depth : Nat) : (decorateWithin depth).StaysWithin := by
  induction depth with
  | zero =>
    intro registry lexer source base raw after h
    cases h
  | succ depth ih =>
    intro registry lexer source base raw after h
    obtain ⟨tokens, rest, htokens, hrest, rfl⟩ := decorateWithin_succ_eq_ok h
    rw [← Union.flatten_tokens htokens]
    exact (within_decorateTokens ih hrest).cons .plain

/-- A source is plain where it starts, as long as nothing is written
over that. -/
theorem head?_decorateWithin {depth base : Nat} {source : List Char}
    (h : decorateWithin depth registry lexer source base = (.ok raw, after)) :
    raw.head? = some ⟨base, .plain⟩ := by
  cases depth with
  | zero => cases h
  | succ depth =>
    obtain ⟨tokens, rest, -, -, rfl⟩ := decorateWithin_succ_eq_ok h
    rfl

namespace Registry

/-- Compacting a stream does not change how a decoration fails. -/
theorem decorateWith_fst (registry : Registry) (lexer : Lexer) (source : List Char) (base : Nat) :
    (registry.decorateWith lexer source base).1
      = (registry.decorateRaw lexer source base).1.map
          fun raw => raw.compact base (Text.byteSize source) := by
  unfold decorateWith
  split
  · rename_i raw after hraw
    rw [hraw]
    rfl
  · rename_i hfailed
    cases hresult : registry.decorateRaw lexer source base with
    | mk outcome after =>
      cases outcome with
      | ok raw => exact absurd hresult (hfailed raw after)
      | error failure => rfl

end Registry

end Highlighter
