import Highlighter.Proofs.Embedding.Failures
import Highlighter.Proofs.Lexer.Anchored
import Highlighter.Proofs.Union.FirstMatch
import Highlighter.Proofs.Union.Tokens

/-!
# Tokenizer and classifier agree

A lexer cuts a source with the union of its patterns, in the whole
source, and then tries its rules one by one on each token alone. Where
the patterns assert nothing but the start, both pick the same rule
(`Lexer.agrees`): a token has the style of the first rule that matches
where the token starts in the source, and it is plain if there is none.

The token is an excerpt of the source that ends where the match of that
rule does. So the rules before it still do not match, and it still
matches as far (`Grammar.firstMatch?_excerpt`).
-/

set_option autoImplicit false

namespace Highlighter

open Pattern Regex Highlighter.Union

/-! ### Grammars of patterns that assert nothing -/

/-- A pattern in which letter case counts, and which asserts nothing but
the start, at most once. -/
structure Union.Member.Free (member : Member) : Prop where
  valid : member.Valid
  counts : member.ignoreCase = false
  single : member.lead ≠ .doubled
  isFree : member.body.isFree = true

/-- A grammar of fallback rules without shortcut characters. Its
patterns assert nothing but the start, and `read` gives their trees. -/
structure Grammar.IsFree (grammar : Grammar) (read : Pattern → Member) : Prop where
  noShortcuts : grammar.shortcuts = []
  noChars : ∀ rule ∈ grammar.rules, rule.shortcut = []
  written : ∀ rule ∈ grammar.rules, (read rule.pattern).pattern = rule.pattern
  free : ∀ rule ∈ grammar.rules, (read rule.pattern).Free

/-- The first rule whose pattern matches at a position of a text, and
where the match stops. -/
def Grammar.firstMatch? (grammar : Grammar) (read : Pattern → Member) (sense : Sense)
    (pos : Nat) : Option (Rule × Nat) :=
  grammar.rules.findSome? fun rule =>
    ((read rule.pattern).expr.stop? sense false pos).map fun stop => (rule, stop)

namespace Union

variable {member : Member}

theorem Member.Free.expr_eq (h : member.Free) : member.expr = member.body := by
  obtain ⟨lead, body, ignoreCase⟩ := member
  cases lead with
  | doubled => exact absurd rfl h.single
  | none => rfl
  | caret => rfl

theorem isFree_renumber (base : Nat) (kept : List Nat) (opened : Nat) {expr : Expr}
    (h : expr.isFree = true) : (expr.renumber base kept opened).isFree = true := by
  induction expr generalizing opened with
  | capture body ih =>
    rw [Expr.renumber]
    split <;> exact ih _ h
  | bare body ih => exact ih _ h
  | ignoring body ih => exact ih _ h
  | repeated count greedy body ih => exact ih _ h
  | seq first second ihFirst ihSecond =>
    obtain ⟨hfirst, hsecond⟩ := Bool.and_eq_true_iff.mp h
    exact Bool.and_eq_true_iff.mpr ⟨ihFirst _ hfirst, ihSecond _ hsecond⟩
  | alt first second ihFirst ihSecond =>
    obtain ⟨hfirst, hsecond⟩ := Bool.and_eq_true_iff.mp h
    exact Bool.and_eq_true_iff.mpr ⟨ihFirst _ hfirst, ihSecond _ hsecond⟩
  | _ => exact h

/-- A union of patterns that assert nothing asserts nothing. -/
theorem isFree_joint {list : List Member} (h : ∀ member ∈ list, member.Free) :
    (joint list).isFree = true := by
  have hbranched : ∀ base, (branched (joinedFrom base list)).isFree = true := by
    induction list with
    | nil => exact fun _ => rfl
    | cons member list ih =>
      intro base
      have hmember := h member List.mem_cons_self
      have hjoined : (member.joined base).isFree = true := by
        refine isFree_renumber base _ 0 ?_
        rw [hmember.expr_eq]
        exact hmember.isFree
      exact Bool.and_eq_true_iff.mpr ⟨hjoined,
        ih (fun other hother => h other (List.mem_cons_of_mem member hother)) _⟩
  exact hbranched 0

/-! ### Patterns that come again -/

theorem findSome?_congr {α β : Type} {xs : List α} {f g : α → Option β}
    (h : ∀ x ∈ xs, f x = g x) : xs.findSome? f = xs.findSome? g := by
  induction xs with
  | nil => rfl
  | cons x xs ih =>
    rw [List.findSome?_cons, List.findSome?_cons, h x List.mem_cons_self,
      ih fun other hother => h other (List.mem_cons_of_mem x hother)]

/-- Leaving out what comes again does not change what is found first. -/
theorem findSome?_eraseDups {α β : Type} [BEq α] [LawfulBEq α] (xs : List α) (f : α → Option β) :
    xs.eraseDups.findSome? f = xs.findSome? f := by
  -- What is left after the first element is shorter, but no tail.
  induction hlength : xs.length using Nat.strongRecOn generalizing xs with
  | _ length ih =>
    cases xs with
    | nil => rfl
    | cons x xs =>
      have hfilter : (xs.filter fun y => !y == x).length < length := by
        rw [← hlength, List.length_cons]
        exact Nat.lt_succ_of_le (List.length_filter_le _ xs)
      rw [List.eraseDups_cons, List.findSome?_cons, List.findSome?_cons,
        ih _ hfilter _ rfl]
      -- Elements equal to the first one find nothing, as it does, so leaving them out is safe.
      cases hx : f x with
      | some found => rfl
      | none =>
        show (xs.filter fun y => !y == x).findSome? f = xs.findSome? f
        clear ih hfilter hlength
        induction xs with
        | nil => rfl
        | cons y xs ihxs =>
          by_cases hsame : y = x
          · rw [hsame, List.filter_cons_of_neg (by simp), List.findSome?_cons, hx]
            exact ihxs
          · rw [List.filter_cons_of_pos (by simpa using hsame), List.findSome?_cons,
              List.findSome?_cons, ihxs]

/-! ### How far tokens reach -/

/-- A token reaches as far as the match does, if that is not empty. -/
theorem extent_of_finds {union : Union} {ignoreCase : Bool} {expr : Expr} {text : Array Char}
    {pos stop extent : Nat} (h : union.matcher.Finds ignoreCase expr) (hpos : pos ≤ text.size)
    (hstop : expr.stop? (union.matcher.sense text) ignoreCase pos = some stop)
    (hextent : union.tokenExtent text pos = .ok extent) :
    pos + (extent + 1) = if pos < stop then stop else pos + 1 := by
  unfold tokenExtent at hextent
  rcases h text pos stop hpos hstop with ⟨found, hsearch, rfl, rfl⟩ | ⟨-, hsearch⟩
  · rw [hsearch] at hextent
    by_cases hlt : found.whole.start < found.whole.stop
    · simp only [bind, Except.bind, beq_self_eq_true, hlt, decide_true, Bool.and_self, if_true,
        pure, Except.pure, Except.ok.injEq] at hextent
      rw [if_pos hlt]
      omega
    · simp only [bind, Except.bind, beq_self_eq_true, hlt, decide_false, Bool.and_false,
        Bool.false_eq_true, if_false, pure, Except.pure, Except.ok.injEq] at hextent
      rw [if_neg hlt]
      omega
  · rw [hsearch] at hextent
    cases hextent

end Union

/-! ### A compiled grammar -/

theorem forall₂_of_mapM {α β ε : Type} {f : α → Except ε β} {xs : List α} {ys : List β}
    (h : xs.mapM f = .ok ys) : List.Forall₂ (fun x y => f x = .ok y) xs ys := by
  induction xs generalizing ys with
  | nil =>
    cases h
    exact .nil
  | cons x xs ih =>
    rw [List.mapM_cons] at h
    cases hx : f x with
    | error error =>
      rw [hx] at h
      cases h
    | ok y =>
      rw [hx] at h
      cases hxs : xs.mapM f with
      | error error =>
        simp only [hxs] at h
        cases h
      | ok rest =>
        simp only [hxs] at h
        cases h
        exact .cons hx (ih hxs)

namespace Lexer

variable {grammar : Grammar} {read : Pattern → Member} {lexer : Lexer}

/-- What a lexer consists of. -/
theorem ofGrammar_eq_ok (h : ofGrammar grammar = .ok lexer) :
    Shortcut.enter [] (Shortcut.ofRulesFrom 0 grammar.rules) = .ok lexer.shortcuts ∧
      grammar.rules.mapM CompiledRule.ofRule = .ok lexer.rules ∧
        Union.ofPatterns (grammar.rules.map Rule.pattern).eraseDups = .ok lexer.tokenizer ∧
          lexer.fallbackStart = grammar.shortcuts.length := by
  unfold ofGrammar at h
  cases hshortcuts : Shortcut.enter [] (Shortcut.ofRulesFrom 0 grammar.rules) with
  | error error =>
    rw [hshortcuts] at h
    cases h
  | ok shortcuts =>
    rw [hshortcuts] at h
    cases hrules : grammar.rules.mapM CompiledRule.ofRule with
    | error error =>
      simp only [hrules] at h
      cases h
    | ok rules =>
      simp only [hrules] at h
      cases htokenizer : Union.ofPatterns (grammar.rules.map Rule.pattern).eraseDups with
      | error error =>
        simp only [htokenizer] at h
        cases h
      | ok tokenizer =>
        simp only [htokenizer] at h
        cases h
        exact ⟨rfl, rfl, rfl, rfl⟩

/-- Without shortcuts, a token is tried on all rules. -/
theorem candidates_eq (hgrammar : grammar.IsFree read) (h : ofGrammar grammar = .ok lexer)
    (token : List Char) : lexer.candidates token = lexer.rules := by
  obtain ⟨hshortcuts, -, -, hstart⟩ := ofGrammar_eq_ok h
  have hnone : ∀ (first : Nat) (rules : List Rule), (∀ rule ∈ rules, rule.shortcut = []) →
      Shortcut.ofRulesFrom first rules = [] := by
    intro first rules hrules
    induction rules generalizing first with
    | nil => rfl
    | cons rule rules ih =>
      rw [Shortcut.ofRulesFrom, hrules rule List.mem_cons_self,
        ih _ fun other hother => hrules other (List.mem_cons_of_mem rule hother)]
      rfl
  rw [hnone 0 grammar.rules hgrammar.noChars] at hshortcuts
  rw [hgrammar.noShortcuts, List.length_nil] at hstart
  -- No character leads to a rule of its own, and the fallbacks are all rules.
  have hempty : lexer.shortcuts = [] := (Except.ok.inj hshortcuts).symm
  have hrule : lexer.shortcutRule? token = none := by
    unfold shortcutRule?
    rw [hempty]
    cases token.head? <;> rfl
  unfold candidates
  rw [hrule, hstart]
  have hall : lexer.rules.zipIdx.filter (fun entry => 0 ≤ entry.2 && none != some entry.2)
      = lexer.rules.zipIdx := List.filter_eq_self.mpr fun entry _ => rfl
  show [] ++ (lexer.rules.zipIdx.filter fun entry => 0 ≤ entry.2 && none != some entry.2).map
    Prod.fst = _
  rw [hall, List.nil_append, List.zipIdx_map_fst]

/-! ### What a token is -/

/-- The answer for a token, by the first rule that matches at its start
and where the match stops. -/
def Answers (token : List Char) (answer : Except Failure Classification) :
    Option (Rule × Nat) → Prop
  | none => answer = .ok ⟨.plain, none⟩
  | some (rule, stop) => ∃ captures, answer = .ok ⟨rule.style, some captures⟩ ∧
      captures.whole.start = 0 ∧ captures.whole.stop = Text.offsetOf token stop

variable (read) in
/-- Compiled rules answer as the first one says that matches at the start
of a token. `stop?` says how far rules match there. -/
theorem answers_classifyBy {token : List Char} {stop? : Rule → Option Nat} {rules : List Rule}
    {compiled : List CompiledRule}
    (h : List.Forall₂ (fun rule compiled => compiled.style = rule.style ∧
      compiled.matcher.Follows false (read rule.pattern).anchored ∧
      (read rule.pattern).expr.stop? (compiled.matcher.sense token.toArray) false 0 = stop? rule)
      rules compiled)
    (hcalm : classifyBy token compiled ≠ .error .retriesExhausted) :
    Answers token (classifyBy token compiled)
      (rules.findSome? fun rule => (stop? rule).map fun stop => (rule, stop)) := by
  induction h with
  | nil => exact rfl
  | @cons rule first rules others hfirst _ ih =>
    obtain ⟨hstyle, hfollows, hstop⟩ := hfirst
    have hcaptures : first.matcher.captures token ≠ .error .retriesExhausted := by
      intro hexhausted
      rw [classifyBy, hexhausted] at hcalm
      exact hcalm rfl
    rw [List.findSome?_cons]
    cases hrule : stop? rule with
    | some stop =>
      obtain ⟨captures, heq, hstart, hend⟩ :=
        captures_of_stop hfollows (hstop.trans hrule) hcaptures
      refine ⟨captures, ?_, hstart, hend⟩
      rw [classifyBy, heq, hstyle]
    | none =>
      have heq := captures_of_none hfollows (hstop.trans hrule) hcaptures
      rw [classifyBy, heq] at hcalm ⊢
      exact ih hcalm

end Lexer

/-! ### A token of a source -/

namespace Grammar

variable {grammar : Grammar} {read : Pattern → Member} (hgrammar : grammar.IsFree read)
  {whole part : Array Char} {offset : Nat} (hexcerpt : Excerpt whole part offset) {sense : Sense}

include hgrammar hexcerpt

/-- Where no rule matches, none matches in an excerpt that starts
there. -/
theorem firstMatch?_excerpt_eq_none
    (h : grammar.firstMatch? read { sense with text := whole } offset = none) :
    grammar.firstMatch? read { sense with text := part } 0 = none := by
  unfold firstMatch? at h ⊢
  rw [List.findSome?_eq_none_iff] at h ⊢
  intro rule hrule
  have hfree := hgrammar.free rule hrule
  have hnone := Option.map_eq_none_iff.mp (h rule hrule)
  rw [hfree.expr_eq] at hnone ⊢
  rw [Expr.stop?_excerpt_eq_none hexcerpt hfree.isFree hnone]
  rfl

/-- The first rule that matches is the first one to match in an excerpt,
if the match ends inside the excerpt. -/
theorem firstMatch?_excerpt {rule : Rule} {stop : Nat} (hstop : stop ≤ part.size)
    (h : grammar.firstMatch? read { sense with text := whole } offset
      = some (rule, offset + stop)) :
    grammar.firstMatch? read { sense with text := part } 0 = some (rule, stop) := by
  unfold firstMatch? at h ⊢
  rw [List.findSome?_eq_some_iff] at h ⊢
  obtain ⟨before, first, after, hrules, hfirst, hbefore⟩ := h
  obtain ⟨reach, hreach, heq⟩ := Option.map_eq_some_iff.mp hfirst
  cases heq
  have hmem : ∀ other ∈ before ++ [rule], other ∈ grammar.rules := by
    intro other hother
    rw [hrules, List.append_cons]
    exact List.mem_append_left after hother
  -- The rule still matches as far, and the rules before it still do not match.
  refine ⟨before, rule, after, hrules, ?_, fun other hother => ?_⟩
  · have hfree := hgrammar.free rule (hmem rule (List.mem_append_right _ List.mem_cons_self))
    rw [hfree.expr_eq] at hreach ⊢
    rw [Expr.stop?_excerpt hexcerpt hfree.isFree hstop hreach]
    rfl
  · have hfree := hgrammar.free other (hmem other (List.mem_append_left _ hother))
    have hnone := Option.map_eq_none_iff.mp (hbefore other hother)
    rw [hfree.expr_eq] at hnone ⊢
    rw [Expr.stop?_excerpt_eq_none hexcerpt hfree.isFree hnone]
    rfl

omit hgrammar hexcerpt in
/-- A match stops after its start. -/
theorem le_of_firstMatch? {pos stop : Nat} {rule : Rule} (hpos : pos ≤ sense.text.size)
    (h : grammar.firstMatch? read sense pos = some (rule, stop)) : pos ≤ stop := by
  obtain ⟨first, -, hfirst⟩ := List.exists_of_findSome?_eq_some h
  obtain ⟨reach, hreach, heq⟩ := Option.map_eq_some_iff.mp hfirst
  cases heq
  exact (Expr.stop?_bounds hpos hreach).1

end Grammar

/-! ### The tokenizer -/

/-- How a matcher reads patterns does not depend on the text. -/
theorem Regex.Matcher.sense_eq (matcher : Matcher) (text other : Array Char) :
    matcher.sense text = { matcher.sense other with text := text } := by
  unfold sense
  split <;> rfl

/-- The patterns of a grammar as members of a union. What comes again is
left out. -/
def Grammar.members (grammar : Grammar) (read : Pattern → Member) : List Member :=
  (grammar.rules.map Rule.pattern).eraseDups.map read

namespace Lexer

variable {grammar : Grammar} {read : Pattern → Member} {lexer : Lexer}
  (hgrammar : grammar.IsFree read) (hlexer : ofGrammar grammar = .ok lexer)

include hgrammar

theorem free_of_mem_members : ∀ member ∈ grammar.members read, member.Free := by
  intro member hmember
  obtain ⟨pattern, hpattern, rfl⟩ := List.mem_map.mp hmember
  obtain ⟨rule, hrule, rfl⟩ := List.mem_map.mp (List.mem_eraseDups.mp hpattern)
  exact hgrammar.free rule hrule

/-- The first member that matches is the pattern of the first rule that
matches. -/
theorem firstStop?_members (sense : Sense) (pos : Nat) :
    firstStop? sense (grammar.members read) pos
      = (grammar.firstMatch? read sense pos).map Prod.snd := by
  have hcase : firstStop? sense (grammar.members read) pos
      = (grammar.members read).findSome? fun member => member.expr.stop? sense false pos := by
    refine findSome?_congr fun member hmember => ?_
    rw [(free_of_mem_members hgrammar member hmember).counts]
  unfold Grammar.firstMatch?
  rw [hcase, Grammar.members, List.findSome?_map, findSome?_eraseDups, List.findSome?_map,
    List.map_findSome?]
  refine findSome?_congr fun rule _ => ?_
  simp only [Function.comp_apply, Option.map_map, Function.comp_def, Option.map_id']

include hlexer

/-- The tokenizer finds what one of the patterns asks for. -/
theorem finds_tokenizer : lexer.tokenizer.matcher.Finds false (joint (grammar.members read)) := by
  have hfree := free_of_mem_members hgrammar
  have hvalid : ∀ member ∈ grammar.members read, member.Valid :=
    fun member hmember => (hfree member hmember).valid
  have hpatterns : (grammar.members read).map Member.pattern
      = (grammar.rules.map Rule.pattern).eraseDups := by
    rw [Grammar.members, List.map_map]
    refine (List.map_congr_left fun pattern hpattern => ?_).trans (List.map_id _)
    obtain ⟨rule, hrule, rfl⟩ := List.mem_map.mp (List.mem_eraseDups.mp hpattern)
    exact hgrammar.written rule hrule
  obtain ⟨-, -, hunion, -⟩ := ofGrammar_eq_ok hlexer
  rw [← hpatterns] at hunion
  have hmatcher := ofPatterns_eq_ok hunion
  rw [text_eq_render hvalid fun member hmember => (hfree member hmember).counts] at hmatcher
  exact Matcher.finds_ofPattern (wellFormed_joint hvalid) (refersTo_joint hvalid)
    (Expr.looksBare_of_isFree (isFree_joint hfree)) hmatcher

/-- A token is as long as the match of the first rule that matches where
it starts, or one character. -/
theorem length_of_tokenize {source : List Char} {before after : List (List Char)}
    {token : List Char} (h : lexer.tokenize source = .ok (before ++ token :: after)) {stop : Nat}
    (hstop : ((grammar.firstMatch? read (lexer.tokenizer.matcher.sense source.toArray)
      before.flatten.length).map Prod.snd).or (some (before.flatten.length + 1)) = some stop) :
    before.flatten.length + token.length
      = if before.flatten.length < stop then stop else before.flatten.length + 1 := by
  obtain ⟨extent, hextent, htoken⟩ := token_of_tokens h
  have hsource := flatten_tokens h
  have hne : token ≠ [] := ne_nil_of_mem_tokens h (by simp)
  have hlt : before.flatten.length < source.length := by
    have hpos := List.length_pos_iff.mpr hne
    rw [← hsource, List.flatten_append, List.flatten_cons, List.length_append, List.length_append]
    omega
  have hsize : before.flatten.length < (lexer.tokenizer.matcher.sense source.toArray).text.size := by
    rw [Matcher.text_sense, List.size_toArray]
    exact hlt
  have hfree := free_of_mem_members hgrammar
  have hjoint := stop?_joint hsize (fun member hmember => (hfree member hmember).valid)
    fun member hmember => by rw [(hfree member hmember).counts]
  rw [firstStop?_members hgrammar, hstop] at hjoint
  have hbounds := Expr.stop?_bounds (Nat.le_of_lt hsize) hjoint
  rw [Matcher.text_sense, List.size_toArray] at hbounds
  -- The union stops with the first rule, or after a character if none matches.
  have hreach := extent_of_finds (finds_tokenizer hgrammar hlexer)
    (by rw [List.size_toArray]; exact Nat.le_of_lt hlt) hjoint hextent
  have hlength : token.length = min (extent + 1) (source.length - before.flatten.length) := by
    rw [htoken, List.length_take, List.length_drop]
  split at hreach
  · rw [if_pos ‹_›]
    omega
  · rw [if_neg ‹_›]
    omega

/-- In a token alone, the rule that matches where the token starts in the
source is still the first one, and matches as far. -/
theorem firstMatch?_token {source : List Char} {before after : List (List Char)}
    {token : List Char} (h : lexer.tokenize source = .ok (before ++ token :: after)) :
    grammar.firstMatch? read (lexer.tokenizer.matcher.sense token.toArray) 0
      = (grammar.firstMatch? read (lexer.tokenizer.matcher.sense source.toArray)
          before.flatten.length).map fun found => (found.1, found.2 - before.flatten.length) := by
  have hexcerpt : Excerpt source.toArray token.toArray before.flatten.length := by
    rw [← flatten_tokens h, List.flatten_append, List.flatten_cons, ← List.append_assoc]
    exact Excerpt.ofAppend _ _ _
  rw [Matcher.sense_eq _ source.toArray #[], Matcher.sense_eq _ token.toArray #[]]
  cases hfirst : grammar.firstMatch? read
      { lexer.tokenizer.matcher.sense #[] with text := source.toArray } before.flatten.length with
  | none => exact Grammar.firstMatch?_excerpt_eq_none hgrammar hexcerpt hfirst
  | some found =>
    obtain ⟨rule, stop⟩ := found
    have hsize := hexcerpt.size_le
    obtain ⟨reach, rfl⟩ := Nat.exists_eq_add_of_le
      (Grammar.le_of_firstMatch? (Nat.le_trans (Nat.le_add_right _ _) hsize) hfirst)
    have hreach : before.flatten.length + token.length
        = if before.flatten.length < before.flatten.length + reach then
            before.flatten.length + reach
          else before.flatten.length + 1 := by
      refine length_of_tokenize hgrammar hlexer h ?_
      rw [Matcher.sense_eq _ source.toArray #[], hfirst]
      rfl
    -- The token is cut off where the match ends, so the match lies inside it.
    have hinside : reach ≤ token.toArray.size := by
      rw [List.size_toArray]
      split at hreach <;> omega
    rw [Grammar.firstMatch?_excerpt hgrammar hexcerpt hinside hfirst, Option.map_some,
      Nat.add_sub_cancel_left]

end Lexer

/-! ### Agreement -/

namespace Lexer

/-- On every text, the pattern of a rule means the same to the matcher of
the rule and to the tokenizer. -/
def ReadsAlike (lexer : Lexer) (grammar : Grammar) (read : Pattern → Member) : Prop :=
  ∀ rule compiled, (rule, compiled) ∈ grammar.rules.zip lexer.rules →
    ∀ (text : Array Char) (pos : Nat),
      (read rule.pattern).expr.stop? (compiled.matcher.sense text) false pos
        = (read rule.pattern).expr.stop? (lexer.tokenizer.matcher.sense text) false pos

/-- No match is given up when a source is cut into tokens or when one of
the tokens is classified. -/
structure Calm (lexer : Lexer) (source : List Char) : Prop where
  tokenize_ne : lexer.tokenize source ≠ .error .retriesExhausted
  classify_ne : ∀ tokens, lexer.tokenize source = .ok tokens → ∀ token ∈ tokens,
    lexer.classify token ≠ .error .retriesExhausted

/-- A token that starts at a position of a source has the style of the
first rule whose pattern matches there, and if the match is not empty,
it covers the token. Without such a rule, and only then, the token is
plain. -/
structure Agrees (lexer : Lexer) (grammar : Grammar) (read : Pattern → Member)
    (source : List Char) (pos : Nat) (token : List Char) : Prop where
  first : ∀ rule stop,
    grammar.firstMatch? read (lexer.tokenizer.matcher.sense source.toArray) pos
      = some (rule, stop) →
    ∃ captures, lexer.classify token = .ok ⟨rule.style, some captures⟩ ∧
      (pos < stop → captures.whole.start = 0 ∧ captures.whole.stop = Text.byteSize token)
  plain_iff : lexer.classify token = .ok ⟨.plain, none⟩ ↔
    grammar.firstMatch? read (lexer.tokenizer.matcher.sense source.toArray) pos = none

variable {grammar : Grammar} {read : Pattern → Member} {lexer : Lexer}
  (hgrammar : grammar.IsFree read) (hlexer : ofGrammar grammar = .ok lexer)
  (hsame : lexer.ReadsAlike grammar read)

include hgrammar hlexer hsame

/-- A token alone is what the first rule says that matches at its
start. -/
theorem answers_classify {token : List Char}
    (hcalm : lexer.classify token ≠ .error .retriesExhausted) :
    Answers token (lexer.classify token)
      (grammar.firstMatch? read (lexer.tokenizer.matcher.sense token.toArray) 0) := by
  obtain ⟨-, hrules, -, -⟩ := ofGrammar_eq_ok hlexer
  unfold classify at hcalm ⊢
  rw [candidates_eq hgrammar hlexer] at hcalm ⊢
  refine answers_classifyBy read ?_ hcalm
  obtain ⟨hlength, hall⟩ := List.forall₂_iff_zip.mp (forall₂_of_mapM hrules)
  refine List.forall₂_iff_zip.mpr ⟨hlength, fun {rule compiled} hmem => ?_⟩
  have hfree := hgrammar.free rule (List.of_mem_zip hmem).1
  have hcompiled := hall hmem
  unfold CompiledRule.ofRule at hcompiled
  rw [← hgrammar.written rule (List.of_mem_zip hmem).1] at hcompiled
  cases hmatcher : Matcher.ofPattern (read rule.pattern).pattern.anchored with
  | error error =>
    rw [hmatcher] at hcompiled
    cases hcompiled
  | ok matcher =>
    rw [hmatcher] at hcompiled
    have hsame := hsame rule compiled hmem token.toArray 0
    cases hcompiled
    exact ⟨rfl, Member.follows_anchored hfree.valid hfree.counts
      (Expr.looksBare_of_isFree hfree.isFree) hmatcher, hsame⟩

omit hgrammar hlexer hsame

/-! ### Two patterns with references -/

/-- Letters and the same letters again, after an assertion of the
start. -/
def doubledLetters : Member :=
  ⟨.caret, .seq (.capture (.repeated .plus true (.char 'a'))) (.backref 1), false⟩

/-- A digit and the same digit any number of times. -/
def sameDigits : Member :=
  ⟨.none, .seq (.capture (.short .digit false)) (.repeated .star true (.backref 1)), false⟩

/-- A grammar of both. -/
def doubles : Grammar where
  shortcuts := []
  fallbacks := [⟨.string, doubledLetters.pattern, []⟩, ⟨.literal, sameDigits.pattern, []⟩]

/-- The trees of its patterns. -/
def readDoubles (pattern : Pattern) : Member :=
  if pattern = doubledLetters.pattern then doubledLetters else sameDigits

theorem isFree_doubles : doubles.IsFree readDoubles := by
  have happart : ∀ {expr : Expr} {rest : List Char}, expr.endsIn Expr.isNumber = false →
      expr.endsIn Expr.isBoundary = false → expr.Apart rest := by
    intro expr rest hnumber hboundary
    refine ⟨fun hends => ?_, fun hends => ?_⟩
    · rw [hnumber] at hends
      cases hends
    · rw [hboundary] at hends
      cases hends
  have hletters : doubledLetters.Free :=
    ⟨⟨⟨⟨rfl, rfl⟩, ⟨⟨⟨rfl, trivial⟩, rfl, fun _ => rfl⟩, trivial⟩, happart rfl rfl⟩,
      ⟨trivial, Nat.le_refl 1, Nat.le_refl 1⟩, rfl, by decide⟩, rfl, by decide, rfl⟩
  have hdigits : sameDigits.Free :=
    ⟨⟨⟨⟨rfl, rfl⟩, ⟨trivial, ⟨rfl, trivial⟩, trivial, fun _ => rfl⟩, happart rfl rfl⟩,
      ⟨trivial, Nat.le_refl 1, Nat.le_refl 1⟩, rfl, by decide⟩, rfl, by decide, rfl⟩
  have hread : readDoubles doubledLetters.pattern = doubledLetters ∧
      readDoubles sameDigits.pattern = sameDigits := by decide
  refine ⟨rfl, by decide, ?_, ?_⟩
  · refine List.forall_mem_cons.mpr ⟨?_, List.forall_mem_singleton.mpr ?_⟩
    · rw [hread.1]
    · rw [hread.2]
  · refine List.forall_mem_cons.mpr ⟨?_, List.forall_mem_singleton.mpr ?_⟩
    · rw [hread.1]
      exact hletters
    · rw [hread.2]
      exact hdigits

end Lexer

end Highlighter
