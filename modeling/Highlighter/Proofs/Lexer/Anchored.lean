import Highlighter.Lexer
import Highlighter.Proofs.Pattern.Excerpt
import Highlighter.Proofs.Regex.Compiled
import Highlighter.Proofs.Union.Joined

/-!
# Rules on a token

A rule is compiled with an assertion of the start before its pattern.
On a token it matches as the tree of its pattern does at the start
(`captures_of_stop`), and nowhere else (`captures_of_none`). So a token
is what the first rule says whose tree matches at its start
(`classifyBy_of_stops`), unless a match is given up.
-/

set_option autoImplicit false

namespace Highlighter

open Pattern Regex Highlighter.Union

/-! ### Patterns as they are written -/

namespace Pattern.Expr

theorem render_afterStart (expr : Expr) : expr.afterStart.render = '^' :: expr.render := by
  induction expr with
  | alt first second ihFirst => rw [afterStart, render, ihFirst, render, List.cons_append]
  | _ => rfl

/-- At the start of a text, asserting the start changes nothing. -/
theorem ways_afterStart (sense : Sense) (ignoreCase : Bool) (opened : Nat) (expr : Expr)
    {place : Nat × Marks} (hstart : place.1 = 0) :
    expr.afterStart.ways sense ignoreCase opened place
      = expr.ways sense ignoreCase opened place := by
  have hrow : ∀ expr : Expr, (seq textStart expr).ways sense ignoreCase opened place
      = expr.ways sense ignoreCase opened place := by
    intro expr
    show (Ways.check (place.1 == 0) place).flatMap _ = _
    rw [hstart]
    exact List.flatMap_singleton _ _
  induction expr with
  | alt first second ihFirst => rw [afterStart, ways, ihFirst, captures_afterStart, ways]
  | _ => exact hrow _

/-- An expression without assertions has none of the look-around. -/
theorem looksBare_of_isFree {expr : Expr} (h : expr.isFree = true) : expr.looksBare = true := by
  induction expr with
  | capture body ih => exact ih h
  | bare body ih => exact ih h
  | ignoring body ih => exact ih h
  | repeated count greedy body ih => exact ih h
  | look behind negated body => cases h
  | seq first second ihFirst ihSecond =>
    obtain ⟨hfirst, hsecond⟩ := Bool.and_eq_true_iff.mp h
    exact Bool.and_eq_true_iff.mpr ⟨ihFirst hfirst, ihSecond hsecond⟩
  | alt first second ihFirst ihSecond =>
    obtain ⟨hfirst, hsecond⟩ := Bool.and_eq_true_iff.mp h
    exact Bool.and_eq_true_iff.mpr ⟨ihFirst hfirst, ihSecond hsecond⟩
  | _ => rfl

theorem looksBare_afterStart (expr : Expr) : expr.afterStart.looksBare = expr.looksBare := by
  induction expr with
  | alt first second ihFirst => rw [afterStart, looksBare, ihFirst, looksBare]
  | _ => rfl

end Pattern.Expr

namespace Union.Member

/-- A pattern as it is written, with what stands before it. -/
def written (member : Member) : Expr :=
  match member.lead with
  | .none => member.body
  | .caret => member.body.afterStart
  | .doubled => member.body.afterStart.afterStart

/-- A pattern as a rule asks for it: at the start of a text only. -/
def anchored (member : Member) : Expr := .seq .textStart (.bare member.written)

variable {member : Member}

theorem render_written (member : Member) :
    member.pattern.source = String.ofList member.written.render := by
  obtain ⟨lead, body, ignoreCase⟩ := member
  cases lead with
  | none => rfl
  | caret =>
    rw [written, Expr.render_afterStart]
    rfl
  | doubled =>
    rw [written, Expr.render_afterStart, Expr.render_afterStart]
    rfl

/-- The text that a rule is compiled from. -/
theorem render_anchored (hcase : member.ignoreCase = false) :
    member.pattern.anchored = String.ofList member.anchored.render := by
  have hsource := member.render_written
  have hignore : member.pattern.ignoreCase = false := hcase
  unfold Pattern.anchored
  rw [hignore, hsource, ← String.toList_inj]
  simp [anchored, Expr.render]

theorem wellFormed_written (h : member.Valid) : member.written.WellFormed := by
  obtain ⟨lead, body, ignoreCase⟩ := member
  cases lead with
  | none => exact h.wellFormed
  | caret => exact wellFormed_afterStart h.wellFormed
  | doubled => exact wellFormed_afterStart (wellFormed_afterStart h.wellFormed)

theorem refsOpened_written (h : member.Valid) : member.written.RefsOpened 0 := by
  obtain ⟨lead, body, ignoreCase⟩ := member
  cases lead with
  | none => exact h.refsOpened
  | caret => exact refsOpened_afterStart h.refsOpened
  | doubled => exact refsOpened_afterStart (refsOpened_afterStart h.refsOpened)

theorem looksBare_written (member : Member) :
    member.written.looksBare = member.body.looksBare := by
  obtain ⟨lead, body, ignoreCase⟩ := member
  cases lead with
  | none => rfl
  | caret => exact Expr.looksBare_afterStart body
  | doubled =>
    rw [written, Expr.looksBare_afterStart, Expr.looksBare_afterStart]

/-- At the start of a text, a pattern matches as it is meant to match
anywhere. -/
theorem stop?_written (member : Member) (sense : Sense) (ignoreCase : Bool) :
    member.written.stop? sense ignoreCase 0 = member.expr.stop? sense ignoreCase 0 := by
  obtain ⟨lead, body, ignoring⟩ := member
  unfold Expr.stop?
  cases lead with
  | none => rfl
  | caret =>
    show (body.afterStart.ways sense ignoreCase 0 (0, Marks.none)).head?.map Prod.fst = _
    rw [Expr.ways_afterStart sense ignoreCase 0 body rfl]
    rfl
  | doubled =>
    show (body.afterStart.afterStart.ways sense ignoreCase 0 (0, Marks.none)).head?.map Prod.fst
      = (body.afterStart.ways sense ignoreCase 0 (0, Marks.none)).head?.map Prod.fst
    rw [Expr.ways_afterStart sense ignoreCase 0 body.afterStart rfl]

/-- A rule matches at the start as its pattern does. -/
theorem stop?_anchored (member : Member) (sense : Sense) (ignoreCase : Bool) (pos : Nat) :
    member.anchored.stop? sense ignoreCase pos
      = if pos = 0 then member.expr.stop? sense ignoreCase 0 else none := by
  show ((Ways.check (pos == 0) (pos, Marks.none)).flatMap
    (member.written.ways sense ignoreCase 0)).head?.map Prod.fst = _
  by_cases hstart : pos = 0
  · subst hstart
    rw [if_pos rfl, ← member.stop?_written sense ignoreCase, beq_self_eq_true, Ways.check,
      if_pos rfl, List.flatMap_singleton]
    rfl
  · rw [if_neg hstart, beq_eq_false_iff_ne.mpr hstart]
    rfl

/-- The matcher of a rule follows its pattern. -/
theorem follows_anchored (h : member.Valid) (hcase : member.ignoreCase = false)
    (hbare : member.body.looksBare = true) {matcher : Matcher}
    (hmatcher : Matcher.ofPattern member.pattern.anchored = .ok matcher) :
    matcher.Follows false member.anchored := by
  have hcompiles : Matcher.ofPattern? (String.ofList member.anchored.render) = some matcher := by
    rw [render_anchored hcase] at hmatcher
    unfold Matcher.ofPattern at hmatcher
    split at hmatcher
    · cases hmatcher
      assumption
    · cases hmatcher
  have hwf : member.anchored.WellFormed :=
    ⟨⟨rfl, rfl⟩, ⟨trivial, wellFormed_written h⟩, (fun hends => by cases hends),
      (fun hends => by cases hends)⟩
  have hrefs : ∀ group, member.anchored.refersTo group = true →
      1 ≤ group ∧ group ≤ member.anchored.captures := by
    intro group hgroup
    exact lt_of_refersTo (show member.anchored.RefsOpened 0 from ⟨trivial, refsOpened_written h⟩)
      hgroup |>.imp_right fun hle => Nat.zero_add member.anchored.captures ▸ hle
  exact Matcher.follows_ofPattern hwf hrefs ((looksBare_written member).trans hbare) hcompiles

end Union.Member

/-! ### What a rule captures -/

section Captures

variable {matcher : Matcher} {member : Member} (h : matcher.Follows false member.anchored)
  {token : List Char}

include h

/-- A rule captures what its pattern matches at the start of a token. -/
theorem captures_of_stop {stop : Nat}
    (hstop : member.expr.stop? (matcher.sense token.toArray) false 0 = some stop)
    (hcalm : matcher.captures token ≠ .error .retriesExhausted) :
    ∃ captures, matcher.captures token = .ok (some captures) ∧ captures.whole.start = 0 ∧
      captures.whole.stop = Text.offsetOf token stop := by
  have hanchored : member.anchored.stop? (matcher.sense token.toArray) false 0 = some stop := by
    rw [Member.stop?_anchored, if_pos rfl, hstop]
  unfold Matcher.captures at hcalm ⊢
  rcases h.finds token.toArray 0 stop (Nat.zero_le _) hanchored with
    ⟨found, hsearch, hstart, hend⟩ | ⟨-, hsearch⟩
  · rw [hsearch]
    refine ⟨_, rfl, ?_, ?_⟩
    · show Text.offsetOf token found.whole.start = 0
      rw [hstart]
      rfl
    · show Text.offsetOf token found.whole.stop = _
      rw [hend]
  · rw [hsearch] at hcalm
    exact absurd rfl hcalm

/-- A rule captures nothing where its pattern does not match at the
start. -/
theorem captures_of_none
    (hnone : member.expr.stop? (matcher.sense token.toArray) false 0 = none)
    (hcalm : matcher.captures token ≠ .error .retriesExhausted) :
    matcher.captures token = .ok none := by
  have hanchored : ∀ start, 0 ≤ start →
      member.anchored.stop? (matcher.sense token.toArray) false start = none := by
    intro start _
    rw [Member.stop?_anchored]
    split
    · exact hnone
    · rfl
  unfold Matcher.captures at hcalm ⊢
  rcases h.misses token.toArray 0 hanchored with hsearch | ⟨-, hsearch⟩
  · rw [hsearch]
    rfl
  · rw [hsearch] at hcalm
    exact absurd rfl hcalm

end Captures

end Highlighter
