import Highlighter.Proofs.Regex.Compiled
import Highlighter.Proofs.Text.Boundary
import Highlighter.Proofs.Union.Joined

/-!
# A union takes the first pattern that matches

The token at a position ends where the first pattern of the union that
matches there stops, or after one character, if none matches or if the
match is empty (`tokenAt_first`). Patterns match as `Expr.ways` says,
in the order of their choices and each on its own: that a union strips
their assertions, and renumbers their groups, does not show.

The matcher of a union follows the order of choices, unless a group
that is referred to opens in a look-around. There it may not ask again
for what was found, so that it follows the order is then assumed.
-/

set_option autoImplicit false

namespace Highlighter.Union

open Pattern Regex

/-- Where a token stops that starts at a position: with the match of the
first pattern that matches there, or after one character, if no pattern
matches or if the match is empty. -/
def tokenStop (sense : Sense) (list : List Member) (pos : Nat) : Nat :=
  match firstStop? sense list pos with
  | some stop => if pos < stop then stop else pos + 1
  | none => pos + 1

/-- The token at a position stops at `stop`, unless the matcher gives up
after too many retries. -/
def TokenStops (union : Union) (text : List Char) (pos stop : Nat) : Prop :=
  (∃ span, union.tokenAt text (Text.offsetOf text pos) = .ok span ∧
    span.start = Text.offsetOf text pos ∧ span.stop = Text.offsetOf text stop) ∨
  union.matcher.limit ≠ none ∧
    union.tokenAt text (Text.offsetOf text pos) = .error .retriesExhausted

variable {union : Union} {list : List Member} {text : List Char} {pos : Nat}

/-- The token is what the matcher finds at its position, if that is not
empty. -/
theorem tokenStops_of_finds {ignoreCase : Bool} {expr : Expr}
    (h : union.matcher.Finds ignoreCase expr) (hpos : pos < text.length) {stop : Nat}
    (hstop : expr.stop? (union.matcher.sense text.toArray) ignoreCase pos = some stop) :
    union.TokenStops text pos (if pos < stop then stop else pos + 1) := by
  have hindex : Text.indexOf (Text.offsetOf text pos) text = pos :=
    Text.indexOf_offsetOf (Nat.le_of_lt hpos)
  have hsize : pos ≤ text.toArray.size := by
    rw [List.size_toArray]
    exact Nat.le_of_lt hpos
  unfold TokenStops tokenAt tokenExtent
  simp only [hindex]
  rcases h text.toArray pos stop hsize hstop with ⟨found, hsearch, rfl, rfl⟩ | ⟨hlimit, hsearch⟩
  · refine .inl ?_
    rw [hsearch]
    by_cases hlt : found.whole.start < found.whole.stop
    · refine ⟨Span.inBytes text ⟨found.whole.start, found.whole.stop, Nat.le_of_lt hlt⟩, ?_, rfl, ?_⟩
      · have hends : found.whole.start + 1 + (found.whole.stop - found.whole.start - 1)
            = found.whole.stop := by omega
        simp [bind, Except.bind, hlt, pure, Except.pure, hends]
      · rw [if_pos hlt]
        rfl
    · refine ⟨Span.inBytes text ⟨found.whole.start, found.whole.start + 1, by omega⟩, ?_, rfl, ?_⟩
      · simp [bind, Except.bind, hlt, pure, Except.pure]
      · rw [if_neg hlt]
        rfl
  · refine .inr ⟨hlimit, ?_⟩
    rw [hsearch]
    rfl

/-- A union that is compiled consists of the matcher of its text. -/
theorem ofPatterns_eq_ok {patterns : List Pattern} (h : ofPatterns patterns = .ok union) :
    Matcher.ofPattern? (String.ofList (Union.text patterns)) = some union.matcher := by
  unfold ofPatterns at h
  cases hfind : patterns.find? Pattern.isMultiline with
  | some pattern =>
    rw [hfind] at h
    cases h
  | none =>
    rw [hfind] at h
    unfold Matcher.ofPattern at h
    cases hmatcher : Matcher.ofPattern? (String.ofList (Union.text patterns)) with
    | none =>
      simp only [hmatcher] at h
      cases h
    | some matcher =>
      simp only [hmatcher] at h
      cases h
      rfl

/-- Where the matcher of a union finds an expression that matches as the
first of its members does, tokens stop where the first pattern does. -/
theorem tokenStops_of_first {ignoreCase : Bool} {expr : Expr}
    (h : union.matcher.Finds ignoreCase expr) (hpos : pos < text.length)
    (hstop : expr.stop? (union.matcher.sense text.toArray) ignoreCase pos
      = (firstStop? (union.matcher.sense text.toArray) list pos).or (some (pos + 1))) :
    union.TokenStops text pos (tokenStop (union.matcher.sense text.toArray) list pos) := by
  unfold tokenStop
  cases hfirst : firstStop? (union.matcher.sense text.toArray) list pos with
  | some stop =>
    rw [hfirst, Option.some_or] at hstop
    exact tokenStops_of_finds h hpos hstop
  | none =>
    rw [hfirst, Option.none_or] at hstop
    have htoken := tokenStops_of_finds h hpos hstop
    rw [if_pos (Nat.lt_succ_self pos)] at htoken
    exact htoken

/-- Positions of the text are positions of what a matcher is asked
about. -/
theorem lt_size_sense (matcher : Matcher) (hpos : pos < text.length) :
    pos < (matcher.sense text.toArray).text.size := by
  rw [Matcher.text_sense, List.size_toArray]
  exact hpos

/-- Where the matcher of a union finds what the joint expression asks
for, tokens stop where the first pattern does. -/
theorem tokenStops_of_joint {ignoreCase : Bool} (hvalid : ∀ member ∈ list, member.Valid)
    (h : union.matcher.Finds ignoreCase (joint list)) (hpos : pos < text.length)
    (hcase : ∀ member ∈ list,
      member.expr.stop? (union.matcher.sense text.toArray) ignoreCase pos
        = member.expr.stop? (union.matcher.sense text.toArray) member.ignoreCase pos) :
    union.TokenStops text pos (tokenStop (union.matcher.sense text.toArray) list pos) :=
  tokenStops_of_first h hpos (stop?_joint (lt_size_sense union.matcher hpos) hvalid hcase)

/-- The token at a position stops with the match of the first pattern
that matches there, if letter case counts in all patterns. -/
theorem tokenAt_first (hvalid : ∀ member ∈ list, member.Valid)
    (hcase : ∀ member ∈ list, member.ignoreCase = false)
    (hunion : ofPatterns (list.map Member.pattern) = .ok union)
    (horder : (joint list).looksBare = true ∨ union.matcher.Finds false (joint list))
    (hpos : pos < text.length) :
    union.TokenStops text pos (tokenStop (union.matcher.sense text.toArray) list pos) := by
  have hfinds : union.matcher.Finds false (joint list) := by
    rcases horder with hbare | hfinds
    · have hmatcher := ofPatterns_eq_ok hunion
      rw [text_eq_render hvalid hcase] at hmatcher
      exact Matcher.finds_ofPattern (wellFormed_joint hvalid) (refersTo_joint hvalid) hbare hmatcher
    · exact hfinds
  refine tokenStops_of_joint hvalid hfinds hpos fun member hmember => ?_
  rw [hcase member hmember]

/-- A pattern that repeats what its group has matched, after an
assertion of the start, and a number. -/
def doubledOrNumber : List Member :=
  [⟨.caret, .seq (.capture (.repeated .plus true (.char 'a'))) (.backref 1), false⟩,
    ⟨.none, .repeated .plus true (.short .digit false), false⟩]

theorem valid_doubledOrNumber : ∀ member ∈ doubledOrNumber, member.Valid := by
  refine List.forall_mem_cons.mpr ⟨⟨?_, ?_, rfl, by decide⟩, List.forall_mem_singleton.mpr
    ⟨⟨⟨rfl, trivial⟩, trivial, fun hboundary => nomatch hboundary⟩, trivial, rfl, by decide⟩⟩
  · refine ⟨⟨rfl, rfl⟩, ⟨⟨⟨rfl, trivial⟩, rfl, fun hboundary => (nomatch hboundary)⟩, trivial⟩, ?_⟩
    exact ⟨fun hends => (nomatch hends), fun hends => nomatch hends⟩
  · exact ⟨trivial, Nat.le_refl 1, Nat.le_refl 1⟩

/-- Four letters are two and the same two again. -/
theorem tokenAt_first_doubledOrNumber :
    ∃ union, ofPatterns (doubledOrNumber.map Member.pattern) = .ok union ∧
      union.TokenStops "aaaa7".toList 0 4 := by
  have hcompiles : (ofPatterns (doubledOrNumber.map Member.pattern)).toOption.map
      (fun union => (union.matcher.isBacktracking, union.matcher.limit.isSome))
        = some (true, true) := by decide +kernel
  cases hunion : ofPatterns (doubledOrNumber.map Member.pattern) with
  | error failure =>
    rw [hunion] at hcompiles
    cases hcompiles
  | ok union =>
    rw [hunion] at hcompiles
    obtain ⟨hkind, hlimit⟩ := Prod.mk.inj (Option.some.inj hcompiles)
    have hsense : union.matcher.sense "aaaa7".toList.toArray
        = Extended.sense "aaaa7".toList.toArray true := by
      unfold Matcher.sense
      rw [hkind, hlimit]
      rfl
    have htoken : union.TokenStops "aaaa7".toList 0
        (tokenStop (union.matcher.sense "aaaa7".toList.toArray) doubledOrNumber 0) :=
      tokenAt_first valid_doubledOrNumber (by decide) hunion (.inl (by decide)) (by decide)
    rw [hsense, show tokenStop (Extended.sense "aaaa7".toList.toArray true) doubledOrNumber 0 = 4
      by decide +kernel] at htoken
    exact ⟨union, rfl, htoken⟩

end Highlighter.Union
