import Highlighter.Proofs.Embedding.Raw

/-!
# Where an embedded region is

The region of a token is its first group, or a part that is as long as
that group and ends where the second group starts. The groups may stand
in any order and may overlap, since a look-ahead can set them anywhere.

Main statement: whatever the order, a region is a part of its token that
can be cut out, and what is before it and after it is shorter than the
token (`embeddedRegion?_sliceable`). The theorem also says when a token
has no region. A second group that starts too early is such a case: no
start is that far before it.
-/

set_option autoImplicit false

namespace Highlighter

/-! ### Parts of a text -/

/-- Whether both ends of a part of a text are between characters. -/
structure Span.IsPart (span : Span) (text : List Char) : Prop where
  start : Text.IsBoundary text 0 span.start
  stop : Text.IsBoundary text 0 span.stop

/-- What is cut out of a text is a part of it, and the rest is before and
after it. -/
structure Text.Cut.Slices (cut : Cut) (span : Span) (text : List Char) : Prop where
  append : cut.before ++ cut.body ++ cut.after = text
  start : byteSize cut.before = span.start
  stop : byteSize (cut.before ++ cut.body) = span.stop

namespace Text

variable {span : Span} {text : List Char} {cut : Cut}

theorem slices_of_cut? (h : cut? span text = some cut) : cut.Slices span text := by
  have happend := append_of_cut? h
  simp only [cut?, Option.bind_eq_bind, Option.bind_eq_some_iff, Option.pure_def,
    Option.some.injEq] at h
  obtain ⟨⟨before, rest⟩, hstart, ⟨body, after⟩, hstop, rfl⟩ := h
  have hbefore : byteSize before = span.start := (splitAt?_eq_some hstart).2
  have hbody : byteSize body = span.length := (splitAt?_eq_some hstop).2
  refine ⟨happend, hbefore, ?_⟩
  have hle := span.start_le_stop
  rw [byteSize_append, hbefore, hbody, Span.length]
  omega

/-- A part can be cut out exactly if its ends are between characters. -/
theorem exists_cut?_iff : (∃ cut, cut? span text = some cut) ↔ span.IsPart text := by
  constructor
  · rintro ⟨cut, h⟩
    obtain ⟨happend, hstart, hstop⟩ := slices_of_cut? h
    refine ⟨⟨cut.before, cut.body ++ cut.after, ?_, ?_⟩, ⟨cut.before ++ cut.body, cut.after, ?_, ?_⟩⟩
    · rw [← List.append_assoc, happend]
    · rw [Nat.zero_add, hstart]
    · exact happend
    · rw [Nat.zero_add, hstop]
  · intro h
    obtain ⟨before, body, after, rfl, hstart, hstop⟩ :=
      h.start.exists_between h.stop span.start_le_stop
    refine ⟨_, cut?_append hstart ?_⟩
    rw [Span.length, hstop, Nat.add_sub_cancel_left]

theorem cut?_eq_none (h : ¬span.IsPart text) : cut? span text = none := by
  cases hcut : cut? span text with
  | none => rfl
  | some cut => exact absurd (exists_cut?_iff.mp ⟨cut, hcut⟩) h

/-- Around a part that is not empty, less than the whole text is left. -/
theorem Cut.Slices.around_lt (h : cut.Slices span text) (hpos : 0 < span.length) :
    byteSize cut.before < byteSize text ∧ byteSize cut.after < byteSize text := by
  obtain ⟨rfl, hstart, hstop⟩ := h
  rw [Span.length] at hpos
  simp only [byteSize_append] at hstop ⊢
  omega

end Text

theorem Span.isEmpty_eq_false_iff {span : Span} : span.isEmpty = false ↔ 0 < span.length := by
  have hle := span.start_le_stop
  rw [isEmpty, length, beq_eq_false_iff_ne]
  omega

/-! ### Regions -/

namespace Regex.Captures

/-- The group that a region is written in, if it is not empty. -/
def embedded? (captures : Captures) : Option Span := captures.first.filter (!·.isEmpty)

/-- The group that follows a region, if it is not empty. -/
def context? (captures : Captures) : Option Span := captures.second.filter (!·.isEmpty)

/-- The first two groups are parts of a token. -/
structure LieIn (captures : Captures) (token : List Char) : Prop where
  first : ∀ group ∈ captures.first, group.IsPart token
  second : ∀ group ∈ captures.second, group.IsPart token

/-- Where the region is in a token, given what follows it: a group of
that name starts where the region ends, unless the region would start
inside a character. -/
inductive RegionAt (token : List Char) (group region : Span) : Option Span → Prop where
  | own (hregion : region = group) : RegionAt token group region none
  | shifted {context : Span} (hlength : region.start + group.length = context.start)
    (hstop : region.stop = context.start) : RegionAt token group region (some context)
  | misplaced {context : Span} {start : Nat} (hstart : start + group.length = context.start)
    (hinside : ¬Text.IsBoundary token 0 start) (hregion : region = group) :
    RegionAt token group region (some context)

/-- The region of a token, as it is cut out. -/
structure IsRegion (token : List Char) (captures : Captures) (group region : Span)
    (cut : Text.Cut) : Prop where
  embedded : captures.embedded? = some group
  place : RegionAt token group region captures.context?
  isPart : region.IsPart token
  length_eq : region.length = group.length
  length_pos : 0 < region.length
  slices : cut.Slices region token
  before_lt : Text.byteSize cut.before < Text.byteSize token
  after_lt : Text.byteSize cut.after < Text.byteSize token

variable {token : List Char} {captures : Captures} {group region context : Span} {cut : Text.Cut}

theorem embedded?_eq_some_iff :
    captures.embedded? = some group ↔ captures.first = some group ∧ 0 < group.length := by
  simp only [embedded?, Option.filter_eq_some_iff, Bool.not_eq_true', Span.isEmpty_eq_false_iff]

theorem context?_eq_some_iff :
    captures.context? = some context ↔ captures.second = some context ∧ 0 < context.length := by
  simp only [context?, Option.filter_eq_some_iff, Bool.not_eq_true', Span.isEmpty_eq_false_iff]

/-- Whatever part is cut out, what is left of the token is shorter. -/
theorem isRegion_of_cut? (hcut : Text.cut? region token = some cut)
    (hgroup : captures.embedded? = some group) (hlength : region.length = group.length)
    (hplace : RegionAt token group region captures.context?) :
    IsRegion token captures group region cut := by
  have hslices := Text.slices_of_cut? hcut
  have hpos : 0 < region.length := hlength ▸ (embedded?_eq_some_iff.mp hgroup).2
  obtain ⟨hbefore, hafter⟩ := hslices.around_lt hpos
  exact ⟨hgroup, hplace, Text.exists_cut?_iff.mp ⟨cut, hcut⟩, hlength, hpos, hslices, hbefore,
    hafter⟩

end Regex.Captures

open Regex.Captures

variable {token : List Char} {captures : Regex.Captures}

/-- A region is looked for where the first group is not empty, and only
a second group that is not empty has a say in where it is. -/
theorem embeddedRegion?_eq (token : List Char) (captures : Regex.Captures) :
    embeddedRegion? token captures = captures.embedded?.bind fun group =>
      match captures.context? with
      | none => Text.cut? group token
      | some context =>
        if context.start < group.length then none
        else Text.cut? ⟨context.start - group.length, context.start, Nat.sub_le _ _⟩ token <|>
          Text.cut? group token := by
  unfold embeddedRegion? embedded? context?
  cases captures.first with
  | none => rfl
  | some group =>
    cases hgroup : group.isEmpty with
    | true => simp [Option.filter, hgroup]
    | false =>
      cases captures.second with
      | none => simp [Option.filter, hgroup]
      | some context =>
        cases hcontext : context.isEmpty <;> simp [Option.filter, hgroup, hcontext]

/-- A region is a part of its token that can be cut out. It is as long
as the first group, and it ends where the second group starts, or it is
the first group. There is none if the first group is missing or empty,
or if the second one starts too early. -/
theorem embeddedRegion?_sliceable (hlie : captures.LieIn token) :
    (embeddedRegion? token captures = none ↔ captures.embedded? = none ∨
      ∃ group context, captures.embedded? = some group ∧ captures.context? = some context ∧
        context.start < group.length) ∧
    ∀ cut, embeddedRegion? token captures = some cut →
      ∃ group region, IsRegion token captures group region cut := by
  rw [embeddedRegion?_eq]
  cases hfirst : captures.embedded? with
  | none => simp
  | some group =>
    have hgroup : group.IsPart token := hlie.first group (embedded?_eq_some_iff.mp hfirst).1
    obtain ⟨own, hown⟩ := Text.exists_cut?_iff.mpr hgroup
    rw [Option.bind_some]
    cases hsecond : captures.context? with
    | none =>
      refine ⟨by simp [hown], fun cut hcut => ⟨group, group, ?_⟩⟩
      exact isRegion_of_cut? hcut hfirst rfl (hsecond ▸ .own rfl)
    | some context =>
      have hcontext : context.IsPart token := hlie.second _ (context?_eq_some_iff.mp hsecond).1
      by_cases hearly : context.start < group.length
      · simp [hearly]
      · have hroom : context.start - group.length + group.length = context.start :=
          Nat.sub_add_cancel (Nat.not_lt.mp hearly)
        simp only [if_neg hearly]
        by_cases hstart : Text.IsBoundary token 0 (context.start - group.length)
        · have hregion : (Span.mk (context.start - group.length) context.start
              (Nat.sub_le _ _)).IsPart token := ⟨hstart, hcontext.start⟩
          obtain ⟨cut, hcut⟩ := Text.exists_cut?_iff.mpr hregion
          rw [hcut]
          refine ⟨by simp [hearly], fun found hfound => ?_⟩
          cases hfound
          exact ⟨group, _, isRegion_of_cut? hcut hfirst
            (Nat.sub_sub_self (Nat.not_lt.mp hearly)) (hsecond ▸ .shifted hroom rfl)⟩
        · rw [Text.cut?_eq_none fun hregion => hstart hregion.start]
          refine ⟨by simp [hearly, hown], fun cut hcut => ⟨group, group, ?_⟩⟩
          exact isRegion_of_cut? hcut hfirst rfl (hsecond ▸ .misplaced hroom hstart rfl)

/-- In `éab`, the first group is `ab` and the second one is its last
character. -/
def overlapping : Regex.Captures where
  whole := .within 4 0 4
  first := some (.within 4 2 4)
  second := some (.within 4 3 4)

/-- A region before the second group would start inside the `é`. -/
theorem embeddedRegion?_sliceable_overlapping :
    overlapping.LieIn "éab".toList ∧
      embeddedRegion? "éab".toList overlapping = some ⟨['é'], ['a', 'b'], []⟩ ∧
      ∃ group region, IsRegion "éab".toList overlapping group region ⟨['é'], ['a', 'b'], []⟩ := by
  have hlie : overlapping.LieIn "éab".toList := by
    refine ⟨fun group hgroup => ?_, fun group hgroup => ?_⟩
    · cases hgroup
      exact ⟨⟨['é'], ['a', 'b'], rfl, rfl⟩, ⟨['é', 'a', 'b'], [], rfl, rfl⟩⟩
    · cases hgroup
      exact ⟨⟨['é', 'a'], ['b'], rfl, rfl⟩, ⟨['é', 'a', 'b'], [], rfl, rfl⟩⟩
  have hcut : embeddedRegion? "éab".toList overlapping = some ⟨['é'], ['a', 'b'], []⟩ := by decide
  exact ⟨hlie, hcut, (embeddedRegion?_sliceable hlie).2 _ hcut⟩

end Highlighter
