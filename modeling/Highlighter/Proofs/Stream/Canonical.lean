import Highlighter.Proofs.Stream.Compact

/-!
# Compaction is a canonical form

Decorations in any order, some of them at one offset, say of every
offset of a source which style holds there. Compaction keeps that and
nothing else: two lists of decorations have the same compaction if and
only if they style the source alike.

* `latestAt?_eq_some_iff`: the decoration that counts, found in a list
  in any order.
* `Settled.eq_of_styleAt?`: a stream that grows and never repeats a
  style is known by the styles it gives.
* `settled_compact`: a compacted stream is such a stream.
* `compact_canonical`: both halves together.

The induction behind the second one goes through two streams at once.
It carries the style that holds before both, since the first
decorations are told apart from it and not from each other.
-/

set_option autoImplicit false

namespace Highlighter.Stream

/-! ### The decoration that counts -/

/-- A decoration of a list counts for an offset: it is at or before
it, nothing written earlier is nearer to it, and all that is written
later is further away. -/
structure Counts (raw : Stream) (x : Nat) (decoration : Decoration) : Prop where
  reaches : decoration.offset ≤ x
  last : ∃ before after, raw = before ++ decoration :: after ∧
    (∀ other ∈ before, other.offset ≤ x → other.offset ≤ decoration.offset) ∧
    ∀ other ∈ after, other.offset ≤ x → other.offset < decoration.offset

/-- One more decoration at the end of a list counts for an offset, or
what counted before does. -/
theorem foldl_later_concat (raw : Stream) (new : Decoration) (x : Nat) :
    (raw ++ [new]).foldl (later x) none = later x (raw.foldl (later x) none) new := by
  rw [List.foldl_append]
  rfl

/-- Where nothing counts, every decoration comes too late. -/
theorem lt_of_foldl_later_eq_none {raw : Stream} {x : Nat}
    (h : raw.foldl (later x) none = none) : ∀ decoration ∈ raw, x < decoration.offset := by
  induction raw using List.reverseRecOn with
  | nil => exact fun decoration hmem => absurd hmem List.not_mem_nil
  | append_singleton raw new ih =>
    rw [foldl_later_concat, later] at h
    split at h
    · cases h
    · rename_i hworse
      have hraw := ih h
      intro decoration hmem
      rcases List.mem_append.mp hmem with hmem | hmem
      · exact hraw decoration hmem
      · rw [List.mem_singleton.mp hmem]
        by_contra hle
        rw [h] at hworse
        exact hworse ⟨by omega, by simp⟩

namespace Counts

variable {raw : Stream} {x : Nat} {decoration new : Decoration}

/-- Nothing is nearer to an offset than what counts for it. -/
theorem nearest (h : Counts raw x decoration) :
    ∀ other ∈ raw, other.offset ≤ x → other.offset ≤ decoration.offset := by
  obtain ⟨-, before, after, rfl, hbefore, hafter⟩ := h
  intro other hmem hle
  rcases List.mem_append.mp hmem with hmem | hmem
  · exact hbefore other hmem hle
  · rcases List.mem_cons.mp hmem with rfl | hmem
    · exact Nat.le_refl _
    · exact Nat.le_of_lt (hafter other hmem hle)

/-- A decoration at the end of a list counts if none before it is
nearer. -/
theorem concat_self (hreaches : new.offset ≤ x)
    (hnear : ∀ other ∈ raw, other.offset ≤ x → other.offset ≤ new.offset) :
    Counts (raw ++ [new]) x new :=
  ⟨hreaches, raw, [], rfl, hnear, fun _ hmem => absurd hmem List.not_mem_nil⟩

/-- What counts goes on to count if what comes after it is further
away. -/
theorem concat (h : Counts raw x decoration)
    (hfar : new.offset ≤ x → new.offset < decoration.offset) :
    Counts (raw ++ [new]) x decoration := by
  obtain ⟨hreaches, before, after, rfl, hbefore, hafter⟩ := h
  refine ⟨hreaches, before, after ++ [new], by simp, hbefore, fun other hmem hle => ?_⟩
  rcases List.mem_append.mp hmem with hmem | hmem
  · exact hafter other hmem hle
  · rw [List.mem_singleton.mp hmem] at hle ⊢
    exact hfar hle

end Counts

/-- What the fold finds is what counts. -/
theorem counts_of_foldl_later {raw : Stream} {x : Nat} {decoration : Decoration}
    (h : raw.foldl (later x) none = some decoration) : Counts raw x decoration := by
  -- The decoration that is written last is the one that the fold decides on.
  induction raw using List.reverseRecOn generalizing decoration with
  | nil => cases h
  | append_singleton raw new ih =>
    rw [foldl_later_concat, later] at h
    split at h
    · rename_i hbetter
      cases h
      refine .concat_self hbetter.1 fun other hmem hle => ?_
      show other.offset ≤ new.offset
      cases hbest : raw.foldl (later x) none with
      | none =>
        have := lt_of_foldl_later_eq_none hbest other hmem
        omega
      | some best =>
        have hnear : best.offset ≤ new.offset := hbetter.2 best hbest
        have := (ih hbest).nearest other hmem hle
        omega
    · rename_i hworse
      refine (ih h).concat fun hle => ?_
      by_contra hnear
      rw [h] at hworse
      exact hworse ⟨hle, fun old hold => by cases hold; omega⟩

/-- At most one decoration counts. -/
theorem Counts.unique {raw : Stream} {x : Nat} {first second : Decoration}
    (hfirst : Counts raw x first) (hsecond : Counts raw x second) : first = second := by
  obtain ⟨hle, before, after, rfl, hbefore, hafter⟩ := hfirst
  obtain ⟨hle', before', after', hraw, hbefore', hafter'⟩ := hsecond
  -- Two places in a list: they are the same, or one is before the other.
  rcases List.append_eq_append_iff.mp hraw with ⟨middle, rfl, hrest⟩ | ⟨middle, rfl, hrest⟩
  · cases middle with
    | nil => exact (List.cons.inj hrest).1
    | cons other others =>
      obtain ⟨rfl, rfl⟩ := List.cons.inj hrest
      have hlt := hafter second (by simp) hle'
      have hge := hbefore' first (by simp) hle
      omega
  · cases middle with
    | nil => exact (List.cons.inj hrest).1.symm
    | cons other others =>
      obtain ⟨rfl, rfl⟩ := List.cons.inj hrest
      have hlt := hafter' first (by simp) hle
      have hge := hbefore second (by simp) hle'
      omega

/-- The style of a list at an offset is that of the decoration which
counts. -/
theorem latestAt?_eq_some_iff {raw : Stream} {x : Nat} {style : Style} :
    latestAt? raw x = some style ↔ ∃ decoration, Counts raw x decoration ∧
      decoration.style = style := by
  unfold latestAt?
  rw [Option.map_eq_some_iff]
  constructor
  · rintro ⟨decoration, hfold, hstyle⟩
    exact ⟨decoration, counts_of_foldl_later hfold, hstyle⟩
  · rintro ⟨decoration, hcounts, hstyle⟩
    refine ⟨decoration, ?_, hstyle⟩
    cases hfold : raw.foldl (later x) none with
    | none =>
      obtain ⟨hle, before, after, rfl, -⟩ := hcounts
      have := lt_of_foldl_later_eq_none hfold decoration (by simp)
      omega
    | some best => rw [(counts_of_foldl_later hfold).unique hcounts]

/-! ### Streams that are known by their styles -/

/-- A stream from one offset to another that grows, stays inside and
never repeats a style, nor the style that holds before it. -/
def Settled (start stop : Nat) (style : Option Style) : Stream → Prop
  | [] => True
  | first :: rest =>
    start ≤ first.offset ∧ first.offset < stop ∧ style ≠ some first.style ∧
      Settled (first.offset + 1) stop (some first.style) rest

namespace Settled

variable {start stop : Nat} {style : Option Style} {stream : Stream}

theorem start_le (h : Settled start stop style stream) :
    ∀ decoration ∈ stream, start ≤ decoration.offset := by
  induction stream generalizing start style with
  | nil => exact fun decoration hmem => absurd hmem List.not_mem_nil
  | cons first rest ih =>
    obtain ⟨hstart, -, -, hrest⟩ := h
    intro decoration hmem
    rcases List.mem_cons.mp hmem with rfl | hmem
    · exact hstart
    · have := ih hrest decoration hmem
      omega

/-- Before its first decoration, a stream leaves the style as it was. -/
theorem styleAt?_of_lt {first : Decoration} {x : Nat}
    (h : Settled start stop style (first :: stream)) (hx : x < first.offset) :
    (styleAt? (first :: stream) x).or style = style := by
  have hnone : styleAt? (first :: stream) x = none := styleAt?_eq_none fun other hmem => by
    rcases List.mem_cons.mp hmem with rfl | hmem
    · exact hx
    · have := h.2.2.2.start_le other hmem
      omega
  rw [hnone, Option.none_or]

/-- At its first decoration, a stream has the style of that one. -/
theorem styleAt?_offset {first : Decoration}
    (h : Settled start stop style (first :: stream)) :
    (styleAt? (first :: stream) first.offset).or style = some first.style := by
  have hrest : styleAt? stream first.offset = none := styleAt?_eq_none fun other hmem => by
    have := h.2.2.2.start_le other hmem
    omega
  -- The first decoration decides, so the style before it drops out.
  rw [styleAt?_cons, hrest, if_pos (Nat.le_refl _)]
  rfl

/-- After its first decoration, the rest of a stream goes on from the
style of that one. -/
theorem styleAt?_of_le {first : Decoration} {x : Nat} (hx : first.offset ≤ x) :
    (styleAt? (first :: stream) x).or style = (styleAt? stream x).or (some first.style) := by
  rw [styleAt?_cons, if_pos hx, Option.or_assoc]
  rfl

/-- Two settled streams that start from one style and give the same
styles are equal. -/
theorem eq_of_styleAt? {first second : Stream} (hfirst : Settled start stop style first)
    (hsecond : Settled start stop style second)
    (h : ∀ x, start ≤ x → x < stop →
      (styleAt? first x).or style = (styleAt? second x).or style) : first = second := by
  induction first generalizing second start style with
  | nil =>
    cases second with
    | nil => rfl
    | cons other others =>
      -- The one decoration there is changes the style.
      have hchange := h other.offset hsecond.1 hsecond.2.1
      rw [hsecond.styleAt?_offset] at hchange
      exact absurd hchange hsecond.2.2.1
  | cons decoration rest ih =>
    cases second with
    | nil =>
      have hchange := h decoration.offset hfirst.1 hfirst.2.1
      rw [hfirst.styleAt?_offset] at hchange
      exact absurd hchange.symm hfirst.2.2.1
    | cons other others =>
      have hhere := h decoration.offset hfirst.1 hfirst.2.1
      have hthere := h other.offset hsecond.1 hsecond.2.1
      rw [hfirst.styleAt?_offset] at hhere
      rw [hsecond.styleAt?_offset] at hthere
      -- A stream that changes the style first would do so alone.
      have hle : other.offset ≤ decoration.offset := by
        by_contra hlt
        rw [hsecond.styleAt?_of_lt (by omega)] at hhere
        exact hfirst.2.2.1 hhere.symm
      have hge : decoration.offset ≤ other.offset := by
        by_contra hlt
        rw [hfirst.styleAt?_of_lt (by omega)] at hthere
        exact hsecond.2.2.1 hthere
      have hoffset : decoration.offset = other.offset := by omega
      have heq : decoration = other := by
        rw [hoffset, hsecond.styleAt?_offset] at hhere
        cases decoration
        cases other
        cases hoffset
        cases hhere
        rfl
      subst heq
      -- Past the shared decoration, its style is the one before both rests.
      rw [ih hfirst.2.2.2 hsecond.2.2.2 fun x hx hstop => ?_]
      have hafter := h x (by have := hfirst.1; omega) hstop
      rwa [styleAt?_of_le (by omega), styleAt?_of_le (by omega)] at hafter

/-- A stream whose offsets grow inside a source and whose neighbours
differ is settled. -/
theorem of_isChain (hpair : stream.Pairwise fun first second => first.offset < second.offset)
    (hinside : ∀ decoration ∈ stream, start ≤ decoration.offset ∧ decoration.offset < stop)
    (hchain : stream.IsChain fun first second => first.style ≠ second.style)
    (hhead : ∀ first ∈ stream.head?, style ≠ some first.style) :
    Settled start stop style stream := by
  induction stream generalizing start style with
  | nil => trivial
  | cons first rest ih =>
    obtain ⟨hfirst, hrest⟩ := List.pairwise_cons.mp hpair
    obtain ⟨hnext, hchain⟩ := List.isChain_cons.mp hchain
    have hhere := hinside first List.mem_cons_self
    refine ⟨hhere.1, hhere.2, hhead first rfl, ih hrest ?_ hchain ?_⟩
    · intro decoration hmem
      have hgrows := hfirst decoration hmem
      have hthere := hinside decoration (List.mem_cons_of_mem _ hmem)
      omega
    · intro second hmem heq
      exact hnext second hmem (Option.some.inj heq)

end Settled

/-! ### Compacted streams -/

variable {first second raw : Stream} {base size : Nat}

/-- All decorations are at offsets of a source, its end included. -/
def Fits (base size : Nat) (raw : Stream) : Prop :=
  ∀ decoration ∈ raw, base ≤ decoration.offset ∧ decoration.offset ≤ base + size

theorem settled_compact (h : Fits base size raw) :
    Settled base (base + size) none (compact raw base size) :=
  Settled.of_isChain (pairwise_compact raw base size)
    (fun decoration hmem => ⟨(h decoration (mem_of_mem_compact hmem)).1,
      offset_lt_of_mem_compact (fun other hother => (h other hother).2) hmem⟩)
    (isChain_compact raw base size) fun _ _ => (Option.some_ne_none _).symm

/-- Compaction keeps at every offset of the source the style of the
decoration that counts there, and two lists of decorations have one
compaction if and only if they style every offset alike. -/
theorem compact_canonical (hfirst : Fits base size first) (hsecond : Fits base size second) :
    (∀ x, base ≤ x → x < base + size →
      styleAt? (compact first base size) x = latestAt? first x ∧
        ∀ style, latestAt? first x = some style ↔
          ∃ decoration, Counts first x decoration ∧ decoration.style = style) ∧
    (compact first base size = compact second base size ↔
      ∀ x, base ≤ x → x < base + size → latestAt? first x = latestAt? second x) := by
  refine ⟨fun x _ hx => ⟨styleAt?_compact first hx, fun _ => latestAt?_eq_some_iff⟩,
    fun heq x _ hx => ?_, fun hstyles => ?_⟩
  · calc latestAt? first x
        = styleAt? (compact first base size) x := (styleAt?_compact first hx).symm
      _ = styleAt? (compact second base size) x := by rw [heq]
      _ = latestAt? second x := styleAt?_compact second hx
  · -- Nothing holds before the first decoration of either compaction.
    refine (settled_compact hfirst).eq_of_styleAt? (settled_compact hsecond) fun x hle hx => ?_
    rw [styleAt?_compact first hx, styleAt?_compact second hx, hstyles x hle hx]

/-- Keywords from `5`, after what is overwritten there and before what
comes earlier. -/
def overwritten : Stream :=
  [⟨5, .string⟩, ⟨3, .comment⟩, ⟨5, .keyword⟩, ⟨9, .plain⟩]

/-- The same styles without anything to overwrite, but with a style
that is repeated. -/
def repeated : Stream :=
  [⟨3, .comment⟩, ⟨4, .comment⟩, ⟨5, .keyword⟩]

theorem compact_canonical_overwritten :
    (∀ decoration ∈ overwritten, 2 ≤ decoration.offset ∧ decoration.offset ≤ 2 + 7) ∧
    (∀ decoration ∈ repeated, 2 ≤ decoration.offset ∧ decoration.offset ≤ 2 + 7) ∧
    styleAt? (compact overwritten 2 7) 6 = latestAt? overwritten 6 ∧
    (compact overwritten 2 7 = compact repeated 2 7 ↔
      ∀ x, 2 ≤ x → x < 2 + 7 → latestAt? overwritten x = latestAt? repeated x) := by
  have hfirst : Fits 2 7 overwritten := by unfold Fits; decide
  have hsecond : Fits 2 7 repeated := by unfold Fits; decide
  have hboth := compact_canonical hfirst hsecond
  exact ⟨hfirst, hsecond, (hboth.1 6 (by decide) (by decide)).1, hboth.2⟩

example : compact overwritten 2 7 = compact repeated 2 7 := by decide

end Highlighter.Stream
