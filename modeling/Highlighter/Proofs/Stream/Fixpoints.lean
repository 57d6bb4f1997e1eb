import Highlighter.Proofs.Stream.Compact

/-!
# What compaction leaves alone

Compaction changes nothing in a stream whose offsets grow, whose
neighbours differ in their style and whose last decoration is not at
the end of the source (`Compacted`). Its own results are of this kind,
wherever the decorations are that it is given, before the source or
past its end.

* `compacted_compact`: one compaction gives a compacted stream. Only
  one decoration is dropped at the end of the source; the offset of
  the one before it is smaller, so nothing more has to go.
* `compact_of_compacted`: each of the three steps of compaction keeps
  a compacted stream as it is.
* `compact_fixpoints`: the compacted streams are the fixpoints, and one
  compaction reaches one.
-/

set_option autoImplicit false

namespace Highlighter.Stream

variable {raw stream : Stream} {new : Decoration} {base size stop : Nat}

/-- The streams without anything to compact, for a source that ends at
`stop`. Their decorations may be anywhere, also outside of the
source. -/
structure Compacted (stop : Nat) (stream : Stream) : Prop where
  increasing : stream.Pairwise fun first second => first.offset < second.offset
  changing : stream.IsChain fun first second => first.style ≠ second.style
  last : ∀ decoration ∈ stream.getLast?, decoration.offset ≠ stop

/-! ### The steps of compaction -/

/-- One more decoration is inserted into what is sorted already. -/
theorem sorted_concat (raw : Stream) (new : Decoration) :
    sorted (raw ++ [new]) = (insertDown new (sorted raw).reverse).reverse := by
  unfold sorted
  rw [List.foldl_append, List.reverse_reverse]
  rfl

/-- A decoration past all others comes last. -/
theorem sorted_concat_of_lt (h : ∀ other ∈ raw, other.offset < new.offset) :
    sorted (raw ++ [new]) = sorted raw ++ [new] := by
  have hinsert : insertDown new (sorted raw).reverse = new :: (sorted raw).reverse := by
    cases hsorted : (sorted raw).reverse with
    | nil => rfl
    | cons first rest =>
      have hmem : first ∈ sorted raw := List.mem_reverse.mp (hsorted ▸ List.mem_cons_self)
      exact if_pos (h first (mem_of_mem_sorted hmem))
  rw [sorted_concat, hinsert, List.reverse_cons, List.reverse_reverse]

/-- A stream whose offsets grow is sorted. -/
theorem sorted_of_pairwise
    (h : stream.Pairwise fun first second => first.offset < second.offset) :
    sorted stream = stream := by
  induction stream using List.reverseRecOn with
  | nil => rfl
  | append_singleton stream new ih =>
    obtain ⟨hstream, -, hnew⟩ := List.pairwise_append.mp h
    rw [sorted_concat_of_lt fun other hmem => hnew other hmem new List.mem_cons_self, ih hstream]

/-- Where neighbours differ, and the first decoration differs from the
style before it, nothing is repeated. -/
theorem dropRepeats_of_isChain {style : Option Style}
    (h : stream.IsChain fun first second => first.style ≠ second.style)
    (hhead : ∀ first ∈ stream.head?, style ≠ some first.style) :
    dropRepeats style stream = stream := by
  induction stream generalizing style with
  | nil => rfl
  | cons first rest ih =>
    obtain ⟨hnext, hrest⟩ := List.isChain_cons.mp h
    rw [dropRepeats, if_neg (hhead first rfl),
      ih hrest fun second hmem heq => hnext second hmem (Option.some.inj heq)]

/-- What does not end at the end of the source stays whole. -/
theorem dropAtEnd_of_ne (h : ∀ decoration ∈ stream.getLast?, decoration.offset ≠ stop) :
    dropAtEnd stop stream = stream := by
  unfold dropAtEnd
  split
  · rename_i last hlast
    rw [if_neg (h last hlast)]
  · rfl

/-! ### Fixpoints -/

theorem compacted_compact (raw : Stream) (base size : Nat) :
    Compacted (base + size) (compact raw base size) where
  increasing := pairwise_compact raw base size
  changing := isChain_compact raw base size
  last := getLast?_dropAtEnd ((pairwise_sorted raw).sublist (dropRepeats_sublist none _))

theorem compact_of_compacted (h : Compacted (base + size) stream) :
    compact stream base size = stream := by
  unfold compact
  rw [sorted_of_pairwise h.increasing,
    dropRepeats_of_isChain h.changing fun _ _ => (Option.some_ne_none _).symm,
    dropAtEnd_of_ne h.last]

/-- Compaction leaves a stream as it is if and only if the stream is
compacted. What it gives is compacted, so that compacting twice is
compacting once. No offset needs to be inside the source. -/
theorem compact_fixpoints (raw : Stream) (base size : Nat) :
    (compact raw base size = raw ↔ Compacted (base + size) raw) ∧
      Compacted (base + size) (compact raw base size) ∧
      compact (compact raw base size) base size = compact raw base size := by
  have hcompacted := compacted_compact raw base size
  refine ⟨⟨fun hfix => ?_, compact_of_compacted⟩, hcompacted, compact_of_compacted hcompacted⟩
  rw [hfix] at hcompacted
  exact hcompacted

-- A decoration past the end of the source stays, and one at its end would not.
example : compact [⟨9, .plain⟩, ⟨3, .string⟩, ⟨3, .comment⟩] 5 2
    = [⟨3, .comment⟩, ⟨9, .plain⟩] := by decide

end Highlighter.Stream
