import Mathlib.Data.List.Chain
import Highlighter.Stream

/-!
# What compaction keeps

A stream says at each offset what style holds there: that of its last
decoration at or before the offset (`styleAt?`). For decorations in
any order, the one that counts has the greatest offset, and of those
at one offset it is the last one written (`latestAt?`).

* `styleAt?_sorted`: sorting turns the second reading into the first.
* `styleAt?_dropRepeats`: a decoration that repeats the style before
  it changes nothing.
* `styleAt?_compact`: inside the source, a compacted stream styles as
  the raw one does.
* `pairwise_compact`, `isChain_compact`: the offsets of a compacted
  stream grow, and neighbours differ in their style.
* `offset_lt_of_mem_compact`, `head?_compact`: it starts where the
  source does, and no decoration is at the end of the source.
* `latestAt?_eq_styleAt?`: where the offsets never fall, both readings
  agree.
-/

set_option autoImplicit false

namespace Highlighter.Stream

/-- The style that holds at an offset: that of the last decoration at
or before it. -/
def styleAt? (stream : Stream) (x : Nat) : Option Style :=
  (stream.filter fun decoration => decoration.offset ≤ x).getLast?.map Decoration.style

/-- The better one of two decorations for an offset. The new one has
to be at or before the offset, and not before the best one so far. -/
def later (x : Nat) (best : Option Decoration) (new : Decoration) : Option Decoration :=
  if new.offset ≤ x ∧ ∀ old ∈ best, old.offset ≤ new.offset then some new else best

/-- The style that holds at an offset where decorations come in any
order: that of the last one written at the greatest offset at or
before it. -/
def latestAt? (raw : Stream) (x : Nat) : Option Style :=
  (raw.foldl (later x) none).map Decoration.style

/-! ### Reading a stream -/

@[simp] theorem styleAt?_nil (x : Nat) : styleAt? [] x = none := rfl

/-- Of two streams in a row, the second one decides where it says
something. -/
theorem styleAt?_append (first second : Stream) (x : Nat) :
    styleAt? (first ++ second) x = (styleAt? second x).or (styleAt? first x) := by
  unfold styleAt?
  rw [List.filter_append, List.getLast?_append]
  cases (second.filter fun decoration => decoration.offset ≤ x).getLast? with
  | none => rfl
  | some last => rfl

theorem styleAt?_cons (first : Decoration) (rest : Stream) (x : Nat) :
    styleAt? (first :: rest) x
      = (styleAt? rest x).or (if first.offset ≤ x then some first.style else none) := by
  have hfirst : styleAt? [first] x
      = if first.offset ≤ x then some first.style else none := by
    unfold styleAt?
    by_cases h : first.offset ≤ x
    · rw [if_pos h, List.filter_cons_of_pos (by simpa using h)]
      rfl
    · rw [if_neg h, List.filter_cons_of_neg (by simpa using h)]
      rfl
  rw [← hfirst]
  exact styleAt?_append [first] rest x

/-- A stream says nothing before its decorations. -/
theorem styleAt?_eq_none {stream : Stream} {x : Nat}
    (h : ∀ decoration ∈ stream, x < decoration.offset) : styleAt? stream x = none := by
  unfold styleAt?
  have hnone : stream.filter (fun decoration => decoration.offset ≤ x) = [] := by
    rw [List.filter_eq_nil_iff]
    intro decoration hmem
    have hlt := h decoration hmem
    simp only [decide_eq_true_eq]
    omega
  rw [hnone]
  rfl

/-! ### Sorting -/

/-- The order of a stream whose greatest offset comes first. -/
def Descending (stream : Stream) : Prop :=
  stream.Pairwise fun first second => second.offset < first.offset

/-- An inserted decoration is in the stream, and so is nothing else
that is new. -/
theorem mem_insertDown {decoration other : Decoration} {stream : Stream}
    (h : other ∈ insertDown decoration stream) : other = decoration ∨ other ∈ stream := by
  induction stream with
  | nil => exact .inl (List.mem_singleton.mp h)
  | cons first rest ih =>
    rw [insertDown] at h
    split at h
    · exact List.mem_cons.mp h
    · split at h
      · rcases List.mem_cons.mp h with rfl | hmem
        · exact .inl rfl
        · exact .inr (List.mem_cons_of_mem _ hmem)
      · rcases List.mem_cons.mp h with rfl | hmem
        · exact .inr List.mem_cons_self
        · rcases ih hmem with heq | hrest
          · exact .inl heq
          · exact .inr (List.mem_cons_of_mem _ hrest)

theorem descending_insertDown {stream : Stream} (decoration : Decoration)
    (h : Descending stream) : Descending (insertDown decoration stream) := by
  induction stream with
  | nil => exact List.pairwise_singleton _ _
  | cons first rest ih =>
    obtain ⟨hfirst, hrest⟩ := List.pairwise_cons.mp h
    rw [insertDown]
    split
    · rename_i hlt
      refine List.pairwise_cons.mpr ⟨fun other hmem => ?_, h⟩
      rcases List.mem_cons.mp hmem with rfl | hmem
      · exact hlt
      · have := hfirst other hmem
        omega
    · split
      · rename_i heq
        exact List.pairwise_cons.mpr ⟨fun other hmem => heq ▸ hfirst other hmem, hrest⟩
      · refine List.pairwise_cons.mpr ⟨fun other hmem => ?_, ih hrest⟩
        rcases mem_insertDown hmem with rfl | hmem
        · omega
        · exact hfirst other hmem

/-- In a descending stream, the first decoration at or before an
offset counts. Inserting one more asks which of the two is better. -/
theorem find?_insertDown {stream : Stream} (decoration : Decoration) (x : Nat)
    (h : Descending stream) :
    (insertDown decoration stream).find? (fun other => other.offset ≤ x)
      = later x (stream.find? fun other => other.offset ≤ x) decoration := by
  induction stream with
  | nil =>
    by_cases hx : decoration.offset ≤ x <;> simp [insertDown, later, hx]
  | cons first rest ih =>
    obtain ⟨hfirst, hrest⟩ := List.pairwise_cons.mp h
    have hbelow : ∀ other ∈ rest.find? (fun other => other.offset ≤ x),
        other.offset < first.offset := fun other hother =>
      hfirst other (List.mem_of_find?_eq_some hother)
    rw [insertDown]
    -- If the first decoration counts already, the new one is better only
    -- where it stands at the same offset or after it.
    by_cases hx : first.offset ≤ x
    · rw [List.find?_cons_of_pos (by simpa using hx)]
      split
      · by_cases hd : decoration.offset ≤ x
        · rw [List.find?_cons_of_pos (by simpa using hd), later, if_pos]
          exact ⟨hd, fun old hold => by cases hold; omega⟩
        · rw [List.find?_cons_of_neg (by simpa using hd),
            List.find?_cons_of_pos (by simpa using hx), later, if_neg (by omega)]
      · split
        · rename_i heq
          rw [List.find?_cons_of_pos (by simpa [heq] using hx), later, if_pos]
          exact ⟨by omega, fun old hold => by cases hold; omega⟩
        · rw [List.find?_cons_of_pos (by simpa using hx), later, if_neg]
          intro hbetter
          have := hbetter.2 first rfl
          omega
    · rw [List.find?_cons_of_neg (by simpa using hx)]
      split
      · rw [List.find?_cons_of_neg (by simp only [decide_eq_true_eq]; omega),
          List.find?_cons_of_neg (by simpa using hx), later, if_neg (by omega)]
      · split
        · rename_i heq
          rw [List.find?_cons_of_neg (by simp only [decide_eq_true_eq]; omega), later,
            if_neg (by omega)]
        · rw [List.find?_cons_of_neg (by simpa using hx)]
          exact ih hrest

/-- The stream that sorting builds, greatest offset first. -/
theorem descending_foldl_insertDown (raw : Stream) {stream : Stream} (h : Descending stream) :
    Descending (raw.foldl (fun stream decoration => insertDown decoration stream) stream) := by
  induction raw generalizing stream with
  | nil => exact h
  | cons first rest ih => exact ih (descending_insertDown first h)

/-- What sorting finds for an offset, from what was found before. -/
theorem find?_foldl_insertDown (raw : Stream) {stream : Stream} (x : Nat)
    (h : Descending stream) :
    (raw.foldl (fun stream decoration => insertDown decoration stream) stream).find?
        (fun other => other.offset ≤ x)
      = raw.foldl (later x) (stream.find? fun other => other.offset ≤ x) := by
  induction raw generalizing stream with
  | nil => rfl
  | cons first rest ih =>
    rw [List.foldl_cons, List.foldl_cons, ih (descending_insertDown first h),
      find?_insertDown first x h]

/-- The offsets of a sorted stream grow. -/
theorem pairwise_sorted (raw : Stream) :
    (sorted raw).Pairwise fun first second => first.offset < second.offset :=
  List.pairwise_reverse.mpr (descending_foldl_insertDown raw List.Pairwise.nil)

/-- A sorted stream styles as its decorations do. -/
theorem styleAt?_sorted (raw : Stream) (x : Nat) :
    styleAt? (sorted raw) x = latestAt? raw x := by
  unfold styleAt? latestAt? sorted
  rw [List.getLast?_filter, List.reverse_reverse,
    find?_foldl_insertDown raw x List.Pairwise.nil]
  rfl

theorem mem_of_mem_foldl_insertDown {raw stream : Stream} {decoration : Decoration}
    (h : decoration ∈ raw.foldl (fun stream decoration => insertDown decoration stream) stream) :
    decoration ∈ raw ∨ decoration ∈ stream := by
  induction raw generalizing stream with
  | nil => exact .inr h
  | cons first rest ih =>
    rcases ih h with hrest | hinsert
    · exact .inl (List.mem_cons_of_mem _ hrest)
    · rcases mem_insertDown hinsert with rfl | hstream
      · exact .inl List.mem_cons_self
      · exact .inr hstream

theorem mem_of_mem_sorted {raw : Stream} {decoration : Decoration}
    (h : decoration ∈ sorted raw) : decoration ∈ raw := by
  rcases mem_of_mem_foldl_insertDown (List.mem_reverse.mp h) with hraw | hnil
  · exact hraw
  · cases hnil

/-- Every offset that a decoration has is kept by an insertion. -/
theorem exists_mem_insertDown {stream : Stream} {other : Decoration} (decoration : Decoration)
    (h : other = decoration ∨ other ∈ stream) :
    ∃ kept ∈ insertDown decoration stream, kept.offset = other.offset := by
  induction stream with
  | nil =>
    rcases h with rfl | hnil
    · exact ⟨other, List.mem_singleton_self _, rfl⟩
    · cases hnil
  | cons first rest ih =>
    rw [insertDown]
    split
    · rcases h with rfl | hmem
      · exact ⟨other, List.mem_cons_self, rfl⟩
      · exact ⟨other, List.mem_cons_of_mem _ hmem, rfl⟩
    · split
      · rename_i heq
        rcases h with rfl | hmem
        · exact ⟨other, List.mem_cons_self, rfl⟩
        · rcases List.mem_cons.mp hmem with rfl | hrest
          · exact ⟨decoration, List.mem_cons_self, heq.symm⟩
          · exact ⟨other, List.mem_cons_of_mem _ hrest, rfl⟩
      · by_cases hfirst : other = first
        · exact ⟨first, List.mem_cons_self, by rw [hfirst]⟩
        · obtain ⟨kept, hkept, heq⟩ :=
            ih (h.imp_right fun hmem => (List.mem_cons.mp hmem).resolve_left hfirst)
          exact ⟨kept, List.mem_cons_of_mem _ hkept, heq⟩

theorem exists_mem_foldl_insertDown {raw stream : Stream} {other : Decoration}
    (h : other ∈ raw ∨ other ∈ stream) :
    ∃ kept ∈ raw.foldl (fun stream decoration => insertDown decoration stream) stream,
      kept.offset = other.offset := by
  induction raw generalizing stream other with
  | nil => exact ⟨other, h.resolve_left List.not_mem_nil, rfl⟩
  | cons first rest ih =>
    rw [List.foldl_cons]
    by_cases hrest : other ∈ rest
    · exact ih (.inl hrest)
    · have hkept : other = first ∨ other ∈ stream :=
        h.imp_left fun hmem => (List.mem_cons.mp hmem).resolve_right hrest
      obtain ⟨kept, hmem, heq⟩ := exists_mem_insertDown first hkept
      obtain ⟨last, hlast, heq'⟩ := ih (.inr hmem)
      exact ⟨last, hlast, heq'.trans heq⟩

/-- Sorting keeps every offset. -/
theorem exists_mem_sorted {raw : Stream} {decoration : Decoration} (h : decoration ∈ raw) :
    ∃ kept ∈ sorted raw, kept.offset = decoration.offset := by
  have hin : decoration ∈ raw ∨ decoration ∈ ([] : Stream) := .inl h
  obtain ⟨kept, hmem, heq⟩ := exists_mem_foldl_insertDown hin
  exact ⟨kept, List.mem_reverse.mpr hmem, heq⟩

/-- Where offsets never fall, the last decoration at or before an
offset is the one that counts. -/
theorem foldl_later {raw : Stream} {best : Option Decoration} (x : Nat)
    (h : raw.Pairwise fun first second => first.offset ≤ second.offset)
    (hbest : ∀ old ∈ best, ∀ decoration ∈ raw, old.offset ≤ decoration.offset) :
    (raw.foldl (later x) best).map Decoration.style
      = (styleAt? raw x).or (best.map Decoration.style) := by
  induction raw generalizing best with
  | nil => rfl
  | cons first rest ih =>
    obtain ⟨hfirst, hrest⟩ := List.pairwise_cons.mp h
    rw [List.foldl_cons, styleAt?_cons]
    by_cases hx : first.offset ≤ x
    · have hlater : later x best first = some first :=
        if_pos ⟨hx, fun old hold => hbest old hold first List.mem_cons_self⟩
      rw [hlater, if_pos hx, Option.or_assoc]
      exact ih hrest fun old hold decoration hmem => by
        cases hold
        exact hfirst decoration hmem
    · have hlater : later x best first = best := if_neg fun hnew => hx hnew.1
      rw [hlater, if_neg hx, Option.or_none]
      exact ih hrest fun old hold decoration hmem =>
        hbest old hold decoration (List.mem_cons_of_mem _ hmem)

theorem latestAt?_eq_styleAt? {raw : Stream} (x : Nat)
    (h : raw.Pairwise fun first second => first.offset ≤ second.offset) :
    latestAt? raw x = styleAt? raw x := by
  have hnone : ∀ old ∈ (none : Option Decoration), ∀ decoration ∈ raw,
      old.offset ≤ decoration.offset := fun _ hold => nomatch hold
  have hfold := foldl_later x h hnone
  rwa [Option.map_none, Option.or_none] at hfold

/-! ### Repeats -/

/-- Without a style before it, the first decoration stays. -/
theorem dropRepeats_none_cons (first : Decoration) (rest : Stream) :
    dropRepeats none (first :: rest) = first :: dropRepeats (some first.style) rest :=
  if_neg (Option.some_ne_none _).symm

theorem dropRepeats_sublist (style : Option Style) (stream : Stream) :
    (dropRepeats style stream).Sublist stream := by
  induction stream generalizing style with
  | nil => exact List.Sublist.slnil
  | cons first rest ih =>
    rw [dropRepeats]
    split
    · exact (ih style).cons first
    · exact (ih (some first.style)).cons_cons first

/-- After a style, what is left of a stream styles as all of it does.
Where neither says anything, that style holds on. -/
theorem styleAt?_dropRepeats (style : Option Style) {stream : Stream} (x : Nat)
    (h : stream.Pairwise fun first second => first.offset < second.offset) :
    (styleAt? (dropRepeats style stream) x).or style = (styleAt? stream x).or style := by
  induction stream generalizing style with
  | nil => rfl
  | cons first rest ih =>
    obtain ⟨hfirst, hrest⟩ := List.pairwise_cons.mp h
    rw [dropRepeats, styleAt?_cons]
    by_cases hx : first.offset ≤ x
    · rw [if_pos hx]
      split
      · rename_i heq
        rw [ih style hrest, heq, Option.or_assoc, Option.or_self]
      · rw [styleAt?_cons, if_pos hx, ih (some first.style) hrest]
    · -- Nothing that comes later is at or before `x` either.
      have hlater : ∀ {kept : Stream}, kept.Sublist rest → styleAt? kept x = none :=
        fun hsub => styleAt?_eq_none fun other hmem => by
          have := hfirst other (hsub.subset hmem)
          omega
      rw [if_neg hx, hlater (List.Sublist.refl rest)]
      split
      · rw [hlater (dropRepeats_sublist style rest)]
        rfl
      · rw [styleAt?_cons, if_neg hx, hlater (dropRepeats_sublist _ rest)]

/-- Neighbours differ in their style, and the first decoration differs
from the style before it. -/
theorem isChain_dropRepeats (style : Option Style) (stream : Stream) :
    (dropRepeats style stream).IsChain (fun first second => first.style ≠ second.style) ∧
      ∀ first ∈ (dropRepeats style stream).head?, style ≠ some first.style := by
  induction stream generalizing style with
  | nil => exact ⟨List.IsChain.nil, fun first hmem => nomatch hmem⟩
  | cons first rest ih =>
    rw [dropRepeats]
    split
    · exact ih style
    · rename_i hne
      obtain ⟨hchain, hhead⟩ := ih (some first.style)
      refine ⟨List.isChain_cons.mpr ⟨fun second hmem heq => ?_, hchain⟩, fun other hmem => ?_⟩
      · exact hhead second hmem (congrArg some heq)
      · cases hmem
        exact hne

/-! ### Compaction -/

theorem dropAtEnd_sublist (stop : Nat) (stream : Stream) :
    (dropAtEnd stop stream).Sublist stream := by
  unfold dropAtEnd
  split
  · split
    · exact List.dropLast_sublist stream
    · exact List.Sublist.refl stream
  · exact List.Sublist.refl stream

/-- Either nothing is dropped and the last decoration is not at the
end, or the one that is dropped is. -/
theorem dropAtEnd_cases (stop : Nat) (stream : Stream) :
    (dropAtEnd stop stream = stream ∧ ∀ last ∈ stream.getLast?, last.offset ≠ stop) ∨
      ∃ last, last.offset = stop ∧ stream = dropAtEnd stop stream ++ [last] := by
  unfold dropAtEnd
  split
  · rename_i last hlast
    split
    · rename_i heq
      obtain ⟨front, rfl⟩ := List.getLast?_eq_some_iff.mp hlast
      exact .inr ⟨last, heq, by rw [List.dropLast_concat]⟩
    · rename_i hne
      refine .inl ⟨rfl, fun other hother => ?_⟩
      rw [hlast] at hother
      cases hother
      exact hne
  · rename_i hnone
    exact .inl ⟨rfl, fun last hlast => by rw [hnone] at hlast; cases hlast⟩

/-- In a stream whose offsets grow, at most one decoration is at the end
of the source. -/
theorem getLast?_dropAtEnd {stop : Nat} {stream : Stream}
    (h : stream.Pairwise fun first second => first.offset < second.offset) :
    ∀ decoration ∈ (dropAtEnd stop stream).getLast?, decoration.offset ≠ stop := by
  intro decoration hmem
  rcases dropAtEnd_cases stop stream with ⟨heq, hlast⟩ | ⟨last, hstop, heq⟩
  · rw [heq] at hmem
    exact hlast decoration hmem
  · -- The decoration that ends the stream now was before the dropped one.
    rw [heq] at h
    have hlt := (List.pairwise_append.mp h).2.2 decoration (List.mem_of_getLast? hmem) last
      List.mem_cons_self
    omega

/-- The dropped decoration says nothing inside the source. -/
theorem styleAt?_dropAtEnd {stop x : Nat} (stream : Stream) (h : x < stop) :
    styleAt? (dropAtEnd stop stream) x = styleAt? stream x := by
  rcases dropAtEnd_cases stop stream with ⟨heq, -⟩ | ⟨last, hstop, heq⟩
  · rw [heq]
  · have hlast : styleAt? [last] x = none :=
      styleAt?_eq_none fun other hmem => by
        rw [List.mem_singleton.mp hmem]
        omega
    conv => rhs; rw [heq, styleAt?_append, hlast]
    rfl

theorem mem_of_mem_compact {raw : Stream} {base size : Nat} {decoration : Decoration}
    (h : decoration ∈ compact raw base size) : decoration ∈ raw :=
  mem_of_mem_sorted
    ((dropRepeats_sublist _ _).subset ((dropAtEnd_sublist _ _).subset h))

/-- The offsets of a compacted stream grow. -/
theorem pairwise_compact (raw : Stream) (base size : Nat) :
    (compact raw base size).Pairwise fun first second => first.offset < second.offset :=
  (pairwise_sorted raw).sublist
    ((dropAtEnd_sublist _ _).trans (dropRepeats_sublist _ _))

/-- Neighbours in a compacted stream differ in their style. -/
theorem isChain_compact (raw : Stream) (base size : Nat) :
    (compact raw base size).IsChain fun first second => first.style ≠ second.style := by
  have hchain := (isChain_dropRepeats none (sorted raw)).1
  unfold compact
  rcases dropAtEnd_cases (base + size) (dropRepeats none (sorted raw)) with
    ⟨heq, -⟩ | ⟨last, -, heq⟩
  · rw [heq]
    exact hchain
  · rw [heq] at hchain
    exact hchain.left_of_append

/-- Inside the source, a compacted stream styles as the raw one. -/
theorem styleAt?_compact (raw : Stream) {base size x : Nat} (h : x < base + size) :
    styleAt? (compact raw base size) x = latestAt? raw x := by
  unfold compact
  rw [styleAt?_dropAtEnd _ h, ← styleAt?_sorted]
  have hkept := styleAt?_dropRepeats none x (pairwise_sorted raw)
  rwa [Option.or_none, Option.or_none] at hkept

/-- Where offsets grow up to the end of the source and the last one is
not there, none is. -/
theorem offset_lt_of_getLast? {stop : Nat} {stream : Stream}
    (hpair : stream.Pairwise fun first second => first.offset < second.offset)
    (hstop : ∀ decoration ∈ stream, decoration.offset ≤ stop)
    (hlast : ∀ decoration ∈ stream.getLast?, decoration.offset ≠ stop) :
    ∀ decoration ∈ stream, decoration.offset < stop := by
  intro decoration hmem
  rcases List.eq_nil_or_concat stream with rfl | ⟨front, last, rfl⟩
  · cases hmem
  · rw [List.concat_eq_append] at hpair hstop hlast hmem
    have hle := hstop last (by simp)
    have hne := hlast last (by simp)
    rcases List.mem_append.mp hmem with hfront | hback
    · have := (List.pairwise_append.mp hpair).2.2 decoration hfront last List.mem_cons_self
      omega
    · rw [List.mem_singleton.mp hback]
      omega

/-- No decoration of a compacted stream is at the end of the source. -/
theorem offset_lt_of_mem_compact {raw : Stream} {base size : Nat} {decoration : Decoration}
    (hstop : ∀ other ∈ raw, other.offset ≤ base + size)
    (h : decoration ∈ compact raw base size) : decoration.offset < base + size :=
  offset_lt_of_getLast? (pairwise_compact raw base size)
    (fun other hother => hstop other (mem_of_mem_compact hother))
    (getLast?_dropAtEnd ((pairwise_sorted raw).sublist (dropRepeats_sublist none _))) decoration h

/-- A compacted stream starts where its source does, if the source is
not empty. -/
theorem head?_compact {raw : Stream} {base size : Nat} (hsize : 0 < size)
    (hbase : ∀ other ∈ raw, base ≤ other.offset)
    (hfirst : ∃ first ∈ raw, first.offset = base) :
    (compact raw base size).head?.map Decoration.offset = some base := by
  obtain ⟨first, hmem, hoff⟩ := hfirst
  obtain ⟨kept, hkept, heq⟩ := exists_mem_sorted hmem
  obtain ⟨head, rest, hsorted⟩ := List.exists_cons_of_ne_nil (List.ne_nil_of_mem hkept)
  have hhead : head.offset = base := by
    have hge := hbase head (mem_of_mem_sorted (by rw [hsorted]; exact List.mem_cons_self))
    have hpair := pairwise_sorted raw
    rw [hsorted] at hpair hkept
    rcases List.mem_cons.mp hkept with rfl | hrest
    · omega
    · have := (List.pairwise_cons.mp hpair).1 kept hrest
      omega
  have hrepeats : dropRepeats none (sorted raw)
      = head :: dropRepeats (some head.style) rest := by
    rw [hsorted, dropRepeats_none_cons]
  unfold compact
  rcases dropAtEnd_cases (base + size) (dropRepeats none (sorted raw)) with
    ⟨heq, -⟩ | ⟨last, hlast, heq⟩
  · rw [heq, hrepeats]
    simp [hhead]
  · -- The decoration that is dropped is not the first one.
    rw [hrepeats] at heq ⊢
    cases hdrop : dropAtEnd (base + size) (head :: dropRepeats (some head.style) rest) with
    | nil =>
      rw [hdrop] at heq
      obtain ⟨rfl, -⟩ := List.cons.inj heq
      omega
    | cons second others =>
      rw [hdrop] at heq
      obtain ⟨rfl, -⟩ := List.cons.inj heq
      simp [hhead]

end Highlighter.Stream
