import Mathlib.Data.List.Chain
import Highlighter.Stream

/-!
# The runs of a stream

A stream whose offsets grow up to the end of its source has one run
for each decoration, and the runs lie end to end.

* `map_start_runsUpTo`: run by run, the decorations come back.
* `tiles_runsUpTo`: the runs tile the source from the first decoration
  to the end.
-/

set_option autoImplicit false

namespace Highlighter

/-- Runs that lie end to end from one offset to another, none of them
empty. -/
structure Run.Tiles (start stop : Nat) (runs : List Run) : Prop where
  nonempty : ∀ run ∈ runs, run.start < run.stop
  touching : runs.IsChain fun first second => first.stop = second.start
  first : runs.head?.map Run.start = some start
  last : runs.getLast?.map Run.stop = some stop

namespace Stream

/-- The offset where the run of a decoration ends. -/
def nextOffset (stop : Nat) (rest : Stream) : Nat :=
  (rest.head?.map Decoration.offset).getD stop

/-- A decoration with room before the next one gives a run. -/
theorem runsUpTo_cons {stop : Nat} {first : Decoration} {rest : Stream}
    (h : first.offset < nextOffset stop rest) :
    runsUpTo stop (first :: rest)
      = ⟨first.offset, nextOffset stop rest, first.style⟩ :: runsUpTo stop rest := by
  cases rest with
  | nil => exact if_pos h
  | cons second others => exact if_pos h

/-- In a stream whose offsets grow up to the end, every decoration has
room before the next one. -/
theorem offset_lt_nextOffset {stop : Nat} {first : Decoration} {rest : Stream}
    (hpair : (first :: rest).Pairwise fun first second => first.offset < second.offset)
    (hstop : first.offset < stop) : first.offset < nextOffset stop rest := by
  cases rest with
  | nil => exact hstop
  | cons second others => exact (List.pairwise_cons.mp hpair).1 second List.mem_cons_self

/-- There is one run for each decoration, with its start and its
style. -/
theorem map_start_runsUpTo {stop : Nat} {stream : Stream}
    (hpair : stream.Pairwise fun first second => first.offset < second.offset)
    (hstop : ∀ decoration ∈ stream, decoration.offset < stop) :
    (runsUpTo stop stream).map (fun run => (⟨run.start, run.style⟩ : Decoration)) = stream := by
  induction stream with
  | nil => rfl
  | cons first rest ih =>
    have hroom := offset_lt_nextOffset hpair (hstop first List.mem_cons_self)
    rw [runsUpTo_cons hroom, List.map_cons,
      ih (List.pairwise_cons.mp hpair).2 fun decoration hmem =>
        hstop decoration (List.mem_cons_of_mem _ hmem)]

/-- The runs tile the source from the first decoration to the end. -/
theorem tiles_runsUpTo {stop : Nat} {first : Decoration} {rest : Stream}
    (hpair : (first :: rest).Pairwise fun first second => first.offset < second.offset)
    (hstop : ∀ decoration ∈ first :: rest, decoration.offset < stop) :
    Run.Tiles first.offset stop (runsUpTo stop (first :: rest)) := by
  induction rest generalizing first with
  | nil =>
    have hroom : first.offset < nextOffset stop [] := hstop first List.mem_cons_self
    rw [runsUpTo_cons hroom]
    exact ⟨fun run hmem => by rw [List.mem_singleton.mp hmem]; exact hroom,
      List.IsChain.singleton _, rfl, rfl⟩
  | cons second others ih =>
    have hroom := offset_lt_nextOffset hpair (hstop first List.mem_cons_self)
    have hrest := ih (List.pairwise_cons.mp hpair).2 fun decoration hmem =>
      hstop decoration (List.mem_cons_of_mem _ hmem)
    rw [runsUpTo_cons hroom]
    refine ⟨fun run hmem => ?_, List.isChain_cons.mpr ⟨fun run hmem => ?_, hrest.touching⟩,
      rfl, ?_⟩
    · rcases List.mem_cons.mp hmem with rfl | hmem
      · exact hroom
      · exact hrest.nonempty run hmem
    · -- The next run starts where the next decoration is.
      have hstart := hrest.first
      rw [Option.mem_def.mp hmem] at hstart
      exact (Option.some.inj hstart).symm
    · obtain ⟨run, hlast, hstop⟩ := Option.map_eq_some_iff.mp hrest.last
      rw [List.getLast?_cons, hlast]
      exact congrArg some hstop

end Stream

end Highlighter
