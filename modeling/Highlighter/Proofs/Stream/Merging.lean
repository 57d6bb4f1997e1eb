import Mathlib.Data.List.SplitBy
import Highlighter.Proofs.Stream.Canonical
import Highlighter.Proofs.Stream.Fixpoints
import Highlighter.Proofs.Stream.Runs

/-!
# Runs before and after compaction

A stream whose offsets never fall has runs of its own, and so has its
compaction. Of decorations at one offset, the runs of the raw stream
show the last one since the others have no room; compaction writes over
them. Both give each offset of the source one style, the same one.

What differs is how finely the source is divided. Compaction merges
each longest row of runs that touch and have one style (`Run.merged`).

* `gives_runsUpTo`: the runs of a stream give the styles that the
  stream says.
* `runsUpTo_sorted`, `runsUpTo_dropRepeats`, `runsUpTo_dropAtEnd`: what
  each step of compaction does to the runs. Only the second one changes
  them.
* `runs_compact`: the three steps together.
-/

set_option autoImplicit false

namespace Highlighter

/-! ### Runs that are merged -/

namespace Run

/-- Whether some run gives an offset a style. -/
def Gives (runs : List Run) (x : Nat) (style : Style) : Prop :=
  ∃ run ∈ runs, run.start ≤ x ∧ x < run.stop ∧ run.style = style

/-- Whether a second run goes on where the first one stops, in the same
style. -/
def continues (first second : Run) : Bool :=
  decide (first.stop = second.start ∧ first.style = second.style)

/-- One run from the start of the first to the end of the last of some
runs. -/
def joined? (group : List Run) : Option Run := do
  let first ← group.head?
  let last ← group.getLast?
  return ⟨first.start, last.stop, first.style⟩

/-- Runs with each longest row of runs that continue each other joined
to one. -/
def merged (runs : List Run) : List Run := (runs.splitBy continues).filterMap joined?

variable {first next whole : Run} {runs rest others : List Run}

theorem gives_cons {x : Nat} {style : Style} :
    Gives (first :: runs) x style ↔
      (first.start ≤ x ∧ x < first.stop ∧ first.style = style) ∨ Gives runs x style := by
  unfold Gives
  rw [List.exists_mem_cons_iff]

/-- A run that the next one does not continue stays as it is. -/
theorem merged_cons (h : ∀ next ∈ runs.head?, first.continues next = false) :
    merged (first :: runs) = first :: merged runs := by
  cases runs with
  | nil => rfl
  | cons next rest =>
    have hsplit := List.splitBy_append_cons (l := [first]) (r := continues) rest
      fun run hrun => by
        cases hrun
        exact h next rfl
    unfold merged
    rw [← List.singleton_append, hsplit, List.filterMap_append]
    rfl

/-- A run in front of one that continues it joins the row of that
one. -/
theorem splitBy_cons_cons (hcontinues : first.continues next = true) {row : List Run}
    {rows : List (List Run)} (h : (next :: rest).splitBy continues = row :: rows) :
    (first :: next :: rest).splitBy continues = (first :: row) :: rows := by
  obtain ⟨hflatten, hnil, hrows, hends⟩ := List.splitBy_eq_iff.mp h
  obtain ⟨hrow, hothers⟩ := List.forall_mem_cons.mp hrows
  have hne : row ≠ [] := fun heq => hnil (heq ▸ List.mem_cons_self)
  -- The rows put together begin with the run that is continued.
  have hhead : row.head? = some next := by
    rw [List.flatten_cons] at hflatten
    rw [← List.head?_append_of_ne_nil row hne, ← hflatten]
    rfl
  refine List.splitBy_eq_iff.mpr ⟨by rw [hflatten]; rfl, ?_, ?_, ?_⟩
  · exact fun hmem => hnil (List.mem_cons_of_mem _ ((List.mem_cons.mp hmem).resolve_left
      (List.cons_ne_nil _ _).symm))
  · refine List.forall_mem_cons.mpr ⟨List.isChain_cons.mpr ⟨fun second hmem => ?_, hrow⟩, hothers⟩
    rw [hhead] at hmem
    cases hmem
    exact hcontinues
  · obtain ⟨hnext, hchain⟩ := List.isChain_cons.mp hends
    refine List.isChain_cons.mpr ⟨fun second hmem => ?_, hchain⟩
    obtain ⟨hfirst, hsecond, hapart⟩ := hnext second hmem
    exact ⟨List.cons_ne_nil _ _, hsecond, by rwa [List.getLast_cons hfirst]⟩

/-- A run in front of one that continues it extends what that one has
been merged to. -/
theorem merged_cons_cons (hcontinues : first.continues next = true)
    (h : merged (next :: rest) = whole :: others) :
    merged (first :: next :: rest) = ⟨first.start, whole.stop, first.style⟩ :: others := by
  cases hsplit : (next :: rest).splitBy continues with
  | nil => exact absurd hsplit (List.splitBy_ne_nil.mpr (List.cons_ne_nil _ _))
  | cons row rows =>
    have hne : row ≠ [] := List.ne_nil_of_mem_splitBy (hsplit ▸ List.mem_cons_self)
    obtain ⟨last, hlast⟩ := Option.ne_none_iff_exists'.mp (mt List.getLast?_eq_none_iff.mp hne)
    obtain ⟨head, hhead⟩ := Option.ne_none_iff_exists'.mp (mt List.head?_eq_none_iff.mp hne)
    unfold merged at h ⊢
    rw [hsplit, List.filterMap_cons_some (b := ⟨head.start, last.stop, head.style⟩)
      (by simp [joined?, hhead, hlast])] at h
    obtain ⟨rfl, rfl⟩ := List.cons.inj h
    rw [splitBy_cons_cons hcontinues hsplit]
    exact List.filterMap_cons_some (by simp [joined?, List.getLast?_cons, hlast])

end Run

namespace Stream

variable {stream rest : Stream} {first : Decoration} {base size stop x : Nat} {style : Style}

/-! ### The styles that runs give -/

/-- A decoration without room before the next one gives no run. -/
theorem runsUpTo_cons_of_le (h : nextOffset stop rest ≤ first.offset) :
    runsUpTo stop (first :: rest) = runsUpTo stop rest := by
  cases rest with
  | nil => exact if_neg (Nat.not_lt.mpr h)
  | cons second others => exact if_neg (Nat.not_lt.mpr h)

/-- A decoration at the end of the source gives no run. -/
theorem runsUpTo_singleton (h : first.offset = stop) : runsUpTo stop [first] = [] :=
  runsUpTo_cons_of_le (Nat.le_of_eq h.symm)

/-- Where offsets never fall, none is before the next one. -/
theorem nextOffset_le (hsorted : rest.Pairwise fun first second => first.offset ≤ second.offset) :
    ∀ decoration ∈ rest, nextOffset stop rest ≤ decoration.offset := by
  intro decoration hmem
  cases rest with
  | nil => cases hmem
  | cons second others =>
    rcases List.mem_cons.mp hmem with rfl | hmem
    · exact Nat.le_refl _
    · exact (List.pairwise_cons.mp hsorted).1 decoration hmem

theorem nextOffset_le_stop (hstop : ∀ decoration ∈ rest, decoration.offset ≤ stop) :
    nextOffset stop rest ≤ stop := by
  cases rest with
  | nil => exact Nat.le_refl _
  | cons second others => exact hstop second List.mem_cons_self

/-- From its first decoration on, a stream says itself which style
holds. -/
theorem styleAt?_or_of_nextOffset_le (hnext : nextOffset stop rest ≤ x) (hx : x < stop)
    (before : Option Style) : (styleAt? rest x).or before = styleAt? rest x := by
  cases rest with
  | nil => exact absurd hx (Nat.not_lt.mpr hnext)
  | cons second others =>
    have hsecond : second.offset ≤ x := hnext
    rw [styleAt?_cons, if_pos hsecond, Option.or_assoc]
    rfl

/-- The runs of a stream whose offsets never fall give the styles that
the stream says. -/
theorem gives_runsUpTo
    (hsorted : stream.Pairwise fun first second => first.offset ≤ second.offset)
    (hstop : ∀ decoration ∈ stream, decoration.offset ≤ stop) :
    Run.Gives (runsUpTo stop stream) x style ↔ x < stop ∧ styleAt? stream x = some style := by
  induction stream with
  | nil => simp [Run.Gives, runsUpTo]
  | cons first rest ih =>
    obtain ⟨-, hrest⟩ := List.pairwise_cons.mp hsorted
    obtain ⟨-, hbelow⟩ := List.forall_mem_cons.mp hstop
    have hrestGives := ih hrest hbelow
    have hend := nextOffset_le_stop hbelow
    rw [styleAt?_cons]
    by_cases hroom : first.offset < nextOffset stop rest
    · rw [runsUpTo_cons hroom, Run.gives_cons, hrestGives]
      by_cases hx : x < nextOffset stop rest
      · -- The offset is in the first run, or before it.
        have hnone : styleAt? rest x = none := styleAt?_eq_none fun other hmem =>
          Nat.lt_of_lt_of_le hx (nextOffset_le hrest other hmem)
        have hlt : x < stop := Nat.lt_of_lt_of_le hx hend
        simp [hnone, hx, hlt]
      · -- The rest decides, and the first run is over.
        have hother : ¬ (first.offset ≤ x ∧ x < nextOffset stop rest ∧ first.style = style) :=
          fun h => hx h.2.1
        rw [or_iff_right hother]
        refine and_congr_right fun hlt => ?_
        rw [styleAt?_or_of_nextOffset_le (Nat.not_lt.mp hx) hlt]
    · have hover := Nat.not_lt.mp hroom
      rw [runsUpTo_cons_of_le hover, hrestGives]
      refine and_congr_right fun hlt => ?_
      by_cases hx : first.offset ≤ x
      · rw [styleAt?_or_of_nextOffset_le (Nat.le_trans hover hx) hlt]
      · rw [if_neg hx, Option.or_none]

/-- A stream that says a style has a decoration at or before the
offset. -/
theorem le_of_styleAt? (h : styleAt? stream x = some style)
    (hstart : ∀ decoration ∈ stream, base ≤ decoration.offset) : base ≤ x := by
  by_contra hlt
  rw [styleAt?_eq_none fun decoration hmem =>
    Nat.lt_of_lt_of_le (Nat.not_le.mp hlt) (hstart decoration hmem)] at h
  cases h

/-! ### What compaction does to runs -/

/-- The runs of one stream after another. The first one ends where the
second one starts. -/
theorem runsUpTo_append (stream rest : Stream) :
    runsUpTo stop (stream ++ rest)
      = runsUpTo (nextOffset stop rest) stream ++ runsUpTo stop rest := by
  induction stream with
  | nil => rfl
  | cons first others ih =>
    have hnext : nextOffset stop (others ++ rest) = nextOffset (nextOffset stop rest) others := by
      cases others with
      | nil => rfl
      | cons second others => rfl
    rw [List.cons_append]
    by_cases hroom : first.offset < nextOffset stop (others ++ rest)
    · rw [runsUpTo_cons hroom, ih, hnext, runsUpTo_cons (hnext ▸ hroom), List.cons_append]
    · have hover := Nat.not_lt.mp hroom
      rw [runsUpTo_cons_of_le hover, ih, runsUpTo_cons_of_le (hnext ▸ hover)]

/-- The decoration at the end of the source has no run. -/
theorem runsUpTo_dropAtEnd (stop : Nat) (stream : Stream) :
    runsUpTo stop (dropAtEnd stop stream) = runsUpTo stop stream := by
  rcases dropAtEnd_cases stop stream with ⟨heq, -⟩ | ⟨last, hstop, heq⟩
  · rw [heq]
  · have hnext : nextOffset stop [last] = stop := hstop
    conv => rhs; rw [heq, runsUpTo_append, runsUpTo_singleton hstop, hnext, List.append_nil]

/-- Of decorations at one offset, only the last one has a run, and
sorting keeps that one. -/
theorem runsUpTo_sorted
    (hsorted : stream.Pairwise fun first second => first.offset ≤ second.offset) :
    runsUpTo stop (sorted stream) = runsUpTo stop stream := by
  -- Sorting decides on the last decoration, so the induction is from the end.
  induction stream using List.reverseRecOn generalizing stop with
  | nil => rfl
  | append_singleton stream new ih =>
    obtain ⟨hstream, -, hnew⟩ := List.pairwise_append.mp hsorted
    have hbefore : ∀ other ∈ sorted stream, other.offset ≤ new.offset := fun other hmem =>
      hnew other (mem_of_mem_sorted hmem) new List.mem_cons_self
    have hruns : runsUpTo stop (stream ++ [new])
        = runsUpTo new.offset (sorted stream) ++ runsUpTo stop [new] := by
      rw [runsUpTo_append, ih hstream]
      rfl
    rw [hruns, sorted_concat]
    rcases List.eq_nil_or_concat (sorted stream) with hnil | ⟨front, last, hsplit⟩
    · rw [hnil]
      rfl
    · rw [List.concat_eq_append] at hsplit
      have hle := hbefore last (by simp [hsplit])
      rw [hsplit, List.reverse_append, List.reverse_singleton, List.singleton_append, insertDown]
      by_cases hlt : last.offset < new.offset
      · rw [if_pos hlt, List.reverse_cons, List.reverse_cons, List.reverse_reverse,
          runsUpTo_append]
        rfl
      · -- The new decoration replaces the last one, which has no room before it.
        have heq : last.offset = new.offset := by omega
        have hnext : nextOffset new.offset [last] = new.offset := heq
        rw [if_neg hlt, if_pos heq, List.reverse_cons, List.reverse_reverse, runsUpTo_append,
          runsUpTo_append, runsUpTo_singleton heq, hnext, List.append_nil]
        rfl

/-- In a stream whose offsets grow up to the end of the source, only the
last decoration can be without room. -/
theorem lt_nextOffset_or_last
    (hpair : (first :: rest).Pairwise fun first second => first.offset < second.offset)
    (hstop : ∀ decoration ∈ first :: rest, decoration.offset ≤ stop) :
    first.offset < nextOffset stop rest ∨ rest = [] ∧ first.offset = stop := by
  rcases Nat.lt_or_eq_of_le (hstop first List.mem_cons_self) with hlt | heq
  · exact .inl (offset_lt_nextOffset hpair hlt)
  · cases rest with
    | nil => exact .inr ⟨rfl, heq⟩
    | cons second others => exact .inl ((List.pairwise_cons.mp hpair).1 second List.mem_cons_self)

/-- The run of a decoration takes in that of the next one if both have
one style, also where more of the decorations after them are left
out. -/
theorem merged_cons_runsUpTo {second : Decoration} {kept : Stream}
    (hsame : first.style = second.style) (hroom : first.offset < second.offset)
    (hpair : (second :: rest).Pairwise fun first second => first.offset < second.offset)
    (hstop : ∀ decoration ∈ second :: rest, decoration.offset ≤ stop) (hkept : kept.Sublist rest)
    (hmerged : runsUpTo stop (second :: kept) = Run.merged (runsUpTo stop (second :: rest))) :
    runsUpTo stop (first :: kept)
      = Run.merged (⟨first.offset, second.offset, first.style⟩
          :: runsUpTo stop (second :: rest)) := by
  rcases lt_nextOffset_or_last hpair hstop with hnext | ⟨rfl, hlast⟩
  · have hlt : second.offset < stop :=
      Nat.lt_of_lt_of_le hnext (nextOffset_le_stop (List.forall_mem_cons.mp hstop).2)
    have hkeptRoom : second.offset < nextOffset stop kept :=
      offset_lt_nextOffset (hpair.sublist (hkept.cons_cons second)) hlt
    rw [runsUpTo_cons hkeptRoom, runsUpTo_cons hnext] at hmerged
    rw [runsUpTo_cons hnext, Run.merged_cons_cons (decide_eq_true ⟨rfl, hsame⟩) hmerged.symm,
      runsUpTo_cons (Nat.lt_trans hroom hkeptRoom)]
  · -- The second decoration is at the end of the source and has no run.
    have hfirstRoom : first.offset < nextOffset stop [] := hlast ▸ hroom
    rw [List.sublist_nil.mp hkept, runsUpTo_singleton hlast, runsUpTo_cons hfirstRoom, hlast]
    rfl

/-- The run of a decoration stays as it is where the next one changes
the style. -/
theorem merged_cons_runsUpTo_of_ne {second : Decoration} (hne : first.style ≠ second.style)
    (hpair : (second :: rest).Pairwise fun first second => first.offset < second.offset)
    (hstop : ∀ decoration ∈ second :: rest, decoration.offset ≤ stop) :
    Run.merged (⟨first.offset, second.offset, first.style⟩ :: runsUpTo stop (second :: rest))
      = ⟨first.offset, second.offset, first.style⟩
          :: Run.merged (runsUpTo stop (second :: rest)) := by
  refine Run.merged_cons fun run hrun => decide_eq_false fun hcontinues => hne ?_
  rcases lt_nextOffset_or_last hpair hstop with hnext | ⟨rfl, hlast⟩
  · rw [runsUpTo_cons hnext] at hrun
    cases hrun
    exact hcontinues.2
  · rw [runsUpTo_singleton hlast] at hrun
    cases hrun

theorem runsUpTo_cons_dropRepeats
    (hpair : (first :: rest).Pairwise fun first second => first.offset < second.offset)
    (hstop : ∀ decoration ∈ first :: rest, decoration.offset ≤ stop) :
    runsUpTo stop (first :: dropRepeats (some first.style) rest)
      = Run.merged (runsUpTo stop (first :: rest)) := by
  induction rest generalizing first with
  | nil =>
    -- There is at most one run, and nothing to merge.
    rcases lt_nextOffset_or_last hpair hstop with hroom | ⟨-, hlast⟩
    · rw [dropRepeats, runsUpTo_cons hroom]
      rfl
    · rw [dropRepeats, runsUpTo_singleton hlast]
      rfl
  | cons second others ih =>
    obtain ⟨hfirst, hothers⟩ := List.pairwise_cons.mp hpair
    obtain ⟨-, hbelow⟩ := List.forall_mem_cons.mp hstop
    have hroom : first.offset < second.offset := hfirst second List.mem_cons_self
    have hmerged := ih hothers hbelow
    have hruns : ∀ rest, runsUpTo stop (first :: second :: rest)
        = ⟨first.offset, second.offset, first.style⟩ :: runsUpTo stop (second :: rest) :=
      fun rest => runsUpTo_cons hroom
    rw [dropRepeats, hruns]
    by_cases hsame : first.style = second.style
    · rw [← hsame] at hmerged
      rw [if_pos (congrArg some hsame)]
      exact merged_cons_runsUpTo hsame hroom hothers hbelow (dropRepeats_sublist _ _) hmerged
    · rw [if_neg fun heq => hsame (Option.some.inj heq), hruns,
        merged_cons_runsUpTo_of_ne hsame hothers hbelow, hmerged]

/-- A decoration that is dropped since it repeats a style no longer
divides the run of that style. -/
theorem runsUpTo_dropRepeats
    (hpair : stream.Pairwise fun first second => first.offset < second.offset)
    (hstop : ∀ decoration ∈ stream, decoration.offset ≤ stop) :
    runsUpTo stop (dropRepeats none stream) = Run.merged (runsUpTo stop stream) := by
  cases stream with
  | nil => rfl
  | cons first rest =>
    rw [dropRepeats_none_cons]
    exact runsUpTo_cons_dropRepeats hpair hstop

/-- A stream and its compaction give the offsets of a source the same
styles by their runs, which are those that the stream says. The runs of
the compaction are those of the stream with each longest row of touching
runs of one style merged. -/
theorem runs_compact
    (hsorted : stream.Pairwise fun first second => first.offset ≤ second.offset)
    (hfits : Fits base size stream) :
    (∀ x style, Run.Gives (runs stream base size) x style ↔
      Run.Gives (runs (compact stream base size) base size) x style) ∧
    (∀ x style, Run.Gives (runs stream base size) x style ↔
      base ≤ x ∧ x < base + size ∧ styleAt? stream x = some style) ∧
    runs (compact stream base size) base size = Run.merged (runs stream base size) := by
  have hstop : ∀ decoration ∈ stream, decoration.offset ≤ base + size :=
    fun decoration hmem => (hfits decoration hmem).2
  have hraw : ∀ x style, Run.Gives (runs stream base size) x style ↔
      x < base + size ∧ styleAt? stream x = some style :=
    fun _ _ => gives_runsUpTo hsorted hstop
  refine ⟨fun x style => ?_, fun x style => ?_, ?_⟩
  · have hcompact : Run.Gives (runs (compact stream base size) base size) x style ↔
        x < base + size ∧ styleAt? (compact stream base size) x = some style :=
      gives_runsUpTo ((pairwise_compact stream base size).imp Nat.le_of_lt)
        fun decoration hmem => hstop decoration (mem_of_mem_compact hmem)
    rw [hraw, hcompact]
    refine and_congr_right fun hx => ?_
    rw [styleAt?_compact stream hx, latestAt?_eq_styleAt? x hsorted]
  · rw [hraw]
    exact ⟨fun h => ⟨le_of_styleAt? h.2 fun decoration hmem => (hfits decoration hmem).1, h⟩,
      And.right⟩
  · calc runs (compact stream base size) base size
        = runsUpTo (base + size) (dropRepeats none (sorted stream)) := runsUpTo_dropAtEnd _ _
      _ = Run.merged (runsUpTo (base + size) (sorted stream)) :=
          runsUpTo_dropRepeats (pairwise_sorted stream) fun decoration hmem =>
            hstop decoration (mem_of_mem_sorted hmem)
      _ = Run.merged (runs stream base size) := congrArg Run.merged (runsUpTo_sorted hsorted)

/-- A string in two parts, after what is overwritten and before what is
at the end of the source. -/
def divided : Stream :=
  [⟨3, .comment⟩, ⟨3, .string⟩, ⟨5, .string⟩, ⟨7, .keyword⟩, ⟨9, .plain⟩]

theorem runs_compact_divided :
    (divided.Pairwise fun first second => first.offset ≤ second.offset) ∧ Fits 3 6 divided ∧
      (Run.Gives (runs divided 3 6) 6 .string ↔
        Run.Gives (runs (compact divided 3 6) 3 6) 6 .string) ∧
      runs (compact divided 3 6) 3 6 = Run.merged (runs divided 3 6) := by
  have hsorted : divided.Pairwise fun first second => first.offset ≤ second.offset := by
    unfold divided
    decide
  have hfits : Fits 3 6 divided := by unfold Fits; decide
  have hruns := runs_compact hsorted hfits
  exact ⟨hsorted, hfits, hruns.1 6 .string, hruns.2.2⟩

example : runs divided 3 6 = [⟨3, 5, .string⟩, ⟨5, 7, .string⟩, ⟨7, 9, .keyword⟩] ∧
    runs (compact divided 3 6) 3 6 = [⟨3, 7, .string⟩, ⟨7, 9, .keyword⟩] := by decide

end Stream

end Highlighter
