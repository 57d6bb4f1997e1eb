import Highlighter.Proofs.CommandLine.Reading
import Highlighter.Proofs.Embedding.Emission
import Highlighter.Proofs.Registry.Growth

/-!
# The output covers the input

What the command prints says of its input what the decoration of it
says: line by line the runs come back, with the style of each, and they
tile the source (`Covers`).

* `covers_ofRun`: so it is for the runs of any canonical stream.
* `covers_output`: so it is for the output of any decoration.
* `outcome_covers`: the command either prints such an output, or
  prints nothing and fails.

Reading works since no style that is printed is an embedding
(`Registry.noEmbedding_of_decorate`), and excerpts are of the right
part since all offsets are between characters
(`IsBoundary.exists_between`).
-/

set_option autoImplicit false

namespace Highlighter

/-! ### Runs and the source -/

/-- Where runs lie end to end, each ends where another one starts, or
where all of them end. -/
theorem Run.Tiles.stop_eq {start stop : Nat} {runs : List Run} (h : Run.Tiles start stop runs) :
    ∀ run ∈ runs, run.stop = stop ∨ ∃ next ∈ runs, run.stop = next.start := by
  obtain ⟨-, htouching, -, hlast⟩ := h
  induction runs with
  | nil => exact fun run hmem => nomatch hmem
  | cons first rest ih =>
    intro run hmem
    cases rest with
    | nil =>
      rw [List.mem_singleton.mp hmem]
      exact .inl (Option.some.inj hlast)
    | cons second others =>
      obtain ⟨htouch, hrest⟩ := List.isChain_cons_cons.mp htouching
      rcases List.mem_cons.mp hmem with rfl | hmem
      · exact .inr ⟨second, by simp, htouch⟩
      · refine (ih hrest ?_ run hmem).imp_right ?_
        · rwa [List.getLast?_cons_cons] at hlast
        · rintro ⟨next, hnext, heq⟩
          exact ⟨next, List.mem_cons_of_mem _ hnext, heq⟩

/-- The decorations of a source in a language are canonical. -/
theorem Registry.canonical_of_decorate {registry after : Registry} {id : Option String}
    {source : List Char} {base : Nat} {stream : Stream}
    (h : registry.decorate id source base = (.ok stream, after)) :
    stream.Canonical source base := by
  obtain ⟨resolved, ready, -, hwith⟩ := decorate_eq_ok h
  obtain ⟨raw, hraw, rfl⟩ := decorateWith_eq_ok hwith
  exact Stream.canonical_compact (within_decorateWithin _ hraw) (head?_decorateWithin hraw)

namespace Stream

variable {source : List Char} {stream : Stream}

/-- Each run of a canonical stream has one of its decorations. -/
theorem Canonical.decoration_mem (h : Canonical source 0 stream) {run : Run}
    (hmem : run ∈ stream.runs 0 (Text.byteSize source)) : ⟨run.start, run.style⟩ ∈ stream := by
  rw [← h.tiled.runs]
  exact List.mem_map.mpr ⟨run, hmem, rfl⟩

/-- The runs of a canonical stream start and end between characters. -/
theorem Canonical.boundary_run (h : Canonical source 0 stream) {run : Run}
    (hmem : run ∈ stream.runs 0 (Text.byteSize source)) :
    Text.IsBoundary source 0 run.start ∧ Text.IsBoundary source 0 run.stop ∧
      run.start ≤ run.stop := by
  have hne : source ≠ [] := by
    rintro rfl
    rw [h.empty rfl] at hmem
    cases hmem
  have htiles := h.tiled.tiles hne
  refine ⟨h.boundary _ (h.decoration_mem hmem), ?_, Nat.le_of_lt (htiles.nonempty run hmem)⟩
  -- A run ends where the source does, or where another run starts.
  rcases htiles.stop_eq run hmem with hstop | ⟨next, hnext, hstop⟩
  · exact ⟨source, [], List.append_nil _, hstop⟩
  · rw [hstop]
    exact h.boundary _ (h.decoration_mem hnext)

/-- Runs of a canonical stream that touch differ in their style. -/
theorem Canonical.changing_runs (h : Canonical source 0 stream) :
    (stream.runs 0 (Text.byteSize source)).IsChain fun first second =>
      first.style ≠ second.style := by
  have hchain := h.changing
  rw [← h.tiled.runs, List.isChain_map] at hchain
  exact hchain

end Stream

namespace CommandLine

/-! ### Lines that cover a source -/

/-- Lines that say of every part of a source what style it has. -/
structure Covers (source : List Char) (lines : List Line) : Prop where
  /-- The runs lie end to end from the first byte to the last one, and
  none of them is empty. -/
  tiles : source ≠ [] → Run.Tiles 0 (Text.byteSize source) (lines.map Line.run)
  /-- There is no line for an empty source. -/
  empty : source = [] → lines = []
  /-- All offsets are between characters. -/
  boundary : ∀ line ∈ lines,
    Text.IsBoundary source 0 line.run.start ∧ Text.IsBoundary source 0 line.run.stop
  /-- Lines in a row have different styles. -/
  changing : lines.IsChain fun first second => first.run.style ≠ second.run.style
  /-- The excerpt of a line is the start of its part of the source. -/
  excerpts : ∀ line ∈ lines, ∃ before body after, before ++ (body ++ after) = source ∧
    line.run.start = Text.byteSize before ∧
    line.run.stop = line.run.start + Text.byteSize body ∧ line.excerpt = body.take 40

variable {source : List Char} {stream : Stream}

/-- The text of a run is the part of the source between its ends. -/
theorem exists_runText {run : Run} (hstart : Text.IsBoundary source 0 run.start)
    (hstop : Text.IsBoundary source 0 run.stop) (hle : run.start ≤ run.stop) :
    ∃ before after, before ++ (runText source run ++ after) = source ∧
      run.start = Text.byteSize before ∧
      run.stop = run.start + Text.byteSize (runText source run) := by
  obtain ⟨before, body, after, rfl, hbefore, hbody⟩ := hstart.exists_between hstop hle
  -- Between characters, cutting by bytes finds the same three parts.
  have hcut : Text.cut? ⟨run.start, run.stop, hle⟩ (before ++ (body ++ after))
      = some ⟨before, body, after⟩ :=
    Text.cut?_append hbefore (by simp only [Span.length]; omega)
  have htext : runText (before ++ (body ++ after)) run = body := by
    rw [runText, dif_pos hle, hcut]
    rfl
  rw [htext]
  exact ⟨before, after, rfl, hbefore, hbody⟩

/-- The lines for the runs of a canonical stream cover the source. -/
theorem covers_ofRun (h : stream.Canonical source 0) :
    Covers source ((stream.runs 0 (Text.byteSize source)).map (.ofRun source)) where
  tiles := fun hne => by
    have htiles := h.tiled.tiles hne
    rw [Nat.zero_add] at htiles
    rw [List.map_map]
    exact (List.map_id _).symm ▸ htiles
  empty := fun hnil => by
    rw [h.empty hnil]
    rfl
  boundary := by
    rw [List.forall_mem_map]
    intro run hmem
    obtain ⟨hstart, hstop, -⟩ := h.boundary_run hmem
    exact ⟨hstart, hstop⟩
  changing := by
    rw [List.isChain_map]
    exact h.changing_runs
  excerpts := by
    rw [List.forall_mem_map]
    intro run hmem
    obtain ⟨hstart, hstop, hle⟩ := h.boundary_run hmem
    obtain ⟨before, after, hsource, hbefore, hbody⟩ := exists_runText hstart hstop hle
    exact ⟨before, _, after, hsource, hbefore, hbody, rfl⟩

/-- The output for a decorated source is read back, and covers it. -/
theorem covers_output {registry after : Registry} {id : Option String}
    (h : registry.decorate id source 0 = (.ok stream, after)) :
    ∃ lines, readOutput? (output source stream) = some lines ∧
      lines.map Line.run = stream.runs 0 (Text.byteSize source) ∧ Covers source lines := by
  have hcanonical : stream.Canonical source 0 := Registry.canonical_of_decorate h
  have hplain := Registry.noEmbedding_of_decorate h
  refine ⟨_, readOutput?_output source fun run hmem => ?_, ?_, covers_ofRun hcanonical⟩
  · exact hplain _ (hcanonical.decoration_mem hmem)
  · rw [List.map_map]
    exact List.map_id _

/-! ### The command -/

/-- The contents of what is to be highlighted. -/
def Options.contents (options : Options) (files : String → Option ByteArray)
    (input : ByteArray) : Option ByteArray :=
  match options.file with
  | some path => files path
  | none => some input

/-- The command gets as far as a decoration of its source: the grammar
files can be registered, all grammars can be compiled, the source can be
read, and it can be decorated. -/
def Options.Decorates (options : Options) (files : String → Option ByteArray) (input : ByteArray)
    (source : String) (stream : Stream) : Prop :=
  ∃ builtins registry warm after, Registry.withBuiltins = .ok builtins ∧
    registerFiles builtins (options.grammars.map files) = .ok registry ∧
    registry.warmUp = (.ok (), warm) ∧
    fileText (options.contents files input) = .ok source ∧
    warm.decorate options.language? source.toList 0 = (.ok stream, after)

variable {options : Options} {files : String → Option ByteArray} {input : ByteArray}

/-- The output of the command is that of the decoration it gets to. -/
theorem Options.output_eq_ok_iff {text : String} :
    options.output files input = .ok text ↔
      ∃ source stream, options.Decorates files input source stream ∧
        text = CommandLine.output source.toList stream := by
  -- Whether a file is named shows only in the contents that are read.
  have hcontents : options.output files input = (do
      let builtins ← Registry.withBuiltins.mapError Failure.config
      let registry ← registerFiles builtins (options.grammars.map files)
      registry.warmUp.1.mapError Failure.config
      let source ← fileText (options.contents files input)
      let stream ← (registry.warmUp.2.decorate options.language? source.toList 0).1
      return CommandLine.output source.toList stream) := rfl
  rw [hcontents]
  constructor
  · -- Each step has worked, or there would be no output.
    intro h
    obtain ⟨builtins, hbuiltins, h⟩ := bind_eq_ok_iff.mp h
    obtain ⟨registry, hfiles, h⟩ := bind_eq_ok_iff.mp h
    obtain ⟨⟨⟩, hwarm, h⟩ := bind_eq_ok_iff.mp h
    obtain ⟨source, hsource, h⟩ := bind_eq_ok_iff.mp h
    obtain ⟨stream, hstream, h⟩ := bind_eq_ok_iff.mp h
    have hcompiled : registry.warmUp = (.ok (), registry.warmUp.2) :=
      Prod.ext (mapError_eq_ok_iff.mp hwarm) rfl
    exact ⟨source, stream, ⟨builtins, registry, _, _, mapError_eq_ok_iff.mp hbuiltins, hfiles,
      hcompiled, hsource, Prod.ext hstream rfl⟩, (Except.ok.inj h).symm⟩
  · rintro ⟨source, stream, ⟨builtins, registry, warm, after, hbuiltins, hfiles, hwarm, hsource,
      hstream⟩, rfl⟩
    refine bind_eq_ok_iff.mpr ⟨builtins, mapError_eq_ok_iff.mpr hbuiltins, ?_⟩
    refine bind_eq_ok_iff.mpr ⟨registry, hfiles, ?_⟩
    refine bind_eq_ok_iff.mpr ⟨(), mapError_eq_ok_iff.mpr (by rw [hwarm]), ?_⟩
    refine bind_eq_ok_iff.mpr ⟨source, hsource, ?_⟩
    exact bind_eq_ok_iff.mpr ⟨stream, by rw [hwarm, hstream], rfl⟩

/-- Whatever options it has and whatever is in the files, the command
does one of two things. It gets to a decoration of its source and
prints lines that are read back, one for each run, and cover the source.
Or it does not get there, fails, and prints nothing to be read. -/
theorem outcome_covers (options : Options) (files : String → Option ByteArray)
    (input : ByteArray) :
    let outcome := (Request.highlight options).outcome files input
    (∃ source stream lines, options.Decorates files input source stream ∧
      outcome.exitCode = 0 ∧ outcome.stderr = "" ∧ readOutput? outcome.stdout = some lines ∧
      lines.map Line.run = stream.runs 0 (Text.byteSize source.toList) ∧
      Covers source.toList lines) ∨
    (¬∃ source stream, options.Decorates files input source stream) ∧
      outcome.exitCode = 1 ∧ outcome.stdout = "" := by
  intro outcome
  cases houtput : options.output files input with
  | error failure =>
    have houtcome : outcome = ⟨1, "", "Error: " ++ failure.message ++ "\n"⟩ := by
      simp only [outcome, Request.outcome, houtput]
    refine .inr ⟨?_, by rw [houtcome], by rw [houtcome]⟩
    -- A decoration would have been printed.
    rintro ⟨source, stream, hdecorates⟩
    have hok := Options.output_eq_ok_iff.mpr ⟨source, stream, hdecorates, rfl⟩
    rw [houtput] at hok
    cases hok
  | ok text =>
    have houtcome : outcome = ⟨0, text, ""⟩ := by
      simp only [outcome, Request.outcome, houtput]
    obtain ⟨source, stream, hdecorates, rfl⟩ := Options.output_eq_ok_iff.mp houtput
    have hshown := hdecorates
    obtain ⟨builtins, registry, warm, after, -, -, -, -, hdecorate⟩ := hshown
    obtain ⟨lines, hread, hruns, hcovers⟩ := covers_output hdecorate
    refine .inl ⟨source, stream, lines, hdecorates, ?_, ?_, ?_, hruns, hcovers⟩
    · rw [houtcome]
    · rw [houtcome]
    · rw [houtcome]
      exact hread

end CommandLine

end Highlighter
