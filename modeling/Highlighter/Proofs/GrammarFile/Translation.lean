import Highlighter.Proofs.Registry.Requests
import Mathlib.Data.List.Forall2

/-!
# What a grammar file says

A file lists specifications of rules, in lists of its own and in those
of the grammars that it brings along. A grammar can be had from it if
each of them names a style, and then describes the file list by list
(`GrammarFile.Describes`). Otherwise the first one that does not is at
fault.

What the lists are read to is told by `Told`, which goes through them in
the order in which they are read (`Told.bind`, `Told.mapM`). The main
statement, `GrammarFile.toGrammar_and_registerFile`, also says what
registering a file comes to.
-/

set_option autoImplicit false

namespace Highlighter

/-- Whether a name is that of a style: one of the short names, or that
of an embedding. -/
def Style.IsName (name : String) : Prop :=
  name ∈ named.map Prod.fst ∨ "lang-".toList <+: name.toList

/-- Some characters are those of a text, each once, in the order of
their first occurrences. -/
structure FirstOccurrences (text chars : List Char) : Prop where
  mem_iff : ∀ c, c ∈ chars ↔ c ∈ text
  inOrder : chars.Pairwise fun c d => text.idxOf c < text.idxOf d

/-- What a rule takes over from its specification. -/
structure RuleSpec.Describes (spec : RuleSpec) (rule : Rule) : Prop where
  style : rule.style.display = spec.style
  /-- One mark that letter case does not count, at the front of the
  pattern, has become a flag. -/
  pattern : spec.pattern = "(?i)" ++ rule.pattern.source ∧ rule.pattern.ignoreCase = true ∨
    ¬ "(?i)".toList <+: spec.pattern.toList ∧ spec.pattern = rule.pattern.source ∧
      rule.pattern.ignoreCase = spec.ignoreCase
  multiline : rule.pattern.multiline = false
  shortcut : FirstOccurrences (spec.chars.getD "").toList rule.shortcut

/-- What a grammar takes over from an auxiliary specification. -/
structure AuxiliarySpec.Describes (spec : AuxiliarySpec) (auxiliary : Named Grammar) : Prop where
  ids : auxiliary.ids = spec.ids
  shortcuts : List.Forall₂ RuleSpec.Describes spec.shortcut auxiliary.grammar.shortcuts
  fallbacks : List.Forall₂ RuleSpec.Describes spec.fallback auxiliary.grammar.fallbacks
  auxiliary : auxiliary.grammar.auxiliary = []

/-- What a grammar takes over from a file. -/
structure GrammarFile.Describes (file : GrammarFile) (grammar : Grammar) : Prop where
  shortcuts : List.Forall₂ RuleSpec.Describes file.shortcut grammar.shortcuts
  fallbacks : List.Forall₂ RuleSpec.Describes file.fallback grammar.fallbacks
  auxiliary : List.Forall₂ AuxiliarySpec.Describes file.auxiliary grammar.auxiliary

/-- The specifications of an auxiliary grammar. -/
def AuxiliarySpec.specs (spec : AuxiliarySpec) : List RuleSpec := spec.shortcut ++ spec.fallback

/-- All specifications of a file, in the order in which they are read. -/
def GrammarFile.specs (file : GrammarFile) : List RuleSpec :=
  file.shortcut ++ file.fallback ++ file.auxiliary.flatMap AuxiliarySpec.specs

/-- A fault is that of the first specification that names no style. -/
def FirstUnknown (specs : List RuleSpec) (error : GrammarError) : Prop :=
  ∃ before spec after, specs = before ++ spec :: after ∧
    (∀ earlier ∈ before, Style.IsName earlier.style) ∧ ¬ Style.IsName spec.style ∧
    error = .unknownStyle spec.style

/-- What specifications are read to: something with a property if all of
them name styles, and the first fault otherwise. -/
def Told {α : Type} (specs : List RuleSpec) (P : α → Prop) : Except GrammarError α → Prop
  | .ok value => (∀ spec ∈ specs, Style.IsName spec.style) ∧ P value
  | .error error => FirstUnknown specs error

/-! ### Reading in order -/

section Told

variable {α β γ : Type} {specs more : List RuleSpec} {P : α → Prop} {Q : β → Prop}

theorem Told.pure {value : α} (h : P value) : Told [] P (pure value) :=
  ⟨fun _ hspec => absurd hspec List.not_mem_nil, h⟩

theorem Told.imp {P' : α → Prop} {result : Except GrammarError α} (h : Told specs P result)
    (himp : ∀ value, P value → P' value) : Told specs P' result := by
  cases result with
  | ok value => exact ⟨h.1, himp value h.2⟩
  | error error => exact h

/-- What is read second only counts where nothing was at fault in what
was read first. -/
theorem Told.bind {result : Except GrammarError α} {next : α → Except GrammarError β}
    (h : Told specs P result) (hnext : ∀ value, P value → Told more Q (next value)) :
    Told (specs ++ more) Q (result >>= next) := by
  cases result with
  | error error =>
    obtain ⟨before, spec, after, rfl, hbefore, hspec, heq⟩ := h
    exact ⟨before, spec, after ++ more, by simp, hbefore, hspec, heq⟩
  | ok value =>
    obtain ⟨hspecs, hvalue⟩ := h
    have htold := hnext value hvalue
    show Told (specs ++ more) Q (next value)
    cases hresult : next value with
    | ok value =>
      rw [hresult] at htold
      exact ⟨fun spec hspec => (List.mem_append.mp hspec).elim (hspecs spec) (htold.1 spec),
        htold.2⟩
    | error error =>
      rw [hresult] at htold
      obtain ⟨before, spec, after, rfl, hbefore, hspec, heq⟩ := htold
      refine ⟨specs ++ before, spec, after, by simp, fun earlier hearlier => ?_, hspec, heq⟩
      exact (List.mem_append.mp hearlier).elim (hspecs earlier) (hbefore earlier)

/-- As `Told.bind`, where nothing more is read. -/
theorem Told.map {result : Except GrammarError α} {f : α → β} (h : Told specs P result)
    (hf : ∀ value, P value → Q (f value)) :
    Told specs Q (result >>= fun value => Pure.pure (f value)) := by
  have hbind := h.bind fun value hvalue => Told.pure (hf value hvalue)
  rwa [List.append_nil] at hbind

theorem Told.mapM {read : γ → Except GrammarError α} {specsOf : γ → List RuleSpec}
    {R : γ → α → Prop} (h : ∀ item, Told (specsOf item) (R item) (read item)) (items : List γ) :
    Told (items.flatMap specsOf) (List.Forall₂ R items) (items.mapM read) := by
  induction items with
  | nil => exact Told.pure .nil
  | cons item items ih =>
    rw [List.mapM_cons, List.flatMap_cons]
    exact (h item).bind fun value hvalue => ih.map fun values hvalues => .cons hvalue hvalues

end Told

/-! ### Styles -/

namespace Style

theorem lookup_named {name : String} {style : Style} (h : named.lookup name = some style) :
    style.display = name := by
  have hall : ∀ entry ∈ named, entry.2.display = entry.1 := by decide
  obtain ⟨before, after, hsplit, -⟩ := List.lookup_eq_some_iff.mp h
  exact hall (name, style) (by rw [hsplit]; simp)

/-- A style that has been found is shown by the name it was found
under. -/
theorem display_of_ofName? {name : String} {style : Style} (h : ofName? name = some style) :
    style.display = name := by
  unfold ofName? at h
  split at h
  · rename_i hmark
    cases h
    obtain ⟨language, hlanguage⟩ := List.isPrefixOf_iff_prefix.mp hmark
    rw [display, String.toList_ofList, ← hlanguage, List.drop_left, hlanguage,
      String.ofList_toList]
  · exact lookup_named h

theorem isSome_ofName? (name : String) : (ofName? name).isSome = true ↔ IsName name := by
  unfold ofName?
  split
  · rename_i hmark
    exact iff_of_true rfl (.inr (List.isPrefixOf_iff_prefix.mp hmark))
  · rename_i hmark
    have hlang : ¬ "lang-".toList <+: name.toList := fun hprefix =>
      hmark (List.isPrefixOf_iff_prefix.mpr hprefix)
    rw [IsName, or_iff_left hlang, List.lookup_isSome_iff, List.mem_map]
    exact exists_congr fun entry => and_congr_right fun _ => beq_iff_eq.trans eq_comm

end Style

/-! ### Rules -/

/-- The characters that a text adds to some that have been seen. -/
theorem distinctAfter_occurrences (seen text : List Char) :
    (∀ c, c ∈ distinctAfter seen text ↔ c ∈ text ∧ c ∉ seen) ∧
      (distinctAfter seen text).Pairwise fun c d => text.idxOf c < text.idxOf d := by
  induction text generalizing seen with
  | nil => exact ⟨fun c => by simp [distinctAfter], .nil⟩
  | cons first rest ih =>
    rw [distinctAfter]
    -- Behind the first character, every other one stands one place later.
    have hlater {chars : List Char} (hne : ∀ c ∈ chars, c ≠ first)
        (horder : chars.Pairwise fun c d => rest.idxOf c < rest.idxOf d) :
        chars.Pairwise fun c d => (first :: rest).idxOf c < (first :: rest).idxOf d :=
      horder.imp_of_mem fun hc hd hlt => by
        rw [List.idxOf_cons_ne _ (hne _ hc).symm, List.idxOf_cons_ne _ (hne _ hd).symm]
        exact Nat.succ_lt_succ hlt
    split
    · rename_i hseen
      obtain ⟨hmem, horder⟩ := ih seen
      rw [List.contains_iff_mem] at hseen
      refine ⟨fun c => ?_, hlater (fun c hc heq => ?_) horder⟩
      · rw [hmem, List.mem_cons]
        exact ⟨fun h => ⟨.inr h.1, h.2⟩,
          fun h => ⟨h.1.resolve_left fun heq => h.2 (heq ▸ hseen), h.2⟩⟩
      · exact ((hmem c).mp hc).2 (heq ▸ hseen)
    · rename_i hseen
      obtain ⟨hmem, horder⟩ := ih (first :: seen)
      rw [List.contains_iff_mem] at hseen
      have hne : ∀ c ∈ distinctAfter (first :: seen) rest, c ≠ first := by
        rintro c hc rfl
        exact ((hmem c).mp hc).2 List.mem_cons_self
      refine ⟨fun c => ?_, .cons (fun d hd => ?_) (hlater hne horder)⟩
      · rw [List.mem_cons, hmem, List.mem_cons, List.mem_cons, not_or]
        constructor
        · rintro (rfl | ⟨hrest, -, hc⟩)
          · exact ⟨.inl rfl, hseen⟩
          · exact ⟨.inr hrest, hc⟩
        · rintro ⟨hc, hunseen⟩
          by_cases heq : c = first
          · exact .inl heq
          · exact .inr ⟨hc.resolve_left heq, heq, hunseen⟩
      · rw [List.idxOf_cons_self, List.idxOf_cons_ne _ (hne d hd).symm]
        exact Nat.succ_pos _

theorem Pattern.ofSource_cases (text : String) :
    text = "(?i)" ++ (ofSource text).source ∧ (ofSource text).ignoreCase = true ∧
        (ofSource text).multiline = false ∨
      ¬ "(?i)".toList <+: text.toList ∧ ofSource text = ⟨text, false, false⟩ := by
  unfold ofSource
  split
  · rename_i rest htext
    refine .inl ⟨?_, rfl, rfl⟩
    rw [← String.toList_inj, String.toList_append, htext]
    exact congrArg ("(?i)".toList ++ ·) String.toList_ofList.symm
  · rename_i htext
    refine .inr ⟨?_, rfl⟩
    rintro ⟨rest, hrest⟩
    exact htext rest hrest.symm

theorem RuleSpec.told_toRule (spec : RuleSpec) : Told [spec] spec.Describes spec.toRule := by
  unfold toRule
  split
  · rename_i hstyle
    refine ⟨[], spec, [], rfl, fun earlier h => absurd h List.not_mem_nil, ?_, rfl⟩
    rw [← Style.isSome_ofName?, hstyle]
    exact Bool.false_ne_true
  · rename_i style hstyle
    refine ⟨fun other hother => ?_, ?_⟩
    · rw [List.mem_singleton.mp hother, ← Style.isSome_ofName?, hstyle]
      rfl
    obtain ⟨hmem, horder⟩ := distinctAfter_occurrences [] (spec.chars.getD "").toList
    have hshortcut : FirstOccurrences (spec.chars.getD "").toList
        (distinctAfter [] (spec.chars.getD "").toList) :=
      ⟨fun c => (hmem c).trans (and_iff_left List.not_mem_nil), horder⟩
    have hdisplay := Style.display_of_ofName? hstyle
    -- The flag of the specification is set beside that of the pattern.
    rcases Pattern.ofSource_cases spec.pattern with ⟨hmark, hignore, hmultiline⟩ | ⟨hmark, hplain⟩
    · cases hcase : spec.ignoreCase with
      | true => exact ⟨hdisplay, .inl ⟨hmark, rfl⟩, hmultiline, hshortcut⟩
      | false => exact ⟨hdisplay, .inl ⟨hmark, hignore⟩, hmultiline, hshortcut⟩
    · cases hcase : spec.ignoreCase with
      | true =>
        refine ⟨hdisplay, .inr ⟨hmark, ?_, hcase.symm⟩, ?_, hshortcut⟩
        · show spec.pattern = (Pattern.ofSource spec.pattern).source
          rw [hplain]
        · show (Pattern.ofSource spec.pattern).multiline = false
          rw [hplain]
      | false =>
        refine ⟨hdisplay, .inr ⟨hmark, ?_, ?_⟩, ?_, hshortcut⟩
        · show spec.pattern = (Pattern.ofSource spec.pattern).source
          rw [hplain]
        · show (Pattern.ofSource spec.pattern).ignoreCase = spec.ignoreCase
          rw [hplain, hcase]
        · show (Pattern.ofSource spec.pattern).multiline = false
          rw [hplain]

theorem told_grammarOf (shortcut fallback : List RuleSpec) (auxiliary : List (Named Grammar)) :
    Told (shortcut ++ fallback) (fun grammar : Grammar =>
        List.Forall₂ RuleSpec.Describes shortcut grammar.shortcuts ∧
        List.Forall₂ RuleSpec.Describes fallback grammar.fallbacks ∧ grammar.auxiliary = auxiliary)
      (grammarOf shortcut fallback auxiliary) := by
  have hlist (specs : List RuleSpec) :
      Told specs (List.Forall₂ RuleSpec.Describes specs) (specs.mapM RuleSpec.toRule) := by
    have htold := Told.mapM RuleSpec.told_toRule specs
    rwa [List.flatMap_singleton'] at htold
  exact (hlist shortcut).bind fun shortcuts hshortcuts =>
    (hlist fallback).map fun fallbacks hfallbacks => ⟨hshortcuts, hfallbacks, rfl⟩

theorem AuxiliarySpec.told_toGrammar (spec : AuxiliarySpec) :
    Told spec.specs spec.Describes spec.toGrammar :=
  (told_grammarOf spec.shortcut spec.fallback []).map
    fun _ ⟨hshortcuts, hfallbacks, hauxiliary⟩ => ⟨rfl, hshortcuts, hfallbacks, hauxiliary⟩

theorem GrammarFile.told_toGrammar (file : GrammarFile) :
    Told file.specs file.Describes file.toGrammar :=
  (told_grammarOf file.shortcut file.fallback []).bind fun _ ⟨hshortcuts, hfallbacks, _⟩ =>
    (Told.mapM AuxiliarySpec.told_toGrammar file.auxiliary).map
      fun _ hauxiliary => ⟨hshortcuts, hfallbacks, hauxiliary⟩

/-! ### Files -/

/-- How registering a file can end. -/
inductive Registry.FileOutcome (registry : Registry) (contents : Option ByteArray) :
    Except Failure Unit × Registry → Prop where
  /-- There is no text. -/
  | unread {failure : Failure} (h : fileText contents = .error failure) :
      FileOutcome registry contents (.error failure, registry)
  /-- The text is not that of a grammar file. -/
  | malformed {text : String} {error : GrammarError} (htext : fileText contents = .ok text)
      (h : GrammarFile.parse text = .error error) :
      FileOutcome registry contents (.error (.config error), registry)
  /-- A style is not known. -/
  | unknownStyle {text : String} {file : GrammarFile} {error : GrammarError}
      (htext : fileText contents = .ok text) (hfile : GrammarFile.parse text = .ok file)
      (h : file.toGrammar = .error error) :
      FileOutcome registry contents (.error (.config error), registry)
  /-- The grammar is registered under the identifiers of the file. -/
  | registered {text : String} {file : GrammarFile} {grammar : Grammar}
      (htext : fileText contents = .ok text) (hfile : GrammarFile.parse text = .ok file)
      (h : file.toGrammar = .ok grammar) :
      FileOutcome registry contents
        (((registry.register file.ids (.described grammar)).1).mapError .config,
          (registry.register file.ids (.described grammar)).2)

/-- What a file says, step by step. -/
theorem Registry.described_eq (contents : Option ByteArray) :
    described contents =
      match fileText contents with
      | .error failure => .error failure
      | .ok text =>
        match GrammarFile.parse text with
        | .error error => .error (.config error)
        | .ok file =>
          match file.toGrammar with
          | .error error => .error (.config error)
          | .ok grammar => .ok (file.ids, grammar) := by
  rw [described]
  cases fileText contents with
  | error failure => rfl
  | ok text =>
    simp only [Bind.bind, Except.bind]
    cases GrammarFile.parse text with
    | error error => rfl
    | ok file =>
      simp only [Except.mapError]
      cases file.toGrammar with
      | error error => rfl
      | ok grammar => rfl

theorem Registry.registerFile_eq (registry : Registry) (contents : Option ByteArray) :
    registry.registerFile contents =
      match described contents with
      | .error failure => (.error failure, registry)
      | .ok (ids, grammar) =>
        (((registry.register ids (.described grammar)).1).mapError .config,
          (registry.register ids (.described grammar)).2) := by
  cases hdescribed : described contents with
  | error failure =>
    unfold described at hdescribed
    unfold registerFile
    simp only [hdescribed]
  | ok found =>
    unfold described at hdescribed
    unfold registerFile
    simp only [hdescribed]

theorem Registry.fileOutcome_registerFile (registry : Registry) (contents : Option ByteArray) :
    registry.FileOutcome contents (registry.registerFile contents) := by
  rw [registerFile_eq, described_eq]
  cases htext : fileText contents with
  | error failure => exact .unread htext
  | ok text =>
    simp only
    cases hfile : GrammarFile.parse text with
    | error error => exact .malformed htext hfile
    | ok file =>
      simp only
      cases hgrammar : file.toGrammar with
      | error error => exact .unknownStyle htext hfile hgrammar
      | ok grammar => exact .registered htext hfile hgrammar

/-- A grammar can be had from a file just if all its specifications name
styles. It takes over what they say, list by list, and without it the
first style that is not known is at fault. A file without a grammar
leaves a registry as it was; with one, it is registered as the grammar
is. -/
theorem GrammarFile.toGrammar_and_registerFile (file : GrammarFile) (registry : Registry)
    (contents : Option ByteArray) :
    ((∃ grammar, file.toGrammar = .ok grammar) ↔
        ∀ spec ∈ file.specs, Style.IsName spec.style) ∧
      Told file.specs file.Describes file.toGrammar ∧
      registry.FileOutcome contents (registry.registerFile contents) := by
  have htold := file.told_toGrammar
  refine ⟨?_, htold, registry.fileOutcome_registerFile contents⟩
  cases hgrammar : file.toGrammar with
  | ok grammar =>
    rw [hgrammar] at htold
    exact iff_of_true ⟨grammar, rfl⟩ htold.1
  | error error =>
    rw [hgrammar] at htold
    obtain ⟨before, spec, after, hspecs, -, hspec, -⟩ := htold
    have hmem : spec ∈ file.specs := by simp [hspecs]
    exact iff_of_false (fun ⟨_, h⟩ => by cases h) fun hnames => hspec (hnames spec hmem)

end Highlighter
