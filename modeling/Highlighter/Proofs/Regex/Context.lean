import Highlighter.Proofs.Regex.ClassExtent
import Highlighter.Proofs.Regex.Regular.Splitting

/-!
# What comes after a piece does not matter

The readers of escapes, classes and bounds take what they need from the start of a text and leave the
rest alone: written before another text, the same piece is read in the same way (`ReadsApart`). A
class looks at what comes next again and again, but only up to its own closing bracket.

A word boundary is the one piece that looks beyond its end: braces after it may hold a name.
-/

set_option autoImplicit false

namespace Highlighter.Regex

open Pattern

/-- `found` is read from the start of a text, with `left` after it, and would be read with anything
else after it. -/
def ReadsApart {α : Type} (read : List Char → Option (α × List Char)) (cs : List Char) (found : α)
    (left : List Char) : Prop :=
  ∃ text, cs = text ++ left ∧ ∀ more, read (text ++ more) = some (found, more)

variable {cs left : List Char}

theorem ReadsApart.cons {α : Type} {read other : List Char → Option (α × List Char)} {found : α}
    {c : Char} (h : ReadsApart read cs found left) (hother : ∀ rest, other (c :: rest) = read rest) :
    ReadsApart other (c :: cs) found left := by
  obtain ⟨text, rfl, htext⟩ := h
  exact ⟨c :: text, rfl, fun more => (hother _).trans (htext more)⟩

/-! ### Escapes -/

theorem apart_parseHexDigits {count value code : Nat}
    (h : parseHexDigits? false count value cs = some (code, left)) :
    ReadsApart (parseHexDigits? false count value) cs code left := by
  induction count generalizing value cs with
  | zero =>
    cases h
    exact ⟨[], rfl, fun _ => rfl⟩
  | succ count ih =>
    cases cs with
    | nil => cases h
    | cons c cs =>
      rw [parseHexDigits?] at h
      obtain ⟨digit, hdigit, hrest⟩ := Option.bind_eq_some_iff.mp h
      refine (ih hrest).cons fun rest => ?_
      rw [parseHexDigits?, hdigit]
      rfl

theorem untilBrace_text {inner : List Char} (h : '}' ∉ inner) (more : List Char) :
    untilBrace? false ((inner ++ '}' :: more).length + 1) (inner ++ '}' :: more)
      = some (inner, more) :=
  untilBrace_inner h more (by rw [List.length_append]; omega)

theorem apart_parseCode {width : Nat} {piece : Primitive} (hwidth : width ≠ 0)
    (h : parseCode? false width cs = some (piece, left)) :
    ReadsApart (parseCode? false width) cs piece left := by
  unfold parseCode? at h
  rw [skipBlank_false] at h
  split at h
  · rename_i rest
    obtain ⟨⟨inner, after⟩, hinner, h⟩ := Option.bind_eq_some_iff.mp h
    obtain ⟨code, hcode, h⟩ := Option.bind_eq_some_iff.mp h
    obtain ⟨c, hc, h⟩ := Option.bind_eq_some_iff.mp h
    cases h
    obtain ⟨rfl, hbrace⟩ := untilBrace_eq_some hinner
    refine ⟨'{' :: (inner ++ ['}']), by simp [skipBlank_false], fun more => ?_⟩
    have hread := untilBrace_text hbrace more
    simp only [List.cons_append, List.append_assoc, List.nil_append, parseCode?, skipBlank_false,
      hread, bind, Option.bind_some, hcode, hc]
    rfl
  · rename_i hopen
    obtain ⟨⟨code, after⟩, hdigits, h⟩ := Option.bind_eq_some_iff.mp h
    obtain ⟨c, hc, h⟩ := Option.bind_eq_some_iff.mp h
    cases h
    have hhex : ∀ d ∈ cs.head?, isHexDigit d = true := by
      obtain ⟨digits, rfl, hlength, hvalue⟩ := parseHexDigits_eq_some hdigits
      intro d hd
      cases digits with
      | nil => exact absurd hlength.symm hwidth
      | cons first digits =>
        cases hd
        exact isHexDigit_of_hexFold hvalue _ List.mem_cons_self
    obtain ⟨text, rfl, htext⟩ := apart_parseHexDigits hdigits
    refine ⟨text, rfl, fun more => ?_⟩
    unfold parseCode?
    rw [skipBlank_false]
    split
    · rename_i rest heq
      cases text with
      | nil =>
        have hzero := htext []
        cases width with
        | zero => exact absurd rfl hwidth
        | succ width => cases hzero
      | cons d text =>
        cases heq
        exact absurd (hhex '{' rfl) (by decide)
    · simp only [htext more, bind, Option.bind_some, hc]
      rfl

theorem apart_parseProperty {negated : Bool} {piece : Primitive}
    (h : parseProperty? false negated cs = some (piece, left)) :
    ReadsApart (parseProperty? false negated) cs piece left := by
  unfold parseProperty? at h
  rw [skipBlank_false] at h
  split at h
  · cases h
  · obtain ⟨⟨inner, after⟩, hinner, h⟩ := Option.bind_eq_some_iff.mp h
    cases h
    obtain ⟨rfl, hbrace⟩ := untilBrace_eq_some hinner
    refine ⟨'{' :: (inner ++ ['}']), by simp, fun more => ?_⟩
    have hread := untilBrace_text hbrace more
    simp only [List.cons_append, List.append_assoc, List.nil_append, parseProperty?,
      skipBlank_false, hread, bind, Option.bind_some]
    rfl
  · cases h
  · rename_i c rest hopen hslash
    cases h
    refine ⟨[c], rfl, fun more => ?_⟩
    unfold parseProperty?
    rw [skipBlank_false, List.singleton_append]
    split
    · rename_i heq
      cases heq
    · rename_i heq
      cases heq
      exact absurd rfl hopen
    · rename_i heq
      cases heq
      exact absurd rfl hslash
    · rename_i heq
      cases heq
      rfl

/-- What follows a word boundary looks the same where braces are concerned. -/
def BracesAlike (left more : List Char) : Prop := more.head? = some '{' → more.take 2 = left.take 2

theorem parseBoundary_of_head (h : cs.head? ≠ some '{') :
    parseBoundary? false cs = some (.anchor .wordBoundary, cs) := by
  unfold parseBoundary?
  split
  · exact absurd rfl h
  · rfl

theorem parseBoundary_braces {c : Char} {inner : List Char} (h : isBoundaryNameChar c = false) :
    parseBoundary? false ('{' :: c :: inner)
      = some (.anchor .wordBoundary, '{' :: c :: inner) := by
  simp [parseBoundary?, skipBlank_false, h]

theorem boundaryName_append {name : List Char} (h : ∀ c ∈ name, isBoundaryNameChar c = true)
    (more : List Char) {steps : Nat} (hsteps : name.length < steps) :
    boundaryName false steps (name ++ '}' :: more) = (name, '}' :: more) := by
  induction name generalizing steps with
  | nil =>
    cases steps with
    | zero => cases hsteps
    | succ steps => rfl
  | cons c name ih =>
    obtain ⟨hc, hname⟩ := List.forall_mem_cons.mp h
    cases steps with
    | zero => cases hsteps
    | succ steps =>
      rw [List.cons_append, boundaryName, if_pos hc, skipBlank_false,
        ih hname (Nat.lt_of_succ_lt_succ hsteps)]

/-- What a name in braces stands for. -/
def boundaryNamed? (name : String) : Option AnchorSign :=
  if name = "start" then some .wordStart
  else if name = "end" then some .wordEnd
  else if name = "start-half" then some .wordStartHalf
  else if name = "end-half" then some .wordEndHalf
  else none

theorem parseBoundary_name {c : Char} {name : List Char}
    (h : ∀ d ∈ c :: name, isBoundaryNameChar d = true) (more : List Char) :
    parseBoundary? false ('{' :: c :: (name ++ '}' :: more))
      = (boundaryNamed? (String.ofList (c :: name))).map fun sign => (.anchor sign, more) := by
  have hc := h c List.mem_cons_self
  have hread : boundaryName false ((name ++ '}' :: more).length + 1) (c :: name ++ '}' :: more)
      = (c :: name, '}' :: more) :=
    boundaryName_append h more (by rw [List.length_cons, List.length_append]; simp)
  rw [List.cons_append] at hread
  simp only [parseBoundary?, skipBlank_false, hc, Bool.not_true, Bool.false_eq_true, if_false, hread]
  generalize String.ofList (c :: name) = written
  split
  · rfl
  · rfl
  · rfl
  · rfl
  · rename_i hstart hend hstartHalf hendHalf
    rw [boundaryNamed?, if_neg hstart, if_neg hend, if_neg hstartHalf, if_neg hendHalf]
    rfl

/-- A word boundary takes nothing after its letter, unless braces with a name follow. -/
theorem parseBoundary_cases {piece : Primitive}
    (h : parseBoundary? false cs = some (piece, left)) :
    (left = cs ∧ piece = .anchor .wordBoundary ∧ ∀ rest, cs = '{' :: rest →
        ∃ c inner, rest = c :: inner ∧ isBoundaryNameChar c = false) ∨
      ∃ c name, cs = '{' :: c :: (name ++ '}' :: left) ∧
        ∀ d ∈ c :: name, isBoundaryNameChar d = true := by
  by_cases hhead : cs.head? = some '{'
  · obtain ⟨rest, rfl⟩ := List.head?_eq_some_iff.mp hhead
    cases rest with
    | nil => cases h
    | cons c inner =>
      by_cases hc : isBoundaryNameChar c = true
      · simp only [parseBoundary?, skipBlank_false, hc, Bool.not_true, Bool.false_eq_true,
          if_false] at h
        obtain ⟨happend, hname⟩ := boundaryName_eq (inner.length + 1) (c :: inner)
        split at h
        · rename_i name after heq
          have hleft : left = after := by
            split at h <;> cases h <;> rfl
          rw [heq] at happend hname
          subst hleft
          cases name with
          | nil =>
            cases happend
            cases hc
          | cons d name =>
            obtain ⟨rfl, rfl⟩ := List.cons.inj happend
            exact .inr ⟨d, name, rfl, hname⟩
        · cases h
      · have hc := Bool.eq_false_iff.mpr hc
        rw [parseBoundary_braces hc] at h
        cases h
        exact .inl ⟨rfl, rfl, fun rest heq => ⟨c, inner, (List.cons.inj heq).2.symm, hc⟩⟩
  · rw [parseBoundary_of_head hhead] at h
    cases h
    exact .inl ⟨rfl, rfl, fun rest heq => absurd (congrArg List.head? heq) hhead⟩

/-- A word boundary is read whatever comes after it, but for braces. -/
theorem apart_parseBoundary {piece : Primitive} (h : parseBoundary? false cs = some (piece, left)) :
    ∃ text, cs = text ++ left ∧
      ∀ more, BracesAlike left more → parseBoundary? false (text ++ more) = some (piece, more) := by
  rcases parseBoundary_cases h with ⟨rfl, rfl, hbraces⟩ | ⟨c, name, rfl, hname⟩
  · refine ⟨[], rfl, fun more halike => ?_⟩
    by_cases hhead : more.head? = some '{'
    · obtain ⟨inner, rfl⟩ := List.head?_eq_some_iff.mp hhead
      have htake := halike rfl
      obtain ⟨rest, rfl⟩ : ∃ rest, left = '{' :: rest := by
        cases left with
        | nil => cases htake
        | cons d rest => exact ⟨rest, by rw [(List.cons.inj htake).1]⟩
      obtain ⟨c, others, rfl, hc⟩ := hbraces rest rfl
      cases inner with
      | nil => cases htake
      | cons d inner =>
        obtain rfl : d = c := by simpa using htake
        exact parseBoundary_braces hc
    · exact parseBoundary_of_head hhead
  · refine ⟨'{' :: c :: (name ++ ['}']), by simp, fun more _ => ?_⟩
    rw [parseBoundary_name hname] at h
    obtain ⟨sign, hsign, heq⟩ := Option.map_eq_some_iff.mp h
    cases heq
    have hshape : '{' :: c :: (name ++ ['}']) ++ more = '{' :: c :: (name ++ '}' :: more) := by
      simp
    rw [hshape, parseBoundary_name hname, hsign]
    rfl

theorem apart_parseEscape {letter : Char} (hboundary : letter ≠ 'b') {piece : Primitive}
    (h : parseEscape? false (letter :: cs) = some (piece, left)) :
    ReadsApart (parseEscape? false) (letter :: cs) piece left := by
  by_cases hletter : "xuUpPb".toList.contains letter = true
  · have hcases : letter = 'x' ∨ letter = 'u' ∨ letter = 'U' ∨ letter = 'p' ∨ letter = 'P' ∨
        letter = 'b' := by simpa using hletter
    rcases hcases with rfl | rfl | rfl | rfl | rfl | rfl
    · exact (apart_parseCode (by decide) h).cons fun _ => rfl
    · exact (apart_parseCode (by decide) h).cons fun _ => rfl
    · exact (apart_parseCode (by decide) h).cons fun _ => rfl
    · exact (apart_parseProperty h).cons fun _ => rfl
    · exact (apart_parseProperty h).cons fun _ => rfl
    · exact absurd rfl hboundary
  · have hletter := Bool.eq_false_iff.mpr hletter
    rw [parseEscape_letter hletter] at h
    obtain ⟨found, hfound, heq⟩ := Option.map_eq_some_iff.mp h
    cases heq
    refine ⟨[letter], rfl, fun more => ?_⟩
    rw [List.singleton_append, parseEscape_letter hletter, hfound]
    rfl

/-! ### Classes -/

theorem apart_parseMember {piece : Primitive} {item : ClassSet}
    (h : parseMember? false cs = some (piece, left)) (hclass : piece.toClass? = some item) :
    ReadsApart (parseMember? false) cs piece left := by
  cases cs with
  | nil => cases h
  | cons c rest =>
    by_cases hslash : c = '\\'
    · subst hslash
      have h : parseEscape? false rest = some (piece, left) := h
      cases rest with
      | nil => cases h
      | cons letter rest =>
        have hboundary : letter ≠ 'b' := by
          rintro rfl
          obtain ⟨sign, hsign⟩ := parseBoundary_anchor h
          cases hsign
          cases hclass
        exact (apart_parseEscape hboundary h).cons fun _ => rfl
    · rw [parseMember?] at h
      · cases h
        refine ⟨[c], rfl, fun more => ?_⟩
        rw [List.singleton_append, parseMember?]
        exact hslash
      · exact hslash

/-- Two texts that a member of a class can be followed by alike. -/
def MembersAlike (left more : List Char) : Prop :=
  more.head? = left.head? ∧ (left.head? = some '-' → more.take 2 = left.take 2)

theorem RangeRead.apart {item : ClassSet} (h : RangeRead cs item left) :
    ∃ text, cs = text ++ left ∧ ∀ more, MembersAlike left more →
      parseRange? false (text ++ more) = some (item, more) := by
  cases h with
  | single hfirst hclass hne hhyphen =>
    obtain ⟨text, rfl, htext⟩ := apart_parseMember hfirst hclass
    refine ⟨text, rfl, fun more halike => ?_⟩
    obtain ⟨c, rest, rfl⟩ := List.exists_cons_of_ne_nil hne
    obtain ⟨others, rfl⟩ := List.head?_eq_some_iff.mp halike.1
    rw [parseRange_single (htext _) (List.cons_ne_nil _ _) fun others heq => ?_, hclass]
    · rfl
    · exact hhyphen rest (by rw [(List.cons.inj heq).1])
  | @hyphen first rest hfirst hclass hleft hnext =>
    subst hleft
    obtain ⟨text, rfl, htext⟩ := apart_parseMember hfirst hclass
    refine ⟨text, rfl, fun more halike => ?_⟩
    obtain ⟨others, rfl⟩ := List.head?_eq_some_iff.mp halike.1
    have hothers : others.head? = rest.head? := by
      have htake := halike.2 rfl
      cases others <;> cases rest <;> simp_all
    rw [parseRange_hyphen (htext _) (by rwa [hothers]), hclass]
    rfl
  | @range lo hi byte byte' rest hfirst hsecond hle hitem hclose hhyphen =>
    obtain ⟨text, rfl, htext⟩ := apart_parseMember hfirst rfl
    obtain ⟨text', rfl, htext'⟩ := apart_parseMember hsecond rfl
    refine ⟨text ++ '-' :: text', by simp, fun more _ => ?_⟩
    have hne : text' ≠ [] := by
      rintro rfl
      cases htext' []
    obtain ⟨d, token, rfl⟩ := List.exists_cons_of_ne_nil hne
    have hmember : parseMember? false (text ++ '-' :: (d :: token ++ more))
        = some (.literal lo byte, '-' :: (d :: token ++ more)) := htext _
    rw [List.append_assoc, List.cons_append, parseRange_range hmember hclose hhyphen, htext' more,
      Option.bind_some, rangeOf?, if_pos hle, hitem]
    rfl

theorem leadingHyphens_replicate (count : Nat) (h : left ≠ []) (hhyphen : left.head? ≠ some '-')
    {steps : Nat} (hsteps : count < steps) :
    leadingHyphens? false steps (List.replicate count '-' ++ left)
      = some (List.replicate count (.literal '-'), left) := by
  induction count generalizing steps with
  | zero =>
    obtain ⟨c, rest, rfl⟩ := List.exists_cons_of_ne_nil h
    cases steps with
    | zero => cases hsteps
    | succ steps =>
      rw [List.replicate_zero, List.nil_append, leadingHyphens?]
      · rfl
      · rintro ⟨⟩
      · rintro others heq
        exact hhyphen (congrArg List.head? heq)
  | succ count ih =>
    cases steps with
    | zero => cases hsteps
    | succ steps =>
      rw [List.replicate_succ, List.cons_append, leadingHyphens?, skipBlank_false,
        ih (Nat.lt_of_succ_lt_succ hsteps)]
      rfl

/-- Whatever a class starts with is read so. -/
theorem Opened.openClass {negated : Bool} {items : List ClassSet} {rest : List Char}
    (h : Opened cs negated items left rest) (hne : left ≠ []) :
    openClass? false cs = some (negated, items, left) := by
  have hmembers : openMembers? negated rest = some (negated, items, left) := by
    rcases h.cases with ⟨rfl, rfl⟩ | ⟨count, rfl, rfl, hhyphen, hclose⟩
    · obtain ⟨c, others, rfl⟩ := List.exists_cons_of_ne_nil hne
      rfl
    · have hsteps : count < (List.replicate count '-' ++ left).length + 1 := by
        simp only [List.length_append, List.length_replicate]
        omega
      have hread := leadingHyphens_replicate count hne hhyphen hsteps
      simp only [openMembers?, hread, bind, Option.bind_some]
      cases count with
      | zero =>
        obtain ⟨c, others, rfl⟩ := List.exists_cons_of_ne_nil hne
        split
        · rename_i heq
          cases heq
          exact absurd rfl (hclose rfl)
        · rfl
      | succ count => rfl
  obtain ⟨rfl, hhead, -⟩ := h
  cases negated with
  | true => exact hmembers
  | false =>
    rw [show negation false = [] from rfl, List.nil_append, openClass_members, hmembers]
    rintro others rfl
    exact hhead rfl rfl

/-- What a class starts with is read up to its first other member. -/
theorem apart_openClass {negated : Bool} {items : List ClassSet}
    (h : openClass? false cs = some (negated, items, left)) :
    ∃ text, cs = text ++ left ∧ ∀ more, more ≠ [] → more.head? = left.head? →
      openClass? false (text ++ more) = some (negated, items, more) := by
  obtain ⟨rest, rfl, hhead, hcases⟩ := openClass_eq_some h
  rcases hcases with ⟨rfl, rfl⟩ | ⟨count, rfl, rfl, hhyphen, hclose⟩
  · refine ⟨negation negated ++ [']'], by simp, fun more hne _ => ?_⟩
    rw [List.append_assoc]
    exact Opened.openClass ⟨rfl, fun _ => nofun, .inl ⟨rfl, rfl⟩⟩ hne
  · refine ⟨negation negated ++ List.replicate count '-', by simp, fun more hne halike => ?_⟩
    rw [List.append_assoc]
    refine Opened.openClass ⟨rfl, fun hnegated => ?_, .inr ⟨count, rfl, rfl, ?_, ?_⟩⟩ hne
    · have hhead := hhead hnegated
      cases count with
      | zero => rwa [List.replicate_zero, List.nil_append, halike] at *
      | succ count => exact nofun
    · rwa [halike]
    · rwa [halike]

theorem parsePosix_none_apart {text : List Char} (h : parsePosix? (text ++ left) = none)
    (hclose : ']' ∈ text) (more : List Char) : parsePosix? (text ++ more) = none := by
  refine parsePosix_append_none ?_ hclose more
  rw [Option.eq_none_iff_forall_ne_some]
  rintro ⟨item, after⟩ hsome
  obtain ⟨negated, name, kind, rfl, hkind, -⟩ := parsePosix_eq_some hsome
  have hshape : ':' :: (negation negated ++ (name ++ ':' :: ']' :: after)) ++ left
      = ':' :: (negation negated ++ (name ++ ':' :: ']' :: (after ++ left))) := by simp
  rw [hshape, parsePosix_name negated hkind] at h
  cases h

theorem membersAlike_append {text : List Char} (hclose : ∃ inner, text = inner ++ [']'])
    (left more : List Char) : MembersAlike (text ++ left) (text ++ more) := by
  obtain ⟨inner, rfl⟩ := hclose
  cases inner with
  | nil => exact ⟨rfl, nofun⟩
  | cons c inner =>
    refine ⟨rfl, fun _ => ?_⟩
    cases inner with
    | nil => rfl
    | cons d inner => rfl

/-- Members are read up to the end of their class, whatever comes after it. -/
theorem apart_parseMembers {steps : Nat} {pending : Option (ClassOp × ClassSet)}
    {items : List ClassSet} {set : ClassSet}
    (h : parseMembers? false steps pending items cs = some (set, left)) :
    ∃ text, cs = text ++ left ∧ (∃ inner, text = inner ++ [']']) ∧
      ∀ more steps', text.length < steps' →
        parseMembers? false steps' pending items (text ++ more) = some (set, more) := by
  have hsucc : ∀ {text : List Char} {steps' : Nat}, text.length < steps' →
      ∃ count, steps' = count + 1 ∧ text.length ≤ count := fun {text steps'} hsteps =>
    ⟨steps' - 1, by omega, by omega⟩
  induction steps generalizing pending items cs set left with
  | zero => cases h
  | succ steps ih =>
    cases parseMembers_eq_some h with
    | close hcs hset =>
      refine ⟨[']'], hcs, ⟨[], rfl⟩, fun more steps' hsteps => ?_⟩
      obtain ⟨count, rfl, -⟩ := hsucc hsteps
      rw [hset]
      rfl
    | @op c op rest hop hcs hrest =>
      obtain ⟨text, rfl, ⟨inner, rfl⟩, htext⟩ := ih hrest
      refine ⟨c :: c :: (inner ++ [']']), hcs, ⟨c :: c :: inner, rfl⟩, fun more steps' hsteps => ?_⟩
      obtain ⟨count, rfl, hcount⟩ := hsucc hsteps
      rw [List.cons_append, List.cons_append, parseMembers_op hop]
      exact htext more count (by simp only [List.length_cons] at hcount; omega)
    | @posix item rest after hcs hposix hrest =>
      obtain ⟨text, rfl, ⟨inner, rfl⟩, htext⟩ := ih hrest
      obtain ⟨negated, name, kind, rfl, hkind, rfl⟩ := parsePosix_eq_some hposix
      refine ⟨'[' :: ':' :: (negation negated ++ (name ++ ':' :: ']' :: (inner ++ [']']))),
        by simp [hcs], ⟨'[' :: ':' :: (negation negated ++ (name ++ ':' :: ']' :: inner)), by simp⟩,
        fun more steps' hsteps => ?_⟩
      obtain ⟨count, rfl, hcount⟩ := hsucc hsteps
      have hshape : ':' :: (negation negated ++ (name ++ ':' :: ']' :: (inner ++ [']']))) ++ more
          = ':' :: (negation negated ++ (name ++ ':' :: ']' :: (inner ++ [']'] ++ more))) := by simp
      rw [List.cons_append, parseMembers_bracket, hshape, parsePosix_name negated hkind]
      refine htext more count ?_
      simp only [List.length_cons, List.length_append] at hcount ⊢
      omega
    | @nested negated inner body rest opened after hcs hposix hopen hbody hrest =>
      obtain ⟨text, rfl, ⟨others, rfl⟩, htext⟩ := ih hrest
      obtain ⟨inside, rfl, ⟨members, rfl⟩, hinside⟩ := ih hbody
      obtain ⟨start, rfl, hstart⟩ := apart_openClass hopen
      have hshape : ∀ more, '[' :: (start ++ ((members ++ [']']) ++ (others ++ [']']))) ++ more
          = '[' :: (start ++ ((members ++ [']']) ++ ((others ++ [']']) ++ more))) := fun more => by
        simp
      refine ⟨'[' :: (start ++ ((members ++ [']']) ++ (others ++ [']']))), by rw [hcs, hshape],
        ⟨'[' :: (start ++ ((members ++ [']']) ++ others)), by simp⟩, fun more steps' hsteps => ?_⟩
      obtain ⟨count, rfl, hcount⟩ := hsucc hsteps
      have hnone : parsePosix? (start ++ ((members ++ [']']) ++ ((others ++ [']']) ++ more))) = none := by
        rw [← List.append_assoc] at hposix ⊢
        exact parsePosix_none_apart hposix (by simp) _
      have hopened := hstart ((members ++ [']']) ++ ((others ++ [']']) ++ more)) (by simp) (by
        cases members <;> rfl)
      have hread := hinside ((others ++ [']']) ++ more) count (by
        simp only [List.length_cons, List.length_append] at hcount ⊢
        omega)
      rw [hshape, parseMembers_bracket, hnone]
      simp only [hopened, Option.bind_some, hread]
      refine htext more count ?_
      simp only [List.length_cons, List.length_append] at hcount ⊢
      omega
    | @item c tail after item hcs hopen hclose hop hrange hrest =>
      obtain ⟨text, rfl, ⟨inner, rfl⟩, htext⟩ := ih hrest
      obtain ⟨first, heq, hfirst⟩ := hrange.apart
      obtain ⟨d, token, htakes⟩ := hrange.takes
      subst hcs
      cases first with
      | nil =>
        have hlength := congrArg List.length (heq.symm.trans htakes)
        simp only [List.nil_append, List.length_cons, List.length_append] at hlength
        omega
      | cons e first =>
        obtain ⟨rfl, rfl⟩ := List.cons.inj heq
        refine ⟨c :: (first ++ (inner ++ [']'])), by simp, ⟨c :: (first ++ inner), by simp⟩,
          fun more steps' hsteps => ?_⟩
        obtain ⟨count, rfl, hcount⟩ := hsucc hsteps
        have hop' : (first ++ ((inner ++ [']']) ++ more)).head? = some c → doubledOp? c = none := by
          rw [show (first ++ ((inner ++ [']']) ++ more)).head?
            = (first ++ ((inner ++ [']']) ++ left)).head? by cases first <;> cases inner <;> rfl]
          exact hop
        rw [List.cons_append, List.append_assoc, parseMembers_item hopen hclose hop',
          ← List.cons_append, hfirst _ (membersAlike_append ⟨inner, rfl⟩ left more),
          Option.bind_some]
        refine htext more count ?_
        simp only [List.length_cons, List.length_append] at hcount ⊢
        omega

/-- A class is read up to its closing bracket, whatever comes after it. -/
theorem apart_parseClass {set : ClassSet} (h : parseClass? false cs = some (set, left)) :
    ∃ body, cs = body ++ ']' :: left ∧
      ∀ more, parseClass? false (body ++ ']' :: more) = some (set, more) := by
  obtain ⟨⟨negated, items, opened⟩, hopen, h⟩ := Option.bind_eq_some_iff.mp h
  obtain ⟨⟨members, after⟩, hmembers, heq⟩ := Option.bind_eq_some_iff.mp h
  cases heq
  obtain ⟨text, rfl, ⟨inner, rfl⟩, htext⟩ := apart_parseMembers hmembers
  obtain ⟨start, rfl, hstart⟩ := apart_openClass hopen
  refine ⟨start ++ inner, by simp, fun more => ?_⟩
  have hopened := hstart ((inner ++ [']']) ++ more) (by simp) (by cases inner <;> rfl)
  have hread := htext more (((inner ++ [']']) ++ more).length + 1) (by simp)
  have hshape : start ++ inner ++ ']' :: more = start ++ ((inner ++ [']']) ++ more) := by simp
  rw [hshape]
  simp only [parseClass?, hopened, bind, Option.bind_some, hread]
  rfl

namespace Regular

/-! ### Bounds -/

/-- A run ends where it does because of the character after it. -/
theorem run_apart (test : Char → Bool) (cs more : List Char)
    (h : more.head? = (cs.dropWhile test).head?) :
    (cs.takeWhile test ++ more).takeWhile test = cs.takeWhile test ∧
      (cs.takeWhile test ++ more).dropWhile test = more := by
  have hrun : ∀ c ∈ cs.takeWhile test, test c = true := fun c hc =>
    List.all_eq_true.mp List.all_takeWhile c hc
  rw [List.takeWhile_append_of_pos hrun, List.dropWhile_append_of_pos hrun]
  cases more with
  | nil => exact ⟨List.append_nil _, rfl⟩
  | cons c more =>
    have hc : test c = false := by
      have hnot := List.head?_dropWhile_not test cs
      rw [← h] at hnot
      exact hnot
    rw [List.takeWhile_cons_of_neg (by simp [hc]), List.dropWhile_cons_of_neg (by simp [hc])]
    exact ⟨List.append_nil _, rfl⟩

/-- What a row of digits counts. -/
def countOf? : List Char → Option (Option Nat)
  | [] => some none
  | digits =>
    let count := digits.foldl (fun value c => 10 * value + (c.toNat - '0'.toNat)) 0
    if count ≤ maxCount then some (some count) else none

theorem parseCount_eq (cs : List Char) :
    parseCount? false cs = (countOf? ((cs.dropWhile isBlank).takeWhile Char.isDigit)).map
      (·, ((cs.dropWhile isBlank).dropWhile Char.isDigit).dropWhile isBlank) := by
  unfold parseCount?
  simp only [countDigits_eq (Nat.lt_succ_self _), skipBlank_false]
  generalize (cs.dropWhile isBlank).takeWhile Char.isDigit = digits
  cases digits with
  | nil => rfl
  | cons d digits =>
    simp only [countOf?]
    split <;> rfl

/-- A count is read whatever comes after the character that ends it. -/
theorem apart_parseCount {count : Option Nat} {c : Char}
    (h : parseCount? false cs = some (count, c :: left)) :
    ∃ text, cs = text ++ c :: left ∧
      ∀ more, parseCount? false (text ++ c :: more) = some (count, c :: more) := by
  rw [parseCount_eq] at h
  obtain ⟨value, hvalue, heq⟩ := Option.map_eq_some_iff.mp h
  obtain ⟨rfl, hleft⟩ := Prod.mk.inj heq
  have hsplit : ∀ (test : Char → Bool) (cs : List Char),
      cs = cs.takeWhile test ++ cs.dropWhile test := fun test cs =>
    List.takeWhile_append_dropWhile.symm
  generalize hfirst : cs.dropWhile isBlank = first at *
  generalize hsecond : first.dropWhile Char.isDigit = second at *
  refine ⟨cs.takeWhile isBlank ++ (first.takeWhile Char.isDigit ++ second.takeWhile isBlank),
    ?_, fun more => ?_⟩
  · rw [List.append_assoc, List.append_assoc, ← hleft, ← hsplit isBlank second, ← hsecond,
      ← hsplit, ← hfirst, ← hsplit]
  · have hblanks := run_apart isBlank second (c :: more) (by rw [hleft]; rfl)
    have hdigits := run_apart Char.isDigit first (second.takeWhile isBlank ++ c :: more) (by
      rw [hsecond]
      conv => rhs; rw [hsplit isBlank second, hleft]
      rw [List.head?_append, List.head?_append]
      rfl)
    have hstart := run_apart isBlank cs
      (first.takeWhile Char.isDigit ++ (second.takeWhile isBlank ++ c :: more)) (by
      rw [hfirst]
      conv => rhs; rw [hsplit Char.isDigit first, hsecond, hsplit isBlank second, hleft]
      rw [List.head?_append, List.head?_append, List.head?_append, List.head?_append]
      rfl)
    rw [List.append_assoc, List.append_assoc, parseCount_eq, hstart.2, hdigits.1, hdigits.2,
      hblanks.2, hvalue]
    rfl

/-- Bounds are read up to their closing brace, whatever comes after it. -/
theorem apart_parseBounds {min : Nat} {max : Option Nat}
    (h : parseBounds? false cs = some (min, max, left)) :
    ∃ inner, cs = inner ++ '}' :: left ∧
      ∀ more, parseBounds? false (inner ++ '}' :: more) = some (min, max, more) := by
  unfold parseBounds? at h
  simp only [skipBlank_false] at h
  obtain ⟨⟨first, after⟩, hfirst, hlower⟩ := Option.bind_eq_some_iff.mp h
  obtain ⟨least, hleast, hrest⟩ := Option.bind_eq_some_iff.mp hlower
  obtain rfl : first = some least := hleast
  clear h hlower
  simp only at hrest
  split at hrest
  · cases hrest
    obtain ⟨text, rfl, htext⟩ := apart_parseCount hfirst
    refine ⟨text, rfl, fun more => ?_⟩
    simp only [parseBounds?, skipBlank_false, htext more, bind, Option.bind_some]
    rfl
  · rename_i rest
    obtain ⟨text, rfl, htext⟩ := apart_parseCount hfirst
    split at hrest
    · rename_i after
      cases hrest
      refine ⟨text ++ [','], by simp, fun more => ?_⟩
      have hshape : text ++ [','] ++ '}' :: more = text ++ ',' :: '}' :: more := by simp
      simp only [parseBounds?, skipBlank_false, hshape, htext ('}' :: more), bind,
        Option.bind_some]
      rfl
    · rename_i hclose
      obtain ⟨⟨second, after⟩, hsecond, hupper⟩ := Option.bind_eq_some_iff.mp hrest
      obtain ⟨most, hmost, hrest⟩ := Option.bind_eq_some_iff.mp hupper
      obtain rfl : second = some most := hmost
      clear hupper
      simp only at hrest
      split at hrest
      · split at hrest
        · rename_i hle
          cases hrest
          obtain ⟨text', rfl, htext'⟩ := apart_parseCount hsecond
          refine ⟨text ++ ',' :: text', by simp, fun more => ?_⟩
          have hshape : text ++ ',' :: text' ++ '}' :: more = text ++ ',' :: (text' ++ '}' :: more) := by
            simp
          have hbrace : ∀ rest, text' ++ '}' :: more ≠ '}' :: rest := by
            cases text' with
            | nil => exact absurd rfl (hclose _)
            | cons c text' =>
              rintro rest heq
              cases heq
              exact hclose _ rfl
          simp only [parseBounds?, skipBlank_false, hshape, htext (text' ++ '}' :: more), bind,
            Option.bind_some]
          simp only [htext' more, Option.bind_some, if_pos hle]
          rfl
        · cases hrest
      · cases hrest
  · cases hrest

/-- Flags are read up to the mark that ends them, whatever comes after it. -/
theorem apart_parseFlags {on : Bool} {change changed : FlagChange}
    (h : parseFlags? on change cs = some (changed, left)) :
    ∃ letters mark after, cs = letters ++ mark :: after ∧ left = mark :: after ∧
      (mark = ':' ∨ mark = ')') ∧ (∀ c ∈ letters, Part.isFlagChar c = true) ∧
      changed = change ++ flagChange on letters ∧
      ∀ more, parseFlags? on change (letters ++ mark :: more) = some (changed, mark :: more) := by
  fun_induction parseFlags? on change cs with
  | case1 => cases h
  | case2 on change rest =>
    cases h
    exact ⟨[], ')', rest, rfl, rfl, .inr rfl, List.forall_mem_nil _, (List.append_nil _).symm,
      fun _ => rfl⟩
  | case3 on change rest =>
    cases h
    exact ⟨[], ':', rest, rfl, rfl, .inl rfl, List.forall_mem_nil _, (List.append_nil _).symm,
      fun _ => rfl⟩
  | case4 on change c rest hcond ih =>
    obtain ⟨letters, mark, after, heq, hleft, hmark, hletters, hchanged, hread⟩ := ih h
    refine ⟨'-' :: letters, mark, after, congrArg ('-' :: ·) heq, hleft, hmark,
      List.forall_mem_cons.mpr ⟨rfl, hletters⟩, hchanged, fun more => ?_⟩
    obtain ⟨others, hothers⟩ : ∃ others, letters ++ mark :: more = c :: others := by
      cases letters with
      | nil => exact ⟨more, by rw [(List.cons.inj heq).1]; rfl⟩
      | cons d letters => exact ⟨letters ++ mark :: more, by rw [(List.cons.inj heq).1]; rfl⟩
    rw [List.cons_append, hothers, parseFlags?, if_pos hcond, ← hothers]
    exact hread more
  | case5 => cases h
  | case6 => cases h
  | case7 on change c rest hclose hcolon hhyphen ih =>
    obtain ⟨flag, hflag, h⟩ := Option.bind_eq_some_iff.mp h
    split at h
    · cases h
    · rename_i hset
      obtain ⟨letters, mark, after, heq, hleft, hmark, hletters, hchanged, hread⟩ := ih flag h
      have hc : c ≠ '-' := hhyphen
      refine ⟨c :: letters, mark, after, congrArg (c :: ·) heq, hleft, hmark,
        List.forall_mem_cons.mpr ⟨isFlagChar_of_ofLetter hflag, hletters⟩, ?_, fun more => ?_⟩
      · rw [hchanged, flagChange, hflag, List.append_assoc]
        · rfl
        · exact hc
      · rw [List.cons_append, parseFlags?, hflag]
        · simp only [bind, Option.bind_some]
          rw [if_neg hset]
          exact hread more
        · exact hclose
        · exact hcolon
        · exact hhyphen

/-- What repeats a piece ends where it does, unless a question mark comes next only then. -/
theorem apart_counted {min : Nat} {max : Option Nat} {greedy : Bool}
    (h : counted? false cs = some (min, max, greedy, left)) :
    ∃ sign text, cs = sign :: (text ++ left) ∧
      (∀ c ∈ sign :: text, isCountStart c = true ∨ c = '}' ∨ isBoundsChar c = true) ∧
      ∀ more, (more.head? = some '?' → left.head? = some '?') →
        counted? false (sign :: (text ++ more)) = some (min, max, greedy, more) := by
  have hlazy : ∀ {rest : List Char}, lazyMark rest = (greedy, left) →
      ∃ mark, rest = mark ++ left ∧ (∀ c ∈ mark, isCountStart c = true) ∧
        ∀ more, (more.head? = some '?' → left.head? = some '?') →
          lazyMark (mark ++ more) = (greedy, more) := by
    intro rest hrest
    unfold lazyMark at hrest
    split at hrest
    · cases hrest
      exact ⟨['?'], rfl, List.forall_mem_singleton.mpr rfl, fun _ _ => rfl⟩
    · rename_i hmark
      cases hrest
      refine ⟨[], rfl, List.forall_mem_nil _, fun more hmore => ?_⟩
      rw [List.nil_append, lazyMark]
      rintro others rfl
      obtain ⟨rest, rfl⟩ := List.head?_eq_some_iff.mp (hmore rfl)
      exact hmark rest rfl
  have hsign : ∀ {sign : Char} {rest : List Char}, isCountStart sign = true →
      cs = sign :: rest → lazyMark rest = (greedy, left) →
      (∀ rest, counted? false (sign :: rest) = some (min, max, lazyMark rest)) →
      ∃ sign text, cs = sign :: (text ++ left) ∧
        (∀ c ∈ sign :: text, isCountStart c = true ∨ c = '}' ∨ isBoundsChar c = true) ∧
        ∀ more, (more.head? = some '?' → left.head? = some '?') →
          counted? false (sign :: (text ++ more)) = some (min, max, greedy, more) := by
    rintro sign rest hstart rfl hrest hcounted
    obtain ⟨mark, rfl, hmark, hread⟩ := hlazy hrest
    refine ⟨sign, mark, rfl, ?_, fun more hmore => by rw [hcounted, hread more hmore]⟩
    exact List.forall_mem_cons.mpr ⟨.inl hstart, fun c hc => .inl (hmark c hc)⟩
  unfold counted? at h
  split at h
  · obtain ⟨rfl, hcount⟩ := Prod.mk.inj (Option.some.inj h)
    obtain ⟨rfl, hrest⟩ := Prod.mk.inj hcount
    exact hsign rfl rfl hrest fun _ => rfl
  · obtain ⟨rfl, hcount⟩ := Prod.mk.inj (Option.some.inj h)
    obtain ⟨rfl, hrest⟩ := Prod.mk.inj hcount
    exact hsign rfl rfl hrest fun _ => rfl
  · obtain ⟨rfl, hcount⟩ := Prod.mk.inj (Option.some.inj h)
    obtain ⟨rfl, hrest⟩ := Prod.mk.inj hcount
    exact hsign rfl rfl hrest fun _ => rfl
  · obtain ⟨⟨least, most, after⟩, hbounds, heq⟩ := Option.map_eq_some_iff.mp h
    simp only [Prod.mk.injEq, skipBlank_false] at heq
    obtain ⟨rfl, rfl, hrest⟩ := heq
    obtain ⟨inner, rfl, hread⟩ := apart_parseBounds hbounds
    obtain ⟨text, heq, hinner⟩ := parseBounds_eq_some hbounds
    obtain ⟨mark, rfl, hmark, hmarked⟩ := hlazy hrest
    obtain rfl := List.append_cancel_right heq
    refine ⟨'{', inner ++ '}' :: mark, by simp, ?_, fun more hmore => ?_⟩
    · refine List.forall_mem_cons.mpr ⟨.inl rfl, List.forall_mem_append.mpr
        ⟨fun c hc => .inr (.inr (hinner c hc)), List.forall_mem_cons.mpr
          ⟨.inr (.inl rfl), fun c hc => .inl (hmark c hc)⟩⟩⟩
    · have hshape : inner ++ '}' :: mark ++ more = inner ++ '}' :: (mark ++ more) := by simp
      rw [hshape]
      simp only [counted?, hread, Option.map_some, skipBlank_false, hmarked more hmore]
  · cases h

/-- Flags are read in the same way wherever they stand. -/
theorem parseOpening_letters {reading : Reading} (hverbose : reading.verbose = false)
    {letters more : List Char} {change : FlagChange} {mark : Char}
    (hmark : mark = ':' ∨ mark = ')') (hletters : ∀ c ∈ letters, Part.isFlagChar c = true)
    (hchange : mark = ')' → change ≠ [])
    (h : parseFlags? true [] (letters ++ mark :: more) = some (change, mark :: more)) :
    parseOpening? reading ('?' :: (letters ++ mark :: more))
      = some (if mark = ':' then .group (.flagged change) else .flags change, reading, more) := by
  have hend : ∀ d ∈ "=!<".toList, (letters ++ mark :: more).head? ≠ some d := by
    intro d hd hhead
    cases letters with
    | nil =>
      obtain rfl : mark = d := Option.some.inj hhead
      rcases hmark with rfl | rfl
      · exact absurd hd (by decide)
      · exact absurd hd (by decide)
    | cons c letters =>
      obtain rfl : c = d := Option.some.inj hhead
      have hne := List.all_eq_true.mp (show "=!<".toList.all (!Part.isFlagChar ·) = true from rfl)
        c hd
      rw [hletters c List.mem_cons_self] at hne
      cases hne
  have hname : ∀ rest, letters ++ mark :: more ≠ 'P' :: '<' :: rest := by
    intro rest heq
    cases letters with
    | nil => rcases hmark with rfl | rfl <;> cases heq
    | cons c letters =>
      obtain ⟨-, hsecond⟩ := List.cons.inj heq
      cases letters with
      | nil => rcases hmark with rfl | rfl <;> cases hsecond
      | cons d letters =>
        obtain rfl : d = '<' := (List.cons.inj hsecond).1
        exact absurd (hletters '<' (.tail _ List.mem_cons_self)) (by decide)
  unfold parseOpening?
  simp only [Reading.skipBlank_eq hverbose]
  split
  case h_7 rest _ _ _ _ _ _ heq =>
    obtain rfl : letters ++ mark :: more = rest := (List.cons.inj heq).2
    simp only [h, bind, Option.bind_some]
    rcases hmark with rfl | rfl
    · cases change <;> rfl
    · cases change with
      | nil => exact absurd rfl (hchange rfl)
      | cons flag change => rfl
  case h_8 hquestion => exact absurd rfl (hquestion _)
  all_goals
    rename_i heq
    first
      | exact absurd (congrArg List.head? (List.cons.inj heq).2) (hend _ (by decide))
      | exact absurd (List.cons.inj heq).2 (hname _)

/-- A group captures or has flags, and flags are read up to the mark that ends them. -/
theorem letters_of_parseOpening {reading inside : Reading} {opening : Opening}
    (hverbose : reading.verbose = false)
    (h : parseOpening? reading cs = some (opening, inside, left)) :
    (∃ index name, opening = .group (.capturing index name)) ∨
      ∃ letters mark change, cs = '?' :: (letters ++ mark :: left) ∧ (mark = ':' ∨ mark = ')') ∧
        (∀ c ∈ letters, Part.isFlagChar c = true) ∧ inside = reading ∧
        opening = (if mark = ':' then .group (.flagged change) else .flags change) ∧
        ∀ (reading' : Reading) (more : List Char), reading'.verbose = false →
          parseOpening? reading' ('?' :: (letters ++ mark :: more))
            = some (opening, reading', more) := by
  have hnamed : ∀ {text : List Char}, ((parseName? text).bind fun found =>
      if reading.names.contains found.1 then none
      else some (Opening.group (.capturing (reading.groups + 1) (some found.1)),
        { reading with groups := reading.groups + 1, names := found.1 :: reading.names },
        found.2)) = some (opening, inside, left) →
      ∃ index name, opening = .group (.capturing index name) := by
    intro text hread
    obtain ⟨found, -, hread⟩ := Option.bind_eq_some_iff.mp hread
    split at hread
    · cases hread
    · cases hread
      exact ⟨_, _, rfl⟩
  unfold parseOpening? at h
  simp only [Reading.skipBlank_eq hverbose] at h
  split at h
  · cases h
  · cases h
  · cases h
  · cases h
  · exact .inl (hnamed h)
  · exact .inl (hnamed h)
  · rename_i rest _ _ _ _ _ _
    obtain ⟨⟨change, after⟩, hflags, h⟩ := Option.bind_eq_some_iff.mp h
    obtain ⟨letters, mark, next, rfl, rfl, hmark, hletters, -, hread⟩ := apart_parseFlags hflags
    have hopening : opening = (if mark = ':' then .group (.flagged change) else .flags change) ∧
        inside = reading ∧ left = next ∧ (mark = ')' → change ≠ []) := by
      rcases hmark with rfl | rfl
      · cases change <;> cases h <;> exact ⟨rfl, rfl, rfl, nofun⟩
      · cases change with
        | nil => cases h
        | cons flag change =>
          cases h
          exact ⟨rfl, rfl, rfl, fun _ => List.cons_ne_nil _ _⟩
    obtain ⟨rfl, rfl, rfl, hchange⟩ := hopening
    exact .inr ⟨letters, mark, change, rfl, hmark, hletters, rfl, rfl, fun reading' more hverbose' =>
      parseOpening_letters hverbose' hmark hletters hchange (hread more)⟩
  · cases h
    exact .inl ⟨_, _, rfl⟩

end Regular

end Highlighter.Regex
