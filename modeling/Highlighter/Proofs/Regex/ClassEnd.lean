import Highlighter.Proofs.Regex.Taken

/-!
# What comes after a class does not matter

`parseClass?` reads a class up to its closing bracket, and answers the
same whatever is written after it (`parseClass_append`). This holds of
all classes, also of those in which others nest. Each reader below has a
lemma of its own for it; the one for members (`parseMembers_append`)
also says that more fuel than is needed changes nothing.
-/

set_option autoImplicit false

namespace Highlighter.Regex

open Pattern

variable {cs left : List Char}

/-! ### Codes and properties -/

theorem parseHexDigits_append {count value code : Nat}
    (h : parseHexDigits? false count value cs = some (code, left)) (more : List Char) :
    parseHexDigits? false count value (cs ++ more) = some (code, left ++ more) := by
  induction count generalizing value cs with
  | zero =>
    cases h
    rfl
  | succ count ih =>
    cases cs with
    | nil => cases h
    | cons c cs =>
      rw [parseHexDigits?] at h
      obtain ⟨digit, hdigit, hrest⟩ := Option.bind_eq_some_iff.mp h
      rw [List.cons_append, parseHexDigits?, hdigit]
      exact ih hrest

theorem untilBrace_append {steps : Nat} {inner : List Char}
    (h : untilBrace? false steps cs = some (inner, left)) (more : List Char) :
    untilBrace? false ((cs ++ more).length + 1) (cs ++ more) = some (inner, left ++ more) := by
  obtain ⟨rfl, hbrace⟩ := untilBrace_eq_some h
  rw [List.append_assoc, List.cons_append]
  exact untilBrace_inner hbrace _ (by rw [List.length_append]; omega)

theorem parseCode_append {width : Nat} {piece : Primitive}
    (h : parseCode? false width cs = some (piece, left)) (hwidth : width ≠ 0) (more : List Char) :
    parseCode? false width (cs ++ more) = some (piece, left ++ more) := by
  have hne : cs ≠ [] := by
    rintro rfl
    cases width with
    | zero => exact hwidth rfl
    | succ width => cases h
  unfold parseCode? at h ⊢
  rw [skipBlank_false] at h ⊢
  split at h
  · obtain ⟨⟨inner, after⟩, hinner, h⟩ := Option.bind_eq_some_iff.mp h
    obtain ⟨code, hcode, h⟩ := Option.bind_eq_some_iff.mp h
    obtain ⟨c, hc, h⟩ := Option.bind_eq_some_iff.mp h
    cases h
    simp only [List.cons_append, untilBrace_append hinner more, hcode, hc, bind, Option.bind_some]
    rfl
  · rename_i hopen
    obtain ⟨⟨code, after⟩, hdigits, h⟩ := Option.bind_eq_some_iff.mp h
    obtain ⟨c, hc, h⟩ := Option.bind_eq_some_iff.mp h
    cases h
    split
    · rename_i heq
      cases cs with
      | nil => exact absurd rfl hne
      | cons d cs =>
        cases heq
        exact absurd rfl (hopen cs)
    · simp only [parseHexDigits_append hdigits more, hc, bind, Option.bind_some]
      rfl

theorem parseProperty_append {negated : Bool} {piece : Primitive}
    (h : parseProperty? false negated cs = some (piece, left)) (more : List Char) :
    parseProperty? false negated (cs ++ more) = some (piece, left ++ more) := by
  unfold parseProperty? at h ⊢
  rw [skipBlank_false] at h ⊢
  split at h
  · cases h
  · obtain ⟨⟨inner, after⟩, hinner, h⟩ := Option.bind_eq_some_iff.mp h
    cases h
    simp only [List.cons_append, untilBrace_append hinner more, bind, Option.bind_some]
    rfl
  · cases h
  · rename_i c rest hopen hslash
    cases h
    rw [List.cons_append]
    split
    · rename_i heq
      cases heq
    · rename_i heq
      cases heq
      exact absurd rfl hopen
    · rename_i heq
      cases heq
      exact absurd rfl hslash
    · rename_i heq
      cases heq
      rfl

/-! ### Members and ranges -/

/-- A member is read up to its end. Word boundaries are none. -/
theorem parseMember_append {piece : Primitive} {item : ClassSet}
    (h : parseMember? false cs = some (piece, left)) (hclass : piece.toClass? = some item)
    (more : List Char) : parseMember? false (cs ++ more) = some (piece, left ++ more) := by
  cases cs with
  | nil => cases h
  | cons c rest =>
    by_cases hslash : c = '\\'
    · subst hslash
      have h : parseEscape? false rest = some (piece, left) := h
      show parseEscape? false (rest ++ more) = _
      cases rest with
      | nil => cases h
      | cons letter rest =>
        rw [List.cons_append]
        by_cases hletter : "xuUpPb".toList.contains letter = true
        · have hcases : letter = 'x' ∨ letter = 'u' ∨ letter = 'U' ∨ letter = 'p' ∨ letter = 'P' ∨
              letter = 'b' := by simpa using hletter
          rcases hcases with rfl | rfl | rfl | rfl | rfl | rfl
          · exact parseCode_append h (by decide) more
          · exact parseCode_append h (by decide) more
          · exact parseCode_append h (by decide) more
          · exact parseProperty_append h more
          · exact parseProperty_append h more
          · obtain ⟨sign, hsign⟩ := parseBoundary_anchor h
            cases hsign
            cases hclass
        · have hletter := Bool.eq_false_iff.mpr hletter
          rw [parseEscape_letter hletter] at h ⊢
          obtain ⟨found, hfound, heq⟩ := Option.map_eq_some_iff.mp h
          cases heq
          rw [hfound]
          rfl
    · rw [parseMember?] at h
      · cases h
        rw [List.cons_append, parseMember?]
        exact hslash
      · exact hslash

theorem parseRange_append {item : ClassSet} (h : RangeRead cs item left) (more : List Char) :
    parseRange? false (cs ++ more) = some (item, left ++ more) := by
  cases h with
  | single hfirst hclass hne hhyphen =>
    obtain ⟨c, rest, rfl⟩ := List.exists_cons_of_ne_nil hne
    rw [parseRange_single (parseMember_append hfirst hclass more) (by simp) fun others heq => ?_,
      hclass]
    · rfl
    · exact hhyphen rest (by rw [(List.cons.inj heq).1])
  | @hyphen first rest hfirst hclass hleft hnext =>
    subst hleft
    have hnext' : (rest ++ more).head? = some ']' ∨ (rest ++ more).head? = some '-' := by
      rcases hnext with hnext | hnext <;>
      · obtain ⟨others, rfl⟩ := List.head?_eq_some_iff.mp hnext
        simp
    rw [parseRange_hyphen (parseMember_append hfirst hclass more) hnext', hclass]
    rfl
  | @range lo hi byte byte' rest hfirst hsecond hle hitem hclose hhyphen =>
    obtain ⟨d, token, rfl⟩ := takes_parseMember _ _ _ hsecond
    have hread := parseMember_append hfirst rfl more
    rw [List.cons_append] at hread
    rw [parseRange_range hread hclose hhyphen, parseMember_append hsecond rfl more,
      Option.bind_some, rangeOf?, if_pos hle, hitem]
    rfl

/-! ### Named classes -/

/-- The names of named classes. -/
def posixNames : List String :=
  ["alnum", "alpha", "ascii", "blank", "cntrl", "digit", "graph", "lower", "print", "punct",
    "space", "upper", "word", "xdigit"]

theorem mem_posixNames {name : String} {kind : PosixClass}
    (h : PosixClass.ofName? name = some kind) : name ∈ posixNames := by
  unfold PosixClass.ofName? at h
  split at h <;> simp_all [posixNames]

/-- What the names of classes do not have. -/
theorem not_mem_posixName {name : List Char} {kind : PosixClass}
    (h : PosixClass.ofName? (String.ofList name) = some kind) :
    ':' ∉ name ∧ ']' ∉ name ∧ '^' ∉ name := by
  have hnames : posixNames.all (fun known => !known.toList.contains ':' &&
      (!known.toList.contains ']' && !known.toList.contains '^')) = true := by decide
  have hplain := List.all_eq_true.mp hnames _ (mem_posixNames h)
  simpa using hplain

theorem parsePosix_name (negated : Bool) {name : List Char} {kind : PosixClass}
    (h : PosixClass.ofName? (String.ofList name) = some kind) (left : List Char) :
    parsePosix? (':' :: (negation negated ++ (name ++ ':' :: ']' :: left)))
      = some (.posix kind negated, left) := by
  obtain ⟨hcolon, -, hcaret⟩ := not_mem_posixName h
  have hother : ∀ c ∈ name, (c != ':') = true := fun c hc =>
    bne_iff_ne.mpr fun heq => hcolon (heq ▸ hc)
  have hdrop : (name ++ ':' :: ']' :: left).dropWhile (· != ':') = ':' :: ']' :: left := by
    rw [List.dropWhile_append_of_pos hother]
    rfl
  have htake : (name ++ ':' :: ']' :: left).takeWhile (· != ':') = name := by
    rw [List.takeWhile_append_of_pos hother, List.takeWhile_cons_of_neg (by decide),
      List.append_nil]
  cases negated with
  | true =>
    show parsePosix? (':' :: '^' :: (name ++ ':' :: ']' :: left)) = _
    simp only [parsePosix?, hdrop, htake, h, bind, Option.bind_some]
    rfl
  | false =>
    have hsign : ∀ rest, name ++ ':' :: ']' :: left ≠ '^' :: rest := by
      intro rest heq
      cases name with
      | nil => cases heq
      | cons c name =>
        cases heq
        exact hcaret List.mem_cons_self
    show parsePosix? (':' :: (name ++ ':' :: ']' :: left)) = _
    unfold parsePosix?
    simp only
    split
    · rename_i after heq
      cases hdrop.symm.trans heq
      rw [htake, h]
      rfl
    · rename_i hnone
      exact absurd hdrop (hnone left)

/-- A text that reaches a closing bracket is not read as a named class
because of what comes after it. -/
theorem parsePosix_append_none (h : parsePosix? cs = none) (hclose : ']' ∈ cs) (more : List Char) :
    parsePosix? (cs ++ more) = none := by
  rw [Option.eq_none_iff_forall_ne_some]
  rintro ⟨item, left⟩ hsome
  obtain ⟨negated, name, kind, heq, hkind, rfl⟩ := parsePosix_eq_some hsome
  obtain ⟨hcolon, hbracket, hcaret⟩ := not_mem_posixName hkind
  -- The first closing bracket is the one after the name.
  obtain ⟨before, after, rfl, hbefore⟩ := List.eq_append_cons_of_mem hclose
  have hname : ∀ rest, ':' :: (negation negated ++ (name ++ ':' :: ']' :: rest))
      = (':' :: (negation negated ++ (name ++ [':']))) ++ ']' :: rest := fun rest => by simp
  have hplain : ']' ∉ ':' :: (negation negated ++ (name ++ [':'])) := by
    cases negated <;> simp [negation, hbracket]
  rw [hname, List.append_assoc, List.cons_append] at heq
  have hwhile : ∀ {before : List Char} (after : List Char), ']' ∉ before →
      (before ++ ']' :: after).takeWhile (· != ']') = before := by
    intro before after hbefore
    have hother : ∀ c ∈ before, (c != ']') = true := fun c hc =>
      bne_iff_ne.mpr fun hsame => hbefore (hsame ▸ hc)
    rw [List.takeWhile_append_of_pos hother, List.takeWhile_cons_of_neg (by decide),
      List.append_nil]
  obtain rfl : before = ':' :: (negation negated ++ (name ++ [':'])) := by
    rw [← hwhile (after ++ more) hbefore, heq, hwhile left hplain]
  rw [← hname, parsePosix_name negated hkind] at h
  cases h

/-! ### Classes -/

theorem leadingHyphens_append {steps : Nat} {items : List ClassSet}
    (h : leadingHyphens? false steps cs = some (items, left)) (more : List Char) (steps' : Nat)
    (hsteps : steps ≤ steps') :
    leadingHyphens? false steps' (cs ++ more) = some (items, left ++ more) := by
  induction steps generalizing cs items steps' with
  | zero => cases h
  | succ steps ih =>
    obtain ⟨steps', rfl⟩ : ∃ count, steps' = count + 1 := ⟨steps' - 1, by omega⟩
    unfold leadingHyphens? at h
    split at h
    · cases h
    · rw [skipBlank_false] at h
      obtain ⟨⟨others, after⟩, hothers, heq⟩ := Option.bind_eq_some_iff.mp h
      cases heq
      rw [List.cons_append, leadingHyphens?, skipBlank_false,
        ih hothers _ (Nat.le_of_succ_le_succ hsteps)]
      rfl
    · rename_i hne hhyphen
      cases h
      obtain ⟨c, rest, rfl⟩ := List.exists_cons_of_ne_nil hne
      rw [List.cons_append, leadingHyphens?]
      · rintro ⟨⟩
      · rintro others heq
        cases heq
        exact hhyphen rest rfl

theorem openMembers_append {negated sign : Bool} {items : List ClassSet}
    (h : openMembers? sign cs = some (negated, items, left)) (more : List Char) :
    openMembers? sign (cs ++ more) = some (negated, items, left ++ more) := by
  obtain ⟨⟨lead, after⟩, hlead, h⟩ := Option.bind_eq_some_iff.mp h
  have hread := leadingHyphens_append hlead more ((cs ++ more).length + 1)
    (by rw [List.length_append]; omega)
  obtain ⟨-, -, -, hne, -⟩ := leadingHyphens_eq_some hlead
  obtain ⟨c, rest, rfl⟩ := List.exists_cons_of_ne_nil hne
  unfold openMembers?
  rw [hread]
  simp only [bind, Option.bind_some] at h ⊢
  rw [List.cons_append]
  split at h
  · rename_i heq
    cases heq
    split at h
    · cases h
    · rename_i hrest
      cases h
      obtain ⟨d, others, rfl⟩ := List.exists_cons_of_ne_nil hrest
      rfl
  · rename_i hclose
    cases h
    split
    · rename_i heq
      cases heq
      exact (hclose rest rfl rfl).elim
    · rfl

theorem openClass_append {negated : Bool} {items : List ClassSet}
    (h : openClass? false cs = some (negated, items, left)) (more : List Char) :
    openClass? false (cs ++ more) = some (negated, items, left ++ more) := by
  by_cases hcaret : ∃ rest, cs = '^' :: rest
  · obtain ⟨rest, rfl⟩ := hcaret
    have h : openMembers? true rest = some (negated, items, left) := h
    exact openMembers_append h more
  · rw [openClass_members fun rest heq => hcaret ⟨rest, heq⟩] at h
    rw [openClass_members, openMembers_append h more]
    rintro rest heq
    cases cs with
    | nil => cases h
    | cons c cs =>
      cases heq
      exact hcaret ⟨cs, rfl⟩

/-- Members are read up to the end of their class, with any fuel that
is enough. -/
theorem parseMembers_append {steps : Nat} {pending : Option (ClassOp × ClassSet)}
    {items : List ClassSet} {set : ClassSet}
    (h : parseMembers? false steps pending items cs = some (set, left)) (more : List Char)
    (steps' : Nat) (hsteps : steps ≤ steps') :
    parseMembers? false steps' pending items (cs ++ more) = some (set, left ++ more) := by
  induction steps generalizing pending items cs set left steps' with
  | zero => cases h
  | succ steps ih =>
    obtain ⟨steps', rfl⟩ : ∃ count, steps' = count + 1 := ⟨steps' - 1, by omega⟩
    have hsteps := Nat.le_of_succ_le_succ hsteps
    cases parseMembers_eq_some h with
    | close hcs hset =>
      rw [hcs, hset]
      rfl
    | @op c op rest hop hcs hrest =>
      rw [hcs, List.cons_append, List.cons_append, parseMembers_op hop]
      exact ih hrest _ hsteps
    | posix hcs hposix hrest =>
      obtain ⟨negated, name, kind, rfl, hkind, rfl⟩ := parsePosix_eq_some hposix
      have hshape : ∀ after, ':' :: (negation negated ++ (name ++ ':' :: ']' :: after)) ++ more
          = ':' :: (negation negated ++ (name ++ ':' :: ']' :: (after ++ more))) := fun after => by simp
      rw [hcs, List.cons_append, parseMembers_bracket, hshape, parsePosix_name negated hkind]
      exact ih hrest _ hsteps
    | @nested negated inner body rest opened after hcs hposix hopen hbody hrest =>
      have hclose : ']' ∈ rest := by
        obtain ⟨text, rfl⟩ := exists_of_parseMembers hbody
        obtain ⟨rest, hopened⟩ := openClass_eq_some hopen
        obtain ⟨start, rfl⟩ := hopened.exists_append
        exact List.mem_append_right _ (List.mem_append_right _ (List.mem_append_right _
          List.mem_cons_self))
      rw [hcs, List.cons_append, parseMembers_bracket, parsePosix_append_none hposix hclose]
      simp only [openClass_append hopen more, Option.bind_some, ih hbody _ hsteps]
      exact ih hrest _ hsteps
    | @item c tail after item hcs hopen hclose hop hrange hrest =>
      subst hcs
      have hop' : (tail ++ more).head? = some c → doubledOp? c = none := by
        intro hhead
        cases tail with
        | nil =>
          obtain ⟨d, text, heq⟩ := hrange.takes
          obtain ⟨others, rfl⟩ := exists_of_parseMembers hrest
          simp at heq
        | cons d tail => exact hop hhead
      rw [List.cons_append, parseMembers_item hopen hclose hop', ← List.cons_append,
        parseRange_append hrange more]
      exact ih hrest _ hsteps

/-- What comes after a class does not matter. -/
theorem parseClass_append {set : ClassSet} (h : parseClass? false cs = some (set, left))
    (more : List Char) : parseClass? false (cs ++ more) = some (set, left ++ more) := by
  obtain ⟨⟨negated, items, opened⟩, hopen, h⟩ := Option.bind_eq_some_iff.mp h
  obtain ⟨⟨inner, after⟩, hmembers, heq⟩ := Option.bind_eq_some_iff.mp h
  cases heq
  have hread := parseMembers_append hmembers more ((opened ++ more).length + 1)
    (by rw [List.length_append]; omega)
  simp only [parseClass?, openClass_append hopen more, bind, Option.bind_some, hread]
  rfl

end Highlighter.Regex
