import Highlighter.Proofs.Union.ExtendedItems

/-!
# Groups of a pattern in the text of a member

How the extended dialect opens a group is told by the part that the splitter reads
(`openShown_named`, `openShown_flags`). In the member, a group that keeps a number is captured under
another one, a group that does not only brackets, and all others open as they did (`opensGroup`).
-/

set_option autoImplicit false

namespace Highlighter.Regex.Extended

open Pattern

variable {reading inside : Reading} {opening opening' : Opening} {cs rest opened : List Char}
  {kept : List Nat} {body body' : Tree}

/-! ### How groups open -/

/-- How a group opens may become how another one does, where the groups in `kept` keep a number. -/
inductive Opening.MayBecome (kept : List Nat) : Opening → Opening → Prop where
  | look (behind negated : Bool) : MayBecome kept (.look behind negated) (.look behind negated)
  | capture (index other : Nat) : MayBecome kept (.capture index) (.capture other)
  | dropped {index : Nat} (hkept : kept.contains index = false) :
    MayBecome kept (.capture index) .flagged
  | atomic : MayBecome kept .atomic .atomic
  | flags : MayBecome kept .flags .flags
  | flagged : MayBecome kept .flagged .flagged

namespace Opening.MayBecome

theorem isGroup (h : opening.MayBecome kept opening') : opening'.isGroup = true := by
  cases h <;> rfl

theorem eq_flags (h : opening.MayBecome kept opening') : opening' = .flags ↔ opening = .flags := by
  cases h <;> simp

theorem around (h : opening.MayBecome kept opening') (hbody : body.MayBecome kept body') :
    (opening.around body).MayBecome kept (opening'.around body') := by
  cases h with
  | look behind negated => exact Tree.mayBecome_look hbody behind negated
  | capture index other => exact Tree.mayBecome_group hbody index other
  | dropped hkept => exact Tree.group_mayBecome hbody hkept
  | atomic => exact Tree.mayBecome_atomic hbody
  | flags | flagged => exact hbody

end Opening.MayBecome

theorem openShown_capture (reading : Reading) (h : cs.head? ≠ some '?') :
    openShown? reading cs = some
      (.capture (reading.groups + 1), { reading with groups := reading.groups + 1 }, cs) := by
  unfold openShown?
  split <;> first
    | exact absurd rfl h
    | rfl

theorem openShown_named (reading : Reading) {mark : List Char}
    (hmark : mark = ['?', 'P', '<'] ∨ mark = ['?', '<'])
    (hfirst : mark = ['?', '<'] → rest.head? ≠ some '=' ∧ rest.head? ≠ some '!') :
    openShown? reading (mark ++ rest) = openNamed? reading rest := by
  rcases hmark with rfl | rfl
  · rfl
  · obtain ⟨hequals, hbang⟩ := hfirst rfl
    show openShown? reading ('?' :: '<' :: rest) = _
    rw [openShown?]
    · rintro others rfl
      exact hequals rfl
    · rintro others rfl
      exact hbang rfl

/-- A name reaches up to its closing bracket. -/
theorem openNamed_eq_some {name after : List Char} (hname : '>' ∉ name)
    (h : openNamed? reading (name ++ '>' :: after) = some (opening, inside, opened)) :
    opening = .capture (reading.groups + 1) ∧ inside.flags = reading.flags ∧
      inside.groups = reading.groups + 1 ∧ opened = after := by
  obtain ⟨⟨found, left⟩, hfound, heq⟩ := Option.bind_eq_some_iff.mp h
  cases heq
  refine ⟨rfl, rfl, rfl, ?_⟩
  have hsplit := List.takeWhile_append_dropWhile (p := isNameChar) (l := name ++ '>' :: after)
  have hall : ∀ c ∈ (name ++ '>' :: after).takeWhile isNameChar, isNameChar c = true :=
    List.all_eq_true.mp List.all_takeWhile
  unfold parseName? at hfound
  generalize (name ++ '>' :: after).takeWhile isNameChar = taken at hfound hsplit hall
  generalize (name ++ '>' :: after).dropWhile isNameChar = dropped at hfound hsplit
  have htaken : '>' ∉ taken := fun hmem =>
    absurd (hall '>' hmem) (by rw [isNameChar_ascii (by decide)]; decide)
  split at hfound
  · cases hfound
  · split at hfound
    · rename_i hc
      obtain rfl := beq_iff_eq.mp hc
      cases hfound
      have hlength := congrArg (Part.closingExtent '>') hsplit
      rw [closingExtent_append htaken, closingExtent_append hname] at hlength
      exact (List.cons.inj (List.append_inj hsplit (Nat.succ.inj hlength)).2).2
    · cases hfound
  · cases hfound

/-- What flags start with. -/
theorem head_letters {letters : List Char} (hletters : ∀ c ∈ letters, Part.isFlagChar c = true)
    {mark : Char} {d : Char} {more : List Char} (h : letters ++ mark :: rest = d :: more) :
    Part.isFlagChar d = true ∨ d = mark := by
  cases letters with
  | nil => exact .inr (List.cons.inj h).1.symm
  | cons c letters =>
    obtain ⟨rfl, -⟩ := List.cons.inj h
    exact .inl (hletters _ List.mem_cons_self)

theorem openShown_flags (reading : Reading) {letters : List Char}
    (hletters : ∀ c ∈ letters, Part.isFlagChar c = true) {mark : Char}
    (hmark : mark = ':' ∨ mark = ')') (rest : List Char) :
    openShown? reading ('?' :: (letters ++ mark :: rest))
      = parseFlags? true none reading ((letters ++ mark :: rest).length + 1)
          (letters ++ mark :: rest) := by
  have hne : ∀ {letters : List Char}, (∀ c ∈ letters, Part.isFlagChar c = true) →
      ∀ d ∈ ['=', '!', '<', '>', '('], ∀ more, letters ++ mark :: rest ≠ d :: more := by
    intro letters hletters d hd more heq
    obtain ⟨hletter, hcolon, hclose⟩ : Part.isFlagChar d = false ∧ d ≠ ':' ∧ d ≠ ')' := by
      simp only [List.mem_cons, List.not_mem_nil, or_false] at hd
      rcases hd with rfl | rfl | rfl | rfl | rfl <;> decide
    rcases head_letters hletters heq with hflag | rfl
    · rw [hletter] at hflag
      cases hflag
    · exact hmark.elim hcolon hclose
  have hnamed : ∀ d ∈ ['=', '!', '<', '>', '('], ∀ more,
      letters ++ mark :: rest ≠ 'P' :: d :: more := by
    intro d hd more heq
    cases letters with
    | nil =>
      rcases hmark with rfl | rfl <;> cases heq
    | cons c letters =>
      exact hne (fun c hc => hletters c (.tail _ hc)) d hd more (List.cons.inj heq).2
  rw [openShown?]
  · exact hne hletters '=' (by simp)
  · exact hne hletters '!' (by simp)
  · exact fun more heq => hne hletters '<' (by simp) _ heq
  · exact fun more heq => hne hletters '<' (by simp) _ heq
  · exact hne hletters '<' (by simp)
  · exact hnamed '<' (by simp)
  · exact hnamed '=' (by simp)
  · exact hne hletters '>' (by simp)
  · exact hne hletters '(' (by simp)

end Highlighter.Regex.Extended

namespace Highlighter.Union

open Pattern Regex Regex.Extended

namespace Follows

variable {recasting : Recasting} {size : Nat} {reading inside later : Reading}

/-- A group opens that keeps a number. -/
theorem capture (h : Follows recasting size reading later) (hverbose : inside.flags.verbose = false)
    (hgroups : inside.groups = reading.groups + 1)
    (hkept : recasting.kept.contains (reading.groups + 1) = true) :
    Follows recasting size inside { later with groups := later.groups + 1 } where
  verbose := hverbose
  verbose_later := h.verbose_later
  sorted := h.sorted
  names := h.names
  groups := by
    show later.groups + 1 = _
    rw [hgroups, countP_succ h.sorted, if_pos hkept, h.groups, Nat.add_assoc]
  size_eq := h.size_eq
  size_le := h.size_le
  limit := h.limit

/-- A group opens that keeps none. -/
theorem drop (h : Follows recasting size reading later) (hverbose : inside.flags.verbose = false)
    (hgroups : inside.groups = reading.groups + 1)
    (hkept : recasting.kept.contains (reading.groups + 1) = false) :
    Follows recasting size inside later where
  verbose := hverbose
  verbose_later := h.verbose_later
  sorted := h.sorted
  names := h.names
  groups := by
    rw [hgroups, countP_succ h.sorted, hkept, h.groups]
    rfl
  size_eq := h.size_eq
  size_le := h.size_le
  limit := h.limit

/-- Flags are set. -/
theorem flagged (h : Follows recasting size reading later) {flags flags' : Flags}
    (hverbose : flags.verbose = false) (hverbose' : flags'.verbose = false) :
    Follows recasting size { reading with flags } { later with flags := flags' } :=
  { h with verbose := hverbose, verbose_later := hverbose' }

/-- A group is left. -/
theorem leave {after after' : Reading} (h : Follows recasting size reading later)
    (hafter : Follows recasting size after after') {opening opening' : Extended.Opening}
    (hopening : opening.MayBecome recasting.kept opening') :
    Follows recasting size (opening.leave reading after) (opening'.leave later after') := by
  cases hopening with
  | look | capture | atomic => exact hafter
  | dropped => exact { hafter with verbose_later := h.verbose_later }
  | flags | flagged => exact hafter.flagged h.verbose h.verbose_later

end Follows

namespace Recasting

/-- After a parenthesis, a group opens between `cs` and `opened`, and it opens in the member,
too. -/
structure OpensGroup (recasting : Recasting) (reading inside : Reading) (opening : Extended.Opening)
    (cs opened : List Char) : Prop extends Carried recasting reading inside ('(' :: cs) opened where
  isGroup : opening.isGroup = true
  opens : ∃ written, recasting.text reading.groups ('(' :: cs)
      = '(' :: (written ++ recasting.text inside.groups opened) ∧
    ∀ {size : Nat} (later : Reading) (tail : List Char),
      Follows recasting size reading later → Ends tail →
        ∃ opening' inside', opening.MayBecome recasting.kept opening' ∧
          Follows recasting size inside inside' ∧
          parseOpening? later (written ++ (recasting.text inside.groups opened ++ tail))
            = some (opening', inside', recasting.text inside.groups opened ++ tail)

variable {recasting : Recasting} {reading inside : Reading} {opening : Extended.Opening}
  {cs opened : List Char}

theorem OpensGroup.of_text (written : List Char)
    (hsteady : Steady recasting.kept inside.groups opened)
    (hverbose : inside.flags.verbose = false) (hgroup : opening.isGroup = true)
    (htext : recasting.text reading.groups ('(' :: cs)
      = '(' :: (written ++ recasting.text inside.groups opened))
    (h : ∀ {size : Nat} (later : Reading) (tail : List Char),
      Follows recasting size reading later → Ends tail →
        ∃ opening' inside', opening.MayBecome recasting.kept opening' ∧
          Follows recasting size inside inside' ∧
          parseOpening? later (written ++ (recasting.text inside.groups opened ++ tail))
            = some (opening', inside', recasting.text inside.groups opened ++ tail)) :
    OpensGroup recasting reading inside opening cs opened where
  verbose := hverbose
  steady := hsteady
  length := by
    rw [htext, List.length_cons, List.length_append]
    omega
  isGroup := hgroup
  opens := ⟨written, htext, h⟩

/-- A group is captured under another number, or only brackets. -/
theorem opensGroup_capture {kind : Pattern.Opening} (hkind : kind.isCapturing = true)
    (h : SteadyOpening recasting.kept reading.groups cs (.opening kind) opened)
    (hverbose : inside.flags.verbose = false) (hgroups : inside.groups = reading.groups + 1) :
    OpensGroup recasting reading inside (.capture (reading.groups + 1)) cs opened := by
  have hcaptures : captures (.opening kind) = true := hkind
  have hsteady := h.steady
  have htext := h.text recasting
  rw [hcaptures, if_pos rfl, ← hgroups] at hsteady htext
  rw [part_opening, if_pos hkind] at htext
  cases hkept : recasting.kept.contains (reading.groups + 1) with
  | true =>
    rw [hkept, if_pos rfl] at htext
    refine .of_text [] hsteady hverbose rfl htext fun later tail hfollows htail =>
      ⟨_, _, .capture _ (later.groups + 1), hfollows.capture hverbose hgroups hkept, ?_⟩
    rw [List.nil_append, parseOpening_eq,
      Reading.skip_eq hfollows.verbose_later (clean_text hsteady htail), Option.bind_some]
    exact openShown_capture later fun hhead => h.head?_ne hcaptures
      (head?_of_count hsteady rfl (head?_of_ends htail (by decide) hhead))
  | false =>
    rw [hkept, if_neg Bool.false_ne_true] at htext
    exact .of_text ['?', ':'] hsteady hverbose rfl htext fun later tail hfollows _ =>
      ⟨_, later, .dropped hkept, hfollows.drop hverbose hgroups hkept,
        (parseOpening_flags hfollows.verbose_later _).1⟩

/-- Look-around stays. -/
theorem opensGroup_look {mark body : List Char}
    (hmark : mark ∈ [['='], ['!'], ['<', '='], ['<', '!']])
    (h : SteadyOpening recasting.kept reading.groups ('?' :: (mark ++ body)) (.opening (.look mark))
      body)
    (hverbose : reading.flags.verbose = false)
    (hread : parseOpening? reading ('?' :: (mark ++ body)) = some (opening, inside, opened)) :
    OpensGroup recasting reading inside opening ('?' :: (mark ++ body)) opened := by
  obtain ⟨behind, negated, rfl⟩ : ∃ behind negated, mark = Expr.lookMark behind negated := by
    simp only [List.mem_cons, List.not_mem_nil, or_false] at hmark
    rcases hmark with rfl | rfl | rfl | rfl
    · exact ⟨false, false, rfl⟩
    · exact ⟨false, true, rfl⟩
    · exact ⟨true, false, rfl⟩
    · exact ⟨true, true, rfl⟩
  rw [parseOpening_look hverbose] at hread
  cases hread
  have htext := h.text recasting
  rw [part_opening] at htext
  exact .of_text ('?' :: Expr.lookMark behind negated) h.steady hverbose rfl htext
    fun later tail hfollows _ => ⟨_, later, .look behind negated, hfollows,
      parseOpening_look hfollows.verbose_later behind negated _⟩

/-- Flags stay. -/
theorem opensGroup_flags {letters body : List Char} {mark : Char} (hmark : mark = ':' ∨ mark = ')')
    (hletters : ∀ c ∈ letters, Part.isFlagChar c = true) (hx : letters.contains 'x' = false)
    (hsteady : Steady recasting.kept reading.groups body)
    (htext : recasting.text reading.groups ('(' :: '?' :: (letters ++ mark :: body))
      = '(' :: ('?' :: (letters ++ [mark]) ++ recasting.text reading.groups body))
    (hverbose : reading.flags.verbose = false)
    (hread : parseOpening? reading ('?' :: (letters ++ mark :: body))
      = some (opening, inside, opened)) :
    OpensGroup recasting reading inside opening ('?' :: (letters ++ mark :: body)) opened := by
  have hplain : ∀ c ∈ letters, Part.isFlagChar c = true ∧ c ≠ 'x' := by
    refine fun c hc => ⟨hletters c hc, ?_⟩
    rintro rfl
    rw [List.contains_iff_mem.mpr hc] at hx
    cases hx
  have hopens : ∀ {reading : Reading}, reading.flags.verbose = false → ∀ more,
      parseOpening? reading ('?' :: (letters ++ mark :: more))
        = parseFlags? true none reading ((letters ++ mark :: more).length + 1)
            (letters ++ mark :: more) := fun hverbose more => by
    rw [parseOpening_eq, Reading.skip_eq hverbose (clean_cons (by decide) _), Option.bind_some,
      openShown_flags _ hletters hmark]
  rw [hopens hverbose] at hread
  obtain ⟨⟨⟨rfl, hopening⟩, hinside, hverbose'⟩, hmore⟩ :=
    parseFlags_letters hmark hplain hverbose hread
  have hgroups : inside.groups = reading.groups := by rw [hinside]
  rw [← hgroups] at hsteady
  refine .of_text ('?' :: (letters ++ [mark])) hsteady hverbose' ?_ (hgroups ▸ htext)
    fun later tail hfollows _ => ?_
  · rw [hopening]
    split <;> rfl
  · obtain ⟨flags, hflags, hread'⟩ := hmore later
      (recasting.text inside.groups opened ++ tail) _ hfollows.verbose_later
      (show letters.length < (letters ++ mark :: _).length + 1 by
        rw [List.length_append]
        omega)
    rw [← hopens hfollows.verbose_later] at hread'
    refine ⟨opening, { later with flags }, ?_, ?_, ?_⟩
    · rw [hopening]
      split
      · exact .flags
      · exact .flagged
    · rw [hinside]
      exact hfollows.flagged hverbose' hflags
    · simpa using hread'

/-- What else opens with a question mark is an atomic group. -/
theorem opensGroup_special {body : List Char}
    (h : SteadyOpening recasting.kept reading.groups ('?' :: body) (.opening .special) body)
    (hverbose : reading.flags.verbose = false)
    (hread : parseOpening? reading ('?' :: body) = some (opening, inside, opened)) :
    OpensGroup recasting reading inside opening ('?' :: body) opened := by
  rw [parseOpening_eq, Reading.skip_eq hverbose (clean_cons (by decide) _), Option.bind_some]
    at hread
  cases body with
  | nil => cases hread
  | cons c body =>
    obtain rfl := h.head?_special c rfl
    cases hread
    have htext := h.text recasting
    rw [part_opening] at htext
    have hsteady : Steady recasting.kept reading.groups ('>' :: opened) := h.steady
    have hbody : recasting.text reading.groups ('>' :: opened)
        = '>' :: recasting.text reading.groups opened := by
      rw [text_plain rfl, char_eq rfl]
      rfl
    refine .of_text ['?', '>'] (hsteady.plain rfl).1 hverbose rfl (htext.trans ?_)
      fun later tail hfollows _ => ⟨_, later, .atomic, hfollows, ?_⟩
    · show '(' :: '?' :: recasting.text reading.groups ('>' :: opened) = _
      rw [hbody]
      rfl
    · rw [parseOpening_eq, List.cons_append,
        Reading.skip_eq hfollows.verbose_later (clean_cons (by decide) _)]
      rfl

/-- Whatever group opens in a pattern, it opens in the member. -/
theorem opensGroup (h : Steady recasting.kept reading.groups ('(' :: cs))
    (hverbose : reading.flags.verbose = false)
    (hread : parseOpening? reading cs = some (opening, inside, opened)) :
    OpensGroup recasting reading inside opening cs opened := by
  obtain ⟨part, body, hopening⟩ := h.opening
  have htext := hopening.text recasting
  cases hopening.opens with
  | capture hhead =>
    rw [parseOpening_eq, Reading.skip_eq hverbose hopening.steady.clean, Option.bind_some,
      openShown_capture reading hhead] at hread
    cases hread
    exact opensGroup_capture rfl hopening hverbose rfl
  | @named mark name body hmark hname hfirst =>
    have hclean : Clean (mark ++ (name ++ '>' :: body)) := by
      rcases hmark with rfl | rfl <;> exact clean_cons (by decide) _
    have hfirst' : mark = ['?', '<'] →
        (name ++ '>' :: body).head? ≠ some '=' ∧ (name ++ '>' :: body).head? ≠ some '!' := by
      intro hmark
      cases name with
      | nil => exact ⟨nofun, nofun⟩
      | cons c name => exact hfirst hmark
    rw [parseOpening_eq, Reading.skip_eq hverbose hclean, Option.bind_some,
      openShown_named reading hmark hfirst'] at hread
    obtain ⟨rfl, hflags, hgroups, rfl⟩ := openNamed_eq_some hname hread
    exact opensGroup_capture rfl hopening (hflags ▸ hverbose) hgroups
  | look mark hmark => exact opensGroup_look hmark hopening hverbose hread
  | @flagged letters _ hletters =>
    refine opensGroup_flags (.inl rfl) hletters (by simpa [isReadAlone] using hopening.alone)
      hopening.steady (htext.trans ?_) hverbose hread
    rw [part_opening]
    simp [Pattern.Opening.isCapturing, Pattern.Opening.render, captures]
  | @flags letters _ hletters =>
    refine opensGroup_flags (.inr rfl) hletters (by simpa [isReadAlone] using hopening.alone)
      hopening.steady (htext.trans ?_) hverbose hread
    rw [part_flags]
    simp [captures]
  | special => exact opensGroup_special hopening hverbose hread

end Recasting

end Highlighter.Union
