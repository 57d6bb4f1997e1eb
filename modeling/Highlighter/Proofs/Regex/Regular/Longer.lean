import Highlighter.Proofs.Regex.LongerClass
import Highlighter.Proofs.Regex.Regular.Derivation
import Highlighter.Proofs.Regex.Regular.Later

/-!
# Patterns of the regular dialect with more after them

What the regular dialect reads up to a closing parenthesis is read alike wherever it stands, with
groups numbered after those that have opened before (`simulated_of_reads`). The induction is on how
it is read by itself.
-/

set_option autoImplicit false

namespace Highlighter.Regex

variable {more cs ds : List Char} {verbose : Bool}

/-! ### Flags and names -/

theorem Longer.parseFlags (h : Longer more cs ds) {on : Bool} {change : Regular.FlagChange}
    {found found' : Regular.FlagChange × List Char}
    (hread : Regular.parseFlags? on change cs = some found)
    (hread' : Regular.parseFlags? on change ds = some found') :
    found'.1 = found.1 ∧ Longer more found.2 found'.2 := by
  induction h generalizing on change with
  | close =>
    cases hread
    cases hread'
    exact ⟨rfl, .close⟩
  | @char c cs ds hrest ih =>
    unfold Regular.parseFlags? at hread
    split at hread
    · cases hread
    · rename_i heq
      cases heq
      cases hread
      cases hread'
      exact ⟨rfl, .char ')' hrest⟩
    · rename_i heq
      cases heq
      cases hread
      cases hread'
      exact ⟨rfl, .char ':' hrest⟩
    · rename_i heq
      cases heq
      split at hread
      · rename_i d rest
        obtain ⟨others, rfl, -⟩ := hrest.uncons
        rw [Regular.parseFlags?] at hread'
        split at hread
        · rename_i hgoes
          rw [if_pos hgoes] at hread'
          exact ih hread hread'
        · cases hread
      · cases hread
    · rename_i hclose hcolon hhyphen heq
      cases heq
      rw [Regular.parseFlags?] at hread'
      · obtain ⟨flag, hflag, hread⟩ := Option.bind_eq_some_iff.mp hread
        obtain ⟨flag', hflag', hread'⟩ := Option.bind_eq_some_iff.mp hread'
        rw [hflag] at hflag'
        cases hflag'
        split at hread
        · cases hread
        · rename_i hnew
          rw [if_neg hnew] at hread'
          exact ih hread hread'
      · exact hclose
      · exact hcolon
      · exact hhyphen

/-- What ends a run that holds no closing parenthesis ends it in the longer text too. -/
theorem Longer.through {test : Char → Bool} {c : Char} {rest : List Char} (h : Longer more cs ds)
    (hdrop : cs.dropWhile test = c :: rest) (hclose : ')' ∉ cs.takeWhile test) (hc : c ≠ ')') :
    ds.takeWhile test = cs.takeWhile test ∧
      ∃ others, ds.dropWhile test = c :: others ∧ Longer more rest others := by
  have hrun : ∀ d ∈ cs.takeWhile test, test d = true := List.all_eq_true.mp List.all_takeWhile
  have hend : test c = false := by
    have hhead := List.head?_dropWhile_not test cs
    rw [hdrop] at hhead
    simpa using hhead
  rw [← List.takeWhile_append_dropWhile (p := test) (l := cs), hdrop] at h
  obtain ⟨_, rfl, hleft⟩ := h.append_inside hclose
  obtain ⟨others, rfl, hothers⟩ := hleft.uncons_inside hc
  rw [List.takeWhile_append_of_pos hrun, List.dropWhile_append_of_pos hrun,
    List.takeWhile_cons_of_neg (by simp [hend]), List.dropWhile_cons_of_neg (by simp [hend]),
    List.append_nil]
  exact ⟨rfl, others, rfl, hothers⟩

/-- No name holds a closing parenthesis. -/
theorem Longer.parseName (h : Longer more cs ds) {name : String} {left : List Char}
    (hread : Regular.parseName? cs = some (name, left)) :
    ∃ left', Regular.parseName? ds = some (name, left') ∧ Longer more left left' := by
  have hclose : ∀ {first : Bool}, Regular.isNameChar first ')' = true → False := fun h =>
    (Regular.isPlain_of_isNameChar h).elim (by decide) (by decide)
  unfold Regular.parseName? at hread ⊢
  split at hread
  · rename_i rest hdrop
    split at hread
    · cases hread
    · rename_i c others hname
      split at hread
      · rename_i hchars
        cases hread
        have hplain : ')' ∉ cs.takeWhile (· != '>') := by
          rw [hname]
          intro hmem
          obtain ⟨hc, hothers⟩ := Bool.and_eq_true_iff.mp hchars
          rcases List.mem_cons.mp hmem with rfl | hmem
          · exact hclose hc
          · exact hclose (List.all_eq_true.mp hothers _ hmem)
        obtain ⟨htake, left', hdrop', hleft⟩ := h.through hdrop hplain (by decide)
        simp only [hdrop', htake, hname, if_pos hchars]
        exact ⟨left', rfl, hleft⟩
      · cases hread
  · cases hread

/-! ### Openings -/

namespace Regular

/-- The reader of a longer text, before which `base` groups have opened. -/
structure Reading.Later (base : Nat) (reading later : Reading) : Prop where
  verbose_eq : later.verbose = reading.verbose
  groups_eq : later.groups = base + reading.groups

/-- Groups open alike. -/
inductive Opening.Later (base groups : Nat) : Opening → Opening → Prop where
  | flags (change : FlagChange) : Later base groups (.flags change) (.flags change)
  | flagged (change : FlagChange) :
    Later base groups (.group (.flagged change)) (.group (.flagged change))
  | capturing (index : Nat) (name : Option String) (hpos : 1 ≤ index) (hle : index ≤ groups) :
    Later base groups (.group (.capturing index name)) (.group (.capturing (base + index) name))

section Opening

variable {base : Nat} {reading later inside inside' : Reading} {opening opening' : Opening}
  {left left' : List Char}

/-- A group that opens takes the next number. -/
theorem Reading.Later.capture (h : Reading.Later base reading later) {names names' : List String} :
    Reading.Later base { reading with groups := reading.groups + 1, names }
      { later with groups := later.groups + 1, names := names' } :=
  ⟨h.verbose_eq, congrArg (· + 1) h.groups_eq⟩

/-- What a group starts with. -/
inductive OpeningSign where
  | look | name | flags | plain

/-- What a group starts with, and the text after it. -/
def markOf : List Char → OpeningSign × List Char
  | '?' :: '=' :: rest => (.look, rest)
  | '?' :: '!' :: rest => (.look, rest)
  | '?' :: '<' :: '=' :: rest => (.look, rest)
  | '?' :: '<' :: '!' :: rest => (.look, rest)
  | '?' :: 'P' :: '<' :: rest => (.name, rest)
  | '?' :: '<' :: rest => (.name, rest)
  | '?' :: rest => (.flags, rest)
  | cs => (.plain, cs)

/-- How a group opens after its mark. -/
def openedBy? (reading : Reading) : OpeningSign × List Char → Option (Opening × Reading × List Char)
  | (.look, _) => none
  | (.name, rest) => (parseName? rest).bind fun found =>
    if reading.names.contains found.1 then none
    else some (.group (.capturing (reading.groups + 1) (some found.1)),
      { reading with groups := reading.groups + 1, names := found.1 :: reading.names }, found.2)
  | (.flags, rest) => (parseFlags? true [] rest).bind fun found =>
    match found with
    | ([], ')' :: _) => none
    | (change, ')' :: rest) => some (.flags change, reading, rest)
    | (change, ':' :: rest) => some (.group (.flagged change), reading, rest)
    | _ => none
  | (.plain, rest) => some (.group (.capturing (reading.groups + 1) none),
      { reading with groups := reading.groups + 1 }, rest)

theorem parseOpening_eq (reading : Reading) (cs : List Char) :
    parseOpening? reading cs = openedBy? reading (markOf (skipBlank reading.verbose cs)) := by
  unfold parseOpening?
  generalize skipBlank reading.verbose cs = shown
  simp only
  split
  case h_6 | h_7 | h_8 => rw [markOf] <;> first | rfl | assumption
  all_goals rfl

/-- Texts that go on alike start with the same mark. -/
theorem longer_markOf (h : Longer more cs ds) :
    (markOf ds).1 = (markOf cs).1 ∧
      ((markOf cs).1 = .look ∨ Longer more (markOf cs).2 (markOf ds).2) := by
  fun_cases markOf cs with
  | case1 rest =>
    obtain ⟨others, rfl, -⟩ := Longer.append_inside (show ')' ∉ ['?', '='] by decide) h
    exact ⟨rfl, .inl rfl⟩
  | case2 rest =>
    obtain ⟨others, rfl, -⟩ := Longer.append_inside (show ')' ∉ ['?', '!'] by decide) h
    exact ⟨rfl, .inl rfl⟩
  | case3 rest =>
    obtain ⟨others, rfl, -⟩ := Longer.append_inside (show ')' ∉ ['?', '<', '='] by decide) h
    exact ⟨rfl, .inl rfl⟩
  | case4 rest =>
    obtain ⟨others, rfl, -⟩ := Longer.append_inside (show ')' ∉ ['?', '<', '!'] by decide) h
    exact ⟨rfl, .inl rfl⟩
  | case5 rest =>
    obtain ⟨others, rfl, hrest⟩ := Longer.append_inside (show ')' ∉ ['?', 'P', '<'] by decide) h
    exact ⟨rfl, .inr hrest⟩
  | case6 rest hequals hbang =>
    obtain ⟨others, rfl, hrest⟩ := Longer.append_inside (show ')' ∉ ['?', '<'] by decide) h
    rw [List.cons_append, List.cons_append, List.nil_append, markOf]
    · exact ⟨rfl, .inr hrest⟩
    · exact hrest.not_start (show ')' ∉ ['='] by decide) hequals
    · exact hrest.not_start (show ')' ∉ ['!'] by decide) hbang
  | case7 rest hequals hbang hbehind hnotBehind hnamed hname =>
    obtain ⟨others, rfl, hrest⟩ := h.uncons_inside (by decide)
    rw [markOf]
    · exact ⟨rfl, .inr hrest⟩
    · exact hrest.not_start (show ')' ∉ ['='] by decide) hequals
    · exact hrest.not_start (show ')' ∉ ['!'] by decide) hbang
    · exact hrest.not_start (show ')' ∉ ['<', '='] by decide) hbehind
    · exact hrest.not_start (show ')' ∉ ['<', '!'] by decide) hnotBehind
    · exact hrest.not_start (show ')' ∉ ['P', '<'] by decide) hnamed
    · exact hrest.not_start (show ')' ∉ ['<'] by decide) hname
  | case8 _ _ _ _ _ _ _ hplain =>
    have hplain' : ∀ rest, ds = '?' :: rest → False :=
      h.not_start (show ')' ∉ ['?'] by decide) hplain
    rw [markOf]
    · exact ⟨rfl, .inr h⟩
    all_goals exact fun _ => hplain' _

/-- Groups open alike in longer texts. -/
theorem opening_later (h : LongerOn more cs ds) (hreaders : Reading.Later base reading later)
    (hread : parseOpening? reading cs = some (opening, inside, left))
    (hread' : parseOpening? later ds = some (opening', inside', left')) :
    left = [] ∨ Opening.Later base inside.groups opening opening' ∧
      Reading.Later base inside inside' ∧ reading.groups ≤ inside.groups ∧
      Longer more left left' := by
  have hcapture : ∀ (name : Option String),
      Opening.Later base (reading.groups + 1) (.group (.capturing (reading.groups + 1) name))
        (.group (.capturing (later.groups + 1) name)) := by
    intro name
    rw [hreaders.groups_eq, Nat.add_assoc]
    exact .capturing _ _ (Nat.le_add_left 1 _) (Nat.le_refl _)
  rw [parseOpening_eq] at hread hread'
  rw [hreaders.verbose_eq] at hread'
  rcases h.skipBlank reading.verbose with hnil | hshown
  · rw [hnil] at hread
    cases hread
    exact .inl rfl
  generalize skipBlank reading.verbose cs = shown at hread hshown
  generalize skipBlank reading.verbose ds = shown' at hread' hshown
  obtain ⟨hmark, hrest⟩ := longer_markOf hshown
  generalize markOf shown = start at hread hmark hrest
  generalize markOf shown' = start' at hread' hmark hrest
  obtain ⟨mark, rest⟩ := start
  obtain ⟨mark', rest'⟩ := start'
  cases hmark
  cases mark with
  | look => cases hread
  | name =>
    have hrest := hrest.resolve_left nofun
    obtain ⟨⟨name, after⟩, hname, hread⟩ := Option.bind_eq_some_iff.mp hread
    obtain ⟨after', hname', hafter⟩ := Longer.parseName hrest hname
    rw [openedBy?, hname', Option.bind_some] at hread'
    split at hread
    · cases hread
    · split at hread'
      · cases hread'
      · cases hread
        cases hread'
        exact .inr ⟨hcapture _, hreaders.capture, Nat.le_succ _, hafter⟩
  | flags =>
    have hrest := hrest.resolve_left nofun
    obtain ⟨⟨change, after⟩, hflags, hread⟩ := Option.bind_eq_some_iff.mp hread
    obtain ⟨⟨change', after'⟩, hflags', hread'⟩ := Option.bind_eq_some_iff.mp hread'
    obtain ⟨hchange, hafter⟩ := Longer.parseFlags hrest hflags hflags'
    cases hchange
    dsimp only at hafter hread hread'
    split at hread
    · cases hread
    · rename_i hne heq
      cases heq
      obtain ⟨others, rfl, hothers⟩ := hafter.uncons
      cases change with
      | nil => exact (hne rfl).elim
      | cons flag change =>
        cases hread
        cases hread'
        exact hothers.imp_right fun hothers => ⟨.flags _, hreaders, Nat.le_refl _, hothers⟩
    · rename_i heq
      cases heq
      obtain ⟨others, rfl, hothers⟩ := hafter.uncons_inside (by decide)
      cases hread
      cases change <;> cases hread' <;> exact .inr ⟨.flagged _, hreaders, Nat.le_refl _, hothers⟩
    · cases hread
  | plain =>
    have hrest := hrest.resolve_left nofun
    cases hread
    cases hread'
    exact .inr ⟨hcapture _, hreaders.capture, Nat.le_succ _, hrest⟩

end Opening

end Regular

/-! ### Counts -/

theorem LongerOn.dropBlank (h : LongerOn more cs ds) :
    LongerOn more (cs.dropWhile isBlank) (ds.dropWhile isBlank) := by
  rcases h with rfl | h
  · exact .inl rfl
  · exact .inr (h.run (show isBlank ')' = false by decide)).2

theorem LongerOn.countDigits (h : LongerOn more cs ds) (verbose : Bool) {steps steps' : Nat}
    (hsteps : cs.length ≤ steps) (hsteps' : ds.length ≤ steps') :
    Alike more (Regular.countDigits verbose steps cs) (Regular.countDigits verbose steps' ds) := by
  induction steps generalizing steps' cs ds with
  | zero => exact .inl (List.eq_nil_of_length_eq_zero (Nat.le_zero.mp hsteps))
  | succ steps ih =>
    rcases h with rfl | h
    · exact .inl rfl
    cases cs with
    | nil => exact .inl rfl
    | cons c cs =>
      obtain ⟨others, rfl, hrest⟩ := h.uncons
      cases steps' with
      | zero => exact absurd hsteps' (by simp)
      | succ steps' =>
        rw [List.length_cons] at hsteps hsteps'
        rw [Regular.countDigits, Regular.countDigits]
        simp only
        cases hdigit : c.isDigit with
        | false => exact .inr ⟨rfl, h⟩
        | true =>
          have hle := length_skipBlank_le verbose cs
          have hle' := length_skipBlank_le verbose others
          exact (ih (hrest.skipBlank verbose) (by omega) (by omega)).imp_right
            (And.imp_left (congrArg (c :: ·)))

/-- The count that digits give, unless it is too large. -/
def countOf? : List Char → Option (Option Nat)
  | [] => some none
  | digits =>
    let count := digits.foldl (fun value c => 10 * value + (c.toNat - '0'.toNat)) 0
    if count ≤ Regular.maxCount then some (some count) else none

theorem parseCount_eq (verbose : Bool) (cs : List Char) :
    Regular.parseCount? verbose cs
      = let counted := Regular.countDigits verbose ((cs.dropWhile isBlank).length + 1)
          (cs.dropWhile isBlank)
        (countOf? counted.1).map fun count =>
          (count, skipBlank verbose (counted.2.dropWhile isBlank)) := by
  simp only [Regular.parseCount?]
  generalize Regular.countDigits verbose _ (cs.dropWhile isBlank) = counted
  obtain ⟨digits, rest⟩ := counted
  cases digits with
  | nil => rfl
  | cons c digits =>
    simp only [countOf?]
    split <;> rfl

theorem LongerOn.parseCount (h : LongerOn more cs ds) {found found' : Option Nat × List Char}
    (hread : Regular.parseCount? verbose cs = some found)
    (hread' : Regular.parseCount? verbose ds = some found') : Alike more found found' := by
  have hcounted := h.dropBlank.countDigits verbose
    (Nat.le_succ (cs.dropWhile isBlank).length) (Nat.le_succ (ds.dropWhile isBlank).length)
  rw [parseCount_eq] at hread hread'
  obtain ⟨count, hcount, rfl⟩ := Option.map_eq_some_iff.mp hread
  obtain ⟨count', hcount', rfl⟩ := Option.map_eq_some_iff.mp hread'
  refine (hcounted.longerOn.dropBlank.skipBlank verbose).elim .inl fun hleft => ?_
  rcases hcounted with hnil | ⟨hdigits, -⟩
  · rw [hnil] at hleft
    exact absurd (skipBlank_nil verbose) hleft.ne_nil
  · rw [hdigits, hcount] at hcount'
    cases hcount'
    exact .inr ⟨rfl, hleft⟩

theorem LongerOn.parseBounds (h : LongerOn more cs ds) {found found' : Nat × Option Nat × List Char}
    (hread : Regular.parseBounds? verbose cs = some found)
    (hread' : Regular.parseBounds? verbose ds = some found') :
    found.2.2 = [] ∨
      found'.1 = found.1 ∧ found'.2.1 = found.2.1 ∧ Longer more found.2.2 found'.2.2 := by
  obtain ⟨⟨first, cs⟩, hfirst, hbounds⟩ := Option.bind_eq_some_iff.mp hread
  obtain ⟨⟨first', ds⟩, hfirst', hbounds'⟩ := Option.bind_eq_some_iff.mp hread'
  obtain ⟨min, hmin, hends⟩ := Option.bind_eq_some_iff.mp hbounds
  obtain ⟨min', hmin', hends'⟩ := Option.bind_eq_some_iff.mp hbounds'
  rcases (h.skipBlank verbose).parseCount hfirst hfirst' with hnil | ⟨hsame, hrest⟩
  · cases hnil
    cases hends
  cases hsame
  cases hmin
  cases hmin'
  dsimp only at hends hends' hrest
  split at hends
  · obtain ⟨others, rfl, hleft⟩ := hrest.uncons
    cases hends
    cases hends'
    exact hleft.imp_right fun hleft => ⟨rfl, rfl, hleft⟩
  · obtain ⟨others, rfl, hothers⟩ := hrest.uncons
    rename_i rest
    have hshown := hothers.skipBlank verbose
    simp only at hends'
    generalize Regex.skipBlank verbose rest = shown at hends hshown
    generalize Regex.skipBlank verbose others = shown' at hends' hshown
    rcases hshown with rfl | hshown
    · cases verbose <;> cases hends
    split at hends
    · obtain ⟨left, rfl, hleft⟩ := hshown.uncons
      cases hends
      cases hends'
      exact hleft.imp_right fun hleft => ⟨rfl, rfl, hleft⟩
    · rename_i hclose
      split at hends'
      · obtain ⟨left, rfl, -⟩ := hshown.uncons_right (by decide)
        exact (hclose _ rfl).elim
      obtain ⟨⟨second, cs⟩, hsecond, hupper⟩ := Option.bind_eq_some_iff.mp hends
      obtain ⟨⟨second', ds⟩, hsecond', hupper'⟩ := Option.bind_eq_some_iff.mp hends'
      obtain ⟨max, hmax, hlast⟩ := Option.bind_eq_some_iff.mp hupper
      obtain ⟨max', hmax', hlast'⟩ := Option.bind_eq_some_iff.mp hupper'
      rcases LongerOn.parseCount (.inr hshown) hsecond hsecond' with hnil | ⟨hsame, hrest⟩
      · cases hnil
        cases hlast
      cases hsame
      cases hmax
      cases hmax'
      dsimp only at hlast hlast' hrest
      split at hlast
      · obtain ⟨others, rfl, hleft⟩ := hrest.uncons
        split at hlast
        · rename_i hle
          simp only [if_pos hle] at hlast'
          cases hlast
          cases hlast'
          exact hleft.imp_right fun hleft => ⟨rfl, rfl, hleft⟩
        · cases hlast
      · cases hlast
  · cases hends

theorem LongerOn.lazyMark (h : LongerOn more cs ds) :
    Alike more (Regular.lazyMark cs) (Regular.lazyMark ds) := by
  rcases h with rfl | h
  · exact .inl rfl
  cases cs with
  | nil => exact absurd rfl h.ne_nil
  | cons c cs =>
    obtain ⟨others, rfl, hrest⟩ := h.uncons
    by_cases hlazy : c = '?'
    · subst hlazy
      exact hrest.imp_right fun hrest => ⟨rfl, hrest⟩
    · have hplain : ∀ rest : List Char, Regular.lazyMark (c :: rest) = (true, c :: rest) := by
        intro rest
        rw [Regular.lazyMark]
        exact fun others heq => hlazy (List.cons.inj heq).1
      rw [hplain, hplain]
      exact .inr ⟨rfl, h⟩

namespace Regular

variable {base steps : Nat} {reading : Reading} {items : List Ast} {rest shown : List Char}
  {c : Char}

/-! ### Steps of the reader -/

theorem parseItems_counted (steps : Nat) (items : List Ast)
    (hshown : skipBlank reading.verbose cs = c :: rest) (hc : c ∈ "?*+\x7b".toList) :
    parseItems? (steps + 1) reading items cs
      = (counted? reading.verbose (c :: rest)).bind fun found =>
          (repeatLatest? found.1 found.2.1 found.2.2.1 items).bind fun repeated =>
            parseItems? steps reading repeated found.2.2.2 := by
  rw [parseItems?, hshown]
  have hcases : c = '?' ∨ c = '*' ∨ c = '+' ∨ c = '\x7b' := by simpa using hc
  rcases hcases with rfl | rfl | rfl | rfl
  · rfl
  · rfl
  · rfl
  · rw [counted?, Option.bind_map]
    rfl

theorem head_of_counted {found : Nat × Option Nat × Bool × List Char}
    (h : counted? verbose shown = some found) :
    ∃ c rest, shown = c :: rest ∧ c ∈ "?*+\x7b".toList := by
  unfold counted? at h
  split at h
  · exact ⟨_, _, rfl, by decide⟩
  · exact ⟨_, _, rfl, by decide⟩
  · exact ⟨_, _, rfl, by decide⟩
  · exact ⟨_, _, rfl, by decide⟩
  · cases h

theorem longer_counted (h : Longer more cs ds) {found found' : Nat × Option Nat × Bool × List Char}
    (hread : counted? verbose cs = some found) (hread' : counted? verbose ds = some found') :
    found.2.2.2 = [] ∨ (found'.1 = found.1 ∧ found'.2.1 = found.2.1 ∧ found'.2.2.1 = found.2.2.1) ∧
      Longer more found.2.2.2 found'.2.2.2 := by
  unfold counted? at hread
  split at hread
  · obtain ⟨others, rfl, hrest⟩ := h.uncons
    cases hread
    cases hread'
    exact hrest.lazyMark.imp_right (And.imp_left fun hgreedy => ⟨rfl, rfl, hgreedy⟩)
  · obtain ⟨others, rfl, hrest⟩ := h.uncons
    cases hread
    cases hread'
    exact hrest.lazyMark.imp_right (And.imp_left fun hgreedy => ⟨rfl, rfl, hgreedy⟩)
  · obtain ⟨others, rfl, hrest⟩ := h.uncons
    cases hread
    cases hread'
    exact hrest.lazyMark.imp_right (And.imp_left fun hgreedy => ⟨rfl, rfl, hgreedy⟩)
  · obtain ⟨others, rfl, hrest⟩ := h.uncons
    obtain ⟨bounds, hbounds, rfl⟩ := Option.map_eq_some_iff.mp hread
    obtain ⟨bounds', hbounds', rfl⟩ := Option.map_eq_some_iff.mp hread'
    rcases hrest.parseBounds hbounds hbounds' with hnil | ⟨hmin, hmax, hleft⟩
    · refine .inl ?_
      simp only [hnil, skipBlank_nil]
      rfl
    · exact (LongerOn.skipBlank (.inr hleft) verbose).lazyMark.imp_right
        (And.imp_left fun hgreedy => ⟨hmin, hmax, hgreedy⟩)
  · cases hread

/-! ### Whole patterns -/

/-- Where the readers of a text and of a longer one are when they are done. -/
structure DoneLater (base : Nat) (more : List Char) (reading after after' : Reading)
    (left left' : List Char) : Prop where
  readers : Reading.Later base after after'
  le : reading.groups ≤ after.groups
  longer : Longer more left left'

/-- What is read of a longer text means what is read of the text itself, with groups numbered `base`
later. Nothing is said where the text itself is read to its end. -/
def Simulated (base : Nat) (more : List Char) : Goal → Prop
  | .row reading items cs out after left =>
    ∀ {steps : Nat} {later after' : Reading} {others out' : List Ast} {ds left' : List Char},
      LongerOn more cs ds → Reading.Later base reading later →
      List.Forall₂ (Ast.Later base reading.groups) items others →
      parseItems? steps later others ds = some (out', after', left') →
      left = [] ∨ List.Forall₂ (Ast.Later base after.groups) out out' ∧
        DoneLater base more reading after after' left left'
  | .branches reading before cs ast after left =>
    ∀ {steps : Nat} {later after' : Reading} {others : List Ast} {ast' : Ast}
        {ds left' : List Char},
      LongerOn more cs ds → Reading.Later base reading later →
      List.Forall₂ (Ast.Later base reading.groups) before others →
      parseBranches? steps later others ds = some (ast', after', left') →
      left = [] ∨ Ast.Later base after.groups ast ast' ∧
        DoneLater base more reading after after' left left'

section Simulated

variable {later inside inside' between after after' : Reading} {out : List Ast}
  {left left' : List Char}

theorem Reading.Later.flagged (h : Reading.Later base reading later) (change : FlagChange) :
    Reading.Later base (reading.flagged change) (later.flagged change) :=
  ⟨congrArg (change.value? .verbose).getD h.verbose_eq, h.groups_eq⟩

theorem Reading.Later.begins (hreaders : Reading.Later base reading later) (h : LongerOn more cs ds)
    (hshown : skipBlank reading.verbose cs = c :: rest) :
    ∃ others, skipBlank later.verbose ds = c :: others ∧ Longer more (c :: rest) (c :: others) := by
  have hbegun := h.skipBlank reading.verbose
  rw [hshown] at hbegun
  have hbegun := hbegun.resolve_left (List.cons_ne_nil _ _)
  obtain ⟨others, hothers, -⟩ := hbegun.uncons
  rw [hreaders.verbose_eq, hothers]
  exact ⟨others, rfl, hothers ▸ hbegun⟩

theorem DoneLater.of_le (hle : reading.groups ≤ between.groups)
    (h : DoneLater base more between after after' left left') :
    DoneLater base more reading after after' left left' :=
  ⟨h.readers, Nat.le_trans hle h.le, h.longer⟩

/-- At its end, a row leaves nothing. -/
theorem Reads.left_nil (h : Reads (.row reading items [] out after left)) : left = [] := by
  generalize hgoal : Goal.row reading items [] out after left = goal at h
  cases h with
  | stop hshown _ =>
    cases hgoal
    rw [skipBlank_nil] at hshown
    exact hshown.symm
  | count hshown hcount _ _ =>
    cases hgoal
    rw [skipBlank_nil] at hshown
    cases hshown
    cases hcount
  | flags hshown _ _ | group hshown _ _ _ | bracket hshown _ _ | piece hshown _ _ _ =>
    cases hgoal
    rw [skipBlank_nil] at hshown
    cases hshown
  | branch _ _ | last _ _ => cases hgoal

theorem Reads.branches_left_nil {before : List Ast} {ast : Ast}
    (h : Reads (.branches reading before [] ast after left)) : left = [] := by
  generalize hgoal : Goal.branches reading before [] ast after left = goal at h
  cases h with
  | branch hrow _ =>
    cases hgoal
    cases hrow.left_nil
  | last hrow _ =>
    cases hgoal
    exact hrow.left_nil
  | _ => cases hgoal

/-- Inside of groups that open alike, and around them. -/
theorem Opening.Later.group {groups : Nat} {kind : GroupKind} {opening : Opening}
    (h : Opening.Later base groups (.group kind) opening)
    (hinside : Reading.Later base inside inside') (hreaders : Reading.Later base reading later) :
    ∃ kind', opening = .group kind' ∧
      Reading.Later base (inside.grouped kind reading) (inside'.grouped kind' later) ∧
      ∀ {more start start' : Nat} {body body' : Ast}, groups ≤ more →
        Ast.Later base more body body' →
          Ast.Later base more (.group kind start body) (.group kind' start' body') := by
  cases h with
  | flagged change =>
    refine ⟨_, rfl, ⟨?_, hinside.groups_eq⟩, fun _ hbody => hbody.flagged ..⟩
    exact congrArg (change.value? .verbose).getD hreaders.verbose_eq
  | capturing index name hpos hle =>
    exact ⟨_, rfl, ⟨hreaders.verbose_eq, hinside.groups_eq⟩, fun hmore hbody =>
      hbody.capturing hpos (Nat.le_trans hle hmore) ..⟩

namespace Simulated

variable {next opened : List Char}

theorem stop (hshown : skipBlank reading.verbose cs = left)
    (hleft : ∀ c ∈ left.head?, c = '|' ∨ c = ')') :
    Simulated base more (.row reading items cs items.reverse reading left) := by
  intro steps later after' others out' ds left' hlonger hreaders hitems hread'
  cases left with
  | nil => exact .inl rfl
  | cons c rest =>
    obtain ⟨others, hds, hbegun⟩ := hreaders.begins hlonger hshown
    cases steps with
    | zero => cases hread'
    | succ steps =>
      rw [parseItems?, hds] at hread'
      rcases hleft c rfl with rfl | rfl
      · cases hread'
        exact .inr ⟨List.forall₂_reverse_iff.mpr hitems, hreaders, Nat.le_refl _, hbegun⟩
      · cases hread'
        exact .inr ⟨List.forall₂_reverse_iff.mpr hitems, hreaders, Nat.le_refl _, hbegun⟩

theorem flags {change : FlagChange} {place : Place}
    (hshown : skipBlank reading.verbose cs = '(' :: rest)
    (hopening : parseOpening? reading rest = some (.flags change, inside, next))
    (hrow : Reads (.row (inside.flagged change) (.flags change place :: items) next out after left))
    (ih : Simulated base more
      (.row (inside.flagged change) (.flags change place :: items) next out after left)) :
    Simulated base more (.row reading items cs out after left) := by
  intro steps later after' others out' ds left' hlonger hreaders hitems hread'
  obtain ⟨rest', hds, hbegun⟩ := hreaders.begins hlonger hshown
  obtain ⟨_, heq, hinner⟩ := hbegun.uncons
  cases heq
  cases steps with
  | zero => cases hread'
  | succ steps =>
    rw [parseItems?, hds] at hread'
    obtain ⟨⟨opening', inside', next'⟩, hopening', hread'⟩ := Option.bind_eq_some_iff.mp hread'
    rcases opening_later hinner hreaders hopening hopening' with
      hnil | ⟨hsame, hinside, hle, hnext⟩
    · subst hnil
      exact .inl hrow.left_nil
    · cases hsame
      have hitems := hitems.imp fun _ _ hitem => hitem.mono hle
      have hafter := hinside.flagged change
      exact (ih (.inr hnext) hafter (.cons (Ast.later_flags ..) hitems) hread').imp_right
        (And.imp_right fun hdone => ⟨hdone.readers, Nat.le_trans hle hdone.le, hdone.longer⟩)

theorem group {kind : GroupKind} {body : Ast} {start : Nat}
    (hshown : skipBlank reading.verbose cs = '(' :: rest)
    (hopening : parseOpening? reading rest = some (.group kind, inside, opened))
    (hbody : Reads (.branches (inside.grouped kind reading) [] opened body between (')' :: next)))
    (ihbody : Simulated base more
      (.branches (inside.grouped kind reading) [] opened body between (')' :: next)))
    (ihrow : Simulated base more (.row { between with verbose := reading.verbose }
      (.group kind start body :: items) next out after left)) :
    Simulated base more (.row reading items cs out after left) := by
  intro steps later after' others out' ds left' hlonger hreaders hitems hread'
  obtain ⟨rest', hds, hbegun⟩ := hreaders.begins hlonger hshown
  obtain ⟨_, heq, hinner⟩ := hbegun.uncons
  cases heq
  cases steps with
  | zero => cases hread'
  | succ steps =>
    rw [parseItems?, hds] at hread'
    obtain ⟨⟨opening', inside', opened'⟩, hopening', hread'⟩ := Option.bind_eq_some_iff.mp hread'
    rcases opening_later hinner hreaders hopening hopening' with
      hnil | ⟨hsame, hinside, hle, hopened⟩
    · subst hnil
      cases hbody.branches_left_nil
    obtain ⟨kind', rfl, hgrouped, hgroup⟩ := hsame.group hinside hreaders
    obtain ⟨⟨body', between', closing'⟩, hbody', hread'⟩ := Option.bind_eq_some_iff.mp hread'
    -- The parenthesis that closes the group is left of its body in both texts.
    obtain ⟨hbody, hdone⟩ := (ihbody (.inr hopened) hgrouped .nil hbody').resolve_left
      (List.cons_ne_nil _ _)
    obtain ⟨next', rfl, hnext⟩ := hdone.longer.uncons
    have hle : reading.groups ≤ between.groups := Nat.le_trans hle hdone.le
    have hitems := hitems.imp fun _ _ hitem => hitem.mono hle
    have hreaders : Reading.Later base { between with verbose := reading.verbose }
        { between' with verbose := later.verbose } :=
      ⟨hreaders.verbose_eq, hdone.readers.groups_eq⟩
    exact (ihrow hnext hreaders (.cons (hgroup hdone.le hbody) hitems) hread').imp_right
      (And.imp_right fun hlast => ⟨hlast.readers, Nat.le_trans hle hlast.le, hlast.longer⟩)

theorem bracket {set : ClassSet} {place : Place}
    (hshown : skipBlank reading.verbose cs = '[' :: rest)
    (hclass : parseClass? reading.verbose rest = some (set, next))
    (hrow : Reads (.row reading (.bracket set place :: items) next out after left))
    (ih : Simulated base more (.row reading (.bracket set place :: items) next out after left)) :
    Simulated base more (.row reading items cs out after left) := by
  intro steps later after' others out' ds left' hlonger hreaders hitems hread'
  obtain ⟨rest', hds, hbegun⟩ := hreaders.begins hlonger hshown
  obtain ⟨_, heq, hinner⟩ := hbegun.uncons
  cases heq
  cases steps with
  | zero => cases hread'
  | succ steps =>
    rw [parseItems?, hds] at hread'
    obtain ⟨⟨set', next'⟩, hclass', hread'⟩ := Option.bind_eq_some_iff.mp hread'
    rw [hreaders.verbose_eq] at hclass'
    rcases hinner.parseClass hclass hclass' with hnil | ⟨hsame, hnext⟩
    · cases hnil
      exact .inl hrow.left_nil
    · cases hsame
      exact ih (.inr hnext) hreaders (.cons (Ast.later_bracket ..) hitems) hread'

theorem count {item : Ast} {min : Nat} {max : Option Nat} {greedy : Bool}
    (hshown : skipBlank reading.verbose cs = shown)
    (hcount : counted? reading.verbose shown = some (min, max, greedy, next))
    (hrow : Reads (.row reading (.repetition min max greedy item :: items) next out after left))
    (ih : Simulated base more
      (.row reading (.repetition min max greedy item :: items) next out after left)) :
    Simulated base more (.row reading (item :: items) cs out after left) := by
  intro steps later after' others out' ds left' hlonger hreaders hitems hread'
  obtain ⟨c, rest, rfl, hc⟩ := head_of_counted hcount
  obtain ⟨rest', hds, hbegun⟩ := hreaders.begins hlonger hshown
  cases steps with
  | zero => cases hread'
  | succ steps =>
    rw [parseItems_counted _ _ hds hc] at hread'
    obtain ⟨found, hcount', hread'⟩ := Option.bind_eq_some_iff.mp hread'
    obtain ⟨repeated, hrepeat, hread'⟩ := Option.bind_eq_some_iff.mp hread'
    obtain ⟨item', before, rfl, -, rfl⟩ := isRepeatable_of_repeatLatest hrepeat
    rw [hreaders.verbose_eq] at hcount'
    cases hitems with
    | cons hfirst hitems =>
      rcases longer_counted hbegun hcount hcount' with hnil | ⟨⟨hmin, hmax, hgreedy⟩, hnext⟩
      · cases hnil
        exact .inl hrow.left_nil
      · rw [hmin, hmax, hgreedy] at hread'
        exact ih (.inr hnext) hreaders (.cons (hfirst.repetition _ _ _) hitems) hread'

theorem piece {piece : Primitive} (hshown : skipBlank reading.verbose cs = c :: rest)
    (hmark : isMark c = false)
    (hpiece : parsePrimitive? reading.verbose (c :: rest) = some (piece, next))
    (hrow : Reads (.row reading (.primitive piece :: items) next out after left))
    (ih : Simulated base more (.row reading (.primitive piece :: items) next out after left)) :
    Simulated base more (.row reading items cs out after left) := by
  intro steps later after' others out' ds left' hlonger hreaders hitems hread'
  obtain ⟨rest', hds, hbegun⟩ := hreaders.begins hlonger hshown
  cases steps with
  | zero => cases hread'
  | succ steps =>
    rw [parseItems_primitive _ _ hds hmark] at hread'
    obtain ⟨⟨piece', next'⟩, hpiece', hread'⟩ := Option.bind_eq_some_iff.mp hread'
    rw [hreaders.verbose_eq] at hpiece'
    rcases LongerOn.parsePrimitive (.inr hbegun) hpiece hpiece' with hnil | ⟨hsame, hnext⟩
    · cases hnil
      exact .inl hrow.left_nil
    · cases hsame
      exact ih (.inr hnext) hreaders (.cons (Ast.later_primitive _) hitems) hread'

theorem branch {before : List Ast} {ast : Ast}
    (ihrow : Simulated base more (.row reading [] cs items between ('|' :: rest)))
    (ihrest : Simulated base more
      (.branches between (.ofItems items :: before) rest ast after left)) :
    Simulated base more (.branches reading before cs ast after left) := by
  intro steps later after' others ast' ds left' hlonger hreaders hbefore hread'
  cases steps with
  | zero => cases hread'
  | succ steps =>
    rw [parseBranches?] at hread'
    obtain ⟨⟨items', between', next'⟩, hitems', hread'⟩ := Option.bind_eq_some_iff.mp hread'
    obtain ⟨hitems, hdone⟩ :=
      (ihrow hlonger hreaders .nil hitems').resolve_left (List.cons_ne_nil _ _)
    obtain ⟨others, rfl, hnext⟩ := hdone.longer.uncons
    have hbefore := hbefore.imp fun _ _ hbranch => hbranch.mono hdone.le
    exact (ihrest hnext hdone.readers (.cons (Ast.later_ofItems hitems) hbefore) hread').imp_right
      (And.imp_right fun hlast => hlast.of_le hdone.le)

theorem last {before : List Ast} (hleft : ∀ c ∈ left.head?, c ≠ '|')
    (ih : Simulated base more (.row reading [] cs items after left)) :
    Simulated base more (.branches reading before cs
      (.ofBranches (.ofItems items :: before).reverse) after left) := by
  intro steps later after' others ast' ds left' hlonger hreaders hbefore hread'
  cases steps with
  | zero => cases hread'
  | succ steps =>
    rw [parseBranches?] at hread'
    obtain ⟨⟨items', between', next'⟩, hitems', hread'⟩ := Option.bind_eq_some_iff.mp hread'
    refine (ih hlonger hreaders .nil hitems').imp_right fun hrow => ?_
    obtain ⟨hitems, hdone⟩ := hrow
    simp only at hread'
    split at hread'
    · -- No bar is left of the text itself, so none is left of the longer one.
      exact absurd rfl (hleft '|' (hdone.longer.head?_eq ▸ rfl))
    · cases hread'
      have hbefore := hbefore.imp fun _ _ hbranch => hbranch.mono hdone.le
      refine ⟨Ast.later_ofBranches (List.forall₂_reverse_iff.mpr ?_), hdone⟩
      exact .cons (Ast.later_ofItems hitems) hbefore

end Simulated

/-- A pattern is read in a longer text as it is read by itself. -/
theorem simulated_of_reads (base : Nat) (more : List Char) {goal : Goal} (h : Reads goal) :
    Simulated base more goal := by
  induction h with
  | stop hshown hleft => exact Simulated.stop hshown hleft
  | flags hshown hopening hrow ih => exact Simulated.flags hshown hopening hrow ih
  | group hshown hopening hbody hrow ihbody ihrow =>
    exact Simulated.group hshown hopening hbody ihbody ihrow
  | bracket hshown hclass hrow ih => exact Simulated.bracket hshown hclass hrow ih
  | count hshown hcount hitem hrow ih => exact Simulated.count hshown hcount hrow ih
  | piece hshown hmark hpiece hrow ih => exact Simulated.piece hshown hmark hpiece hrow ih
  | branch hrow hrest ihrow ihrest => exact Simulated.branch ihrow ihrest
  | last hrow hleft ih => exact Simulated.last hleft ih

end Simulated

end Regular

end Highlighter.Regex
