import Highlighter.Proofs.Union.Renumber
import Highlighter.Union.Basic

/-!
# Groups and references across a union

The parts of all members of a union share one numbering of groups, in
which references and openings have to line up, although they are
numbered apart: a reference by the place of its group among those that
are kept, and an opening by how many are captured before it.

Both ways of rewriting, `resolve` and `renumber`, replace part by part
(`getElem?_resolve`, `getElem?_renumber`), so each part stays at its
place. `Opens` says which group opens at a place, and `opens_member`
which groups of a pattern open in a member, and under which number. The
numbers of all members are put together in `references_line_up`.
-/

set_option autoImplicit false

namespace Highlighter.Union

open Pattern

/-! ### Counting groups -/

/-- Whether a part opens a group that is captured. -/
def captures : Part → Bool
  | .opening kind => kind.isCapturing
  | _ => false

theorem captureCount_cons (part : Part) (rest : List Part) :
    captureCount (part :: rest) = captureCount rest + if captures part then 1 else 0 := by
  cases part <;> rfl

theorem captureCount_append (first second : List Part) :
    captureCount (first ++ second) = captureCount first + captureCount second := by
  induction first with
  | nil => rw [List.nil_append, captureCount, Nat.zero_add]
  | cons part rest ih =>
    rw [List.cons_append, captureCount_cons, captureCount_cons, ih]
    omega

theorem captureCount_take_le (parts : List Part) (place : Nat) :
    captureCount (parts.take place) ≤ captureCount parts := by
  have h := captureCount_append (parts.take place) (parts.drop place)
  rw [List.take_append_drop] at h
  omega

/-- The group with a number opens at a place of some parts. -/
def Opens (parts : List Part) (place group : Nat) : Prop :=
  ∃ kind : Opening, parts[place]? = some (.opening kind) ∧ kind.isCapturing = true ∧
    captureCount (parts.take place) + 1 = group

variable {parts rest : List Part} {place opener group : Nat}

theorem Opens.captureCount_take (h : Opens parts place group) :
    captureCount (parts.take (place + 1)) = group := by
  obtain ⟨kind, hkind, hcaptures, rfl⟩ := h
  rw [List.take_add_one, hkind, Option.toList_some, captureCount_append, captureCount_cons]
  simp [captures, hcaptures, captureCount]

/-- What opens later has a larger number. -/
theorem Opens.lt {place' group' : Nat} (h : Opens parts place group)
    (h' : Opens parts place' group') (hlt : place < place') : group < group' := by
  have hle := captureCount_take_le (parts.take place') (place + 1)
  rw [List.take_take, Nat.min_eq_left hlt, h.captureCount_take] at hle
  obtain ⟨-, -, -, heq⟩ := h'
  omega

/-- A group opens at one place only. -/
theorem Opens.place_eq {place' : Nat} (h : Opens parts place group)
    (h' : Opens parts place' group) : place = place' := by
  rcases Nat.lt_trichotomy place place' with hlt | heq | hlt
  · exact absurd (h.lt h' hlt) (Nat.lt_irrefl _)
  · exact heq
  · exact absurd (h'.lt h hlt) (Nat.lt_irrefl _)

theorem Opens.pos (h : Opens parts place group) : 1 ≤ group := by
  obtain ⟨-, -, -, rfl⟩ := h
  omega

theorem Opens.le_captureCount (h : Opens parts place group) : group ≤ captureCount parts := by
  rw [← h.captureCount_take]
  exact captureCount_take_le _ _

/-- Parts after others open the same groups, under later numbers. -/
theorem Opens.append_left (first : List Part) (h : Opens parts place group) :
    Opens (first ++ parts) (first.length + place) (captureCount first + group) := by
  obtain ⟨kind, hkind, hcaptures, rfl⟩ := h
  refine ⟨kind, ?_, hcaptures, ?_⟩
  · rw [List.getElem?_append_right (Nat.le_add_right _ _), Nat.add_sub_cancel_left]
    exact hkind
  · rw [List.take_length_add_append, captureCount_append, Nat.add_assoc]

theorem Opens.append_right (h : Opens parts place group) (rest : List Part) :
    Opens (parts ++ rest) place group := by
  obtain ⟨kind, hkind, hcaptures, rfl⟩ := h
  have hlt := (List.getElem?_eq_some_iff.mp hkind).1
  refine ⟨kind, ?_, hcaptures, ?_⟩
  · rw [List.getElem?_append_left hlt]
    exact hkind
  · rw [List.take_append_of_le_length (Nat.le_of_lt hlt)]

/-- Every number up to the count is that of a group. -/
theorem exists_opens (hpos : 1 ≤ group) (hle : group ≤ captureCount parts) :
    ∃ place, Opens parts place group := by
  induction parts generalizing group with
  | nil =>
    rw [captureCount] at hle
    omega
  | cons part rest ih =>
    rw [captureCount_cons] at hle
    by_cases hfirst : captures part = true ∧ group = 1
    · obtain ⟨hcaptures, rfl⟩ := hfirst
      cases part with
      | opening kind => exact ⟨0, kind, rfl, hcaptures, rfl⟩
      | _ => cases hcaptures
    · have hcount : captureCount [part] = if captures part then 1 else 0 := by
        rw [captureCount_cons, captureCount, Nat.zero_add]
      by_cases hcaptures : captures part = true
      · rw [if_pos hcaptures] at hle hcount
        have hne : group ≠ 1 := fun heq => hfirst ⟨hcaptures, heq⟩
        have hpos' : 1 ≤ group - 1 := by omega
        have hle' : group - 1 ≤ captureCount rest := by omega
        obtain ⟨place, hplace⟩ := ih hpos' hle'
        have hopens := hplace.append_left [part]
        rw [hcount, Nat.add_sub_cancel' hpos] at hopens
        exact ⟨_, hopens⟩
      · rw [if_neg hcaptures] at hle hcount
        obtain ⟨place, hplace⟩ := ih hpos hle
        have hopens := hplace.append_left [part]
        rw [hcount, Nat.zero_add] at hopens
        exact ⟨_, hopens⟩

/-- A group that has opened so far has opened before. -/
theorem Opens.of_take {stop : Nat} (h : Opens (parts.take stop) place group) :
    Opens parts place group ∧ place < stop := by
  obtain ⟨kind, hkind, hcaptures, rfl⟩ := h
  rw [List.getElem?_take] at hkind
  split at hkind
  · rename_i hlt
    refine ⟨⟨kind, hkind, hcaptures, ?_⟩, hlt⟩
    rw [List.take_take, Nat.min_eq_left (Nat.le_of_lt hlt)]
  · cases hkind

/-! ### Rewriting part by part -/

/-- A part with a number that refers to no group spelt as a character,
where `opened` groups have opened before. -/
def resolvedPart (opened : Nat) : Part → Part
  | .numeric number =>
    if 1 ≤ number && number ≤ opened then .numeric number else codePart number
  | part => part

theorem resolve_cons (opened : Nat) (part : Part) (rest : List Part) :
    resolve opened (part :: rest)
      = resolvedPart opened part :: resolve (opened + if captures part then 1 else 0) rest := by
  cases part with
  | opening kind =>
    rw [resolve, captures]
    split <;> rfl
  | _ => rfl

/-- A number that refers to no group is spelt as an escape or as a
character. -/
theorem codePart_cases (code : Nat) :
    (∃ text, codePart code = .escape text) ∨ ∃ text, codePart code = .literal text := by
  unfold codePart
  split
  · exact .inl ⟨_, rfl⟩
  · exact .inr ⟨_, rfl⟩

theorem resolvedPart_eq_opening {opened : Nat} {part : Part} {kind : Opening} :
    resolvedPart opened part = .opening kind ↔ part = .opening kind := by
  cases part with
  | numeric number =>
    rw [resolvedPart]
    split
    · simp
    · rcases codePart_cases number with ⟨text, htext⟩ | ⟨text, htext⟩
      · simp [htext]
      · simp [htext]
  | _ => exact Iff.rfl

theorem resolvedPart_eq_numeric {opened number : Nat} {part : Part} :
    resolvedPart opened part = .numeric number
      ↔ part = .numeric number ∧ 1 ≤ number ∧ number ≤ opened := by
  cases part with
  | numeric written =>
    rw [resolvedPart]
    split
    · rename_i hbounds
      rw [Bool.and_eq_true, decide_eq_true_iff, decide_eq_true_iff] at hbounds
      rw [Part.numeric.injEq]
      constructor
      · rintro rfl
        exact ⟨rfl, hbounds⟩
      · exact fun h => h.1
    · rename_i hbounds
      rw [Bool.and_eq_true, decide_eq_true_iff, decide_eq_true_iff] at hbounds
      have hne : codePart written ≠ .numeric number := by
        rcases codePart_cases written with ⟨text, htext⟩ | ⟨text, htext⟩
        · simp [htext]
        · simp [htext]
      refine ⟨fun h => absurd h hne, fun ⟨heq, h⟩ => absurd ?_ hbounds⟩
      cases heq
      exact h
  | _ => simp [resolvedPart]

theorem captures_resolvedPart (opened : Nat) (part : Part) :
    captures (resolvedPart opened part) = captures part := by
  cases part with
  | numeric number =>
    rw [resolvedPart]
    split
    · rfl
    · rcases codePart_cases number with ⟨text, htext⟩ | ⟨text, htext⟩
      · rw [htext]
        rfl
      · rw [htext]
        rfl
  | _ => rfl

theorem captureCount_resolve (opened : Nat) (parts : List Part) :
    captureCount (resolve opened parts) = captureCount parts := by
  induction parts generalizing opened with
  | nil => rfl
  | cons part rest ih =>
    rw [resolve_cons, captureCount_cons, captureCount_cons, ih, captures_resolvedPart]

theorem take_resolve (opened : Nat) (parts : List Part) (stop : Nat) :
    (resolve opened parts).take stop = resolve opened (parts.take stop) := by
  induction parts generalizing opened stop with
  | nil => simp [resolve]
  | cons part rest ih =>
    cases stop with
    | zero => rfl
    | succ stop => rw [resolve_cons, List.take_succ_cons, List.take_succ_cons, resolve_cons, ih]

/-- Numbers are resolved where they are. -/
theorem getElem?_resolve (opened : Nat) (parts : List Part) (place : Nat) :
    (resolve opened parts)[place]?
      = parts[place]?.map (resolvedPart (opened + captureCount (parts.take place))) := by
  induction parts generalizing opened place with
  | nil => rfl
  | cons part rest ih =>
    rw [resolve_cons]
    cases place with
    | zero => rfl
    | succ place =>
      rw [List.getElem?_cons_succ, List.getElem?_cons_succ, ih, List.take_succ_cons,
        captureCount_cons, Nat.add_right_comm, Nat.add_assoc]

theorem opens_resolve {opened : Nat} :
    Opens (resolve opened parts) place group ↔ Opens parts place group := by
  unfold Opens
  rw [take_resolve, captureCount_resolve, getElem?_resolve]
  refine exists_congr fun kind => and_congr_left fun _ => ?_
  rw [Option.map_eq_some_iff]
  simp only [resolvedPart_eq_opening, exists_eq_right]

/-- The numbers that are left refer to groups that have opened. -/
theorem numeric_resolve {opened number : Nat} :
    (resolve opened parts)[place]? = some (.numeric number)
      ↔ parts[place]? = some (.numeric number) ∧ 1 ≤ number ∧
        number ≤ opened + captureCount (parts.take place) := by
  rw [getElem?_resolve, Option.map_eq_some_iff]
  simp only [resolvedPart_eq_numeric]
  constructor
  · rintro ⟨part, hpart, rfl, hbounds⟩
    exact ⟨hpart, hbounds⟩
  · rintro ⟨hpart, hbounds⟩
    exact ⟨_, hpart, rfl, hbounds⟩

/-- A part with its group numbered anew, where `opened` groups have
opened before. -/
def renumberedPart (base : Nat) (kept : List Nat) (opened : Nat) : Part → Part
  | .opening kind =>
    if kind.isCapturing then
      if kept.contains (opened + 1) then .opening .capture else .opening (.flagged [])
    else .opening kind
  | .numeric number => .numeric (base + kept.idxOf number + 1)
  | part => part

theorem renumber_cons (base : Nat) (kept : List Nat) (opened : Nat) (part : Part)
    (rest : List Part) :
    renumber base kept opened (part :: rest)
      = renumberedPart base kept opened part ::
        renumber base kept (opened + if captures part then 1 else 0) rest := by
  cases part with
  | opening kind =>
    rw [renumber, renumberedPart, captures]
    split <;> rfl
  | _ => rfl

theorem captures_renumberedPart (base : Nat) (kept : List Nat) (opened : Nat) (part : Part) :
    captures (renumberedPart base kept opened part)
      = (captures part && kept.contains (opened + 1)) := by
  cases part with
  | opening kind =>
    rw [renumberedPart, captures]
    split
    · rename_i hcaptures
      rw [hcaptures, Bool.true_and]
      split
      · rename_i hkept
        rw [hkept]
        rfl
      · rename_i hkept
        rw [Bool.not_eq_true] at hkept
        rw [hkept]
        rfl
    · rename_i hcaptures
      rw [Bool.not_eq_true] at hcaptures
      rw [captures, hcaptures, Bool.false_and]
  | _ => rfl

theorem take_renumber (base : Nat) (kept : List Nat) (opened : Nat) (parts : List Part)
    (stop : Nat) :
    (renumber base kept opened parts).take stop = renumber base kept opened (parts.take stop) := by
  induction parts generalizing opened stop with
  | nil => simp [renumber]
  | cons part rest ih =>
    cases stop with
    | zero => rfl
    | succ stop => rw [renumber_cons, List.take_succ_cons, List.take_succ_cons, renumber_cons, ih]

/-- As many groups are captured as are kept of those that open. -/
theorem captureCount_renumber {kept : List Nat} (h : kept.Pairwise (· < ·)) (base opened : Nat)
    (parts : List Part) :
    kept.countP (· ≤ opened) + captureCount (renumber base kept opened parts)
      = kept.countP (· ≤ opened + captureCount parts) := by
  induction parts generalizing opened with
  | nil => rfl
  | cons part rest ih =>
    have hrest := ih (opened + if captures part then 1 else 0)
    rw [renumber_cons, captureCount_cons, captureCount_cons, captures_renumberedPart]
    rw [Nat.add_assoc opened, Nat.add_comm (if captures part = true then 1 else 0)] at hrest
    rw [← hrest]
    by_cases hcaptures : captures part = true
    · have hsucc := countP_succ h opened
      rw [if_pos hcaptures, hcaptures, Bool.true_and]
      rw [if_pos hcaptures] at hrest
      omega
    · rw [Bool.not_eq_true] at hcaptures
      rw [hcaptures]
      simp

/-- Groups are numbered anew where they are. -/
theorem getElem?_renumber (base : Nat) (kept : List Nat) (opened : Nat) (parts : List Part)
    (place : Nat) :
    (renumber base kept opened parts)[place]?
      = parts[place]?.map (renumberedPart base kept (opened + captureCount (parts.take place))) := by
  induction parts generalizing opened place with
  | nil => rfl
  | cons part rest ih =>
    rw [renumber_cons]
    cases place with
    | zero => rfl
    | succ place =>
      rw [List.getElem?_cons_succ, List.getElem?_cons_succ, ih, List.take_succ_cons,
        captureCount_cons, Nat.add_right_comm, Nat.add_assoc]

theorem numeric_renumber {base opened number : Nat} {kept : List Nat} :
    (renumber base kept opened parts)[place]? = some (.numeric number)
      ↔ ∃ written, parts[place]? = some (.numeric written) ∧
        number = base + kept.idxOf written + 1 := by
  have hpart : ∀ opened part, renumberedPart base kept opened part = .numeric number
      ↔ ∃ written, part = .numeric written ∧ number = base + kept.idxOf written + 1 := by
    intro opened part
    cases part with
    | opening kind =>
      rw [renumberedPart]
      split
      · split <;> simp
      · simp
    | numeric written => simp [renumberedPart, eq_comm]
    | _ => simp [renumberedPart]
  rw [getElem?_renumber, Option.map_eq_some_iff]
  simp only [hpart]
  constructor
  · rintro ⟨part, hfound, written, rfl, hnumber⟩
    exact ⟨written, hfound, hnumber⟩
  · rintro ⟨written, hfound, hnumber⟩
    exact ⟨_, hfound, written, rfl, hnumber⟩

theorem exists_opening_iff {part : Part} :
    (∃ kind : Opening, part = .opening kind ∧ kind.isCapturing = true) ↔ captures part = true := by
  cases part with
  | opening kind => simp [captures]
  | _ => simp [captures]

/-- A place opens a group if it captures, and the number of the group
is how many have opened. -/
theorem opens_iff :
    Opens parts place group ↔ (∃ part, parts[place]? = some part ∧ captures part = true) ∧
      captureCount (parts.take place) + 1 = group := by
  constructor
  · rintro ⟨kind, hkind, hcaptures, hcount⟩
    exact ⟨⟨_, hkind, hcaptures⟩, hcount⟩
  · rintro ⟨⟨part, hpart, hcaptures⟩, hcount⟩
    obtain ⟨kind, rfl, hcaptures⟩ := exists_opening_iff.mpr hcaptures
    exact ⟨kind, hpart, hcaptures, hcount⟩

/-- A group that is kept opens where it did, numbered by its place
among those that are kept. -/
theorem opens_renumber {kept : List Nat} (h : kept.Pairwise (· < ·)) (hpos : ∀ group ∈ kept, 1 ≤ group)
    {base number : Nat} :
    Opens (renumber base kept 0 parts) place number
      ↔ ∃ group ∈ kept, Opens parts place group ∧ number = kept.idxOf group + 1 := by
  have hzero : kept.countP (· ≤ 0) = 0 := by
    refine List.countP_eq_zero.mpr fun group hgroup hle => ?_
    exact absurd (of_decide_eq_true hle) (Nat.not_le.mpr (hpos group hgroup))
  have hcount := captureCount_renumber h base 0 (parts.take place)
  rw [hzero, Nat.zero_add, Nat.zero_add] at hcount
  rw [opens_iff, take_renumber, hcount, getElem?_renumber]
  constructor
  · rintro ⟨⟨part', hpart', hcaptures⟩, hnumber⟩
    obtain ⟨part, hpart, rfl⟩ := Option.map_eq_some_iff.mp hpart'
    rw [captures_renumberedPart, Bool.and_eq_true, List.contains_iff_mem, Nat.zero_add] at hcaptures
    refine ⟨_, hcaptures.2, opens_iff.mpr ⟨⟨part, hpart, hcaptures.1⟩, rfl⟩, ?_⟩
    rw [idxOf_eq_countP h hcaptures.2, hnumber]
  · rintro ⟨group, hmem, hopens, rfl⟩
    obtain ⟨⟨part, hpart, hcaptures⟩, rfl⟩ := opens_iff.mp hopens
    refine ⟨⟨_, Option.map_eq_some_iff.mpr ⟨part, hpart, rfl⟩, ?_⟩, ?_⟩
    · rw [captures_renumberedPart, hcaptures, Nat.zero_add, List.contains_iff_mem.mpr hmem]
      rfl
    · rw [idxOf_eq_countP h hmem]

/-! ### One member -/

/-- A group opens before a place exactly if its number is among those
that have opened there. -/
theorem Opens.le_iff (h : Opens parts opener group) :
    group ≤ captureCount (parts.take place) ↔ opener < place := by
  constructor
  · intro hle
    obtain ⟨opener', hopener'⟩ := exists_opens h.pos hle
    obtain ⟨hopens, hlt⟩ := hopener'.of_take
    rw [h.place_eq hopens]
    exact hlt
  · intro hlt
    have hle := captureCount_take_le (parts.take place) (opener + 1)
    rw [List.take_take, Nat.min_eq_left hlt, h.captureCount_take] at hle
    exact hle

/-- The groups that are kept of a pattern. -/
def keptOf (parts : List Part) : List Nat := targets (resolve 0 parts)

theorem pairwise_keptOf (parts : List Part) : (keptOf parts).Pairwise (· < ·) :=
  List.Pairwise.filter _ List.pairwise_lt_range

/-- A group is kept if it is referred to after it has opened. -/
theorem mem_keptOf :
    group ∈ keptOf parts ↔ ∃ place, parts[place]? = some (.numeric group) ∧ 1 ≤ group ∧
      group ≤ captureCount (parts.take place) := by
  unfold keptOf targets
  rw [List.mem_filter, List.mem_range, captureCount_resolve, List.contains_iff_mem,
    List.mem_iff_getElem?]
  simp only [numeric_resolve, Nat.zero_add]
  refine ⟨fun h => h.2, fun h => ⟨?_, h⟩⟩
  obtain ⟨place, -, -, hle⟩ := h
  have hall := captureCount_take_le parts place
  omega

theorem mem_keptOf_of_opens (h : Opens parts opener group) :
    group ∈ keptOf parts ↔ ∃ place, opener < place ∧ parts[place]? = some (.numeric group) := by
  rw [mem_keptOf]
  refine exists_congr fun place => ?_
  rw [h.le_iff]
  exact ⟨fun ⟨hnumeric, _, hlt⟩ => ⟨hlt, hnumeric⟩, fun ⟨hlt, hnumeric⟩ => ⟨hnumeric, h.pos, hlt⟩⟩

theorem bounds_of_mem_keptOf (h : group ∈ keptOf parts) : 1 ≤ group ∧ group ≤ captureCount parts := by
  obtain ⟨place, -, hpos, hle⟩ := mem_keptOf.mp h
  exact ⟨hpos, Nat.le_trans hle (captureCount_take_le parts place)⟩

theorem opens_member {base number : Nat} :
    Opens (member base parts).1 place number
      ↔ ∃ group ∈ keptOf parts, Opens parts place group ∧
        number = (keptOf parts).idxOf group + 1 := by
  have hpos : ∀ group ∈ keptOf parts, 1 ≤ group := fun _ hgroup => (bounds_of_mem_keptOf hgroup).1
  have hopens : Opens (renumber base (keptOf parts) 0 (resolve 0 parts)) place number
      ↔ ∃ group ∈ keptOf parts, Opens (resolve 0 parts) place group ∧
        number = (keptOf parts).idxOf group + 1 := opens_renumber (pairwise_keptOf parts) hpos
  simp only [opens_resolve] at hopens
  exact hopens

theorem numeric_member {base number : Nat} :
    (member base parts).1[place]? = some (.numeric number)
      ↔ ∃ group, (parts[place]? = some (.numeric group) ∧ 1 ≤ group ∧
          group ≤ captureCount (parts.take place)) ∧
        number = base + (keptOf parts).idxOf group + 1 := by
  show (renumber base (keptOf parts) 0 (resolve 0 parts))[place]? = _ ↔ _
  rw [numeric_renumber]
  simp only [numeric_resolve, Nat.zero_add]

/-- No group is kept that has opened before. -/
theorem countP_keptOf_zero (parts : List Part) : (keptOf parts).countP (· ≤ 0) = 0 :=
  List.countP_eq_zero.mpr fun _ hgroup hle =>
    absurd (of_decide_eq_true hle) (Nat.not_le.mpr (bounds_of_mem_keptOf hgroup).1)

/-- As many groups are numbered after a member as it captures. -/
theorem captureCount_member (base : Nat) (parts : List Part) :
    base + captureCount (member base parts).1 = (member base parts).2 := by
  have hcount := captureCount_renumber (pairwise_keptOf parts) base 0 (resolve 0 parts)
  have hall : (keptOf parts).countP (· ≤ 0 + captureCount (resolve 0 parts))
      = (keptOf parts).length := by
    refine List.countP_eq_length.mpr fun group hgroup => ?_
    rw [captureCount_resolve, Nat.zero_add]
    exact decide_eq_true (bounds_of_mem_keptOf hgroup).2
  rw [countP_keptOf_zero, hall, Nat.zero_add] at hcount
  show base + captureCount (renumber base (keptOf parts) 0 (resolve 0 parts))
    = base + (keptOf parts).length
  rw [hcount]

/-! ### All members -/

/-- The members are numbered one after the other. -/
theorem getElem?_members (base : Nat) (lists : List (List Part)) (index : Nat) :
    (members base lists).1[index]? = lists[index]?.map fun parts =>
      (member (base + captureCount ((members base lists).1.take index).flatten) parts).1 := by
  induction lists generalizing base index with
  | nil => rfl
  | cons parts rest ih =>
    cases index with
    | zero => rfl
    | succ index =>
      have hrest := ih (member base parts).2 index
      rw [← captureCount_member] at hrest
      show (members (member base parts).2 rest).1[index]? = _
      rw [List.getElem?_cons_succ, ← captureCount_member, hrest]
      show _ = rest[index]?.map fun parts' => (member (base + captureCount
        ((member base parts).1 :: (members (member base parts).2 rest).1.take index).flatten) parts').1
      rw [List.flatten_cons, captureCount_append, ← captureCount_member, Nat.add_assoc]

theorem captureCount_members (base : Nat) (lists : List (List Part)) :
    base + captureCount (members base lists).1.flatten = (members base lists).2 := by
  induction lists generalizing base with
  | nil => rfl
  | cons parts rest ih =>
    show base + captureCount ((member base parts).1 :: (members (member base parts).2 rest).1).flatten
      = (members (member base parts).2 rest).2
    rw [← ih, List.flatten_cons, captureCount_append, ← captureCount_member, Nat.add_assoc]

theorem length_members (base : Nat) (lists : List (List Part)) :
    (members base lists).1.length = lists.length := by
  induction lists generalizing base with
  | nil => rfl
  | cons parts rest ih => exact congrArg (· + 1) (ih (member base parts).2)

/-- The parts of some patterns as they are joined, just before they
are written out. -/
def rewritten (patterns : List Pattern) : List (List Part) :=
  (members 0 (patterns.map Pattern.parts)).1

/-- A pattern as it is joined is a member whose groups are numbered
after those of all patterns before it. -/
theorem getElem?_rewritten {patterns : List Pattern} {index : Nat} {pattern : Pattern}
    (h : patterns[index]? = some pattern) :
    (rewritten patterns)[index]?
      = some (member (captureCount ((rewritten patterns).take index).flatten) pattern.parts).1 := by
  unfold rewritten
  rw [getElem?_members, List.getElem?_map, h, Option.map_some, Option.map_some, Nat.zero_add]

/-- A group of one of several lists opens in all of them together,
numbered after those that open before it. -/
theorem Opens.flatten {lists : List (List Part)} {index : Nat}
    (hindex : lists[index]? = some parts) (h : Opens parts place group) :
    Opens lists.flatten ((lists.take index).flatten.length + place)
      (captureCount (lists.take index).flatten + group) := by
  obtain ⟨hlt, hparts⟩ := List.getElem?_eq_some_iff.mp hindex
  have hsplit : lists = lists.take index ++ parts :: lists.drop (index + 1) := by
    rw [← hparts, List.getElem_cons_drop, List.take_append_drop]
  have hopens := (h.append_right (lists.drop (index + 1)).flatten).append_left
    (lists.take index).flatten
  rw [← List.flatten_cons, ← List.flatten_append, ← hsplit] at hopens
  exact hopens

/-- A number that is left refers to the group of its own pattern that
it referred to, which opens before it. -/
theorem reference_rewritten {patterns : List Pattern} {index : Nat} {pattern : Pattern}
    (hpattern : patterns[index]? = some pattern)
    (hparts : (rewritten patterns)[index]? = some parts) {number : Nat}
    (h : parts[place]? = some (.numeric number)) :
    ∃ group opener, pattern.parts[place]? = some (.numeric group) ∧
      Opens pattern.parts opener group ∧ opener < place ∧
      Opens (rewritten patterns).flatten
        (((rewritten patterns).take index).flatten.length + opener) number := by
  have hmember := getElem?_rewritten hpattern
  rw [hparts] at hmember
  cases hmember
  obtain ⟨group, ⟨hgroup, hpos, hle⟩, rfl⟩ := numeric_member.mp h
  obtain ⟨opener, hopener⟩ := exists_opens hpos hle
  obtain ⟨hopens, hlt⟩ := hopener.of_take
  refine ⟨group, opener, hgroup, hopens, hlt, ?_⟩
  have hkept : group ∈ keptOf pattern.parts := mem_keptOf.mpr ⟨place, hgroup, hpos, hle⟩
  exact (opens_member.mpr ⟨group, hkept, hopens, rfl⟩).flatten hparts

/-- A group is captured in the union exactly if its pattern refers to
it after it has opened. -/
theorem opens_rewritten {patterns : List Pattern} {index : Nat} {pattern : Pattern}
    (hpattern : patterns[index]? = some pattern)
    (hparts : (rewritten patterns)[index]? = some parts) :
    (∃ number, Opens parts opener number) ↔
      ∃ group place, Opens pattern.parts opener group ∧ opener < place ∧
        pattern.parts[place]? = some (.numeric group) := by
  have hmember := getElem?_rewritten hpattern
  rw [hparts] at hmember
  cases hmember
  simp only [opens_member]
  constructor
  · rintro ⟨number, group, hkept, hopens, rfl⟩
    obtain ⟨place, hlt, hnumeric⟩ := (mem_keptOf_of_opens hopens).mp hkept
    exact ⟨group, place, hopens, hlt, hnumeric⟩
  · rintro ⟨group, place, hopens, hlt, hnumeric⟩
    exact ⟨_, group, (mem_keptOf_of_opens hopens).mpr ⟨place, hlt, hnumeric⟩, hopens, rfl⟩

theorem groups_of_ofPatterns {patterns : List Pattern} {union : Union}
    (h : ofPatterns patterns = .ok union) :
    union.groups = captureCount (rewritten patterns).flatten := by
  have hcount := captureCount_members 0 (patterns.map Pattern.parts)
  rw [Nat.zero_add] at hcount
  unfold rewritten
  rw [hcount]
  unfold ofPatterns at h
  split at h
  · cases h
  · cases hmatcher : Regex.Matcher.ofPattern (String.ofList (Union.text patterns)) with
    | error error =>
      rw [hmatcher] at h
      cases h
    | ok matcher =>
      rw [hmatcher] at h
      cases h
      rfl

/-- References and groups line up across a union: there are as many
groups as are counted, each reference is to the group of its pattern
that it was written for, which opens before it, and a group is captured
exactly if a later reference of its pattern names it. -/
theorem references_line_up (patterns : List Pattern) :
    captureCount (rewritten patterns).flatten = (members 0 (patterns.map Pattern.parts)).2 ∧
      (∀ union, ofPatterns patterns = .ok union →
        union.groups = captureCount (rewritten patterns).flatten) ∧
      (rewritten patterns).length = patterns.length ∧
      ∀ (index : Nat) (pattern : Pattern) (parts : List Part), patterns[index]? = some pattern →
        (rewritten patterns)[index]? = some parts →
        (∀ place number, parts[place]? = some (.numeric number) →
          1 ≤ number ∧ number ≤ captureCount (rewritten patterns).flatten ∧
          ∃ group opener, pattern.parts[place]? = some (.numeric group) ∧
            Opens pattern.parts opener group ∧ opener < place ∧
            ∀ position, Opens (rewritten patterns).flatten position number
              ↔ position = ((rewritten patterns).take index).flatten.length + opener) ∧
        ∀ opener, (∃ number, Opens parts opener number) ↔
          ∃ group place, Opens pattern.parts opener group ∧ opener < place ∧
            pattern.parts[place]? = some (.numeric group) := by
  have hcount := captureCount_members 0 (patterns.map Pattern.parts)
  rw [Nat.zero_add] at hcount
  refine ⟨hcount, fun union hunion => groups_of_ofPatterns hunion, ?_,
    fun index pattern parts hpattern hparts => ⟨fun place number hnumber => ?_, fun opener =>
      opens_rewritten hpattern hparts⟩⟩
  · unfold rewritten
    rw [length_members, List.length_map]
  · obtain ⟨group, opener, hgroup, hopens, hlt, hmany⟩ :=
      reference_rewritten hpattern hparts hnumber
    refine ⟨hmany.pos, hmany.le_captureCount, group, opener, hgroup, hopens, hlt,
      fun position => ⟨fun hposition => hposition.place_eq hmany, ?_⟩⟩
    rintro rfl
    exact hmany

/-- Two members that refer to groups, the second one to the second of
its own: the references are to the groups `1` and `2` of the union. -/
example : members 0
    [[.opening .capture, .literal ['a'], .close, .numeric 1],
      [.opening .capture, .close, .opening (.named ['?', '<', 'q', '>']), .close, .numeric 2,
        .numeric 3]]
    = ([[.opening .capture, .literal ['a'], .close, .numeric 1],
      [.opening (.flagged []), .close, .opening .capture, .close, .numeric 2,
        .escape ['\\', 'x', '\x7b', '3', '\x7d']]], 2) := by decide

end Highlighter.Union
