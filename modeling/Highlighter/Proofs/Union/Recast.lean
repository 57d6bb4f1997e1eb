import Highlighter.Proofs.Pattern.Quiet
import Highlighter.Proofs.Union.Codes
import Highlighter.Proofs.Union.Member

/-!
# The text of a member along the text of its pattern

The splitter goes through a pattern part by part, and the text of a member is put together part by
part. Here both are taken together: `Recasting.text` is what a piece of a pattern becomes in the
member, and the equations say what it starts with, by what the piece starts with.

Runs of characters that start no part of their own are taken one character at a time.
-/

set_option autoImplicit false

namespace Highlighter.Union

open Pattern

/-- What the parts of a pattern become in a member: whether letter case is spelt out, how many
groups have been numbered before, and which groups keep a number. -/
structure Recasting where
  folded : Bool
  base : Nat
  kept : List Nat

namespace Recasting

variable (recasting : Recasting)

/-- What a single part becomes, where `opened` groups have opened before. -/
def part (opened : Nat) (part : Part) : List Char :=
  partText recasting.folded
    (renumberedPart recasting.base recasting.kept opened (resolvedPart opened part))

/-- What some parts become. -/
def parts (opened : Nat) (parts : List Part) : List Char :=
  memberText recasting.folded
    (renumber recasting.base recasting.kept opened (resolve opened parts))

/-- What a text becomes. -/
def text (opened : Nat) (cs : List Char) : List Char :=
  recasting.parts opened (Part.fine (Part.split cs))

/-- What a character becomes that starts no part of its own. -/
def char (c : Char) : List Char := if recasting.folded then foldChar c else [c]

variable {recasting} {opened : Nat} {c : Char} {rest : List Char}

theorem renumberedPart_eq_caret {base : Nat} {kept : List Nat} {part : Part} :
    renumberedPart base kept opened (resolvedPart opened part) = .caret ↔ part = .caret := by
  constructor
  · intro h
    cases part with
    | caret => rfl
    | opening kind =>
      replace h : renumberedPart base kept opened (.opening kind) = .caret := h
      rw [renumberedPart] at h
      split at h
      · split at h <;> cases h
      · cases h
    | numeric number =>
      rw [resolvedPart] at h
      split at h
      · cases h
      · rw [renumberedPart_of_isApart (isApart_codePart number)] at h
        rcases codePart_cases number with ⟨text, htext⟩ | ⟨text, htext⟩
        · rw [htext] at h
          cases h
        · rw [htext] at h
          cases h
    | _ => cases h
  · rintro rfl
    rfl

theorem parts_eq_cons (part : Part) (rest : List Part) :
    recasting.parts opened (part :: rest) = memberText recasting.folded
      (renumberedPart recasting.base recasting.kept opened (resolvedPart opened part) ::
        renumber recasting.base recasting.kept (opened + if captures part then 1 else 0)
          (resolve (opened + if captures part then 1 else 0) rest)) := by
  rw [parts, resolve_cons, renumber_cons, captures_resolvedPart]

theorem parts_cons {part : Part} (h : part ≠ .caret) (rest : List Part) :
    recasting.parts opened (part :: rest) = recasting.part opened part ++
      recasting.parts (opened + if captures part then 1 else 0) rest := by
  have hcaret : renumberedPart recasting.base recasting.kept opened (resolvedPart opened part)
      ≠ .caret := mt renumberedPart_eq_caret.mp h
  rw [parts_eq_cons, memberText, dropCarets.eq_3 _ _ (fun _ h _ => hcaret h) hcaret,
    List.flatMap_cons]
  rfl

theorem head?_renumber_resolve (base : Nat) (kept : List Nat) (opened : Nat) (rest : List Part) :
    (renumber base kept opened (resolve opened rest)).head? = some .caret
      ↔ rest.head? = some .caret := by
  cases rest with
  | nil => exact Iff.rfl
  | cons part rest =>
    rw [resolve_cons, renumber_cons, List.head?_cons, List.head?_cons, Option.some_inj,
      Option.some_inj, renumberedPart_eq_caret]

/-- A caret stays where another one follows. -/
theorem parts_caret (rest : List Part) :
    recasting.parts opened (.caret :: rest)
      = (if rest.head? = some .caret then ['^'] else []) ++ recasting.parts opened rest := by
  rw [parts_eq_cons]
  show memberText _ (.caret :: renumber _ _ opened (resolve opened rest)) = _
  split
  · rename_i hcaret
    obtain ⟨others, hothers⟩ := List.head?_eq_some_iff.mp
      ((head?_renumber_resolve recasting.base recasting.kept opened rest).mpr hcaret)
    rw [parts, hothers, memberText, dropCarets, List.flatMap_cons]
    cases recasting.folded <;> rfl
  · rename_i hcaret
    have hhead := mt (head?_renumber_resolve recasting.base recasting.kept opened rest).mp hcaret
    rw [parts, memberText, dropCarets.eq_2]
    · rfl
    · intro others hothers
      rw [hothers] at hhead
      exact hhead rfl

theorem text_nil : recasting.text opened [] = [] := by
  rw [text, Part.split]
  rfl

/-- What becomes of a part at the start of a text. -/
theorem text_of_split {cs : List Char} {part : Part} (hsplit : Part.split cs = part :: Part.split rest)
    (hfine : Part.fineOf part = [part]) (hcaret : part ≠ .caret) :
    recasting.text opened cs = recasting.part opened part ++
      recasting.text (opened + if captures part then 1 else 0) rest := by
  rw [text, hsplit, Part.fine_cons, hfine, List.singleton_append, parts_cons hcaret]
  rfl

theorem part_literal (c : Char) : recasting.part opened (.literal [c]) = recasting.char c := by
  show partText _ (.literal [c]) = _
  cases hfolded : recasting.folded <;>
    simp [partText, char, hfolded, Part.render, Part.renderFolded]

theorem text_plain (h : Part.isPlain c = true) (rest : List Char) :
    recasting.text opened (c :: rest) = recasting.char c ++ recasting.text opened rest := by
  rw [text, Part.fine_split_plain h, parts_cons (by rintro ⟨⟩), part_literal]
  rfl

/-- Characters without other cases stay. -/
theorem text_plains {plains : List Char}
    (h : ∀ c ∈ plains, Part.isPlain c = true ∧ foldChar c = [c]) (rest : List Char) :
    recasting.text opened (plains ++ rest) = plains ++ recasting.text opened rest := by
  induction plains with
  | nil => rfl
  | cons c plains ih =>
    obtain ⟨⟨hplain, hfold⟩, hplains⟩ := List.forall_mem_cons.mp h
    have hchar : recasting.char c = [c] := by
      rw [char, hfold, ite_self]
    rw [List.cons_append, text_plain hplain, hchar, ih hplains]
    rfl

theorem text_close (rest : List Char) :
    recasting.text opened (')' :: rest) = ')' :: recasting.text opened rest := by
  rw [text_of_split (Part.split_cons ')' rest) rfl (by rintro ⟨⟩)]
  show partText _ .close ++ _ = _
  cases recasting.folded <;> rfl

theorem text_bar (rest : List Char) :
    recasting.text opened ('|' :: rest) = '|' :: recasting.text opened rest := by
  rw [text_plain rfl]
  cases hfolded : recasting.folded <;> simp [char, hfolded, foldChar]

/-- Only a caret is read as one. -/
theorem eq_caret_of_read (h : (Part.read c rest).1 = .caret) : c = '^' := by
  have hdirective : ∀ cs, (Part.readDirective cs).1 ≠ .caret := by
    intro cs
    unfold Part.readDirective
    split
    · rintro ⟨⟩
    · rintro ⟨⟩
    · rintro ⟨⟩
    · rintro ⟨⟩
    · dsimp only
      split <;> rintro ⟨⟩
  unfold Part.read at h
  split at h
  · cases h
  · unfold Part.readEscape at h
    split at h
    · cases h
    · split at h
      · dsimp only at h
        split at h <;> cases h
      · cases h
  · unfold Part.readOpening at h
    split at h
    · cases h
    · split at h
      · exact absurd h (hdirective _)
      · cases h
  · cases h
  · rfl
  · cases h

theorem head?_split : (Part.fine (Part.split rest)).head? = some .caret ↔ rest.head? = some '^' := by
  cases rest with
  | nil =>
    rw [Part.split]
    exact ⟨fun h => (by cases h), fun h => (by cases h)⟩
  | cons c rest =>
    rw [Part.split_cons, Part.fine_cons]
    constructor
    · intro h
      rcases fineOf_cases (Part.read c rest).1 with hfine | ⟨text, hfine, hpart⟩
      · rw [hfine] at h
        exact congrArg some (eq_caret_of_read (Option.some.inj h))
      · cases text with
        | nil =>
          rw [hpart] at h
          cases h
        | cons d text =>
          rw [hfine] at h
          cases h
    · intro h
      obtain rfl : c = '^' := Option.some.inj h
      rfl

theorem text_caret (rest : List Char) :
    recasting.text opened ('^' :: rest)
      = (if rest.head? = some '^' then ['^'] else []) ++ recasting.text opened rest := by
  rw [text, Part.split_caret, Part.fine_cons]
  show recasting.parts opened (.caret :: Part.fine (Part.split rest)) = _
  rw [parts_caret, if_congr head?_split rfl rfl]
  rfl

theorem text_bracket (rest : List Char) :
    recasting.text opened ('[' :: rest)
      = partText recasting.folded (.bracket ('[' :: rest.take (Part.classExtent rest))) ++
        recasting.text opened (rest.drop (Part.classExtent rest)) := by
  rw [text_of_split (Part.split_cons '[' rest) rfl (by rintro ⟨⟩)]
  rfl

theorem text_escape {letter : Char} (h : letter.isDigit = false) (rest : List Char) :
    recasting.text opened ('\\' :: letter :: rest)
      = partText recasting.folded
          (.escape ('\\' :: letter :: rest.take (Part.escapeExtent letter rest))) ++
        recasting.text opened (rest.drop (Part.escapeExtent letter rest)) := by
  have hsplit := Part.split_cons '\\' (letter :: rest)
  rw [read_escape h, List.drop_succ_cons] at hsplit
  rw [text_of_split hsplit rfl (by rintro ⟨⟩)]
  rfl

theorem text_opening {opening : List Char} {part : Part}
    (hread : Part.readOpening (opening ++ rest) = (part, opening.length))
    (hfine : Part.fineOf part = [part]) (hcaret : part ≠ .caret) :
    recasting.text opened ('(' :: (opening ++ rest)) = recasting.part opened part ++
      recasting.text (opened + if captures part then 1 else 0) rest := by
  have hread : Part.read '(' (opening ++ rest) = (part, opening.length) := hread
  have hsplit := Part.split_cons '(' (opening ++ rest)
  rw [hread, List.drop_left] at hsplit
  exact text_of_split hsplit hfine hcaret

/-! ### Whole members -/

/-- The text of a member is what its pattern becomes, with the groups kept that it refers to. -/
theorem memberText_eq_text (folded : Bool) (base : Nat) (source : List Char) :
    memberText folded (member base (Part.split source)).1
      = (⟨folded, base, targets (resolve 0 (Part.split source))⟩ : Recasting).text 0 source := by
  rw [member, ← memberText_fine, ← renumber_fine, fine_resolve, renumber_fine, memberText_fine]
  rfl

end Recasting

/-! ### Numbers in a text -/

/-- The number that a part refers to a group by. -/
def number? : Part → Option Nat
  | .numeric number => some number
  | _ => none

/-- The numbers in a text. -/
def numbersIn (cs : List Char) : List Nat := (Part.fine (Part.split cs)).filterMap number?

variable {c : Char} {cs rest : List Char}

theorem numbersIn_nil : numbersIn [] = [] := by
  rw [numbersIn, Part.split]
  rfl

theorem numbersIn_of_split {part : Part} (hsplit : Part.split cs = part :: Part.split rest)
    (hpart : ∀ number, part ≠ .numeric number) : numbersIn cs = numbersIn rest := by
  rw [numbersIn, hsplit, Part.fine_cons, List.filterMap_append]
  have hnone : (Part.fineOf part).filterMap number? = [] := by
    rcases fineOf_cases part with hfine | ⟨text, hfine, -⟩
    · rw [hfine]
      cases part with
      | numeric number => exact absurd rfl (hpart number)
      | _ => rfl
    · rw [hfine, List.filterMap_map]
      exact List.filterMap_eq_nil_iff.mpr fun _ _ => rfl
  rw [hnone, List.nil_append]
  rfl

theorem numbersIn_plain (h : Part.isPlain c = true) (rest : List Char) :
    numbersIn (c :: rest) = numbersIn rest := by
  rw [numbersIn, Part.fine_split_plain h]
  rfl

theorem numbersIn_plains {plains : List Char} (h : ∀ c ∈ plains, Part.isPlain c = true)
    (rest : List Char) : numbersIn (plains ++ rest) = numbersIn rest := by
  induction plains with
  | nil => rfl
  | cons c plains ih =>
    obtain ⟨hc, hplains⟩ := List.forall_mem_cons.mp h
    rw [List.cons_append, numbersIn_plain hc, ih hplains]

theorem numbersIn_close (rest : List Char) : numbersIn (')' :: rest) = numbersIn rest :=
  numbersIn_of_split (Part.split_cons ')' rest) nofun

theorem numbersIn_caret (rest : List Char) : numbersIn ('^' :: rest) = numbersIn rest :=
  numbersIn_of_split (Part.split_caret rest) nofun

theorem numbersIn_bracket (rest : List Char) :
    numbersIn ('[' :: rest) = numbersIn (rest.drop (Part.classExtent rest)) :=
  numbersIn_of_split (Part.split_cons '[' rest) nofun

theorem numbersIn_escape {letter : Char} (h : letter.isDigit = false) (rest : List Char) :
    numbersIn ('\\' :: letter :: rest) = numbersIn (rest.drop (Part.escapeExtent letter rest)) := by
  have hsplit := Part.split_cons '\\' (letter :: rest)
  rw [read_escape h, List.drop_succ_cons] at hsplit
  exact numbersIn_of_split hsplit nofun

theorem numbersIn_opening {opening : List Char} {part : Part}
    (hread : Part.readOpening (opening ++ rest) = (part, opening.length))
    (hpart : ∀ number, part ≠ .numeric number) :
    numbersIn ('(' :: (opening ++ rest)) = numbersIn rest := by
  have hread : Part.read '(' (opening ++ rest) = (part, opening.length) := hread
  have hsplit := Part.split_cons '(' (opening ++ rest)
  rw [hread, List.drop_left] at hsplit
  exact numbersIn_of_split hsplit hpart

/-- No group keeps its number where no number refers to it. -/
theorem targets_of_numbersIn {source : List Char} (h : numbersIn source = []) :
    targets (resolve 0 (Part.split source)) = [] := by
  have hresolve : ∀ (opened : Nat) (parts : List Part) (number : Nat),
      .numeric number ∈ resolve opened parts → .numeric number ∈ parts := by
    intro opened parts number hmem
    fun_induction resolve opened parts with
    | case1 => cases hmem
    | case2 opened kind rest ih =>
      rcases List.mem_cons.mp hmem with heq | hmem
      · cases heq
      · exact .tail _ (ih hmem)
    | case3 opened other rest ih =>
      rcases List.mem_cons.mp hmem with heq | hmem
      · split at heq
        · exact heq ▸ List.mem_cons_self
        · rcases codePart_cases other with ⟨text, htext⟩ | ⟨text, htext⟩ <;>
            rw [htext] at heq <;> cases heq
      · exact .tail _ (ih hmem)
    | case4 opened part rest _ _ ih =>
      rcases List.mem_cons.mp hmem with heq | hmem
      · exact heq ▸ List.mem_cons_self
      · exact .tail _ (ih hmem)
  refine List.filter_eq_nil_iff.mpr fun group _ hgroup => ?_
  have hmem := hresolve 0 _ group (List.contains_iff_mem.mp hgroup)
  have hfine : Part.numeric group ∈ Part.fine (Part.split source) :=
    List.mem_flatMap.mpr ⟨_, hmem, List.mem_singleton.mpr rfl⟩
  have hnumber : group ∈ numbersIn source := List.mem_filterMap.mpr ⟨_, hfine, rfl⟩
  rw [h] at hnumber
  cases hnumber

end Highlighter.Union
