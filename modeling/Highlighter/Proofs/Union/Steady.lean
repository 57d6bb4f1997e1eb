import Highlighter.Proofs.Pattern.Lossless
import Highlighter.Proofs.Regex.Extended.Rows
import Highlighter.Proofs.Union.Recast

/-!
# Patterns whose text stays as it is split

The members of a union are put together part by part, and the union is read piece by piece. For that
to fit together, each part has to be a piece that is read by itself (`isReadAlone`), and must not
run into the next one, also when a caret between them is left out (`mayPrecede`). `Steady` asks this
of all parts of a pattern.

The text of a member is then a copy of its pattern, but for the carets, the marks of groups, the
numbers and the pieces whose letter case is spelt out. In particular it starts as the pattern does,
or else with a class or a group (`startsAs_text`), it starts no comment (`clean_text`), and
repetitions are where they were (`countsAlike_text`).
-/

set_option autoImplicit false

namespace Highlighter.Pattern.Part

variable {c : Char} {rest : List Char}

/-- A part starts with the character it is read from. -/
theorem head?_render_read (c : Char) (rest : List Char) :
    (read c rest).1.render.head? = some c := by
  have hcovers := (fits_read c rest).2
  generalize (read c rest).1 = part at hcovers
  generalize hpiece : c :: rest.take (read c rest).2 = piece at hcovers
  cases hcovers with
  | verbatim => rw [← hpiece]; rfl
  | numeric zeros number =>
    rw [(List.cons.inj hpiece).1]
    rfl

/-- The first part starts with the first character, also where runs are cut. -/
theorem head?_fine_split (c : Char) (rest : List Char) :
    ∃ part, (fine (split (c :: rest))).head? = some part ∧ part.render.head? = some c := by
  rw [split_cons, fine_cons]
  have hread := head?_render_read c rest
  rcases Union.fineOf_cases (read c rest).1 with hfine | ⟨text, hfine, hpart⟩
  · rw [hfine]
    exact ⟨_, rfl, hread⟩
  · rw [hpart] at hread
    rw [hfine]
    cases text with
    | nil => cases hread
    | cons d text => exact ⟨_, rfl, hread⟩

/-- What follows an opening parenthesis, by the part that it opens, and what is left after it. -/
inductive OpensAs : List Char → Part → List Char → Prop where
  | capture {cs : List Char} (h : cs.head? ≠ some '?') : OpensAs cs (.opening .capture) cs
  | named {mark name body : List Char} (hmark : mark = ['?', 'P', '<'] ∨ mark = ['?', '<'])
    (hname : '>' ∉ name)
    (hfirst : mark = ['?', '<'] → name.head? ≠ some '=' ∧ name.head? ≠ some '!') :
    OpensAs (mark ++ (name ++ '>' :: body)) (.opening (.named (mark ++ (name ++ ['>'])))) body
  | look (mark : List Char) {body : List Char}
    (hmark : mark ∈ [['='], ['!'], ['<', '='], ['<', '!']]) :
    OpensAs ('?' :: (mark ++ body)) (.opening (.look mark)) body
  | flagged {letters : List Char} (body : List Char)
    (hletters : ∀ c ∈ letters, isFlagChar c = true) :
    OpensAs ('?' :: (letters ++ ':' :: body)) (.opening (.flagged letters)) body
  | flags {letters : List Char} (body : List Char)
    (hletters : ∀ c ∈ letters, isFlagChar c = true) :
    OpensAs ('?' :: (letters ++ ')' :: body)) (.flags letters) body
  | special (body : List Char) : OpensAs ('?' :: body) (.opening .special) body

theorem opensAs_named (mark : List Char) (hmark : mark = ['?', 'P', '<'] ∨ mark = ['?', '<'])
    (hclose : rest.contains '>' = true)
    (hfirst : mark = ['?', '<'] → rest.head? ≠ some '=' ∧ rest.head? ≠ some '!') :
    OpensAs (mark ++ rest)
      (.opening (.named ((mark ++ rest).take (closingExtent '>' rest + mark.length))))
      ((mark ++ rest).drop (closingExtent '>' rest + mark.length)) := by
  obtain ⟨name, body, rfl, hname⟩ := List.eq_append_cons_of_mem (List.contains_iff_mem.mp hclose)
  have hlength : closingExtent '>' (name ++ '>' :: body) + mark.length
      = (mark ++ (name ++ ['>'])).length := by
    rw [closingExtent_append hname, List.length_append, List.length_append, Nat.add_comm]
    rfl
  have hshape : mark ++ (name ++ '>' :: body) = mark ++ (name ++ ['>']) ++ body := by simp
  rw [hlength, hshape, List.take_left, List.drop_left, ← hshape]
  refine .named hmark hname fun hmark => ?_
  cases name with
  | nil => exact ⟨nofun, nofun⟩
  | cons c name => exact hfirst hmark

theorem opensAs_directive (cs : List Char) :
    OpensAs ('?' :: cs) (readDirective cs).1 (cs.drop (readDirective cs).2) := by
  unfold readDirective
  split
  · exact .look ['='] (by decide)
  · exact .look ['!'] (by decide)
  · exact .look ['<', '='] (by decide)
  · exact .look ['<', '!'] (by decide)
  · have hletters : ∀ c ∈ cs.takeWhile isFlagChar, isFlagChar c = true :=
      List.all_eq_true.mp List.all_takeWhile
    have hsplit := List.takeWhile_append_dropWhile (p := isFlagChar) (l := cs)
    have hbody : ∀ {mark : Char} {body : List Char}, cs.dropWhile isFlagChar = mark :: body →
        cs = cs.takeWhile isFlagChar ++ mark :: body ∧
          cs.drop ((cs.takeWhile isFlagChar).length + 1) = body := by
      intro mark body hdrop
      rw [hdrop] at hsplit
      refine ⟨hsplit.symm, ?_⟩
      rw [← List.drop_drop, Regex.Extended.drop_takeWhile, hdrop]
      rfl
    simp only [Regex.Extended.drop_takeWhile]
    split
    · obtain ⟨hshape, hdrop⟩ := hbody ‹_›
      have hopens := OpensAs.flagged (cs.drop ((cs.takeWhile isFlagChar).length + 1)) hletters
      rw [hdrop, ← hshape] at hopens
      rwa [hdrop]
    · obtain ⟨hshape, hdrop⟩ := hbody ‹_›
      have hopens := OpensAs.flags (cs.drop ((cs.takeWhile isFlagChar).length + 1)) hletters
      rw [hdrop, ← hshape] at hopens
      rwa [hdrop]
    · exact .special cs

theorem opensAs (cs : List Char) : OpensAs cs (readOpening cs).1 (cs.drop (readOpening cs).2) := by
  unfold readOpening
  cases hname : nameExtent? cs with
  | some extent =>
    unfold nameExtent? at hname
    split at hname
    · split at hname
      · cases hname
        exact opensAs_named ['?', 'P', '<'] (.inl rfl) ‹_› nofun
      · cases hname
    · cases hname
    · cases hname
    · rename_i rest hequals hbang
      split at hname
      · cases hname
        refine opensAs_named ['?', '<'] (.inr rfl) ‹_› fun _ => ⟨fun hhead => ?_, fun hhead => ?_⟩
        · obtain ⟨others, rfl⟩ := List.head?_eq_some_iff.mp hhead
          exact hequals others rfl
        · obtain ⟨others, rfl⟩ := List.head?_eq_some_iff.mp hhead
          exact hbang others rfl
      · cases hname
    · cases hname
  | none =>
    simp only
    split
    · exact opensAs_directive _
    · rename_i hquestion
      refine .capture fun hhead => ?_
      obtain ⟨others, rfl⟩ := List.head?_eq_some_iff.mp hhead
      exact hquestion others rfl

end Highlighter.Pattern.Part

namespace Highlighter.Union

open Pattern Regex Regex.Extended

/-! ### What is asked of the parts -/

/-- Whether a part is a piece that is read by itself, to its end. References are by number, to a
group that has opened and keeps a number, or to the whole match. Flags do not make a pattern
verbose. -/
def isReadAlone (kept : List Nat) (opened : Nat) : Part → Bool
  | .bracket text => (parseBracket? .blank text.tail).any fun found => found.2.isEmpty
  | .escape text => !text.tail.head?.any (fun c => c == 'k' || c.isDigit) &&
    (parseEscape? .blank false text.tail).any fun found => found.2.2.isEmpty
  | .numeric number => number == 0 || decide (number ≤ opened) && kept.contains number
  | .opening (.flagged letters) => !letters.contains 'x'
  | .flags letters => !letters.contains 'x'
  | _ => true

/-- Whether a part does not run into the next one, also where carets are left out. A question mark
that opens no group is that of an atomic one. -/
def mayPrecede : Part → Part → Bool
  | .opening .special, next => next == .literal ['>']
  | .opening _, .literal [c] => c != '?'
  | .caret, .literal [c] => !isCountStart c
  | .numeric _, .caret => false
  | .literal [c], .caret => !(c == '{' || isBoundMark c)
  | _, _ => true

/-- Whether parts are read one by one, where `opened` groups have opened before. -/
def isSteady (kept : List Nat) (opened : Nat) : List Part → Bool
  | [] => true
  | part :: rest => isReadAlone kept opened part && rest.head?.all (mayPrecede part) &&
    isSteady kept (opened + if captures part then 1 else 0) rest

/-- The parts of a text are read one by one, where `opened` groups have opened before. In the end,
all groups that keep a number have opened. -/
structure Steady (kept : List Nat) (opened : Nat) (cs : List Char) : Prop where
  apart : isSteady kept opened (Part.fine (Part.split cs)) = true
  opens : ∀ group ∈ kept, group ≤ opened + captureCount (Part.split cs)

/-- What ends the text of a member. -/
def Ends (tail : List Char) : Prop := ∀ c ∈ tail.head?, c = ')'

variable {kept : List Nat} {opened : Nat} {cs rest body : List Char} {c : Char} {part : Part}

theorem isPlain_of_isBoundMark (h : isBoundMark c = true) : Part.isPlain c = true := by
  refine (Regular.isPlain_of_isBoundsChar ?_).1
  rcases Bool.or_eq_true_iff.mp h with hdigit | hcomma
  · simp [Regular.isBoundsChar, hdigit]
  · simp [Regular.isBoundsChar, hcomma]

theorem foldChar_of_isBoundMark (h : isBoundMark c = true) : foldChar c = [c] := by
  rcases Bool.or_eq_true_iff.mp h with hdigit | hcomma
  · have hbounds : 0x30 ≤ c.toNat ∧ c.toNat ≤ 0x39 := by
      simpa [Char.isDigit, UInt32.le_iff_toNat_le] using hdigit
    have hall : ∀ index < 10,
        foldChar (Char.ofNat (0x30 + index)) = [Char.ofNat (0x30 + index)] := by decide +kernel
    have hcode : c = Char.ofNat (0x30 + (c.toNat - 0x30)) := by
      rw [Nat.add_sub_cancel' hbounds.1, Char.ofNat_toNat]
    rw [hcode]
    exact hall _ (by omega)
  · rw [beq_iff_eq.mp hcomma]
    rfl

theorem foldChar_of_isCountStart (h : isCountStart c = true) : foldChar c = [c] := by
  have hcases : c = '?' ∨ c = '*' ∨ c = '+' ∨ c = '{' := by
    simpa [isCountStart, or_assoc] using h
  rcases hcases with rfl | rfl | rfl | rfl <;> rfl

theorem isPlain_of_isCountStart (h : isCountStart c = true) : Part.isPlain c = true := by
  have hcases : c = '?' ∨ c = '*' ∨ c = '+' ∨ c = '{' := by
    simpa [isCountStart, or_assoc] using h
  rcases hcases with rfl | rfl | rfl | rfl <;> rfl

namespace Steady

theorem of_split (h : Steady kept opened cs) (hsplit : Part.split cs = part :: Part.split rest)
    (hfine : Part.fineOf part = [part]) :
    (isReadAlone kept opened part = true ∧
      ∀ next ∈ (Part.fine (Part.split rest)).head?, mayPrecede part next = true) ∧
    Steady kept (opened + if captures part then 1 else 0) rest := by
  obtain ⟨hapart, hopens⟩ := h
  rw [hsplit, Part.fine_cons, hfine, List.singleton_append, isSteady, Bool.and_eq_true,
    Bool.and_eq_true, Option.all_eq_true] at hapart
  rw [hsplit, captureCount_cons] at hopens
  refine ⟨hapart.1, hapart.2, fun group hgroup => ?_⟩
  have hle := hopens group hgroup
  omega

theorem plain (h : Steady kept opened (c :: rest)) (hc : Part.isPlain c = true) :
    Steady kept opened rest ∧
      ∀ next ∈ (Part.fine (Part.split rest)).head?, mayPrecede (.literal [c]) next = true := by
  obtain ⟨hapart, hopens⟩ := h
  have hcount : captureCount (Part.split (c :: rest)) = captureCount (Part.split rest) := by
    rw [← captureCount_fine, Part.fine_split_plain hc, captureCount_cons, captureCount_fine]
    rfl
  rw [Part.fine_split_plain hc, isSteady, Bool.and_eq_true, Bool.and_eq_true,
    Option.all_eq_true] at hapart
  rw [hcount] at hopens
  exact ⟨⟨hapart.2, hopens⟩, hapart.1.2⟩

theorem caret (h : Steady kept opened ('^' :: rest)) : Steady kept opened rest ∧
    ∀ c ∈ rest.head?, isCountStart c = false := by
  obtain ⟨⟨-, hnext⟩, hrest⟩ := h.of_split (Part.split_caret rest) rfl
  refine ⟨hrest, fun c hc => ?_⟩
  obtain ⟨others, rfl⟩ := List.head?_eq_some_iff.mp hc
  cases hstart : isCountStart c with
  | false => rfl
  | true =>
    have hmay := hnext (.literal [c])
      (by rw [Part.fine_split_plain (isPlain_of_isCountStart hstart)]; rfl)
    rw [mayPrecede, hstart] at hmay
    cases hmay

theorem close (h : Steady kept opened (')' :: rest)) : Steady kept opened rest :=
  (h.of_split (Part.split_cons ')' rest) rfl).2

/-- No caret comes where it would join what stands around it. -/
theorem head?_ne_caret (hnext : ∀ next ∈ (Part.fine (Part.split rest)).head?,
    mayPrecede part next = true) (hpart : mayPrecede part .caret = false) :
    rest.head? ≠ some '^' := by
  intro hhead
  rw [hnext .caret (Recasting.head?_split.mpr hhead)] at hpart
  cases hpart

theorem mark (h : Steady kept opened (c :: rest)) (hc : c = '{' ∨ isBoundMark c = true) :
    Steady kept opened rest ∧ rest.head? ≠ some '^' := by
  have hplain : Part.isPlain c = true := by
    rcases hc with rfl | hc
    · rfl
    · exact isPlain_of_isBoundMark hc
  obtain ⟨hrest, hnext⟩ := h.plain hplain
  refine ⟨hrest, head?_ne_caret hnext ?_⟩
  rcases hc with rfl | hc
  · rfl
  · simp [mayPrecede, hc]

end Steady

namespace Recasting

variable {recasting : Recasting} {tail : List Char}

/-! ### What texts start with -/

theorem fineOf_read (h : Part.isPlain c = false) (rest : List Char) :
    Part.fineOf (Part.read c rest).1 = [(Part.read c rest).1] := by
  have hcases : c = '[' ∨ c = '\\' ∨ c = '(' ∨ c = ')' ∨ c = '^' := by
    simpa [Part.isPlain, imp_iff_not_or, or_assoc] using h
  rcases hcases with rfl | rfl | rfl | rfl | rfl
  · rfl
  · show Part.fineOf (Part.readEscape rest).1 = [(Part.readEscape rest).1]
    unfold Part.readEscape
    split
    · rfl
    · split
      · dsimp only
        split <;> rfl
      · rfl
  · show Part.fineOf (Part.readOpening rest).1 = [(Part.readOpening rest).1]
    have hopens := Part.opensAs rest
    generalize (Part.readOpening rest).1 = part at hopens ⊢
    generalize rest.drop (Part.readOpening rest).2 = body at hopens
    cases hopens <;> rfl
  · rfl
  · rfl

/-- What follows a text is no more than the end of its group. -/
theorem head?_of_ends {text : List Char} (htail : Ends tail) (hc : c ≠ ')')
    (h : (text ++ tail).head? = some c) : text.head? = some c := by
  cases text with
  | nil => exact absurd (htail c h) hc
  | cons d text => exact h

/-- A character without other cases is written as it is. -/
theorem char_eq (h : foldChar c = [c]) : recasting.char c = [c] := by
  rw [char, h, ite_self]

/-- Where letter case is spelt out, a class or a group in which it does not count may stand for what
starts with `first`. -/
def StartsAs (first : Option Char) (text : List Char) : Prop :=
  text.head? = first ∨ text.head? = some '[' ∨ ∃ written rest, text = ignoringCase written ++ rest

theorem StartsAs.append {first : Option Char} {text : List Char} (h : StartsAs first text)
    (hfirst : first ≠ none) (rest : List Char) : StartsAs first (text ++ rest) := by
  have hhead : ∀ {d : Option Char}, d ≠ none → text.head? = d → (text ++ rest).head? = d := by
    rintro d hd rfl
    rw [List.head?_append]
    exact Option.or_of_isSome (Option.isSome_iff_ne_none.mpr hd)
  rcases h with hsame | hclass | ⟨written, others, rfl⟩
  · exact .inl (hhead hfirst hsame)
  · exact .inr (.inl (hhead nofun hclass))
  · exact .inr (.inr ⟨written, others ++ rest, List.append_assoc _ _ _⟩)

/-- A group or a class stands for no other character. -/
theorem StartsAs.eq {first : Option Char} {text : List Char} (h : StartsAs first text)
    (hclass : c ≠ '[') (hgroup : c ≠ '(') (hhead : text.head? = some c) : first = some c := by
  rcases h with rfl | hstart | ⟨written, rest, rfl⟩
  · exact hhead
  · exact absurd (Option.some.inj (hhead.symm.trans hstart)) hclass
  · exact absurd (Option.some.inj hhead).symm hgroup

theorem startsAs_ignoringCase (first : Option Char) (text : List Char) :
    StartsAs first (ignoringCase text) :=
  .inr (.inr ⟨text, [], (List.append_nil _).symm⟩)

theorem startsAs_foldChar (c : Char) : StartsAs (some c) (foldChar c) := by
  unfold foldChar
  split
  · exact .inr (.inl rfl)
  · split
    · exact startsAs_ignoringCase _ _
    · exact .inl rfl

theorem startsAs_char (recasting : Recasting) (c : Char) :
    StartsAs (some c) (recasting.char c) := by
  unfold char
  split
  · exact startsAs_foldChar c
  · exact .inl rfl

/-- A part is written with the character that it starts with, unless its letter case is spelt
out. -/
theorem startsAs_partText (folded : Bool) (part : Part) :
    StartsAs part.render.head? (partText folded part) := by
  cases folded with
  | false => exact .inl rfl
  | true =>
    cases part with
    | bracket text =>
      show StartsAs _ (foldClass text)
      unfold foldClass
      extract_lets
      split
      extract_lets
      split
      · exact startsAs_ignoringCase _ _
      · exact .inr (.inl rfl)
    | literal text =>
      cases text with
      | nil => exact .inl rfl
      | cons c rest => exact (startsAs_foldChar c).append nofun _
    | escape text =>
      show StartsAs text.head? (foldEscape text)
      unfold foldEscape
      split
      · split
        · exact startsAs_ignoringCase _ _
        · exact .inl rfl
      · exact .inl rfl
    | _ => exact .inl rfl

/-- What a part becomes starts as the part does. -/
theorem startsAs_part (h : isReadAlone recasting.kept opened part = true) :
    StartsAs part.render.head? (recasting.part opened part) := by
  have hhead : (Part.render (renumberedPart recasting.base recasting.kept opened
      (resolvedPart opened part))).head? = part.render.head? := by
    cases part with
    | numeric number =>
      rw [resolvedPart]
      split
      · rfl
      · rename_i hnot
        have hzero : number = 0 := by
          rcases Bool.or_eq_true_iff.mp h with hzero | hopened
          · exact beq_iff_eq.mp hzero
          · have hle := of_decide_eq_true (Bool.and_eq_true_iff.mp hopened).1
            have hlt : ¬1 ≤ number := fun hpos => hnot (by simp [hpos, hle])
            omega
        subst hzero
        rfl
    | opening kind =>
      show (Part.render (if kind.isCapturing then _ else _)).head? = _
      cases kind with
      | capture | named written =>
        show (Part.render (if recasting.kept.contains (opened + 1) then _ else _)).head? = _
        split <;> rfl
      | _ => rfl
    | _ => rfl
  rw [← hhead]
  exact startsAs_partText _ _

/-- The text of a member starts as its pattern does, unless letter case is spelt out. -/
theorem startsAs_text (h : Steady recasting.kept opened cs) (hcaret : cs.head? ≠ some '^') :
    StartsAs cs.head? (recasting.text opened cs) := by
  cases cs with
  | nil =>
    rw [text_nil]
    exact .inl rfl
  | cons c rest =>
    by_cases hplain : Part.isPlain c = true
    · rw [text_plain hplain]
      exact (startsAs_char recasting c).append nofun _
    · have hsplit := Part.split_cons c rest
      have hfine := fineOf_read (Bool.eq_false_iff.mpr hplain) rest
      have hhead := Part.head?_render_read c rest
      have hne : (Part.read c rest).1 ≠ .caret := fun heq =>
        hcaret (congrArg some (eq_caret_of_read heq))
      have hpart := startsAs_part (h.of_split hsplit hfine).1.1
      rw [hhead] at hpart
      rw [text_of_split hsplit hfine hne]
      exact hpart.append nofun _

/-- Repetitions are where they were. -/
theorem head?_of_count (h : Steady recasting.kept opened cs) (hc : isCountStart c = true)
    (hhead : (recasting.text opened cs).head? = some c) : cs.head? = some c := by
  have hne : c ≠ '[' ∧ c ≠ '(' := by
    constructor <;> rintro rfl <;> cases hc
  by_cases hcaret : cs.head? = some '^'
  · obtain ⟨rest, rfl⟩ := List.head?_eq_some_iff.mp hcaret
    obtain ⟨hrest, hnext⟩ := h.caret
    rw [text_caret] at hhead
    split at hhead
    · cases hhead
      cases hc
    · rename_i hlone
      rw [List.nil_append] at hhead
      rw [hnext c ((startsAs_text hrest hlone).eq hne.1 hne.2 hhead)] at hc
      cases hc
  · exact (startsAs_text h hcaret).eq hne.1 hne.2 hhead

end Recasting

/-! ### No comments -/

namespace Steady

/-- A pattern starts no comment. -/
theorem clean (h : Steady kept opened cs) : Clean cs := by
  rintro rest rfl
  have hsplit : Part.split ('(' :: '?' :: '#' :: rest)
      = .opening .special :: Part.split ('#' :: rest) := Part.split_cons '(' ('?' :: '#' :: rest)
  have hnext := (h.of_split hsplit rfl).1.2 (.literal ['#'])
    (by rw [Part.fine_split_plain rfl]; rfl)
  exact absurd hnext (by decide)

end Steady

/-- What opens a group is a part that is read by itself, before the body. -/
structure SteadyOpening (kept : List Nat) (opened : Nat) (rest : List Char) (part : Part)
    (body : List Char) : Prop where
  opens : Part.OpensAs rest part body
  alone : isReadAlone kept opened part = true
  next : ∀ next ∈ (Part.fine (Part.split body)).head?, mayPrecede part next = true
  steady : Steady kept (opened + if captures part then 1 else 0) body
  text : ∀ recasting : Recasting, recasting.text opened ('(' :: rest)
    = recasting.part opened part ++ recasting.text (opened + if captures part then 1 else 0) body

theorem Steady.opening (h : Steady kept opened ('(' :: rest)) :
    ∃ part body, SteadyOpening kept opened rest part body := by
  have hsplit := Part.split_cons '(' rest
  have hfine := Recasting.fineOf_read (show Part.isPlain '(' = false from rfl) rest
  obtain ⟨⟨halone, hnext⟩, hsteady⟩ := h.of_split hsplit hfine
  have hcaret : (Part.read '(' rest).1 ≠ .caret := fun heq =>
    absurd (Recasting.eq_caret_of_read heq) (by decide)
  exact ⟨_, _, Part.opensAs rest, halone, hnext, hsteady, fun _ =>
    Recasting.text_of_split hsplit hfine hcaret⟩

/-- A group that captures does not start with a question mark. -/
theorem SteadyOpening.head?_ne (h : SteadyOpening kept opened rest part body)
    (hcaptures : captures part = true) : body.head? ≠ some '?' := by
  obtain ⟨hopens, -, hnext, -, -⟩ := h
  cases hopens with
  | capture hhead => exact hhead
  | named =>
    intro hhead
    obtain ⟨others, rfl⟩ := List.head?_eq_some_iff.mp hhead
    have hmay := hnext (.literal ['?']) (by rw [Part.fine_split_plain rfl]; rfl)
    cases hmay
  | look | flagged | flags | special => cases hcaptures

/-- The mark of a special group is that of an atomic one. -/
theorem SteadyOpening.head?_special (h : SteadyOpening kept opened rest (.opening .special) body) :
    ∀ c ∈ body.head?, c = '>' := by
  intro c hc
  obtain ⟨others, rfl⟩ := List.head?_eq_some_iff.mp hc
  obtain ⟨part, hpart, hrender⟩ := Part.head?_fine_split c others
  obtain rfl : part = .literal ['>'] := beq_iff_eq.mp (h.next part hpart)
  exact (Option.some.inj hrender).symm

namespace Recasting

variable {recasting : Recasting} {tail : List Char}

theorem part_opening (kind : Pattern.Opening) :
    recasting.part opened (.opening kind)
      = if kind.isCapturing then
          if recasting.kept.contains (opened + 1) then ['('] else ['(', '?', ':']
        else kind.render := by
  have hopening : ∀ kind : Pattern.Opening,
      partText recasting.folded (.opening kind) = kind.render := fun kind => by
    cases recasting.folded <;> rfl
  show partText recasting.folded (if kind.isCapturing then _ else _) = _
  cases kind.isCapturing with
  | false => exact hopening kind
  | true =>
    show partText recasting.folded (if recasting.kept.contains (opened + 1) then _ else _) = _
    split <;> exact hopening _

theorem part_flags (letters : List Char) :
    recasting.part opened (.flags letters) = '(' :: '?' :: (letters ++ [')']) := by
  show partText recasting.folded (.flags letters) = _
  cases recasting.folded <;> rfl

/-- A group of a member starts no comment. -/
theorem clean_opening (h : Steady recasting.kept opened ('(' :: rest))
    (htail : Ends tail) : Clean (recasting.text opened ('(' :: rest) ++ tail) := by
  obtain ⟨part, body, hopening⟩ := h.opening
  have hsteady := hopening.steady
  rw [hopening.text]
  intro others heq
  have hcapture : captures part = true →
      recasting.part opened part = ['('] ∨ recasting.part opened part = ['(', '?', ':'] →
      False := by
    rintro hcaptures (hpart | hpart)
    · rw [hpart, List.append_assoc] at heq
      have hhead := head?_of_ends htail (c := '?') (by decide)
        (congrArg List.head? (List.cons.inj heq).2)
      exact hopening.head?_ne hcaptures (head?_of_count hsteady rfl hhead)
    · rw [hpart] at heq
      cases heq
  have hkept : ∀ kind : Pattern.Opening, kind.isCapturing = true →
      recasting.part opened (.opening kind) = ['('] ∨
        recasting.part opened (.opening kind) = ['(', '?', ':'] := by
    intro kind hkind
    rw [part_opening, if_pos hkind]
    split
    · exact .inl rfl
    · exact .inr rfl
  have hletters : ∀ {letters : List Char} {mark : Char} {more : List Char},
      (∀ c ∈ letters, Part.isFlagChar c = true) → mark ≠ '#' →
      letters ++ mark :: more ≠ '#' :: others := by
    intro letters mark more hletters hmark heq
    cases letters with
    | nil => exact hmark (List.cons.inj heq).1
    | cons c letters =>
      have hc := hletters c List.mem_cons_self
      rw [(List.cons.inj heq).1] at hc
      cases hc
  obtain ⟨hopens, -, -, -, -⟩ := id hopening
  cases hopens with
  | capture => exact hcapture rfl (hkept _ rfl)
  | named => exact hcapture rfl (hkept _ rfl)
  | look mark hmark =>
    rw [part_opening] at heq
    simp only [List.mem_cons, List.not_mem_nil, or_false] at hmark
    rcases hmark with rfl | rfl | rfl | rfl <;> cases heq
  | flagged body hflags =>
    rw [part_opening] at heq
    simp only [Pattern.Opening.isCapturing, Bool.false_eq_true, if_false, Pattern.Opening.render,
      List.cons_append, List.append_assoc, List.nil_append] at heq
    exact hletters hflags (by decide) (List.cons.inj (List.cons.inj heq).2).2
  | flags body hflags =>
    rw [part_flags] at heq
    simp only [List.cons_append, List.append_assoc, List.nil_append] at heq
    exact hletters hflags (by decide) (List.cons.inj (List.cons.inj heq).2).2
  | special =>
    rw [part_opening] at heq
    have hhead := head?_of_ends htail (c := '#') (by decide)
      (congrArg List.head? (List.cons.inj (List.cons.inj heq).2).2)
    have hspecial := hopening.head?_special
    have hcaret : body.head? ≠ some '^' := fun hcaret =>
      absurd (hspecial '^' hcaret) (by decide)
    exact absurd (hspecial '#' ((startsAs_text hsteady hcaret).eq (by decide) (by decide) hhead))
      (by decide)

/-- A member starts no comment. -/
theorem clean_text (h : Steady recasting.kept opened cs) (htail : Ends tail) :
    Clean (recasting.text opened cs ++ tail) := by
  have hhead : ∀ {cs : List Char}, Steady recasting.kept opened cs → cs.head? ≠ some '^' →
      Clean (recasting.text opened cs ++ tail) := by
    intro cs h hcaret
    by_cases hopen : cs.head? = some '('
    · obtain ⟨rest, rfl⟩ := List.head?_eq_some_iff.mp hopen
      exact clean_opening h htail
    · rcases startsAs_text h hcaret with hsame | hclass | ⟨written, rest, hgroup⟩
      · intro others heq
        have hfirst := head?_of_ends htail (c := '(') (by decide) (congrArg List.head? heq)
        exact hopen (hsame.symm.trans hfirst)
      · obtain ⟨others, hothers⟩ := List.head?_eq_some_iff.mp hclass
        rw [hothers]
        exact clean_cons (by decide) _
      · rw [hgroup]
        exact clean_group (by decide) _
  by_cases hcaret : cs.head? = some '^'
  · obtain ⟨rest, rfl⟩ := List.head?_eq_some_iff.mp hcaret
    rw [text_caret]
    split
    · exact clean_cons (by decide) _
    · exact hhead h.caret.1 ‹_›
  · exact hhead h hcaret

/-- Bounds are where they were, given that no caret is left out here. -/
theorem countsAlike_text (h : Steady recasting.kept opened cs) (hcaret : cs.head? ≠ some '^')
    (htail : Ends tail) {size : Nat}
    (hsize : (recasting.text opened cs).length ≤ size) :
    CountsAlike (fun left later => (Steady recasting.kept opened left ∧
      (recasting.text opened left).length ≤ size) ∧ later = recasting.text opened left ++ tail)
      cs (recasting.text opened cs ++ tail) := by
  induction cs with
  | nil =>
    have hclean := clean_text h htail
    rw [text_nil] at hclean ⊢
    refine .stop ⟨clean_nil, nofun⟩ ⟨hclean, fun c hc => ?_⟩
    obtain rfl := htail c hc
    decide
  | cons c rest ih =>
    have hclean := clean_text h htail
    have hrest : Part.isPlain c = true → foldChar c = [c] → recasting.text opened (c :: rest)
        = c :: recasting.text opened rest := fun hplain hfold => by
      rw [text_plain hplain, char_eq hfold]
      rfl
    by_cases hmark : isBoundMark c = true
    · obtain ⟨hsteady, hnext⟩ := h.mark (.inr hmark)
      rw [hrest (isPlain_of_isBoundMark hmark) (foldChar_of_isBoundMark hmark)] at hsize ⊢
      exact .mark hmark (ih hsteady hnext (Nat.le_of_succ_le hsize))
    · by_cases hclose : c = '}'
      · subst hclose
        rw [hrest rfl rfl] at hsize ⊢
        exact .close ⟨⟨(h.plain rfl).1, Nat.le_of_succ_le hsize⟩, rfl⟩
      · refine .stop ⟨h.clean, ?_⟩ ⟨hclean, ?_⟩
        · rintro d ⟨⟩
          exact ⟨Bool.eq_false_iff.mpr hmark, hclose⟩
        · intro d hd
          have hsame : d ≠ '[' → d ≠ '(' → d ≠ ')' → c = d := fun hbracket hopen hend =>
            Option.some.inj ((startsAs_text h hcaret).eq hbracket hopen
              (head?_of_ends htail hend hd))
          by_cases hmarks : d = '[' ∨ d = '(' ∨ d = ')'
          · rcases hmarks with rfl | rfl | rfl <;> decide
          · rw [not_or, not_or] at hmarks
            rw [← hsame hmarks.1 hmarks.2.1 hmarks.2.2]
            exact ⟨Bool.eq_false_iff.mpr hmark, hclose⟩

end Recasting

end Highlighter.Union
