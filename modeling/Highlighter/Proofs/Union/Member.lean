import Highlighter.Proofs.Pattern.Parts
import Highlighter.Union.Basic

/-!
# Expressions as members of a union

Becoming a member of a union keeps the groups of a pattern that are
referred to, and numbers them anew. On expressions this is
`Expr.renumber`. The text of a member is the text of the expression
that it becomes (`Member.memberText_eq`), and the text of a union is
that of the branches of its members (`text_eq_render`).
-/

set_option autoImplicit false

namespace Highlighter.Pattern

/-! ### Renumbering -/

namespace Expr

/-- A pattern with the groups in `kept` numbered from `base + 1` on, and
all others not captured. `opened` groups have opened before. -/
def renumber (base : Nat) (kept : List Nat) (opened : Nat) : Expr → Expr
  | capture body =>
    if kept.contains (opened + 1) then capture (body.renumber base kept (opened + 1))
    else bare (body.renumber base kept (opened + 1))
  | bare body => bare (body.renumber base kept opened)
  | ignoring body => ignoring (body.renumber base kept opened)
  | look behind negated body => look behind negated (body.renumber base kept opened)
  | backref number => backref (base + kept.idxOf number + 1)
  | seq first second =>
    seq (first.renumber base kept opened) (second.renumber base kept (opened + first.captures))
  | alt first second =>
    alt (first.renumber base kept opened) (second.renumber base kept (opened + first.captures))
  | repeated count greedy body => repeated count greedy (body.renumber base kept opened)
  | expr => expr

/-- The groups of a pattern that it refers to, in order. -/
def targets (expr : Expr) : List Nat :=
  (List.range (expr.captures + 1)).filter expr.refersTo

/-! ### After the start -/

theorem parts_afterStart (expr : Expr) : expr.afterStart.parts = .caret :: expr.parts := by
  induction expr with
  | alt first second ihFirst ihSecond =>
    rw [afterStart, parts, ihFirst, parts]
    rfl
  | _ => rfl

theorem captures_afterStart (expr : Expr) : expr.afterStart.captures = expr.captures := by
  induction expr with
  | alt first second ihFirst ihSecond => rw [afterStart, captures, ihFirst, captures]
  | _ => exact Nat.zero_add _

theorem refersTo_afterStart (expr : Expr) (number : Nat) :
    expr.afterStart.refersTo number = expr.refersTo number := by
  induction expr with
  | alt first second ihFirst ihSecond => rw [afterStart, refersTo, ihFirst, refersTo]
  | _ => exact Bool.false_or _

theorem targets_afterStart (expr : Expr) : expr.afterStart.targets = expr.targets := by
  unfold targets
  rw [captures_afterStart]
  exact List.filter_congr fun number _ => refersTo_afterStart expr number

theorem renumber_afterStart (base : Nat) (kept : List Nat) (opened : Nat) (expr : Expr) :
    expr.afterStart.renumber base kept opened = (expr.renumber base kept opened).afterStart := by
  induction expr generalizing opened with
  | alt first second ihFirst ihSecond =>
    rw [afterStart, renumber, ihFirst, captures_afterStart, renumber,
      afterStart]
  | capture body ih =>
    show seq textStart ((capture body).renumber base kept opened)
      = ((capture body).renumber base kept opened).afterStart
    rw [renumber]
    by_cases hkept : kept.contains (opened + 1)
    · rw [if_pos hkept]
      rfl
    · rw [if_neg hkept]
      rfl
  | _ => rfl

end Expr

end Highlighter.Pattern

namespace Highlighter.Union

open Pattern

/-! ### Parts with runs cut -/

theorem fine_fineOf (part : Part) : Part.fine (Part.fineOf part) = Part.fineOf part := by
  cases part with
  | literal text =>
    cases text with
    | nil => rfl
    | cons c rest =>
      show ((c :: rest).map fun d => Part.literal [d]).flatMap Part.fineOf = _
      rw [List.flatMap_map]
      exact List.map_eq_flatMap.symm
  | _ => rfl

/-- Cutting runs changes no part but runs. -/
theorem fineOf_cases (part : Part) :
    Part.fineOf part = [part] ∨
      ∃ text, Part.fineOf part = text.map (fun c => Part.literal [c]) ∧ part = .literal text := by
  cases part with
  | literal text =>
    cases text with
    | nil => exact .inl rfl
    | cons c rest => exact .inr ⟨c :: rest, rfl, rfl⟩
  | _ => exact .inl rfl

/-- Single characters are passed over. -/
theorem resolve_literals (opened : Nat) (text : List Char) (parts : List Part) :
    resolve opened (text.map (fun c => Part.literal [c]) ++ parts)
      = text.map (fun c => Part.literal [c]) ++ resolve opened parts := by
  induction text with
  | nil => rfl
  | cons c text ih =>
    rw [List.map_cons, List.cons_append, resolve, ih]
    · rfl
    all_goals exact fun _ heq => nomatch heq

/-- Numbers are told apart the same way in single characters. -/
theorem fine_resolve (opened : Nat) (parts : List Part) :
    Part.fine (resolve opened parts) = Part.fine (resolve opened (Part.fine parts)) := by
  fun_induction resolve opened parts with
  | case1 => rfl
  | case2 opened kind rest ih =>
    rw [Part.fine_cons, ih]
    rfl
  | case3 opened number rest ih =>
    rw [Part.fine_cons, ih]
    rfl
  | case4 opened part rest hopening hnumeric ih =>
    rw [Part.fine_cons, ih, Part.fine_cons]
    rcases fineOf_cases part with hpart | ⟨text, hpart, rfl⟩
    · simp only [hpart, List.singleton_append]
      rw [resolve, Part.fine_cons, hpart]
      · rfl
      · exact hopening
      · exact hnumeric
    · rw [hpart, resolve_literals, Part.fine_append, ← hpart, fine_fineOf]

theorem captureCount_literals (text : List Char) (parts : List Part) :
    captureCount (text.map (fun c => Part.literal [c]) ++ parts) = captureCount parts := by
  induction text with
  | nil => rfl
  | cons c text ih =>
    rw [List.map_cons, List.cons_append, captureCount, ih]
    exact fun _ heq => nomatch heq

theorem captureCount_fine (parts : List Part) :
    captureCount (Part.fine parts) = captureCount parts := by
  fun_induction captureCount parts with
  | case1 => rfl
  | case2 kind rest ih =>
    rw [← ih]
    rfl
  | case3 part rest hopening ih =>
    rw [← ih, Part.fine_cons]
    rcases fineOf_cases part with hpart | ⟨text, hpart, rfl⟩
    · rw [hpart, List.singleton_append, captureCount]
      exact hopening
    · rw [hpart, captureCount_literals]

theorem contains_fine (number : Nat) (parts : List Part) :
    (Part.fine parts).contains (.numeric number) = parts.contains (.numeric number) := by
  rw [Bool.eq_iff_iff, List.contains_iff_mem, List.contains_iff_mem, Part.fine, List.mem_flatMap]
  constructor
  · rintro ⟨part, hmem, hpart⟩
    rcases fineOf_cases part with heq | ⟨text, heq, rfl⟩
    · rw [heq, List.mem_singleton] at hpart
      rw [hpart]
      exact hmem
    · rw [heq, List.mem_map] at hpart
      obtain ⟨c, -, habsurd⟩ := hpart
      cases habsurd
  · intro hmem
    exact ⟨_, hmem, List.mem_singleton_self _⟩

theorem targets_fine (parts : List Part) : targets (Part.fine parts) = targets parts := by
  unfold targets
  rw [captureCount_fine]
  exact List.filter_congr fun number _ => contains_fine number parts

theorem renumber_literals (base : Nat) (kept : List Nat) (opened : Nat) (text : List Char)
    (parts : List Part) :
    renumber base kept opened (text.map (fun c => Part.literal [c]) ++ parts)
      = text.map (fun c => Part.literal [c]) ++ renumber base kept opened parts := by
  induction text with
  | nil => rfl
  | cons c text ih =>
    rw [List.map_cons, List.cons_append, renumber, ih]
    · rfl
    all_goals exact fun _ heq => nomatch heq

theorem renumber_fine (base : Nat) (kept : List Nat) (opened : Nat) (parts : List Part) :
    renumber base kept opened (Part.fine parts)
      = Part.fine (renumber base kept opened parts) := by
  fun_induction renumber base kept opened parts with
  | case1 => rfl
  | case2 opened kind rest hcapturing ih =>
    rw [Part.fine_cons, Part.fine_cons, ← ih]
    show renumber base kept opened (.opening kind :: Part.fine rest) = _
    rw [renumber, if_pos hcapturing]
    split <;> rfl
  | case3 opened kind rest hcapturing ih =>
    rw [Part.fine_cons, Part.fine_cons, ← ih]
    show renumber base kept opened (.opening kind :: Part.fine rest) = _
    rw [renumber, if_neg hcapturing]
    rfl
  | case4 opened number rest ih =>
    rw [Part.fine_cons, Part.fine_cons, ← ih]
    rfl
  | case5 opened part rest hopening hnumeric ih =>
    rw [Part.fine_cons, Part.fine_cons, ← ih]
    rcases fineOf_cases part with hpart | ⟨text, hpart, rfl⟩
    · simp only [hpart, List.singleton_append]
      rw [renumber]
      · exact hopening
      · exact hnumeric
    · rw [hpart, renumber_literals]

theorem dropCarets_literals (text : List Char) (parts : List Part) :
    dropCarets (text.map (fun c => Part.literal [c]) ++ parts)
      = text.map (fun c => Part.literal [c]) ++ dropCarets parts := by
  induction text with
  | nil => rfl
  | cons c text ih =>
    rw [List.map_cons, List.cons_append, dropCarets, ih]
    · rfl
    · exact fun _ heq => nomatch heq
    · exact fun heq => nomatch heq

theorem dropCarets_fine (parts : List Part) :
    dropCarets (Part.fine parts) = Part.fine (dropCarets parts) := by
  fun_induction dropCarets parts with
  | case1 rest ih =>
    rw [Part.fine_cons .caret (dropCarets _), ← ih]
    rfl
  | case2 rest hcaret ih =>
    rw [← ih]
    show dropCarets (.caret :: Part.fine rest) = _
    rw [dropCarets]
    intro others heq
    cases rest with
    | nil => cases heq
    | cons part rest =>
      rcases fineOf_cases part with hpart | ⟨text, hpart, rfl⟩
      · rw [Part.fine_cons, hpart] at heq
        cases heq
        exact hcaret rest rfl
      · rw [Part.fine_cons, hpart] at heq
        cases text with
        | nil => cases hpart
        | cons c text => cases heq
  | case3 part rest hdouble hsingle ih =>
    rw [Part.fine_cons, Part.fine_cons, ← ih]
    rcases fineOf_cases part with hpart | ⟨text, hpart, rfl⟩
    · simp only [hpart, List.singleton_append]
      rw [dropCarets]
      · exact fun others heq _ => hsingle heq
      · exact hsingle
    · rw [hpart, dropCarets_literals]
  | case4 => rfl

/-- The text of a member is the same from single characters. -/
theorem memberText_fine (folded : Bool) (parts : List Part) :
    memberText folded (Part.fine parts) = memberText folded parts := by
  have hpart : ∀ part : Part,
      (Part.fineOf part).flatMap (fun part => if folded then part.renderFolded else part.render)
        = if folded then part.renderFolded else part.render := by
    intro part
    rcases fineOf_cases part with heq | ⟨text, heq, rfl⟩
    · rw [heq, List.flatMap_singleton]
    · rw [heq, List.flatMap_map]
      cases folded with
      | true =>
        show text.flatMap (fun c => [c].flatMap foldChar) = text.flatMap foldChar
        simp only [List.flatMap_singleton]
      | false => exact List.flatMap_singleton' text
  unfold memberText
  rw [dropCarets_fine]
  generalize dropCarets parts = parts
  induction parts with
  | nil => rfl
  | cons part parts ih => rw [Part.fine_cons, List.flatMap_append, ih, hpart, List.flatMap_cons]

/-! ### The parts of an expression -/

/-- A group, and what comes after it. -/
theorem group_append (kind : Opening) (parts rest : List Part) :
    Part.opening kind :: (parts ++ [.close]) ++ rest = .opening kind :: (parts ++ .close :: rest) := by
  rw [List.cons_append, List.append_assoc]
  rfl

/-- A reference to a group that has opened stays one. -/
theorem resolve_parts {expr : Expr} {opened : Nat} (h : expr.RefsOpened opened)
    (parts : List Part) :
    resolve opened (expr.parts ++ parts)
      = expr.parts ++ resolve (opened + expr.captures) parts := by
  induction expr generalizing opened parts with
  | capture body ih =>
    rw [Expr.parts, group_append, group_append]
    show .opening .capture :: resolve (opened + 1) _ = _
    rw [ih h, Expr.captures, Nat.add_right_comm]
    rfl
  | bare body ih =>
    rw [Expr.parts, group_append, group_append]
    show .opening (.flagged []) :: resolve opened _ = _
    rw [ih h]
    rfl
  | ignoring body ih =>
    rw [Expr.parts, group_append, group_append]
    show .opening (.flagged ['i']) :: resolve opened _ = _
    rw [ih h]
    rfl
  | look behind negated body ih =>
    rw [Expr.parts, group_append, group_append]
    show .opening (.look _) :: resolve opened _ = _
    rw [ih h]
    rfl
  | backref number =>
    -- Only here does it matter which groups have opened.
    have hopened : (1 ≤ number && number ≤ opened) = true := by
      simp only [Bool.and_eq_true, decide_eq_true_eq]
      exact h
    show resolve opened (.numeric number :: parts) = _
    rw [resolve, if_pos hopened]
    rfl
  | seq first second ihFirst ihSecond =>
    rw [Expr.parts, List.append_assoc, ihFirst h.1, ihSecond h.2, Expr.captures, Nat.add_assoc,
      List.append_assoc]
  | alt first second ihFirst ihSecond =>
    rw [Expr.parts, List.append_assoc, ihFirst h.1]
    show _ ++ .literal ['|'] :: resolve _ (second.parts ++ parts) = _
    rw [ihSecond h.2, Expr.captures, Nat.add_assoc, List.append_assoc]
    rfl
  | repeated count greedy body ih =>
    rw [Expr.parts, List.append_assoc, ih h, resolve_literals, List.append_assoc]
    rfl
  | _ => rfl

theorem captureCount_parts (expr : Expr) (parts : List Part) :
    captureCount (expr.parts ++ parts) = expr.captures + captureCount parts := by
  induction expr generalizing parts with
  | capture body ih =>
    rw [Expr.parts, group_append, captureCount, ih, Expr.captures]
    show body.captures + captureCount parts + 1 = _
    omega
  | bare body ih =>
    rw [Expr.parts, group_append, captureCount, ih]
    rfl
  | ignoring body ih =>
    rw [Expr.parts, group_append, captureCount, ih]
    rfl
  | look behind negated body ih =>
    rw [Expr.parts, group_append, captureCount, ih]
    rfl
  | seq first second ihFirst ihSecond =>
    rw [Expr.parts, List.append_assoc, ihFirst, ihSecond, Expr.captures, Nat.add_assoc]
  | alt first second ihFirst ihSecond =>
    rw [Expr.parts, List.append_assoc, ihFirst]
    show _ + captureCount (second.parts ++ parts) = _
    rw [ihSecond, Expr.captures, Nat.add_assoc]
  | repeated count greedy body ih =>
    rw [Expr.parts, List.append_assoc, ih, captureCount_literals]
    rfl
  | _ => exact (Nat.zero_add _).symm

/-- The numbers among the parts are the references. -/
theorem contains_parts (expr : Expr) (number : Nat) :
    expr.parts.contains (.numeric number) = expr.refersTo number := by
  have hliterals : ∀ text : List Char,
      (text.map fun c => Part.literal [c]).contains (.numeric number) = false := by
    intro text
    induction text with
    | nil => rfl
    | cons c text ih => rw [List.map_cons, List.contains_cons, ih]; rfl
  have hgroup : ∀ (kind : Opening) (parts : List Part),
      (Part.opening kind :: (parts ++ [.close])).contains (.numeric number)
        = parts.contains (.numeric number) := by
    intro kind parts
    rw [List.contains_cons, List.contains_append]
    show (false || (_ || false)) = _
    rw [Bool.false_or, Bool.or_false]
  induction expr with
  | capture body ih => exact (hgroup _ _).trans ih
  | bare body ih => exact (hgroup _ _).trans ih
  | ignoring body ih => exact (hgroup _ _).trans ih
  | look behind negated body ih => exact (hgroup _ _).trans ih
  | backref target =>
    show (Part.numeric number == Part.numeric target || false) = (target == number)
    rw [Bool.or_false, Bool.eq_iff_iff, beq_iff_eq, beq_iff_eq]
    exact ⟨fun heq => by cases heq; rfl, fun heq => by rw [heq]⟩
  | seq first second ihFirst ihSecond =>
    rw [Expr.parts, List.contains_append, ihFirst, ihSecond]
    rfl
  | alt first second ihFirst ihSecond =>
    rw [Expr.parts, List.contains_append, List.contains_cons, ihFirst, ihSecond]
    rfl
  | repeated count greedy body ih =>
    rw [Expr.parts, List.contains_append, ih, hliterals, Bool.or_false]
    rfl
  | _ => rfl

theorem targets_parts (expr : Expr) : targets expr.parts = expr.targets := by
  have hcount := captureCount_parts expr []
  rw [List.append_nil] at hcount
  unfold targets Expr.targets
  rw [hcount]
  exact List.filter_congr fun number _ => contains_parts expr number

/-- Renumbering the parts of an expression gives the parts of the
renumbered one. -/
theorem renumber_parts (base : Nat) (kept : List Nat) (opened : Nat) (expr : Expr)
    (parts : List Part) :
    renumber base kept opened (expr.parts ++ parts)
      = (expr.renumber base kept opened).parts
        ++ renumber base kept (opened + expr.captures) parts := by
  induction expr generalizing opened parts with
  | capture body ih =>
    rw [Expr.parts, group_append, renumber, if_pos (by rfl), ih, Expr.captures,
      Nat.add_right_comm opened, Expr.renumber]
    by_cases hkept : kept.contains (opened + 1)
    · rw [if_pos hkept, if_pos hkept, Expr.parts, group_append]
      rfl
    · rw [if_neg hkept, if_neg hkept, Expr.parts, group_append]
      rfl
  | bare body ih =>
    rw [Expr.parts, group_append, renumber, if_neg (by decide), ih, Expr.renumber,
      Expr.parts, group_append]
    rfl
  | ignoring body ih =>
    rw [Expr.parts, group_append, renumber, if_neg (by decide), ih, Expr.renumber,
      Expr.parts, group_append]
    rfl
  | look behind negated body ih =>
    rw [Expr.parts, group_append, renumber, if_neg (by exact Bool.false_ne_true), ih, Expr.renumber,
      Expr.parts, group_append]
    rfl
  | seq first second ihFirst ihSecond =>
    rw [Expr.parts, List.append_assoc, ihFirst, ihSecond, Expr.captures, Expr.renumber,
      Expr.parts, List.append_assoc, Nat.add_assoc]
  | alt first second ihFirst ihSecond =>
    rw [Expr.parts, List.append_assoc, ihFirst]
    show _ ++ .literal ['|'] :: renumber base kept _ (second.parts ++ parts) = _
    rw [ihSecond, Expr.captures, Expr.renumber, Expr.parts, List.append_assoc, Nat.add_assoc]
    rfl
  | repeated count greedy body ih =>
    rw [Expr.parts, List.append_assoc, ih, renumber_literals, Expr.renumber, Expr.parts,
      List.append_assoc]
    rfl
  | _ => rfl

/-! ### Members -/

/-- What stands before a pattern to assert the start. -/
inductive Lead where
  | none
  | caret
  | doubled
  deriving DecidableEq, Repr

/-- The parts of what stands before a pattern. -/
def Lead.parts : Lead → List Part
  | none => []
  | caret => [.caret]
  | doubled => [.caret, .caret]

/-- A pattern by its tree. -/
structure Member where
  lead : Lead
  body : Expr
  ignoreCase : Bool
  deriving DecidableEq, Repr

namespace Member

/-- The pattern that a tree writes. -/
def pattern (member : Member) : Pattern :=
  ⟨String.ofList (member.lead.parts.flatMap Part.render ++ member.body.render),
    member.ignoreCase, false⟩

/-- What a pattern asks for anywhere in a text. A single caret is left
out, and two carets are one assertion of the start. -/
def expr (member : Member) : Expr :=
  match member.lead with
  | .doubled => member.body.afterStart
  | _ => member.body

/-- A pattern that is written as its tree says. Numbers of groups have
32 bits. -/
structure Valid (member : Member) : Prop where
  wellFormed : member.body.WellFormed
  refsOpened : member.body.RefsOpened 0
  isPlain : member.body.isPlain = true
  captures_lt : member.body.captures < Part.numberLimit

/-- A pattern as a member of a union, after `base` groups. -/
def joined (base : Nat) (member : Member) : Expr :=
  member.expr.renumber base member.expr.targets 0

end Member

/-- The members of a union, after `base` groups. -/
def joinedFrom (base : Nat) : List Member → List Expr
  | [] => []
  | member :: rest =>
    member.joined base :: joinedFrom (base + member.expr.targets.length) rest

/-- The branches of a union, the last of which is any character. -/
def branched : List Expr → Expr
  | [] => .anyChar
  | expr :: rest => .alt (.bare expr) (branched rest)

/-! ### The text of a member -/

theorem lt_of_refersTo {expr : Expr} {opened number : Nat} (h : expr.RefsOpened opened)
    (hnumber : expr.refersTo number = true) : 1 ≤ number ∧ number ≤ opened + expr.captures := by
  induction expr generalizing opened with
  | capture body ih =>
    have hbody := ih h hnumber
    rw [Expr.captures]
    omega
  | bare body ih => exact ih h hnumber
  | ignoring body ih => exact ih h hnumber
  | look behind negated body ih => exact ih h hnumber
  | repeated count greedy body ih => exact ih h hnumber
  | backref target =>
    cases beq_iff_eq.mp (show (target == number) = true from hnumber)
    exact ⟨h.1, h.2⟩
  | seq first second ihFirst ihSecond =>
    rw [Expr.captures]
    rcases Bool.or_eq_true_iff.mp hnumber with hfirst | hsecond
    · have hbound := ihFirst h.1 hfirst
      omega
    · have hbound := ihSecond h.2 hsecond
      omega
  | alt first second ihFirst ihSecond =>
    rw [Expr.captures]
    rcases Bool.or_eq_true_iff.mp hnumber with hfirst | hsecond
    · have hbound := ihFirst h.1 hfirst
      omega
    · have hbound := ihSecond h.2 hsecond
      omega
  | _ => cases hnumber

/-- The groups that a pattern refers to are its targets. -/
theorem mem_targets {expr : Expr} {number : Nat} (h : expr.RefsOpened 0) :
    number ∈ expr.targets ↔ expr.refersTo number = true := by
  rw [Expr.targets, List.mem_filter, List.mem_range]
  refine ⟨fun hmem => hmem.2, fun hnumber => ⟨?_, hnumber⟩⟩
  have hbound := lt_of_refersTo h hnumber
  omega

/-- The parts of a pattern, up to runs. -/
theorem Member.fine_parts {member : Member} (h : member.Valid) :
    Part.fine member.pattern.parts = member.lead.parts ++ member.body.parts := by
  have hnumbers : ∀ number, member.body.refersTo number = true → number < Part.numberLimit := by
    intro number hnumber
    have hbound := lt_of_refersTo h.refsOpened hnumber
    have hfew := h.captures_lt
    omega
  have happart : member.body.Apart [] := ⟨fun _ _ hc => (nomatch hc), fun _ _ hc => (nomatch hc)⟩
  have hbody := Expr.fine_split_render h.wellFormed hnumbers happart
  rw [List.append_nil] at hbody
  have hnil : Part.fine (Part.split []) = [] := by
    rw [Part.split]
    rfl
  rw [hnil, List.append_nil] at hbody
  show Part.fine (Part.split (String.ofList _).toList) = _
  rw [String.toList_ofList, ← hbody]
  cases member.lead with
  | none => rfl
  | caret =>
    show Part.fine (Part.split ('^' :: member.body.render)) = _
    rw [Part.split_caret]
    rfl
  | doubled =>
    show Part.fine (Part.split ('^' :: '^' :: member.body.render)) = _
    rw [Part.split_caret, Part.split_caret]
    rfl

/-- Only assertions of the start are carets. -/
theorem not_mem_parts_caret {expr : Expr} (h : expr.isPlain = true) : Part.caret ∉ expr.parts := by
  induction expr with
  | capture body ih =>
    have hbody := ih h
    simp [Expr.parts, hbody]
  | bare body ih =>
    have hbody := ih h
    simp [Expr.parts, hbody]
  | look behind negated body ih =>
    have hbody := ih h
    simp [Expr.parts, hbody]
  | repeated count greedy body ih =>
    have hbody := ih h
    simp [Expr.parts, hbody]
  | seq first second ihFirst ihSecond =>
    obtain ⟨hfirst, hsecond⟩ := Bool.and_eq_true_iff.mp h
    simp [Expr.parts, ihFirst hfirst, ihSecond hsecond]
  | alt first second ihFirst ihSecond =>
    obtain ⟨hfirst, hsecond⟩ := Bool.and_eq_true_iff.mp h
    simp [Expr.parts, ihFirst hfirst, ihSecond hsecond]
  | anyChar => cases h
  | textStart => cases h
  | ignoring body => cases h
  | _ => simp [Expr.parts]

/-- Renumbering adds no assertions and no flags. -/
theorem isPlain_renumber (base : Nat) (kept : List Nat) (opened : Nat) (expr : Expr) :
    (expr.renumber base kept opened).isPlain = expr.isPlain := by
  induction expr generalizing opened with
  | capture body ih =>
    rw [Expr.renumber]
    by_cases hkept : kept.contains (opened + 1)
    · rw [if_pos hkept]
      exact ih _
    · rw [if_neg hkept]
      exact ih _
  | bare body ih => exact ih _
  | ignoring body ih => rfl
  | look behind negated body ih => exact ih _
  | repeated count greedy body ih => exact ih _
  | seq first second ihFirst ihSecond =>
    rw [Expr.renumber, Expr.isPlain, Expr.isPlain, ihFirst, ihSecond]
  | alt first second ihFirst ihSecond =>
    rw [Expr.renumber, Expr.isPlain, Expr.isPlain, ihFirst, ihSecond]
  | _ => rfl

theorem dropCarets_of_not_mem {parts : List Part} (h : Part.caret ∉ parts) :
    dropCarets parts = parts := by
  induction parts with
  | nil => rfl
  | cons part parts ih =>
    rw [List.mem_cons, not_or] at h
    rw [dropCarets, ih h.2]
    · exact fun rest heq _ => h.1 heq.symm
    · exact fun heq => h.1 heq.symm

/-- Of the carets before a pattern, the first one of two is kept. -/
theorem dropCarets_lead {parts : List Part} (h : Part.caret ∉ parts) (lead : Lead) :
    dropCarets (lead.parts ++ parts)
      = match lead with
        | .doubled => .caret :: parts
        | _ => parts := by
  have hsingle : dropCarets (.caret :: parts) = parts := by
    rw [dropCarets, dropCarets_of_not_mem h]
    rintro rest rfl
    exact h List.mem_cons_self
  cases lead with
  | none => exact dropCarets_of_not_mem h
  | caret => exact hsingle
  | doubled =>
    show .caret :: dropCarets (.caret :: parts) = _
    rw [hsingle]

namespace Member

theorem targets_expr (member : Member) : member.expr.targets = member.body.targets := by
  obtain ⟨lead, body, ignoreCase⟩ := member
  cases lead with
  | doubled => exact Expr.targets_afterStart body
  | _ => rfl

/-- The parts of a joined pattern are those of the tree. -/
theorem parts_joined (base : Nat) (member : Member) :
    (member.joined base).parts
      = match member.lead with
        | .doubled => .caret :: (member.body.renumber base member.body.targets 0).parts
        | _ => (member.body.renumber base member.body.targets 0).parts := by
  rw [joined, targets_expr]
  obtain ⟨lead, body, ignoreCase⟩ := member
  cases lead with
  | doubled =>
    show (body.afterStart.renumber base body.targets 0).parts = _
    rw [Expr.renumber_afterStart, Expr.parts_afterStart]
  | _ => rfl

/-- How many groups of a pattern are numbered in a union, and what its
parts are there. -/
theorem fine_member {member : Member} (h : member.Valid) (base : Nat) :
    (Union.member base member.pattern.parts).2 = base + member.expr.targets.length ∧
      Part.fine (dropCarets (Union.member base member.pattern.parts).1)
        = (member.joined base).parts := by
  have hparts := member.fine_parts h
  have hresolved : Part.fine (resolve 0 member.pattern.parts)
      = member.lead.parts ++ member.body.parts := by
    have hbody := resolve_parts h.refsOpened []
    rw [List.append_nil, resolve, List.append_nil] at hbody
    rw [fine_resolve, hparts]
    have hlead : resolve 0 (member.lead.parts ++ member.body.parts)
        = member.lead.parts ++ resolve 0 member.body.parts := by
      cases member.lead <;> rfl
    rw [hlead, hbody, Part.fine_append, Expr.fine_parts]
    cases member.lead <;> rfl
  have htargets : targets (resolve 0 member.pattern.parts) = member.body.targets := by
    rw [← targets_fine, hresolved, ← targets_parts]
    have hlead : targets (member.lead.parts ++ member.body.parts) = targets member.body.parts := by
      cases member.lead <;> rfl
    exact hlead
  constructor
  · show base + (targets (resolve 0 member.pattern.parts)).length = _
    rw [htargets, targets_expr]
  · show Part.fine (dropCarets (renumber base (targets _) 0 _)) = _
    have hrenumber := renumber_parts base member.body.targets 0 member.body []
    rw [List.append_nil, renumber, List.append_nil] at hrenumber
    have hlead : renumber base member.body.targets 0 (member.lead.parts ++ member.body.parts)
        = member.lead.parts ++ renumber base member.body.targets 0 member.body.parts := by
      cases member.lead <;> rfl
    have hplain := (isPlain_renumber base member.body.targets 0 member.body).trans h.isPlain
    rw [htargets, ← dropCarets_fine, ← renumber_fine, hresolved, hlead, hrenumber,
      dropCarets_lead (not_mem_parts_caret hplain), parts_joined]

/-- The text of a pattern in a union. -/
theorem memberText_member {member : Member} (h : member.Valid) (base : Nat) (folded : Bool) :
    memberText folded (Union.member base member.pattern.parts).1
      = (member.joined base).parts.flatMap fun part =>
          if folded then part.renderFolded else part.render := by
  rw [← memberText_fine]
  unfold memberText
  rw [dropCarets_fine, (fine_member h base).2]

end Member

/-! ### The text of a union -/

/-- The texts of the members of a union. -/
theorem texts_members {list : List Member} (h : ∀ member ∈ list, member.Valid) (mixed : Bool)
    (base : Nat) :
    List.zipWith (fun pattern parts => memberText (mixed && Pattern.ignoreCase pattern) parts)
        (list.map Member.pattern) (members base ((list.map Member.pattern).map Pattern.parts)).1
      = List.zipWith
          (fun member expr => expr.parts.flatMap fun part =>
            if mixed && Member.ignoreCase member then part.renderFolded else part.render)
          list (joinedFrom base list) := by
  induction list generalizing base with
  | nil => rfl
  | cons member rest ih =>
    have hmember := h member List.mem_cons_self
    have hrest := ih (fun other hother => h other (List.mem_cons_of_mem member hother))
    show memberText (mixed && member.ignoreCase) (Union.member base member.pattern.parts).1
        :: List.zipWith _ _
          (members (Union.member base member.pattern.parts).2
            ((rest.map Member.pattern).map Pattern.parts)).1 = _
    rw [Member.memberText_member hmember, (Member.fine_member hmember base).1, hrest]
    rfl

/-- A union is written as the branches that its members write. -/
theorem intercalate_branches (exprs : List Expr) :
    List.intercalate ['|']
        ((exprs.map Expr.render).map (fun text => "(?:".toList ++ text ++ [')']) ++ [catchAll])
      = (branched exprs).render := by
  induction exprs with
  | nil => rfl
  | cons expr rest ih =>
    have hne : (rest.map Expr.render).map (fun text => "(?:".toList ++ text ++ [')']) ++ [catchAll]
        ≠ [] := by simp
    rw [branched, Expr.render, Expr.render, ← ih, List.map_cons, List.map_cons, List.cons_append,
      List.intercalate_cons_of_ne_nil hne]
    simp

/-- Branches that are spelt as they are. -/
theorem zipWith_joinedFrom (base : Nat) (list : List Member) :
    List.zipWith (fun _ expr => expr) list (joinedFrom base list) = joinedFrom base list := by
  induction list generalizing base with
  | nil => rfl
  | cons member list ih => exact congrArg (_ :: ·) (ih _)

/-- The branches of a union are written as the branches of an expression,
however letter case is spelt in them. -/
theorem intercalate_spelt {list : List Member} (h : ∀ member ∈ list, member.Valid)
    {mixed : Bool} (spell : Member → Expr → Expr)
    (hmixed : (caseRule (list.map Member.pattern) == .mixed) = mixed)
    (hspell : ∀ member ∈ list, ∀ base, (spell member (member.joined base)).render
      = (member.joined base).parts.flatMap fun part =>
          if mixed && member.ignoreCase then part.renderFolded else part.render) :
    List.intercalate ['|']
        (branches (caseRule (list.map Member.pattern)) (list.map Member.pattern))
      = (branched (List.zipWith spell list (joinedFrom 0 list))).render := by
  have htexts : ∀ base, List.zipWith
      (fun member expr => expr.parts.flatMap fun part =>
        if mixed && Member.ignoreCase member then part.renderFolded else part.render)
      list (joinedFrom base list)
        = (List.zipWith spell list (joinedFrom base list)).map Expr.render := by
    clear h hmixed
    induction list with
    | nil => exact fun base => rfl
    | cons member list ih =>
      obtain ⟨hmember, hlist⟩ := List.forall_mem_cons.mp hspell
      intro base
      rw [joinedFrom, List.zipWith_cons_cons, ih hlist, ← hmember base]
      rfl
  rw [← intercalate_branches, ← htexts 0, ← texts_members h mixed 0, branches, hmixed]

/-- The branches of a union are written as they are, unless letter case
is spelt out. -/
theorem intercalate_joined {list : List Member} (h : ∀ member ∈ list, member.Valid)
    (hrule : caseRule (list.map Member.pattern) ≠ .mixed) :
    List.intercalate ['|']
        (branches (caseRule (list.map Member.pattern)) (list.map Member.pattern))
      = (branched (joinedFrom 0 list)).render := by
  rw [intercalate_spelt h (fun _ expr => expr) (beq_eq_false_iff_ne.mpr hrule)
    (fun member _ base => (Expr.flatMap_render_parts (member.joined base)).symm),
    zipWith_joinedFrom]

/-- The text of a union whose members keep letter case apart. -/
theorem text_eq_render {list : List Member} (h : ∀ member ∈ list, member.Valid)
    (hcase : ∀ member ∈ list, member.ignoreCase = false) :
    text (list.map Member.pattern) = (branched (joinedFrom 0 list)).render := by
  have hrule : caseRule (list.map Member.pattern) = .counts := by
    have hany : (list.map Member.pattern).any Pattern.ignoreCase = false := by
      rw [List.any_eq_false]
      intro pattern hpattern
      obtain ⟨member, hmember, rfl⟩ := List.mem_map.mp hpattern
      rw [show member.pattern.ignoreCase = false from hcase member hmember]
      exact Bool.false_ne_true
    unfold caseRule
    rw [hany]
    rfl
  rw [← intercalate_joined h (by rw [hrule]; decide), text, hrule]
  rfl

end Highlighter.Union
