import Highlighter.Proofs.Regex.Extended.Renumbering
import Highlighter.Proofs.Union.Codes

/-!
# Members that stand later in a union

Where a member stands in a union makes no difference to its text but for its references: they are
numbered later by the number of groups before it (`member_later`). As long as these numbers are its
only references (`NumbersOnly`), the two texts are related as the readers of the extended dialect
expect it (`renumbered_memberText`).
-/

set_option autoImplicit false

namespace Highlighter.Union

open Pattern Regex.Extended

variable {base : Nat} {folded : Bool} {parts : List Part}

/-! ### Parts -/

/-- The part with its reference numbered `base` later. -/
def laterPart (base : Nat) : Part → Part
  | .numeric number => .numeric (base + number)
  | part => part

theorem renumber_later (base : Nat) (kept : List Nat) (opened : Nat) (parts : List Part) :
    renumber base kept opened parts = (renumber 0 kept opened parts).map (laterPart base) := by
  have hpart : ∀ (opened : Nat) (part : Part),
      renumberedPart base kept opened part
        = laterPart base (renumberedPart 0 kept opened part) := by
    intro opened part
    cases part with
    | numeric number =>
      show Part.numeric _ = Part.numeric _
      rw [Nat.zero_add, Nat.add_assoc]
    | opening kind =>
      rw [renumberedPart, renumberedPart]
      split
      · split <;> rfl
      · rfl
    | _ => rfl
  induction parts generalizing opened with
  | nil => rfl
  | cons part rest ih => rw [renumber_cons, renumber_cons, List.map_cons, hpart, ih]

theorem member_later (base : Nat) (parts : List Part) :
    member base parts = ((member 0 parts).1.map (laterPart base), base + (member 0 parts).2) := by
  refine Prod.ext (renumber_later base _ 0 _) ?_
  show base + (keptOf parts).length = base + (0 + (keptOf parts).length)
  rw [Nat.zero_add]

theorem dropCarets_map_later (base : Nat) (parts : List Part) :
    dropCarets (parts.map (laterPart base)) = (dropCarets parts).map (laterPart base) := by
  fun_induction dropCarets parts with
  | case1 rest ih => exact congrArg (Part.caret :: ·) ih
  | case2 rest hcaret ih =>
    rw [← ih, List.map_cons]
    show dropCarets (.caret :: rest.map (laterPart base)) = _
    rw [dropCarets]
    intro others heq
    cases rest with
    | nil => cases heq
    | cons part others =>
      cases part with
      | caret => exact hcaret others rfl
      | _ => cases heq
  | case3 part rest hcarets hcaret ih =>
    rw [List.map_cons, List.map_cons, ← ih, dropCarets]
    · rintro others heq -
      cases part with
      | caret => exact hcaret rfl
      | _ => cases heq
    · intro heq
      cases part with
      | caret => exact hcaret rfl
      | _ => cases heq
  | case4 => rfl

/-- References of members refer to groups from 1 on. -/
theorem pos_of_numeric_renumber {kept : List Nat} {opened number : Nat}
    (h : .numeric number ∈ renumber base kept opened parts) : 1 ≤ number := by
  obtain ⟨place, hplace⟩ := List.mem_iff_getElem?.mp h
  obtain ⟨written, -, rfl⟩ := numeric_renumber.mp hplace
  omega

theorem subset_dropCarets (parts : List Part) : dropCarets parts ⊆ parts := by
  fun_induction dropCarets parts with
  | case1 rest ih => exact List.cons_subset_cons _ ih
  | case2 rest _ ih => exact List.subset_cons_of_subset _ ih
  | case3 part rest _ _ ih => exact List.cons_subset_cons _ ih
  | case4 => exact List.nil_subset _

/-! ### Texts -/

theorem partText_numeric (folded : Bool) (number : Nat) :
    partText folded (.numeric number) = '\\' :: Nat.toDigits 10 number := by
  cases folded <;> rfl

/-- The text of parts up to the end of their group. -/
def closedText (folded : Bool) (parts : List Part) : List Char :=
  parts.flatMap (partText folded) ++ [')']

/-- Whether a text before `after` refers to no group, and sets none as a condition. -/
def refersToNone : List Char → List Char → Bool
  | [], _ => true
  | ['\\'], _ => false
  | '\\' :: c :: word, after => escapesPlainly c (word ++ after) && refersToNone word after
  | '(' :: word, after => opensPlainly (word ++ after) && refersToNone word after
  | _ :: word, after => refersToNone word after

/-- Whether the numbers among the parts are their only references, and each of them ends with its
part. -/
def numbersOnly (folded : Bool) : List Part → Bool
  | [] => true
  | .numeric _ :: rest =>
    (closedText folded rest).head?.all (fun c => !c.isDigit) && numbersOnly folded rest
  | part :: rest =>
    refersToNone (partText folded part) (closedText folded rest) && numbersOnly folded rest

theorem renumbered_append {more word after others : List Char}
    (hword : refersToNone word after = true) (h : Renumbered base more after others) :
    Renumbered base more (word ++ after) (word ++ others) := by
  fun_induction refersToNone word after with
  | case1 => exact h
  | case2 => cases hword
  | case3 after c word ih =>
    obtain ⟨hescape, hword⟩ := Bool.and_eq_true_iff.mp hword
    exact .escape hescape (ih hword h)
  | case4 after word ih =>
    obtain ⟨hopen, hword⟩ := Bool.and_eq_true_iff.mp hword
    exact .char (by decide) (fun _ => hopen) (ih hword h)
  | case5 after word c hlast hescape hopen ih =>
    refine .char ?_ (fun heq => absurd heq hopen) (ih hword h)
    rintro rfl
    cases word with
    | nil => exact hlast rfl rfl
    | cons d word => exact hescape d word rfl rfl

theorem renumbered_closedText (hnumbers : numbersOnly folded parts = true)
    (hpos : ∀ number, .numeric number ∈ parts → 1 ≤ number) (base : Nat) (more : List Char) :
    Renumbered base more (closedText folded parts)
      ((parts.map (laterPart base)).flatMap (partText folded) ++ ')' :: more) := by
  induction parts with
  | nil => exact .close
  | cons part rest ih =>
    have hrest := fun hrest => ih hrest fun number hnumber => hpos number (.tail _ hnumber)
    rw [closedText, List.flatMap_cons, List.map_cons, List.flatMap_cons, List.append_assoc,
      List.append_assoc]
    unfold numbersOnly at hnumbers
    cases part with
    | numeric number =>
      obtain ⟨hend, hothers⟩ := Bool.and_eq_true_iff.mp hnumbers
      rw [laterPart, partText_numeric, partText_numeric]
      refine .number (hpos number List.mem_cons_self) (fun c hc => ?_) (hrest hothers)
      rw [closedText, Option.mem_def.mp hc] at hend
      simpa using hend
    | _ =>
      obtain ⟨hword, hothers⟩ := Bool.and_eq_true_iff.mp hnumbers
      exact renumbered_append hword (hrest hothers)

/-- The texts of a member are related wherever it stands in a union. -/
theorem renumbered_memberText (parts : List Part)
    (hnumbers : numbersOnly folded (dropCarets (member 0 parts).1) = true) (base : Nat)
    (more : List Char) :
    Renumbered base more (memberText folded (member 0 parts).1 ++ [')'])
      (memberText folded (member base parts).1 ++ ')' :: more) := by
  have h := renumbered_closedText hnumbers (fun number hnumber =>
    pos_of_numeric_renumber (subset_dropCarets _ hnumber)) base more
  rw [← dropCarets_map_later] at h
  rw [member_later base]
  exact h

/-! ### Branches -/

/-- The texts of the branches of a union, where `base` groups stand before. -/
def branchesFrom (folds : Pattern → Bool) (base : Nat) : List Pattern → List (List Char)
  | [] => [catchAll]
  | pattern :: rest =>
    ("(?:".toList ++ memberText (folds pattern) (member base pattern.parts).1 ++ [')']) ::
      branchesFrom folds (member base pattern.parts).2 rest

/-- Whether letter case is spelt out in a member. -/
def isFolded (patterns : List Pattern) (pattern : Pattern) : Bool :=
  caseRule patterns == .mixed && pattern.ignoreCase

theorem branches_eq (rule : CaseRule) (patterns : List Pattern) :
    branches rule patterns
      = branchesFrom (fun pattern => rule == .mixed && pattern.ignoreCase) 0 patterns := by
  have h : ∀ base, (List.zipWith
      (fun pattern parts => memberText (rule == .mixed && pattern.ignoreCase) parts) patterns
      (members base (patterns.map Pattern.parts)).1).map
        (fun text => "(?:".toList ++ text ++ [')']) ++ [catchAll]
      = branchesFrom (fun pattern => rule == .mixed && pattern.ignoreCase) base patterns := by
    induction patterns with
    | nil => exact fun _ => rfl
    | cons pattern patterns ih => exact fun base => congrArg (_ :: ·) (ih _)
  exact h 0

theorem branchesFrom_ne_nil (folds : Pattern → Bool) (base : Nat) (patterns : List Pattern) :
    branchesFrom folds base patterns ≠ [] := by
  cases patterns <;> exact List.cons_ne_nil _ _

/-- A branch of a union starts with a group. -/
theorem head_branches (folds : Pattern → Bool) (base : Nat) (patterns : List Pattern) :
    ∃ c rest, c ≠ '#' ∧
      List.intercalate ['|'] (branchesFrom folds base patterns) = '(' :: '?' :: c :: rest := by
  cases patterns with
  | nil => exact ⟨'s', ":.)".toList, by decide, rfl⟩
  | cons pattern patterns =>
    rw [branchesFrom, List.intercalate_cons_of_ne_nil (branchesFrom_ne_nil _ _ _)]
    exact ⟨':', _, by decide, rfl⟩

end Highlighter.Union
