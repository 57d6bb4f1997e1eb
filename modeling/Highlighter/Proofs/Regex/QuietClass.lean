import Highlighter.Proofs.Pattern.ClassMembers
import Highlighter.Proofs.Pattern.Quiet
import Highlighter.Proofs.Regex.ClassEnd
import Highlighter.Proofs.Unicode.Words

/-!
# Classes that spell nothing cased

A set of characters is closed if it holds all case variants of a
character or none of them. Where letter case does not count, such a set
stays as it is, and so do the sets that are made of such ones. A class
in which nothing cased is spelt holds such a set, if its ranges do
(`ignoresCase_of_parseClass`): a range is the only member that can hold
more than it spells.
-/

set_option autoImplicit false

namespace Highlighter.Regex

open Pattern Unicode

/-! ### Closed sets -/

/-- A set that holds all case variants of a character, or none of them. -/
def CharSet.IsCaseClosed (set : CharSet) : Prop :=
  ∀ c : Char, ∀ code ∈ variants c.toNat, set (Char.ofNat code) = set c

namespace CharSet.IsCaseClosed

variable {set other : CharSet}

theorem closeCase_eq (h : set.IsCaseClosed) : closeCase set = set := by
  funext c
  rw [Bool.eq_iff_iff, closeCase, List.any_eq_true]
  constructor
  · rintro ⟨code, hcode, hholds⟩
    rwa [← h c code hcode]
  · intro hholds
    exact ⟨c.toNat, self_mem_variants _, by rwa [Char.ofNat_toNat]⟩

/-- Case variants add nothing to a closed set. -/
theorem fold_eq (h : set.IsCaseClosed) (ignoreCase : Bool) : fold ⟨ignoreCase, true⟩ set = set := by
  cases ignoreCase with
  | false => rfl
  | true => exact h.closeCase_eq

/-- What is decided by membership in closed sets is closed. -/
theorem combine (combined : Bool → Bool → Bool) (h : set.IsCaseClosed) (h' : other.IsCaseClosed) :
    IsCaseClosed fun c => combined (set c) (other c) := by
  intro c code hcode
  show combined _ _ = _
  rw [h c code hcode, h' c code hcode]

theorem empty : IsCaseClosed fun _ => false := fun _ _ _ => rfl

theorem complement (h : set.IsCaseClosed) : set.complement.IsCaseClosed :=
  h.combine (fun holds _ => !holds) h

/-- Characters that are not cased have no variants, and are variants of
no others. -/
theorem of_not_isCased (h : ∀ c, set c = true → isCased c = false) : set.IsCaseClosed := by
  intro c code hcode
  by_cases hsame : code = c.toNat
  · rw [hsame, Char.ofNat_toNat]
  · obtain ⟨hcased, hother⟩ := isCased_of_mem_variants hcode hsame
    have hother : isCased (Char.ofNat code) = true := by
      unfold isCased
      rwa [toNat_ofNat_of_mem_variants hcode]
    have hout : ∀ {d : Char}, isCased d = true → set d = false := by
      intro d hd
      rw [← Bool.not_eq_true]
      exact fun hmem => absurd ((h d hmem).symm.trans hd) Bool.false_ne_true
    rw [hout hcased, hout hother]

theorem single {c : Char} (h : isCased c = false) : IsCaseClosed fun d => d == c :=
  of_not_isCased fun d hd => by rwa [beq_iff_eq.mp hd]

end CharSet.IsCaseClosed

/-! ### Classes that ignore case -/

/-- The ranges that a class lists. -/
def ClassSet.ranges : ClassSet → List (Char × Char)
  | range lo hi => [(lo, hi)]
  | union first second => first.ranges ++ second.ranges
  | bracket _ body => body.ranges
  | intersection first second => first.ranges ++ second.ranges
  | difference first second => first.ranges ++ second.ranges
  | symmetricDifference first second => first.ranges ++ second.ranges
  | _ => []

/-- Each of the ranges holds all case variants of what it holds. -/
def AreCaseClosed (ranges : List (Char × Char)) : Prop :=
  ∀ range ∈ ranges, CharSet.IsCaseClosed fun c => range.1 ≤ c && c ≤ range.2

theorem areCaseClosed_append {first second : List (Char × Char)} :
    AreCaseClosed (first ++ second) ↔ AreCaseClosed first ∧ AreCaseClosed second :=
  List.forall_mem_append

/-- A class that holds the same characters whether letter case counts or
not, as long as its ranges hold all case variants. -/
def ClassSet.IgnoresCase (set : ClassSet) : Prop :=
  AreCaseClosed set.ranges → ∃ members : CharSet, members.IsCaseClosed ∧
    ∀ ignoreCase : Bool, set.meaning? ⟨ignoreCase, true⟩ = some members

namespace ClassSet.IgnoresCase

variable {set other : ClassSet}

theorem none : ClassSet.none.IgnoresCase := fun _ => ⟨_, .empty, fun _ => rfl⟩

theorem literal {c : Char} (h : isCased c = false) : (ClassSet.literal c).IgnoresCase :=
  fun _ => ⟨_, .single h, fun _ => rfl⟩

/-- Of a range, nothing is asked but what is supposed of it. -/
theorem range (lo hi : Char) : (ClassSet.range lo hi).IgnoresCase :=
  fun hranges => ⟨_, hranges (lo, hi) List.mem_cons_self, fun _ => rfl⟩

theorem short (kind : ShortClass) (negated : Bool) : (ClassSet.short kind negated).IgnoresCase := by
  have hclosed : CharSet.IsCaseClosed (kind.members true) :=
    fun c code hcode => kind.members_of_mem_variants hcode
  intro _
  cases negated with
  | false => exact ⟨_, hclosed, fun _ => rfl⟩
  | true => exact ⟨_, hclosed.complement, fun _ => rfl⟩

theorem bracket (negated : Bool) (h : set.IgnoresCase) : (ClassSet.bracket negated set).IgnoresCase := by
  intro hranges
  obtain ⟨members, hclosed, hmeaning⟩ := h hranges
  have hfold : ∀ ignoreCase : Bool, (ClassSet.bracket negated set).meaning? ⟨ignoreCase, true⟩
      = CharSet.negate? ⟨ignoreCase, true⟩ negated members := by
    intro ignoreCase
    rw [meaning?, hmeaning]
    simp only [bind, Option.bind_some, hclosed.fold_eq]
  cases negated with
  | false => exact ⟨members, hclosed, hfold⟩
  | true => exact ⟨_, hclosed.complement, hfold⟩

theorem union (h : set.IgnoresCase) (h' : other.IgnoresCase) : (set.union other).IgnoresCase := by
  intro hranges
  obtain ⟨hset, hother⟩ := areCaseClosed_append.mp hranges
  obtain ⟨members, hclosed, hmeaning⟩ := h hset
  obtain ⟨members', hclosed', hmeaning'⟩ := h' hother
  refine ⟨_, hclosed.combine or hclosed', fun ignoreCase => ?_⟩
  rw [meaning?, hmeaning, hmeaning']
  rfl

theorem op (op : ClassOp) (h : set.IgnoresCase) (h' : other.IgnoresCase) :
    (op.apply set other).IgnoresCase := by
  intro hranges
  have hboth : AreCaseClosed (set.ranges ++ other.ranges) := by
    cases op <;> exact hranges
  obtain ⟨hset, hother⟩ := areCaseClosed_append.mp hboth
  obtain ⟨members, hclosed, hmeaning⟩ := h hset
  obtain ⟨members', hclosed', hmeaning'⟩ := h' hother
  cases op with
  | intersection =>
    refine ⟨_, hclosed.combine and hclosed', fun ignoreCase => ?_⟩
    rw [ClassOp.apply, meaning?, hmeaning, hmeaning']
    simp only [bind, Option.bind_some, hclosed.fold_eq, hclosed'.fold_eq]
    rfl
  | difference =>
    refine ⟨_, hclosed.combine (fun a b => a && !b) hclosed', fun ignoreCase => ?_⟩
    rw [ClassOp.apply, meaning?, hmeaning, hmeaning']
    simp only [bind, Option.bind_some, hclosed.fold_eq, hclosed'.fold_eq]
    rfl
  | symmetricDifference =>
    refine ⟨_, hclosed.combine bne hclosed', fun ignoreCase => ?_⟩
    rw [ClassOp.apply, meaning?, hmeaning, hmeaning']
    simp only [bind, Option.bind_some, hclosed.fold_eq, hclosed'.fold_eq]
    rfl

theorem unionAll {items : List ClassSet} (h : ∀ item ∈ items, item.IgnoresCase) :
    (ClassSet.unionAll items).IgnoresCase := by
  match items with
  | [] => exact none
  | [item] => exact h item List.mem_cons_self
  | first :: second :: rest =>
    obtain ⟨hfirst, hrest⟩ := List.forall_mem_cons.mp h
    exact hfirst.union (unionAll hrest)

/-- What the members so far make with the operation before them. -/
theorem closeOperand {pending : Option (ClassOp × ClassSet)} {items : List ClassSet}
    (hpending : ∀ before, pending = some before → before.2.IgnoresCase)
    (hitems : ∀ item ∈ items, item.IgnoresCase) :
    (Regex.closeOperand pending items).IgnoresCase := by
  have hoperand : (ClassSet.unionAll items.reverse).IgnoresCase :=
    unionAll fun item hitem => hitems item (List.mem_reverse.mp hitem)
  cases pending with
  | none => exact hoperand
  | some before => exact (hpending before rfl).op before.1 hoperand

end ClassSet.IgnoresCase

/-! ### Reading quiet classes -/

variable {cs left : List Char} {depth : Nat}

/-- Splitting is still in the class, with as many brackets open as
before or more. -/
def StaysQuiet (depth : Nat) (cs : List Char) : Prop :=
  ∃ more, depth ≤ more ∧ Quiet (some more) cs

theorem StaysQuiet.member {c : Char} (h : StaysQuiet depth (c :: cs)) (hslash : c ≠ '\\')
    (hopen : c ≠ '[') (hclose : c ≠ ']') : isCased c = false ∧ StaysQuiet depth cs := by
  obtain ⟨more, hmore, h⟩ := h
  exact ⟨(h.member hslash hopen hclose).1, more, hmore, (h.member hslash hopen hclose).2⟩

/-- A member is read. An opening bracket after a hyphen is one, where
splitting goes one bracket deeper. -/
theorem ignoresCase_of_parseMember {first : Primitive} {item : ClassSet}
    (h : StaysQuiet depth cs) (hread : parseMember? false cs = some (first, left))
    (hclass : first.toClass? = some item) (hclose : cs.head? ≠ some ']') :
    item.IgnoresCase ∧ StaysQuiet depth left := by
  obtain ⟨more, hmore, h⟩ := h
  unfold parseMember? at hread
  split at hread
  · cases hread
  · rename_i rest
    cases rest with
    | nil => cases hread
    | cons letter rest =>
      obtain ⟨hletter, hrest⟩ := h.escape_inside
      by_cases hword : letter = 'b'
      · subst hword
        obtain ⟨sign, hanchor⟩ := parseBoundary_anchor hread
        have hfirst : first = .anchor sign := hanchor
        subst hfirst
        cases hclass
      · have hsingle : "xuUpPb".toList.contains letter = false := by
          rw [← Bool.not_eq_true]
          intro hmem
          have hmem := List.contains_iff_mem.mp hmem
          simp only [String.reduceToList, List.mem_cons, List.not_mem_nil, or_false] at hmem
          rcases hmem with rfl | rfl | rfl | rfl | rfl | rfl <;>
            first
            | exact absurd hletter (by decide)
            | exact hword rfl
        obtain ⟨rfl, ⟨hspelling, rfl⟩ | ⟨kind, negated, -, rfl⟩⟩ :=
          parseEscape_single hsingle hread hclass
        · cases hclass
          exact ⟨.literal (Expr.isCased_unescaped hspelling), more, hmore, hrest⟩
        · cases hclass
          exact ⟨.short kind negated, more, hmore, hrest⟩
  · rename_i c rest hslash
    cases hread
    cases hclass
    by_cases hopen : c = '['
    · subst hopen
      exact ⟨.literal (by decide), more + 1, Nat.le_succ_of_le hmore, h.open_inside.1⟩
    · have hclose : c ≠ ']' := by
        rintro rfl
        exact hclose rfl
      have hmember := h.member hslash hopen hclose
      exact ⟨.literal hmember.1, more, hmore, hmember.2⟩

theorem RangeRead.ignoresCase {item : ClassSet} (h : RangeRead cs item left)
    (hquiet : StaysQuiet depth cs) (hclose : cs.head? ≠ some ']') :
    item.IgnoresCase ∧ StaysQuiet depth left := by
  cases h with
  | single hfirst hclass => exact ignoresCase_of_parseMember hquiet hfirst hclass hclose
  | hyphen hfirst hclass hleft =>
    subst hleft
    exact ignoresCase_of_parseMember hquiet hfirst hclass hclose
  | @range lo hi _ _ _ hfirst hsecond _ hitem hclose' =>
    subst hitem
    have hrest := (ignoresCase_of_parseMember hquiet hfirst rfl hclose).2
    have hsecond := ignoresCase_of_parseMember
      (hrest.member (by decide) (by decide) (by decide)).2 hsecond rfl hclose'
    exact ⟨.range lo hi, hsecond.2⟩

theorem StaysQuiet.hyphens {count : Nat} (h : StaysQuiet depth (List.replicate count '-' ++ left)) :
    StaysQuiet depth left := by
  induction count with
  | zero => exact h
  | succ count ih => exact ih (h.member (by decide) (by decide) (by decide)).2

theorem ignoresCase_hyphens {count : Nat} :
    ∀ item ∈ List.replicate count (ClassSet.literal '-'), item.IgnoresCase := by
  intro item hitem
  rw [List.eq_of_mem_replicate hitem]
  exact .literal (by decide)

/-- What a class starts with, where splitting sees it open. -/
theorem Opened.quiet {negated : Bool} {items : List ClassSet} {rest : List Char}
    (h : Opened cs negated items left rest) (hquiet : QuietOpened cs) :
    (∀ item ∈ items, item.IgnoresCase) ∧ StaysQuiet 0 left := by
  obtain ⟨rfl, hhead, hcases⟩ := h
  rcases hcases with ⟨rfl, rfl⟩ | ⟨count, rfl, rfl, -, hclose⟩
  · exact ⟨List.forall_mem_singleton.mpr (.literal (by decide)), 0, Nat.le_refl 0, hquiet.bracket negated⟩
  · have hfirst : (List.replicate count '-' ++ left).head? ≠ some ']' := by
      cases count with
      | zero => exact hclose rfl
      | succ count => exact fun heq => absurd (Option.some.inj heq) (by decide)
    have hmembers : StaysQuiet 0 (List.replicate count '-' ++ left) :=
      ⟨0, Nat.le_refl 0, hquiet.members negated hfirst hhead⟩
    exact ⟨ignoresCase_hyphens, hmembers.hyphens⟩

/-- What a class starts with, where splitting is in another one. -/
theorem Opened.quiet_inside {negated : Bool} {items : List ClassSet} {rest : List Char}
    (h : Opened cs negated items left rest) (hquiet : StaysQuiet depth cs)
    (hclose : cs.head? ≠ some ']') (hcaret : ∀ rest, cs ≠ '^' :: ']' :: rest) :
    (∀ item ∈ items, item.IgnoresCase) ∧ StaysQuiet depth left := by
  obtain ⟨rfl, -, hcases⟩ := h
  rcases hcases with ⟨rfl, -⟩ | ⟨count, rfl, rfl, -⟩
  · cases negated with
    | false => exact absurd rfl hclose
    | true => exact absurd rfl (hcaret left)
  · have hmembers : StaysQuiet depth (List.replicate count '-' ++ left) := by
      cases negated with
      | false => exact hquiet
      | true => exact (hquiet.member (by decide) (by decide) (by decide)).2
    exact ⟨ignoresCase_hyphens, hmembers.hyphens⟩

/-- The name of a named class is spelt with letters. -/
theorem not_quiet_posix {item : ClassSet} (hquiet : StaysQuiet depth cs)
    (h : parsePosix? cs = some (item, left)) : False := by
  obtain ⟨negated, name, kind, rfl, hkind, -⟩ := parsePosix_eq_some h
  have hname : StaysQuiet depth (name ++ ':' :: ']' :: left) := by
    have hsign := (hquiet.member (by decide) (by decide) (by decide)).2
    cases negated with
    | false => exact hsign
    | true => exact (hsign.member (by decide) (by decide) (by decide)).2
  have hfirst : posixNames.all (fun known => known.toList.head?.any isCased) = true := by
    decide +kernel
  have hcased := List.all_eq_true.mp hfirst _ (mem_posixNames hkind)
  rw [String.toList_ofList] at hcased
  cases name with
  | nil => cases hcased
  | cons c name =>
    have hcased : isCased c = true := hcased
    have hne : ∀ d, isCased d = false → c ≠ d := by
      rintro d hd rfl
      exact absurd (hd.symm.trans hcased) Bool.false_ne_true
    have hmember := hname.member (hne _ (by decide)) (hne _ (by decide)) (hne _ (by decide))
    exact absurd (hmember.1.symm.trans hcased) Bool.false_ne_true

/-- Splitting has left the class, or one more that it sees around it. -/
def LeavesQuiet (depth : Nat) (cs : List Char) : Prop :=
  ∃ more, depth ≤ more ∧ Quiet (if more = 0 then none else some (more - 1)) cs

theorem LeavesQuiet.staysQuiet (h : LeavesQuiet (depth + 1) cs) : StaysQuiet depth cs := by
  obtain ⟨more, hmore, h⟩ := h
  rw [if_neg (by omega)] at h
  exact ⟨more - 1, by omega, h⟩

/-- The members of a class in which nothing cased is spelt. The induction
is on the members, where splitting stays in the class. -/
theorem ignoresCase_of_parseMembers {steps : Nat} {pending : Option (ClassOp × ClassSet)}
    {items : List ClassSet} {set : ClassSet} (hquiet : StaysQuiet depth cs)
    (hpending : ∀ before, pending = some before → before.2.IgnoresCase)
    (hitems : ∀ item ∈ items, item.IgnoresCase)
    (h : parseMembers? false steps pending items cs = some (set, left)) :
    set.IgnoresCase ∧ LeavesQuiet depth left := by
  induction steps generalizing pending items cs set left depth with
  | zero => cases h
  | succ steps ih =>
    cases parseMembers_eq_some h with
    | close hcs hset =>
      subst hcs hset
      obtain ⟨more, hmore, hquiet⟩ := hquiet
      exact ⟨.closeOperand hpending hitems, more, hmore, hquiet.close_inside⟩
    | @op c op rest hop hcs hrest =>
      subst hcs
      have hc : c ≠ '\\' ∧ c ≠ '[' ∧ c ≠ ']' := by
        refine ⟨?_, ?_, ?_⟩ <;> rintro rfl <;> cases hop
      have hafter := ((hquiet.member hc.1 hc.2.1 hc.2.2).2.member hc.1 hc.2.1 hc.2.2).2
      refine ih hafter ?_ (List.forall_mem_nil _) hrest
      rintro before ⟨⟩
      exact .closeOperand hpending hitems
    | posix hcs hposix _ =>
      subst hcs
      obtain ⟨more, hmore, hquiet⟩ := hquiet
      exact (not_quiet_posix ⟨more + 1, Nat.le_refl _, hquiet.open_inside.1⟩ hposix).elim
    | @nested negated _ _ _ _ _ hcs _ hopen hbody hrest =>
      subst hcs
      obtain ⟨more, hmore, hquiet⟩ := hquiet
      obtain ⟨hinside, hclose, hcaret⟩ := hquiet.open_inside
      obtain ⟨rest, hopened⟩ := openClass_eq_some hopen
      obtain ⟨hinner, hopened⟩ :=
        hopened.quiet_inside ⟨more + 1, Nat.succ_le_succ hmore, hinside⟩ hclose hcaret
      obtain ⟨hset, hleft⟩ := ih hopened (by rintro _ ⟨⟩)
        (fun item hitem => hinner item (List.mem_reverse.mp hitem)) hbody
      exact ih hleft.staysQuiet hpending
        (List.forall_mem_cons.mpr ⟨hset.bracket negated, hitems⟩) hrest
    | item hcs _ hclose _ hrange hrest =>
      subst hcs
      obtain ⟨hitem, hafter⟩ := hrange.ignoresCase hquiet fun heq => hclose (Option.some.inj heq)
      exact ih hafter hpending (List.forall_mem_cons.mpr ⟨hitem, hitems⟩) hrest

/-- A class in which nothing cased is spelt ignores case, and nothing
cased is seen after it. -/
theorem ignoresCase_of_parseClass {set : ClassSet} (hquiet : QuietFrom ('[' :: cs))
    (h : parseClass? false cs = some (set, left)) : set.IgnoresCase ∧ QuietFrom left := by
  obtain ⟨⟨negated, items, opened⟩, hopen, h⟩ := Option.bind_eq_some_iff.mp h
  obtain ⟨⟨body, after⟩, hbody, heq⟩ := Option.bind_eq_some_iff.mp h
  cases heq
  obtain ⟨rest, hopened⟩ := openClass_eq_some hopen
  have hinside : (∀ item ∈ items, item.IgnoresCase) ∧ StaysQuiet 0 opened := by
    rcases hquiet.bracket with hstart | ⟨depth, hstart, hclose, hcaret⟩
    · exact hopened.quiet hstart
    · exact hopened.quiet_inside ⟨depth + 1, Nat.zero_le _, hstart⟩ hclose hcaret
  obtain ⟨hset, more, -, hleft⟩ := ignoresCase_of_parseMembers hinside.2
    (by rintro _ ⟨⟩)
    (fun item hitem => hinside.1 item (List.mem_reverse.mp hitem)) hbody
  exact ⟨hset.bracket negated, _, hleft⟩

end Highlighter.Regex
