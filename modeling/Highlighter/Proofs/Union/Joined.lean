import Highlighter.Proofs.Union.Renumber

/-!
# A union as one expression

The members of a union, numbered one after another, are the branches
of an expression (`joint`). It is well-formed if its members are
(`wellFormed_joint`), each of its groups is referred to
(`refersTo_joint`), and it matches as the first member does that
matches, or else any character (`stop?_joint`).
-/

set_option autoImplicit false

namespace Highlighter.Union

open Pattern Regex

/-- A union as one expression. -/
def joint (list : List Member) : Expr := branched (joinedFrom 0 list)

/-! ### Well-formed members -/

section Renumber

variable (base : Nat) (kept : List Nat) (opened : Nat) (expr : Expr)

/-- Renumbering keeps what a text starts with. -/
theorem head?_renumber : (expr.renumber base kept opened).render.head? = expr.render.head? := by
  induction expr generalizing opened with
  | capture body =>
    rw [Expr.renumber]
    split <;> rfl
  | seq first second ihFirst ihSecond =>
    simp only [Expr.renumber, Expr.render, List.head?_append, ihFirst, ihSecond]
  | alt first second ihFirst =>
    simp only [Expr.renumber, Expr.render, List.head?_append, ihFirst, List.head?_cons]
  | repeated count greedy body ih =>
    simp only [Expr.renumber, Expr.render, List.head?_append, ih]
  | _ => rfl

theorem isEmpty_renumber :
    (expr.renumber base kept opened).render.isEmpty = expr.render.isEmpty := by
  rw [Bool.eq_iff_iff, List.isEmpty_iff, List.isEmpty_iff, ← List.head?_eq_none_iff,
    head?_renumber, List.head?_eq_none_iff]

/-- Renumbering keeps what sort of part a pattern is. -/
theorem sort_renumber :
    ((expr.renumber base kept opened).isRow = expr.isRow ∧
        (expr.renumber base kept opened).isItem = expr.isItem) ∧
      (expr.renumber base kept opened).isNumber = expr.isNumber ∧
        (expr.renumber base kept opened).isBoundary = expr.isBoundary := by
  cases expr with
  | capture body =>
    rw [Expr.renumber]
    split <;> exact ⟨⟨rfl, rfl⟩, rfl, rfl⟩
  | _ => exact ⟨⟨rfl, rfl⟩, rfl, rfl⟩

/-- Renumbering keeps what a text ends in. -/
theorem endsIn_renumber {is : Expr → Bool}
    (h : ∀ opened expr, is (Expr.renumber base kept opened expr) = is expr) :
    (expr.renumber base kept opened).endsIn is = expr.endsIn is := by
  induction expr generalizing opened with
  | capture body =>
    have hcapture := h opened (.capture body)
    rw [Expr.renumber] at hcapture ⊢
    by_cases hkept : kept.contains (opened + 1) = true
    · rw [if_pos hkept] at hcapture ⊢
      exact hcapture
    · rw [if_neg hkept] at hcapture ⊢
      exact hcapture
  | seq first second ihFirst ihSecond =>
    simp only [Expr.renumber, Expr.endsIn, ihFirst, ihSecond, isEmpty_renumber]
  | alt first second ihFirst ihSecond => exact ihSecond _
  | _ => exact h opened _

/-- Renumbering keeps a pattern apart from what follows. -/
theorem apart_renumber {rest rest' : List Char} (hhead : rest.head? = rest'.head?)
    (h : expr.Apart rest') : (expr.renumber base kept opened).Apart rest := by
  have hnumber := endsIn_renumber base kept opened expr fun opened expr =>
    (sort_renumber base kept opened expr).2.1
  have hboundary := endsIn_renumber base kept opened expr fun opened expr =>
    (sort_renumber base kept opened expr).2.2
  unfold Expr.Apart at h ⊢
  rw [hnumber, hboundary, hhead]
  exact h

/-- Renumbering keeps a pattern well-formed. -/
theorem wellFormed_renumber (h : expr.WellFormed) :
    (expr.renumber base kept opened).WellFormed := by
  have hsort := fun opened expr => sort_renumber base kept opened expr
  induction expr generalizing opened with
  | capture body ih =>
    rw [Expr.renumber]
    split
    · exact ih (opened + 1) h
    · exact ih (opened + 1) h
  | bare body ih => exact ih opened h
  | ignoring body ih => exact ih opened h
  | look behind negated body ih => exact ih opened h
  | seq first second ihFirst ihSecond =>
    obtain ⟨⟨hrow, hrow'⟩, ⟨hfirst, hsecond⟩, happart⟩ := h
    refine ⟨⟨?_, ?_⟩, ⟨ihFirst _ hfirst, ihSecond _ hsecond⟩, ?_⟩
    · rw [(hsort _ first).1.1, hrow]
    · rw [(hsort _ second).1.1, hrow']
    · exact apart_renumber base kept opened first (head?_renumber base kept _ second) happart
  | alt first second ihFirst ihSecond =>
    obtain ⟨hrow, hfirst, hsecond⟩ := h
    refine ⟨?_, ihFirst _ hfirst, ihSecond _ hsecond⟩
    rw [(hsort _ first).1.1, hrow]
  | repeated count greedy body ih =>
    obtain ⟨⟨hitem, hcount⟩, hbody, hboundary⟩ := h
    refine ⟨⟨?_, hcount⟩, ih opened hbody, ?_⟩
    · rw [(hsort _ body).1.2, hitem]
    · rw [(hsort _ body).2.2]
      exact hboundary
  | _ => exact h

end Renumber

theorem wellFormed_afterStart {expr : Expr} (h : expr.WellFormed) : expr.afterStart.WellFormed := by
  have hrow : ∀ {expr : Expr}, expr.isRow = true → expr.WellFormed →
      (Expr.seq .textStart expr).WellFormed :=
    fun hrow hwf => ⟨⟨rfl, hrow⟩, ⟨trivial, hwf⟩, fun hends => (nomatch hends),
      fun hends => nomatch hends⟩
  cases expr with
  | alt first second =>
    obtain ⟨hfirst, hwf, hsecond⟩ := h
    have heq : first.afterStart = .seq .textStart first := by
      cases first <;> first | rfl | cases hfirst
    refine ⟨?_, ?_, hsecond⟩
    · rw [heq]
      rfl
    · rw [heq]
      exact hrow hfirst hwf
  | _ => exact hrow rfl h

theorem refsOpened_afterStart {expr : Expr} {opened : Nat} (h : expr.RefsOpened opened) :
    expr.afterStart.RefsOpened opened := by
  induction expr with
  | alt first second ihFirst =>
    refine ⟨ihFirst h.1, ?_⟩
    rw [Expr.captures_afterStart]
    exact h.2
  | _ => exact ⟨trivial, h⟩

namespace Member

variable {member : Member}

theorem wellFormed_expr (h : member.Valid) : member.expr.WellFormed := by
  obtain ⟨lead, body, ignoreCase⟩ := member
  cases lead with
  | doubled => exact wellFormed_afterStart h.wellFormed
  | _ => exact h.wellFormed

theorem refsOpened_expr (h : member.Valid) : member.expr.RefsOpened 0 := by
  obtain ⟨lead, body, ignoreCase⟩ := member
  cases lead with
  | doubled => exact refsOpened_afterStart h.refsOpened
  | _ => exact h.refsOpened

theorem wellFormed_joined (h : member.Valid) (base : Nat) : (member.joined base).WellFormed :=
  wellFormed_renumber base _ 0 _ (wellFormed_expr h)

end Member

/-- Branches are well-formed together. -/
theorem wellFormed_branched {exprs : List Expr} (h : ∀ expr ∈ exprs, expr.WellFormed) :
    (branched exprs).WellFormed := by
  induction exprs with
  | nil => trivial
  | cons expr exprs ih =>
    obtain ⟨hexpr, hexprs⟩ := List.forall_mem_cons.mp h
    exact ⟨rfl, hexpr, ih hexprs⟩

/-- What holds of the branches of all members, wherever they stand. -/
theorem forall_mem_spelt (spell : Member → Expr → Expr) {motive : Expr → Prop}
    {list : List Member} (h : ∀ member ∈ list, ∀ base, motive (spell member (member.joined base)))
    (base : Nat) : ∀ expr ∈ List.zipWith spell list (joinedFrom base list), motive expr := by
  induction list generalizing base with
  | nil => exact fun expr hexpr => nomatch hexpr
  | cons member list ih =>
    obtain ⟨hmember, hlist⟩ := List.forall_mem_cons.mp h
    exact List.forall_mem_cons.mpr ⟨hmember base, ih hlist _⟩

/-- A union of valid members is well-formed. -/
theorem wellFormed_joint {list : List Member} (h : ∀ member ∈ list, member.Valid) :
    (joint list).WellFormed := by
  have hall := forall_mem_spelt (fun _ expr => expr)
    (fun member hmember => Member.wellFormed_joined (h member hmember)) 0
  rw [zipWith_joinedFrom] at hall
  exact wellFormed_branched hall

/-! ### Groups -/

/-- What a renumbered pattern refers to are the new numbers of what it
referred to. -/
theorem refersTo_renumber (base : Nat) (kept : List Nat) (opened : Nat) (expr : Expr)
    (group : Nat) :
    (expr.renumber base kept opened).refersTo group = true
      ↔ ∃ number, expr.refersTo number = true ∧ base + kept.idxOf number + 1 = group := by
  induction expr generalizing opened with
  | capture body ih =>
    rw [Expr.renumber]
    split <;> exact ih _
  | bare body ih => exact ih _
  | ignoring body ih => exact ih _
  | look behind negated body ih => exact ih _
  | repeated count greedy body ih => exact ih _
  | backref number => simp [Expr.renumber, Expr.refersTo]
  | seq first second ihFirst ihSecond =>
    simp only [Expr.renumber, Expr.refersTo, Bool.or_eq_true, ihFirst, ihSecond, or_and_right,
      exists_or]
  | alt first second ihFirst ihSecond =>
    simp only [Expr.renumber, Expr.refersTo, Bool.or_eq_true, ihFirst, ihSecond, or_and_right,
      exists_or]
  | _ => simp [Expr.renumber, Expr.refersTo]

theorem pairwise_targets (expr : Expr) : expr.targets.Pairwise (· < ·) :=
  List.Pairwise.filter _ List.pairwise_lt_range

namespace Member

variable {member : Member}

/-- References are to groups of the member. -/
theorem bounds_of_mem_targets (h : member.Valid) :
    ∀ group ∈ member.expr.targets, 1 ≤ group ∧ group ≤ 0 + member.expr.captures :=
  fun _ hgroup => lt_of_refersTo (refsOpened_expr h) ((mem_targets (refsOpened_expr h)).mp hgroup)

theorem countP_targets_zero (h : member.Valid) : member.expr.targets.countP (· ≤ 0) = 0 := by
  refine List.countP_eq_zero.mpr fun group hgroup hle => ?_
  have hpos := (bounds_of_mem_targets h group hgroup).1
  exact absurd (of_decide_eq_true hle) (Nat.not_le.mpr hpos)

/-- A member captures as many groups as it refers to. -/
theorem captures_joined (h : member.Valid) (base : Nat) :
    (member.joined base).captures = member.expr.targets.length := by
  have hcount := captures_renumber (pairwise_targets member.expr) base 0 member.expr
  have hall : member.expr.targets.countP (· ≤ 0 + member.expr.captures)
      = member.expr.targets.length :=
    List.countP_eq_length.mpr fun group hgroup =>
      decide_eq_true (bounds_of_mem_targets h group hgroup).2
  rw [countP_targets_zero h, hall, Nat.zero_add] at hcount
  exact hcount

/-- A member refers to all groups that it has in a union. -/
theorem refersTo_joined (h : member.Valid) (base group : Nat) :
    (member.joined base).refersTo group = true
      ↔ base < group ∧ group ≤ base + member.expr.targets.length := by
  have hnodup : member.expr.targets.Nodup :=
    (pairwise_targets member.expr).imp Nat.ne_of_lt
  rw [joined, refersTo_renumber]
  constructor
  · rintro ⟨number, hnumber, rfl⟩
    have hlt := List.idxOf_lt_length_iff.mpr ((mem_targets (refsOpened_expr h)).mpr hnumber)
    omega
  · rintro ⟨hlt, hle⟩
    have hindex : group - base - 1 < member.expr.targets.length := by omega
    refine ⟨member.expr.targets[group - base - 1], ?_, ?_⟩
    · exact (mem_targets (refsOpened_expr h)).mp (List.getElem_mem hindex)
    · rw [List.Nodup.idxOf_getElem hnodup]
      omega

end Member

theorem captures_branched_cons {member : Member} (h : member.Valid) (base : Nat)
    (list : List Member) :
    (branched (joinedFrom base (member :: list))).captures
      = member.expr.targets.length
        + (branched (joinedFrom (base + member.expr.targets.length) list)).captures := by
  show (member.joined base).captures + _ = _
  rw [Member.captures_joined h base]

/-- The groups of the branches are those that they refer to. -/
theorem refersTo_branched {list : List Member} (h : ∀ member ∈ list, member.Valid)
    (base group : Nat) :
    (branched (joinedFrom base list)).refersTo group = true
      ↔ base < group ∧ group ≤ base + (branched (joinedFrom base list)).captures := by
  induction list generalizing base with
  | nil =>
    refine ⟨fun hrefers => (nomatch hrefers), fun hbounds => ?_⟩
    have hle : group ≤ base + 0 := hbounds.2
    omega
  | cons member list ih =>
    have hmember := h member List.mem_cons_self
    have hrest := ih (fun other hother => h other (List.mem_cons_of_mem member hother))
      (base + member.expr.targets.length)
    rw [captures_branched_cons hmember]
    show ((member.joined base).refersTo group || _) = true ↔ _
    rw [Bool.or_eq_true, Member.refersTo_joined hmember, hrest]
    omega

/-- Each group of a union is referred to. -/
theorem refersTo_joint {list : List Member} (h : ∀ member ∈ list, member.Valid) (group : Nat) :
    (joint list).refersTo group = true ↔ 1 ≤ group ∧ group ≤ (joint list).captures := by
  have hbranched := refersTo_branched h 0 group
  rw [Nat.zero_add] at hbranched
  exact hbranched

/-! ### Ways -/

/-- A member matches in a union as it does on its own. -/
theorem Member.head_joined {member : Member} (h : member.Valid) (sense : Sense)
    (ignoreCase : Bool) (base pos : Nat) :
    ((member.joined base).ways sense ignoreCase base (pos, Marks.none)).head?.map Prod.fst
      = member.expr.stop? sense ignoreCase pos := by
  have hrefs : ∀ number, member.expr.refersTo number = true → number ∈ member.expr.targets :=
    fun number hnumber => (mem_targets (refsOpened_expr h)).mpr hnumber
  have hstart : Renamed base member.expr.targets (pos, Marks.none) (pos, Marks.none) :=
    ⟨rfl, fun _ _ => ⟨rfl, rfl⟩⟩
  have hagree := ways_renumber sense (pairwise_targets member.expr) base hrefs ignoreCase 0 hstart
  rw [countP_targets_zero h, Nat.add_zero] at hagree
  exact (hagree.head?_map fun _ _ hsame => hsame.1).symm

/-- Where the first of the patterns stops that matches at a position. -/
def firstStop? (sense : Sense) (list : List Member) (pos : Nat) : Option Nat :=
  list.findSome? fun member => member.expr.stop? sense member.ignoreCase pos

/-- The first pattern is asked before the others. -/
theorem firstStop?_cons (sense : Sense) (member : Member) (list : List Member) (pos : Nat) :
    firstStop? sense (member :: list) pos
      = (member.expr.stop? sense member.ignoreCase pos).or (firstStop? sense list pos) := by
  unfold firstStop?
  rw [List.findSome?_cons]
  cases member.expr.stop? sense member.ignoreCase pos <;> rfl

section Ways

variable {sense : Sense} {ignoreCase : Bool} {pos : Nat} (hpos : pos < sense.text.size)

include hpos

/-- Branches match as the first member does whose branch matches, or
else any character. How a branch is spelt is up to its member. -/
theorem head_branched {list : List Member} (h : ∀ member ∈ list, member.Valid)
    {spell : Member → Expr → Expr}
    (hcaptures : ∀ member expr, (spell member expr).captures = expr.captures)
    (hhead : ∀ member ∈ list, ∀ base,
      ((spell member (member.joined base)).ways sense ignoreCase base (pos, Marks.none)).head?.map
        Prod.fst = member.expr.stop? sense member.ignoreCase pos) (base : Nat) :
    ((branched (List.zipWith spell list (joinedFrom base list))).ways sense ignoreCase base
        (pos, Marks.none)).head?.map Prod.fst
      = (firstStop? sense list pos).or (some (pos + 1)) := by
  induction list generalizing base with
  | nil =>
    show (Ways.one sense.text (fun _ => true) (pos, Marks.none)).head?.map Prod.fst = _
    unfold Ways.one
    rw [Array.getElem?_eq_getElem hpos]
    rfl
  | cons member list ih =>
    obtain ⟨hmember, hlist⟩ := List.forall_mem_cons.mp h
    obtain ⟨hfirst, hothers⟩ := List.forall_mem_cons.mp hhead
    have hrest := ih hlist hothers (base + member.expr.targets.length)
    have hopened : (spell member (member.joined base)).captures = member.expr.targets.length :=
      (hcaptures member _).trans (Member.captures_joined hmember base)
    rw [joinedFrom, List.zipWith_cons_cons, branched, Expr.ways, Expr.captures, hopened,
      List.head?_append, Option.map_or, hrest, firstStop?_cons, Option.or_assoc]
    exact congrArg (Option.or · _) (hfirst base)

/-- A union matches as the first of its members that matches, or else
any character. -/
theorem stop?_joint {list : List Member} (h : ∀ member ∈ list, member.Valid)
    (hcase : ∀ member ∈ list, member.expr.stop? sense ignoreCase pos
      = member.expr.stop? sense member.ignoreCase pos) :
    (joint list).stop? sense ignoreCase pos
      = (firstStop? sense list pos).or (some (pos + 1)) := by
  have hbranched := head_branched hpos h (fun _ _ => rfl) (fun member hmember base =>
    (Member.head_joined (h member hmember) sense ignoreCase base pos).trans
      (hcase member hmember)) 0
  rw [zipWith_joinedFrom] at hbranched
  exact hbranched

end Ways

end Highlighter.Union
