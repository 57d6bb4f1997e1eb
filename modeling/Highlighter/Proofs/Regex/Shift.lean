import Highlighter.Proofs.Regex.Run

/-!
# Groups that are numbered later

In a union, the groups of a member are numbered after those of the members before it. `Node.shift`
adds their number to every group of a node, and a node matches in the same ways then, with its
groups in later slots (`Node.agree_ways_shift`). The first two slots are those of the whole match,
and are left where they are.
-/

set_option autoImplicit false

namespace Highlighter.Regex

/-! ### Shifted nodes -/

/-- The node with all groups numbered `base` later. -/
def Node.shift (base : Nat) : Node → Node
  | seq first second => seq (first.shift base) (second.shift base)
  | alt first second => alt (first.shift base) (second.shift base)
  | group index body => group (base + index) (body.shift base)
  | exactly count body => exactly count (body.shift base)
  | upTo count greedy body => upTo count greedy (body.shift base)
  | more greedy body => more greedy (body.shift base)
  | plus greedy body => plus greedy (body.shift base)
  | backref index => backref (base + index)
  | groupSet index => groupSet (base + index)
  | ahead body => ahead (body.shift base)
  | notAhead body => notAhead (body.shift base)
  | behind count body => behind count (body.shift base)
  | notBehind count body => notBehind count (body.shift base)
  | atomic body => atomic (body.shift base)
  | once lo hi body =>
    if lo < hi then once (base + lo) (base + hi) (body.shift base) else once lo hi (body.shift base)
  | cond condition yes no => cond (condition.shift base) (yes.shift base) (no.shift base)
  | node => node

/-- All groups of a node are numbered from 1 to `groups`. -/
def Node.Within (groups : Nat) : Node → Prop
  | seq first second | alt first second => first.Within groups ∧ second.Within groups
  | group index body => (1 ≤ index ∧ index ≤ groups) ∧ body.Within groups
  | exactly _ body | upTo _ _ body | more _ body | plus _ body => body.Within groups
  | backref index | groupSet index => 1 ≤ index ∧ index ≤ groups
  | ahead body | notAhead body | behind _ body | notBehind _ body => body.Within groups
  | atomic body => body.Within groups
  | once lo hi body => (lo < hi → 1 ≤ lo) ∧ body.Within groups
  | cond condition yes no => condition.Within groups ∧ yes.Within groups ∧ no.Within groups
  | _ => True

theorem Node.Within.mono {groups more : Nat} (hle : groups ≤ more) {node : Node}
    (h : node.Within groups) : node.Within more := by
  induction node with
  | seq first second ih ih' => exact ⟨ih h.1, ih' h.2⟩
  | alt first second ih ih' => exact ⟨ih h.1, ih' h.2⟩
  | group index body ih => exact ⟨⟨h.1.1, Nat.le_trans h.1.2 hle⟩, ih h.2⟩
  | backref index => exact ⟨h.1, Nat.le_trans h.2 hle⟩
  | groupSet index => exact ⟨h.1, Nat.le_trans h.2 hle⟩
  | once lo hi body ih => exact ⟨h.1, ih h.2⟩
  | cond condition yes no ih ih' ih'' => exact ⟨ih h.1, ih' h.2.1, ih'' h.2.2⟩
  | exactly _ _ ih | upTo _ _ _ ih | more _ _ ih | plus _ _ ih => exact ih h
  | ahead _ ih | notAhead _ ih | behind _ _ ih | notBehind _ _ ih | atomic _ ih => exact ih h
  | _ => trivial

/-! ### Combined nodes -/

theorem Node.shift_seqAll (base : Nat) (nodes : List Node) :
    (Node.seqAll nodes).shift base = Node.seqAll (nodes.map (Node.shift base)) := by
  induction nodes with
  | nil => rfl
  | cons node rest ih =>
    cases rest with
    | nil => rfl
    | cons second rest => exact congrArg (Node.seq (node.shift base)) ih

theorem Node.shift_altAll (base : Nat) (nodes : List Node) :
    (Node.altAll nodes).shift base = Node.altAll (nodes.map (Node.shift base)) := by
  induction nodes with
  | nil => rfl
  | cons node rest ih =>
    cases rest with
    | nil => rfl
    | cons second rest => exact congrArg (Node.alt (node.shift base)) ih

theorem Node.within_seqAll {groups : Nat} (nodes : List Node)
    (h : ∀ node ∈ nodes, node.Within groups) : (Node.seqAll nodes).Within groups := by
  induction nodes with
  | nil => trivial
  | cons node rest ih =>
    obtain ⟨hnode, hrest⟩ := List.forall_mem_cons.mp h
    cases rest with
    | nil => exact hnode
    | cons second rest => exact ⟨hnode, ih hrest⟩

theorem Node.within_altAll {groups : Nat} (nodes : List Node)
    (h : ∀ node ∈ nodes, node.Within groups) : (Node.altAll nodes).Within groups := by
  induction nodes with
  | nil => trivial
  | cons node rest ih =>
    obtain ⟨hnode, hrest⟩ := List.forall_mem_cons.mp h
    cases rest with
    | nil => exact hnode
    | cons second rest => exact ⟨hnode, ih hrest⟩

theorem Node.consumesNothing_shift (base : Nat) (node : Node) :
    (node.shift base).consumesNothing = node.consumesNothing := by
  induction node with
  | once lo hi body ih =>
    rw [Node.shift]
    split <;> simp_all [Node.consumesNothing]
  | _ => simp_all [Node.shift, Node.consumesNothing]

theorem Node.shift_repeated (base min : Nat) (max : Option Nat) (greedy : Bool) (body : Node) :
    (Node.repeated min max greedy body).shift base
      = Node.repeated min max greedy (body.shift base) := by
  have hstar : (Node.star greedy body).shift base = Node.star greedy (body.shift base) := by
    cases greedy <;> rfl
  unfold Node.repeated
  split
  · exact hstar
  · rfl
  · rfl
  · rfl
  · split <;> rfl

theorem Node.within_repeated {groups min : Nat} {max : Option Nat} {greedy : Bool} {body : Node}
    (h : body.Within groups) : (Node.repeated min max greedy body).Within groups := by
  have hstar : (Node.star greedy body).Within groups := by
    cases greedy
    · exact ⟨trivial, h⟩
    · exact ⟨h, trivial⟩
  unfold Node.repeated
  split
  · exact hstar
  · exact h
  · exact ⟨h, h⟩
  · exact h
  · split
    · exact h
    · exact ⟨h, h⟩

/-! ### Slots -/

/-- The slots of groups from 1 to `groups` are found `base` groups later, and both know where the
match started. -/
structure Slots.Shifted (base groups : Nat) (slots later : Slots) : Prop where
  size : 2 * groups + 1 < slots.size
  size_later : 2 * (base + groups) + 1 < later.size
  first : later[0]? = slots[0]?
  start : ∀ index, 1 ≤ index → index ≤ groups → later[2 * (base + index)]? = slots[2 * index]?
  stop : ∀ index, 1 ≤ index → index ≤ groups →
    later[2 * (base + index) + 1]? = slots[2 * index + 1]?

namespace Slots.Shifted

variable {base groups index : Nat} {slots later : Slots} (h : Slots.Shifted base groups slots later)

include h

theorem set_start (value : Option Nat) (hpos : 1 ≤ index) (hle : index ≤ groups) :
    Slots.Shifted base groups (slots.setIfInBounds (2 * index) value)
      (later.setIfInBounds (2 * (base + index)) value) := by
  have hsize := h.size
  have hlater := h.size_later
  refine ⟨by simpa using hsize, by simpa using hlater, ?_, fun other hother hbound => ?_,
    fun other hother hbound => ?_⟩
  · rw [Array.getElem?_setIfInBounds_ne (by omega), Array.getElem?_setIfInBounds_ne (by omega)]
    exact h.first
  · by_cases heq : other = index
    · subst heq
      rw [Array.getElem?_setIfInBounds_self_of_lt (by omega),
        Array.getElem?_setIfInBounds_self_of_lt (by omega)]
    · rw [Array.getElem?_setIfInBounds_ne (by omega), Array.getElem?_setIfInBounds_ne (by omega)]
      exact h.start other hother hbound
  · rw [Array.getElem?_setIfInBounds_ne (by omega), Array.getElem?_setIfInBounds_ne (by omega)]
    exact h.stop other hother hbound

theorem set_stop (value : Option Nat) (hpos : 1 ≤ index) (hle : index ≤ groups) :
    Slots.Shifted base groups (slots.setIfInBounds (2 * index + 1) value)
      (later.setIfInBounds (2 * (base + index) + 1) value) := by
  have hsize := h.size
  have hlater := h.size_later
  refine ⟨by simpa using hsize, by simpa using hlater, ?_, fun other hother hbound => ?_,
    fun other hother hbound => ?_⟩
  · rw [Array.getElem?_setIfInBounds_ne (by omega), Array.getElem?_setIfInBounds_ne (by omega)]
    exact h.first
  · rw [Array.getElem?_setIfInBounds_ne (by omega), Array.getElem?_setIfInBounds_ne (by omega)]
    exact h.start other hother hbound
  · by_cases heq : other = index
    · subst heq
      rw [Array.getElem?_setIfInBounds_self_of_lt (by omega),
        Array.getElem?_setIfInBounds_self_of_lt (by omega)]
    · rw [Array.getElem?_setIfInBounds_ne (by omega), Array.getElem?_setIfInBounds_ne (by omega)]
      exact h.stop other hother hbound

/-- The first two slots are those of the whole match. -/
theorem set_whole (index : Nat) (value : Option Nat) (hindex : index < 2) :
    Slots.Shifted base groups (slots.setIfInBounds index value)
      (later.setIfInBounds index value) := by
  have hsize := h.size
  have hlater := h.size_later
  refine ⟨by simpa using hsize, by simpa using hlater, ?_, fun other hother hbound => ?_,
    fun other hother hbound => ?_⟩
  · by_cases heq : index = 0
    · subst heq
      rw [Array.getElem?_setIfInBounds_self_of_lt (by omega),
        Array.getElem?_setIfInBounds_self_of_lt (by omega)]
    · rw [Array.getElem?_setIfInBounds_ne (by omega), Array.getElem?_setIfInBounds_ne (by omega)]
      exact h.first
  · rw [Array.getElem?_setIfInBounds_ne (by omega), Array.getElem?_setIfInBounds_ne (by omega)]
    exact h.start other hother hbound
  · rw [Array.getElem?_setIfInBounds_ne (by omega), Array.getElem?_setIfInBounds_ne (by omega)]
    exact h.stop other hother hbound

end Slots.Shifted

theorem Slots.getElem?_fresh (slots : Slots) {lo hi : Nat} (h : lo < hi) (index : Nat) :
    (slots.fresh lo hi)[index]?
      = slots[index]?.map fun slot => if 2 * lo ≤ index && index < 2 * hi then none else slot := by
  rw [Slots.fresh, if_pos h, Array.getElem?_mapIdx]

theorem Slots.Shifted.fresh {base groups lo hi : Nat} {slots later : Slots}
    (h : Slots.Shifted base groups slots later) (hlt : lo < hi) (hlo : 1 ≤ lo) :
    Slots.Shifted base groups (slots.fresh lo hi) (later.fresh (base + lo) (base + hi)) := by
  have hlater : base + lo < base + hi := by omega
  have hsize : ∀ (slots : Slots) (lo hi : Nat), (slots.fresh lo hi).size = slots.size := by
    intro slots lo hi
    unfold Slots.fresh
    split
    · exact Array.size_mapIdx
    · rfl
  refine ⟨by rw [hsize]; exact h.size, by rw [hsize]; exact h.size_later, ?_,
    fun index hpos hle => ?_, fun index hpos hle => ?_⟩
  · rw [getElem?_fresh _ hlater, getElem?_fresh _ hlt, h.first]
    congr 1
    funext slot
    simp [show ¬ 2 * (base + lo) ≤ 0 by omega, show ¬ 2 * lo ≤ 0 by omega]
  · rw [getElem?_fresh _ hlater, getElem?_fresh _ hlt, h.start index hpos hle]
    congr 1
    funext slot
    have hiff : (2 * (base + lo) ≤ 2 * (base + index) && 2 * (base + index) < 2 * (base + hi))
        = (2 * lo ≤ 2 * index && 2 * index < 2 * hi) := by
      rw [Bool.eq_iff_iff]
      simp only [Bool.and_eq_true, decide_eq_true_eq]
      omega
    rw [hiff]
  · rw [getElem?_fresh _ hlater, getElem?_fresh _ hlt, h.stop index hpos hle]
    congr 1
    funext slot
    have hiff : (2 * (base + lo) ≤ 2 * (base + index) + 1 &&
        2 * (base + index) + 1 < 2 * (base + hi))
          = (2 * lo ≤ 2 * index + 1 && 2 * index + 1 < 2 * hi) := by
      rw [Bool.eq_iff_iff]
      simp only [Bool.and_eq_true, decide_eq_true_eq]
      omega
    rw [hiff]

/-! ### Ways -/

namespace Agree

variable {α β : Type} {R : α → β → Prop} {xs : List α} {ys : List β}

/-- What goes on with the best way only. -/
theorem of_head {α' β' : Type} {R' : α' → β' → Prop} {f : α → List α'} {g : β → List β'}
    {xs' : List α'} {ys' : List β'} (h : Agree R xs ys)
    (hsome : ∀ x y, R x y → Agree R' (f x) (g y)) (hnone : Agree R' xs' ys') :
    Agree R' ((xs.head?.map f).getD xs') ((ys.head?.map g).getD ys') := by
  intro γ next next' hnext
  have hheads := h.head?_map (f := fun x => (f x).findSome? next)
    (g := fun y => (g y).findSome? next') fun x y hxy => hsome x y hxy γ next next' hnext
  cases xs with
  | nil =>
    cases ys with
    | nil => exact hnone γ next next' hnext
    | cons y ys => cases hheads
  | cons x xs =>
    cases ys with
    | nil => cases hheads
    | cons y ys => exact Option.some.inj hheads

theorem take_one (h : Agree R xs ys) : Agree R (xs.take 1) (ys.take 1) := by
  have hheads := h.of_head (fun x y hxy => single hxy) (nil (R := R))
  cases xs <;> cases ys <;> exact hheads

end Agree

/-- A place and the same place with the groups in later slots. -/
def ShiftedPlaces (base groups : Nat) (place later : Nat × Slots) : Prop :=
  place.1 = later.1 ∧ Slots.Shifted base groups place.2 later.2

/-- A shifted node matches in the same ways. -/
theorem Node.agree_ways_shift (search : Search) (base groups : Nat) (node : Node)
    (hwithin : node.Within groups) {place later : Nat × Slots}
    (h : ShiftedPlaces base groups place later) :
    Agree (ShiftedPlaces base groups) (node.ways search place)
      ((node.shift base).ways search later) := by
  have hpos : ∀ place later, ShiftedPlaces base groups place later → place.1 = later.1 :=
    fun _ _ h => h.1
  induction node generalizing place later with
  | empty => exact .single h
  | char set => exact .one search.text set h.1 ⟨congrArg (· + 1) h.1, h.2⟩
  | anchor condition =>
    simp only [shift, ways, ← h.1]
    exact .check _ h
  | seq first second ihFirst ihSecond =>
    exact (ihFirst hwithin.1 h).flatMap fun _ _ hnext => ihSecond hwithin.2 hnext
  | alt first second ihFirst ihSecond => exact (ihFirst hwithin.1 h).append (ihSecond hwithin.2 h)
  | group index body ih =>
    obtain ⟨pos, slots⟩ := place
    obtain ⟨_, slots'⟩ := later
    obtain ⟨rfl, hslots⟩ := h
    obtain ⟨hlo, hhi⟩ := hwithin.1
    have hinside : ShiftedPlaces base groups (pos, slots.setIfInBounds (2 * index) (some pos))
        (pos, slots'.setIfInBounds (2 * (base + index)) (some pos)) :=
      ⟨rfl, hslots.set_start (some pos) hlo hhi⟩
    refine (ih hwithin.2 hinside).map fun next next' hnext => ⟨hnext.1, ?_⟩
    simp only [hnext.1]
    exact hnext.2.set_stop _ hlo hhi
  | exactly count body ih => exact .exactly (fun _ _ hnext => ih hwithin hnext) count h
  | upTo count greedy body ih => exact .upTo (fun _ _ hnext => ih hwithin hnext) greedy count h
  | more greedy body ih =>
    exact .star (fun _ _ hnext => ih hwithin hnext) hpos search.text.size greedy h
  | plus greedy body ih =>
    exact .plus (fun _ _ hnext => ih hwithin hnext) hpos search.text.size greedy h
  | backref index =>
    obtain ⟨pos, slots⟩ := place
    obtain ⟨_, slots'⟩ := later
    obtain ⟨rfl, hslots⟩ := h
    simp only [shift, ways, hslots.start index hwithin.1 hwithin.2,
      hslots.stop index hwithin.1 hwithin.2]
    split
    · split
      · exact .single ⟨rfl, hslots⟩
      · exact .nil
    · exact .nil
  | groupSet index =>
    simp only [shift, ways, h.2.start index hwithin.1 hwithin.2]
    exact .check _ h
  | ahead body ih =>
    exact (ih hwithin h).map fun next next' hnext => ⟨h.1, hnext.2⟩
  | notAhead body ih =>
    have hempty := (ih hwithin h).eq_nil_iff
    rw [← List.isEmpty_iff, ← List.isEmpty_iff, ← Bool.eq_iff_iff] at hempty
    simp only [shift, ways, hempty]
    exact .check _ h
  | behind count body ih =>
    obtain ⟨pos, slots⟩ := place
    obtain ⟨_, slots'⟩ := later
    obtain ⟨rfl, hslots⟩ := h
    have hbefore : ShiftedPlaces base groups (pos - count, slots) (pos - count, slots') :=
      ⟨rfl, hslots⟩
    simp only [shift, ways]
    split
    · exact (ih hwithin hbefore).map fun next next' hnext => ⟨rfl, hnext.2⟩
    · exact .nil
  | notBehind count body ih =>
    obtain ⟨pos, slots⟩ := place
    obtain ⟨_, slots'⟩ := later
    obtain ⟨rfl, hslots⟩ := h
    have hbefore : ShiftedPlaces base groups (pos - count, slots) (pos - count, slots') :=
      ⟨rfl, hslots⟩
    have hempty := (ih hwithin hbefore).eq_nil_iff
    rw [← List.isEmpty_iff, ← List.isEmpty_iff, ← Bool.eq_iff_iff] at hempty
    simp only [shift, ways, hempty]
    split
    · exact .nil
    · exact .single ⟨rfl, hslots⟩
  | atomic body ih => exact (ih hwithin h).take_one
  | once lo hi body ih =>
    obtain ⟨pos, slots⟩ := place
    obtain ⟨_, slots'⟩ := later
    obtain ⟨rfl, hslots⟩ := h
    rw [shift]
    split
    · rename_i hlt
      have hfresh : ShiftedPlaces base groups (pos, slots.fresh lo hi)
          (pos, slots'.fresh (base + lo) (base + hi)) := ⟨rfl, hslots.fresh hlt (hwithin.1 hlt)⟩
      exact (ih hwithin.2 hfresh).take_one
    · rename_i hle
      have hsame : ShiftedPlaces base groups (pos, slots) (pos, slots') := ⟨rfl, hslots⟩
      simp only [ways, Slots.fresh, if_neg hle]
      exact (ih hwithin.2 hsame).take_one
  | cond condition yes no ihCondition ihYes ihNo =>
    have hways := (ihCondition hwithin.1 h).of_head
      (fun _ _ hnext => ihYes hwithin.2.1 hnext) (ihNo hwithin.2.2 h)
    simp only [shift, ways]
    revert hways
    cases condition.ways search place <;> cases (condition.shift base).ways search later <;>
      exact id
  | keepOut =>
    obtain ⟨pos, slots⟩ := place
    obtain ⟨_, slots'⟩ := later
    obtain ⟨rfl, hslots⟩ := h
    exact .single ⟨rfl, hslots.set_whole 0 _ (by decide)⟩
  | searchStart =>
    simp only [shift, ways, ← h.1]
    split
    · exact .single h
    · exact .nil

end Highlighter.Regex
