import Highlighter.Proofs.Pattern.Meaning
import Highlighter.Proofs.Regex.ClassBody
import Highlighter.Proofs.Regex.Loops
import Highlighter.Proofs.Unicode.Case

/-!
# Patterns of the regular dialect mean what they should

`Row items expr` says that items in a row have the ways of an
expression, whenever they mean anything, and `Branches items expr` says
the same of the branches of an alternation. There is a lemma for each
way to build an expression. References to groups are not of this
dialect, so what groups have matched plays no part: places agree as
soon as they are at one position.
-/

set_option autoImplicit false

namespace Highlighter.Regex.Regular

open Pattern

/-- How the regular dialect reads patterns. -/
def sense (text : Array Char) : Sense := ⟨text, regularClass?, false⟩

/-- The flags in force where nothing but letter case has been changed. -/
def Modes.plain (ignoreCase : Bool) : Modes := ⟨ignoreCase, false, false, false, true, false⟩

/-- What is kept of the whole match stays. -/
def KeepsWhole (place next : Nat × Slots) : Prop := next.2[0]? = place.2[0]?

theorem keepsWhole_refl (place : Nat × Slots) : KeepsWhole place place := rfl

theorem keepsWhole_trans (place between next : Nat × Slots) (h : KeepsWhole place between)
    (h' : KeepsWhole between next) : KeepsWhole place next :=
  h'.trans h

/-- A node has the ways of an expression. The whole match is no group
of its own. -/
structure HasWays (node : Node) (ignoreCase : Bool) (expr : Expr) : Prop where
  agree : ∀ (search : Search) (opened : Nat) (place : Nat × Slots) (place' : Nat × Marks),
    SamePos place place' →
      Agree SamePos (node.ways search place)
        (expr.ways (sense search.text) ignoreCase opened place')
  keeps : ∀ (search : Search) (place : Nat × Slots),
    Ways.Along KeepsWhole place (node.ways search place)

/-- What items in a row mean is what an expression means. They may
change whether letter case counts, from `before` to `inside`. -/
def RowFrom (before inside : Bool) (items : List Ast) (expr : Expr) : Prop :=
  ∀ (nodes : List Node) (after : Modes),
    Ast.meanings? (.plain before) items = some (nodes, after) →
      after = .plain inside ∧ HasWays (.seqAll nodes) inside expr

/-- What branches mean is what an expression means. The first one may
change whether letter case counts. -/
def BranchesFrom (before inside : Bool) (items : List Ast) (expr : Expr) : Prop :=
  items ≠ [] ∧ ∀ (nodes : List Node) (after : Modes),
    Ast.meanings? (.plain before) items = some (nodes, after) →
      after = .plain inside ∧ nodes ≠ [] ∧ HasWays (.altAll nodes) inside expr

/-- Items in a row that leave letter case as it is. -/
def Row (items : List Ast) (expr : Expr) : Prop :=
  ∀ ignoreCase : Bool, RowFrom ignoreCase ignoreCase items expr

/-- Branches that leave letter case as it is. -/
def Branches (items : List Ast) (expr : Expr) : Prop :=
  ∀ ignoreCase : Bool, BranchesFrom ignoreCase ignoreCase items expr

/-! ### Lists of patterns -/

/-- What a pattern and those after it mean. -/
theorem meanings_cons {modes after : Modes} {item : Ast} {items : List Ast} {nodes : List Node}
    (h : Ast.meanings? modes (item :: items) = some (nodes, after)) :
    ∃ node between rest, item.meaning? modes = some (node, between) ∧
      Ast.meanings? between items = some (rest, after) ∧ nodes = node :: rest := by
  rw [Ast.meanings?] at h
  cases hitem : item.meaning? modes with
  | none =>
    rw [hitem] at h
    cases h
  | some found =>
    obtain ⟨node, between⟩ := found
    rw [hitem] at h
    cases hitems : Ast.meanings? between items with
    | none =>
      simp only [bind, Option.bind_some, hitems] at h
      cases h
    | some found =>
      obtain ⟨rest, last⟩ := found
      simp only [bind, Option.bind_some, hitems, pure, Option.some.injEq, Prod.mk.injEq] at h
      obtain ⟨rfl, rfl⟩ := h
      exact ⟨node, between, rest, rfl, hitems, rfl⟩

theorem meanings_append {modes after : Modes} {first second : List Ast} {nodes : List Node}
    (h : Ast.meanings? modes (first ++ second) = some (nodes, after)) :
    ∃ left between right, Ast.meanings? modes first = some (left, between) ∧
      Ast.meanings? between second = some (right, after) ∧ nodes = left ++ right := by
  induction first generalizing modes nodes with
  | nil => exact ⟨[], modes, nodes, rfl, h, rfl⟩
  | cons item first ih =>
    obtain ⟨node, between, rest, hitem, hitems, rfl⟩ := meanings_cons h
    obtain ⟨left, middle, right, hleft, hright, rfl⟩ := ih hitems
    refine ⟨node :: left, middle, right, ?_, hright, rfl⟩
    rw [Ast.meanings?, hitem]
    simp only [bind, Option.bind_some, hleft]
    rfl

/-- Items that became one pattern. -/
theorem meaning_ofItems {modes after : Modes} {items : List Ast} {node : Node}
    (h : (Ast.ofItems items).meaning? modes = some (node, after)) :
    ∃ nodes, Ast.meanings? modes items = some (nodes, after) ∧ node = .seqAll nodes := by
  match items with
  | [] =>
    cases h
    exact ⟨[], rfl, rfl⟩
  | [item] =>
    refine ⟨[node], ?_, rfl⟩
    rw [Ast.meanings?, show item.meaning? modes = some (node, after) from h]
    rfl
  | first :: second :: items =>
    rw [Ast.ofItems, Ast.meaning?] at h
    · cases hitems : Ast.meanings? modes (first :: second :: items) with
      | none =>
        rw [hitems] at h
        cases h
      | some found =>
        rw [hitems] at h
        cases h
        exact ⟨found.1, rfl, rfl⟩
    · exact fun heq => (nomatch heq)
    · exact fun item heq => (nomatch heq)

/-- Branches that became one pattern. -/
theorem meaning_ofBranches {modes after : Modes} {items : List Ast} {node : Node}
    (hne : items ≠ []) (h : (Ast.ofBranches items).meaning? modes = some (node, after)) :
    ∃ nodes, Ast.meanings? modes items = some (nodes, after) ∧ node = .altAll nodes := by
  match items with
  | [] => exact absurd rfl hne
  | [item] =>
    refine ⟨[node], ?_, rfl⟩
    rw [Ast.meanings?, show item.meaning? modes = some (node, after) from h]
    rfl
  | first :: second :: items =>
    rw [Ast.ofBranches, Ast.meaning?] at h
    · cases hitems : Ast.meanings? modes (first :: second :: items) with
      | none =>
        rw [hitems] at h
        cases h
      | some found =>
        rw [hitems] at h
        cases h
        exact ⟨found.1, rfl, rfl⟩
    · exact fun item heq => (nomatch heq)

/-! ### Rows -/

theorem Row.empty : Row [] .empty := by
  rintro ignoreCase nodes after ⟨⟩
  exact ⟨rfl, fun search opened place place' h => Agree.single h,
    fun search place => Ways.along_single keepsWhole_refl place⟩

/-- One row after another. -/
theorem Row.append {first second : List Ast} {left right : Expr} (h : Row first left)
    (h' : Row second right) : Row (first ++ second) (.seq left right) := by
  intro ignoreCase nodes after hmeaning
  obtain ⟨a, between, b, hfirst, hsecond, rfl⟩ := meanings_append hmeaning
  obtain ⟨rfl, hleft⟩ := h ignoreCase a between hfirst
  obtain ⟨rfl, hright⟩ := h' ignoreCase b after hsecond
  refine ⟨rfl, fun search opened place place' hplace => ?_, fun search place => ?_⟩
  · rw [Node.ways_seqAll_append]
    exact (hleft.agree search opened place place' hplace).flatMap fun next next' hnext =>
      hright.agree search _ next next' hnext
  · rw [Node.ways_seqAll_append]
    exact Ways.along_flatMap keepsWhole_trans (hleft.keeps search place) (hright.keeps search)

/-- A row of one item. -/
theorem Row.single {item : Ast} {expr : Expr}
    (h : ∀ ignoreCase node after, item.meaning? (.plain ignoreCase) = some (node, after) →
      after = .plain ignoreCase ∧ HasWays node ignoreCase expr) : Row [item] expr := by
  intro ignoreCase nodes after hmeaning
  obtain ⟨node, between, rest, hitem, hrest, rfl⟩ := meanings_cons hmeaning
  obtain ⟨rfl, hways⟩ := h ignoreCase node between hitem
  cases hrest
  exact ⟨rfl, hways⟩

/-- What the only item of a row means. -/
theorem Row.item {item : Ast} {expr : Expr} (h : Row [item] expr) {ignoreCase : Bool} {node : Node}
    {after : Modes} (hmeaning : item.meaning? (.plain ignoreCase) = some (node, after)) :
    after = .plain ignoreCase ∧ HasWays node ignoreCase expr := by
  refine h ignoreCase [node] after ?_
  rw [Ast.meanings?, hmeaning]
  rfl

/-! ### Single pieces -/

/-- One character of a set. -/
theorem hasWays_char {set : CharSet} {ignoreCase : Bool} {expr : Expr}
    (h : ∀ text opened place, expr.ways (sense text) ignoreCase opened place
      = Ways.one text set place) : HasWays (.char set) ignoreCase expr where
  agree search opened place place' hplace := by
    rw [h]
    exact Agree.one _ _ hplace (congrArg (· + 1) hplace)
  keeps search place := Ways.along_one (P := KeepsWhole) fun _ => rfl

theorem hasWays_anchor {condition : Anchor} {ignoreCase : Bool} {expr : Expr}
    (h : ∀ text opened place, expr.ways (sense text) ignoreCase opened place
      = Ways.check (condition.holds text place.1) place) :
    HasWays (.anchor condition) ignoreCase expr where
  agree search opened place place' hplace := by
    rw [h, ← show place.1 = place'.1 from hplace]
    exact Agree.check _ hplace
  keeps search place := Ways.along_check (P := KeepsWhole) (keepsWhole_refl place)

theorem Row.piece {piece : Primitive} {expr : Expr}
    (h : ∀ ignoreCase node, primitiveMeaning? (.plain ignoreCase) piece = some node →
      HasWays node ignoreCase expr) : Row [.primitive piece] expr := by
  refine Row.single fun ignoreCase node after hmeaning => ?_
  rw [Ast.meaning?] at hmeaning
  cases hpiece : primitiveMeaning? (.plain ignoreCase) piece with
  | none =>
    rw [hpiece] at hmeaning
    cases hmeaning
  | some found =>
    rw [hpiece] at hmeaning
    cases hmeaning
    exact ⟨rfl, h ignoreCase node hpiece⟩

theorem primitiveMeaning_literal (ignoreCase : Bool) (c : Char) (byte : Bool) :
    primitiveMeaning? (.plain ignoreCase) (.literal c byte)
      = some (.char (CharSet.ofChar ⟨ignoreCase, true⟩ c)) := by
  simp [primitiveMeaning?, Modes.plain, Modes.chars]

theorem Row.char (c : Char) : Row [.primitive (.literal c false)] (.char c) := by
  refine Row.piece fun ignoreCase node hmeaning => ?_
  rw [primitiveMeaning_literal] at hmeaning
  cases hmeaning
  exact hasWays_char fun _ _ _ => rfl

theorem Row.coded {letter c : Char} {braced byte : Bool} {digits : List Char}
    (h : coded? digits = some c) :
    Row [.primitive (.literal c byte)] (.coded letter braced digits) := by
  refine Row.piece fun ignoreCase node hmeaning => ?_
  rw [primitiveMeaning_literal] at hmeaning
  cases hmeaning
  refine hasWays_char fun text opened place => ?_
  rw [Expr.ways, h]
  rfl

theorem Row.dot : Row [.primitive .dot] .dot := by
  refine Row.piece fun ignoreCase node hmeaning => ?_
  cases hmeaning
  exact hasWays_char fun _ _ _ => rfl

theorem Row.short (kind : ShortClass) (negated : Bool) :
    Row [.primitive (.short kind negated)] (.short kind negated) := by
  refine Row.piece fun ignoreCase node hmeaning => ?_
  cases negated with
  | false =>
    cases hmeaning
    exact hasWays_char fun _ _ _ => rfl
  | true =>
    cases hmeaning
    exact hasWays_char fun _ _ _ => rfl

theorem Row.wordBoundary : Row [.primitive (.anchor .wordBoundary)] .wordBoundary := by
  refine Row.piece fun ignoreCase node hmeaning => ?_
  cases hmeaning
  exact hasWays_anchor fun _ _ _ => rfl

theorem Row.textStart : Row [.primitive (.anchor .caret)] .textStart := by
  refine Row.piece fun ignoreCase node hmeaning => ?_
  cases hmeaning
  exact hasWays_anchor fun _ _ _ => rfl

theorem Row.textEnd : Row [.primitive (.anchor .dollar)] .textEnd := by
  refine Row.piece fun ignoreCase node hmeaning => ?_
  cases hmeaning
  exact hasWays_anchor fun _ _ _ => rfl

/-- A class means what its members say. -/
theorem Row.bracket {body : List Char} {set : ClassSet} (place : Place)
    (h : regularClass? body = some set) : Row [.bracket set place] (.bracket body) := by
  refine Row.single fun ignoreCase node after hmeaning => ?_
  rw [Ast.meaning?] at hmeaning
  cases hset : set.meaning? (Modes.plain ignoreCase).chars with
  | none =>
    rw [hset] at hmeaning
    cases hmeaning
  | some members =>
    rw [hset] at hmeaning
    cases hmeaning
    refine ⟨rfl, hasWays_char fun text opened place => ?_⟩
    have hmembers : Expr.classMembers (sense text) ignoreCase body = members := by
      unfold Expr.classMembers
      rw [show (sense text).classSet? body = some set from h, Option.bind_some,
        show set.meaning? ⟨ignoreCase, true⟩ = some members from hset]
      rfl
    rw [Expr.ways, hmembers]
    rfl

/-- A character that no other one is a case variant of. -/
theorem ofChar_of_variants {c : Char} (h : Unicode.variants c.toNat = [c.toNat])
    (ignoreCase : Bool) : CharSet.ofChar ⟨ignoreCase, true⟩ c = fun d => d == c := by
  unfold CharSet.ofChar
  cases ignoreCase with
  | false => rfl
  | true => rw [if_pos rfl, if_pos rfl, h]

/-- An escape that stands for a character without case variants. -/
theorem Row.escaped {c : Char} (h : Unicode.variants (unescaped c).toNat = [(unescaped c).toNat]) :
    Row [.primitive (.literal (unescaped c) false)] (.escaped c) := by
  refine Row.piece fun ignoreCase node hmeaning => ?_
  rw [primitiveMeaning_literal, ofChar_of_variants h] at hmeaning
  cases hmeaning
  exact hasWays_char fun _ _ _ => rfl

/-! ### Branches -/

section Branches

variable {before inside : Bool} {items branches : List Ast} {first second expr : Expr}

/-- A single branch. -/
theorem RowFrom.single_branch (h : RowFrom before inside items expr) :
    BranchesFrom before inside [Ast.ofItems items] expr := by
  refine ⟨List.cons_ne_nil _ _, fun nodes after hmeaning => ?_⟩
  obtain ⟨node, between, rest, hitem, hrest, rfl⟩ := meanings_cons hmeaning
  obtain ⟨inner, hinner, rfl⟩ := meaning_ofItems hitem
  obtain ⟨rfl, hways⟩ := h inner between hinner
  cases hrest
  exact ⟨rfl, List.cons_ne_nil _ _, hways⟩

/-- One branch before others. -/
theorem RowFrom.cons_branch (h : RowFrom before inside items first)
    (h' : Branches branches second) :
    BranchesFrom before inside (Ast.ofItems items :: branches) (.alt first second) := by
  refine ⟨List.cons_ne_nil _ _, fun nodes after hmeaning => ?_⟩
  obtain ⟨node, between, rest, hitem, hrest, rfl⟩ := meanings_cons hmeaning
  obtain ⟨inner, hinner, rfl⟩ := meaning_ofItems hitem
  obtain ⟨rfl, hfirst⟩ := h inner between hinner
  obtain ⟨rfl, hne, hsecond⟩ := (h' inside).2 rest after hrest
  refine ⟨rfl, List.cons_ne_nil _ _, fun search opened place place' hplace => ?_,
    fun search place => ?_⟩
  · rw [Node.ways_altAll_cons search _ hne]
    exact (hfirst.agree search opened place place' hplace).append
      (hsecond.agree search _ place place' hplace)
  · rw [Node.ways_altAll_cons search _ hne]
    intro next hnext
    rcases List.mem_append.mp hnext with hnext | hnext
    · exact hfirst.keeps search place next hnext
    · exact hsecond.keeps search place next hnext

/-- What the branches of a pattern mean. -/
theorem BranchesFrom.meaning (h : BranchesFrom before inside branches expr) {node : Node}
    {after : Modes}
    (hmeaning : (Ast.ofBranches branches).meaning? (.plain before) = some (node, after)) :
    after = .plain inside ∧ HasWays node inside expr := by
  obtain ⟨nodes, hnodes, rfl⟩ := meaning_ofBranches h.1 hmeaning
  obtain ⟨rfl, -, hways⟩ := h.2 nodes after hnodes
  exact ⟨rfl, hways⟩

end Branches

theorem Branches.single {items : List Ast} {expr : Expr} (h : Row items expr) :
    Branches [Ast.ofItems items] expr :=
  fun ignoreCase => (h ignoreCase).single_branch

theorem Branches.cons {items branches : List Ast} {first second : Expr} (h : Row items first)
    (h' : Branches branches second) : Branches (Ast.ofItems items :: branches) (.alt first second) :=
  fun ignoreCase => (h ignoreCase).cons_branch h'

/-- Flags that turn letter case off, and then a row. -/
theorem Row.ignoring_flags {items : List Ast} {expr : Expr} (place : Place) (h : Row items expr) :
    RowFrom false true (.flags [(.ignoreCase, true)] place :: items) expr := by
  intro nodes after hmeaning
  obtain ⟨node, between, rest, hitem, hrest, rfl⟩ := meanings_cons hmeaning
  cases hitem
  obtain ⟨rfl, hways⟩ := h true rest after hrest
  refine ⟨rfl, fun search opened place place' hplace => ?_, fun search place => ?_⟩
  · rw [Node.ways_seqAll_cons]
    show Agree SamePos ([place].flatMap _) _
    rw [List.flatMap_cons, List.flatMap_nil, List.append_nil]
    exact hways.agree search opened place place' hplace
  · rw [Node.ways_seqAll_cons]
    show Ways.Along KeepsWhole place ([place].flatMap _)
    rw [List.flatMap_cons, List.flatMap_nil, List.append_nil]
    exact hways.keeps search place

/-! ### Groups -/

theorem Row.capture {branches : List Ast} {body : Expr} {index : Nat} (hindex : index ≠ 0)
    (start : Nat) (name : Option String) (h : Branches branches body) :
    Row [.group (.capturing index name) start (.ofBranches branches)] (.capture body) := by
  refine Row.single fun ignoreCase node after hmeaning => ?_
  rw [Ast.meaning?] at hmeaning
  cases hbody : (Ast.ofBranches branches).meaning? (.plain ignoreCase) with
  | none =>
    rw [hbody] at hmeaning
    cases hmeaning
  | some found =>
    obtain ⟨inner, between⟩ := found
    obtain ⟨rfl, hways⟩ := (h _).meaning hbody
    rw [hbody] at hmeaning
    cases hmeaning
    refine ⟨rfl, fun search opened place place' hplace => ?_, fun search place => ?_⟩
    · obtain ⟨pos, slots⟩ := place
      obtain ⟨pos', marks⟩ := place'
      have hbody := hways.agree search (opened + 1)
        (pos, slots.setIfInBounds (2 * index) (some pos)) (pos', marks.begin (opened + 1) pos') hplace
      refine hbody.map fun next next' hnext => ?_
      exact hnext
    · obtain ⟨pos, slots⟩ := place
      intro next hnext
      obtain ⟨found, hfound, rfl⟩ := List.mem_map.mp hnext
      have hkept := hways.keeps search (pos, slots.setIfInBounds (2 * index) (some pos)) found hfound
      show (found.2.setIfInBounds (2 * index + 1) (some found.1))[0]? = slots[0]?
      rw [Array.getElem?_setIfInBounds_ne (by omega), show found.2[0]? = _ from hkept,
        Array.getElem?_setIfInBounds_ne (by omega)]

/-- A group with flags that change letter case at most. -/
theorem Row.flagged {branches : List Ast} {body expr : Expr} {change : FlagChange}
    (start : Nat) (h : Branches branches body) (mode : Bool → Bool)
    (hchange : ∀ ignoreCase, (Modes.plain ignoreCase).apply change = .plain (mode ignoreCase))
    (hways : ∀ sense ignoreCase opened place, expr.ways sense ignoreCase opened place
      = body.ways sense (mode ignoreCase) opened place) :
    Row [.group (.flagged change) start (.ofBranches branches)] expr := by
  refine Row.single fun ignoreCase node after hmeaning => ?_
  rw [Ast.meaning?, hchange] at hmeaning
  cases hbody : (Ast.ofBranches branches).meaning? (.plain (mode ignoreCase)) with
  | none =>
    rw [hbody] at hmeaning
    cases hmeaning
  | some found =>
    obtain ⟨inner, between⟩ := found
    obtain ⟨rfl, hinner⟩ := (h _).meaning hbody
    rw [hbody] at hmeaning
    cases hmeaning
    refine ⟨rfl, fun search opened place place' hplace => ?_, hinner.keeps⟩
    rw [hways]
    exact hinner.agree search opened place place' hplace

theorem Row.bare {branches : List Ast} {body : Expr} (start : Nat) (h : Branches branches body) :
    Row [.group (.flagged []) start (.ofBranches branches)] (.bare body) :=
  Row.flagged start h id (fun _ => rfl) fun _ _ _ _ => rfl

theorem Row.ignoring {branches : List Ast} {body : Expr} (start : Nat)
    (h : Branches branches body) :
    Row [.group (.flagged [(.ignoreCase, true)]) start (.ofBranches branches)] (.ignoring body) :=
  Row.flagged start h (fun _ => true) (fun _ => rfl) fun _ _ _ _ => rfl

/-- A dot in a group of its own, where it matches every character. -/
theorem Row.anyChar (start : Nat) :
    Row [.group (.flagged [(.dotAll, true)]) start (.primitive .dot)] .anyChar := by
  refine Row.single fun ignoreCase node after hmeaning => ?_
  cases hmeaning
  exact ⟨rfl, hasWays_char fun _ _ _ => rfl⟩

/-! ### Repetitions -/

/-- An item that is repeated. Where it consumes nothing, it is repeated
once at most. -/
theorem Row.repeated {item : Ast} {count : Count} {body : Expr} (greedy : Bool)
    (hcount : count.WellFormed) (h : Row [item] body) :
    Row [.repetition count.min count.max? greedy item] (.repeated count greedy body) := by
  refine Row.single fun ignoreCase node after hmeaning => ?_
  rw [Ast.meaning?] at hmeaning
  cases hitem : item.meaning? (.plain ignoreCase) with
  | none =>
    rw [hitem] at hmeaning
    cases hmeaning
  | some found =>
    obtain ⟨inner, between⟩ := found
    obtain ⟨rfl, hways⟩ := h.item hitem
    rw [hitem] at hmeaning
    have hgreedy : (greedy != (Modes.plain ignoreCase).swapGreed) = greedy := Bool.xor_false greedy
    simp only [bind, Option.bind_some, hgreedy] at hmeaning
    have hloop : (if inner.consumesNothing then
          some (Node.repeated (Nat.min count.min 1) (some (Nat.min (count.max?.getD 1) 1)) greedy
            inner, Modes.plain ignoreCase)
        else some (Node.repeated count.min count.max? greedy inner, Modes.plain ignoreCase))
        = some (Node.loop count.min count.max? greedy inner, Modes.plain ignoreCase) := by
      unfold Node.loop
      split <;> rfl
    cases hloop.symm.trans hmeaning
    refine ⟨rfl, fun search opened place place' hplace => ?_, fun search place => ?_⟩
    · exact Node.agree_loop search greedy hcount.min_le (hways.agree search opened) hplace
    · exact Node.along_loop search greedy hcount.min_le keepsWhole_refl keepsWhole_trans
        (hways.keeps search) place

end Highlighter.Regex.Regular
