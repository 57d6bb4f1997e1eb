import Highlighter.Proofs.Regex.Ignoring
import Highlighter.Proofs.Regex.Regular.Longer
import Highlighter.Proofs.Union.Later
import Highlighter.Proofs.Union.Ordered

/-!
# Unions in the regular dialect

The union of patterns is read as branches that mean what its members mean by themselves, with later
groups (`regularRow_union`). Members of this dialect refer to no group, so they are written alike
wherever they stand.
-/

set_option autoImplicit false

namespace Highlighter.Union

open Pattern Regex Regex.Regular

/-- A member that refers to no group is read by itself, up to its closing parenthesis. -/
structure RegularAlone (folded : Bool) (pattern : Pattern) (ast : Ast) (groups : Nat) : Prop where
  numbers : ∀ number, .numeric number ∉ (member 0 pattern.parts).1
  reads : ∃ steps length after, parseBranches? steps ⟨length, false, 0, []⟩ []
      (memberText folded (member 0 pattern.parts).1 ++ [')']) = some (ast, after, [')']) ∧
    after.groups = groups

variable {folded : Bool} {pattern : Pattern} {ast : Ast} {groups steps : Nat}
  {reading after : Reading} {items out : List Ast} {left rest : List Char}

/-! ### Members -/

theorem RegularAlone.memberText_eq (h : RegularAlone folded pattern ast groups) (base : Nat) :
    memberText folded (member base pattern.parts).1
      = memberText folded (member 0 pattern.parts).1 := by
  have hsame : ∀ part ∈ (member 0 pattern.parts).1, laterPart base part = part := by
    intro part hpart
    cases part with
    | numeric number => exact absurd hpart (h.numbers number)
    | _ => rfl
  rw [member_later base]
  show memberText folded ((member 0 pattern.parts).1.map (laterPart base)) = _
  rw [List.map_congr_left hsame, List.map_id']

theorem longer_append (text more : List Char) :
    Longer more (text ++ [')']) (text ++ ')' :: more) := by
  induction text with
  | nil => exact .close
  | cons c text ih => exact .char c ih

/-- A member is one branch of a union, and means what it means by itself. -/
theorem regularItems_member (halone : RegularAlone folded pattern ast groups)
    (hverbose : reading.verbose = false) {base : Nat} (hrest : ∀ c ∈ rest.head?, c = '|')
    (hread : parseItems? steps reading items
      ("(?:".toList ++ memberText folded (member base pattern.parts).1 ++ [')'] ++ rest)
        = some (out, after, left)) :
    ∃ item, out = items.reverse ++ [item] ∧
      Ast.Later reading.groups groups (.group (.flagged []) 0 ast) item ∧
      after.verbose = false ∧ after.groups = reading.groups + groups ∧ left = rest := by
  obtain ⟨aloneSteps, length, last, hbranches, hgroups⟩ := halone.reads
  have hshape : "(?:".toList ++ memberText folded (member base pattern.parts).1 ++ [')'] ++ rest
      = '(' :: '?' :: ':' :: (memberText folded (member 0 pattern.parts).1 ++ ')' :: rest) := by
    rw [halone.memberText_eq]
    simp
  rw [hshape] at hread
  obtain ⟨steps', start, body, between, next, hbody, hitems⟩ :=
    Regular.parseItems_group hverbose hverbose (by rintro change ⟨⟩; rfl)
      (parseOpening_flags hverbose _).1 hread
  have hreaders : Reading.Later reading.groups ⟨length, false, 0, []⟩ reading := ⟨hverbose, rfl⟩
  obtain ⟨hlater, hdone⟩ := (simulated_of_reads reading.groups rest ((reads_of_parse _).2 hbranches)
    (.inr (longer_append _ rest)) hreaders .nil hbody).resolve_left (List.cons_ne_nil _ _)
  cases hdone.longer.eq_of_close
  cases parseItems_end rfl (fun c hc => .inr (hrest c hc)) hitems
  refine ⟨_, List.reverse_cons, ?_, rfl, ?_, rfl⟩
  · exact (hgroups ▸ hlater).flagged [] 0 start
  · rw [← hgroups]
    exact hdone.readers.groups_eq

theorem regularItems_catchAll (hverbose : reading.verbose = false)
    (hread : parseItems? steps reading items catchAll = some (out, after, left)) :
    ∃ start, out = items.reverse ++ [.group (.flagged [(.dotAll, true)]) start (.primitive .dot)] ∧
      after.groups = reading.groups ∧ left = [] := by
  have hplain : ∀ change, GroupKind.flagged [(.dotAll, true)] = .flagged change →
      change.value? .verbose = none := by
    rintro change ⟨⟩
    rfl
  obtain ⟨steps', start, body, between, next, hbranches, hitems⟩ :=
    Regular.parseItems_group hverbose hverbose hplain (parseOpening_flags hverbose ['.', ')']).2.2 hread
  cases steps' with
  | zero => cases hbranches
  | succ steps' =>
    rw [parseBranches?] at hbranches
    obtain ⟨found, hfound, hbranches⟩ := Option.bind_eq_some_iff.mp hbranches
    obtain ⟨steps'', piece, others, hpiece, hend⟩ := parseItems_piece hverbose (by decide) hfound
    cases hpiece
    cases parseItems_end hverbose (by rintro c ⟨⟩; exact .inl rfl) hend
    cases hbranches
    cases parseItems_end rfl (by rintro c ⟨⟩) hitems
    exact ⟨start, List.reverse_cons, rfl, rfl⟩

/-! ### All branches -/

section Branches

variable {alone : Pattern → Ast × Nat}

/-- The branches of a union, where `base` groups stand before. -/
inductive RegularBranches (alone : Pattern → Ast × Nat) : Nat → List Pattern → List Ast → Prop
  | catchAll (base start : Nat) :
    RegularBranches alone base [] [.group (.flagged [(.dotAll, true)]) start (.primitive .dot)]
  | member {base : Nat} {pattern : Pattern} {patterns : List Pattern} {item : Ast} {items : List Ast}
    (hitem : Ast.Later base (alone pattern).2 (.group (.flagged []) 0 (alone pattern).1) item)
    (hrest : RegularBranches alone (base + (alone pattern).2) patterns items) :
    RegularBranches alone base (pattern :: patterns) (item :: items)

/-- What `parseBranches?` makes of a row. -/
def goOn? (steps : Nat) (before : List Ast) (row : List Ast × Reading × List Char) :
    Option (Ast × Reading × List Char) :=
  match row.2.2 with
  | '|' :: rest => parseBranches? steps row.2.1 (.ofItems row.1 :: before) rest
  | cs => some (.ofBranches (.ofItems row.1 :: before).reverse, row.2.1, cs)

theorem parseBranches_eq (steps : Nat) (reading : Reading) (before : List Ast) (cs : List Char) :
    parseBranches? (steps + 1) reading before cs
      = (parseItems? steps reading [] cs).bind (goOn? steps before) :=
  rfl

/-- The branches of a union are read one by one. Items may stand before the first one. -/
theorem regularRow_union {folds : Pattern → Bool} {patterns : List Pattern}
    (halone : ∀ pattern ∈ patterns,
      RegularAlone (folds pattern) pattern (alone pattern).1 (alone pattern).2)
    (hverbose : reading.verbose = false) {base steps' : Nat} {lead before : List Ast}
    {row : List Ast × Reading × List Char} {found : Ast × Reading × List Char}
    (hrow : parseItems? steps reading lead
      (List.intercalate ['|'] (branchesFrom folds base patterns)) = some row)
    (hfound : goOn? steps' before row = some found) :
    ∃ item items, RegularBranches alone reading.groups patterns (item :: items) ∧
      found.1 = .ofBranches (before.reverse ++ .ofItems (lead.reverse ++ [item]) :: items) ∧
      found.2.1.groups = groupsFrom (fun pattern => (alone pattern).2) reading.groups patterns ∧
      found.2.2 = [] := by
  induction patterns generalizing base reading lead before row steps steps' with
  | nil =>
    rw [branchesFrom, List.intercalate_singleton] at hrow
    obtain ⟨start, hout, hgroups, hleft⟩ := regularItems_catchAll hverbose hrow
    rw [goOn?, hleft] at hfound
    cases hfound
    refine ⟨_, [], .catchAll _ start, ?_, hgroups, rfl⟩
    rw [hout, List.reverse_cons]
  | cons pattern patterns ih =>
    obtain ⟨hpattern, hpatterns⟩ := List.forall_mem_cons.mp halone
    rw [branchesFrom, List.intercalate_cons_of_ne_nil (branchesFrom_ne_nil _ _ _), List.append_assoc,
      List.singleton_append] at hrow
    obtain ⟨item, hout, hitem, hverbose', hgroups, hleft⟩ :=
      regularItems_member hpattern hverbose (by simp) hrow
    rw [goOn?, hleft] at hfound
    cases steps' with
    | zero => cases hfound
    | succ steps' =>
      obtain ⟨others, hothers, hfound⟩ := Option.bind_eq_some_iff.mp hfound
      obtain ⟨second, items, hbranches, hast, hsum, hend⟩ := ih hpatterns hverbose' hothers hfound
      rw [hgroups] at hbranches hsum
      refine ⟨item, second :: items, .member hitem hbranches, ?_, hsum, hend⟩
      rw [hast, hout, List.reverse_cons, List.append_assoc]
      rfl

/-! ### What the branches mean -/

/-- How a member is matched. -/
def regularNode (alone : Pattern → Ast × Nat) (modes : Modes) (pattern : Pattern) : Node :=
  (((alone pattern).1.meaning? modes).map Prod.fst).getD .empty

theorem RegularBranches.meanings {base : Nat} {patterns : List Pattern} {modes last : Modes}
    {nodes : List Node} (h : RegularBranches alone base patterns items)
    (hunicode : modes.unicode = true) (hmeanings : Ast.meanings? modes items = some (nodes, last)) :
    nodes = nodesFrom (fun pattern => (alone pattern).2) (regularNode alone modes) base patterns ∧
      ∀ pattern ∈ patterns, (regularNode alone modes pattern).Within (alone pattern).2 := by
  induction h generalizing nodes with
  | catchAll base start =>
    obtain ⟨node, between, others, hnode, hothers, rfl⟩ := meanings_cons hmeanings
    cases hothers
    have hdot : primitiveMeaning? (modes.apply [(.dotAll, true)]) .dot
        = some (.char fun _ => true) := by
      show (if modes.unicode then some (Node.char _) else none) = _
      rw [if_pos hunicode]
      rfl
    rw [Ast.meaning?, Ast.meaning?, hdot] at hnode
    cases hnode
    exact ⟨rfl, fun _ h => absurd h List.not_mem_nil⟩
  | @member base pattern patterns item items hitem _ ih =>
    obtain ⟨node, between, others, hnode, hothers, rfl⟩ := meanings_cons hmeanings
    rw [hitem.meaning_eq] at hnode
    obtain ⟨⟨own, after⟩, hown, heq⟩ := Option.map_eq_some_iff.mp hnode
    cases heq
    obtain ⟨⟨body, inside⟩, hbody, heq⟩ := Option.bind_eq_some_iff.mp hown
    cases heq
    obtain ⟨rfl, hwithin⟩ := ih hothers
    have hsame : regularNode alone modes pattern = own := by
      rw [regularNode, show (alone pattern).1.meaning? modes = some (own, inside) from hbody]
      rfl
    refine ⟨?_, List.forall_mem_cons.mpr ⟨?_, hwithin⟩⟩
    · rw [nodesFrom, hsame]
    · rw [hsame]
      exact hitem.within hown

/-! ### The whole union -/

/-- What may stand before the first branch: the flag for letter case. -/
inductive LeadingFlags : Bool → List Ast → Prop
  | none : LeadingFlags false []
  | ignoring (place : Place) : LeadingFlags true [.flags [(.ignoreCase, true)] place]

/-- The modes of the branches. -/
def branchModes (ignoreCase : Bool) : Modes := { Modes.initial with ignoreCase }

/-- Flags that stand before the first branch hold in all branches, and match nothing themselves. -/
theorem LeadingFlags.meanings {ignoreCase : Bool} {lead : List Ast}
    (h : LeadingFlags ignoreCase lead) {item : Ast} {node : Node} {last : Modes}
    (hmeaning : (Ast.ofBranches (.ofItems (lead.reverse ++ [item]) :: items)).meaning? .initial
      = some (node, last)) :
    ∃ nodes, Ast.meanings? (branchModes ignoreCase) (item :: items) = some (nodes, last) ∧
      ∀ search place, node.ways search place = (Node.altAll nodes).ways search place := by
  obtain ⟨nodes, hnodes, rfl⟩ := meaning_ofBranches (List.cons_ne_nil _ _) hmeaning
  obtain ⟨first, between, rest, hfirst, hrest, rfl⟩ := meanings_cons hnodes
  cases h with
  | none => exact ⟨_, Ast.meanings_cons_of hfirst hrest, fun _ _ => rfl⟩
  | ignoring place =>
    obtain ⟨parts, hparts, rfl⟩ := meaning_ofItems hfirst
    obtain ⟨_, _, _, hflags, hitem, rfl⟩ := meanings_cons hparts
    cases hflags
    obtain ⟨own, _, _, hown, hnone, rfl⟩ := meanings_cons hitem
    cases hnone
    refine ⟨own :: rest, Ast.meanings_cons_of hown hrest, fun search place => ?_⟩
    have hown : (Node.seqAll [.empty, own]).ways search place = own.ways search place :=
      List.flatMap_singleton ..
    cases rest with
    | nil => exact hown
    | cons second rest =>
      rw [Node.ways_altAll_cons _ _ (List.cons_ne_nil _ _),
        Node.ways_altAll_cons _ _ (List.cons_ne_nil _ _), hown]

/-- A union of the regular dialect tries its members in order. -/
theorem isJoint_regular {patterns : List Pattern} {matcher : Matcher}
    (halone : ∀ pattern ∈ patterns, RegularAlone (caseRule patterns == .mixed && pattern.ignoreCase)
      pattern (alone pattern).1 (alone pattern).2)
    (h : Matcher.ofRegular? (text patterns) = some matcher) :
    IsJoint (fun pattern => (alone pattern).2)
        (regularNode alone (branchModes (caseRule patterns == .ignored))) matcher patterns ∧
      matcher.limit = none := by
  obtain ⟨ast, groups, node, last, hparse, hmeaning, rfl⟩ := Matcher.ofRegular_eq_some h
  obtain ⟨⟨tree, after, left⟩, hread, hparsed⟩ := Option.bind_eq_some_iff.mp hparse
  obtain ⟨row, hrow, hgo⟩ := Option.bind_eq_some_iff.mp ((parseBranches_eq ..).symm.trans hread)
  have hlead : ∃ steps lead, LeadingFlags (caseRule patterns == .ignored) lead ∧
      parseItems? steps ⟨(text patterns).length, false, 0, []⟩ lead (List.intercalate ['|']
        (branchesFrom (fun pattern => caseRule patterns == .mixed && pattern.ignoreCase) 0
          patterns)) = some row := by
    generalize (text patterns).length = length at hrow
    rw [text, branches_eq] at hrow
    cases hrule : caseRule patterns == .ignored with
    | false =>
      simp only [hrule] at hrow
      exact ⟨_, [], .none, hrow⟩
    | true =>
      simp only [hrule] at hrow
      obtain ⟨steps, place, hitems⟩ := Regular.parseItems_flags rfl hrow
      exact ⟨steps, _, .ignoring place, hitems⟩
  obtain ⟨steps, lead, hlead, hrow⟩ := hlead
  obtain ⟨item, items, hbranches, htree, hgroups, hleft⟩ := regularRow_union halone rfl hrow hgo
  cases hleft
  simp only at hparsed htree hgroups
  split at hparsed
  · cases hparsed
    rw [htree] at hmeaning
    obtain ⟨nodes, hnodes, hways⟩ := hlead.meanings hmeaning
    obtain ⟨rfl, hwithin⟩ := hbranches.meanings rfl hnodes
    exact ⟨⟨hways, hgroups, hwithin⟩, rfl⟩
  · cases hparsed

end Branches

end Highlighter.Union
