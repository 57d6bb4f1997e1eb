import Highlighter.Proofs.Regex.Shift
import Highlighter.Proofs.Lexer.Agreement

/-!
# Unions try their members in order

Where the node of a union has one branch for each pattern, with its groups after those of the
patterns before it (`IsJoint`), tokens are as long as the first pattern that matches says
(`tokenExtent_of_report`). So unions that find the same first pattern everywhere cut a text alike
(`tokensFrom_congr`).
-/

set_option autoImplicit false

namespace Highlighter

namespace Regex

/-- What the best way at a position tells of the match: where it stops, and where it says that it
starts. -/
def Node.report? (search : Search) (node : Node) (groups pos : Nat) : Option (Nat × Option Nat) :=
  (node.waysFrom search groups pos).head?.map fun way => (way.1, way.2[0]?.join)

theorem Node.report_eq (search : Search) (node : Node) (groups pos : Nat) :
    node.report? search groups pos
      = (node.ways search (pos, startSlots groups pos)).head?.map fun way =>
          (way.1, way.2[0]?.join) := by
  show (((node.ways search (pos, startSlots groups pos)).map fun next =>
    (next.1, next.2.setIfInBounds 1 (some next.1))).head?).map _ = _
  rw [List.head?_map, Option.map_map]
  refine congrArg (Option.map · _) (funext fun way => ?_)
  rw [Function.comp_apply, Array.getElem?_setIfInBounds_ne (by decide)]

/-- Where a match starts, no group is set yet. -/
theorem shifted_startSlots {base groups all : Nat} (hle : base + groups ≤ all) (pos : Nat) :
    Slots.Shifted base groups (startSlots groups pos) (startSlots all pos) := by
  have hsize : ∀ groups, (startSlots groups pos).size = 2 * (groups + 1) := fun _ => by
    simp [startSlots]
  refine ⟨by rw [hsize]; omega, by rw [hsize]; omega, ?_, fun index hpos hindex => ?_,
    fun index hpos hindex => ?_⟩
  · rw [startSlots_zero, startSlots_zero]
  · rw [startSlots_of_le (by omega) (by omega), startSlots_of_le (by omega) (by omega)]
  · rw [startSlots_of_le (by omega) (by omega), startSlots_of_le (by omega) (by omega)]

/-- A shifted node reports the same. -/
theorem Node.report_shift (search : Search) {base groups all : Nat} {node : Node}
    (hwithin : node.Within groups) (hle : base + groups ≤ all) (pos : Nat) :
    (node.shift base).report? search all pos = node.report? search groups pos := by
  have hplaces : ShiftedPlaces base groups (pos, startSlots groups pos) (pos, startSlots all pos) :=
    ⟨rfl, shifted_startSlots hle pos⟩
  rw [report_eq, report_eq]
  refine ((node.agree_ways_shift search base groups hwithin hplaces).head?_map ?_).symm
  rintro ⟨stop, slots⟩ ⟨_, later⟩ ⟨rfl, hslots⟩
  rw [hslots.first]

/-- Of two branches, the first one that matches reports. -/
theorem Node.report_altAll_cons (search : Search) (node : Node) {nodes : List Node}
    (h : nodes ≠ []) (groups pos : Nat) :
    (altAll (node :: nodes)).report? search groups pos
      = (node.report? search groups pos).or ((altAll nodes).report? search groups pos) := by
  rw [report_eq, report_eq, report_eq, ways_altAll_cons search node h, List.head?_append]
  cases (node.ways search (pos, startSlots groups pos)).head? <;> rfl

end Regex

namespace Union

open Regex

section Joint

variable (width : Pattern → Nat) (node : Pattern → Node)

/-- How many groups there are after the patterns, each of which has as many as `width` says. -/
def groupsFrom (base : Nat) : List Pattern → Nat
  | [] => base
  | pattern :: rest => groupsFrom (base + width pattern) rest

/-- The branches of a union, where `base` groups stand before. -/
def nodesFrom (base : Nat) : List Pattern → List Node
  | [] => [.char fun _ => true]
  | pattern :: rest => (node pattern).shift base :: nodesFrom (base + width pattern) rest

/-- A matcher that tries the patterns in order. -/
structure IsJoint (matcher : Matcher) (patterns : List Pattern) : Prop where
  ways_eq : ∀ search place,
    matcher.node.ways search place
      = (Node.altAll (nodesFrom width node 0 patterns)).ways search place
  groups_eq : matcher.groups = groupsFrom width 0 patterns
  within : ∀ pattern ∈ patterns, (node pattern).Within (width pattern)

variable {width node}

theorem nodesFrom_ne_nil (base : Nat) (patterns : List Pattern) :
    nodesFrom width node base patterns ≠ [] := by
  cases patterns <;> exact List.cons_ne_nil _ _

theorem le_groupsFrom (base : Nat) (patterns : List Pattern) :
    base ≤ groupsFrom width base patterns := by
  induction patterns generalizing base with
  | nil => exact Nat.le_refl _
  | cons pattern patterns ih => exact Nat.le_trans (Nat.le_add_right _ _) (ih _)

variable {search : Search} {pos all : Nat}

/-- Any character is a match. -/
theorem report_catchAll (hpos : pos < search.text.size) :
    (Node.char fun _ => true).report? search all pos = some (pos + 1, some pos) := by
  rw [Node.report_eq, Node.ways, Ways.one, Array.getElem?_eq_getElem hpos]
  simp [startSlots_zero]

/-- A union reports what the first member reports that matches. -/
theorem report_nodesFrom {patterns : List Pattern} {base : Nat}
    (hwithin : ∀ pattern ∈ patterns, (node pattern).Within (width pattern))
    (hle : groupsFrom width base patterns ≤ all) (hpos : pos < search.text.size) :
    (Node.altAll (nodesFrom width node base patterns)).report? search all pos
      = (patterns.findSome? fun pattern => (node pattern).report? search (width pattern) pos).or
          (some (pos + 1, some pos)) := by
  induction patterns generalizing base with
  | nil => exact report_catchAll hpos
  | cons pattern patterns ih =>
    obtain ⟨hpattern, hpatterns⟩ := List.forall_mem_cons.mp hwithin
    have hroom : base + width pattern ≤ all :=
      Nat.le_trans (le_groupsFrom _ patterns) hle
    rw [nodesFrom, Node.report_altAll_cons _ _ (nodesFrom_ne_nil _ _),
      Node.report_shift _ hpattern hroom, ih hpatterns hle, List.findSome?_cons]
    cases (node pattern).report? search (width pattern) pos <;> rfl

end Joint

/-! ### Tokens -/

/-- How long a token is after its first character, by what the match reports. -/
def extentOf (size pos : Nat) (report : Nat × Option Nat) : Nat :=
  let whole := Span.within size (report.2.getD report.1) report.1
  if whole.start == pos && pos < whole.stop then whole.stop - pos - 1 else 0

theorem tokenExtent_of_found {union : Union} {text : Array Char} {pos : Nat} {found : Found}
    (h : union.matcher.search text pos = .ok (some found)) :
    union.tokenExtent text pos
      = .ok (if found.whole.start == pos && pos < found.whole.stop then found.whole.stop - pos - 1
          else 0) := by
  unfold tokenExtent
  rw [h]
  show (if found.whole.start == pos && pos < found.whole.stop then _ else _) = _
  split <;> rfl

/-- A token is as long as the best match says. -/
theorem tokenExtent_of_report {union : Union} {text : Array Char} {pos extent : Nat}
    {report : Nat × Option Nat} (hpos : pos ≤ text.size)
    (hreport : union.matcher.node.report? ⟨text, pos, union.matcher.limit⟩ union.matcher.groups pos
      = some report) (h : union.tokenExtent text pos = .ok extent) :
    extent = extentOf text.size pos report := by
  obtain ⟨⟨stop, slots⟩, hway, rfl⟩ := Option.map_eq_some_iff.mp hreport
  rcases Search.find_eq ⟨text, pos, union.matcher.limit⟩ union.matcher.node union.matcher.groups
    hpos hway with ⟨hfind, -⟩ | ⟨spent, hfind⟩
  · rw [tokenExtent, Matcher.search, hfind] at h
    cases h
  · have hsearch : union.matcher.search text pos = .ok (some (.ofSlots text.size stop slots)) := by
      rw [Matcher.search, hfind]
    rw [tokenExtent_of_found hsearch] at h
    cases h
    rfl

/-- Unions whose tokens are as long as each other cut a text alike. -/
theorem tokensFrom_congr {union other : Union} {text : Array Char}
    (h : ∀ pos < text.size, ∀ extent extent', union.tokenExtent text pos = .ok extent →
      other.tokenExtent text pos = .ok extent' → extent = extent')
    {pos : Nat} {rest : List Char} (hrest : rest = [] ∨ pos + rest.length ≤ text.size)
    {tokens tokens' : List (List Char)} (htokens : union.tokensFrom text pos rest = .ok tokens)
    (htokens' : other.tokensFrom text pos rest = .ok tokens') : tokens = tokens' := by
  induction hlength : rest.length using Nat.strongRecOn generalizing pos rest tokens tokens' with
  | _ length ih =>
    cases rest with
    | nil =>
      rw [tokensFrom] at htokens htokens'
      cases htokens
      cases htokens'
      rfl
    | cons c rest =>
      have hroom : pos + (rest.length + 1) ≤ text.size := hrest.resolve_left (List.cons_ne_nil _ _)
      rw [tokensFrom] at htokens htokens'
      cases hextent : union.tokenExtent text pos with
      | error failure =>
        rw [hextent] at htokens
        cases htokens
      | ok extent =>
        cases hextent' : other.tokenExtent text pos with
        | error failure =>
          rw [hextent'] at htokens'
          cases htokens'
        | ok extent' =>
          obtain rfl := h pos (by omega) extent extent' hextent hextent'
          simp only [hextent] at htokens
          simp only [hextent'] at htokens'
          cases hothers : union.tokensFrom text (pos + 1 + extent) (rest.drop extent) with
          | error failure =>
            rw [hothers] at htokens
            cases htokens
          | ok others =>
            cases hothers' : other.tokensFrom text (pos + 1 + extent) (rest.drop extent) with
            | error failure =>
              rw [hothers'] at htokens'
              cases htokens'
            | ok others' =>
              rw [hothers] at htokens
              rw [hothers'] at htokens'
              cases htokens
              cases htokens'
              have hshort : (rest.drop extent).length < length := by
                rw [← hlength, List.length_drop, List.length_cons]
                omega
              have hleft : rest.drop extent = [] ∨
                  pos + 1 + extent + (rest.drop extent).length ≤ text.size := by
                by_cases hend : rest.length ≤ extent
                · exact .inl (List.drop_of_length_le hend)
                · rw [List.length_drop]
                  exact .inr (by omega)
              rw [ih _ hshort hleft hothers hothers' rfl]

/-- Unions of the same patterns cut a text alike, however often a pattern is repeated. -/
theorem IsJoint.tokens_eq {width : Pattern → Nat} {node : Pattern → Node} {union other : Union}
    {patterns : List Pattern} (h : IsJoint width node union.matcher patterns.eraseDups)
    (h' : IsJoint width node other.matcher patterns)
    (hlimit : union.matcher.limit = other.matcher.limit) {text : List Char}
    {tokens tokens' : List (List Char)} (htokens : union.tokens text = .ok tokens)
    (htokens' : other.tokens text = .ok tokens') : tokens = tokens' := by
  refine tokensFrom_congr (fun pos hpos extent extent' hextent hextent' => ?_) (.inr ?_) htokens
    htokens'
  · have hreports : ∀ {matcher : Matcher} {patterns : List Pattern},
        IsJoint width node matcher patterns →
        matcher.node.report? ⟨text.toArray, pos, union.matcher.limit⟩ matcher.groups pos
          = (patterns.findSome? fun pattern => (node pattern).report?
              ⟨text.toArray, pos, union.matcher.limit⟩ (width pattern) pos).or
                (some (pos + 1, some pos)) := by
      intro matcher patterns h
      rw [Node.report_eq, h.ways_eq, ← Node.report_eq]
      exact report_nodesFrom h.within (Nat.le_of_eq h.groups_eq.symm) hpos
    have hreport := hreports h
    have hreport' := hreports h'
    rw [findSome?_eraseDups] at hreport
    have hsame := hreport'.trans hreport.symm
    have hsome : ∃ report, union.matcher.node.report? ⟨text.toArray, pos, union.matcher.limit⟩
        union.matcher.groups pos = some report := by
      rw [hreport]
      exact Option.isSome_iff_exists.mp (by rw [Option.isSome_or]; simp)
    obtain ⟨report, hfirst⟩ := hsome
    rw [hfirst] at hsame
    rw [hlimit] at hsame
    rw [tokenExtent_of_report (Nat.le_of_lt hpos) hfirst hextent,
      tokenExtent_of_report (Nat.le_of_lt hpos) hsame hextent']
  · exact Nat.le_of_eq (by rw [Nat.zero_add, List.size_toArray])

end Union

end Highlighter
