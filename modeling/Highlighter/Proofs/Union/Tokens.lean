import Highlighter.Union.Basic

/-!
# Tokens partition the source

Whatever the union of a lexer matches, cutting a text into tokens
takes a character first and then as many more as the match says. So
the tokens put together are the text (`flatten_tokens`), and none of
them is empty (`ne_nil_of_mem_tokens`). A token reaches as far as the
union says at the position where it starts (`token_of_tokens`).
-/

set_option autoImplicit false

namespace Highlighter.Union

variable {union : Union} {text rest : List Char} {tokens : List (List Char)}

/-- From any position on, the tokens are what is left of the text. -/
theorem flatten_tokensFrom {whole : Array Char} {pos : Nat}
    (h : union.tokensFrom whole pos rest = .ok tokens) : tokens.flatten = rest := by
  fun_induction tokensFrom union whole pos rest generalizing tokens with
  | case1 =>
    cases h
    rfl
  | case2 => cases h
  | case3 => cases h
  | case4 pos c rest extent hextent others hothers ih =>
    cases h
    rw [List.flatten_cons, ih hothers, List.cons_append, List.take_append_drop]

/-- From any position on, no token is empty. -/
theorem ne_nil_of_mem_tokensFrom {whole : Array Char} {pos : Nat} {token : List Char}
    (h : union.tokensFrom whole pos rest = .ok tokens) (hmem : token ∈ tokens) :
    token ≠ [] := by
  fun_induction tokensFrom union whole pos rest generalizing tokens with
  | case1 =>
    cases h
    cases hmem
  | case2 => cases h
  | case3 => cases h
  | case4 pos c rest extent hextent others hothers ih =>
    cases h
    rcases List.mem_cons.mp hmem with rfl | hmem
    · exact List.cons_ne_nil _ _
    · exact ih hothers hmem

/-- From any position on, a token reaches as far as the union says where
it starts. -/
theorem token_of_tokensFrom {whole : Array Char} {pos : Nat} {before after : List (List Char)}
    {token : List Char}
    (h : union.tokensFrom whole pos rest = .ok (before ++ token :: after)) :
    ∃ extent, union.tokenExtent whole (pos + before.flatten.length) = .ok extent ∧
      token = (rest.drop before.flatten.length).take (extent + 1) := by
  generalize htokens : before ++ token :: after = tokens at h
  fun_induction tokensFrom union whole pos rest generalizing before tokens with
  | case1 =>
    cases h
    simp at htokens
  | case2 => cases h
  | case3 => cases h
  | case4 pos c rest extent hextent others hothers ih =>
    cases h
    cases before with
    | nil =>
      cases htokens
      exact ⟨extent, hextent, rfl⟩
    | cons first before =>
      obtain ⟨rfl, htail⟩ := List.cons.inj htokens
      obtain ⟨reach, hreach, htoken⟩ := ih others htail hothers
      -- There are tokens left, so the first one has as many characters as it may.
      have hne : rest.drop extent ≠ [] := by
        intro hnil
        rw [hnil, tokensFrom] at hothers
        cases hothers
        simp at htail
      have hlength : (rest.take extent).length = extent := by
        rw [List.length_take]
        have hlt : extent < rest.length := by
          rcases Nat.lt_or_ge extent rest.length with hlt | hle
          · exact hlt
          · exact absurd (List.drop_eq_nil_of_le hle) hne
        omega
      have hsize : ((c :: rest.take extent) :: before).flatten.length
          = extent + before.flatten.length + 1 := by
        rw [List.flatten_cons, List.length_append, List.length_cons, hlength]
        omega
      have hpos : pos + 1 + extent + before.flatten.length
          = pos + (extent + before.flatten.length + 1) := by omega
      refine ⟨reach, ?_, ?_⟩
      · rw [hsize, ← hpos]
        exact hreach
      · rw [htoken, hsize, List.drop_drop, List.drop_succ_cons]

/-- The tokens of a text, put together, are the text. -/
theorem flatten_tokens (h : union.tokens text = .ok tokens) : tokens.flatten = text :=
  flatten_tokensFrom h

/-- No token is empty. -/
theorem ne_nil_of_mem_tokens {token : List Char} (h : union.tokens text = .ok tokens)
    (hmem : token ∈ tokens) : token ≠ [] :=
  ne_nil_of_mem_tokensFrom h hmem

/-- A token of a text reaches as far as the union says where it
starts. -/
theorem token_of_tokens {before after : List (List Char)} {token : List Char}
    (h : union.tokens text = .ok (before ++ token :: after)) :
    ∃ extent, union.tokenExtent text.toArray before.flatten.length = .ok extent ∧
      token = (text.drop before.flatten.length).take (extent + 1) := by
  obtain ⟨extent, hextent, htoken⟩ := token_of_tokensFrom h
  rw [Nat.zero_add] at hextent
  exact ⟨extent, hextent, htoken⟩

end Highlighter.Union
