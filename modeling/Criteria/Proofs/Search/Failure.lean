import Criteria.Proofs.Query.Balance
import Criteria.Search.Compile

namespace Criteria.Search.Compiler

open Query (Balanced Operand QueryError Token)
open Schema (Score)

variable {σ : Type} [Score σ]

theorem compile_of_error {c : Compiler σ} {tokens : List (Token Operand)} {e : QueryError}
    (h : Query.Tree.ofTokens tokens = .error e) : c.compile tokens = .error (.query e) := by
  rw [compile, h]

theorem balanced_or_rejected (c : Compiler σ) (tokens : List (Token Operand)) :
    (Balanced tokens ∧ ∃ ordered, Query.toPostfix tokens = .ok ordered ∧
      (∀ token ∈ ordered, token.parenthesis = false) ∧
      ordered.Perm (tokens.filter (fun token => !token.parenthesis)) ∧
      Token.operands ordered = Token.operands tokens) ∨
    (¬ Balanced tokens ∧
      Query.toPostfix tokens = .error .mismatchedParentheses ∧
      Query.Tree.ofTokens tokens = .error .mismatchedParentheses ∧
      c.compile tokens = .error (.query .mismatchedParentheses)) := by
  by_cases hb : Balanced tokens
  · left
    obtain ⟨ordered, ho⟩ := Query.exists_toPostfix hb
    have hp := Query.toPostfix_perm ho
    refine ⟨hb, ordered, ho, ?_, hp, Query.operands_toPostfix ho⟩
    intro token ht
    have hf := (List.mem_filter.mp (hp.mem_iff.mp ht)).2
    simpa using hf
  · right
    have ht := Query.Tree.ofTokens_of_unbalanced hb
    exact ⟨hb, Query.toPostfix_of_unbalanced hb, ht, compile_of_error ht⟩

end Criteria.Search.Compiler
