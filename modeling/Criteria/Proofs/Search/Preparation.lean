import Criteria.Proofs.Query.Relabelling
import Criteria.Search.Compile

namespace Criteria.Search.Compiler

open Query (Operand Token)
open Schema (Score)

variable {σ : Type} [Score σ]

theorem compileTree_map (c : Compiler σ) (f : Operand → Operand) (t : Query.Tree Operand) :
    { c with prepare := id }.compileTree (t.map f) = { c with prepare := f }.compileTree t := by
  rw [compileTree, Query.Tree.traverse_map]
  rfl

theorem compile_prepared (c : Compiler σ) (f : Operand → Operand)
    (tokens : List (Token Operand)) :
    { c with prepare := f }.compile tokens =
        { c with prepare := id }.compile (tokens.map (Token.map f)) ∧
      (∀ (β : Type) (label : Operand → β),
        Query.Tree.ofTokens (tokens.map (Token.map label)) =
          (Query.Tree.ofTokens tokens).map (Query.Tree.map label)) ∧
      ∀ o, { c with prepare := f }.compileLeaf o =
        (c.lowerLeaf (f o) (.ofResolution (c.thresholds.resolve c.schema (f o).field))).map
          (⟨·, c.rules.classify (f o).field (c.thresholds.resolve c.schema (f o).field)⟩) := by
  refine ⟨?_, fun _ label => Query.Tree.ofTokens_map label tokens, fun _ => rfl⟩
  rw [compile, compile, Query.Tree.ofTokens_map]
  cases Query.Tree.ofTokens tokens with
  | error e => rfl
  | ok t => exact (compileTree_map c f t).symm

end Criteria.Search.Compiler
