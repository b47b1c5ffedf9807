import Criteria.Proofs.Search.Assembly
import Criteria.Proofs.Search.Drafting
import Criteria.Proofs.Search.Failure

namespace Criteria.Search.Compiler

open Query (Balanced Operand Token)
open Schema (Score)

variable {σ : Type} [Score σ]

theorem exists_leaf_iff {c : Compiler σ} {o : Operand} :
    (∃ leaf, c.compileLeaf o = .ok leaf) ↔ ∀ e, ¬ c.Refuses o e := by
  simp only [← compileLeaf_eq_error_iff]
  cases c.compileLeaf o <;> simp

theorem compileTree_eq_error_iff {c : Compiler σ} {t : Query.Tree Operand} {e : CompileError} :
    c.compileTree t = .error e ↔
      ∃ before o after, t.leaves = before ++ o :: after ∧
        (∀ b ∈ before, ∀ d, ¬ c.Refuses b d) ∧ c.Refuses o e := by
  have leaves : c.compileTree t = .error e ↔ t.leaves.mapM c.compileLeaf = .error e := by
    rw [← Query.Tree.map_leaves_traverse, Except.map_eq_error_iff]
    exact Except.map_eq_error_iff
  rw [leaves, Except.mapM_eq_error_iff]
  simp only [exists_leaf_iff, compileLeaf_eq_error_iff]

theorem lowers_of_compileTree {c : Compiler σ} {t : Query.Tree Operand} {document : Json.Value}
    (h : c.compileTree t = .ok document) : c.Lowers t := by
  obtain ⟨leaves, hl, _⟩ := Except.map_eq_ok_iff.mp h
  have listed := congrArg (Except.map Query.Tree.leaves) hl
  rw [Query.Tree.map_leaves_traverse] at listed
  exact Except.exists_ok_of_mapM listed

theorem compile_of_tree {c : Compiler σ} {tokens : List (Token Operand)} {t : Query.Tree Operand}
    (ht : Query.Tree.ofTokens tokens = .ok t) :
    (∃ before o after e, Token.operands tokens = before ++ o :: after ∧
      (∀ b ∈ before, ∀ d, ¬ c.Refuses b d) ∧ c.Refuses o e ∧ c.compile tokens = .error e) ∨
    ∃ document, (∀ o ∈ Token.operands tokens, ∀ d, ¬ c.Refuses o d) ∧
      c.compile tokens = .ok document := by
  rw [compile_of_ofTokens ht, ← Query.Tree.leaves_ofTokens ht]
  cases hc : c.compileTree t with
  | error e =>
      obtain ⟨before, o, after, hs, passed, refused⟩ := compileTree_eq_error_iff.mp hc
      exact .inl ⟨before, o, after, e, hs, passed, refused, rfl⟩
  | ok document =>
      exact .inr ⟨document, fun o ho => exists_leaf_iff.mp (lowers_of_compileTree hc o ho), rfl⟩

theorem compile_verdict (c : Compiler σ) (tokens : List (Token Operand)) :
    (¬ Balanced tokens ∧ c.compile tokens = .error (.query .mismatchedParentheses) ∨
      (∃ ordered e, Balanced tokens ∧ Query.toPostfix tokens = .ok ordered ∧
        Query.Tree.ofPostfix ordered = .error e ∧ e.isSyntactic = false ∧
        c.compile tokens = .error (.query e)) ∨
      (∃ t before o after e, Query.Tree.ofTokens tokens = .ok t ∧
        Token.operands tokens = before ++ o :: after ∧
        (∀ b ∈ before, ∀ d, ¬ c.Refuses b d) ∧ c.Refuses o e ∧ c.compile tokens = .error e) ∨
      ∃ t document, Query.Tree.ofTokens tokens = .ok t ∧
        (∀ o ∈ Token.operands tokens, ∀ d, ¬ c.Refuses o d) ∧ c.compile tokens = .ok document) ∧
    ∀ (rules : EmbeddingRules) (tokens' : List (Token Operand)) (t t' : Query.Tree Operand),
      Query.Tree.ofTokens tokens = .ok t → Query.Tree.ofTokens tokens' = .ok t' →
        Token.operands tokens = Token.operands tokens' →
          ∀ e, c.compile tokens = .error e ↔
            { c with rules := rules }.compile tokens' = .error e := by
  refine ⟨?_, ?_⟩
  · by_cases hb : Balanced tokens
    · obtain ⟨ordered, ho⟩ := Query.exists_toPostfix hb
      have parsed : Query.Tree.ofTokens tokens = Query.Tree.ofPostfix ordered := by
        rw [Query.Tree.ofTokens, ho]
        rfl
      cases hr : Query.Tree.ofPostfix ordered with
      | error e =>
          exact .inr (.inl ⟨ordered, e, hb, ho, hr, Query.Tree.not_syntactic_of_reduce hr,
            compile_of_error (parsed.trans hr)⟩)
      | ok t =>
          have ht := parsed.trans hr
          rcases compile_of_tree (c := c) ht with
            ⟨before, o, after, e, refused⟩ | ⟨document, compiled⟩
          · exact .inr (.inr (.inl ⟨t, before, o, after, e, ht, refused⟩))
          · exact .inr (.inr (.inr ⟨t, document, ht, compiled⟩))
    · exact .inl ⟨hb, compile_of_error (Query.Tree.ofTokens_of_unbalanced hb)⟩
  · intro rules tokens' t t' ht ht' operands e
    rw [compile_of_ofTokens ht, compile_of_ofTokens ht', compileTree_eq_error_iff,
      compileTree_eq_error_iff, Query.Tree.leaves_ofTokens ht, Query.Tree.leaves_ofTokens ht',
      operands]
    rfl

def calledLamp : Operand :=
  .compare "name" .equal (.string "lamp")

def aboutLamp : Operand :=
  .compare "name" .search (.string "lamp")

def aboveNull : Operand :=
  .compare "price" .greaterThan .null

def leading : List (Token Operand) :=
  [.operand calledLamp, .operator ⟨.and, false⟩, .operand aboutLamp, .operator ⟨.or, false⟩,
    .operand aboveNull]

def regrouped : List (Token Operand) :=
  [.operand calledLamp, .operator ⟨.or, true⟩, .opening, .operand aboutLamp,
    .operator ⟨.and, false⟩, .operand aboveNull, .closing]

theorem compile_verdict_regrouped :
    sample.compile leading = .error (.unsupported .search) ∧
      { sample with rules := .schemaOnly }.compile regrouped = .error (.unsupported .search) := by
  have first : Query.Tree.ofTokens leading =
      .ok (.group ⟨.or, false⟩ [.group ⟨.and, false⟩ [.leaf calledLamp, .leaf aboutLamp],
        .leaf aboveNull]) := rfl
  have second : Query.Tree.ofTokens regrouped =
      .ok (.group ⟨.or, true⟩ [.leaf calledLamp,
        .group ⟨.and, false⟩ [.leaf aboutLamp, .leaf aboveNull]]) := rfl
  have refused : sample.compile leading = .error (.unsupported .search) := rfl
  exact ⟨refused,
    ((compile_verdict sample leading).2 .schemaOnly regrouped _ _ first second rfl _).mp refused⟩

end Criteria.Search.Compiler
