import Criteria.Proofs.Search.Blankness
import Criteria.Proofs.Search.Declared

namespace Criteria.Search

open Query (Comparison Operand Token)
open Schema (Node Score Thresholds)

-- An operand that asks nothing about blanks.
structure Direct (o : Operand) : Prop where
  strict : o.includeBlanks = false
  compared : ∃ comparison, o.comparison = some comparison ∧ comparison ≠ .isNull ∧
    comparison ≠ .notNull

theorem compare_congr {comparison : Comparison} (hn : comparison ≠ .isNull)
    (hp : comparison ≠ .notNull) (o : Operand) (ctx ctx' : Context) :
    Lowering.compare comparison o ctx = Lowering.compare comparison o ctx' := by
  cases comparison with
  | isNull => exact absurd rfl hn
  | notNull => exact absurd rfl hp
  | _ => rfl

theorem lowerOperand_congr {o : Operand} (h : Direct o) (ctx ctx' : Context) :
    Lowering.lowerOperand o ctx = Lowering.lowerOperand o ctx' := by
  obtain ⟨comparison, hc, hn, hp⟩ := h.compared
  rw [Lowering.lowerOperand, Lowering.lowerOperand, hc]
  exact compare_congr hn hp o ctx ctx'

namespace Compiler

variable {σ : Type} [Score σ]

theorem lowerLeaf_congr {σ : Type} {c : Compiler σ} (hc : c.lowering = .standard) {o : Operand}
    (h : Direct o) (ctx ctx' : Context) : c.lowerLeaf o ctx = c.lowerLeaf o ctx' := by
  obtain ⟨comparison, hs, _⟩ := h.compared
  have lowered : c.lowering.lower o ctx = c.lowering.lower o ctx' := by
    rw [hc]
    exact lowerOperand_congr h ctx ctx'
  simp only [lowerLeaf, h.strict, hs, lowered, Bool.false_eq_true, if_false]

theorem compileLeaf_congr {c : Compiler σ} (hc : c.lowering = .standard) {schema : Node}
    {thresholds : Thresholds σ} {o : Operand} (h : Direct (c.prepare o))
    (parent : { c with schema := schema, thresholds := thresholds }.parent (c.prepare o) =
      c.parent (c.prepare o)) :
    { c with schema := schema, thresholds := thresholds }.compileLeaf o = c.compileLeaf o := by
  have lowered := lowerLeaf_congr hc h
    (.ofResolution (thresholds.resolve schema (c.prepare o).field))
    (.ofResolution (c.resolution (c.prepare o)))
  rw [compileLeaf, compileLeaf, compilePrepared, compilePrepared, parent, ← lowered]
  rfl

theorem Drafted.about {c : Compiler σ} (hc : c.lowering = .standard) {o : Operand}
    (h : Direct (c.prepare o)) {clause : Json.Value} (hd : c.Drafted o clause) :
    Built (About (c.prepare o).field) clause := by
  obtain ⟨comparison, hs, hn, hp⟩ := h.compared
  cases hd with
  | @plain clause _ _ hl =>
      rw [lowered, hc] at hl
      have worded : Worded (c.prepare o) (c.context o) comparison clause := by
        apply worded_of_compare
        rw [← hl]
        simp only [Lowering.standard, Lowering.lowerOperand, hs]
      cases worded with
      | about about =>
          have part : Built (About (c.prepare o).field) clause.document := .given about
          have kept := (Lowered.of_about about).not_blank
          rw [Clause.final]
          split
          · exact .compound (by simpa using kept) (by simpa using part)
          · exact part
      | isNull => exact absurd rfl hn
      | notNull => exact absurd rfl hp
  | including included => simp [h.strict] at included
  | present unasked => exact absurd (.inr (by rw [hs]; rfl)) unasked

theorem built_about {c : Compiler σ} (hc : c.lowering = .standard) {t : Query.Tree Operand}
    (direct : ∀ o ∈ t.leaves, Direct (c.prepare o)) {document : Json.Value}
    (h : c.compileTree t = .ok document) :
    Built (fun d => ∃ o ∈ t.leaves, About (c.prepare o).field d) document := by
  have lowers := lowers_of_compileTree h
  have leaf : ∀ o ∈ t.leaves,
      Built (fun d => ∃ o ∈ t.leaves, About (c.prepare o).field d) (c.leafOf o).clause := by
    intro o ho
    have drafted := drafted_of_compileLeaf (compileLeaf_eq (lowers o ho))
    exact (drafted.about hc (direct o ho)).mono (fun d hd => ⟨o, ho, hd⟩)
  apply built_of_mem_assemble (Query.Tree.forall_leaves_map (fun o ho _ => leaf o ho))
  rw [assemble_standard hc lowers h]
  exact List.mem_singleton_self _

theorem compile_confined {c : Compiler σ} (hc : c.lowering = .standard)
    {tokens : List (Token Operand)}
    (direct : ∀ o ∈ Token.operands tokens, Direct (c.prepare o)) {schema : Node}
    {thresholds : Thresholds σ}
    (parents : ∀ o ∈ Token.operands tokens,
      { c with schema := schema, thresholds := thresholds }.parent (c.prepare o) =
        c.parent (c.prepare o)) :
    { c with schema := schema, thresholds := thresholds }.compile tokens = c.compile tokens ∧
      ∀ document, c.compile tokens = .ok document →
        Built (fun d => ∃ o ∈ Token.operands tokens, About (c.prepare o).field d) document := by
  cases ht : Query.Tree.ofTokens tokens with
  | error e =>
      refine ⟨(compile_of_error ht).trans (compile_of_error ht).symm, ?_⟩
      intro document h
      rw [compile_of_error ht] at h
      cases h
  | ok t =>
      rw [compile_of_ofTokens ht, compile_of_ofTokens ht]
      rw [← Query.Tree.leaves_ofTokens ht] at direct parents ⊢
      constructor
      · rw [compileTree, compileTree, Query.Tree.traverse_congr fun o ho =>
          compileLeaf_congr hc (direct o ho) (parents o ho)]
      · exact fun document h => built_about hc direct h

def reworked : Node :=
  { name := "Item"
    tag := "Item"
    children :=
      [.scalar "price" "String",
        { name := "reviews"
          tag := "Note"
          list := true
          children := [.scalar "stars" "Date", .scalar "author" "Integer"] }] }

def literal : Thresholds Rat :=
  ⟨1, 1, 1⟩

def wellRated : List (Token Operand) :=
  [.operand (.compare "reviews.stars" .equal (.integer 5)), .operator ⟨.and, false⟩,
    .operand (.compare "price" .notEqual (.integer 10))]

theorem compile_confined_reworked :
    { sample with schema := reworked, thresholds := literal }.compile wellRated =
      .ok (compound "must"
        [negate (equalsClause "price" (.integer 10)),
          embeddedDocument "reviews"
            (compound "must" [equalsClause "reviews.stars" (.integer 5)])]) := by
  have direct : ∀ o ∈ Token.operands wellRated, Direct (sample.prepare o) := by
    intro o ho
    simp only [wellRated, Token.operands_operand, Token.operands_operator, Token.operands_nil,
      List.mem_cons, List.not_mem_nil, or_false] at ho
    rcases ho with rfl | rfl <;> exact ⟨rfl, _, rfl, by decide, by decide⟩
  have evaluated : (∀ o ∈ Token.operands wellRated,
      { sample with schema := reworked, thresholds := literal }.parent (sample.prepare o) =
        sample.parent (sample.prepare o)) ∧
      sample.compile wellRated = .ok (compound "must"
        [negate (equalsClause "price" (.integer 10)),
          embeddedDocument "reviews"
            (compound "must" [equalsClause "reviews.stars" (.integer 5)])]) := by
    decide +kernel
  exact (compile_confined rfl direct evaluated.1).1.trans evaluated.2

end Compiler

end Criteria.Search
