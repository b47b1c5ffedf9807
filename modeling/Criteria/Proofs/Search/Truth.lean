import Criteria.Proofs.Query.SourceOrder
import Criteria.Proofs.Query.Truth
import Criteria.Proofs.Search.Assembly
import Criteria.Proofs.Search.Lowered

namespace Criteria.Search

open Json (Value)
open Query (Connective Infix Level Operand Token)
open Schema (Score)

theorem verdict_keyword (c : Connective) (values : List Bool) :
    verdict c.keyword values = c.combine values := by
  cases c <;> rfl

theorem map_holds_assemble (valuation : Value → Bool) {t : Query.Tree Leaf}
    (hf : ∀ l ∈ t.leaves, l.embeddedIn = none) (hb : ∀ l ∈ t.leaves, l.clause.blank = false) :
    (assemble t).map (holds valuation) = [t.holds (fun l => holds valuation l.clause)] := by
  induction t with
  | leaf l =>
      have hd : l.document = l.clause := by
        rw [Leaf.document, hf l (by simp)]
      rw [assemble_leaf, hb l (by simp), hd]
      rfl
  | group operator children ih =>
      have hf' : ∀ t ∈ children, ∀ l ∈ t.leaves, l.embeddedIn = none :=
        fun t ht l hl => hf l (Query.Tree.mem_leaves_of_mem ht hl)
      have hb' : ∀ t ∈ children, ∀ l ∈ t.leaves, l.clause.blank = false :=
        fun t ht l hl => hb l (Query.Tree.mem_leaves_of_mem ht hl)
      have hc : (children.flatMap assemble).map (holds valuation) =
          children.map (Query.Tree.holds (fun l => holds valuation l.clause)) := by
        rw [List.map_flatMap, List.flatMap_congr (fun t ht => ih t ht (hf' t ht) (hb' t ht))]
        exact List.flatMap_pure_eq_map _ _
      rw [assemble_flat hf', List.map_singleton, holds_compound, verdict_keyword, hc,
        Query.Tree.holds_group]

namespace Compiler

variable {σ : Type} [Score σ]

def holdsAlone (c : Compiler σ) (valuation : Value → Bool) (o : Operand) : Bool :=
  match c.compile [.operand o] with
  | .ok document => holds valuation document
  | .error _ => false

theorem holdsAlone_eq {c : Compiler σ} (valuation : Value → Bool) {o : Operand}
    (h : ∃ leaf, c.compileLeaf o = .ok leaf) (hf : (c.leafOf o).embeddedIn = none)
    (hb : (c.leafOf o).clause.blank = false) :
    c.holdsAlone valuation o = holds valuation (c.leafOf o).clause := by
  have hc : c.compile [.operand o] = .ok (c.leafOf o).clause := by
    rw [compile_of_ofTokens (t := .leaf o) rfl, compileTree_eq (.leaf h),
      Query.Tree.map_leaf, assemble_leaf, hb, Leaf.document, hf]
    rfl
  rw [holdsAlone, hc]

theorem holds_compile (c : Compiler σ) (hc : c.lowering = .standard) {level : Level}
    (e : Infix Operand level)
    (lowers : ∀ o ∈ Token.operands e.tokens, ∃ leaf, c.compileLeaf o = .ok leaf)
    (flat : ∀ o ∈ Token.operands e.tokens, c.parent (c.prepare o) = none)
    (valuation : Value → Bool) :
    ∃ document, c.compile e.tokens = .ok document ∧
      holds valuation document = e.holds (c.holdsAlone valuation) := by
  have ht : Query.Tree.ofTokens e.tokens = .ok e.tree := by
    rw [Query.Tree.ofTokens, e.toPostfix_tokens]
    exact e.ofPostfix_ordered
  rw [← Query.Tree.leaves_ofTokens ht] at lowers flat
  have hf : ∀ o ∈ e.tree.leaves, (c.leafOf o).embeddedIn = none := fun o ho =>
    (embeddedIn_leafOf (lowers o ho)).trans (flat o ho)
  have hb : ∀ o ∈ e.tree.leaves, (c.leafOf o).clause.blank = false := fun o ho =>
    (Lowered.of_compileLeaf hc (compileLeaf_eq (lowers o ho))).not_blank
  have hm := map_holds_assemble valuation
    (Query.Tree.forall_leaves_map hf) (Query.Tree.forall_leaves_map hb)
  obtain ⟨document, hd, hv⟩ := List.map_eq_singleton_iff.mp hm
  refine ⟨document, ?_, ?_⟩
  · rw [compile_of_ofTokens ht, compileTree_eq lowers, hd]
    rfl
  · rw [hv, Query.Tree.holds_map, ← Query.Tree.holds_tree]
    apply Query.Tree.holds_congr
    intro o ho
    exact (holdsAlone_eq valuation (lowers o ho) (hf o ho) (hb o ho)).symm

def lampOrDear : Infix Operand (.chain .or) :=
  .joined .or (.single .or (.single .and (.operand (.compare "name" .equal (.string "lamp"))))) true
    (.single .and
      (.operand { Operand.compare "price" .greaterThan (.integer 5) with includeBlanks := true }))

def shopping : Infix Operand (.chain .or) :=
  .joined .or
    (.single .or
      (.joined .and (.single .and (.enclosed lampOrDear)) false
        (.operand (.compare "name" .notEqual (.string "desk")))))
    false (.single .and (.operand (.present "name")))

def lampOnly (document : Value) : Bool :=
  document = textClause "name" (.string "lamp")

theorem holds_compile_shopping :
    ∃ document, sample.compile shopping.tokens = .ok document ∧
      holds lampOnly document = true := by
  have lowers : ∀ o ∈ Token.operands shopping.tokens, ∃ leaf, sample.compileLeaf o = .ok leaf := by
    intro o ho
    simp only [shopping, lampOrDear, Infix.tokens, Token.operands_opening, Token.operands_append,
      Token.operands_operand, Token.operands_operator, Token.operands_closing, Token.operands_nil,
      List.mem_append, List.mem_cons, List.not_mem_nil, or_false] at ho
    rcases ho with ((rfl | rfl) | rfl) | rfl <;> exact ⟨_, rfl⟩
  have flat : ∀ o ∈ Token.operands shopping.tokens, sample.parent (sample.prepare o) = none := by
    decide +kernel
  obtain ⟨document, hd, hv⟩ := holds_compile sample rfl shopping lowers flat lampOnly
  exact ⟨document, hd, hv.trans (by decide +kernel)⟩

end Compiler

end Criteria.Search
