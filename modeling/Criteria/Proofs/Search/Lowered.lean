import Criteria.Proofs.Search.Document
import Criteria.Proofs.Search.Drafting
import Criteria.Proofs.Search.Presence
import Criteria.Proofs.Search.Wording

namespace Criteria.Search

open Json (Value Members)
open Query (Comparison Operand)
open Schema (Score)

inductive Lowered : Value → Prop
  | primitive {kind : String} (hc : kind ≠ "compound") (he : kind ≠ "embeddedDocument")
      (body : Members) : Lowered (record kind body)
  | compound (keyword : String) {clauses : List Value} (ne : clauses ≠ [])
      (h : ∀ clause ∈ clauses, Lowered clause) : Lowered (compound keyword clauses)
  | requiring {must mustNot : List Value} (ne : must ≠ []) (hm : ∀ clause ∈ must, Lowered clause)
      (hn : ∀ clause ∈ mustNot, Lowered clause) : Lowered (requiring must mustNot)

namespace Lowered

theorem not_blank {document : Value} (h : Lowered document) : document.blank = false := by
  cases h <;> rfl

theorem unwrapped {document : Value} (h : Lowered document) : wrapperPath? document = none := by
  cases h with
  | primitive hc he body => exact wrapperPath?_of_primitive (primitive_record hc he body)
  | compound keyword ne h => rfl
  | requiring ne hm hn => rfl

theorem of_about {field : String} {clause : Value} (h : About field clause) : Lowered clause := by
  cases h with
  | record hk path =>
      exact .primitive (ne_of_mem_of_not_mem hk (by decide)) (ne_of_mem_of_not_mem hk (by decide)) _

theorem negated {clause : Value} (h : Lowered clause) : Lowered (negate clause) :=
  .compound "mustNot" (by simp) (by simpa using h)

theorem final {clause : Clause} (h : Lowered clause.document) : Lowered clause.final := by
  unfold Clause.final
  split
  · exact h.negated
  · exact h

theorem of_blankTest {field : String} {clause : Value} (h : BlankTest field clause) :
    Lowered clause := by
  cases h <;> exact .primitive (by decide) (by decide) _

theorem isNull (field : String) (ctx : Context) : Lowered (isNullDocument field ctx) :=
  isNullDocument_of (fun keyword _ ne h => .compound keyword ne h) (fun _ => of_blankTest)

theorem notNull (field : String) (ctx : Context) : Lowered (notNullDocument field ctx) :=
  notNullDocument_of (fun _ _ ne hm hn => .requiring ne hm hn) (fun _ => of_blankTest)

theorem of_compare {comparison : Comparison} {o : Operand} {ctx : Context} {clause : Clause}
    (h : Lowering.compare comparison o ctx = .ok clause) : Lowered clause.document := by
  cases worded_of_compare h with
  | about h => exact of_about h
  | isNull => exact isNull _ _
  | notNull => exact notNull _ _

theorem of_lowerOperand {o : Operand} {ctx : Context} {clause : Clause}
    (h : Lowering.lowerOperand o ctx = .ok clause) : Lowered clause.document := by
  simp only [Lowering.lowerOperand] at h
  split at h
  · cases h
    exact notNull _ _
  · exact of_compare h

theorem of_drafted {σ : Type} [Score σ] {c : Compiler σ} (hc : c.lowering = .standard)
    {o : Operand} {clause : Value} (h : c.Drafted o clause) : Lowered clause := by
  have final {clause : Clause} (hl : c.lowered o = .ok clause) : Lowered clause.final := by
    rw [Compiler.lowered, hc] at hl
    exact (of_lowerOperand hl).final
  cases h with
  | plain _ _ hl => exact final hl
  | including _ hl =>
      rw [hc]
      refine .compound "should" (by simp) ?_
      intro document hd
      simp only [List.mem_cons, List.not_mem_nil, or_false] at hd
      rcases hd with rfl | rfl
      · exact final hl
      · exact isNull _ _
  | present _ =>
      rw [hc]
      exact notNull _ _

theorem of_compileLeaf {σ : Type} [Score σ] {c : Compiler σ} (hc : c.lowering = .standard)
    {o : Operand} {leaf : Leaf} (h : c.compileLeaf o = .ok leaf) : Lowered leaf.clause :=
  of_drafted hc (Compiler.drafted_of_compileLeaf h)

end Lowered

end Criteria.Search
