import Criteria.Proofs.Search.Grouping

namespace Criteria.Search

open Json (Value)
open Query (Operand Operator)
open Schema (Score)

namespace Compiler

variable {σ : Type} [Score σ]

def flatPart (c : Compiler σ) : Query.Tree Operand → List Value
  | .leaf o =>
      match (c.leafOf o).embeddedIn with
      | none => kept (c.leafOf o).clause
      | some _ => []
  | .group operator children => kept (c.document (.group operator children))

def embeddedPart (c : Compiler σ) : Query.Tree Operand → List (String × Value)
  | .leaf o =>
      match (c.leafOf o).embeddedIn with
      | none => []
      | some path => (kept (c.leafOf o).clause).map (path, ·)
  | .group _ _ => []

def declared (c : Compiler σ) : Query.Tree Operand → Value
  | .leaf o => if (c.leafOf o).clause.blank then .null else (c.leafOf o).document
  | .group operator children =>
      match operator.connective with
      | .and => compound "must"
          (children.flatMap c.flatPart ++ wrappers (children.flatMap c.embeddedPart))
      | .or => compound "should" (children.flatMap (fun t => kept (c.document t)))

theorem lowered_leafOf {c : Compiler σ} (hc : c.lowering = .standard) {t : Query.Tree Operand}
    (h : c.Lowers t) : ∀ o ∈ t.leaves, Lowered (c.leafOf o).clause :=
  fun o ho => .of_compileLeaf hc (compileLeaf_eq (h o ho))

theorem assemble_standard {c : Compiler σ} (hc : c.lowering = .standard) {t : Query.Tree Operand}
    (h : c.Lowers t) {document : Value} (hd : c.compileTree t = .ok document) :
    assemble (t.map c.leafOf) = [document] :=
  assemble_of_compileTree h (fun o ho => (lowered_leafOf hc h o ho).not_blank) hd

end Compiler

end Criteria.Search
