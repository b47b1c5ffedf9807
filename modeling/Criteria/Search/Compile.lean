import Criteria.Query.Tree
import Criteria.Search.Embedding
import Criteria.Search.Lowering

namespace Criteria.Search

open Json (Value)
open Query (Operand Operator Token)
open Schema (Node Resolution Score Thresholds)

structure Leaf where
  clause : Value
  embeddedIn : Option String
  deriving DecidableEq

def Leaf.document (l : Leaf) : Value :=
  match l.embeddedIn with
  | some path => embeddedDocument path l.clause
  | none => l.clause

abbrev Groups := List (String × List Value)

def Groups.add (path : String) (clause : Value) : Groups → Groups
  | [] => [(path, [clause])]
  | (p, clauses) :: rest =>
      if p = path then (p, clauses ++ [clause]) :: rest
      else (p, clauses) :: Groups.add path clause rest

def Groups.documents (gs : Groups) : List Value :=
  gs.map (fun (path, clauses) => embeddedDocument path (compound "must" clauses))

def kept (document : Value) : List Value :=
  if document.blank then [] else [document]

structure Conjunction where
  flat : List Value := []
  groups : Groups := []

def Conjunction.addLeaf (c : Conjunction) (l : Leaf) : Conjunction :=
  if l.clause.blank then c
  else match l.embeddedIn with
    | some path => { c with groups := c.groups.add path l.clause }
    | none => { c with flat := c.flat ++ [l.clause] }

def Conjunction.addDocuments (c : Conjunction) (documents : List Value) : Conjunction :=
  { c with flat := c.flat ++ documents }

def Conjunction.clauses (c : Conjunction) : List Value :=
  c.flat ++ c.groups.documents

mutual
def assemble : Query.Tree Leaf → List Value
  | .leaf l => if l.clause.blank then [] else [l.document]
  | .group operator children =>
      match operator.connective with
      | .and => [compound "must" (assembleAll {} children).clauses]
      | .or => [compound "should" (assembleEach children)]
def assembleAll (c : Conjunction) : List (Query.Tree Leaf) → Conjunction
  | [] => c
  | .leaf l :: ts => assembleAll (c.addLeaf l) ts
  | .group operator children :: ts =>
      assembleAll (c.addDocuments (assemble (.group operator children))) ts
def assembleEach : List (Query.Tree Leaf) → List Value
  | [] => []
  | t :: ts => assemble t ++ assembleEach ts
end

structure Compiler (σ : Type) where
  schema : Node
  thresholds : Thresholds σ
  rules : EmbeddingRules := .standard
  lowering : Lowering := .standard
  prepare : Operand → Operand := id

namespace Compiler

variable {σ : Type} [Score σ]

def lowerLeaf {σ : Type} (c : Compiler σ) (o : Operand) (ctx : Context) :
    Except CompileError Value :=
  if o.includeBlanks then do
    let clause ← c.lowering.lower o ctx
    return compound "should" [clause.final, c.lowering.isNull o.field ctx]
  else match o.comparison with
    | none => .ok (c.lowering.notNull o.field ctx)
    | some _ => (c.lowering.lower o ctx).map Clause.final

def resolution (c : Compiler σ) (o : Operand) : Resolution σ :=
  c.thresholds.resolve c.schema o.field

def parent (c : Compiler σ) (o : Operand) : Option String :=
  c.rules.classify o.field (c.resolution o)

def compilePrepared (c : Compiler σ) (o : Operand) : Except CompileError Leaf := do
  let clause ← c.lowerLeaf o (.ofResolution (c.resolution o))
  return ⟨clause, c.parent o⟩

def compileLeaf (c : Compiler σ) (o : Operand) : Except CompileError Leaf :=
  c.compilePrepared (c.prepare o)

def compileTree (c : Compiler σ) (t : Query.Tree Operand) : Except CompileError Value := do
  let leaves ← t.traverse c.compileLeaf
  return (assemble leaves).head?.getD .null

def compile (c : Compiler σ) (tokens : List (Token Operand)) : Except CompileError Value :=
  match Query.Tree.ofTokens tokens with
  | .error e => .error (.query e)
  | .ok t => c.compileTree t

end Compiler

end Criteria.Search
