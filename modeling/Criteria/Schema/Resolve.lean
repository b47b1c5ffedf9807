import Criteria.Schema.Node
import Criteria.Schema.Similarity
import Criteria.Text.Dotted

namespace Criteria.Schema

structure Thresholds (σ : Type) where
  candidate : σ
  strong : σ
  moderate : σ
  deriving DecidableEq

def Thresholds.standard : Thresholds Float where
  candidate := 0.8
  strong := 0.7
  moderate := 0.5

inductive Tier where
  | strong
  | moderate
  | missing
  deriving DecidableEq, Repr

def Tier.name : Tier → String
  | .strong => "strong"
  | .moderate => "moderate"
  | .missing => "missing"

structure Candidate (σ : Type) where
  node : Node
  parent : Option Node
  path : List String
  similarity : σ
  deriving DecidableEq

structure Step (σ : Type) where
  segment : String
  start : Node
  candidates : List (Candidate σ)
  chosen : Option (Candidate σ)

structure Resolution (σ : Type) where
  requested : String
  node : Node
  canonicalPath : String
  parentIsList : Bool
  similarity : σ
  tier : Tier
  deriving DecidableEq

variable {σ : Type} [Score σ]

def Candidate.depth {σ : Type} (c : Candidate σ) : Nat :=
  c.path.length

def Candidate.weight (c : Candidate σ) : σ :=
  Score.weigh c.similarity c.node.hasChildren c.depth

mutual
def collect (threshold : σ) (segment : String) (parent : Option Node) (path : List String) :
    Node → List (Candidate σ)
  | ⟨name, tag, list, declared, children⟩ =>
      let node : Node := ⟨name, tag, list, declared, children⟩
      let score : σ := similarity segment name
      (if threshold ≤ score then [⟨node, parent, path, score⟩] else []) ++
        collectForest threshold segment node path children
def collectForest (threshold : σ) (segment : String) (parent : Node) (path : List String) :
    List Node → List (Candidate σ)
  | [] => []
  | n :: ns =>
      collect threshold segment (some parent) (path ++ [n.name]) n ++
        collectForest threshold segment parent path ns
end

namespace Thresholds

def candidates (t : Thresholds σ) (start : Node) (segment : String) : List (Candidate σ) :=
  collect t.candidate segment none [] start

def heavier (best : Option (Candidate σ)) (c : Candidate σ) : Option (Candidate σ) :=
  match best with
  | none => some c
  | some b => if b.weight < c.weight then some c else some b

def heaviest (cs : List (Candidate σ)) : Option (Candidate σ) :=
  cs.foldl heavier none

def eligible {σ : Type} (structural : Bool) (c : Candidate σ) : Bool :=
  !structural || c.node.hasChildren

def strongTier (t : Thresholds σ) (c : Candidate σ) : Bool :=
  decide (t.strong ≤ c.similarity)

def moderateTier (t : Thresholds σ) (c : Candidate σ) : Bool :=
  decide (t.moderate ≤ c.similarity) && decide (c.similarity < t.strong)

def select (t : Thresholds σ) (structural : Bool) (cs : List (Candidate σ)) :
    Option (Candidate σ) :=
  let pool := cs.filter (eligible structural)
  (heaviest (pool.filter t.strongTier)).or (heaviest (pool.filter t.moderateTier))

def walk (t : Thresholds σ) (start : Node) : List String → List (Step σ)
  | [] => []
  | segment :: rest =>
      let cs := t.candidates start segment
      match t.select (!rest.isEmpty) cs with
      | none => [⟨segment, start, cs, none⟩]
      | some c => ⟨segment, start, cs, some c⟩ :: walk t c.node rest

def trail (t : Thresholds σ) (root : Node) (path : String) : List (Step σ) :=
  t.walk root (Text.Dotted.segments path)

def bound {σ : Type} (steps : List (Step σ)) : Option (List (Candidate σ)) :=
  steps.mapM Step.chosen

def missing (path : String) : Resolution σ where
  requested := path
  node := Node.undeclared path
  canonicalPath := path
  parentIsList := false
  similarity := Score.ratio 0 1
  tier := .missing

def lower (lowest s : σ) : σ :=
  if s < lowest then s else lowest

def lowest (cs : List (Candidate σ)) : σ :=
  (cs.map Candidate.similarity).foldl lower (Score.ratio 1 1)

def settled (t : Thresholds σ) (root : Node) (path : String) (cs : List (Candidate σ)) :
    Resolution σ where
  requested := path
  node := (cs.map Candidate.node).getLastD root
  canonicalPath := Text.Dotted.join (cs.flatMap Candidate.path)
  parentIsList := (cs.filterMap Candidate.parent).getLast?.any Node.list
  similarity := lowest cs
  tier := if t.strong ≤ lowest cs then .strong else .moderate

def resolve (t : Thresholds σ) (root : Node) (path : String) : Resolution σ :=
  match bound (t.trail root path) with
  | none => missing path
  | some cs => t.settled root path cs

end Thresholds

namespace Resolution

def isDeclared {σ : Type} (r : Resolution σ) : Bool :=
  r.node.declared

def embedded {σ : Type} (r : Resolution σ) : Bool :=
  r.node.declared && r.parentIsList

def terminal {σ : Type} (r : Resolution σ) : Node :=
  r.node.deepest

end Resolution

end Criteria.Schema
