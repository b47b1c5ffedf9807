import Criteria.Query.Postfix

namespace Criteria.Query

inductive Tree (α : Type) where
  | leaf (a : α)
  | group (operator : Operator) (children : List (Tree α))

namespace Tree

variable {α β : Type}

def spliced (operator : Operator) : Tree α → List (Tree α)
  | .leaf a => [.leaf a]
  | .group inner children =>
      if !operator.separate && inner.connective = operator.connective then children
      else [.group inner children]

def collapse (operator : Operator) : List (Tree α) → Tree α
  | [only] => only
  | children => .group operator children

def join (operator : Operator) (nodes : List (Tree α)) : Tree α :=
  collapse operator (nodes.flatMap (spliced operator))

def leaf? : Tree α → Option α
  | .leaf a => some a
  | .group _ _ => none

mutual
def leaves : Tree α → List α
  | .leaf a => [a]
  | .group _ children => forestLeaves children
def forestLeaves : List (Tree α) → List α
  | [] => []
  | t :: ts => leaves t ++ forestLeaves ts
end

mutual
def depth : Tree α → Nat
  | .leaf _ => 1
  | .group _ children => 1 + forestDepth children
def forestDepth : List (Tree α) → Nat
  | [] => 0
  | t :: ts => max (depth t) (forestDepth ts)
end

mutual
def map (f : α → β) : Tree α → Tree β
  | .leaf a => .leaf (f a)
  | .group operator children => .group operator (forestMap f children)
def forestMap (f : α → β) : List (Tree α) → List (Tree β)
  | [] => []
  | t :: ts => map f t :: forestMap f ts
end

mutual
def traverse {ε : Type} (f : α → Except ε β) : Tree α → Except ε (Tree β)
  | .leaf a => (f a).map .leaf
  | .group operator children => (forestTraverse f children).map (.group operator)
def forestTraverse {ε : Type} (f : α → Except ε β) : List (Tree α) → Except ε (List (Tree β))
  | [] => .ok []
  | t :: ts => do
      let t ← traverse f t
      let ts ← forestTraverse f ts
      return t :: ts
end

def indent (level : Nat) : String :=
  String.ofList (List.replicate (2 * level) ' ')

mutual
def lines (label : α → String) (level : Nat) : Tree α → List String
  | .leaf a => [indent level ++ label a]
  | .group operator children =>
      (indent level ++ operator.connective.name ++ (if operator.separate then " (separate)" else "")) ::
        forestLines label (level + 1) children
def forestLines (label : α → String) (level : Nat) : List (Tree α) → List String
  | [] => []
  | t :: ts => lines label level t ++ forestLines label level ts
end

def display (label : α → String) (t : Tree α) : String :=
  String.join ((lines label 0 t).map (· ++ "\n"))

def reduce : List (Tree α) → List (Token α) → Except QueryError (Tree α)
  | [only], [] => .ok only
  | stack, [] => .error (.nodesLeft stack.length)
  | stack, .operand a :: rest => reduce (.leaf a :: stack) rest
  | [], .operator o :: _ => .error (.noOperands o.connective)
  | [right], .operator o :: rest => reduce [join o [right]] rest
  | right :: left :: stack, .operator o :: rest => reduce (join o [left, right] :: stack) rest
  | _, .opening :: _ => .error .strayParenthesis
  | _, .closing :: _ => .error .strayParenthesis

def ofPostfix (tokens : List (Token α)) : Except QueryError (Tree α) :=
  reduce [] tokens

def ofTokens (tokens : List (Token α)) : Except QueryError (Tree α) := do
  let ordered ← toPostfix tokens
  ofPostfix ordered

end Tree

end Criteria.Query
