import Criteria.Proofs.Except
import Criteria.Query.Tree

namespace Criteria.Query

variable {α : Type}

-- One reduction: the operator with the node or the two nodes that it took from the stack.
structure Joining (α : Type) where
  operator : Operator
  left : Option (Tree α)
  right : Tree α

namespace Joining

def nodes (j : Joining α) : List (Tree α) :=
  j.left.toList ++ [j.right]

def tree (j : Joining α) : Tree α :=
  .join j.operator j.nodes

theorem nodes_ne_nil (j : Joining α) : j.nodes ≠ [] := by
  simp [nodes]

theorem length_nodes_le (j : Joining α) : j.nodes.length ≤ 2 := by
  cases h : j.left <;> simp [nodes, h]

end Joining

namespace Tree

-- What one token makes of the stack.
def step : List (Tree α) → Token α → Except QueryError (List (Tree α))
  | stack, .operand a => .ok (.leaf a :: stack)
  | [], .operator o => .error (.noOperands o.connective)
  | [right], .operator o => .ok [join o [right]]
  | right :: left :: stack, .operator o => .ok (join o [left, right] :: stack)
  | _, .opening => .error .strayParenthesis
  | _, .closing => .error .strayParenthesis

def remaining : List (Tree α) → Except QueryError (Tree α)
  | [only] => .ok only
  | stack => .error (.nodesLeft stack.length)

theorem reduce_nil (stack : List (Tree α)) : reduce stack [] = remaining stack := by
  cases stack with
  | nil => rfl
  | cons only stack => cases stack <;> rfl

theorem reduce_cons (stack : List (Tree α)) (token : Token α) (rest : List (Token α)) :
    reduce stack (token :: rest) = step stack token >>= (reduce · rest) := by
  cases token with
  | operator o =>
      cases stack with
      | nil => rfl
      | cons right stack => cases stack <;> rfl
  | _ =>
      rw [reduce, step]
      rfl

theorem eq_of_remaining {stack : List (Tree α)} {t : Tree α} (h : remaining stack = .ok t) :
    stack = [t] := by
  cases stack with
  | nil => cases h
  | cons only stack =>
      cases stack with
      | nil =>
          cases h
          rfl
      | cons left stack => cases h

theorem of_step {stack moved : List (Tree α)} {token : Token α}
    (h : step stack token = .ok moved) :
    (∃ a, token = .operand a ∧ moved = .leaf a :: stack) ∨
      ∃ (j : Joining α) (below : List (Tree α)), token = .operator j.operator ∧
        (j.left = none → below = []) ∧ stack = j.nodes.reverse ++ below ∧
          moved = j.tree :: below := by
  cases token with
  | operand a =>
      cases h
      exact .inl ⟨a, rfl, rfl⟩
  | operator o =>
      cases stack with
      | nil => cases h
      | cons right stack =>
          cases stack with
          | nil =>
              cases h
              exact .inr ⟨⟨o, none, right⟩, [], rfl, fun _ => rfl, rfl, rfl⟩
          | cons left stack =>
              cases h
              exact .inr ⟨⟨o, some left, right⟩, stack, rfl,
                fun alone => absurd alone (Option.some_ne_none left), rfl, rfl⟩
  | _ =>
      rw [step] at h
      cases h

theorem ne_nil_of_step {stack moved : List (Tree α)} {token : Token α}
    (h : step stack token = .ok moved) : moved ≠ [] := by
  obtain ⟨a, -, rfl⟩ | ⟨j, below, -, -, -, rfl⟩ := of_step h
  · exact List.cons_ne_nil _ _
  · exact List.cons_ne_nil _ _

end Tree

end Criteria.Query
