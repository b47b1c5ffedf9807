import Criteria.Proofs.Query.Join
import Criteria.Proofs.Query.Shunting
import Criteria.Proofs.Query.Stacking

namespace Criteria.Query

variable {α β : Type}

namespace Postfix

@[simp]
theorem map_operators (f : α → β) (os : List Operator) :
    (operators os).map (Token.map f) = operators os := by
  rw [operators, List.map_map]
  rfl

-- What is held back are operators and parentheses only: it is the same in both runs.
theorem step_map (f : α → β) (held : List Held) (token : Token α) :
    step held (token.map f) = (step held token).map (Prod.map (List.map (Token.map f)) id) := by
  cases token with
  | operator o =>
      rw [Token.map, step, step, Option.map_some, Prod.map, map_operators]
      rfl
  | closing =>
      rw [Token.map, step, step, Option.map_map]
      refine Option.map_congr (fun split _ => ?_)
      rw [Function.comp, Prod.map, Prod.map, Prod.map, map_operators]
      rfl
  | _ => rfl

theorem shunt_map (f : α → β) (held : List Held) (tokens : List (Token α)) :
    shunt held (tokens.map (Token.map f)) = (shunt held tokens).map (List.map (Token.map f)) := by
  induction tokens generalizing held with
  | nil =>
      rw [List.map_nil, shunt, shunt, Option.map_map]
      exact congrArg (fun out => (drain held).map out) (funext fun os => (map_operators f os).symm)
  | cons token tokens ih =>
      rw [List.map_cons, shunt_cons, shunt_cons, step_map, Option.bind_map, Option.map_bind]
      refine congrArg (Option.bind (step held token)) (funext fun moved => ?_)
      simp [ih, Function.comp_def]

end Postfix

theorem toPostfix_map (f : α → β) (tokens : List (Token α)) :
    toPostfix (tokens.map (Token.map f)) = (toPostfix tokens).map (List.map (Token.map f)) := by
  rw [toPostfix, toPostfix, Postfix.shunt_map]
  cases Postfix.shunt [] tokens <;> rfl

namespace Tree

theorem spliced_map (f : α → β) (operator : Operator) (t : Tree α) :
    spliced operator (map f t) = (spliced operator t).map (map f) := by
  cases t with
  | leaf a => simp [spliced]
  | group inner children =>
      rw [map_group, spliced, spliced]
      split
      · rfl
      · rw [List.map_singleton, map_group]

theorem collapse_map (f : α → β) (operator : Operator) (ts : List (Tree α)) :
    collapse operator (ts.map (map f)) = map f (collapse operator ts) := by
  cases ts with
  | nil => exact (map_group f operator []).symm
  | cons t ts =>
      cases ts with
      | nil => rfl
      | cons s ts => exact (map_group f operator (t :: s :: ts)).symm

theorem join_map (f : α → β) (operator : Operator) (nodes : List (Tree α)) :
    join operator (nodes.map (map f)) = map f (join operator nodes) := by
  rw [join, join, ← collapse_map, List.flatMap_map, List.map_flatMap]
  exact congrArg (collapse operator) (List.flatMap_congr fun t _ => spliced_map f operator t)

theorem step_map (f : α → β) (stack : List (Tree α)) (token : Token α) :
    step (stack.map (map f)) (token.map f) = (step stack token).map (List.map (map f)) := by
  cases token with
  | operand a => rw [Token.map, step, step, Except.map, List.map_cons, map_leaf]
  | operator o =>
      cases stack with
      | nil => rfl
      | cons right stack =>
          cases stack with
          | nil => exact congrArg (fun t => Except.ok [t]) (join_map f o [right])
          | cons left stack =>
              exact congrArg (fun t => Except.ok (t :: stack.map (map f)))
                (join_map f o [left, right])
  | _ =>
      rw [Token.map, step, step]
      rfl

theorem remaining_map (f : α → β) (stack : List (Tree α)) :
    remaining (stack.map (map f)) = (remaining stack).map (map f) := by
  cases stack with
  | nil => rfl
  | cons only stack =>
      cases stack with
      | nil => rfl
      | cons left stack => simp [remaining, Except.map]

theorem reduce_map (f : α → β) (stack : List (Tree α)) (tokens : List (Token α)) :
    reduce (stack.map (map f)) (tokens.map (Token.map f)) = (reduce stack tokens).map (map f) := by
  induction tokens generalizing stack with
  | nil => rw [List.map_nil, reduce_nil, reduce_nil, remaining_map]
  | cons token tokens ih =>
      rw [List.map_cons, reduce_cons, reduce_cons, step_map]
      cases step stack token with
      | error e => rfl
      | ok moved => exact ih moved

theorem ofTokens_map (f : α → β) (tokens : List (Token α)) :
    ofTokens (tokens.map (Token.map f)) = (ofTokens tokens).map (map f) := by
  rw [ofTokens, ofTokens, toPostfix_map]
  cases toPostfix tokens with
  | error e => rfl
  | ok ordered => exact reduce_map f [] ordered

theorem forestTraverse_map {γ ε : Type} (f : α → β) (g : β → Except ε γ) {ts : List (Tree α)}
    (h : ∀ t ∈ ts, traverse g (map f t) = traverse (fun a => g (f a)) t) :
    forestTraverse g (ts.map (map f)) = forestTraverse (fun a => g (f a)) ts := by
  induction ts with
  | nil => rfl
  | cons t ts ih =>
      obtain ⟨ht, hts⟩ := List.forall_mem_cons.mp h
      rw [List.map_cons, forestTraverse, forestTraverse, ht, ih hts]

theorem traverse_map {γ ε : Type} (f : α → β) (g : β → Except ε γ) (t : Tree α) :
    traverse g (map f t) = traverse (fun a => g (f a)) t := by
  induction t with
  | leaf a => rw [map_leaf, traverse, traverse]
  | group operator children ih =>
      rw [map_group, traverse, traverse, forestTraverse_map f g ih]

end Tree

end Criteria.Query
