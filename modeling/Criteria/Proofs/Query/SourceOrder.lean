import Criteria.Proofs.Query.Forest
import Criteria.Proofs.Query.Shunting
import Criteria.Proofs.Query.Stacking

namespace Criteria.Query

namespace Postfix

variable {α : Type}

theorem operands_shunt {held : List Held} {tokens out : List (Token α)}
    (h : shunt held tokens = some out) : Token.operands out = Token.operands tokens := by
  induction tokens generalizing held out with
  | nil =>
      obtain ⟨os, _, rfl⟩ := Option.map_eq_some_iff.mp h
      exact operands_operators os
  | cons token tokens ih =>
      obtain ⟨moved, later, hs, hl, rfl⟩ := of_shunt_cons h
      rw [Token.operands_append, operands_step hs, ih hl, ← Token.operands_append]
      rfl

end Postfix

theorem operands_toPostfix {α : Type} {tokens ordered : List (Token α)}
    (h : toPostfix tokens = .ok ordered) : Token.operands ordered = Token.operands tokens := by
  unfold toPostfix at h
  split at h
  · rename_i out hs
    cases h
    exact Postfix.operands_shunt hs
  · cases h

namespace Tree

variable {α : Type}

theorem leaves_step {stack moved : List (Tree α)} {token : Token α}
    (h : step stack token = .ok moved) :
    moved.reverse.flatMap leaves = stack.reverse.flatMap leaves ++ Token.operands [token] := by
  obtain ⟨a, rfl, rfl⟩ | ⟨j, below, rfl, -, rfl, rfl⟩ := of_step h
  · simp
  · simp [Joining.tree, leaves_join]

theorem leaves_reduce {stack : List (Tree α)} {tokens : List (Token α)} {t : Tree α}
    (h : reduce stack tokens = .ok t) :
    t.leaves = stack.reverse.flatMap leaves ++ Token.operands tokens := by
  induction tokens generalizing stack with
  | nil =>
      rw [reduce_nil] at h
      rw [eq_of_remaining h]
      simp
  | cons token tokens ih =>
      rw [reduce_cons] at h
      obtain ⟨moved, hs, h⟩ := Except.bind_eq_ok_iff.mp h
      rw [ih h, leaves_step hs, List.append_assoc, ← Token.operands_append, List.singleton_append]

theorem leaves_ofPostfix {tokens : List (Token α)} {t : Tree α} (h : ofPostfix tokens = .ok t) :
    t.leaves = Token.operands tokens :=
  leaves_reduce h

theorem leaves_ofTokens {tokens : List (Token α)} {t : Tree α} (h : ofTokens tokens = .ok t) :
    t.leaves = Token.operands tokens := by
  obtain ⟨ordered, hp, hr⟩ := Except.bind_eq_ok_iff.mp h
  rw [leaves_ofPostfix hr, operands_toPostfix hp]

theorem leaves_in_source_order (tokens : List (Token α)) :
    (∀ t, ofTokens tokens = .ok t → t.leaves = Token.operands tokens) ∧
      ∀ t, ofPostfix tokens = .ok t → t.leaves = Token.operands tokens :=
  ⟨fun _ => leaves_ofTokens, fun _ => leaves_ofPostfix⟩

-- An operator before the first operand, one behind the last, and one behind the two it joins.
def danglingStream : List (Token String) :=
  [.operator ⟨.and, false⟩, .operand "a", .operator ⟨.or, true⟩, .opening, .operand "b",
    .operand "c", .operator ⟨.and, false⟩, .closing, .operator ⟨.or, false⟩]

def danglingOrder : List (Token String) :=
  [.operand "a", .operator ⟨.or, true⟩, .operand "b", .operand "c", .operator ⟨.and, false⟩,
    .operator ⟨.or, false⟩, .operator ⟨.and, true⟩]

theorem leaves_in_source_order_dangling :
    (∃ t, ofTokens danglingStream = .ok t ∧ t.leaves = ["a", "b", "c"]) ∧
      ∃ t, ofPostfix danglingOrder = .ok t ∧ t.leaves = ["a", "b", "c"] :=
  ⟨⟨_, rfl, (leaves_in_source_order danglingStream).1 _ rfl⟩,
    ⟨_, rfl, (leaves_in_source_order danglingOrder).2 _ rfl⟩⟩

end Tree

end Criteria.Query
