import Criteria.Query.Postfix

namespace Criteria.Query.Postfix

variable {α : Type}

@[simp]
theorem operands_operators (os : List Operator) :
    Token.operands (operators os : List (Token α)) = [] := by
  induction os with
  | nil => rfl
  | cons o os ih => exact ih

-- What one token writes, and what is held back after it.
def step (held : List Held) : Token α → Option (List (Token α) × List Held)
  | .operand a => some ([.operand a], held)
  | .operator o => some (operators (release o held).1, .operator o :: (release o held).2)
  | .opening => some ([], .opening :: held)
  | .closing => (close held).map (Prod.map operators id)

theorem shunt_cons (held : List Held) (token : Token α) (rest : List (Token α)) :
    shunt held (token :: rest) =
      (step held token).bind (fun moved => (shunt moved.2 rest).map (moved.1 ++ ·)) := by
  cases token with
  | operand a => rfl
  | operator o => rfl
  | opening => exact Option.map_id'.symm
  | closing =>
      rw [shunt, step]
      cases close held <;> rfl

theorem of_shunt_cons {held : List Held} {token : Token α} {rest out : List (Token α)}
    (h : shunt held (token :: rest) = some out) :
    ∃ moved later, step held token = some moved ∧ shunt moved.2 rest = some later ∧
      out = moved.1 ++ later := by
  rw [shunt_cons, Option.bind_eq_some_iff] at h
  obtain ⟨moved, hs, h⟩ := h
  obtain ⟨later, hl, rfl⟩ := Option.map_eq_some_iff.mp h
  exact ⟨moved, later, hs, hl, rfl⟩

theorem operands_step {held : List Held} {token : Token α} {moved : List (Token α) × List Held}
    (h : step held token = some moved) : Token.operands moved.1 = Token.operands [token] := by
  cases token with
  | closing =>
      obtain ⟨split, _, rfl⟩ := Option.map_eq_some_iff.mp h
      exact operands_operators split.1
  | operator o =>
      cases h
      exact operands_operators _
  | _ =>
      cases h
      rfl

end Criteria.Query.Postfix
