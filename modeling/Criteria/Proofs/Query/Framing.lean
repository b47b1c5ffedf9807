import Criteria.Proofs.Query.Balance

namespace Criteria.Query

variable {α : Type}

namespace Token

def enclose (block : List (Token α)) : List (Token α) :=
  .opening :: (block ++ [.closing])

end Token

namespace Postfix

theorem shunt_append (held : List Held) (front : List (Token α)) :
    (∀ rest, shunt held (front ++ rest) = none) ∨
      ∃ out kept, Token.operands out = Token.operands front ∧
        ∀ rest, shunt held (front ++ rest) = (shunt kept rest).map (out ++ ·) := by
  induction front generalizing held with
  | nil => exact .inr ⟨[], held, rfl, fun rest => Option.map_id'.symm⟩
  | cons token front ih =>
      simp only [List.cons_append, shunt_cons]
      cases hs : step held token with
      | none => exact .inl (fun rest => rfl)
      | some moved =>
          rcases ih moved.2 with stuck | ⟨out, kept, same, passes⟩
          · left
            intro rest
            rw [Option.bind_some, stuck]
            rfl
          · right
            refine ⟨moved.1 ++ out, kept, ?_, ?_⟩
            · rw [Token.operands_append, operands_step hs, same, ← Token.operands_append]
              rfl
            · intro rest
              rw [Option.bind_some, passes, Option.map_map]
              simp [Function.comp_def]

section Above

variable {held inner : List Held}

theorem release_above (incoming : Operator) :
    release incoming (inner ++ .opening :: held) =
      ((release incoming inner).1, (release incoming inner).2 ++ .opening :: held) := by
  induction inner with
  | nil => rfl
  | cons top inner ih =>
      cases top with
      | operator o =>
          rw [List.cons_append, release, release]
          split
          · rfl
          · rw [ih]
      | opening => rfl

theorem close_above {split : List Operator × List Held} (h : close inner = some split) :
    close (inner ++ .opening :: held) = some (split.1, split.2 ++ .opening :: held) := by
  induction inner generalizing split with
  | nil => cases h
  | cons top inner ih =>
      cases top with
      | operator o =>
          obtain ⟨later, hl, rfl⟩ := Option.map_eq_some_iff.mp h
          rw [List.cons_append, close, ih hl]
          rfl
      | opening =>
          cases h
          rfl

theorem close_of_drain {os : List Operator} (h : drain inner = some os) :
    close (inner ++ .opening :: held) = some (os, held) := by
  induction inner generalizing os with
  | nil =>
      cases h
      rfl
  | cons top inner ih =>
      cases top with
      | operator o =>
          obtain ⟨later, hl, rfl⟩ := Option.map_eq_some_iff.mp h
          rw [List.cons_append, close, ih hl]
          rfl
      | opening => cases h

theorem step_above {token : Token α} {moved : List (Token α) × List Held}
    (h : step inner token = some moved) :
    step (inner ++ .opening :: held) token = some (moved.1, moved.2 ++ .opening :: held) := by
  cases token with
  | operator o =>
      cases h
      rw [step, release_above]
      rfl
  | closing =>
      obtain ⟨split, hs, rfl⟩ := Option.map_eq_some_iff.mp h
      rw [step, close_above hs]
      rfl
  | _ =>
      cases h
      rfl

-- Read above a marker, a block writes what it writes alone, and the closing token drains
-- what it left there.
theorem shunt_enclosed {block ordered : List (Token α)} (h : shunt inner block = some ordered)
    (rest : List (Token α)) :
    shunt (inner ++ .opening :: held) (block ++ .closing :: rest) =
      (shunt held rest).map (ordered ++ ·) := by
  induction block generalizing inner ordered with
  | nil =>
      obtain ⟨os, ho, rfl⟩ := Option.map_eq_some_iff.mp h
      rw [List.nil_append, shunt, close_of_drain ho]
  | cons token block ih =>
      obtain ⟨moved, later, hs, hl, rfl⟩ := of_shunt_cons h
      rw [List.cons_append, shunt_cons, step_above hs, Option.bind_some, ih hl, Option.map_map]
      simp [Function.comp_def]

end Above

-- A piece that writes the same whatever is held back, and leaves that as it found it.
def Writes (piece out : List (Token α)) : Prop :=
  ∀ held rest, shunt held (piece ++ rest) = (shunt held rest).map (out ++ ·)

theorem writes_operand (a : α) : Writes [.operand a] [.operand a] :=
  fun _ _ => rfl

theorem writes_enclose {block ordered : List (Token α)} (h : shunt [] block = some ordered) :
    Writes (Token.enclose block) ordered := by
  intro held rest
  rw [Token.enclose, List.cons_append, List.append_assoc, shunt]
  exact shunt_enclosed h rest

theorem Writes.shunt_nil {piece out : List (Token α)} (h : Writes piece out) :
    shunt [] piece = some out := by
  have alone := h [] []
  rw [List.append_nil] at alone
  rw [alone, shunt, drain, Option.map_some, Option.map_some, operators, List.map_nil,
    List.append_nil]

theorem writes_in_place (front back : List (Token α)) :
    (∀ {piece out}, Writes piece out → shunt [] (front ++ piece ++ back) = none) ∨
      ∃ before after, Token.operands before = Token.operands front ∧
        Token.operands after = Token.operands back ∧
        ∀ {piece out}, Writes piece out →
          shunt [] (front ++ piece ++ back) = some (before ++ out ++ after) := by
  rcases shunt_append [] front with stuck | ⟨before, kept, same, passes⟩
  · left
    intro piece out _
    rw [List.append_assoc, stuck]
  · cases hk : shunt kept back with
    | none =>
        left
        intro piece out h
        rw [List.append_assoc, passes, h, hk]
        rfl
    | some after =>
        right
        refine ⟨before, after, same, operands_shunt hk, ?_⟩
        intro piece out h
        rw [List.append_assoc, passes, h, hk, List.append_assoc]
        rfl

end Postfix

theorem toPostfix_of_none {tokens : List (Token α)} (h : Postfix.shunt [] tokens = none) :
    toPostfix tokens = .error .mismatchedParentheses := by
  rw [toPostfix, h]

theorem toPostfix_enclose {block : List (Token α)} (balanced : Balanced block)
    (front back : List (Token α)) :
    ∃ ordered, toPostfix block = .ok ordered ∧
      ((∀ a, toPostfix (front ++ [.operand a] ++ back) = .error .mismatchedParentheses) ∧
          toPostfix (front ++ Token.enclose block ++ back) = .error .mismatchedParentheses ∨
        ∃ before after,
          Token.operands before = Token.operands front ∧
          Token.operands after = Token.operands back ∧
          (∀ a, toPostfix (front ++ [.operand a] ++ back) =
            .ok (before ++ [.operand a] ++ after)) ∧
          toPostfix (front ++ Token.enclose block ++ back) = .ok (before ++ ordered ++ after)) ∧
      toPostfix (front ++ Token.enclose (Token.enclose block) ++ back) =
        toPostfix (front ++ Token.enclose block ++ back) := by
  obtain ⟨ordered, ho⟩ := exists_toPostfix balanced
  have once := Postfix.writes_enclose (toPostfix_eq_ok.mp ho)
  have twice := Postfix.writes_enclose once.shunt_nil
  refine ⟨ordered, ho, ?_⟩
  rcases Postfix.writes_in_place front back with stuck | ⟨before, after, hf, hb, passes⟩
  · have failed := toPostfix_of_none (stuck once)
    refine ⟨.inl ⟨fun a => toPostfix_of_none (stuck (Postfix.writes_operand a)), failed⟩, ?_⟩
    rw [failed, toPostfix_of_none (stuck twice)]
  · have passed := toPostfix_eq_ok.mpr (passes once)
    refine ⟨.inr ⟨before, after, hf, hb, fun a => ?_, passed⟩, ?_⟩
    · exact toPostfix_eq_ok.mpr (passes (Postfix.writes_operand a))
    · rw [passed, toPostfix_eq_ok.mpr (passes twice)]

theorem toPostfix_enclose_sum :
    Balanced [.operand "b", .operator ⟨.or, false⟩, .operand "c"] ∧
      ∃ before after,
        Token.operands before = ["a"] ∧ Token.operands after = ["d"] ∧
        (∀ x, toPostfix [.operand "a", .operator ⟨.and, false⟩, .operand x,
          .operator ⟨.and, true⟩, .operand "d"] = .ok (before ++ [.operand x] ++ after)) ∧
        toPostfix [.operand "a", .operator ⟨.and, false⟩, .opening, .operand "b",
          .operator ⟨.or, false⟩, .operand "c", .closing, .operator ⟨.and, true⟩, .operand "d"] =
            .ok (before ++ [.operand "b", .operand "c", .operator ⟨.or, false⟩] ++ after) := by
  let sum : List (Token String) := [.operand "b", .operator ⟨.or, false⟩, .operand "c"]
  have balanced : Balanced sum := balanced_iff.mpr ((Postfix.isSome_shunt [] sum).mp rfl)
  refine ⟨balanced, ?_⟩
  obtain ⟨ordered, ho, cases, _⟩ := toPostfix_enclose balanced
    [.operand "a", .operator ⟨.and, false⟩] [.operator ⟨.and, true⟩, .operand "d"]
  cases ho
  rcases cases with ⟨_, failed⟩ | framed
  · cases failed
  · exact framed

end Criteria.Query
