import Criteria.Proofs.Query.SourceOrder
import Mathlib.Data.List.Infix
import Mathlib.Data.List.Perm.Basic

namespace Criteria.Query

variable {α : Type}

namespace Token

def isOpening : Token α → Bool
  | .opening => true
  | _ => false

def isClosing : Token α → Bool
  | .closing => true
  | _ => false

def plain (tokens : List (Token α)) : List (Token α) :=
  tokens.filter (fun token => !token.parenthesis)

end Token

def openings (tokens : List (Token α)) : Nat :=
  tokens.countP Token.isOpening

def closings (tokens : List (Token α)) : Nat :=
  tokens.countP Token.isClosing

def BalancedAbove (depth : Nat) (tokens : List (Token α)) : Prop :=
  (∀ before, before <+: tokens → closings before ≤ depth + openings before) ∧
    closings tokens = depth + openings tokens

def Balanced (tokens : List (Token α)) : Prop :=
  (∀ before, before <+: tokens → closings before ≤ openings before) ∧
    closings tokens = openings tokens

theorem balanced_iff {tokens : List (Token α)} : Balanced tokens ↔ BalancedAbove 0 tokens := by
  simp only [Balanced, BalancedAbove, Nat.zero_add]

theorem openings_cons (token : Token α) (tokens : List (Token α)) :
    openings (token :: tokens) = openings [token] + openings tokens := by
  rw [openings, ← List.singleton_append, List.countP_append]
  rfl

theorem closings_cons (token : Token α) (tokens : List (Token α)) :
    closings (token :: tokens) = closings [token] + closings tokens := by
  rw [closings, ← List.singleton_append, List.countP_append]
  rfl

theorem balancedAbove_nil {depth : Nat} : BalancedAbove depth ([] : List (Token α)) ↔ depth = 0 := by
  constructor
  · rintro ⟨_, h⟩
    exact Nat.eq_zero_of_add_eq_zero_right h.symm
  · rintro rfl
    refine ⟨?_, rfl⟩
    intro before hb
    rw [List.prefix_nil.mp hb]
    exact Nat.le_refl _

theorem balancedAbove_cons {depth : Nat} {token : Token α} {tokens : List (Token α)} :
    BalancedAbove depth (token :: tokens) ↔
      closings [token] ≤ depth + openings [token] ∧
        BalancedAbove (depth + openings [token] - closings [token]) tokens := by
  constructor
  · rintro ⟨hp, ht⟩
    have first : closings [token] ≤ depth + openings [token] :=
      hp [token] (List.cons_prefix_cons.mpr ⟨rfl, List.nil_prefix⟩)
    rw [openings_cons, closings_cons] at ht
    refine ⟨first, ?_, by omega⟩
    intro before hb
    have h := hp (token :: before) (List.cons_prefix_cons.mpr ⟨rfl, hb⟩)
    rw [openings_cons, closings_cons] at h
    omega
  · rintro ⟨first, hp, ht⟩
    rw [BalancedAbove, openings_cons, closings_cons]
    refine ⟨?_, by omega⟩
    intro before hb
    rcases List.prefix_cons_iff.mp hb with rfl | ⟨rest, rfl, hr⟩
    · exact Nat.zero_le _
    · have h := hp rest hr
      rw [openings_cons, closings_cons]
      omega

namespace Postfix

def nesting (held : List Held) : Nat :=
  held.count .opening

def waiting : List Held → List Operator
  | [] => []
  | .operator o :: held => o :: waiting held
  | .opening :: held => waiting held

theorem operators_append (os ps : List Operator) :
    (operators (os ++ ps) : List (Token α)) = operators os ++ operators ps :=
  List.map_append

theorem nesting_release (incoming : Operator) (held : List Held) :
    nesting (release incoming held).2 = nesting held := by
  fun_induction release incoming held with
  | case1 top rest h => rfl
  | case2 top rest h out kept hr ih =>
      rw [hr] at ih
      simpa [nesting] using ih
  | case3 held h => rfl

theorem waiting_release (incoming : Operator) (held : List Held) :
    (release incoming held).1 ++ waiting (release incoming held).2 = waiting held := by
  fun_induction release incoming held with
  | case1 top rest h => rfl
  | case2 top rest h out kept hr ih =>
      rw [hr] at ih
      simp only [waiting, List.cons_append, ← ih]
  | case3 held h => rfl

theorem close_eq_none {held : List Held} : close held = none ↔ nesting held = 0 := by
  induction held with
  | nil => simp [close, nesting]
  | cons top held ih =>
      cases top with
      | operator o => simpa [close, nesting] using ih
      | opening => simp [close, nesting]

theorem of_close_eq_some {held kept : List Held} {out : List Operator}
    (h : close held = some (out, kept)) :
    nesting held = nesting kept + 1 ∧ waiting held = out ++ waiting kept := by
  induction held generalizing out with
  | nil => cases h
  | cons top held ih =>
      cases top with
      | operator o =>
          simp only [close, Option.map_eq_some_iff, Prod.mk.injEq, Prod.exists] at h
          obtain ⟨inner, _, hi, rfl, rfl⟩ := h
          obtain ⟨hn, hw⟩ := ih hi
          exact ⟨by simpa [nesting] using hn, congrArg (o :: ·) hw⟩
      | opening =>
          cases h
          exact ⟨by simp [nesting], rfl⟩

theorem drain_eq (held : List Held) :
    drain held = if nesting held = 0 then some (waiting held) else none := by
  induction held with
  | nil => rfl
  | cons top held ih =>
      cases top with
      | operator o =>
          have hn : nesting (.operator o :: held) = nesting held := by simp [nesting]
          rw [drain, ih, hn, waiting]
          split <;> rfl
      | opening => simp [drain, nesting]

theorem step_eq_none {held : List Held} {token : Token α} :
    step held token = none ↔ nesting held + openings [token] < closings [token] := by
  cases token with
  | closing =>
      rw [step, Option.map_eq_none_iff, close_eq_none]
      exact Nat.lt_one_iff.symm
  | _ =>
      refine ⟨fun h => ?_, fun h => absurd h (Nat.not_lt_zero _)⟩
      cases h

theorem nesting_step {held : List Held} {token : Token α} {moved : List (Token α) × List Held}
    (h : step held token = some moved) :
    nesting moved.2 = nesting held + openings [token] - closings [token] := by
  cases token with
  | operand a =>
      cases h
      rfl
  | operator o =>
      cases h
      simpa [nesting, openings, closings, Token.isOpening, Token.isClosing]
        using nesting_release o held
  | opening =>
      cases h
      simp [nesting, openings, closings, Token.isOpening, Token.isClosing]
  | closing =>
      obtain ⟨split, hs, rfl⟩ := Option.map_eq_some_iff.mp h
      rw [(of_close_eq_some hs).1]
      rfl

theorem isSome_shunt (held : List Held) (tokens : List (Token α)) :
    (shunt held tokens).isSome = true ↔ BalancedAbove (nesting held) tokens := by
  induction tokens generalizing held with
  | nil =>
      rw [shunt, balancedAbove_nil, drain_eq]
      split <;> simp_all
  | cons token tokens ih =>
      rw [shunt_cons, balancedAbove_cons]
      cases hs : step held token with
      | none =>
          have early := step_eq_none.mp hs
          simp [Nat.not_le.mpr early]
      | some moved =>
          have enough : closings [token] ≤ nesting held + openings [token] :=
            Nat.not_lt.mp (fun early => by simp [step_eq_none.mpr early] at hs)
          rw [Option.bind_some, Option.isSome_map, ih, nesting_step hs, and_iff_right enough]

theorem step_perm {held : List Held} {token : Token α} {moved : List (Token α) × List Held}
    (h : step held token = some moved) :
    (moved.1 ++ operators (waiting moved.2)).Perm
      (operators (waiting held) ++ Token.plain [token]) := by
  cases token with
  | operand a =>
      cases h
      exact List.perm_append_comm
  | operator o =>
      cases h
      rw [← waiting_release o held, operators_append, List.append_assoc]
      exact (List.perm_append_singleton (Token.operator o) _).symm.append_left _
  | opening =>
      cases h
      exact .of_eq (List.append_nil _).symm
  | closing =>
      obtain ⟨split, hs, rfl⟩ := Option.map_eq_some_iff.mp h
      rw [(of_close_eq_some hs).2, operators_append]
      exact .of_eq (List.append_nil _).symm

theorem shunt_perm {held : List Held} {tokens out : List (Token α)}
    (h : shunt held tokens = some out) :
    out.Perm (operators (waiting held) ++ Token.plain tokens) := by
  induction tokens generalizing held out with
  | nil =>
      rw [shunt, drain_eq] at h
      split at h
      · cases h
        exact .of_eq (List.append_nil _).symm
      · cases h
  | cons token tokens ih =>
      obtain ⟨moved, later, hs, hl, rfl⟩ := of_shunt_cons h
      have split : Token.plain (token :: tokens) = Token.plain [token] ++ Token.plain tokens := by
        rw [Token.plain, ← List.singleton_append, List.filter_append]
        rfl
      calc
        (moved.1 ++ later).Perm (moved.1 ++ (operators (waiting moved.2) ++ Token.plain tokens)) :=
          (ih hl).append_left _
        _ = moved.1 ++ operators (waiting moved.2) ++ Token.plain tokens :=
          (List.append_assoc _ _ _).symm
        List.Perm _ (operators (waiting held) ++ Token.plain [token] ++ Token.plain tokens) :=
          (step_perm hs).append_right _
        _ = operators (waiting held) ++ Token.plain (token :: tokens) := by
          rw [split, List.append_assoc]

end Postfix

theorem toPostfix_eq_ok {tokens ordered : List (Token α)} :
    toPostfix tokens = .ok ordered ↔ Postfix.shunt [] tokens = some ordered := by
  unfold toPostfix
  split
  · rename_i out h
    simp [h]
  · rename_i h
    simp [h]

theorem exists_toPostfix {tokens : List (Token α)} (h : Balanced tokens) :
    ∃ ordered, toPostfix tokens = .ok ordered := by
  have hs := (Postfix.isSome_shunt [] tokens).mpr (balanced_iff.mp h)
  obtain ⟨ordered, ho⟩ := Option.isSome_iff_exists.mp hs
  exact ⟨ordered, toPostfix_eq_ok.mpr ho⟩

theorem toPostfix_of_unbalanced {tokens : List (Token α)} (h : ¬ Balanced tokens) :
    toPostfix tokens = .error .mismatchedParentheses := by
  have hs : Postfix.shunt [] tokens = none := by
    rw [← Option.not_isSome_iff_eq_none, Postfix.isSome_shunt]
    exact fun hb => h (balanced_iff.mpr hb)
  rw [toPostfix, hs]

theorem toPostfix_perm {tokens ordered : List (Token α)} (h : toPostfix tokens = .ok ordered) :
    ordered.Perm (Token.plain tokens) :=
  Postfix.shunt_perm (toPostfix_eq_ok.mp h)

theorem Tree.ofTokens_of_unbalanced {tokens : List (Token α)} (h : ¬ Balanced tokens) :
    Tree.ofTokens tokens = .error .mismatchedParentheses := by
  rw [Tree.ofTokens, toPostfix_of_unbalanced h]
  rfl

namespace Tree

theorem not_syntactic_of_step {stack : List (Tree α)} {token : Token α} {e : QueryError}
    (h : step stack token = .error e) : e.isSyntactic = false := by
  cases token with
  | operand a =>
      rw [step] at h
      cases h
  | operator o =>
      cases stack with
      | nil =>
          cases h
          rfl
      | cons right stack => cases stack <;> cases h
  | _ =>
      rw [step] at h
      cases h
      rfl

theorem not_syntactic_of_remaining {stack : List (Tree α)} {e : QueryError}
    (h : remaining stack = .error e) : e.isSyntactic = false := by
  cases stack with
  | nil =>
      cases h
      rfl
  | cons only stack =>
      cases stack with
      | nil => cases h
      | cons left stack =>
          cases h
          rfl

theorem not_syntactic_of_reduce {stack : List (Tree α)} {tokens : List (Token α)} {e : QueryError}
    (h : reduce stack tokens = .error e) : e.isSyntactic = false := by
  induction tokens generalizing stack with
  | nil =>
      rw [reduce_nil] at h
      exact not_syntactic_of_remaining h
  | cons token rest ih =>
      rw [reduce_cons] at h
      cases hs : step stack token with
      | error d =>
          rw [hs] at h
          cases h
          exact not_syntactic_of_step hs
      | ok moved =>
          rw [hs] at h
          exact ih h

end Tree

end Criteria.Query
