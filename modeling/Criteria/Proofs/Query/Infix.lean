import Criteria.Query.Tree
import Mathlib.Data.List.Induction

namespace Criteria.Query

inductive Level where
  | primary
  | chain (connective : Connective)
  deriving DecidableEq, Repr

def Level.strength : Level → Nat
  | .primary => Connective.and.precedence + 1
  | .chain connective => connective.precedence

def Connective.parts : Connective → Level
  | .and => .primary
  | .or => .chain .and

theorem Connective.strength_parts (c : Connective) : c.parts.strength = c.precedence + 1 := by
  cases c <;> rfl

inductive Infix (α : Type) : Level → Type where
  | operand (a : α) : Infix α .primary
  | enclosed (e : Infix α (.chain .or)) : Infix α .primary
  | single (c : Connective) (part : Infix α c.parts) : Infix α (.chain c)
  | joined (c : Connective) (e : Infix α (.chain c)) (separate : Bool) (part : Infix α c.parts) :
      Infix α (.chain c)

namespace Infix

variable {α : Type}

def tokens : {level : Level} → Infix α level → List (Token α)
  | _, .operand a => [.operand a]
  | _, .enclosed e => .opening :: (e.tokens ++ [.closing])
  | _, .single _ part => part.tokens
  | _, .joined c e separate part => e.tokens ++ .operator ⟨c, separate⟩ :: part.tokens

def tree : {level : Level} → Infix α level → Tree α
  | _, .operand a => .leaf a
  | _, .enclosed e => e.tree
  | _, .single _ part => part.tree
  | _, .joined c e separate part => .join ⟨c, separate⟩ [e.tree, part.tree]

def ordered : {level : Level} → Infix α level → List (Token α)
  | _, .operand a => [.operand a]
  | _, .enclosed e => e.ordered
  | _, .single _ part => part.ordered
  | _, .joined c e separate part => e.ordered ++ (part.ordered ++ [.operator ⟨c, separate⟩])

end Infix

namespace Postfix

variable {α : Type}

def Waits (strength : Nat) : List Held → Prop
  | .operator top :: _ => top.connective.precedence < strength
  | _ => True

def Ends (strength : Nat) : List (Token α) → Prop
  | [] => True
  | .closing :: _ => True
  | .operator o :: _ => o.connective.precedence ≤ strength
  | _ => False

theorem Waits.mono {m n : Nat} (hmn : m ≤ n) {held : List Held} (h : Waits m held) :
    Waits n held := by
  cases held with
  | nil => trivial
  | cons top held =>
      cases top with
      | operator o => exact Nat.lt_of_lt_of_le h hmn
      | opening => trivial

theorem Ends.mono {m n : Nat} (hmn : m ≤ n) {rest : List (Token α)} (h : Ends m rest) :
    Ends n rest := by
  cases rest with
  | nil => trivial
  | cons token rest =>
      cases token with
      | operand a => exact h
      | operator o => exact Nat.le_trans h hmn
      | opening => exact h
      | closing => trivial

theorem release_of_waits {o : Operator} {held : List Held}
    (h : Waits o.connective.precedence held) : release o held = ([], held) := by
  unfold release
  split
  · exact if_pos h
  · rfl

theorem shunt_held {o : Operator} {held : List Held} {rest : List (Token α)}
    (h : Ends o.connective.precedence rest) :
    shunt (.operator o :: held) rest = (shunt held rest).map (.operator o :: ·) := by
  cases rest with
  | nil => simp [shunt, drain, operators, Function.comp_def]
  | cons token rest =>
      cases token with
      | operand a => exact h.elim
      | opening => exact h.elim
      | closing =>
          simp only [shunt, close]
          cases close held with
          | none => rfl
          | some split => simp [operators, Function.comp_def]
      | operator p =>
          have hp : ¬ o.connective.precedence < p.connective.precedence := Nat.not_lt.mpr h
          simp [shunt, release, hp, operators, Function.comp_def]

theorem shunt_tokens {level : Level} (e : Infix α level) {held : List Held}
    {rest : List (Token α)} (hw : Waits level.strength held) (he : Ends level.strength rest) :
    shunt held (e.tokens ++ rest) = (shunt held rest).map (e.ordered ++ ·) := by
  induction e generalizing held rest with
  | operand a => rfl
  | enclosed e ih =>
      have h := @ih (.opening :: held) (.closing :: rest) trivial trivial
      simpa [Infix.tokens, Infix.ordered, shunt, close, operators] using h
  | single c part ih =>
      have hc : c.precedence ≤ c.parts.strength := by
        rw [c.strength_parts]
        exact Nat.le_succ _
      exact ih (hw.mono hc) (he.mono hc)
  | joined c e separate part ihe ihp =>
      let o : Operator := ⟨c, separate⟩
      have hc : c.precedence < c.parts.strength := by
        rw [c.strength_parts]
        exact Nat.lt_succ_self _
      have hr : release o held = ([], held) := release_of_waits hw
      have ho : Waits c.parts.strength (.operator o :: held) := hc
      have hp : shunt (.operator o :: held) (part.tokens ++ rest) =
          (shunt held rest).map (fun out => part.ordered ++ .operator o :: out) := by
        rw [ihp ho (he.mono (Nat.le_of_lt hc)), shunt_held (o := o) he, Option.map_map]
        rfl
      calc
        shunt held ((e.tokens ++ .operator o :: part.tokens) ++ rest)
        _ = (shunt held (.operator o :: (part.tokens ++ rest))).map (e.ordered ++ ·) := by
          rw [List.append_assoc]
          exact ihe hw (Nat.le_refl _)
        _ = ((shunt (.operator o :: held) (part.tokens ++ rest)).map (operators [] ++ ·)).map
            (e.ordered ++ ·) := by
          rw [shunt, hr]
        _ = (shunt held rest).map (e.ordered ++ (part.ordered ++ [.operator o]) ++ ·) := by
          rw [hp]
          simp [operators, Function.comp_def]

end Postfix

namespace Infix

variable {α : Type} {level : Level}

theorem toPostfix_tokens (e : Infix α level) : toPostfix e.tokens = .ok e.ordered := by
  have h : Postfix.shunt [] (e.tokens ++ []) = some (e.ordered ++ []) :=
    Postfix.shunt_tokens e trivial trivial
  simp only [List.append_nil] at h
  rw [toPostfix, h]

theorem reduce_ordered (e : Infix α level) (stack : List (Tree α)) (rest : List (Token α)) :
    Tree.reduce stack (e.ordered ++ rest) = Tree.reduce (e.tree :: stack) rest := by
  induction e generalizing stack rest with
  | operand a =>
      rw [ordered, List.singleton_append, Tree.reduce]
      rfl
  | enclosed e ih => exact ih stack rest
  | single c part ih => exact ih stack rest
  | joined c e separate part ihe ihp =>
      simp only [ordered, List.append_assoc, List.singleton_append]
      rw [ihe, ihp, Tree.reduce]
      rfl

theorem ofPostfix_ordered (e : Infix α level) : Tree.ofPostfix e.ordered = .ok e.tree := by
  have h := reduce_ordered e [] []
  rw [List.append_nil, Tree.reduce] at h
  exact h

theorem ofTokens_eq (e : Infix α level) : Tree.ofTokens e.tokens = .ok e.tree := by
  rw [Tree.ofTokens, toPostfix_tokens]
  exact ofPostfix_ordered e

def chain (c : Connective) (first : Infix α c.parts) (rest : List (Bool × Infix α c.parts)) :
    Infix α (.chain c) :=
  rest.foldl (fun e next => .joined c e next.1 next.2) (.single c first)

theorem chain_concat (c : Connective) (first : Infix α c.parts)
    (rest : List (Bool × Infix α c.parts)) (next : Bool × Infix α c.parts) :
    chain c first (rest ++ [next]) = .joined c (chain c first rest) next.1 next.2 := by
  rw [chain, List.foldl_append]
  rfl

theorem exists_chain {c : Connective} (e : Infix α (.chain c)) :
    ∃ first rest, e = chain c first rest := by
  match e with
  | .single c part => exact ⟨part, [], rfl⟩
  | .joined c e separate part =>
      obtain ⟨first, rest, rfl⟩ := exists_chain e
      exact ⟨first, rest ++ [(separate, part)], (chain_concat c first rest (separate, part)).symm⟩

theorem tokens_chain (c : Connective) (first : Infix α c.parts)
    (rest : List (Bool × Infix α c.parts)) :
    (chain c first rest).tokens =
      first.tokens ++ rest.flatMap (fun next => .operator ⟨c, next.1⟩ :: next.2.tokens) := by
  induction rest using List.reverseRecOn with
  | nil => simp [chain, tokens]
  | append_singleton rest next ih => simp [chain_concat, tokens, ih]

theorem tree_chain (c : Connective) (first : Infix α c.parts)
    (rest : List (Bool × Infix α c.parts)) :
    (chain c first rest).tree =
      rest.foldl (fun read next => .join ⟨c, next.1⟩ [read, next.2.tree]) first.tree := by
  induction rest using List.reverseRecOn with
  | nil => rfl
  | append_singleton rest next ih =>
      rw [chain_concat, tree, ih, List.foldl_append]
      rfl

theorem ofTokens_tokens {c : Connective} (e : Infix α (.chain c)) :
    Tree.ofTokens e.tokens = .ok e.tree ∧
      ∃ (first : Infix α c.parts) (rest : List (Bool × Infix α c.parts)),
        e.tokens = first.tokens ++
          rest.flatMap (fun next => .operator ⟨c, next.1⟩ :: next.2.tokens) ∧
        e.tree = rest.foldl (fun read next => .join ⟨c, next.1⟩ [read, next.2.tree])
          first.tree := by
  constructor
  · rw [Tree.ofTokens, toPostfix_tokens]
    exact ofPostfix_ordered e
  · obtain ⟨first, rest, rfl⟩ := exists_chain e
    exact ⟨first, rest, tokens_chain c first rest, tree_chain c first rest⟩

end Infix

end Criteria.Query
