import Criteria.Proofs.Query.Balance
import Criteria.Proofs.Query.Join

namespace Criteria.Query

variable {α : Type}

def Token.operator? : Token α → Option Operator
  | .operator o => some o
  | _ => none

namespace Joining

theorem forks_tree {j : Joining α} (h : ∀ n ∈ j.nodes, n.Forks) : j.tree.Forks :=
  Tree.forks_join j.operator j.nodes_ne_nil h

end Joining

namespace Tree

def joiningsFrom : List (Tree α) → List (Token α) → List (Joining α)
  | stack, .operand a :: rest => joiningsFrom (.leaf a :: stack) rest
  | [right], .operator o :: rest => ⟨o, none, right⟩ :: joiningsFrom [join o [right]] rest
  | right :: left :: stack, .operator o :: rest =>
      ⟨o, some left, right⟩ :: joiningsFrom (join o [left, right] :: stack) rest
  | _, _ => []

def joinings (tokens : List (Token α)) : List (Joining α) :=
  match toPostfix tokens with
  | .ok ordered => joiningsFrom [] ordered
  | .error _ => []

inductive Reduces : List (Tree α) → List (Token α) → List (Joining α) → Tree α → Prop
  | done (t : Tree α) : Reduces [t] [] [] t
  | operand {stack : List (Tree α)} {rest : List (Token α)} {js : List (Joining α)} {t : Tree α}
      (a : α) (later : Reduces (.leaf a :: stack) rest js t) :
      Reduces stack (.operand a :: rest) js t
  | operator {stack : List (Tree α)} {rest : List (Token α)} {js : List (Joining α)} {t : Tree α}
      (j : Joining α) (alone : j.left = none → stack = []) (later : Reduces (j.tree :: stack) rest js t) :
      Reduces (j.nodes.reverse ++ stack) (.operator j.operator :: rest) (j :: js) t

theorem joiningsFrom_operator {j : Joining α} {below : List (Tree α)}
    (alone : j.left = none → below = []) (rest : List (Token α)) :
    joiningsFrom (j.nodes.reverse ++ below) (.operator j.operator :: rest) =
      j :: joiningsFrom (j.tree :: below) rest := by
  obtain ⟨o, left, right⟩ := j
  cases left with
  | none =>
      cases alone rfl
      rfl
  | some left => rfl

theorem reduces_of_reduce {stack : List (Tree α)} {tokens : List (Token α)} {t : Tree α}
    (h : reduce stack tokens = .ok t) : Reduces stack tokens (joiningsFrom stack tokens) t := by
  induction tokens generalizing stack with
  | nil =>
      rw [reduce_nil] at h
      cases eq_of_remaining h
      exact .done t
  | cons token rest ih =>
      rw [reduce_cons] at h
      obtain ⟨moved, hs, h⟩ := Except.bind_eq_ok_iff.mp h
      obtain ⟨a, rfl, rfl⟩ | ⟨j, below, rfl, alone, rfl, rfl⟩ := of_step hs
      · exact .operand a (ih h)
      · rw [joiningsFrom_operator alone]
        exact .operator j alone (ih h)

theorem exists_reduces {tokens : List (Token α)} {t : Tree α} (h : ofTokens tokens = .ok t) :
    ∃ ordered, ordered.Perm (Token.plain tokens) ∧ Reduces [] ordered (joinings tokens) t := by
  obtain ⟨ordered, hp, hr⟩ := Except.bind_eq_ok_iff.mp h
  refine ⟨ordered, toPostfix_perm hp, ?_⟩
  rw [joinings, hp]
  exact reduces_of_reduce hr

theorem Reduces.operators {stack : List (Tree α)} {tokens : List (Token α)}
    {js : List (Joining α)} {t : Tree α} (h : Reduces stack tokens js t) :
    js.map Joining.operator = tokens.filterMap Token.operator? := by
  induction h with
  | done t => rfl
  | operand a later ih => exact ih
  | operator j alone later ih =>
      rw [List.map_cons, ih]
      rfl

theorem Reduces.keeps {p : Tree α → Prop} (leaf : ∀ a, p (.leaf a))
    (merged : ∀ j : Joining α, (∀ n ∈ j.nodes, p n) → p j.tree) {stack : List (Tree α)}
    {tokens : List (Token α)} {js : List (Joining α)} {t : Tree α}
    (h : Reduces stack tokens js t) (hs : ∀ n ∈ stack, p n) : p t := by
  induction h with
  | done t => exact hs t List.mem_cons_self
  | operand a later ih => exact ih (List.forall_mem_cons.mpr ⟨leaf a, hs⟩)
  | operator j alone later ih =>
      simp only [List.forall_mem_append, List.mem_reverse] at hs
      exact ih (List.forall_mem_cons.mpr ⟨merged j hs.1, hs.2⟩)

theorem ofPostfix_keeps {p : Tree α → Prop} (leaf : ∀ a, p (.leaf a))
    (merged : ∀ j : Joining α, (∀ n ∈ j.nodes, p n) → p j.tree) {tokens : List (Token α)}
    {t : Tree α} (h : ofPostfix tokens = .ok t) : p t :=
  (reduces_of_reduce h).keeps leaf merged nofun

theorem branching_ofPostfix {tokens : List (Token α)} {t : Tree α} (h : ofPostfix tokens = .ok t) :
    t.Branching :=
  ofPostfix_keeps branching_leaf (fun j => branching_join j.operator j.nodes_ne_nil) h

theorem branching_ofTokens {tokens : List (Token α)} {t : Tree α} (h : ofTokens tokens = .ok t) :
    t.Branching := by
  obtain ⟨ordered, _, hr⟩ := Except.bind_eq_ok_iff.mp h
  exact branching_ofPostfix hr

theorem paired_ofPostfix {tokens : List (Token α)} {t : Tree α} (h : ofPostfix tokens = .ok t) :
    t.Paired :=
  ofPostfix_keeps paired_leaf (fun j => paired_join j.operator j.nodes_ne_nil j.length_nodes_le) h

theorem operators_plain (tokens : List (Token α)) :
    (Token.plain tokens).filterMap Token.operator? = tokens.filterMap Token.operator? := by
  rw [Token.plain, List.filterMap_filter]
  congr 1
  funext token
  cases token <;> rfl

theorem operators_joinings {tokens : List (Token α)} {t : Tree α} (h : ofTokens tokens = .ok t) :
    ((joinings tokens).map Joining.operator).Perm (tokens.filterMap Token.operator?) := by
  obtain ⟨ordered, hp, hr⟩ := exists_reduces h
  rw [hr.operators, ← operators_plain tokens]
  exact hp.filterMap _

end Tree

end Criteria.Query
