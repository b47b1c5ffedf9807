import Criteria.Proofs.Query.Reduction

namespace Criteria.Query

variable {α : Type}

namespace Tree

def separate : Tree α → Bool
  | .leaf _ => false
  | .group operator _ => operator.separate

def ordinaryGroup (c : Connective) (t : Tree α) : Bool :=
  !t.separate && t.connective? = some c

def separateGroup (c : Connective) (t : Tree α) : Bool :=
  t.separate && t.connective? = some c

def Merged (t : Tree α) : Prop :=
  ∀ operator children, .group operator children ∈ t.subtrees → operator.separate = false →
    ∀ child ∈ children, child.ordinaryGroup operator.connective = false

theorem merged_leaf (a : α) : Merged (.leaf a) := by
  intro operator children h
  simp at h

theorem merged_group {operator : Operator} {children : List (Tree α)} :
    Merged (.group operator children) ↔
      (operator.separate = false →
        ∀ child ∈ children, child.ordinaryGroup operator.connective = false) ∧
      ∀ child ∈ children, child.Merged := by
  constructor
  · intro h
    constructor
    · exact h operator children (by simp)
    · intro child hc inner nested hm
      refine h inner nested ?_
      rw [subtrees_group]
      exact List.mem_cons_of_mem _ (List.mem_flatMap_of_mem hc hm)
  · rintro ⟨here, below⟩ inner nested hm
    rw [subtrees_group, List.mem_cons, List.mem_flatMap] at hm
    rcases hm with hm | ⟨child, hc, hm⟩
    · cases hm
      exact here
    · exact below child hc inner nested hm

theorem ordinaryGroup_of_ne {c : Connective} {t : Tree α} (h : t.connective? ≠ some c) :
    t.ordinaryGroup c = false := by
  simp [ordinaryGroup, h]

theorem separateGroup_of_ne {c : Connective} {t : Tree α} (h : t.connective? ≠ some c) :
    t.separateGroup c = false := by
  simp [separateGroup, h]

end Tree

namespace Joining

def dissolved (j : Joining α) : List (Tree α) :=
  if j.operator.separate then []
  else j.nodes.filter (Tree.separateGroup j.operator.connective)

def Flattens (j : Joining α) : Prop :=
  ∀ node ∈ j.dissolved, ∀ child ∈ node.children,
    child.ordinaryGroup j.operator.connective = false

instance (j : Joining α) : Decidable j.Flattens :=
  inferInstanceAs (Decidable (∀ node ∈ j.dissolved, ∀ child ∈ node.children,
    child.ordinaryGroup j.operator.connective = false))

end Joining

namespace Tree

-- What an ordinary operator takes over from one of its nodes.
theorem merged_spliced {operator : Operator} (ordinary : operator.separate = false) (t : Tree α) :
    (∀ part ∈ spliced operator t,
        part.ordinaryGroup operator.connective = false ∧ part.Merged) ↔
      t.Merged ∧ (t.separateGroup operator.connective = true →
        ∀ child ∈ t.children, child.ordinaryGroup operator.connective = false) := by
  by_cases hc : t.connective? = some operator.connective
  · rw [spliced_of_eq ordinary hc]
    cases t with
    | leaf a => cases hc
    | group inner children =>
        have hi : inner.connective = operator.connective := Option.some.inj hc
        simp only [merged_group, separateGroup, hc, hi, separate, Tree.children, decide_true,
          Bool.and_true, forall_and]
        cases inner.separate with
        | false => simp
        | true => simp [and_comm]
  · rw [spliced_of_ne hc, List.forall_mem_singleton, ordinaryGroup_of_ne hc,
      separateGroup_of_ne hc]
    simp

end Tree

namespace Joining

theorem dissolved_of_separate {j : Joining α} (h : j.operator.separate = true) :
    j.dissolved = [] :=
  if_pos h

theorem mem_dissolved {j : Joining α} (ordinary : j.operator.separate = false) {node : Tree α} :
    node ∈ j.dissolved ↔ node ∈ j.nodes ∧ node.separateGroup j.operator.connective = true := by
  rw [dissolved, ordinary]
  exact List.mem_filter

theorem merged_tree {j : Joining α} (h : ∀ n ∈ j.nodes, n.Forks) :
    j.tree.Merged ↔ (∀ n ∈ j.nodes, n.Merged) ∧ j.Flattens := by
  cases hs : j.operator.separate with
  | true =>
      have hf : j.Flattens := by
        rw [Flattens, dissolved_of_separate hs]
        exact List.forall_mem_nil _
      rw [and_iff_left hf, tree]
      rcases Tree.join_cases j.operator j.nodes_ne_nil h with ⟨n, hn, hj, _⟩ | ⟨_, hj⟩
      · rw [hj, hn, List.forall_mem_singleton]
      · rw [hj, Tree.flatMap_spliced_of_separate hs, Tree.merged_group, hs]
        exact and_iff_right (fun ordinary => Bool.noConfusion ordinary)
  | false =>
      have each : (∀ n ∈ j.nodes, n.Merged) ∧ j.Flattens ↔
          ∀ n ∈ j.nodes, ∀ part ∈ Tree.spliced j.operator n,
            part.ordinaryGroup j.operator.connective = false ∧ part.Merged := by
        simp only [Flattens, mem_dissolved hs, Tree.merged_spliced hs, and_imp, ← forall_and]
      rw [each, tree]
      rcases Tree.join_cases j.operator j.nodes_ne_nil h with ⟨n, hn, hj, hc⟩ | ⟨_, hj⟩
      · rw [hj, hn, List.forall_mem_singleton, Tree.spliced_of_ne (hc hs),
          List.forall_mem_singleton]
        exact (and_iff_right (Tree.ordinaryGroup_of_ne (hc hs))).symm
      · rw [hj, Tree.merged_group]
        simp only [hs, forall_const, List.forall_mem_flatMap, ← forall_and]

end Joining

namespace Tree

theorem Reduces.merged_iff {stack : List (Tree α)} {tokens : List (Token α)}
    {js : List (Joining α)} {t : Tree α} (h : Reduces stack tokens js t)
    (hf : ∀ n ∈ stack, n.Forks) :
    t.Merged ↔ (∀ n ∈ stack, n.Merged) ∧ ∀ j ∈ js, j.Flattens := by
  induction h with
  | done t => simp
  | operand a later ih =>
      rw [ih (List.forall_mem_cons.mpr ⟨trivial, hf⟩), List.forall_mem_cons,
        and_iff_right (merged_leaf a)]
  | @operator stack rest js t j alone later ih =>
      simp only [List.forall_mem_append, List.mem_reverse] at hf ⊢
      rw [ih (List.forall_mem_cons.mpr ⟨Joining.forks_tree hf.1, hf.2⟩), List.forall_mem_cons,
        List.forall_mem_cons, Joining.merged_tree hf.1]
      tauto

theorem merged_ofTokens {tokens : List (Token α)} {t : Tree α} (h : ofTokens tokens = .ok t) :
    t.Merged ↔ ∀ j ∈ joinings tokens, j.Flattens := by
  obtain ⟨ordered, _, hr⟩ := exists_reduces h
  rw [hr.merged_iff nofun]
  exact and_iff_right nofun

def enclosedRun : List (Token Char) :=
  [.opening, .operand 'a', .operator ⟨.and, false⟩, .operand 'b', .operator ⟨.and, true⟩,
    .operand 'c', .closing, .operator ⟨.or, false⟩, .operand 'd']

theorem merged_ofTokens_enclosedRun : ∃ t, ofTokens enclosedRun = .ok t ∧ t.Merged := by
  have h : ofTokens enclosedRun = .ok (.group ⟨.or, false⟩
      [.group ⟨.and, true⟩ [.group ⟨.and, false⟩ [.leaf 'a', .leaf 'b'], .leaf 'c'],
        .leaf 'd']) := rfl
  exact ⟨_, h, (merged_ofTokens h).mpr (by decide)⟩

def openRun : List (Token Char) :=
  [.operand 'a', .operator ⟨.and, false⟩, .operand 'b', .operator ⟨.and, true⟩, .operand 'c',
    .operator ⟨.and, false⟩, .operand 'd']

theorem not_merged_openRun : ∃ t, ofTokens openRun = .ok t ∧ ¬ t.Merged := by
  refine ⟨.group ⟨.and, false⟩
    [.group ⟨.and, false⟩ [.leaf 'a', .leaf 'b'], .leaf 'c', .leaf 'd'], rfl, ?_⟩
  intro merged
  exact absurd (merged_group.mp merged).1 (by decide)

end Tree

end Criteria.Query
