import Criteria.Proofs.Query.Merging

namespace Criteria.Query

variable {α : Type}

namespace Tree

def separateGroups (t : Tree α) : List (Tree α) :=
  t.subtrees.filter separate

@[simp]
theorem separateGroups_leaf (a : α) : separateGroups (.leaf a) = [] := by
  rw [separateGroups, subtrees_leaf]
  rfl

theorem separateGroups_group (operator : Operator) (children : List (Tree α)) :
    separateGroups (.group operator children) =
      [.group operator children].filter separate ++ children.flatMap separateGroups := by
  rw [separateGroups, subtrees_group, ← List.singleton_append, List.filter_append,
    List.filter_flatMap]
  rfl

theorem separateGroups_collapse {operator : Operator} (ordinary : operator.separate = false)
    (ts : List (Tree α)) : separateGroups (collapse operator ts) = ts.flatMap separateGroups := by
  unfold collapse
  split
  · exact (List.flatMap_singleton _ _).symm
  · rw [separateGroups_group, List.filter_singleton, separate, ordinary]
    rfl

-- The group that an ordinary operator takes apart is the only one lost with it.
theorem separateGroups_spliced {operator : Operator} (ordinary : operator.separate = false)
    (t : Tree α) :
    ((spliced operator t).flatMap separateGroups ++
      [t].filter (separateGroup operator.connective)).Perm t.separateGroups := by
  by_cases hc : t.connective? = some operator.connective
  · rw [spliced_of_eq ordinary hc]
    cases t with
    | leaf a => cases hc
    | group inner children =>
        have hs : separateGroup operator.connective (.group inner children) = inner.separate := by
          simp [separateGroup, hc, separate]
        rw [separateGroups_group, List.filter_singleton, List.filter_singleton, hs]
        exact List.perm_append_comm
  · rw [spliced_of_ne hc, List.flatMap_singleton, List.filter_singleton, separateGroup_of_ne hc]
    simp

end Tree

namespace Joining

def formed (j : Joining α) : List (Tree α) :=
  match j.left with
  | some left => [.group j.operator [left, j.right]].filter Tree.separate
  | none => []

theorem formed_of_ordinary {j : Joining α} (h : j.operator.separate = false) : j.formed = [] := by
  rw [formed]
  split
  · rw [List.filter_singleton, Tree.separate, h]
    rfl
  · rfl

theorem separateGroups_tree (j : Joining α) :
    (j.tree.separateGroups ++ j.dissolved).Perm
      (j.formed ++ j.nodes.flatMap Tree.separateGroups) := by
  cases hs : j.operator.separate with
  | true =>
      have hj : j.tree = .collapse j.operator j.nodes := by
        rw [tree, Tree.join, Tree.flatMap_spliced_of_separate hs]
      rw [dissolved_of_separate hs, List.append_nil, hj]
      cases hl : j.left with
      | none => simp [formed, nodes, hl, Tree.collapse]
      | some left => simp [formed, nodes, hl, Tree.collapse, Tree.separateGroups_group]
  | false =>
      have hd : j.dissolved =
          j.nodes.flatMap (fun n => [n].filter (Tree.separateGroup j.operator.connective)) := by
        rw [← List.filter_flatMap, List.flatMap_singleton', dissolved, hs]
        rfl
      rw [formed_of_ordinary hs, List.nil_append, tree, Tree.join,
        Tree.separateGroups_collapse hs, List.flatMap_assoc, hd]
      exact (List.flatMap_append_perm _ _ _).trans
        (List.Perm.flatMap_left _ (fun n _ => Tree.separateGroups_spliced hs n))

end Joining

namespace Tree

open scoped List

theorem Reduces.separateGroups_perm {stack : List (Tree α)} {tokens : List (Token α)}
    {js : List (Joining α)} {t : Tree α} (h : Reduces stack tokens js t) :
    (t.separateGroups ++ js.flatMap Joining.dissolved).Perm
      (stack.flatMap separateGroups ++ js.flatMap Joining.formed) := by
  induction h with
  | done t => simp
  | operand a later ih => simpa using ih
  | @operator stack rest js t j alone later ih =>
      rw [List.flatMap_cons] at ih
      rw [List.flatMap_cons, List.flatMap_cons, List.flatMap_append]
      have hn : (j.nodes.reverse.flatMap separateGroups).Perm (j.nodes.flatMap separateGroups) :=
        j.nodes.reverse_perm.flatMap_right _
      calc
        t.separateGroups ++ (j.dissolved ++ js.flatMap Joining.dissolved)
        _ ~ j.dissolved ++ (t.separateGroups ++ js.flatMap Joining.dissolved) :=
          List.perm_append_comm_assoc _ _ _
        _ ~ j.dissolved ++ (j.tree.separateGroups ++ stack.flatMap separateGroups ++
              js.flatMap Joining.formed) := ih.append_left _
        _ ~ j.tree.separateGroups ++ j.dissolved ++
              (stack.flatMap separateGroups ++ js.flatMap Joining.formed) := by
          simp only [List.append_assoc]
          exact List.perm_append_comm_assoc _ _ _
        _ ~ j.formed ++ j.nodes.reverse.flatMap separateGroups ++
              (stack.flatMap separateGroups ++ js.flatMap Joining.formed) :=
          (j.separateGroups_tree.trans (hn.symm.append_left _)).append_right _
        _ ~ j.nodes.reverse.flatMap separateGroups ++ stack.flatMap separateGroups ++
              (j.formed ++ js.flatMap Joining.formed) := by
          simp only [List.append_assoc]
          exact (List.perm_append_comm_assoc _ _ _).trans
            ((List.perm_append_comm_assoc _ _ _).append_left _)

theorem separateGroups_ofTokens {tokens : List (Token α)} {t : Tree α}
    (h : ofTokens tokens = .ok t) :
    ((joinings tokens).map Joining.operator).Perm (tokens.filterMap Token.operator?) ∧
      (t.separateGroups ++ (joinings tokens).flatMap Joining.dissolved).Perm
        ((joinings tokens).flatMap Joining.formed) ∧
      (t.separateGroups.Perm ((joinings tokens).flatMap Joining.formed) ↔
        ∀ j ∈ joinings tokens, j.dissolved = []) := by
  obtain ⟨ordered, _, hr⟩ := exists_reduces h
  have hp := hr.separateGroups_perm
  rw [List.flatMap_nil, List.nil_append] at hp
  refine ⟨operators_joinings h, hp, ?_⟩
  rw [← List.flatMap_eq_nil_iff]
  constructor
  · intro hs
    have hl := hp.length_eq.trans hs.length_eq.symm
    rw [List.length_append] at hl
    exact List.length_eq_zero_iff.mp (by omega)
  · intro hd
    rwa [hd, List.append_nil] at hp

theorem separateGroups_enclosedRun :
    ∃ t, ofTokens enclosedRun = .ok t ∧
      t.separateGroups.Perm
        [.group ⟨.and, true⟩ [.group ⟨.and, false⟩ [.leaf 'a', .leaf 'b'], .leaf 'c']] := by
  have h : ofTokens enclosedRun = .ok (.group ⟨.or, false⟩
      [.group ⟨.and, true⟩ [.group ⟨.and, false⟩ [.leaf 'a', .leaf 'b'], .leaf 'c'],
        .leaf 'd']) := rfl
  exact ⟨_, h, (separateGroups_ofTokens h).2.2.mpr (by decide)⟩

def dissolvingRun : List (Token Char) :=
  [.operand 'a', .operator ⟨.and, true⟩, .operand 'b', .operator ⟨.and, false⟩, .operand 'c']

theorem separateGroups_dissolvingRun :
    ∃ t, ofTokens dissolvingRun = .ok t ∧
      (joinings dissolvingRun).flatMap Joining.formed =
        [.group ⟨.and, true⟩ [.leaf 'a', .leaf 'b']] ∧
      t.separateGroups = [] :=
  ⟨.group ⟨.and, false⟩ [.leaf 'a', .leaf 'b', .leaf 'c'], rfl, rfl, rfl⟩

end Tree

end Criteria.Query
