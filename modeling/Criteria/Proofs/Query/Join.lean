import Criteria.Proofs.Query.Forest

namespace Criteria.Query.Tree

variable {α : Type}

def children : Tree α → List (Tree α)
  | .leaf _ => []
  | .group _ children => children

def connective? : Tree α → Option Connective
  | .leaf _ => none
  | .group operator _ => some operator.connective

mutual
def subtrees : Tree α → List (Tree α)
  | .leaf a => [.leaf a]
  | .group operator children => .group operator children :: forestSubtrees children
def forestSubtrees : List (Tree α) → List (Tree α)
  | [] => []
  | t :: ts => subtrees t ++ forestSubtrees ts
end

def Forks : Tree α → Prop
  | .leaf _ => True
  | .group _ children => 2 ≤ children.length

theorem forestSubtrees_eq_flatMap (ts : List (Tree α)) : forestSubtrees ts = ts.flatMap subtrees := by
  induction ts with
  | nil => rfl
  | cons t ts ih => rw [forestSubtrees, ih, List.flatMap_cons]

@[simp]
theorem subtrees_leaf (a : α) : subtrees (.leaf a) = [.leaf a] := by
  rw [subtrees]

@[simp]
theorem subtrees_group (operator : Operator) (children : List (Tree α)) :
    subtrees (.group operator children) = .group operator children :: children.flatMap subtrees := by
  rw [subtrees, forestSubtrees_eq_flatMap]

theorem mem_leaves_of_mem_subtrees {t s : Tree α} (hs : s ∈ t.subtrees) {a : α}
    (ha : a ∈ s.leaves) : a ∈ t.leaves := by
  induction t with
  | leaf b =>
      rw [subtrees_leaf, List.mem_singleton] at hs
      exact hs ▸ ha
  | group operator children ih =>
      rw [subtrees_group, List.mem_cons, List.mem_flatMap] at hs
      rcases hs with rfl | ⟨child, hc, hs⟩
      · exact ha
      · exact mem_leaves_of_mem hc (ih child hc hs)

theorem spliced_of_separate {operator : Operator} (h : operator.separate = true) (t : Tree α) :
    spliced operator t = [t] := by
  cases t with
  | leaf a => rfl
  | group inner children => simp [spliced, h]

theorem flatMap_spliced_of_separate {operator : Operator} (h : operator.separate = true)
    (ts : List (Tree α)) : ts.flatMap (spliced operator) = ts := by
  rw [funext (spliced_of_separate h)]
  exact List.flatMap_singleton' ts

theorem spliced_of_ne {operator : Operator} {t : Tree α}
    (h : t.connective? ≠ some operator.connective) : spliced operator t = [t] := by
  cases t with
  | leaf a => rfl
  | group inner children =>
      have hi : inner.connective ≠ operator.connective := fun hi => h (congrArg some hi)
      simp [spliced, hi]

theorem spliced_of_eq {operator : Operator} (ordinary : operator.separate = false) {t : Tree α}
    (h : t.connective? = some operator.connective) : spliced operator t = t.children := by
  cases t with
  | leaf a => cases h
  | group inner children =>
      have hi : inner.connective = operator.connective := Option.some.inj h
      simp [spliced, ordinary, hi, Tree.children]

theorem join_two (operator : Operator) (l r : Tree α) :
    join operator [l, r] = collapse operator (spliced operator l ++ spliced operator r) := by
  rw [join, List.flatMap_cons, List.flatMap_singleton]

theorem collapse_of_two_le {operator : Operator} {ts : List (Tree α)} (h : 2 ≤ ts.length) :
    collapse operator ts = .group operator ts := by
  unfold collapse
  split
  · simp at h
  · rfl

theorem Forks.two_le {c : Connective} {t : Tree α} (h : t.Forks) (hc : t.connective? = some c) :
    2 ≤ t.children.length := by
  cases t with
  | leaf a => cases hc
  | group inner children => exact h

-- A node is taken whole or gives up its children, and then there are two of them at least.
theorem Forks.spliced (operator : Operator) {t : Tree α} (h : t.Forks) :
    Tree.spliced operator t = [t] ∧
        (operator.separate = false → t.connective? ≠ some operator.connective) ∨
      2 ≤ (Tree.spliced operator t).length := by
  cases hs : operator.separate with
  | true => exact .inl ⟨spliced_of_separate hs t, nofun⟩
  | false =>
      by_cases hc : t.connective? = some operator.connective
      · right
        rw [spliced_of_eq hs hc]
        exact h.two_le hc
      · exact .inl ⟨spliced_of_ne hc, fun _ => hc⟩

theorem Forks.one_le (operator : Operator) {t : Tree α} (h : t.Forks) :
    1 ≤ (Tree.spliced operator t).length := by
  rcases h.spliced operator with ⟨hs, _⟩ | hs
  · simp [hs]
  · omega

theorem join_cases (operator : Operator) {nodes : List (Tree α)} (ne : nodes ≠ [])
    (h : ∀ n ∈ nodes, n.Forks) :
    (∃ n, nodes = [n] ∧ join operator nodes = n ∧
        (operator.separate = false → n.connective? ≠ some operator.connective)) ∨
      2 ≤ (nodes.flatMap (Tree.spliced operator)).length ∧
        join operator nodes = .group operator (nodes.flatMap (Tree.spliced operator)) := by
  match nodes with
  | [n] =>
      have hn := h n List.mem_cons_self
      rw [join, List.flatMap_singleton]
      rcases hn.spliced operator with ⟨hs, hc⟩ | hs
      · exact .inl ⟨n, rfl, by rw [hs, collapse], hc⟩
      · exact .inr ⟨hs, collapse_of_two_le hs⟩
  | n :: m :: nodes =>
      right
      have hl : 2 ≤ ((n :: m :: nodes).flatMap (Tree.spliced operator)).length := by
        have hn := (h n List.mem_cons_self).one_le operator
        have hm := (h m (List.mem_cons_of_mem n List.mem_cons_self)).one_le operator
        rw [List.flatMap_cons, List.flatMap_cons, List.length_append, List.length_append]
        omega
      exact ⟨hl, collapse_of_two_le hl⟩

theorem forks_join (operator : Operator) {nodes : List (Tree α)} (ne : nodes ≠ [])
    (h : ∀ n ∈ nodes, n.Forks) : (join operator nodes).Forks := by
  rcases join_cases operator ne h with ⟨n, hn, hj, _⟩ | ⟨hl, hj⟩
  · rw [hj]
    exact h n (hn ▸ List.mem_cons_self)
  · rw [hj]
    exact hl

def Branching (t : Tree α) : Prop :=
  ∀ s ∈ t.subtrees, s.Forks

theorem branching_leaf (a : α) : Branching (.leaf a) := by
  intro s hs
  rw [subtrees_leaf, List.mem_singleton] at hs
  exact hs ▸ trivial

theorem branching_group {operator : Operator} {children : List (Tree α)} :
    Branching (.group operator children) ↔
      2 ≤ children.length ∧ ∀ child ∈ children, child.Branching := by
  simp only [Branching, subtrees_group, List.forall_mem_cons, List.forall_mem_flatMap]
  rfl

theorem Branching.forks {t : Tree α} (h : t.Branching) : t.Forks := by
  cases t with
  | leaf a => trivial
  | group operator children => exact (branching_group.mp h).1

theorem mem_subtrees_spliced {operator : Operator} {t part s : Tree α}
    (hp : part ∈ spliced operator t) (hs : s ∈ part.subtrees) : s ∈ t.subtrees := by
  cases t with
  | leaf a => exact List.mem_singleton.mp hp ▸ hs
  | group inner children =>
      rw [Tree.spliced] at hp
      split at hp
      · rw [subtrees_group]
        exact List.mem_cons_of_mem _ (List.mem_flatMap_of_mem hp hs)
      · exact List.mem_singleton.mp hp ▸ hs

-- One merge makes at most one node that is new, and that node has not a single child.
theorem mem_subtrees_join {operator : Operator} {nodes : List (Tree α)} {s : Tree α}
    (hs : s ∈ (join operator nodes).subtrees) :
    (∃ n ∈ nodes, s ∈ n.subtrees) ∨
      s = .group operator (nodes.flatMap (spliced operator)) ∧
        (nodes.flatMap (spliced operator)).length ≠ 1 := by
  have below : ∀ part ∈ nodes.flatMap (spliced operator), s ∈ part.subtrees →
      ∃ n ∈ nodes, s ∈ n.subtrees := by
    intro part hp hs
    obtain ⟨n, hn, hp⟩ := List.mem_flatMap.mp hp
    exact ⟨n, hn, mem_subtrees_spliced hp hs⟩
  unfold join collapse at hs
  split at hs
  · rename_i only single
    exact .inl (below only (by simp [single]) hs)
  · rename_i many
    rw [subtrees_group, List.mem_cons, List.mem_flatMap] at hs
    rcases hs with rfl | ⟨part, hp, hs⟩
    · refine .inr ⟨rfl, fun one => ?_⟩
      obtain ⟨only, single⟩ := List.length_eq_one_iff.mp one
      exact many only single
    · exact .inl (below part hp hs)

theorem branching_join (operator : Operator) {nodes : List (Tree α)} (ne : nodes ≠ [])
    (h : ∀ n ∈ nodes, n.Branching) : (join operator nodes).Branching := by
  intro s hs
  rcases mem_subtrees_join hs with ⟨n, hn, hs⟩ | ⟨rfl, single⟩
  · exact h n hn s hs
  · obtain ⟨first, hf⟩ := List.exists_mem_of_ne_nil nodes ne
    obtain ⟨part, hp⟩ := List.exists_mem_of_length_pos ((h first hf).forks.one_le operator)
    have some := List.length_pos_of_mem (List.mem_flatMap_of_mem hf hp)
    show 2 ≤ (nodes.flatMap (spliced operator)).length
    omega

def Paired (t : Tree α) : Prop :=
  ∀ operator children, .group operator children ∈ t.subtrees → operator.separate = true →
    children.length = 2

theorem paired_leaf (a : α) : Paired (.leaf a) := by
  intro operator children h
  simp at h

theorem paired_join (operator : Operator) {nodes : List (Tree α)} (ne : nodes ≠ [])
    (few : nodes.length ≤ 2) (h : ∀ n ∈ nodes, n.Paired) : (join operator nodes).Paired := by
  intro inner children hm separate
  rcases mem_subtrees_join hm with ⟨n, hn, hm⟩ | ⟨same, single⟩
  · exact h n hn inner children hm separate
  · obtain ⟨rfl, rfl⟩ := Tree.group.inj same
    rw [flatMap_spliced_of_separate separate] at single ⊢
    have some := List.length_pos_of_ne_nil ne
    omega

theorem Branching.map {β : Type} (f : α → β) {t : Tree α} (h : t.Branching) :
    (Tree.map f t).Branching := by
  induction t with
  | leaf a => exact branching_leaf (f a)
  | group operator children ih =>
      obtain ⟨hl, hc⟩ := branching_group.mp h
      rw [map_group, branching_group, List.length_map, List.forall_mem_map]
      exact ⟨hl, fun t ht => ih t ht (hc t ht)⟩

-- A merged node stands for its parts, whichever way it came out: a node kept as it was, a group
-- that takes over the operator, or a group of nothing.
theorem spliced_join {operator : Operator} (ordinary : operator.separate = false)
    {nodes : List (Tree α)} (h : ∀ n ∈ nodes, n.Forks) :
    spliced operator (join operator nodes) = nodes.flatMap (spliced operator) := by
  by_cases ne : nodes = []
  · rw [ne]
    exact spliced_of_eq ordinary rfl
  · rcases join_cases operator ne h with ⟨n, hn, hj, _⟩ | ⟨_, hj⟩
    · rw [hj, hn, List.flatMap_singleton]
    · rw [hj]
      exact spliced_of_eq ordinary rfl

theorem join_regroup {operator : Operator} (ordinary : operator.separate = false)
    (l m r : List (Tree α)) (h : ∀ n ∈ m, n.Forks) :
    join operator (l ++ [join operator m] ++ r) = join operator (l ++ m ++ r) := by
  have inner : [join operator m].flatMap (spliced operator) = m.flatMap (spliced operator) := by
    rw [List.flatMap_singleton, spliced_join ordinary h]
  calc
    collapse operator ((l ++ [join operator m] ++ r).flatMap (spliced operator))
    _ = collapse operator ((l ++ m ++ r).flatMap (spliced operator)) := by
      simp only [List.flatMap_append, inner]

def separatePair (c : Connective) (a b : Char) : Tree Char :=
  .group ⟨c, true⟩ [.leaf a, .leaf b]

theorem join_regroup_separatePairs :
    (∀ n ∈ [separatePair .and 'b' 'c', separatePair .or 'd' 'e'], n.Forks) ∧
      join ⟨.and, false⟩ ([.leaf 'a'] ++
          [join ⟨.and, false⟩ [separatePair .and 'b' 'c', separatePair .or 'd' 'e']] ++
          [separatePair .and 'f' 'g']) =
        .group ⟨.and, false⟩ [.leaf 'a', .leaf 'b', .leaf 'c', separatePair .or 'd' 'e',
          .leaf 'f', .leaf 'g'] := by
  have forks : ∀ n ∈ [separatePair .and 'b' 'c', separatePair .or 'd' 'e'], n.Forks := by
    simp [separatePair, Forks]
  exact ⟨forks, (join_regroup rfl [.leaf 'a'] _ [separatePair .and 'f' 'g'] forks).trans rfl⟩

-- A group of one child can hold another of its connective: merged twice, both are taken apart.
example :
    join ⟨.or, false⟩
        [.leaf 'a', join ⟨.or, false⟩ [.group ⟨.or, false⟩ [separatePair .or 'b' 'c']]] =
          .group ⟨.or, false⟩ [.leaf 'a', .leaf 'b', .leaf 'c'] ∧
      join ⟨.or, false⟩ [.leaf 'a', .group ⟨.or, false⟩ [separatePair .or 'b' 'c']] =
        .group ⟨.or, false⟩ [.leaf 'a', separatePair .or 'b' 'c'] :=
  ⟨rfl, rfl⟩

end Criteria.Query.Tree
