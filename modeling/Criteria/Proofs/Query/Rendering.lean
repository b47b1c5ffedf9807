import Criteria.Proofs.Query.Canonical

namespace Criteria.Query

variable {α : Type}

namespace Tree

def enclosed (c : Connective) (t : Tree α) : Bool :=
  c = .and && t.connective? = some .or

def enclose (parentheses : Bool) (tokens : List (Token α)) : List (Token α) :=
  if parentheses then .opening :: (tokens ++ [.closing]) else tokens

mutual
def rendering : Tree α → List (Token α)
  | .leaf a => [.operand a]
  | .group operator children =>
      [.operator operator].intercalate (forestRendering operator.connective children)
def forestRendering (c : Connective) : List (Tree α) → List (List (Token α))
  | [] => []
  | t :: ts => enclose (enclosed c t) (rendering t) :: forestRendering c ts
end

def renderingUnder (c : Connective) (t : Tree α) : List (Token α) :=
  enclose (enclosed c t) t.rendering

theorem forestRendering_eq_map (c : Connective) (ts : List (Tree α)) :
    forestRendering c ts = ts.map (renderingUnder c) := by
  induction ts with
  | nil => rfl
  | cons t ts ih => rw [forestRendering, ih, List.map_cons, renderingUnder]

theorem intercalate_cons (token : Token α) (words : List (Token α))
    (later : List (List (Token α))) :
    [token].intercalate (words :: later) = words ++ later.flatMap (token :: ·) := by
  induction later generalizing words with
  | nil => simp [List.intercalate]
  | cons next later ih =>
      rw [List.flatMap_cons, List.cons_append, ← ih next]
      simp [List.intercalate]

theorem rendering_group (operator : Operator) (first : Tree α) (rest : List (Tree α)) :
    rendering (.group operator (first :: rest)) =
      first.renderingUnder operator.connective ++
        rest.flatMap (fun t => .operator operator :: t.renderingUnder operator.connective) := by
  rw [rendering, forestRendering_eq_map, List.map_cons, intercalate_cons, List.flatMap_map]

theorem join_collapse {c : Connective} {ts : List (Tree α)} {t : Tree α} (ne : ts ≠ [])
    (hs : ∀ s ∈ ts, s.connective? ≠ some c) (ht : t.connective? ≠ some c) :
    join ⟨c, false⟩ [collapse ⟨c, false⟩ ts, t] = collapse ⟨c, false⟩ (ts ++ [t]) := by
  have hc : spliced ⟨c, false⟩ (collapse ⟨c, false⟩ ts) = ts := by
    match ts with
    | [only] => exact spliced_of_ne (hs only List.mem_cons_self)
    | first :: second :: rest => exact spliced_of_eq rfl rfl
  rw [join_two, hc, spliced_of_ne ht]

theorem foldl_join {c : Connective} {ts : List (Tree α)} (rest : List (Tree α)) (ne : ts ≠ [])
    (hs : ∀ s ∈ ts ++ rest, s.connective? ≠ some c) :
    rest.foldl (fun read t => join ⟨c, false⟩ [read, t]) (collapse ⟨c, false⟩ ts) =
      collapse ⟨c, false⟩ (ts ++ rest) := by
  induction rest generalizing ts with
  | nil => rw [List.foldl_nil, List.append_nil]
  | cons t rest ih =>
      have hl := List.forall_mem_append.mp hs
      rw [List.foldl_cons, join_collapse ne hl.1 (hl.2 t List.mem_cons_self), ih (by simp),
        List.append_assoc, List.singleton_append]
      rwa [List.append_assoc, List.singleton_append]

end Tree

namespace Infix

variable {c : Connective}

theorem exists_parts {ts : List (Tree α)}
    (h : ∀ t ∈ ts, ∃ part : Infix α c.parts, part.tokens = t.renderingUnder c ∧ part.tree = t) :
    ∃ parts : List (Infix α c.parts), parts.map tree = ts ∧
      ∀ part ∈ parts, part.tokens = part.tree.renderingUnder c := by
  induction ts with
  | nil => exact ⟨[], rfl, nofun⟩
  | cons t ts ih =>
      obtain ⟨here, later⟩ := List.forall_mem_cons.mp h
      obtain ⟨part, hp, ht⟩ := here
      obtain ⟨parts, hts, hps⟩ := ih later
      refine ⟨part :: parts, ?_, List.forall_mem_cons.mpr ⟨?_, hps⟩⟩
      · rw [List.map_cons, ht, hts]
      · rw [hp, ht]

theorem exists_chain_group {children : List (Tree α)} (many : 2 ≤ children.length)
    (apart : ∀ t ∈ children, t.connective? ≠ some c)
    (parts : ∀ t ∈ children,
      ∃ part : Infix α c.parts, part.tokens = t.renderingUnder c ∧ part.tree = t) :
    ∃ e : Infix α (.chain c), e.tokens = Tree.rendering (.group ⟨c, false⟩ children) ∧
      e.tree = .group ⟨c, false⟩ children := by
  obtain ⟨ps, rfl, hp⟩ := exists_parts parts
  match ps with
  | [] => simp at many
  | first :: rest =>
      obtain ⟨hf, hr⟩ := List.forall_mem_cons.mp hp
      refine ⟨chain c first (rest.map (Prod.mk false)), ?_, ?_⟩
      · rw [tokens_chain, List.map_cons, Tree.rendering_group, List.flatMap_map, List.flatMap_map,
          hf]
        exact congrArg _ (List.flatMap_congr (fun part hm => congrArg _ (hr part hm)))
      · have hj := Tree.foldl_join (rest.map tree) (List.cons_ne_nil first.tree []) apart
        rw [List.foldl_map] at hj
        rw [tree_chain, List.foldl_map]
        exact hj.trans (Tree.collapse_of_two_le many)

end Infix

theorem Tree.Canonical.exists_part {t : Tree α} (h : t.Canonical) (c : Connective)
    (apart : t.connective? ≠ some c) :
    ∃ part : Infix α c.parts, part.tokens = t.renderingUnder c ∧ part.tree = t := by
  induction h generalizing c with
  | leaf a =>
      cases c with
      | and => exact ⟨.operand a, rfl, rfl⟩
      | or => exact ⟨.single .and (.operand a), rfl, rfl⟩
  | @group d children many parts inner ih =>
      obtain ⟨e, he, ht⟩ := Infix.exists_chain_group many inner (fun t hm => ih t hm d (inner t hm))
      cases c with
      | and =>
          cases d with
          | and => exact absurd rfl apart
          | or => exact ⟨.enclosed e, congrArg (Tree.enclose true) he, ht⟩
      | or =>
          cases d with
          | and => exact ⟨e, he, ht⟩
          | or => exact absurd rfl apart

theorem Tree.Canonical.ofTokens_rendering {t : Tree α} (h : t.Canonical) :
    Tree.ofTokens t.rendering = .ok t := by
  cases h with
  | leaf a => rfl
  | @group c children many parts apart =>
      obtain ⟨e, he, ht⟩ := Infix.exists_chain_group many apart
        (fun t hm => (parts t hm).exists_part c (apart t hm))
      rw [← he, e.ofTokens_eq, ht]

theorem Tree.canonical_ofTokens :
    (∀ e : Infix α (.chain .or), e.Ordinary →
        ∃ t, Tree.ofTokens e.tokens = .ok t ∧ t.Canonical) ∧
      (∀ e f : Infix α (.chain .or), e.Ordinary → f.Ordinary →
        (Tree.ofTokens e.tokens = Tree.ofTokens f.tokens ↔ e.formula.Regrouped f.formula)) ∧
      ∀ t : Tree α, t.Canonical → Tree.ofTokens t.rendering = .ok t := by
  refine ⟨?_, ?_, fun t h => h.ofTokens_rendering⟩
  · intro e he
    refine ⟨e.tree, e.ofTokens_eq, ?_⟩
    rw [← Infix.tree_formula he]
    exact e.formula.canonical_tree
  · intro e f he hf
    rw [e.ofTokens_eq, f.ofTokens_eq, Except.ok.injEq, ← Infix.tree_formula he,
      ← Infix.tree_formula hf]
    exact ⟨Formula.regrouped_of_tree, Formula.Regrouped.tree⟩

namespace Infix

def either : Infix Char (.chain .or) :=
  .joined .or (.single .or (.single .and (.operand 'c'))) false (.single .and (.operand 'd'))

def leftGrouped : Infix Char (.chain .or) :=
  .single .or (.joined .and
    (.single .and (.enclosed
      (.single .or (.joined .and (.single .and (.operand 'a')) false (.operand 'b')))))
    false (.enclosed (.single .or (.single .and (.enclosed either)))))

def rightGrouped : Infix Char (.chain .or) :=
  .single .or (.joined .and (.single .and (.operand 'a')) false
    (.enclosed (.single .or
      (.joined .and (.single .and (.operand 'b')) false (.enclosed either)))))

end Infix

def Tree.flatGroup : Tree Char :=
  .group ⟨.and, false⟩ [.leaf 'a', .leaf 'b', .group ⟨.or, false⟩ [.leaf 'c', .leaf 'd']]

theorem Tree.canonical_flatGroup : flatGroup.Canonical := by
  refine .group (by decide) ?_ (by simp [connective?])
  simp only [List.forall_mem_cons, List.not_mem_nil, false_implies, implies_true, and_true]
  refine ⟨.leaf 'a', .leaf 'b', .group (by decide) ?_ (by simp [connective?])⟩
  simp only [List.forall_mem_cons, List.not_mem_nil, false_implies, implies_true, and_true]
  exact ⟨.leaf 'c', .leaf 'd'⟩

theorem Tree.canonical_ofTokens_grouped :
    (∃ t, Tree.ofTokens Infix.leftGrouped.tokens = .ok t ∧ t.Canonical) ∧
      Tree.ofTokens Infix.leftGrouped.tokens = Tree.ofTokens Infix.rightGrouped.tokens ∧
      Tree.ofTokens flatGroup.rendering = .ok flatGroup := by
  obtain ⟨canonical, regrouped, rendered⟩ := @Tree.canonical_ofTokens Char
  have hl : Infix.leftGrouped.Ordinary := by simp [Infix.leftGrouped, Infix.either, Infix.Ordinary]
  have hr : Infix.rightGrouped.Ordinary := by
    simp [Infix.rightGrouped, Infix.either, Infix.Ordinary]
  refine ⟨canonical _ hl, (regrouped _ _ hl hr).mpr ?_, rendered _ canonical_flatGroup⟩
  exact .rotation (.here .and (.atom 'a') (.atom 'b') Infix.either.formula)

end Criteria.Query
