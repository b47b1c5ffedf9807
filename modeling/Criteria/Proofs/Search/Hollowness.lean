import Criteria.Proofs.Query.Reduction
import Criteria.Proofs.Query.SourceOrder
import Criteria.Proofs.Search.Blankness
import Criteria.Proofs.Search.Sharing

namespace Criteria.Search

open Json (Value)
open Query (Operand Token)
open Schema (Score)

def hollow (document : Value) : List (String × List Value) :=
  (clauseLists document).filter (fun list => list.2.isEmpty)

theorem mem_hollow_iff {document : Value} {list : String × List Value} :
    list ∈ hollow document ↔ list ∈ clauseLists document ∧ list.2 = [] := by
  rw [hollow, List.mem_filter, List.isEmpty_iff]

theorem hollow_compound {keyword : String} {clauses : List Value} (ne : clauses ≠ []) :
    hollow (compound keyword clauses) = clauses.flatMap hollow := by
  rw [hollow, clauseLists_compound, List.filter_cons_of_neg (by simpa using ne),
    List.filter_flatMap]
  rfl

theorem hollow_embeddedDocument (path : String) (operator : Value) :
    hollow (embeddedDocument path operator) = hollow operator := by
  rw [hollow, clauseLists_embeddedDocument, hollow]

theorem hollow_document (l : Leaf) : hollow l.document = hollow l.clause := by
  rw [Leaf.document]
  split
  · exact hollow_embeddedDocument _ _
  · rfl

theorem hollow_final (clause : Clause) : hollow clause.final = hollow clause.document := by
  rw [Clause.final]
  split
  · rw [negate, hollow_compound (List.cons_ne_nil _ _), List.flatMap_singleton]
  · rfl

theorem ne_nil_of_mem_addAll {pairs : List (String × Value)} {group : String × List Value}
    (h : group ∈ Groups.addAll [] pairs) : group.2 ≠ [] := by
  rw [addAll_eq] at h
  obtain ⟨path, hp, rfl⟩ := List.mem_map.mp h
  exact clausesUnder_ne_nil hp

theorem hollow_documents (pairs : List (String × Value)) :
    ((Groups.addAll [] pairs).documents.flatMap hollow).Perm
      (pairs.flatMap (fun p => hollow p.2)) :=
  flatMap_documents_addAll (fun group hg => by
    rw [hollow_embeddedDocument, hollow_compound (ne_nil_of_mem_addAll hg)])

theorem hollow_child (t : Query.Tree Leaf) :
    (loose t).flatMap hollow ++ (nested t).flatMap (fun p => hollow p.2) =
      (assemble t).flatMap hollow := by
  match t with
  | .leaf ⟨clause, none⟩ =>
      rw [loose_of_flat (by simp), nested_of_flat (by simp), List.flatMap_nil, List.append_nil]
  | .leaf ⟨clause, some path⟩ =>
      rw [assemble_leaf, loose, nested, kept]
      cases clause.blank <;> simp [hollow_document]
  | .group operator children => exact List.append_nil _

theorem hollow_group {operator : Query.Operator} {children : List (Query.Tree Leaf)}
    {t : Query.Tree Leaf} (ht : t ∈ children) {document : Value} (hd : document ∈ assemble t) :
    ((assemble (.group operator children)).flatMap hollow).Perm
      (children.flatMap (fun t => (assemble t).flatMap hollow)) := by
  obtain ⟨connective, separate⟩ := operator
  cases connective with
  | and =>
      have ne := must_ne_nil ht hd
      rw [← documents_addAll] at ne
      have apart := List.flatMap_append_perm children (fun t => (loose t).flatMap hollow)
        (fun t => (nested t).flatMap (fun p => hollow p.2))
      rw [List.flatMap_congr (fun t _ => hollow_child t)] at apart
      rw [assemble_and, List.flatMap_singleton, hollow_compound ne, List.flatMap_append,
        List.flatMap_assoc]
      refine List.Perm.trans (.append_left _ ?_) apart
      rw [← List.flatMap_assoc]
      exact hollow_documents _
  | or =>
      have ne : children.flatMap assemble ≠ [] :=
        List.ne_nil_of_mem (List.mem_flatMap_of_mem ht hd)
      rw [assemble_or, List.flatMap_singleton, hollow_compound ne, List.flatMap_assoc]

theorem hollow_assemble {t : Query.Tree Leaf} (hb : t.Branching)
    (h : ∀ l ∈ t.leaves, l.clause.blank = false) :
    ((assemble t).flatMap hollow).Perm (t.leaves.flatMap (fun l => hollow l.clause)) := by
  induction t with
  | leaf l =>
      rw [assemble_leaf, h l (by simp), Query.Tree.leaves_leaf, List.flatMap_singleton]
      simp [hollow_document]
  | group operator children ih =>
      obtain ⟨two, branching⟩ := Query.Tree.branching_group.mp hb
      have below : ∀ t ∈ children, ∀ l ∈ t.leaves, l.clause.blank = false :=
        fun t ht l hl => h l (Query.Tree.mem_leaves_of_mem ht hl)
      obtain ⟨first, hf, d, hd⟩ := exists_mem_assemble two below
      rw [Query.Tree.leaves_group, List.flatMap_assoc]
      exact (hollow_group hf hd).trans
        (List.Perm.flatMap_left _ (fun t ht => ih t ht (branching t ht) (below t ht)))

namespace Compiler

variable {σ : Type} [Score σ]

-- The documents that the lowering gives for an operand, before any of them is wrapped.
def handed (c : Compiler σ) (o : Operand) : List Value :=
  let lowered := (c.lowered o).toOption.toList.map Clause.document
  if (c.prepare o).includeBlanks then
    lowered ++ [c.lowering.isNull (c.prepare o).field (c.context o)]
  else if (c.prepare o).comparison.isSome then lowered
  else [c.lowering.notNull (c.prepare o).field (c.context o)]

theorem hollow_of_drafted {c : Compiler σ} {o : Operand} {clause : Value}
    (h : c.Drafted o clause) : hollow clause = (c.handed o).flatMap hollow := by
  cases h with
  | plain excluded asked h =>
      have compared : (c.prepare o).comparison.isSome = true :=
        asked.resolve_left (by simp [excluded])
      simp [handed, excluded, compared, h, Except.toOption, hollow_final]
  | including included h =>
      rw [hollow_compound (List.cons_ne_nil _ _)]
      simp [handed, included, h, Except.toOption, hollow_final]
  | present unasked =>
      obtain ⟨excluded, absent⟩ := not_or.mp unasked
      simp [handed, excluded, absent]

theorem hollow_leafOf {c : Compiler σ} {o : Operand} (h : ∃ leaf, c.compileLeaf o = .ok leaf) :
    hollow (c.leafOf o).clause = (c.handed o).flatMap hollow :=
  hollow_of_drafted (drafted_of_compileLeaf (compileLeaf_eq h))

theorem hollow_of_compileTree {c : Compiler σ} {t : Query.Tree Operand} (hb : t.Branching)
    (h : ∀ o ∈ t.leaves, (c.leafOf o).clause.blank = false) {document : Value}
    (hd : c.compileTree t = .ok document) :
    (hollow document).Perm (t.leaves.flatMap (fun o => (c.handed o).flatMap hollow)) := by
  have lowers := lowers_of_compileTree hd
  have apart := hollow_assemble (hb.map c.leafOf) (Query.Tree.forall_leaves_map h)
  rw [assemble_of_compileTree lowers h hd, List.flatMap_singleton, Query.Tree.leaves_map,
    List.flatMap_map, List.flatMap_congr (fun o ho => hollow_leafOf (lowers o ho))] at apart
  exact apart

theorem exists_compound {c : Compiler σ} {operator : Query.Operator}
    {children : List (Query.Tree Operand)} (two : 2 ≤ children.length)
    (h : ∀ o ∈ (Query.Tree.group operator children).leaves, (c.leafOf o).clause.blank = false)
    {document : Value} (hd : c.compileTree (.group operator children) = .ok document) :
    ∃ clauses, document = compound operator.connective.keyword clauses ∧ clauses ≠ [] := by
  have below : ∀ t ∈ children.map (Query.Tree.map c.leafOf), ∀ l ∈ t.leaves,
      l.clause.blank = false := by
    refine List.forall_mem_map.mpr (fun t ht => Query.Tree.forall_leaves_map ?_)
    exact fun o ho => h o (Query.Tree.mem_leaves_of_mem ht ho)
  have whole := assemble_of_compileTree (lowers_of_compileTree hd) h hd
  obtain ⟨clauses, outer, _, ne⟩ := exists_clauses operator (children.map (Query.Tree.map c.leafOf))
  rw [Query.Tree.map_group, outer] at whole
  exact ⟨clauses, (List.singleton_inj.mp whole).symm,
    ne (exists_mem_assemble (by rwa [List.length_map]) below)⟩

-- No layer around the documents of the lowering is empty: what the document holds of empty lists
-- is, each as often, what they brought along.
theorem inhabited_ofPostfix (c : Compiler σ) {tokens : List (Token Operand)}
    {t : Query.Tree Operand} (h : Query.Tree.ofPostfix tokens = .ok t) :
    (∀ operator children, .group operator children ∈ t.subtrees →
        2 ≤ children.length ∧ (operator.separate = true → children.length = 2)) ∧
      (∀ source, Query.toPostfix source = .ok tokens → c.compile source = c.compileTree t) ∧
      ((∀ o ∈ Token.operands tokens, ∀ leaf, c.compileLeaf o = .ok leaf →
          leaf.clause.blank = false) →
        (∀ operator children document, .group operator children ∈ t.subtrees →
          c.compileTree (.group operator children) = .ok document →
            ∃ clauses, document = compound operator.connective.keyword clauses ∧ clauses ≠ []) ∧
        ∀ document, c.compileTree t = .ok document →
          (hollow document).Perm
            ((Token.operands tokens).flatMap (fun o => (c.handed o).flatMap hollow))) := by
  have branching := Query.Tree.branching_ofPostfix h
  have arity : ∀ operator children, .group operator children ∈ t.subtrees → 2 ≤ children.length :=
    fun operator children hm => branching (.group operator children) hm
  refine ⟨fun operator children hm => ?_, fun source hs => ?_, fun nonblank => ?_⟩
  · exact ⟨arity operator children hm,
      Query.Tree.paired_ofPostfix h operator children hm⟩
  · apply compile_of_ofTokens
    rw [Query.Tree.ofTokens, hs]
    exact h
  · rw [← Query.Tree.leaves_ofPostfix h] at nonblank ⊢
    have clause {s : Query.Tree Operand} {document : Value} (hs : ∀ o ∈ s.leaves, o ∈ t.leaves)
        (hd : c.compileTree s = .ok document) :
        ∀ o ∈ s.leaves, (c.leafOf o).clause.blank = false := fun o ho =>
      nonblank o (hs o ho) _ (compileLeaf_eq (lowers_of_compileTree hd o ho))
    constructor
    · intro operator children document hm hd
      exact exists_compound (arity operator children hm)
        (clause (fun o ho => Query.Tree.mem_leaves_of_mem_subtrees hm ho) hd) hd
    · intro document hd
      exact hollow_of_compileTree branching (clause (fun _ ho => ho) hd) hd

def unfilled : Compiler Rat :=
  { sample with
    lowering := Lowering.standard.overriding
      (fun o => if o.field = "name" then some (.negative (compound "must" [])) else none) }

def lampOrAnn : List (Token Operand) :=
  [.operator ⟨.and, false⟩, .operand calledLamp, .operator ⟨.and, false⟩, .operand atTen,
    .operator ⟨.and, true⟩, .operand byStars, .operator ⟨.or, false⟩, .operand byAuthor]

def lampOrdered : List (Token Operand) :=
  [.operand calledLamp, .operator ⟨.and, false⟩, .operand atTen, .operator ⟨.and, false⟩,
    .operand byStars, .operator ⟨.and, true⟩, .operand byAuthor, .operator ⟨.or, false⟩]

def lampTree : Query.Tree Operand :=
  .group ⟨.or, false⟩
    [.group ⟨.and, true⟩
      [.group ⟨.and, false⟩ [.leaf calledLamp, .leaf atTen], .leaf byStars],
    .leaf byAuthor]

-- The first operator takes a single node, and one clause is itself a compound of nothing.
theorem inhabited_ofPostfix_lampOrAnn :
    Query.toPostfix lampOrAnn = .ok lampOrdered ∧
      Query.Tree.ofPostfix lampOrdered = .ok lampTree ∧
      ∃ nodes document, .group ⟨.and, true⟩ nodes ∈ lampTree.subtrees ∧ nodes.length = 2 ∧
        unfilled.compile lampOrAnn = .ok document ∧ (hollow document).Perm [("must", [])] := by
  have ordered : Query.toPostfix lampOrAnn = .ok lampOrdered := rfl
  have reduced : Query.Tree.ofPostfix lampOrdered = .ok lampTree := rfl
  obtain ⟨arity, compiled, inhabited⟩ := inhabited_ofPostfix unfilled reduced
  have clauses : ∀ o ∈ Token.operands lampOrdered, (unfilled.leafOf o).clause.blank = false := by
    decide +kernel
  have pair : .group ⟨.and, true⟩ [.group ⟨.and, false⟩ [.leaf calledLamp, .leaf atTen],
      .leaf byStars] ∈ lampTree.subtrees := by
    simp [lampTree]
  have whole : unfilled.compileTree lampTree = .ok (compound "should"
      [compound "must"
        [compound "must" [negate (compound "must" []), equalsClause "price" (.integer 10)],
          embeddedDocument "reviews" (compound "must" [equalsClause "reviews.stars" (.integer 5)])],
        embeddedDocument "reviews" (textClause "Product.reviews.author" (.string "ann"))]) := by
    decide +kernel
  have brought : (Token.operands lampOrdered).flatMap
      (fun o => (unfilled.handed o).flatMap hollow) = [("must", [])] := by
    decide +kernel
  refine ⟨ordered, reduced, _, _, pair, (arity _ _ pair).2 rfl,
    (compiled lampOrAnn ordered).trans whole, ?_⟩
  rw [← brought]
  exact (inhabited (fun o ho leaf hl => leafOf_eq hl ▸ clauses o ho)).2 _ whole

end Compiler

end Criteria.Search
