import Criteria.Proofs.Query.SourceOrder
import Criteria.Proofs.Search.Assembly
import Criteria.Proofs.Search.Document
import Mathlib.Data.List.Perm.Basic

namespace Criteria.Search

open Json (Value)
open Query (Connective Operand Token)
open Schema (Score)

def Leaf.spot (l : Leaf) : List String × Value :=
  (l.embeddedIn.toList, l.clause)

def wrappedSpot (pair : String × Value) : List String × Value :=
  ([pair.1], pair.2)

theorem gathered_keyword (above : List String) (c : Connective) (clauses : List Value) :
    gathered above (compound c.keyword clauses) = clauses.flatMap (gathered above) := by
  cases c <;>
    rw [Connective.keyword, compound, record, gathered, bodyGathered, bodyGathered,
      clausesGathered_eq_flatMap, List.append_nil]

theorem gathered_group (path : String) (clauses : List Value) :
    gathered [] (embeddedDocument path (compound "must" clauses)) =
      clauses.flatMap (gathered [path]) :=
  (gathered_embeddedDocument [] path _).trans (gathered_keyword [path] .and clauses)

theorem gathered_addAll {pairs : List (String × Value)} (hp : ∀ p ∈ pairs, Primitive p.2) :
    ((Groups.addAll [] pairs).documents.flatMap (gathered [])).Perm (pairs.map wrappedSpot) := by
  have each : pairs.flatMap (fun p => gathered [p.1] p.2) = pairs.map wrappedSpot := by
    rw [List.map_eq_flatMap]
    exact List.flatMap_congr (fun p hm => gathered_of_primitive _ (hp p hm))
  rw [← each]
  exact flatMap_documents_addAll (fun group _ => gathered_group group.1 group.2)

theorem gathered_leaf {l : Leaf} (h : Primitive l.clause) :
    (assemble (.leaf l)).flatMap (gathered []) = [l.spot] := by
  obtain ⟨clause, embeddedIn⟩ := l
  rw [assemble_leaf, not_blank_of_primitive h]
  cases embeddedIn with
  | none => simp [Leaf.document, Leaf.spot, gathered_of_primitive [] h]
  | some path =>
      simp [Leaf.document, Leaf.spot, gathered_embeddedDocument, gathered_of_primitive [path] h]

theorem gathered_child {t : Query.Tree Leaf} (h : ∀ l ∈ t.leaves, Primitive l.clause) :
    ((loose t).flatMap (gathered []) ++ (nested t).map wrappedSpot).Perm
      ((assemble t).flatMap (gathered [])) := by
  match t with
  | .leaf ⟨clause, none⟩ =>
      rw [loose_of_flat (by simp), nested_of_flat (by simp), List.map_nil, List.append_nil]
  | .leaf ⟨clause, some path⟩ =>
      have hc : Primitive clause := h ⟨clause, some path⟩ (by simp)
      rw [gathered_leaf hc, loose, nested, kept_of_not_blank (not_blank_of_primitive hc)]
      exact .refl _
  | .group operator children =>
      rw [loose, nested, List.map_nil, List.append_nil]

theorem gathered_assemble {t : Query.Tree Leaf} (h : ∀ l ∈ t.leaves, Primitive l.clause) :
    ((assemble t).flatMap (gathered [])).Perm (t.leaves.map Leaf.spot) := by
  induction t with
  | leaf l =>
      rw [gathered_leaf (h l (by simp)), Query.Tree.leaves_leaf]
      exact .refl _
  | group operator children ih =>
      obtain ⟨connective, separate⟩ := operator
      have hc : ∀ t ∈ children, ∀ l ∈ t.leaves, Primitive l.clause :=
        fun t ht l hl => h l (Query.Tree.mem_leaves_of_mem ht hl)
      have hi : (children.flatMap (fun t => (assemble t).flatMap (gathered []))).Perm
          ((Query.Tree.group ⟨connective, separate⟩ children).leaves.map Leaf.spot) := by
        rw [Query.Tree.leaves_group, List.map_flatMap]
        exact List.Perm.flatMap_left _ (fun t ht => ih t ht (hc t ht))
      cases connective with
      | and =>
          have hn : ∀ p ∈ children.flatMap nested, Primitive p.2 := by
            intro p hp
            obtain ⟨t, ht, hp⟩ := List.mem_flatMap.mp hp
            obtain ⟨l, hl, hp, _⟩ := exists_leaf_of_mem_nested hp
            exact hp ▸ hc t ht l hl
          have ha := gathered_addAll hn
          have hj := List.flatMap_append_perm children
            (fun t => (loose t).flatMap (gathered [])) (fun t => (nested t).map wrappedSpot)
          have hk := List.Perm.flatMap_left children (fun t ht => gathered_child (hc t ht))
          have must := gathered_keyword [] .and
          rw [Connective.keyword] at must
          rw [assemble_and, List.flatMap_singleton, must, List.flatMap_append,
            List.flatMap_assoc]
          rw [List.map_flatMap] at ha
          exact (((ha.append_left _).trans hj).trans hk).trans hi
      | or =>
          have should := gathered_keyword [] .or
          rw [Connective.keyword] at should
          rw [assemble_or, List.flatMap_singleton, should, List.flatMap_assoc]
          exact hi

theorem gathered_assemble_flat {t : Query.Tree Leaf} (h : ∀ l ∈ t.leaves, Primitive l.clause)
    (hf : ∀ l ∈ t.leaves, l.embeddedIn = none) :
    (assemble t).flatMap (gathered []) = t.leaves.map Leaf.spot := by
  induction t with
  | leaf l =>
      rw [gathered_leaf (h l (by simp)), Query.Tree.leaves_leaf]
      rfl
  | group operator children ih =>
      have hc : ∀ t ∈ children, ∀ l ∈ t.leaves, Primitive l.clause :=
        fun t ht l hl => h l (Query.Tree.mem_leaves_of_mem ht hl)
      have hf' : ∀ t ∈ children, ∀ l ∈ t.leaves, l.embeddedIn = none :=
        fun t ht l hl => hf l (Query.Tree.mem_leaves_of_mem ht hl)
      rw [assemble_flat hf', List.flatMap_singleton, gathered_keyword, List.flatMap_assoc,
        Query.Tree.leaves_group, List.map_flatMap]
      exact List.flatMap_congr (fun t ht => ih t ht (hc t ht) (hf' t ht))

namespace Compiler

variable {σ : Type} [Score σ]

structure Plain (c : Compiler σ) (clause : Operand → Value) (o : Operand) : Prop where
  compared : (c.prepare o).comparison ≠ none
  strict : (c.prepare o).includeBlanks = false
  lowered : c.lowering.lower (c.prepare o) (.ofResolution (c.resolution (c.prepare o))) =
    .ok (.positive (clause o))
  primitive : Primitive (clause o)

def spot (c : Compiler σ) (clause : Operand → Value) (o : Operand) : List String × Value :=
  ((c.parent (c.prepare o)).toList, clause o)

theorem compileLeaf_of_plain {c : Compiler σ} {clause : Operand → Value} {o : Operand}
    (h : c.Plain clause o) : c.compileLeaf o = .ok ⟨clause o, c.parent (c.prepare o)⟩ := by
  have hl : c.lowerLeaf (c.prepare o) (.ofResolution (c.resolution (c.prepare o))) =
      .ok (clause o) := by
    obtain ⟨comparison, hc⟩ := Option.ne_none_iff_exists'.mp h.compared
    rw [lowerLeaf, h.strict, hc, h.lowered]
    rfl
  rw [compileLeaf, compilePrepared, hl]
  rfl

theorem gathered_compile (c : Compiler σ) (tokens : List (Token Operand))
    (clause : Operand → Value) (plain : ∀ o ∈ Token.operands tokens, c.Plain clause o)
    (document : Value) (h : c.compile tokens = .ok document) :
    (gathered [] document).Perm ((Token.operands tokens).map (c.spot clause)) ∧
      ((∀ o ∈ Token.operands tokens, c.parent (c.prepare o) = none) →
        gathered [] document = (Token.operands tokens).map (c.spot clause)) := by
  obtain ⟨t, ht⟩ := exists_tree h
  rw [← Query.Tree.leaves_ofTokens ht] at plain ⊢
  have hl : ∀ o ∈ t.leaves, c.leafOf o = ⟨clause o, c.parent (c.prepare o)⟩ := fun o ho =>
    leafOf_eq (compileLeaf_of_plain (plain o ho))
  have hp : ∀ l ∈ (t.map c.leafOf).leaves, Primitive l.clause := by
    apply Query.Tree.forall_leaves_map
    intro o ho
    rw [hl o ho]
    exact (plain o ho).primitive
  have hs : (t.map c.leafOf).leaves.map Leaf.spot = t.leaves.map (c.spot clause) := by
    rw [Query.Tree.leaves_map, List.map_map]
    refine List.map_congr_left (fun o ho => ?_)
    rw [Function.comp_apply, hl o ho]
    rfl
  have hd : assemble (t.map c.leafOf) = [document] := by
    rw [compile_of_ofTokens ht] at h
    refine assemble_of_compileTree (fun o ho => ⟨_, compileLeaf_of_plain (plain o ho)⟩) ?_ h
    intro o ho
    rw [hl o ho]
    exact not_blank_of_primitive (plain o ho).primitive
  constructor
  · have hg := gathered_assemble hp
    rw [hd, List.flatMap_singleton, hs] at hg
    exact hg
  · intro flat
    have hf : ∀ l ∈ (t.map c.leafOf).leaves, l.embeddedIn = none := by
      apply Query.Tree.forall_leaves_map
      intro o ho
      rw [hl o ho]
      exact flat o ho
    have hg := gathered_assemble_flat hp hf
    rw [hd, List.flatMap_singleton, hs] at hg
    exact hg

def bare : Compiler Rat :=
  { sample with lowering := { lower := fun o _ => .ok (.positive (existsClause o.field)) } }

def dangling : List (Token Operand) :=
  [.operand (.compare "reviews.stars" .equal (.integer 5)), .operator ⟨.and, false⟩,
    .operand (.compare "price" .equal (.integer 10)), .operator ⟨.and, false⟩, .opening,
    .operand (.compare "name" .equal (.string "lamp")), .operator ⟨.or, true⟩,
    .operand (.compare "reviews.author" .equal (.string "ann")), .closing,
    .operator ⟨.and, false⟩, .operator ⟨.or, false⟩]

theorem gathered_compile_dangling :
    ∃ document, bare.compile dangling = .ok document ∧
      (gathered [] document).Perm
        [(["reviews"], existsClause "reviews.stars"), ([], existsClause "price"),
          ([], existsClause "name"), (["reviews"], existsClause "reviews.author")] := by
  have plain : ∀ o ∈ Token.operands dangling, bare.Plain (fun o => existsClause o.field) o := by
    intro o ho
    have hp : Primitive (existsClause o.field) := primitive_record (by decide) (by decide) _
    simp only [dangling, Token.operands_opening, Token.operands_operand, Token.operands_operator,
      Token.operands_closing, Token.operands_nil, List.mem_cons, List.not_mem_nil, or_false] at ho
    rcases ho with rfl | rfl | rfl | rfl <;> exact ⟨nofun, rfl, rfl, hp⟩
  have hd : bare.compile dangling = .ok (compound "must"
      [existsClause "price",
        compound "should"
          [existsClause "name", embeddedDocument "reviews" (existsClause "reviews.author")],
        embeddedDocument "reviews" (compound "must" [existsClause "reviews.stars"])]) := by
    decide +kernel
  have hs : (Token.operands dangling).map (bare.spot (fun o => existsClause o.field)) =
      [(["reviews"], existsClause "reviews.stars"), ([], existsClause "price"),
        ([], existsClause "name"), (["reviews"], existsClause "reviews.author")] := by
    decide +kernel
  exact ⟨_, hd, hs ▸ (gathered_compile bare dangling _ plain _ hd).1⟩

end Compiler

end Criteria.Search
