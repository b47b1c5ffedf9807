import Criteria.Proofs.Except
import Criteria.Proofs.Query.Forest
import Criteria.Search.Compile

namespace Criteria.Search

open Json (Value)
open Query (Operand Operator Token)
open Schema (Score)

def loose : Query.Tree Leaf → List Value
  | .leaf ⟨clause, none⟩ => kept clause
  | .leaf ⟨_, some _⟩ => []
  | .group operator children => assemble (.group operator children)

def nested : Query.Tree Leaf → List (String × Value)
  | .leaf ⟨clause, some path⟩ => (kept clause).map (path, ·)
  | .leaf ⟨_, none⟩ => []
  | .group _ _ => []

def Groups.addAll (gs : Groups) (pairs : List (String × Value)) : Groups :=
  pairs.foldl (fun gs p => Groups.add p.1 p.2 gs) gs

def Groups.pairs (gs : Groups) : List (String × Value) :=
  gs.flatMap (fun group => group.2.map (group.1, ·))

theorem pairs_add (path : String) (clause : Value) (gs : Groups) :
    (Groups.add path clause gs).pairs.Perm (gs.pairs ++ [(path, clause)]) := by
  induction gs with
  | nil => exact .refl _
  | cons group gs ih =>
      obtain ⟨p, clauses⟩ := group
      rw [Groups.add]
      split
      · rename_i same
        subst same
        simp only [Groups.pairs, List.flatMap_cons, List.map_append, List.map_singleton,
          List.append_assoc]
        exact List.perm_append_comm.append_left _
      · simp only [Groups.pairs, List.flatMap_cons, List.append_assoc]
        exact ih.append_left _

theorem pairs_addAll (gs : Groups) (pairs : List (String × Value)) :
    (Groups.addAll gs pairs).pairs.Perm (gs.pairs ++ pairs) := by
  induction pairs generalizing gs with
  | nil => simp [Groups.addAll]
  | cons pair pairs ih =>
      have added := (pairs_add pair.1 pair.2 gs).append_right pairs
      rw [List.append_assoc] at added
      exact (ih _).trans added

-- A reading of the wrappers that goes clause by clause does not depend on the grouping.
theorem flatMap_documents_addAll {β : Type} {read : Value → List β}
    {each : String × Value → List β} {pairs : List (String × Value)}
    (h : ∀ group ∈ Groups.addAll [] pairs,
      read (embeddedDocument group.1 (compound "must" group.2)) =
        group.2.flatMap (fun clause => each (group.1, clause))) :
    ((Groups.addAll [] pairs).documents.flatMap read).Perm (pairs.flatMap each) := by
  have apart : (Groups.addAll [] pairs).documents.flatMap read =
      (Groups.addAll [] pairs).pairs.flatMap each := by
    rw [Groups.documents, Groups.pairs, List.flatMap_map, List.flatMap_assoc]
    refine List.flatMap_congr (fun group hg => ?_)
    rw [List.flatMap_map]
    exact h group hg
  rw [apart]
  exact (pairs_addAll [] pairs).flatMap_right each

theorem kept_of_blank {document : Value} (h : document.blank = true) : kept document = [] := by
  rw [kept, if_pos h]

theorem kept_of_not_blank {document : Value} (h : document.blank = false) :
    kept document = [document] := by
  rw [kept, h]
  rfl

theorem mem_kept_iff {document clause : Value} :
    clause ∈ kept document ↔ clause = document ∧ document.blank = false := by
  cases hb : document.blank with
  | true => simp [kept_of_blank hb]
  | false => simp [kept_of_not_blank hb]

theorem exists_leaf_of_mem_nested {t : Query.Tree Leaf} {pair : String × Value}
    (h : pair ∈ nested t) : ∃ l ∈ t.leaves, l.clause = pair.2 ∧ l.clause.blank = false := by
  match t with
  | .leaf ⟨clause, some path⟩ =>
      obtain ⟨document, hd, rfl⟩ := List.mem_map.mp h
      obtain ⟨rfl, hb⟩ := mem_kept_iff.mp hd
      exact ⟨⟨document, some path⟩, by simp, rfl, hb⟩
  | .leaf ⟨clause, none⟩ => cases h
  | .group operator children => cases h

theorem addLeaf_eq (c : Conjunction) (l : Leaf) :
    c.addLeaf l =
      ⟨c.flat ++ loose (.leaf l), Groups.addAll c.groups (nested (.leaf l))⟩ := by
  obtain ⟨clause, embeddedIn⟩ := l
  unfold Conjunction.addLeaf
  cases hb : clause.blank with
  | true => cases embeddedIn <;> simp [loose, nested, kept, hb, Groups.addAll]
  | false => cases embeddedIn <;> simp [loose, nested, kept, hb, Groups.addAll]

theorem assembleAll_eq (c : Conjunction) (ts : List (Query.Tree Leaf)) :
    assembleAll c ts =
      ⟨c.flat ++ ts.flatMap loose, Groups.addAll c.groups (ts.flatMap nested)⟩ := by
  induction ts generalizing c with
  | nil => simp [assembleAll, Groups.addAll]
  | cons t ts ih =>
      cases t with
      | leaf l =>
          rw [assembleAll, ih, addLeaf_eq]
          simp [Groups.addAll]
      | group operator children =>
          rw [assembleAll, ih, Conjunction.addDocuments]
          simp [loose, nested]

theorem assembleEach_eq_flatMap (ts : List (Query.Tree Leaf)) :
    assembleEach ts = ts.flatMap assemble := by
  induction ts with
  | nil => rfl
  | cons t ts ih => rw [assembleEach, ih, List.flatMap_cons]

theorem assemble_leaf (l : Leaf) :
    assemble (.leaf l) = if l.clause.blank then [] else [l.document] := by
  rw [assemble]

theorem assemble_and (separate : Bool) (children : List (Query.Tree Leaf)) :
    assemble (.group ⟨.and, separate⟩ children) =
      [compound "must" (children.flatMap loose ++
        (Groups.addAll [] (children.flatMap nested)).documents)] := by
  rw [assemble, assembleAll_eq]
  rfl

theorem assemble_or (separate : Bool) (children : List (Query.Tree Leaf)) :
    assemble (.group ⟨.or, separate⟩ children) =
      [compound "should" (children.flatMap assemble)] := by
  rw [assemble, assembleEach_eq_flatMap]

theorem Leaf.document_not_blank {l : Leaf} (h : l.clause.blank = false) :
    l.document.blank = false := by
  unfold Leaf.document
  split
  · rfl
  · exact h

theorem exists_assemble {t : Query.Tree Leaf} (h : ∀ l ∈ t.leaves, l.clause.blank = false) :
    ∃ document, assemble t = [document] := by
  match t with
  | .leaf l =>
      rw [assemble_leaf, h l (by simp)]
      exact ⟨_, rfl⟩
  | .group ⟨.and, separate⟩ children => exact ⟨_, assemble_and separate children⟩
  | .group ⟨.or, separate⟩ children => exact ⟨_, assemble_or separate children⟩

theorem exists_mem_assemble {children : List (Query.Tree Leaf)} (two : 2 ≤ children.length)
    (h : ∀ t ∈ children, ∀ l ∈ t.leaves, l.clause.blank = false) :
    ∃ t ∈ children, ∃ document, document ∈ assemble t := by
  obtain ⟨first, hf⟩ := List.exists_mem_of_length_pos (Nat.lt_of_lt_of_le Nat.two_pos two)
  obtain ⟨document, hd⟩ := exists_assemble (h first hf)
  exact ⟨first, hf, document, hd ▸ List.mem_singleton_self document⟩

theorem assemble_eq_kept (t : Query.Tree Leaf) :
    assemble t = kept ((assemble t).head?.getD .null) := by
  match t with
  | .leaf l =>
      rw [assemble_leaf]
      cases h : l.clause.blank with
      | true => rfl
      | false => exact (kept_of_not_blank (Leaf.document_not_blank h)).symm
  | .group ⟨.and, separate⟩ children =>
      rw [assemble_and]
      rfl
  | .group ⟨.or, separate⟩ children =>
      rw [assemble_or]
      rfl

theorem loose_of_flat {t : Query.Tree Leaf} (h : ∀ l ∈ t.leaves, l.embeddedIn = none) :
    loose t = assemble t := by
  match t with
  | .leaf ⟨clause, some path⟩ =>
      have hl : some path = none := h ⟨clause, some path⟩ (by simp)
      cases hl
  | .leaf ⟨clause, none⟩ =>
      rw [assemble_leaf]
      rfl
  | .group operator children => rfl

theorem nested_of_flat {t : Query.Tree Leaf} (h : ∀ l ∈ t.leaves, l.embeddedIn = none) :
    nested t = [] := by
  match t with
  | .leaf ⟨clause, some path⟩ =>
      have hl : some path = none := h ⟨clause, some path⟩ (by simp)
      cases hl
  | .leaf ⟨clause, none⟩ => rfl
  | .group operator children => rfl

theorem assemble_flat {operator : Query.Operator} {children : List (Query.Tree Leaf)}
    (h : ∀ t ∈ children, ∀ l ∈ t.leaves, l.embeddedIn = none) :
    assemble (.group operator children) =
      [compound operator.connective.keyword (children.flatMap assemble)] := by
  obtain ⟨connective, separate⟩ := operator
  cases connective with
  | and =>
      have hn : children.flatMap nested = [] :=
        List.flatMap_eq_nil_iff.mpr (fun t ht => nested_of_flat (h t ht))
      rw [assemble_and, hn, List.flatMap_congr (fun t ht => loose_of_flat (h t ht))]
      exact congrArg (fun clauses => [compound "must" clauses]) (List.append_nil _)
  | or => exact assemble_or separate children

namespace Compiler

variable {σ : Type} [Score σ]

def leafOf (c : Compiler σ) (o : Operand) : Leaf :=
  match c.compileLeaf o with
  | .ok leaf => leaf
  | .error _ => ⟨.null, none⟩

theorem leafOf_eq {c : Compiler σ} {o : Operand} {leaf : Leaf} (h : c.compileLeaf o = .ok leaf) :
    c.leafOf o = leaf := by
  rw [leafOf, h]

theorem compileLeaf_eq {c : Compiler σ} {o : Operand} (h : ∃ leaf, c.compileLeaf o = .ok leaf) :
    c.compileLeaf o = .ok (c.leafOf o) := by
  obtain ⟨leaf, hl⟩ := h
  rw [leafOf_eq hl, hl]

theorem embeddedIn_leafOf {c : Compiler σ} {o : Operand}
    (h : ∃ leaf, c.compileLeaf o = .ok leaf) :
    (c.leafOf o).embeddedIn = c.parent (c.prepare o) := by
  obtain ⟨leaf, hl⟩ := h
  rw [leafOf_eq hl]
  obtain ⟨clause, _, hc⟩ := Except.bind_eq_ok_iff.mp hl
  cases hc
  rfl

def Lowers (c : Compiler σ) (t : Query.Tree Operand) : Prop :=
  ∀ o ∈ t.leaves, ∃ leaf, c.compileLeaf o = .ok leaf

theorem Lowers.leaf {c : Compiler σ} {o : Operand} (h : ∃ leaf, c.compileLeaf o = .ok leaf) :
    c.Lowers (.leaf o) := by
  intro a ha
  rw [Query.Tree.leaves_leaf, List.mem_singleton] at ha
  exact ha ▸ h

theorem Lowers.child {c : Compiler σ} {operator : Operator} {children : List (Query.Tree Operand)}
    (h : c.Lowers (.group operator children)) {t : Query.Tree Operand} (ht : t ∈ children) :
    c.Lowers t := by
  intro o ho
  exact h o (Query.Tree.mem_leaves_of_mem ht ho)

theorem compileTree_eq {c : Compiler σ} {t : Query.Tree Operand} (h : c.Lowers t) :
    c.compileTree t = .ok ((assemble (t.map c.leafOf)).head?.getD .null) := by
  have hl : ∀ o ∈ t.leaves, c.compileLeaf o = .ok (c.leafOf o) :=
    fun o ho => compileLeaf_eq (h o ho)
  rw [compileTree, Query.Tree.traverse_eq_map hl]
  rfl

theorem assemble_of_compileTree {c : Compiler σ} {t : Query.Tree Operand} (h : c.Lowers t)
    (hb : ∀ o ∈ t.leaves, (c.leafOf o).clause.blank = false) {document : Value}
    (hd : c.compileTree t = .ok document) : assemble (t.map c.leafOf) = [document] := by
  obtain ⟨d, ha⟩ := exists_assemble (Query.Tree.forall_leaves_map hb)
  rw [compileTree_eq h, ha] at hd
  rw [ha, ← Except.ok.inj hd]
  rfl

def document (c : Compiler σ) (t : Query.Tree Operand) : Value :=
  match c.compileTree t with
  | .ok document => document
  | .error _ => .null

theorem assemble_leafOf {c : Compiler σ} {t : Query.Tree Operand} (h : c.Lowers t) :
    assemble (t.map c.leafOf) = kept (c.document t) := by
  rw [document, compileTree_eq h]
  exact assemble_eq_kept _

theorem compile_of_ofTokens {c : Compiler σ} {tokens : List (Token Operand)}
    {t : Query.Tree Operand} (h : Query.Tree.ofTokens tokens = .ok t) :
    c.compile tokens = c.compileTree t := by
  rw [compile, h]

theorem exists_tree {c : Compiler σ} {tokens : List (Token Operand)} {document : Value}
    (h : c.compile tokens = .ok document) : ∃ t, Query.Tree.ofTokens tokens = .ok t := by
  unfold compile at h
  cases ht : Query.Tree.ofTokens tokens with
  | error e =>
      rw [ht] at h
      cases h
  | ok t => exact ⟨t, rfl⟩

def sample : Compiler Rat where
  schema :=
    { name := "Product"
      tag := "Product"
      children :=
        [.scalar "name" "String", .scalar "price" "Double",
          { name := "reviews"
            tag := "Review"
            list := true
            children := [.scalar "author" "String", .scalar "stars" "Integer"] }] }
  thresholds := ⟨4 / 5, 7 / 10, 1 / 2⟩

end Compiler

end Criteria.Search
