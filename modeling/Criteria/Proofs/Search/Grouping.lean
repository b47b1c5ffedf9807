import Criteria.Proofs.Search.Assembly
import Criteria.Proofs.Search.Lowered
import Mathlib.Data.List.Nodup
import Mathlib.Data.List.Induction

namespace Criteria.Search

open Json (Value)

def paths (pairs : List (String × Value)) : List String :=
  (pairs.map Prod.fst).eraseDups

def clausesUnder (path : String) (pairs : List (String × Value)) : List Value :=
  (pairs.filter (fun p => p.1 = path)).map Prod.snd

def wrappers (pairs : List (String × Value)) : List Value :=
  (paths pairs).map (fun path =>
    embeddedDocument path (compound "must" (clausesUnder path pairs)))

theorem paths_concat (pairs : List (String × Value)) (path : String) (clause : Value) :
    paths (pairs ++ [(path, clause)]) =
      if path ∈ paths pairs then paths pairs else paths pairs ++ [path] := by
  simp only [paths, List.map_append, List.map_singleton, List.eraseDups_append, List.mem_eraseDups]
  split
  · rename_i h
    simp [List.removeAll, h]
  · rename_i h
    simp [List.removeAll, h, List.eraseDups_cons]

theorem nodup_paths (pairs : List (String × Value)) : (paths pairs).Nodup := by
  induction pairs using List.reverseRecOn with
  | nil => exact List.nodup_nil
  | append_singleton pairs p ih =>
      rw [paths_concat]
      split
      · exact ih
      · rename_i h
        simpa using ih.concat h

theorem clausesUnder_concat (path : String) (pairs : List (String × Value))
    (p : String × Value) :
    clausesUnder path (pairs ++ [p]) =
      clausesUnder path pairs ++ if p.1 = path then [p.2] else [] := by
  by_cases h : p.1 = path
  · simp [clausesUnder, List.filter_append, h]
  · simp [clausesUnder, List.filter_append, h]

theorem clausesUnder_of_not_mem {path : String} {pairs : List (String × Value)}
    (h : path ∉ paths pairs) : clausesUnder path pairs = [] := by
  simp only [paths, List.mem_eraseDups, List.mem_map, not_exists, not_and] at h
  simpa [clausesUnder, List.filter_eq_nil_iff] using h

theorem clausesUnder_ne_nil {path : String} {pairs : List (String × Value)}
    (h : path ∈ paths pairs) : clausesUnder path pairs ≠ [] := by
  simp only [paths, List.mem_eraseDups, List.mem_map] at h
  obtain ⟨p, hp, rfl⟩ := h
  have kept : p ∈ pairs.filter (fun q => q.1 = p.1) := List.mem_filter.mpr ⟨hp, decide_eq_true rfl⟩
  exact List.ne_nil_of_mem (List.mem_map_of_mem kept)

theorem clausesUnder_of_mem {path : String} {clause : Value} {pairs : List (String × Value)}
    (h : (path, clause) ∈ pairs) : clause ∈ clausesUnder path pairs :=
  List.mem_map.mpr ⟨(path, clause), List.mem_filter.mpr ⟨h, decide_eq_true rfl⟩, rfl⟩

theorem mem_wrappers_of_clausesUnder {path : String} {pairs : List (String × Value)}
    (h : clausesUnder path pairs ≠ []) :
    embeddedDocument path (compound "must" (clausesUnder path pairs)) ∈ wrappers pairs := by
  have hm : path ∈ paths pairs := by
    by_contra hn
    exact h (clausesUnder_of_not_mem hn)
  exact List.mem_map_of_mem hm

theorem add_of_not_mem {keys : List String} {path : String} (h : path ∉ keys)
    (f : String → List Value) (clause : Value) :
    Groups.add path clause (keys.map (fun k => (k, f k))) =
      keys.map (fun k => (k, f k)) ++ [(path, [clause])] := by
  induction keys with
  | nil => rfl
  | cons k keys ih =>
      obtain ⟨hk, hs⟩ := not_or.mp (List.mem_cons.not.mp h)
      rw [List.map_cons, Groups.add, if_neg (Ne.symm hk), ih hs, List.cons_append]

theorem add_of_mem {keys : List String} (hn : keys.Nodup) {path : String} (h : path ∈ keys)
    (f : String → List Value) (clause : Value) :
    Groups.add path clause (keys.map (fun k => (k, f k))) =
      keys.map (fun k => (k, f k ++ if path = k then [clause] else [])) := by
  induction keys with
  | nil => cases h
  | cons k keys ih =>
      obtain ⟨hk, hs⟩ := List.nodup_cons.mp hn
      rw [List.map_cons, Groups.add, List.map_cons]
      by_cases he : k = path
      · subst he
        have hrest : ∀ j ∈ keys, (j, f j) = (j, f j ++ if k = j then [clause] else []) := by
          intro j hj
          have hne : k ≠ j := fun h => hk (h ▸ hj)
          simp [hne]
        rw [if_pos rfl, if_pos rfl, List.map_congr_left hrest]
      · have hm : path ∈ keys := List.mem_of_ne_of_mem (Ne.symm he) h
        rw [if_neg he, if_neg (Ne.symm he), List.append_nil, ih hs hm]

theorem addAll_eq (pairs : List (String × Value)) :
    Groups.addAll [] pairs = (paths pairs).map (fun path => (path, clausesUnder path pairs)) := by
  induction pairs using List.reverseRecOn with
  | nil => rfl
  | append_singleton pairs p ih =>
      have hs : Groups.addAll [] (pairs ++ [p]) =
          Groups.add p.1 p.2 (Groups.addAll [] pairs) := by
        rw [Groups.addAll, List.foldl_append]
        rfl
      rw [hs, ih, paths_concat]
      simp only [clausesUnder_concat]
      split
      · rename_i h
        exact add_of_mem (nodup_paths pairs) h _ _
      · rename_i h
        rw [add_of_not_mem h, List.map_append, List.map_singleton, clausesUnder_of_not_mem h,
          if_pos rfl, List.nil_append]
        congr 1
        refine List.map_congr_left (fun k hk => ?_)
        have hne : p.1 ≠ k := fun he => h (he ▸ hk)
        simp [hne]

theorem documents_addAll (pairs : List (String × Value)) :
    (Groups.addAll [] pairs).documents = wrappers pairs := by
  rw [addAll_eq, Groups.documents, List.map_map]
  rfl

def Apart (document : Value) : Prop :=
  ∀ clauses, ("must", clauses) ∈ clauseLists document → (clauses.filterMap wrapperPath?).Nodup

theorem Apart.compound {keyword : String} {clauses : List Value}
    (hk : keyword = "must" → (clauses.filterMap wrapperPath?).Nodup)
    (h : ∀ clause ∈ clauses, Apart clause) : Apart (compound keyword clauses) := by
  intro list hl
  rw [clauseLists_compound, List.mem_cons, List.mem_flatMap] at hl
  rcases hl with heq | ⟨clause, hc, hl⟩
  · obtain ⟨rfl, rfl⟩ := Prod.mk.inj heq
    exact hk rfl
  · exact h clause hc list hl

theorem Apart.embeddedDocument {path : String} {operator : Value} (h : Apart operator) :
    Apart (embeddedDocument path operator) := by
  intro list hl
  rw [clauseLists_embeddedDocument] at hl
  exact h list hl

theorem nodup_of_lowered {clauses : List Value} (h : ∀ clause ∈ clauses, Lowered clause) :
    (clauses.filterMap wrapperPath?).Nodup := by
  have hn : clauses.filterMap wrapperPath? = [] :=
    List.filterMap_eq_nil_iff.mpr (fun clause hc => (h clause hc).unwrapped)
  rw [hn]
  exact List.nodup_nil

theorem Lowered.apart {document : Value} (h : Lowered document) : Apart document := by
  induction h with
  | primitive hc he body =>
      intro list hl
      rw [clauseLists_of_primitive (primitive_record hc he body)] at hl
      cases hl
  | compound keyword ne h ih => exact .compound (fun _ => nodup_of_lowered h) ih
  | @requiring must mustNot ne hm hn ihm ihn =>
      intro list hl
      simp only [clauseLists_requiring, List.mem_cons, List.mem_append, List.mem_flatMap] at hl
      rcases hl with heq | ⟨clause, hc, hl⟩ | heq | ⟨clause, hc, hl⟩
      · obtain ⟨_, rfl⟩ := Prod.mk.inj heq
        exact nodup_of_lowered hm
      · exact ihm clause hc list hl
      · exact absurd (Prod.mk.inj heq).1 (by decide)
      · exact ihn clause hc list hl

theorem mem_assemble_of_mem_loose {t : Query.Tree Leaf} {document : Value}
    (h : document ∈ loose t) : document ∈ assemble t := by
  match t with
  | .leaf ⟨clause, some path⟩ => cases h
  | .leaf ⟨clause, none⟩ =>
      rw [← loose_of_flat (by simp)]
      exact h
  | .group operator children => exact h

theorem mem_loose_or_nested {t : Query.Tree Leaf} {document : Value} (h : document ∈ assemble t) :
    document ∈ loose t ∨ ∃ p, p ∈ nested t := by
  match t with
  | .leaf ⟨clause, none⟩ =>
      rw [loose_of_flat (by simp)]
      exact .inl h
  | .leaf ⟨clause, some path⟩ =>
      rw [assemble_leaf] at h
      split at h
      · cases h
      · rename_i hb
        have kept : clause ∈ kept clause := mem_kept_iff.mpr ⟨rfl, Bool.eq_false_iff.mpr hb⟩
        exact .inr ⟨(path, clause), List.mem_map_of_mem kept⟩
  | .group operator children => exact .inl h

theorem must_ne_nil {children : List (Query.Tree Leaf)} {t : Query.Tree Leaf} (ht : t ∈ children)
    {document : Value} (hd : document ∈ assemble t) :
    children.flatMap loose ++ wrappers (children.flatMap nested) ≠ [] := by
  rcases mem_loose_or_nested hd with hd | ⟨p, hp⟩
  · exact List.ne_nil_of_mem (List.mem_append_left _ (List.mem_flatMap_of_mem ht hd))
  · have under := clausesUnder_of_mem (List.mem_flatMap_of_mem ht hp)
    exact List.ne_nil_of_mem (List.mem_append_right _
      (mem_wrappers_of_clausesUnder (List.ne_nil_of_mem under)))

-- What one group adds: its children's documents, and wrappers around clauses of its own leaves.
theorem exists_clauses (operator : Query.Operator) (children : List (Query.Tree Leaf)) :
    ∃ clauses, assemble (.group operator children) =
        [compound operator.connective.keyword clauses] ∧
      (∀ clause ∈ clauses, (∃ t ∈ children, clause ∈ assemble t) ∨
        ∃ path inner, clause = embeddedDocument path (compound "must" inner) ∧ inner ≠ [] ∧
          ∀ d ∈ inner, ∃ t ∈ children, ∃ l ∈ t.leaves, l.clause = d ∧ d.blank = false) ∧
      ((∃ t ∈ children, ∃ document, document ∈ assemble t) → clauses ≠ []) := by
  obtain ⟨connective, separate⟩ := operator
  cases connective with
  | and =>
      refine ⟨_, by rw [assemble_and, documents_addAll]; rfl, ?_, ?_⟩
      · intro clause hc
        rcases List.mem_append.mp hc with hc | hc
        · obtain ⟨t, ht, hc⟩ := List.mem_flatMap.mp hc
          exact .inl ⟨t, ht, mem_assemble_of_mem_loose hc⟩
        · obtain ⟨path, hp, rfl⟩ := List.mem_map.mp hc
          refine .inr ⟨path, _, rfl, clausesUnder_ne_nil hp, ?_⟩
          intro d hd
          obtain ⟨p, hp, rfl⟩ := List.mem_map.mp hd
          obtain ⟨t, ht, hp⟩ := List.mem_flatMap.mp (List.mem_of_mem_filter hp)
          obtain ⟨l, hl, hc, hb⟩ := exists_leaf_of_mem_nested hp
          exact ⟨t, ht, l, hl, hc, hc ▸ hb⟩
      · rintro ⟨t, ht, document, hd⟩
        exact must_ne_nil ht hd
  | or =>
      refine ⟨_, assemble_or separate children, ?_, ?_⟩
      · intro clause hc
        exact .inl (List.mem_flatMap.mp hc)
      · rintro ⟨t, ht, document, hd⟩
        exact List.ne_nil_of_mem (List.mem_flatMap_of_mem ht hd)

end Criteria.Search
