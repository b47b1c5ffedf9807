import Criteria.Proofs.Schema.Position
import Criteria.Schema.Resolve

namespace Criteria.Schema

variable {σ : Type} [Score σ]

structure Occurs (start : Node) (segment : String) (below : Position)
    (c : Candidate σ) : Prop where
  found : start.at? below = some c.node
  parent : c.parent = start.above? below
  path : c.path = start.namesTo below
  similarity : c.similarity = similarity segment c.node.name

namespace Occurs

variable {start : Node} {segment : String} {below : Position} {c : Candidate σ}

theorem length_path (h : Occurs start segment below c) : c.path.length = below.length := by
  rw [h.path, Node.length_namesTo h.found]

theorem path_of_length (h : Occurs start segment below c) (one : c.path.length = 1) :
    c.path = [c.node.name] := by
  rw [h.length_path, List.length_eq_one_iff] at one
  obtain ⟨i, rfl⟩ := one
  rw [h.path, ← List.nil_append [i], Node.namesTo_concat h.found]
  rfl

end Occurs

theorem collectForest_eq_flatMap (threshold : σ) (segment : String) (parent : Node)
    (path : List String) (ns : List Node) :
    collectForest threshold segment parent path ns =
      ns.flatMap (fun n => collect threshold segment (some parent) (path ++ [n.name]) n) := by
  induction ns with
  | nil => rfl
  | cons n ns ih => rw [collectForest, ih, List.flatMap_cons]

theorem collect_eq (threshold : σ) (segment : String) (parent : Option Node) (path : List String)
    (n : Node) :
    collect threshold segment parent path n =
      (if threshold ≤ similarity segment n.name then
        [⟨n, parent, path, similarity segment n.name⟩] else []) ++
        n.children.flatMap (fun child =>
          collect threshold segment (some n) (path ++ [child.name]) child) := by
  cases n
  rw [collect, collectForest_eq_flatMap]

def candidateAt (segment : String) (parent : Option Node) (path : List String) (n : Node)
    (place : Position × Node) : Candidate σ where
  node := place.2
  parent := (n.above? place.1).or parent
  path := path ++ n.namesTo place.1
  similarity := similarity segment place.2.name

theorem candidateAt_cons {segment : String} {parent : Option Node} {path : List String}
    {n child m : Node} {i : Nat} {below : Position} (hi : n.children[i]? = some child)
    (hm : child.at? below = some m) :
    (candidateAt segment parent path n (i :: below, m) : Candidate σ) =
      candidateAt segment (some n) (path ++ [child.name]) child (below, m) := by
  have top : n.at? [i] = some child := Node.at?_cons hi []
  have above : n.above? (i :: below) = (child.above? below).or (some n) :=
    Node.above?_append top hm
  simp only [candidateAt, above, Node.namesTo_cons hi, Option.or_assoc, Option.some_or,
    List.append_assoc, List.singleton_append]

theorem collect_eq_map (threshold : σ) (segment : String) (parent : Option Node)
    (path : List String) (n : Node) :
    collect threshold segment parent path n =
      (n.places.filter (fun place => threshold ≤ similarity segment place.2.name)).map
        (candidateAt segment parent path n) := by
  induction n generalizing parent path with
  | node n ih =>
      have below : ∀ place ∈ n.children.zipIdx,
          collect threshold segment (some n) (path ++ [place.1.name]) place.1 =
            ((place.1.places.map (Prod.map (place.2 :: ·) id)).filter
              (fun place => threshold ≤ similarity segment place.2.name)).map
                (candidateAt segment parent path n) := by
        intro ⟨child, i⟩ hc
        have hi := List.mem_zipIdx_iff_getElem?.mp hc
        rw [ih child (List.mem_of_getElem? hi), List.filter_map, List.map_map]
        refine List.map_congr_left ?_
        intro place hm
        exact (candidateAt_cons hi (Node.mem_places.mp (List.mem_of_mem_filter hm))).symm
      have numbered : n.children.flatMap (fun child =>
          collect threshold segment (some n) (path ++ [child.name]) child) =
            n.children.zipIdx.flatMap (fun place =>
              collect threshold segment (some n) (path ++ [place.1.name]) place.1) := by
        conv_lhs => rw [← List.zipIdx_map_fst 0 n.children, List.flatMap_map]
      rw [collect_eq, numbered, List.flatMap_congr below, ← List.map_flatMap,
        ← List.filter_flatMap, Node.places_eq, List.filter_cons]
      split
      · rename_i hs
        rw [if_pos (decide_eq_true hs)]
        simp [candidateAt]
      · rename_i hs
        rw [if_neg (by simpa using hs)]
        rfl

theorem mem_collect_iff {threshold : σ} {segment : String} {parent : Option Node}
    {path : List String} {n : Node} {c : Candidate σ} :
    c ∈ collect threshold segment parent path n ↔
      ∃ below m, n.at? below = some m ∧ threshold ≤ similarity segment m.name ∧
        candidateAt segment parent path n (below, m) = c := by
  simp [collect_eq_map, Node.mem_places, and_assoc]

theorem threshold_le_of_mem_collect {threshold : σ} {segment : String} {parent : Option Node}
    {path : List String} {n : Node} {c : Candidate σ}
    (h : c ∈ collect threshold segment parent path n) : threshold ≤ c.similarity := by
  obtain ⟨below, m, _, hs, rfl⟩ := mem_collect_iff.mp h
  exact hs

theorem mem_collect {threshold : σ} {segment : String} {parent : Option Node}
    {path : List String} {n m : Node} {below : Position} (h : n.at? below = some m)
    (hs : threshold ≤ similarity segment m.name) :
    ∃ c ∈ collect threshold segment parent path n, c.node = m :=
  ⟨candidateAt segment parent path n (below, m), mem_collect_iff.mpr ⟨below, m, h, hs, rfl⟩, rfl⟩

namespace Thresholds

theorem occurs_candidateAt {start m : Node} {below : Position} (h : start.at? below = some m)
    (segment : String) :
    Occurs start segment below (candidateAt segment none [] start (below, m) : Candidate σ) where
  found := h
  parent := Option.or_none
  path := rfl
  similarity := rfl

theorem occurs_of_mem_candidates {t : Thresholds σ} {start : Node} {segment : String}
    {c : Candidate σ} (h : c ∈ t.candidates start segment) :
    ∃ below, Occurs start segment below c := by
  obtain ⟨below, m, hm, _, rfl⟩ := mem_collect_iff.mp h
  exact ⟨below, occurs_candidateAt hm segment⟩

theorem mem_of_foldl_heavier {best : Option (Candidate σ)} {cs : List (Candidate σ)}
    {c : Candidate σ} (h : cs.foldl heavier best = some c) : best = some c ∨ c ∈ cs := by
  induction cs generalizing best with
  | nil => exact .inl h
  | cons d cs ih =>
      rcases ih h with hb | hm
      · have hd : best = some c ∨ d = c := by
          unfold heavier at hb
          split at hb
          · exact .inr (Option.some.inj hb)
          · split at hb
            · exact .inr (Option.some.inj hb)
            · exact .inl hb
        rcases hd with hd | hd
        · exact .inl hd
        · exact .inr (hd ▸ List.mem_cons_self)
      · exact .inr (List.mem_cons_of_mem d hm)

theorem mem_of_heaviest {cs : List (Candidate σ)} {c : Candidate σ} (h : heaviest cs = some c) :
    c ∈ cs := by
  rcases mem_of_foldl_heavier h with hn | hm
  · cases hn
  · exact hm

theorem mem_of_select {t : Thresholds σ} {structural : Bool} {cs : List (Candidate σ)}
    {c : Candidate σ} (h : t.select structural cs = some c) :
    c ∈ cs ∧ eligible structural c = true := by
  simp only [select, Option.or_eq_some_iff] at h
  rcases h with h | ⟨_, h⟩
  · exact List.mem_filter.mp (List.mem_of_mem_filter (mem_of_heaviest h))
  · exact List.mem_filter.mp (List.mem_of_mem_filter (mem_of_heaviest h))

theorem foldl_heavier_isSome (best : Candidate σ) (cs : List (Candidate σ)) :
    (cs.foldl heavier (some best)).isSome = true := by
  induction cs generalizing best with
  | nil => rfl
  | cons c cs ih =>
      rw [List.foldl_cons, heavier]
      split
      · exact ih c
      · exact ih best

theorem heaviest_isSome {cs : List (Candidate σ)} {c : Candidate σ} (h : c ∈ cs) :
    (heaviest cs).isSome = true := by
  cases cs with
  | nil => cases h
  | cons d cs => exact foldl_heavier_isSome d cs

theorem exists_select {t : Thresholds σ} {structural : Bool} {cs : List (Candidate σ)}
    {c : Candidate σ} (h : c ∈ cs) (eligible : eligible structural c = true)
    (strong : t.strong ≤ c.similarity) : ∃ d, t.select structural cs = some d := by
  have hm : c ∈ (cs.filter (Thresholds.eligible structural)).filter t.strongTier :=
    List.mem_filter.mpr ⟨List.mem_filter.mpr ⟨h, eligible⟩, decide_eq_true strong⟩
  obtain ⟨d, hd⟩ := Option.isSome_iff_exists.mp (heaviest_isSome hm)
  refine ⟨d, ?_⟩
  rw [select]
  simp only [hd, Option.some_or]

end Thresholds

end Criteria.Schema
