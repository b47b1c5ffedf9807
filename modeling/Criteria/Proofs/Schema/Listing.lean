import Criteria.Proofs.Float.Standing
import Criteria.Proofs.Schema.Candidate
import Criteria.Proofs.Schema.Similarity
import Mathlib.Data.List.Forall2

namespace Criteria.Schema

namespace Node

mutual
theorem length_places (n : Node) : n.places.length = n.count := by
  cases n with
  | mk name tag list declared children =>
      rw [places, count, List.length_cons, length_forestPlaces 0 children, Nat.add_comm]
theorem length_forestPlaces (i : Nat) (ns : List Node) :
    (forestPlaces i ns).length = forestCount ns := by
  cases ns with
  | nil => rfl
  | cons n ns =>
      rw [forestPlaces, forestCount, List.length_append, List.length_map, length_places n,
        length_forestPlaces (i + 1) ns]
end

theorem above?_eq_none_iff {n m : Node} {p : Position} (h : n.at? p = some m) :
    n.above? p = none ↔ p = [] := by
  rcases List.eq_nil_or_concat' p with rfl | ⟨front, i, rfl⟩
  · simp
  · obtain ⟨above, ha, _⟩ := at?_concat_eq_some.mp h
    simp [above?_concat, ha]

end Node

-- Lengths that a machine word holds have a finite quotient in floating point, never a negative one.
theorem le_ratio {t : Float} (ht : t ≤ 0) {n m : Nat} (hm : 0 < m) (le : n ≤ m)
    (fits : m < 2 ^ 64) : t ≤ Score.ratio n m :=
  Float.le_of_nonneg ht (Float.nonneg_div hm le fits)

theorem le_similarity {t : Float} (ht : t ≤ 0) {a b : String} (fits : longer a b < 2 ^ 64) :
    t ≤ similarity a b := by
  obtain ⟨n, m, fraction, width⟩ := exists_fraction_lt fits
  rw [fraction.read]
  exact le_ratio ht fraction.positive fraction.le width

variable {σ : Type} [Score σ]

structure Entry (start : Node) (segment : String) (below : Position)
    (c : Candidate σ) : Prop extends Occurs start segment below c where
  depth : c.depth = below.length
  orphan : c.parent = none ↔ below = []

namespace Thresholds

-- Positions in increasing order are positions in pre-order, each of them once.
structure Lists (t : Thresholds σ) (start : Node) (segment : String)
    (positions : List Position) : Prop where
  increasing : positions.Pairwise (· < ·)
  admitted : ∀ p, p ∈ positions ↔
    ∃ m, start.at? p = some m ∧ t.candidate ≤ similarity segment m.name
  entries : List.Forall₂ (Entry start segment) positions (t.candidates start segment)

def admits (t : Thresholds σ) (segment : String) (place : Position × Node) : Bool :=
  t.candidate ≤ similarity segment place.2.name

theorem candidates_eq_map (t : Thresholds σ) (start : Node) (segment : String) :
    t.candidates start segment =
      (start.places.filter (t.admits segment)).map (candidateAt segment none [] start) :=
  collect_eq_map t.candidate segment none [] start

theorem entry_candidateAt {start m : Node} {below : Position} (h : start.at? below = some m)
    (segment : String) :
    Entry start segment below (candidateAt segment none [] start (below, m) : Candidate σ) where
  toOccurs := occurs_candidateAt h segment
  depth := (occurs_candidateAt h segment).length_path
  orphan := by rw [(occurs_candidateAt h segment).parent, Node.above?_eq_none_iff h]

theorem lists_places (t : Thresholds σ) (start : Node) (segment : String) :
    t.Lists start segment ((start.places.filter (t.admits segment)).map Prod.fst) where
  increasing := by
    rw [List.pairwise_map]
    exact start.pairwise_places.filter _
  admitted p := by
    simp [admits, Node.mem_places, and_assoc]
  entries := by
    rw [candidates_eq_map, List.forall₂_map_left_iff, List.forall₂_map_right_iff, List.forall₂_same]
    intro place hm
    exact entry_candidateAt (Node.mem_places.mp (List.mem_of_mem_filter hm)) segment

theorem length_candidates {t : Thresholds σ} {start : Node} {segment : String}
    (all : ∀ name ∈ start.names, t.candidate ≤ similarity segment name) :
    (t.candidates start segment).length = start.count := by
  have kept : ∀ place ∈ start.places, t.admits segment place = true := by
    intro place hm
    exact decide_eq_true (all _ (Node.name_mem_names (Node.mem_places.mp hm)))
  rw [candidates_eq_map, List.filter_eq_self.mpr kept, List.length_map, Node.length_places]

theorem candidates_exact (start : Node) (segment : String) :
    (∀ {σ : Type} [Score σ] (t : Thresholds σ), ∃ positions, t.Lists start segment positions) ∧
      (∀ t : Thresholds Rat, t.candidate ≤ 0 →
        (t.candidates start segment).length = start.count) ∧
      ∀ t : Thresholds Float, t.candidate ≤ 0 →
        (∀ name ∈ start.names, longer segment name < 2 ^ 64) →
          (t.candidates start segment).length = start.count := by
  refine ⟨?_, ?_, ?_⟩
  · intro σ _ t
    exact ⟨_, t.lists_places start segment⟩
  · intro t ht
    exact length_candidates (fun name _ => ht.trans (similarity_nonneg segment name))
  · intro t ht fits
    exact length_candidates (fun name hm => le_similarity ht (fits name hm))

def reviewed : Node :=
  ⟨"Product", "Product", false, true,
    [⟨"reviews", "Review", true, true, [.scalar "author" "String"]⟩, .scalar "name" "String"]⟩

theorem candidates_exact_reviewed :
    ((⟨0, 0, 0⟩ : Thresholds Rat).candidates reviewed "price").length = 4 ∧
      ((⟨-1, 0, 0⟩ : Thresholds Float).candidates reviewed "price").length = 4 := by
  obtain ⟨_, exact, approximate⟩ := candidates_exact reviewed "price"
  exact ⟨exact ⟨0, 0, 0⟩ (le_refl 0),
    approximate ⟨-1, 0, 0⟩ (Float.le_iff_compare.mpr rfl) (by decide)⟩

end Thresholds

end Criteria.Schema
