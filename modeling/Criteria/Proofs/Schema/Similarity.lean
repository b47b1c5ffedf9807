import Criteria.Proofs.Schema.EditDistance
import Mathlib.Algebra.Order.Field.Basic
import Mathlib.Algebra.Order.Field.Rat
import Mathlib.Data.Set.Insert

namespace Criteria.Schema

section Distance

variable {a b : String}

theorem levenshtein_eq_zero_iff : levenshtein a b = 0 ↔ a = b := by
  rw [levenshtein_eq_editDistance, editDistance_eq_zero_iff, String.toList_inj]

theorem levenshtein_comm (a b : String) : levenshtein a b = levenshtein b a := by
  rw [levenshtein_eq_editDistance, levenshtein_eq_editDistance, editDistance_comm]

theorem levenshtein_triangle (a b c : String) :
    levenshtein a c ≤ levenshtein a b + levenshtein b c := by
  simp only [levenshtein_eq_editDistance]
  exact editDistance_triangle a.toList b.toList c.toList

theorem length_le_add_levenshtein (a b : String) : a.length ≤ b.length + levenshtein a b := by
  rw [levenshtein_eq_editDistance]
  exact (within_editDistance a.toList b.toList).length_le

theorem levenshtein_le_longer (a b : String) : levenshtein a b ≤ longer a b := by
  rw [levenshtein_eq_editDistance]
  exact editDistance_le (.of_lengths a.toList b.toList)

theorem longer_comm (a b : String) : longer a b = longer b a :=
  Nat.max_comm a.length b.length

theorem eq_of_longer_eq_zero (h : longer a b = 0) : a = b := by
  obtain ⟨ha, hb⟩ := Nat.max_eq_zero_iff.mp h
  exact (String.length_eq_zero_iff.mp ha).trans (String.length_eq_zero_iff.mp hb).symm

end Distance

-- The one quotient that is formed, whatever kind of score reads it.
structure Fraction (a b : String) (n m : Nat) : Prop where
  positive : 0 < m
  le : n ≤ m
  eq_iff : n = m ↔ a = b ∨ aliased a b = true
  exact : aliased a b = false → 0 < longer a b → m = longer a b ∧ n + levenshtein a b = m
  read : ∀ {σ : Type} [Score σ], (similarity a b : σ) = Score.ratio n m

theorem exists_fraction_le (a b : String) :
    ∃ n m, Fraction a b n m ∧ m ≤ max 1 (longer a b) := by
  cases ha : aliased a b with
  | true =>
      refine ⟨1, 1, ⟨Nat.one_pos, Nat.le_refl 1, by simp [ha], by simp [ha], ?_⟩,
        Nat.le_max_left _ _⟩
      intro σ _
      rw [similarity, if_pos ha]
  | false =>
      rcases Nat.eq_zero_or_pos (longer a b) with hl | hl
      · refine ⟨1, 1, ⟨Nat.one_pos, Nat.le_refl 1, by simp [eq_of_longer_eq_zero hl],
          fun _ h => absurd hl h.ne', ?_⟩, Nat.le_max_left _ _⟩
        intro σ _
        rw [similarity, ha, if_neg Bool.false_ne_true, if_pos hl]
      · have le := levenshtein_le_longer a b
        refine ⟨longer a b - levenshtein a b, longer a b, ⟨hl, Nat.sub_le _ _, ?_,
          fun _ _ => ⟨rfl, Nat.sub_add_cancel le⟩, ?_⟩, Nat.le_max_right _ _⟩
        · rw [← levenshtein_eq_zero_iff, ha, or_iff_left Bool.false_ne_true]
          omega
        · intro σ _
          rw [similarity, ha, if_neg Bool.false_ne_true, if_neg hl.ne']

theorem exists_fraction (a b : String) : ∃ n m, Fraction a b n m := by
  obtain ⟨n, m, fraction, _⟩ := exists_fraction_le a b
  exact ⟨n, m, fraction⟩

theorem exists_fraction_lt {a b : String} (fits : longer a b < 2 ^ 64) :
    ∃ n m, Fraction a b n m ∧ m < 2 ^ 64 := by
  obtain ⟨n, m, fraction, most⟩ := exists_fraction_le a b
  exact ⟨n, m, fraction, most.trans_lt (Nat.max_lt.mpr ⟨by decide, fits⟩)⟩

namespace Fraction

variable {a b : String} {n m : Nat}

theorem similarity_eq (h : Fraction a b n m) : (similarity a b : Rat) = n / m :=
  h.read

theorem similarity_nonneg (h : Fraction a b n m) : 0 ≤ (similarity a b : Rat) := by
  rw [h.similarity_eq]
  exact div_nonneg n.cast_nonneg m.cast_nonneg

theorem similarity_le_one (h : Fraction a b n m) : (similarity a b : Rat) ≤ 1 := by
  rw [h.similarity_eq]
  exact div_le_one_of_le₀ (Nat.cast_le.mpr h.le) m.cast_nonneg

theorem similarity_eq_one_iff (h : Fraction a b n m) :
    (similarity a b : Rat) = 1 ↔ a = b ∨ aliased a b = true := by
  rw [h.similarity_eq, div_eq_one_iff_eq (Nat.cast_ne_zero.mpr h.positive.ne'), Nat.cast_inj,
    h.eq_iff]

end Fraction

theorem similarity_nonneg (a b : String) : 0 ≤ (similarity a b : Rat) := by
  obtain ⟨n, m, fraction⟩ := exists_fraction a b
  exact fraction.similarity_nonneg

theorem similarity_le_one (a b : String) : (similarity a b : Rat) ≤ 1 := by
  obtain ⟨n, m, fraction⟩ := exists_fraction a b
  exact fraction.similarity_le_one

theorem similarity_eq_one_iff {a b : String} :
    (similarity a b : Rat) = 1 ↔ a = b ∨ aliased a b = true := by
  obtain ⟨n, m, fraction⟩ := exists_fraction a b
  exact fraction.similarity_eq_one_iff

theorem similarity_self (a : String) : (similarity a a : Rat) = 1 :=
  similarity_eq_one_iff.mpr (.inl rfl)

theorem similarity_comm {σ : Type} [Score σ] (a b : String) :
    (similarity a b : σ) = similarity b a := by
  rw [similarity, similarity, aliased_comm, longer_comm, levenshtein_comm]

theorem aliased_iff {a b : String} :
    aliased a b = true ↔ ({a, b} : Set String) = {"id", "_id"} := by
  simp [aliased, Set.pair_eq_pair_iff]

structure Metric (d : String → String → Nat) : Prop where
  eq_zero_iff : ∀ a b, d a b = 0 ↔ a = b
  comm : ∀ a b, d a b = d b a
  triangle : ∀ a b c, d a c ≤ d a b + d b c
  least : ∀ a b, max a.length b.length - min a.length b.length ≤ d a b
  greatest : ∀ a b, d a b ≤ max a.length b.length

theorem metric_levenshtein : Metric levenshtein where
  eq_zero_iff _ _ := levenshtein_eq_zero_iff
  comm := levenshtein_comm
  triangle := levenshtein_triangle
  least a b := by
    have left := length_le_add_levenshtein a b
    have right := length_le_add_levenshtein b a
    rw [levenshtein_comm] at right
    omega
  greatest := levenshtein_le_longer

structure Graded (s : String → String → Rat) : Prop where
  comm : ∀ a b, s a b = s b a
  nonneg : ∀ a b, 0 ≤ s a b
  le_one : ∀ a b, s a b ≤ 1
  eq_one_iff : ∀ a b, s a b = 1 ↔ a = b ∨ ({a, b} : Set String) = {"id", "_id"}

theorem graded_similarity : Graded similarity where
  comm := similarity_comm
  nonneg := similarity_nonneg
  le_one := similarity_le_one
  eq_one_iff a b := by rw [similarity_eq_one_iff, aliased_iff]

theorem metric_and_graded :
    Metric levenshtein ∧ (∀ a b, ∃ n m, Fraction a b n m) ∧ Graded similarity :=
  ⟨metric_levenshtein, exists_fraction, graded_similarity⟩

end Criteria.Schema
