import Criteria.Decimal.Reading
import Criteria.Proofs.Decimal.Shortest
import Criteria.Proofs.Float.Scientific

namespace Criteria.Decimal

open Float.Model.UnpackedFloat

section Range

variable {n k r : Nat} {g : Int}

theorem lt_of_within (hr : Canonical r g) (most : g ≤ 971) (within : Within r g (n / 10 ^ (k + 1))) :
    n < 2 ^ 1024 * 10 ^ (k + 1) := by
  have wide : (r : ℚ) + 1 ≤ 2 ^ 53 := by exact_mod_cast hr.width
  have scale : (2 : ℚ) ^ g ≤ 2 ^ (971 : Nat) := by
    rw [← zpow_natCast]
    exact zpow_le_zpow_right₀ one_le_two most
  have below : (n : ℚ) / 10 ^ (k + 1) < 2 ^ 1024 :=
    calc (n : ℚ) / 10 ^ (k + 1) ≤ (r + 1 / 2) * 2 ^ g := within.most
      _ < 2 ^ 53 * 2 ^ g := mul_lt_mul_of_pos_right (by linarith) (two_zpow_pos g)
      _ ≤ 2 ^ 53 * 2 ^ 971 := mul_le_mul_of_nonneg_left scale (by positivity)
      _ = 2 ^ 1024 := (pow_add 2 53 971).symm
  rw [div_lt_iff₀ (by positivity)] at below
  exact_mod_cast below

theorem pow_lt_of_within (hr : Canonical r g) (within : Within r g (n / 10 ^ (k + 1))) :
    10 ^ (k + 1) < n * 2 ^ 1075 := by
  have above := within.positive hr
  have half : 1 / 2 * (2 : ℚ) ^ (-1074 : Int) = 1 / 2 ^ 1075 := by
    rw [zpow_neg, pow_succ]
    field_simp
  rw [half, div_lt_div_iff₀ (by positivity) (by positivity), one_mul] at above
  exact_mod_cast above

theorem digitCount_le (h : n < 2 ^ 1024 * 10 ^ (k + 1)) (hn : 0 < n) :
    digitCount n ≤ k + 1 + limit := by
  have bound : 2 ^ 1024 ≤ 10 ^ (limit - 1) := by
    decide +kernel
  have positive : 0 < limit := by
    decide
  have less : 10 ^ (digitCount n - 1) < 10 ^ (limit + k) :=
    calc 10 ^ (digitCount n - 1) ≤ n := pow_digitCount_le hn
      _ < 2 ^ 1024 * 10 ^ (k + 1) := h
      _ ≤ 10 ^ (limit - 1) * 10 ^ (k + 1) := Nat.mul_le_mul_right _ bound
      _ = 10 ^ (limit + k) := by
          rw [← Nat.pow_add]
          congr 1
          omega
  have := (Nat.pow_lt_pow_iff_right (by decide)).mp less
  omega

theorem le_digitCount (h : 10 ^ (k + 1) < n * 2 ^ 1075) : k + 1 ≤ digitCount n + limit := by
  have bound : 2 ^ 1075 ≤ 10 ^ limit := by
    decide +kernel
  have less : 10 ^ (k + 1) < 10 ^ (digitCount n + limit) :=
    calc 10 ^ (k + 1) < n * 2 ^ 1075 := h
      _ ≤ 10 ^ digitCount n * 10 ^ limit :=
          Nat.mul_le_mul (lt_pow_digitCount n).le bound
      _ = 10 ^ (digitCount n + limit) := (Nat.pow_add 10 _ _).symm
  exact ((Nat.pow_lt_pow_iff_right (by decide)).mp less).le

theorem digitCount_le_log2 (hn : 0 < n) : digitCount n ≤ n.log2 + 1 := by
  have binary : 2 ^ (digitCount n - 1) ≤ n :=
    (Nat.pow_le_pow_left (by decide) _).trans (pow_digitCount_le hn)
  have := (Nat.le_log2 hn.ne').mpr binary
  omega

theorem ofDecimal_of_within (minus : Bool) (hn : 0 < n) (hr : Canonical r g) (most : g ≤ 971)
    (within : Within r g (n / 10 ^ (k + 1))) :
    ofDecimal minus n (.negSucc k) =
      .ofModel (.pack (.finite (if minus then .negative else .positive) r g hr.positive)) := by
  have high := digitCount_le (lt_of_within hr most within) hn
  have low := le_digitCount (pow_lt_of_within hr within)
  have size := Float.ofScientific_of_within hn (by
    have := digitCount_le_log2 hn
    rw [limit] at low
    omega) hr within
  rw [digitCount] at high low
  have finite : ¬ Int.negSucc k + (Nat.toDigits 10 n).length > limit := by
    omega
  have visible : ¬ Int.negSucc k + (Nat.toDigits 10 n).length < -limit := by
    omega
  simp only [ofDecimal, if_neg hn.ne', if_neg finite, if_neg visible, size]
  cases minus with
  | false => rfl
  | true =>
      change Float.ofModel (.pack (unpack .binary64 (pack .binary64
        (.finite .positive r g hr.positive))).neg) = _
      rw [hr.unpack_pack .positive most]
      rfl

end Range

theorem ofDecimal_zero (minus : Bool) (e : Int) :
    ofDecimal minus 0 e = .ofModel (.pack (.zero (if minus then .negative else .positive))) := by
  have size : (0.0 : Float) = .ofModel (.pack (.zero .positive)) := rfl
  simp only [ofDecimal, if_pos, size]
  cases minus with
  | false => rfl
  | true =>
      change Float.ofModel (.pack (unpack .binary64 (packedZero .binary64 .positive)).neg) = _
      rfl

-- What is printed of a finite number is read as that number again.
theorem ofDecimal_shortest {x : Float} {m : Nat} {e : Int} (h : magnitude x = .finite m e) (t : Tie)
    {n k : Nat} (value : (n : ℚ) / 10 ^ (k + 1) = (shortest t m e).value) :
    ofDecimal (negative x) n (.negSucc k) = x := by
  rcases Nat.eq_zero_or_pos m with rfl | positive
  · have zero : n = 0 := by
      have none : (shortest t 0 e).value = 0 := by
        simp [shortest, Digits.value]
      rw [none, div_eq_zero_iff] at value
      exact_mod_cast value.resolve_right (by positivity)
    rw [zero, ofDecimal_zero]
    exact (eq_zero_of_magnitude h).symm
  · obtain ⟨canonical, most⟩ := canonical_of_magnitude h positive
    have within := within_shortest canonical t
    rw [← value] at within
    have hn : 0 < n := by
      refine Nat.pos_of_ne_zero (fun zero => ?_)
      have := within.positive canonical
      rw [zero, Nat.cast_zero, zero_div] at this
      exact absurd this (by positivity : (0 : ℚ) < 1 / 2 * 2 ^ (-1074 : Int)).not_gt
    rw [ofDecimal_of_within (negative x) hn canonical most within]
    exact (eq_of_magnitude h canonical).symm

end Criteria.Decimal
