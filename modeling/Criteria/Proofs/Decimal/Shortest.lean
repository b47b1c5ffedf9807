import Criteria.Decimal.Shortest
import Criteria.Proofs.Decimal.Magnitude

namespace Criteria.Decimal

open Float.Model.UnpackedFloat

namespace Ratio

def value (r : Ratio) : ℚ :=
  r.num / r.den

theorem le_iff {a b : Ratio} (ha : 0 < a.den) (hb : 0 < b.den) :
    a.le b = true ↔ a.value ≤ b.value := by
  have ha' : (0 : ℚ) < a.den := by exact_mod_cast ha
  have hb' : (0 : ℚ) < b.den := by exact_mod_cast hb
  rw [le, decide_eq_true_iff, value, value, div_le_div_iff₀ ha' hb']
  exact_mod_cast Iff.rfl

theorem lt_iff {a b : Ratio} (ha : 0 < a.den) (hb : 0 < b.den) :
    a.lt b = true ↔ a.value < b.value := by
  rw [lt_eq_not_le, Bool.not_eq_true', Bool.eq_false_iff, Ne, le_iff hb ha, not_le]

variable {base : Nat} (n : Nat) (e : Int)

theorem den_scaled (hb : 0 < base) : 0 < (scaled n base e).den := by
  cases e with
  | ofNat k => exact Nat.one_pos
  | negSucc k => exact Nat.pow_pos hb

variable {n} in
theorem num_scaled (hb : 0 < base) (hn : 0 < n) : 0 < (scaled n base e).num := by
  cases e with
  | ofNat k => exact Nat.mul_pos hn (Nat.pow_pos hb)
  | negSucc k => exact hn

theorem value_scaled (hb : 0 < base) : (scaled n base e).value = n * (base : ℚ) ^ e := by
  have pos : (0 : ℚ) < base := by exact_mod_cast hb
  cases e with
  | ofNat k => simp [scaled, value]
  | negSucc k =>
      rw [scaled, value, zpow_negSucc, Nat.pow_eq]
      push_cast
      exact div_eq_mul_inv _ _

end Ratio

variable {m : Nat} {e : Int}

theorem zpow_sub_two (e : Int) : (2 : ℚ) ^ (e - 2) = 2 ^ e / 4 := by
  rw [zpow_sub₀ two_ne_zero]
  norm_num

theorem value_low (hm : Canonical m e) : (interval m e).low.value = (m - gap m e) * 2 ^ e := by
  have pos := hm.positive
  rw [interval, Ratio.value_scaled _ _ Nat.two_pos, gap]
  push_cast
  rw [zpow_sub_two]
  split
  · rw [Nat.cast_sub (by omega)]
    push_cast
    ring
  · rw [Nat.cast_sub (by omega)]
    push_cast
    ring

theorem value_high (m : Nat) (e : Int) : (interval m e).high.value = (m + 1 / 2) * 2 ^ e := by
  rw [interval, Ratio.value_scaled _ _ Nat.two_pos]
  push_cast
  rw [zpow_sub_two]
  ring

theorem holds_interval_iff (hm : Canonical m e) {r : Ratio} (hr : 0 < r.den) :
    (interval m e).holds r = true ↔ Within m e r.value := by
  have hl : 0 < (interval m e).low.den := Ratio.den_scaled _ _ Nat.two_pos
  have hh : 0 < (interval m e).high.den := Ratio.den_scaled _ _ Nat.two_pos
  rw [Interval.holds]
  have closed : (interval m e).closed = decide (m % 2 = 0) := rfl
  rw [closed]
  by_cases even : m % 2 = 0
  · rw [if_pos (decide_eq_true even), Bool.and_eq_true, Ratio.le_iff hl hr, Ratio.le_iff hr hh,
      value_low hm, value_high]
    exact ⟨fun h => ⟨h.1, h.2, fun _ => even⟩, fun h => ⟨h.least, h.most⟩⟩
  · rw [if_neg (by simpa using even), Bool.and_eq_true, Ratio.lt_iff hl hr, Ratio.lt_iff hr hh,
      value_low hm, value_high]
    refine ⟨fun h => ⟨h.1.le, h.2.le, ?_⟩, fun h => ⟨?_, ?_⟩⟩
    · rintro (low | high)
      · exact absurd low h.1.ne'
      · exact absurd high h.2.ne
    · exact h.least.lt_of_ne (fun low => even (h.even (.inl low.symm)))
    · exact h.most.lt_of_ne (fun high => even (h.even (.inr high)))

namespace Digits

def value (d : Digits) : ℚ :=
  d.significand * 10 ^ d.exponent

theorem value_strip (fuel : Nat) (d : Digits) : (stripZeros fuel d).value = d.value := by
  induction fuel generalizing d with
  | zero => rfl
  | succ fuel ih =>
      rw [stripZeros]
      split
      · rename_i trailing
        have whole : ((d.significand / 10 : Nat) : ℚ) = d.significand / 10 :=
          Nat.cast_div (Nat.dvd_of_mod_eq_zero trailing.2) (by norm_num)
        rw [ih, value, value, whole, zpow_add_one₀ (by norm_num)]
        ring
      · rfl

end Digits

theorem holds_of_onGrid {t : Tie} {i : Interval} {v : Ratio} {grid : Int} {d : Digits}
    (h : onGrid t i v grid = some d) : i.holds (.scaled d.significand 10 d.exponent) = true := by
  simp only [onGrid] at h
  split at h
  · rename_i both
    rw [Bool.and_eq_true] at both
    cases h
    dsimp only
    split
    · exact both.1
    · exact both.2
  · split at h
    · rename_i low
      cases h
      exact low
    · split at h
      · rename_i high
        cases h
        exact high
      · cases h

theorem isSome_onGrid (t : Tie) {i : Interval} {v : Ratio} {grid : Int}
    (h : i.holds (.scaled (floorOn v grid) 10 grid) = true ∨
      i.holds (.scaled (floorOn v grid + 1) 10 grid) = true) :
    (onGrid t i v grid).isSome = true := by
  simp only [onGrid]
  rcases h with low | high
  · rw [low]
    split <;> rfl
  · rw [high]
    split
    · rfl
    · split <;> rfl

theorem floorOn_eq (v : Ratio) (grid : Int) : floorOn v grid = ⌊v.value / 10 ^ grid⌋₊ := by
  cases grid with
  | ofNat k =>
      have cast : v.value / 10 ^ (Int.ofNat k) = (v.num : ℚ) / (v.den * 10 ^ k : Nat) := by
        push_cast
        rw [Ratio.value, div_div]
        rfl
      rw [cast, Nat.floor_div_eq_div]
      rfl
  | negSucc k =>
      have cast : v.value / 10 ^ (Int.negSucc k) = ((v.num * 10 ^ (k + 1) : Nat) : ℚ) / v.den := by
        push_cast
        rw [Ratio.value, zpow_negSucc, div_inv_eq_mul, div_mul_eq_mul_div]
      rw [cast, Nat.floor_div_eq_div]
      rfl

theorem ten_zpow_pos (e : Int) : (0 : ℚ) < 10 ^ e :=
  zpow_pos (by norm_num) e

theorem value_nonneg (v : Ratio) : 0 ≤ v.value :=
  div_nonneg (Nat.cast_nonneg _) (Nat.cast_nonneg _)

theorem floorOn_mul_le (v : Ratio) (grid : Int) : floorOn v grid * (10 : ℚ) ^ grid ≤ v.value := by
  rw [floorOn_eq, ← le_div_iff₀ (ten_zpow_pos grid)]
  exact Nat.floor_le (div_nonneg (value_nonneg v) (ten_zpow_pos grid).le)

theorem lt_floorOn_mul (v : Ratio) (grid : Int) :
    v.value < (floorOn v grid + 1) * (10 : ℚ) ^ grid := by
  rw [floorOn_eq, ← div_lt_iff₀ (ten_zpow_pos grid)]
  exact Nat.lt_floor_add_one _

theorem pow_digitCount_le {n : Nat} (hn : 0 < n) : 10 ^ (digitCount n - 1) ≤ n := by
  rcases Nat.lt_or_ge 1 (digitCount n) with many | one
  · have long : ¬ digitCount n ≤ digitCount n - 1 := by
      omega
    exact Nat.le_of_not_lt
      (mt (Nat.length_toDigits_le_iff (by decide) (by omega)).mpr long)
  · rw [Nat.sub_eq_zero_of_le one]
    exact hn

theorem lt_pow_digitCount (n : Nat) : n < 10 ^ digitCount n :=
  (Nat.length_toDigits_le_iff (by decide) Nat.length_toDigits_pos).mp (Nat.le_refl _)

theorem le_pointPosition {v : Ratio} (hn : 0 < v.num) (hd : 0 < v.den) :
    (10 : ℚ) ^ (pointPosition v - 1) ≤ v.value := by
  have den : (0 : ℚ) < v.den := by exact_mod_cast hd
  rw [pointPosition]
  split
  · rename_i least
    have whole : 0 < v.num / v.den := Nat.div_pos least hd
    have count : 0 < digitCount (v.num / v.den) := Nat.length_toDigits_pos
    have exponent :
        (digitCount (v.num / v.den) : Int) - 1 = (digitCount (v.num / v.den) - 1 : Nat) := by
      omega
    rw [exponent, zpow_natCast, Ratio.value]
    calc (10 : ℚ) ^ (digitCount (v.num / v.den) - 1) ≤ (v.num / v.den : Nat) := by
          exact_mod_cast pow_digitCount_le whole
      _ ≤ v.num / v.den := Nat.cast_div_le
  · rename_i small
    have below : v.den ≤ v.num * 10 ^ digitCount ((v.den - 1) / v.num) := by
      have := (Nat.div_lt_iff_lt_mul hn).mp (lt_pow_digitCount ((v.den - 1) / v.num))
      rw [Nat.mul_comm] at this
      omega
    have exponent (k : Nat) : (1 : Int) - k - 1 = -k := by
      omega
    rw [exponent, zpow_neg, zpow_natCast, Ratio.value, inv_le_iff_one_le_mul₀ (by positivity),
      div_mul_eq_mul_div, one_le_div den]
    exact_mod_cast below

theorem within_of_near {v : ℚ} (low : (m - gap m e) * 2 ^ e < v)
    (high : v < (m + gap m e) * 2 ^ e) : Within m e v := by
  have upper : (m + gap m e) * (2 : ℚ) ^ e ≤ (m + 1 / 2) * 2 ^ e :=
    mul_le_mul_of_nonneg_right (by linarith [(gap_le m e).2]) (two_zpow_pos e).le
  refine ⟨low.le, high.le.trans upper, ?_⟩
  rintro (same | same)
  · exact absurd same low.ne'
  · exact absurd same (high.trans_le upper).ne

-- The seventeenth digit counts less than the gaps around a number of 53 bits.
theorem narrow_grid (hm : Canonical m e) {g : ℚ} (hg : g * 10 ^ 16 ≤ m * 2 ^ e) :
    g / 2 < gap m e * 2 ^ e := by
  have pos := two_zpow_pos e
  have ratio : (m : ℚ) / (2 * 10 ^ 16) < gap m e := by
    by_cases least : m = 2 ^ 52
    · subst least
      have := (gap_le (2 ^ 52) e).1
      push_cast
      linarith
    · rw [gap_of_ne (.inl least)]
      have : (m : ℚ) < 2 ^ 53 := by exact_mod_cast hm.width
      linarith
  have := mul_lt_mul_of_pos_right ratio pos
  linarith

theorem exists_on_grid (hm : Canonical m e) :
    let v := Ratio.scaled m 2 e
    let grid := pointPosition v - 17
    Within m e (floorOn v grid * 10 ^ grid) ∨ Within m e ((floorOn v grid + 1) * 10 ^ grid) := by
  intro v grid
  have value : v.value = m * 2 ^ e := Ratio.value_scaled m e Nat.two_pos
  have fine : (10 : ℚ) ^ grid * 10 ^ 16 ≤ m * 2 ^ e := by
    have least := le_pointPosition (Ratio.num_scaled e Nat.two_pos hm.positive)
      (Ratio.den_scaled m e Nat.two_pos)
    have exponent : pointPosition v - 1 = grid + (16 : Nat) := by
      omega
    rwa [exponent, zpow_add₀ (by norm_num), zpow_natCast, value] at least
  have narrow := narrow_grid hm fine
  have low := floorOn_mul_le v grid
  have high := lt_floorOn_mul v grid
  rw [value] at low high
  rcases le_or_gt ((m : ℚ) * 2 ^ e - floorOn v grid * 10 ^ grid) (10 ^ grid / 2) with near | far
  · left
    have := mul_pos (lt_of_lt_of_le (by norm_num) (gap_le m e).1) (two_zpow_pos e)
    exact within_of_near (by linarith) (by linarith)
  · right
    exact within_of_near (by linarith) (by linarith)

theorem within_shortest (hm : Canonical m e) (t : Tie) : Within m e (shortest t m e).value := by
  rw [shortest, if_neg hm.positive.ne']
  dsimp only
  rw [Digits.value_strip]
  have holds_iff (n : Nat) (grid : Int) : (interval m e).holds (.scaled n 10 grid) = true ↔
      Within m e (n * 10 ^ grid) := by
    rw [holds_interval_iff hm (Ratio.den_scaled n grid (by decide)),
      Ratio.value_scaled n grid (by decide)]
    rfl
  generalize hit : (List.range 17).findSome? (fun n : Nat =>
    onGrid t (interval m e) (.scaled m 2 e) (pointPosition (.scaled m 2 e) - (n + 1))) = found
  cases found with
  | none =>
      have last := List.findSome?_eq_none_iff.mp hit 16 (by decide)
      have near := (exists_on_grid hm).imp (holds_iff _ _).mpr
        (fun above => (holds_iff _ _).mpr (by exact_mod_cast above))
      exact absurd last (Option.isSome_iff_ne_none.mp (isSome_onGrid t near))
  | some d =>
      obtain ⟨n, _, found⟩ := List.exists_of_findSome?_eq_some hit
      exact (holds_iff _ _).mp (holds_of_onGrid found)

theorem significand_pos (hm : Canonical m e) (t : Tie) : 0 < (shortest t m e).significand := by
  refine Nat.pos_of_ne_zero (fun zero => ?_)
  have positive := (within_shortest hm t).positive hm
  rw [Digits.value, zero, Nat.cast_zero, zero_mul] at positive
  exact absurd positive (by positivity : (0 : ℚ) < 1 / 2 * 2 ^ (-1074 : Int)).not_gt

end Criteria.Decimal
