import Criteria.Proofs.Float.Packing

namespace Float.Model.UnpackedFloat

theorem cut_fraction (n : Nat) {d : Nat} (hd : 0 < d) :
    Cut (.ofMantissaAndAccuracy (n / d) (accuracyOfFraction (n % d) d)) (n / d) := by
  have den : (0 : ℚ) < d := by exact_mod_cast hd
  have parts : ((n / d : Nat) : ℚ) * d + (n % d : Nat) = n := by
    exact_mod_cast Nat.div_add_mod' n d
  have rest : ((n % d : Nat) : ℚ) < d := by exact_mod_cast Nat.mod_lt n hd
  rw [accuracyOfFraction]
  split
  · rename_i none
    have whole : (n : ℚ) / d = (n / d : Nat) := by
      rw [div_eq_iff den.ne', ← parts, none]
      simp
    rw [whole]
    exact .exact _
  · rename_i some
    have above : (0 : ℚ) < (n % d : Nat) := by exact_mod_cast Nat.pos_of_ne_zero some
    cases order : compare (2 * (n % d)) d with
    | lt =>
        have half : (2 : ℚ) * (n % d : Nat) < d := by exact_mod_cast Nat.compare_eq_lt.mp order
        refine .lower ?_ ?_
        · rw [lt_div_iff₀ den]
          linarith
        · rw [div_lt_iff₀ den]
          linarith
    | eq =>
        have half : (2 : ℚ) * (n % d : Nat) = d := by exact_mod_cast Nat.compare_eq_eq.mp order
        have middle : (n : ℚ) / d = (n / d : Nat) + 1 / 2 := by
          rw [div_eq_iff den.ne']
          linarith
        rw [middle]
        exact .middle _
    | gt =>
        have half : (d : ℚ) < 2 * (n % d : Nat) := by exact_mod_cast Nat.compare_eq_gt.mp order
        refine .upper ?_ ?_
        · rw [lt_div_iff₀ den]
          linarith
        · rw [div_lt_iff₀ den]
          linarith

theorem log2_div {m n k : Nat} (hm : 0 < m) (hn : 0 < n) (h : n.log2 + 53 ≤ m.log2 + k) :
    52 ≤ (m <<< k / n).log2 := by
  have wide : 2 ^ 52 ≤ m <<< k / n := by
    rw [Nat.le_div_iff_mul_le hn, Nat.shiftLeft_eq]
    calc 2 ^ 52 * n ≤ 2 ^ 52 * 2 ^ (n.log2 + 1) := Nat.mul_le_mul_left _ Nat.lt_log2_self.le
      _ ≤ 2 ^ m.log2 * 2 ^ k := by
          rw [← Nat.pow_add, ← Nat.pow_add]
          exact Nat.pow_le_pow_right Nat.two_pos (by omega)
      _ ≤ m * 2 ^ k := Nat.mul_le_mul_right _ (Nat.log2_self_le hm.ne')
  exact (Nat.le_log2 (by omega)).mpr wide

theorem cut_divCore {m n : Nat} (hm : 0 < m) (hn : 0 < n) (e f : Int) :
    ∃ q : ℚ, q * 2 ^ (divCore .binary64 m e n f).2.1 = m * 2 ^ e / (n * 2 ^ f) ∧
      Cut (.ofMantissaAndAccuracy (divCore .binary64 m e n f).1 (divCore .binary64 m e n f).2.2) q ∧
      (52 ≤ (divCore .binary64 m e n f).1.log2 ∨ (divCore .binary64 m e n f).2.1 ≤ -1074) := by
  simp only [divCore]
  have target : Format.binary64.targetExponent (totalExponent m e - totalExponent n f) =
      max ((m.log2 : Int) + e - (n.log2 + f) - 53) (-1074) := by
    simp only [Format.targetExponent, totalExponent, Format.mantissaBits, Format.minExponent]
    omega
  rw [target]
  generalize ht : min (e - f) (max ((m.log2 : Int) + e - (n.log2 + f) - 53) (-1074)) = t
  obtain ⟨k, hk⟩ : ∃ k : Nat, e - f - t = k := ⟨(e - f - t).toNat, by omega⟩
  rw [hk, Int.toNat_natCast]
  refine ⟨_, ?_, cut_fraction _ hn, ?_⟩
  · have exponent : e = k + t + f := by omega
    rw [Nat.shiftLeft_eq, exponent, zpow_add₀ two_ne_zero, zpow_add₀ two_ne_zero, zpow_natCast]
    push_cast
    have hn' : (n : ℚ) ≠ 0 := by exact_mod_cast hn.ne'
    have hf := (two_zpow_pos f).ne'
    field_simp
  · by_cases low : t ≤ -1074
    · exact .inr low
    · exact .inl (log2_div hm hn (by omega))

variable {m n : Nat} {e f : Int} (hm : 0 < m) (hn : 0 < n)

theorem exists_within_div (positive : 1 / 2 * (2 : ℚ) ^ (-1074 : Int) < m * 2 ^ e / (n * 2 ^ f)) :
    ∃ r g, ∃ hr : Canonical r g, Within r g (m * 2 ^ e / (n * 2 ^ f)) ∧
      div .binary64 (.finite .positive m e hm) (.finite .positive n f hn) =
        .finite .positive r g hr.positive := by
  obtain ⟨q, value, cut, enough⟩ := cut_divCore hm hn e f
  rw [← value] at positive ⊢
  exact exists_within .positive cut enough positive

theorem div_of_within {r : Nat} {g : Int} (hr : Canonical r g)
    (within : Within r g (m * 2 ^ e / (n * 2 ^ f))) :
    div .binary64 (.finite .positive m e hm) (.finite .positive n f hn) =
      .finite .positive r g hr.positive := by
  obtain ⟨q, value, cut, enough⟩ := cut_divCore hm hn e f
  rw [← value] at within
  exact roundWithAccuracy_of_within .positive cut enough hr within

end Float.Model.UnpackedFloat
