import Criteria.Proofs.Float.Scientific

namespace Float.Model.UnpackedFloat

section Order

inductive Nonneg : UnpackedFloat → Prop
  | zero : Nonneg (.zero .positive)
  | infinity : Nonneg (.infinity .positive)
  | finite (m : Nat) (e : Int) (positive : 0 < m) : Nonneg (.finite .positive m e positive)

theorem isLE_then_iff {e f : Int} {m n : Nat} :
    ((compare e f).then (compare m n)).isLE = true ↔ e < f ∨ e = f ∧ m ≤ n := by
  rcases lt_trichotomy e f with less | rfl | more
  · simp [Int.compare_eq_lt.mpr less, less]
  · simp [Nat.isLE_compare]
  · simp [Int.compare_eq_gt.mpr more, more.le, more.ne']

theorem compare_of_nonneg {f g : UnpackedFloat}
    (hf : (f.compare (.zero .positive)).any Ordering.isLE = true) (hg : Nonneg g) :
    (f.compare g).any Ordering.isLE = true := by
  cases f with
  | notANumber => cases hf
  | zero => cases hg <;> rfl
  | infinity s =>
      cases s with
      | negative => cases hg <;> rfl
      | positive => cases hf
  | finite s =>
      cases s with
      | negative => cases hg <;> rfl
      | positive => cases hf

theorem isLE_trans {a b c : UnpackedFloat} (hb : Nonneg b) (hc : Nonneg c)
    (first : (a.compare b).any Ordering.isLE = true)
    (second : (b.compare c).any Ordering.isLE = true) :
    (a.compare c).any Ordering.isLE = true := by
  cases a with
  | notANumber => cases first
  | zero => cases hc <;> rfl
  | infinity s =>
      cases s with
      | negative => cases hc <;> rfl
      | positive =>
          cases hb with
          | infinity => exact second
          | _ => cases first
  | finite s m e =>
      cases s with
      | negative => cases hc <;> rfl
      | positive =>
          cases hb with
          | zero => cases first
          | infinity =>
              cases hc with
              | infinity => rfl
              | _ => cases second
          | finite n f =>
              cases hc with
              | zero => cases second
              | infinity => rfl
              | finite k g =>
                  have low := isLE_then_iff.mp first
                  have high := isLE_then_iff.mp second
                  exact isLE_then_iff.mpr (by omega)

theorem Nonneg.isNaN {u : UnpackedFloat} (h : Nonneg u) : u.isNaN = false := by
  cases h <;> rfl

end Order

variable {m n : Nat} {e f : Int} {v w : ℚ}

theorem Canonical.value_le (hm : Canonical m e) (hn : Canonical n f) (low : e ≤ f)
    (same : e = f → m ≤ n) : (m : ℚ) * 2 ^ e ≤ n * 2 ^ f := by
  rcases low.eq_or_lt with rfl | less
  · have le : (m : ℚ) ≤ n := by exact_mod_cast same rfl
    exact mul_le_mul_of_nonneg_right le (two_zpow_pos e).le
  · have full : (2 : ℚ) ^ 52 ≤ n := by
      exact_mod_cast hn.full.resolve_right (by have := hm.least; omega)
    have narrow : (m : ℚ) ≤ 2 ^ 53 := by exact_mod_cast hm.width.le
    have double : (2 : ℚ) * 2 ^ e ≤ 2 ^ f := by
      rw [← zpow_one_add₀ two_ne_zero]
      exact zpow_le_zpow_right₀ one_le_two (by omega)
    calc (m : ℚ) * 2 ^ e ≤ 2 ^ 53 * 2 ^ e :=
          mul_le_mul_of_nonneg_right narrow (two_zpow_pos e).le
      _ = 2 ^ 52 * (2 * 2 ^ e) := by ring
      _ ≤ 2 ^ 52 * 2 ^ f := mul_le_mul_of_nonneg_left double (by norm_num)
      _ ≤ n * 2 ^ f := mul_le_mul_of_nonneg_right full (two_zpow_pos f).le

-- Rounding keeps the order of the numbers it is given.
theorem Within.value_le (hm : Canonical m e) (hn : Canonical n f) (hv : Within m e v)
    (hw : Within n f w) (le : v ≤ w) : (m : ℚ) * 2 ^ e ≤ n * 2 ^ f := by
  refine hm.value_le hn (hv.exponent_le hm hn hw le) ?_
  rintro rfl
  exact hv.mantissa_le hw le

theorem Canonical.value_le_iff (hm : Canonical m e) (hn : Canonical n f) :
    (m : ℚ) * 2 ^ e ≤ n * 2 ^ f ↔ e < f ∨ e = f ∧ m ≤ n := by
  constructor
  · intro le
    rcases (within_self.exponent_le hm hn within_self le).lt_or_eq with less | rfl
    · exact .inl less
    · exact .inr ⟨rfl, within_self.mantissa_le within_self le⟩
  · intro order
    exact hm.value_le hn (by omega) (by omega)

theorem Canonical.lt_exponent (hm : Canonical m e) {k : Int} (least : (2 : ℚ) ^ k ≤ m * 2 ^ e) :
    k - 53 < e := by
  have narrow : (m : ℚ) < 2 ^ (53 : Int) := by exact_mod_cast hm.width
  have less : (2 : ℚ) ^ k < 2 ^ (53 + e) :=
    calc (2 : ℚ) ^ k ≤ m * 2 ^ e := least
      _ < 2 ^ (53 : Int) * 2 ^ e := mul_lt_mul_of_pos_right narrow (two_zpow_pos e)
      _ = 2 ^ (53 + e) := (zpow_add₀ two_ne_zero 53 e).symm
  have := (zpow_lt_zpow_iff_right₀ one_lt_two).mp less
  omega

theorem canonical_power {k : Int} (least : -1074 ≤ k) : Canonical (2 ^ 52) k :=
  ⟨by decide, by decide, least, .inl (le_refl _)⟩

theorem power_eq (k : Int) : ((2 ^ 52 : Nat) : ℚ) * 2 ^ (k - 52) = 2 ^ k := by
  rw [zpow_sub₀ two_ne_zero]
  push_cast
  field_simp

theorem within_power (k : Int) : Within (2 ^ 52) (k - 52) (2 ^ k) :=
  power_eq k ▸ within_self

-- A power of two moves the exponent and leaves the mantissa.
theorem Canonical.mul_power {k : Int} (hm : Canonical m e) (hk : Canonical m (e + k)) :
    mul .binary64 (.finite .positive m e hm.positive)
        (.finite .positive (2 ^ 52) (k - 52) (Nat.two_pow_pos 52)) =
      .finite .positive m (e + k) hk.positive := by
  have width := log2_shiftLeft hm.positive.ne' 52
  rw [Nat.shiftLeft_eq] at width
  have value : ((m * 2 ^ 52 : Nat) : ℚ) * 2 ^ (e + (k - 52)) = m * 2 ^ (e + k) := by
    rw [← add_sub_assoc, zpow_sub₀ two_ne_zero]
    push_cast
    field_simp
  exact roundWithAccuracy_of_within .positive (.exact _) (.inl (by omega)) hk (value ▸ within_self)

theorem Canonical.mul_one (hm : Canonical m e) :
    mul .binary64 (.finite .positive m e hm.positive)
        (.finite .positive (2 ^ 52) (-52) (Nat.two_pow_pos 52)) =
      .finite .positive m e hm.positive := by
  have still := hm.mul_power (k := 0) (by rwa [Int.add_zero])
  simpa only [Int.add_zero, Int.zero_sub] using still

-- The number that rounding makes of a positive one.
def Rounds (v q : ℚ) : Prop :=
  ∃ (m : Nat) (e : Int), Canonical m e ∧ Within m e v ∧ q = m * 2 ^ e

theorem Canonical.rounds (hm : Canonical m e) : Rounds (m * 2 ^ e) (m * 2 ^ e) :=
  ⟨m, e, hm, within_self, rfl⟩

theorem rounds_power {k : Int} (least : -1022 ≤ k) : Rounds (2 ^ k) (2 ^ k) :=
  power_eq k ▸ (canonical_power (by omega)).rounds

namespace Rounds

variable {q r : ℚ}

theorem mono (hv : Rounds v q) (hw : Rounds w r) (le : v ≤ w) : q ≤ r := by
  obtain ⟨m, e, hm, hv, rfl⟩ := hv
  obtain ⟨n, f, hn, hw, rfl⟩ := hw
  exact hv.value_le hm hn hw le

theorem unique (h : Rounds v q) (h' : Rounds v r) : q = r :=
  le_antisymm (h.mono h' le_rfl) (h'.mono h le_rfl)

theorem power_le (h : Rounds v q) {k : Int} (normal : -1022 ≤ k) (least : 2 ^ k ≤ v) : 2 ^ k ≤ q :=
  (rounds_power normal).mono h least

theorem le_power (h : Rounds v q) {k : Int} (normal : -1022 ≤ k) (most : v ≤ 2 ^ k) : q ≤ 2 ^ k :=
  h.mono (rounds_power normal) most

-- Two numbers that round alike lie within one unit of the last place.
theorem lt_of_apart (hv : Rounds v q) (hw : Rounds w r) (least : 2 ^ (-1000 : Int) ≤ w)
    (apart : v ≤ (1 - 1 / 2 ^ 51) * w) : q < r := by
  have small : (0 : ℚ) < 2 ^ (-1000 : Int) := two_zpow_pos _
  refine (hv.mono hw (by linarith)).lt_of_ne (fun same => ?_)
  have low := hw.power_le (by decide) least
  obtain ⟨m, e, hm, hv, rfl⟩ := hv
  obtain ⟨n, f, hn, hw, rfl⟩ := hw
  have exponent := hn.lt_exponent low
  have full : (2 : ℚ) ^ 52 ≤ n := by exact_mod_cast hn.full.resolve_right (by omega)
  obtain ⟨rfl, rfl⟩ := (same ▸ within_self : Within m e (n * 2 ^ f)).unique hm hn within_self
  have pos := two_zpow_pos e
  have below := hv.least
  have above := hw.most
  have half := mul_le_mul_of_nonneg_right (gap_le m e).2 pos.le
  have wide := mul_le_mul_of_nonneg_right full pos.le
  rw [sub_mul] at below
  rw [add_mul] at above
  linarith

end Rounds

theorem ofScientific_zero {n : Nat} (hn : n ≠ 0) :
    UnpackedFloat.ofScientific .binary64 n 0 =
      roundWithAccuracy .binary64 .positive (n <<< 53) (-53) .exact := by
  have range : (0 : Int) ≤ 2 ^ Format.binary64.exponentBits := by decide
  have bits : Format.binary64.mantissaBits = 53 := rfl
  rw [UnpackedFloat.ofScientific, dif_neg hn, if_neg (by decide), if_neg (by omega),
    if_pos (by decide), UnpackedFloat.mul]
  simp only [bits, Int.toNat_zero, Nat.pow_zero, Nat.mul_one, Int.add_zero]
  rfl

theorem exists_ofScientific (hn : 0 < n) :
    ∃ r g, ∃ hr : Canonical r g, Within r g n ∧
      UnpackedFloat.ofScientific .binary64 n 0 = .finite .positive r g hr.positive := by
  have width := log2_shiftLeft hn.ne' 53
  have value : ((n <<< 53 : Nat) : ℚ) * 2 ^ (-53 : Int) = n := by
    rw [Nat.shiftLeft_eq, zpow_neg]
    push_cast
    field_simp
  have positive : 1 / 2 * (2 : ℚ) ^ (-1074 : Int) < n := by
    have one : (1 : ℚ) ≤ n := by exact_mod_cast hn
    have small : (2 : ℚ) ^ (-1074 : Int) ≤ 2 ^ (0 : Int) :=
      zpow_le_zpow_right₀ one_le_two (by decide)
    rw [zpow_zero] at small
    linarith
  rw [ofScientific_zero hn.ne', ← value]
  exact exists_within .positive (.exact _) (.inl (by omega)) (value.symm ▸ positive)

end Float.Model.UnpackedFloat

namespace Float

open Model UnpackedFloat

theorem le_of_nonneg {t x : Float} (ht : t ≤ 0) (hx : Nonneg x.toModel.unpack) : t ≤ x := by
  rw [le_iff_compare] at ht ⊢
  exact compare_of_nonneg ht hx

theorem le_trans_of_nonneg {t x y : Float} (hx : Nonneg x.toModel.unpack)
    (hy : Nonneg y.toModel.unpack) (first : t ≤ x) (second : x ≤ y) : t ≤ y := by
  rw [le_iff_compare] at first second ⊢
  exact isLE_trans hx hy first second

theorem le_of_lt {x y : Float} (h : x < y) : x ≤ y := by
  rw [lt_iff_compare] at h
  rw [le_iff_compare, h]
  rfl

theorem not_lt_of_le {x y : Float} (h : x ≤ y) : ¬ y < x := by
  obtain ⟨hx, hy⟩ := isNaN_of_le h
  exact (not_lt_iff_le hx hy).mpr h

theorem le_of_not_lt {x y : Float} (hx : Nonneg x.toModel.unpack) (hy : Nonneg y.toModel.unpack)
    (h : ¬ y < x) : x ≤ y :=
  (not_lt_iff_le hx.isNaN hy.isNaN).mp h

theorem le_refl_of_nonneg {x : Float} (hx : Nonneg x.toModel.unpack) : x ≤ x := by
  by_cases h : x < x
  · exact le_of_lt h
  · exact le_of_not_lt hx hx h

end Float
