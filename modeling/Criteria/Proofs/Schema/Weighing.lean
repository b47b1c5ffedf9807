import Criteria.Proofs.Float.Standing
import Criteria.Proofs.Schema.Similarity

namespace Criteria.Schema

open Float (Stands)
open Float.Model.UnpackedFloat (Rounds rounds_power two_zpow_pos)

theorem unpack_four_fifths : (0.8 : Float).toModel.unpack =
    .finite .positive 7205759403792794 (-53) (by decide) := rfl

-- The number that an admitted score stands for, and how far below one it lies.
structure Scored (a b : String) (p : ℚ) : Prop where
  stands : Stands (similarity a b) p
  least : 2 ^ (-64 : Int) ≤ p
  most : p ≤ 1
  apart : a ≠ b → aliased a b = false → longer a b ≤ 2 ^ 51 → p ≤ 1 - 1 / 2 ^ 51

theorem exists_scored {a b : String} (fits : longer a b < 2 ^ 64)
    (near : (0.8 : Float) ≤ similarity a b) : ∃ p, Scored a b p := by
  obtain ⟨n, m, fraction, width⟩ := exists_fraction_lt fits
  have positive : 0 < n := by
    refine Nat.pos_of_ne_zero (fun none => ?_)
    subst none
    have zero : (similarity a b : Float).toModel.unpack = .zero .positive := by
      rw [fraction.read]
      exact Float.ofNat_zero_div fraction.positive width
    rw [Float.le_iff_compare, unpack_four_fifths, zero] at near
    cases near
  obtain ⟨p, quotient⟩ := Float.exists_quotient positive fraction.le width
  refine ⟨p, ?_, quotient.least, quotient.most, ?_⟩
  · rw [fraction.read]
    exact quotient.stands
  · intro ne plain short
    have less : n ≠ m := by
      rw [Ne, fraction.eq_iff, plain]
      simp [ne]
    have filled : 0 < longer a b := Nat.pos_of_ne_zero (mt eq_of_longer_eq_zero ne)
    exact quotient.le_of_lt positive (fraction.le.lt_of_ne less)
      ((fraction.exact plain filled).1 ▸ short)

theorem similarity_self_eq_one {a : String} (fits : a.length < 2 ^ 64) :
    (similarity a a : Float) = 1 := by
  have width : longer a a < 2 ^ 64 := by rwa [longer, Nat.max_self]
  obtain ⟨n, m, fraction, width⟩ := exists_fraction_lt width
  obtain rfl : n = m := fraction.eq_iff.mpr (.inl rfl)
  rw [fraction.read]
  exact Float.div_self_ofNat fraction.positive width

def factor (structural : Bool) : ℚ :=
  if structural then 1 else 1 / 2

theorem factor_le (structural : Bool) : 1 / 2 ≤ factor structural ∧ factor structural ≤ 1 := by
  cases structural <;> norm_num [factor]

theorem factor_mono {b c : Bool} (inner : b = true → c = true) : factor b ≤ factor c := by
  cases b with
  | true => rw [inner rfl]
  | false => exact (factor_le c).1

-- The weight that scores make: the level is rounded, and so is the quotient by it.
def Weighs (p : ℚ) (structural : Bool) (depth : Nat) (w : ℚ) : Prop :=
  ∃ level, Rounds ((1 + depth : Nat) : ℚ) level ∧ Rounds (p * factor structural / level) w

theorem one_le_level {depth : Nat} {level : ℚ} (h : Rounds ((1 + depth : Nat) : ℚ) level) :
    1 ≤ level :=
  Float.one_le_of_rounds h (by omega)

theorem least_le_div {p level : ℚ} (least : 2 ^ (-64 : Int) ≤ p) (structural : Bool)
    (above : 1 ≤ level) (below : level ≤ 2 ^ (64 : Int)) :
    (2 : ℚ) ^ (-1000 : Int) ≤ p * factor structural / level := by
  have half := (factor_le structural).1
  have small : (2 : ℚ) ^ (-1000 : Int) ≤ 2 ^ (-129 : Int) :=
    zpow_le_zpow_right₀ one_le_two (by decide)
  rw [le_div_iff₀ (by linarith)]
  calc (2 : ℚ) ^ (-1000 : Int) * level ≤ 2 ^ (-129 : Int) * 2 ^ (64 : Int) :=
        mul_le_mul small below (by linarith) (two_zpow_pos _).le
    _ = 2 ^ (-64 : Int) * (1 / 2) := by norm_num
    _ ≤ p * factor structural :=
        mul_le_mul least half (by norm_num) ((two_zpow_pos _).le.trans least)

theorem exists_weighs {s : Float} {p : ℚ} (stands : Stands s p) (least : 2 ^ (-64 : Int) ≤ p)
    (most : p ≤ 1) (structural : Bool) {depth : Nat} (deep : 1 + depth < 2 ^ 64) :
    ∃ w, Stands (Score.weigh s structural depth) w ∧ Weighs p structural depth w := by
  obtain ⟨level, divisor, rounds⟩ := Float.stands_ofNat (Nat.add_pos_left Nat.one_pos depth) deep
  have above := one_le_level rounds
  have normal : (2 : ℚ) ^ (-1000 : Int) ≤ p :=
    (zpow_le_zpow_right₀ one_le_two (by decide)).trans least
  have scaled : Stands (s * (if structural then 1.0 else 0.5)) (p * factor structural) := by
    cases structural with
    | true => simpa [factor] using stands.mul_power (k := 0) normal (by decide) (by decide) rfl
    | false => simpa [factor] using stands.mul_power (k := -1) normal (by decide) (by decide) rfl
  have unit : p * factor structural / level ≤ 1 := by
    rw [div_le_one₀ (by linarith)]
    exact (mul_le_one₀ most ((by norm_num : (0 : ℚ) ≤ 1 / 2).trans (factor_le structural).1)
      (factor_le structural).2).trans above
  obtain ⟨w, weight, hw⟩ := scaled.div divisor
    (least_le_div least structural above (Float.le_of_rounds rounds deep))
    (unit.trans (by norm_num))
  exact ⟨w, weight, level, rounds, hw⟩

namespace Weighs

variable {p q v w : ℚ} {b c : Bool} {d e : Nat}

theorem div_le {p q k l : ℚ} (positive : 0 ≤ p) (le : p ≤ q) (inner : b = true → c = true)
    (above : 1 ≤ l) (order : l ≤ k) : p * factor b / k ≤ q * factor c / l := by
  have half := (factor_le b).1
  have factors := factor_mono inner
  refine div_le_div₀ ?_ (mul_le_mul le factors ?_ (positive.trans le)) (by linarith) order
  · exact mul_nonneg (positive.trans le) (by linarith)
  · linarith

theorem le (hv : Weighs p b d v) (hw : Weighs q c e w) (positive : 0 ≤ p) (less : p ≤ q)
    (inner : b = true → c = true) (shallow : e ≤ d) : v ≤ w := by
  obtain ⟨k, hk, hv⟩ := hv
  obtain ⟨l, hl, hw⟩ := hw
  have order : l ≤ k := hl.mono hk (by exact_mod_cast Nat.add_le_add_left shallow 1)
  exact hv.mono hw (div_le positive less inner (one_le_level hl) order)

theorem lt (hv : Weighs p b d v) (hw : Weighs 1 c e w) (positive : 0 ≤ p)
    (less : p ≤ 1 - 1 / 2 ^ 51) (inner : b = true → c = true) (shallow : e ≤ d)
    (deep : 1 + e < 2 ^ 64) : v < w := by
  obtain ⟨k, hk, hv⟩ := hv
  obtain ⟨l, hl, hw⟩ := hw
  have order : l ≤ k := hl.mono hk (by exact_mod_cast Nat.add_le_add_left shallow 1)
  have above := one_le_level hl
  refine hv.lt_of_apart hw ?_ ?_
  · exact least_le_div (by norm_num) c above (Float.le_of_rounds hl deep)
  · refine (div_le positive less inner above order).trans (le_of_eq ?_)
    ring

end Weighs

end Criteria.Schema
