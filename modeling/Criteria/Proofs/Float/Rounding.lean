import Criteria.Proofs.Float
import Mathlib

namespace Float.Model.UnpackedFloat

theorem mantissa_shift (em : ExtendedMantissa) (k : Nat) :
    (em >>> k).mantissa = em.mantissa / 2 ^ k := by
  induction k with
  | zero => exact (Nat.div_one _).symm
  | succ k ih =>
      change (em >>> k).mantissa / 2 = _
      rw [ih, Nat.div_div_eq_div_mul, Nat.pow_succ]

theorem mantissa_le_rounded (em : ExtendedMantissa) :
    em.mantissa ≤ em.roundedMantissa ∧ em.roundedMantissa ≤ em.mantissa + 1 := by
  obtain ⟨m, r, s⟩ := em
  cases r <;> cases s <;>
    simp only [ExtendedMantissa.roundedMantissa, ExtendedMantissa.accuracy,
      Accuracy.roundToNearestEven] <;> omega

theorem mantissa_ofMantissaAndAccuracy (m : Nat) (a : Accuracy) :
    (ExtendedMantissa.ofMantissaAndAccuracy m a).mantissa = m := by
  cases a with
  | exact => rfl
  | inexact o => cases o <;> rfl

-- What a mantissa and its two residual bits say of the number they were cut from.
inductive Cut : ExtendedMantissa → ℚ → Prop
  | exact (m : Nat) : Cut ⟨m, false, false⟩ m
  | lower {m : Nat} {q : ℚ} (least : m < q) (most : q < m + 1 / 2) : Cut ⟨m, false, true⟩ q
  | middle (m : Nat) : Cut ⟨m, true, false⟩ (m + 1 / 2)
  | upper {m : Nat} {q : ℚ} (least : m + 1 / 2 < q) (most : q < m + 1) : Cut ⟨m, true, true⟩ q

structure Nearest (n : Nat) (q : ℚ) : Prop where
  least : n - 1 / 2 ≤ q
  most : q ≤ n + 1 / 2
  even : q = n - 1 / 2 ∨ q = n + 1 / 2 → n % 2 = 0

namespace Cut

variable {em : ExtendedMantissa} {q : ℚ}

theorem floor (h : Cut em q) : em.mantissa ≤ q ∧ q < em.mantissa + 1 := by
  cases h with
  | exact m => exact ⟨le_refl _, by simp⟩
  | lower least most => exact ⟨least.le, by linarith⟩
  | middle m => constructor <;> linarith
  | upper least most => exact ⟨by linarith, most⟩

theorem halves (m : Nat) :
    ((m / 2 : Nat) : ℚ) = m / 2 ∧ m % 2 = 0 ∨ ((m / 2 : Nat) : ℚ) = m / 2 - 1 / 2 ∧ m % 2 = 1 := by
  have parts : ((m / 2 : Nat) : ℚ) * 2 + (m % 2 : Nat) = m := by
    exact_mod_cast Nat.div_add_mod' m 2
  rcases Nat.mod_two_eq_zero_or_one m with even | odd
  · left
    rw [even] at parts
    exact ⟨by push_cast at parts; linarith, even⟩
  · right
    rw [odd] at parts
    exact ⟨by push_cast at parts; linarith, odd⟩

theorem shiftRightOne (h : Cut em q) : Cut em.shiftRightOne (q / 2) := by
  have parity := halves em.mantissa
  rw [ExtendedMantissa.shiftRightOne]
  cases h with
  | exact m =>
      rcases parity with ⟨half, rest⟩ | ⟨half, rest⟩
      · simp only [rest, ← half]
        exact .exact _
      · have middle : (m : ℚ) / 2 = (m / 2 : Nat) + 1 / 2 := by
          rw [half]
          ring
        simp only [rest, middle]
        exact .middle _
  | lower least most =>
      rcases parity with ⟨half, rest⟩ | ⟨half, rest⟩
      · simp only [rest]
        exact .lower (by rw [half]; linarith) (by rw [half]; linarith)
      · simp only [rest]
        exact .upper (by rw [half]; linarith) (by rw [half]; linarith)
  | middle m =>
      rcases parity with ⟨half, rest⟩ | ⟨half, rest⟩
      · simp only [rest]
        exact .lower (by rw [half]; linarith) (by rw [half]; linarith)
      · simp only [rest]
        exact .upper (by rw [half]; linarith) (by rw [half]; linarith)
  | upper least most =>
      rcases parity with ⟨half, rest⟩ | ⟨half, rest⟩
      · simp only [rest]
        exact .lower (by rw [half]; linarith) (by rw [half]; linarith)
      · simp only [rest]
        exact .upper (by rw [half]; linarith) (by rw [half]; linarith)

theorem shiftRight (h : Cut em q) (k : Nat) : Cut (em >>> k) (q / 2 ^ k) := by
  induction k with
  | zero =>
      rw [pow_zero, div_one]
      exact h
  | succ k ih =>
      rw [pow_succ, ← div_div]
      exact ih.shiftRightOne

theorem nearest (h : Cut em q) : Nearest em.roundedMantissa q := by
  cases h with
  | exact m =>
      change Nearest m m
      exact ⟨by linarith, by linarith, by rintro (h | h) <;> linarith⟩
  | @lower m q least most =>
      change Nearest m q
      exact ⟨by linarith, by linarith, by rintro (h | h) <;> linarith⟩
  | middle m =>
      change Nearest (m + m % 2) (m + 1 / 2)
      rcases Nat.mod_two_eq_zero_or_one m with even | odd
      · rw [even, Nat.add_zero]
        exact ⟨by linarith, by linarith, fun _ => even⟩
      · rw [odd]
        exact ⟨by push_cast; linarith, by push_cast; linarith, fun _ => by omega⟩
  | @upper m q least most =>
      change Nearest (m + 1) q
      refine ⟨by push_cast; linarith, by push_cast; linarith, ?_⟩
      push_cast
      rintro (h | h) <;> linarith

end Cut

structure Canonical (m : Nat) (e : Int) : Prop where
  positive : 0 < m
  width : m < 2 ^ 53
  least : -1074 ≤ e
  full : 2 ^ 52 ≤ m ∨ e = -1074

-- The gap below the least full mantissa is half as wide as the one above it.
def gap (m : Nat) (e : Int) : ℚ :=
  if m = 2 ^ 52 ∧ -1074 < e then 1 / 4 else 1 / 2

theorem gap_le (m : Nat) (e : Int) : 1 / 4 ≤ gap m e ∧ gap m e ≤ 1 / 2 := by
  rw [gap]
  split <;> norm_num

theorem gap_of_ne {m : Nat} {e : Int} (h : m ≠ 2 ^ 52 ∨ e = -1074) : gap m e = 1 / 2 := by
  rw [gap, if_neg]
  rintro ⟨least, above⟩
  rcases h with h | h
  · exact h least
  · omega

-- The numbers that a float stands for once they are rounded to it.
structure Within (m : Nat) (e : Int) (v : ℚ) : Prop where
  least : (m - gap m e) * 2 ^ e ≤ v
  most : v ≤ (m + 1 / 2) * 2 ^ e
  even : v = (m - gap m e) * 2 ^ e ∨ v = (m + 1 / 2) * 2 ^ e → m % 2 = 0

theorem two_zpow_pos (e : Int) : (0 : ℚ) < 2 ^ e :=
  zpow_pos (by norm_num) e

namespace Within

variable {m n : Nat} {e f : Int} {v w : ℚ}

theorem mantissa_le (hv : Within m e v) (hw : Within n e w) (le : v ≤ w) : m ≤ n := by
  refine le_of_not_gt (fun less => ?_)
  have pos := two_zpow_pos e
  have less' : (n : ℚ) + 1 ≤ m := by exact_mod_cast less
  have narrow := (gap_le m e).2
  have apart : (n + 1 / 2) * (2 : ℚ) ^ e ≤ (m - gap m e) * 2 ^ e :=
    mul_le_mul_of_nonneg_right (by linarith) pos.le
  have low := le_antisymm (le.trans (hw.most.trans apart)) hv.least
  have high := le_antisymm hw.most (apart.trans (hv.least.trans le))
  have meet := mul_right_cancel₀ pos.ne' (le_antisymm (hv.least.trans (le.trans hw.most)) apart)
  have next : m ≤ n + 1 := by
    have : (m : ℚ) ≤ n + 1 := by linarith
    exact_mod_cast this
  -- Two neighbours that share their boundary would both have to be even.
  have evenM := hv.even (.inl low)
  have evenN := hw.even (.inr high)
  omega

theorem full_sub_gap (full : 2 ^ 52 ≤ m) (h : -1074 < e) : (2 : ℚ) ^ 52 - 1 / 4 ≤ m - gap m e := by
  rcases Nat.eq_or_lt_of_le full with rfl | more
  · rw [gap, if_pos ⟨rfl, h⟩]
    norm_num
  · have narrow := (gap_le m e).2
    have : (2 : ℚ) ^ 52 + 1 ≤ m := by exact_mod_cast more
    linarith

theorem exponent_le (hm : Canonical m e) (hn : Canonical n f) (hv : Within m e v)
    (hw : Within n f w) (le : v ≤ w) : e ≤ f := by
  refine le_of_not_gt (fun less => ?_)
  have above : -1074 < e := Int.lt_of_le_of_lt hn.least less
  have full : 2 ^ 52 ≤ m := hm.full.resolve_right above.ne'
  have pos := two_zpow_pos f
  have double : (2 : ℚ) * 2 ^ f ≤ 2 ^ e := by
    rw [← zpow_one_add₀ two_ne_zero]
    exact zpow_le_zpow_right₀ one_le_two (by omega)
  have wide : (n : ℚ) + 1 ≤ 2 ^ 53 := by exact_mod_cast hn.width
  have low : ((2 : ℚ) ^ 53 - 1 / 2) * 2 ^ f ≤ (m - gap m e) * 2 ^ e :=
    calc ((2 : ℚ) ^ 53 - 1 / 2) * 2 ^ f = (2 ^ 52 - 1 / 4) * (2 * 2 ^ f) := by ring
      _ ≤ (2 ^ 52 - 1 / 4) * 2 ^ e := mul_le_mul_of_nonneg_left double (by norm_num)
      _ ≤ (m - gap m e) * 2 ^ e :=
          mul_le_mul_of_nonneg_right (full_sub_gap full above) (two_zpow_pos e).le
  have high : (n + 1 / 2) * (2 : ℚ) ^ f ≤ (2 ^ 53 - 1 / 2) * 2 ^ f :=
    mul_le_mul_of_nonneg_right (by linarith) pos.le
  have between := low.trans (hv.least.trans le)
  have last : n + 1 = 2 ^ 53 := by
    have meet := mul_right_cancel₀ pos.ne' (le_antisymm high (between.trans hw.most))
    have : (n : ℚ) + 1 = 2 ^ 53 := by linarith
    exact_mod_cast this
  have evenN := hw.even (.inr (le_antisymm hw.most (high.trans between)))
  omega

theorem unique (hm : Canonical m e) (hn : Canonical n f) (hv : Within m e v)
    (hw : Within n f v) : m = n ∧ e = f := by
  obtain rfl := le_antisymm (hv.exponent_le hm hn hw (le_refl v))
    (hw.exponent_le hn hm hv (le_refl v))
  exact ⟨le_antisymm (hv.mantissa_le hw (le_refl v)) (hw.mantissa_le hv (le_refl v)), rfl⟩

end Within

theorem targetExponent_eq_max (m : Nat) (e : Int) :
    Format.binary64.targetExponent (totalExponent m e) = max (m.log2 + e - 52) (-1074) := by
  simp only [Format.targetExponent, totalExponent, Format.mantissaBits, Format.minExponent]
  omega

theorem shift_of_narrow {m : Nat} {e : Int} (hm : m < 2 ^ 53) (he : -1074 ≤ e) :
    shiftToTargetExponent .binary64 m e .exact = (⟨m, false, false⟩, e) := by
  have short : m.log2 ≤ 52 := by
    rcases Nat.eq_zero_or_pos m with rfl | pos
    · decide
    · exact Nat.le_of_lt_succ ((Nat.log2_lt pos.ne').mpr hm)
  have still : (Format.binary64.targetExponent (totalExponent m e) - e).toNat = 0 := by
    rw [targetExponent_eq_max]
    omega
  rw [shiftToTargetExponent, shiftToExponent, still]
  exact congrArg (Prod.mk _) (Int.add_zero e)

theorem shift_of_carry {e : Int} (he : -1074 ≤ e) :
    shiftToTargetExponent .binary64 (2 ^ 53) e .exact = (⟨2 ^ 52, false, false⟩, e + 1) := by
  have one : (Format.binary64.targetExponent (totalExponent (2 ^ 53) e) - e).toNat = 1 := by
    rw [targetExponent_eq_max, Nat.log2_two_pow]
    omega
  rw [shiftToTargetExponent, shiftToExponent, one]
  rfl

-- A mantissa cut to at most 53 bits, and to fewer only at the least exponent.
structure Trimmed (em : ExtendedMantissa) (e : Int) (v : ℚ) : Prop where
  cut : Cut em (v / 2 ^ e)
  least : -1074 ≤ e
  width : em.mantissa < 2 ^ 53
  full : 2 ^ 52 ≤ em.mantissa ∨ e = -1074

theorem trimmed_shift {m : Nat} {e : Int} {a : Accuracy} {q : ℚ}
    (cut : Cut (.ofMantissaAndAccuracy m a) q) (enough : 52 ≤ m.log2 ∨ e ≤ -1074) :
    Trimmed (shiftToTargetExponent .binary64 m e a).1 (shiftToTargetExponent .binary64 m e a).2
      (q * 2 ^ e) := by
  rw [shiftToTargetExponent, shiftToExponent, targetExponent_eq_max]
  generalize hk : (max ((m.log2 : Int) + e - 52) (-1074) - e).toNat = k
  have mantissa : (ExtendedMantissa.ofMantissaAndAccuracy m a >>> k).mantissa = m / 2 ^ k := by
    rw [mantissa_shift, mantissa_ofMantissaAndAccuracy]
  refine ⟨?_, by dsimp only; omega, ?_, ?_⟩
  · have value : q * 2 ^ e / 2 ^ (e + k : Int) = q / 2 ^ k := by
      rw [zpow_add₀ two_ne_zero, zpow_natCast]
      field_simp
    rw [value]
    exact cut.shiftRight k
  · rw [mantissa, Nat.div_lt_iff_lt_mul (Nat.two_pow_pos k), ← Nat.pow_add]
    exact Nat.lt_of_lt_of_le Nat.lt_log2_self (Nat.pow_le_pow_right Nat.two_pos (by omega))
  · by_cases bottom : e + k = -1074
    · exact .inr bottom
    · left
      have ne : m ≠ 0 := by
        rintro rfl
        rw [Nat.log2_zero] at hk enough
        omega
      rw [mantissa, Nat.le_div_iff_mul_le (Nat.two_pow_pos k), ← Nat.pow_add]
      exact Nat.le_trans (Nat.pow_le_pow_right Nat.two_pos (by omega)) (Nat.log2_self_le ne)

theorem div_mul_zpow (v : ℚ) (e : Int) : v / 2 ^ e * 2 ^ e = v :=
  div_mul_cancel₀ v (two_zpow_pos e).ne'

theorem Nearest.within {n : Nat} {e : Int} {v : ℚ} (near : Nearest n (v / 2 ^ e))
    (wide : gap n e = 1 / 2 ∨ n ≤ v / 2 ^ e) : Within n e v := by
  have pos := two_zpow_pos e
  have most := mul_le_mul_of_nonneg_right near.most pos.le
  rw [div_mul_zpow] at most
  have high : v = (n + 1 / 2) * 2 ^ e → n % 2 = 0 := fun high =>
    near.even (.inr (by rw [high, mul_div_cancel_right₀ _ pos.ne']))
  rcases wide with half | above
  · have least := mul_le_mul_of_nonneg_right near.least pos.le
    rw [div_mul_zpow] at least
    refine ⟨half ▸ least, most, Or.rec (fun low => ?_) high⟩
    exact near.even (.inl (by rw [low, half, mul_div_cancel_right₀ _ pos.ne']))
  · have least : (n - gap n e) * 2 ^ e < v :=
      calc (n - gap n e) * 2 ^ e < n * 2 ^ e :=
            mul_lt_mul_of_pos_right (by linarith [(gap_le n e).1]) pos
        _ ≤ v / 2 ^ e * 2 ^ e := mul_le_mul_of_nonneg_right above pos.le
        _ = v := div_mul_zpow v e
    exact ⟨least.le, most, Or.rec (fun low => absurd low least.ne') high⟩

namespace Trimmed

variable {em : ExtendedMantissa} {e : Int} {v : ℚ}

theorem rounded_le (h : Trimmed em e v) : em.roundedMantissa ≤ 2 ^ 53 := by
  have := (mantissa_le_rounded em).2
  have := h.width
  omega

theorem canonical (h : Trimmed em e v) (pos : 0 < em.roundedMantissa)
    (short : em.roundedMantissa < 2 ^ 53) : Canonical em.roundedMantissa e where
  positive := pos
  width := short
  least := h.least
  full := h.full.imp_left (fun full => full.trans (mantissa_le_rounded em).1)

theorem within (h : Trimmed em e v) : Within em.roundedMantissa e v := by
  refine h.cut.nearest.within ?_
  rcases h.full with full | bottom
  · by_cases least : em.roundedMantissa = 2 ^ 52
    · right
      have : ((2 ^ 52 : Nat) : ℚ) ≤ em.mantissa := by exact_mod_cast full
      rw [least]
      exact this.trans h.cut.floor.1
    · exact .inl (gap_of_ne (.inl least))
  · exact .inl (gap_of_ne (.inr bottom))

theorem within_carry (h : Trimmed em e v) (carry : em.roundedMantissa = 2 ^ 53) :
    Within (2 ^ 52) (e + 1) v := by
  have near := h.cut.nearest
  have pos := two_zpow_pos e
  have least := mul_le_mul_of_nonneg_right near.least pos.le
  have wide : (em.mantissa : ℚ) + 1 ≤ 2 ^ 53 := by exact_mod_cast h.width
  have most := mul_lt_mul_of_pos_right (h.cut.floor.2.trans_le wide) pos
  rw [div_mul_zpow] at least most
  rw [carry] at least
  push_cast at least
  have double : (2 : ℚ) ^ (e + 1) = 2 ^ e * 2 := zpow_add_one₀ two_ne_zero e
  refine ⟨?_, ?_, fun _ => by decide⟩
  · rw [gap, if_pos ⟨rfl, Int.lt_add_one_of_le h.least⟩, double]
    push_cast
    linarith
  · rw [double]
    push_cast
    linarith

end Trimmed

theorem Within.positive {m : Nat} {e : Int} {v : ℚ} (hm : Canonical m e) (h : Within m e v) :
    1 / 2 * (2 : ℚ) ^ (-1074 : Int) < v := by
  rcases Nat.eq_or_lt_of_le hm.positive with rfl | more
  · obtain rfl : e = -1074 := hm.full.resolve_left (by decide)
    have half : ((1 : Nat) : ℚ) - gap 1 (-1074) = 1 / 2 := by
      rw [gap_of_ne (.inr rfl)]
      norm_num
    have least := h.least
    rw [half] at least
    refine least.lt_of_ne (fun low => ?_)
    exact absurd (h.even (.inl (by rw [half, low]))) (by decide)
  · have two : (2 : ℚ) ≤ m := by exact_mod_cast more
    calc 1 / 2 * (2 : ℚ) ^ (-1074 : Int) < (m - gap m e) * 2 ^ (-1074 : Int) :=
          mul_lt_mul_of_pos_right (by linarith [(gap_le m e).2]) (two_zpow_pos _)
      _ ≤ (m - gap m e) * 2 ^ e :=
          mul_le_mul_of_nonneg_left (zpow_le_zpow_right₀ one_le_two hm.least)
            (by linarith [(gap_le m e).2])
      _ ≤ v := h.least

theorem Trimmed.rounded_ne_zero {em : ExtendedMantissa} {e : Int} {v : ℚ} (h : Trimmed em e v)
    (positive : 1 / 2 * (2 : ℚ) ^ (-1074 : Int) < v) : em.roundedMantissa ≠ 0 := by
  intro zero
  have most := mul_le_mul_of_nonneg_right h.cut.nearest.most (two_zpow_pos e).le
  rw [div_mul_zpow, zero, Nat.cast_zero, zero_add] at most
  rcases h.full with full | rfl
  · have := (mantissa_le_rounded em).1
    omega
  · exact absurd most positive.not_ge

theorem exists_within {m : Nat} {e : Int} {a : Accuracy} {q : ℚ} (s : Sign)
    (cut : Cut (.ofMantissaAndAccuracy m a) q) (enough : 52 ≤ m.log2 ∨ e ≤ -1074)
    (positive : 1 / 2 * (2 : ℚ) ^ (-1074 : Int) < q * 2 ^ e) :
    ∃ n f, ∃ hn : Canonical n f, Within n f (q * 2 ^ e) ∧
      roundWithAccuracy .binary64 s m e a = .finite s n f hn.positive := by
  have first := trimmed_shift cut enough
  rw [roundWithAccuracy]
  generalize shiftToTargetExponent .binary64 m e a = shifted at first ⊢
  obtain ⟨em, f⟩ := shifted
  dsimp only at first ⊢
  rcases Nat.eq_or_lt_of_le first.rounded_le with carry | short
  · rw [carry, shift_of_carry first.least]
    have hn : Canonical (2 ^ 52) (f + 1) :=
      ⟨by decide, by decide, by have := first.least; omega, .inl (le_refl _)⟩
    exact ⟨_, _, hn, first.within_carry carry, dif_neg hn.positive.ne'⟩
  · have ne := first.rounded_ne_zero positive
    rw [shift_of_narrow short first.least]
    have hn := first.canonical (Nat.pos_of_ne_zero ne) short
    exact ⟨_, _, hn, first.within, dif_neg ne⟩

theorem roundWithAccuracy_of_within {m n : Nat} {e f : Int} {a : Accuracy} {q : ℚ} (s : Sign)
    (cut : Cut (.ofMantissaAndAccuracy m a) q) (enough : 52 ≤ m.log2 ∨ e ≤ -1074)
    (hn : Canonical n f) (within : Within n f (q * 2 ^ e)) :
    roundWithAccuracy .binary64 s m e a = .finite s n f hn.positive := by
  obtain ⟨n', f', hn', within', rounded⟩ := exists_within s cut enough (within.positive hn)
  obtain ⟨rfl, rfl⟩ := within'.unique hn' hn within
  exact rounded

end Float.Model.UnpackedFloat
