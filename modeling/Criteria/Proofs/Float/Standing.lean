import Criteria.Proofs.Float.Fraction

namespace Float

open Model UnpackedFloat

-- The positive number that a float stands for exactly.
def Stands (x : Float) (q : ℚ) : Prop :=
  ∃ (m : Nat) (e : Int) (hm : Canonical m e), e ≤ 971 ∧ q = m * 2 ^ e ∧
    x = .ofModel (.pack (.finite .positive m e hm.positive))

theorem unpack_ofModel_pack {m : Nat} {e : Int} (hm : Canonical m e) (most : e ≤ 971) :
    (Float.ofModel (.pack (.finite .positive m e hm.positive))).toModel.unpack =
      .finite .positive m e hm.positive :=
  hm.unpack_pack .positive most

theorem stands_of_within {r : Nat} {g : Int} {v : ℚ} {x : Float} (hr : Canonical r g)
    (within : Within r g v) (most : v ≤ 2 ^ (64 : Int))
    (same : x = .ofModel (.pack (.finite .positive r g hr.positive))) :
    ∃ q, Stands x q ∧ Rounds v q := by
  have low := within.exponent_le hr (canonical_power (by decide)) (within_power 64) most
  exact ⟨r * 2 ^ g, ⟨r, g, hr, by omega, rfl, same⟩, r, g, hr, within, rfl⟩

theorem stands_power {k : Int} (least : -1022 ≤ k) (most : k ≤ 1023) {x : Float}
    (same : x = .ofModel (.pack (.finite .positive (2 ^ 52) (k - 52) (Nat.two_pow_pos 52)))) :
    Stands x (2 ^ k) :=
  ⟨2 ^ 52, k - 52, canonical_power (by omega), by omega, (power_eq k).symm, same⟩

theorem stands_one : Stands 1 1 :=
  stands_power (k := 0) (by decide) (by decide) rfl

theorem stands_ofNat {n : Nat} (hn : 0 < n) (fits : n < 2 ^ 64) :
    ∃ q, Stands (Float.ofNat n) q ∧ Rounds n q := by
  have most : (n : ℚ) ≤ 2 ^ (64 : Int) := by exact_mod_cast fits.le
  suffices ∃ r g, ∃ hr : Canonical r g, Within r g n ∧
      Float.ofNat n = .ofModel (.pack (.finite .positive r g hr.positive)) by
    obtain ⟨r, g, hr, within, same⟩ := this
    exact stands_of_within hr within most same
  change ∃ r g, ∃ hr : Canonical r g, Within r g n ∧ Float.ofScientific n false 0 = _
  rw [Float.ofScientific]
  split
  · rename_i small
    have one : Float.exactlyRepresentablePowersOfTen[0].toModel.unpack =
        .finite .positive (2 ^ 52) (-52) (Nat.two_pow_pos 52) := rfl
    obtain ⟨r, g, hr, low, value⟩ := exists_canonical hn small.1
    refine ⟨r, g, hr, value ▸ within_self, ?_⟩
    change Float.ofModel (.pack (UnpackedFloat.mul .binary64 n.toUInt64.toFloat.toModel.unpack
      Float.exactlyRepresentablePowersOfTen[0].toModel.unpack)) = _
    rw [one, unpack_toFloat hn small.1 hr (by omega) value, hr.mul_one]
  · obtain ⟨r, g, hr, within, same⟩ := exists_ofScientific hn
    exact ⟨r, g, hr, within, congrArg (Float.ofModel ∘ .pack) same⟩

namespace Stands

variable {x y : Float} {p q : ℚ}

theorem pos (h : Stands x p) : 0 < p := by
  obtain ⟨m, e, hm, _, rfl, _⟩ := h
  exact mul_pos (by exact_mod_cast hm.positive) (two_zpow_pos e)

theorem nonneg (h : Stands x p) : Nonneg x.toModel.unpack := by
  obtain ⟨m, e, hm, most, _, rfl⟩ := h
  rw [unpack_ofModel_pack hm most]
  exact .finite m e hm.positive

theorem le_iff (hx : Stands x p) (hy : Stands y q) : x ≤ y ↔ p ≤ q := by
  obtain ⟨m, e, hm, he, rfl, rfl⟩ := hx
  obtain ⟨n, f, hn, hf, rfl, rfl⟩ := hy
  rw [le_iff_compare, unpack_ofModel_pack hm he, unpack_ofModel_pack hn hf, hm.value_le_iff hn]
  exact isLE_then_iff

theorem lt_iff (hx : Stands x p) (hy : Stands y q) : x < y ↔ p < q := by
  rw [← not_le, ← hy.le_iff hx, ← not_lt_iff_le hy.nonneg.isNaN hx.nonneg.isNaN, not_not]

theorem unique (hx : Stands x p) (hy : Stands y p) : x = y := by
  obtain ⟨m, e, hm, _, value, rfl⟩ := hx
  obtain ⟨n, f, hn, _, value', rfl⟩ := hy
  have same : (m : ℚ) * 2 ^ e = n * 2 ^ f := value.symm.trans value'
  obtain ⟨rfl, rfl⟩ := (within_self : Within m e _).unique hm hn (same ▸ within_self)
  rfl

theorem div (hx : Stands x p) (hy : Stands y q) (least : (2 : ℚ) ^ (-1000 : Int) ≤ p / q)
    (most : p / q ≤ 2 ^ (64 : Int)) : ∃ r, Stands (x / y) r ∧ Rounds (p / q) r := by
  obtain ⟨m, e, hm, he, rfl, rfl⟩ := hx
  obtain ⟨n, f, hn, hf, rfl, rfl⟩ := hy
  have tiny : (2 : ℚ) ^ (-1074 : Int) ≤ 2 ^ (-1000 : Int) :=
    zpow_le_zpow_right₀ one_le_two (by decide)
  have positive : 1 / 2 * (2 : ℚ) ^ (-1074 : Int) < m * 2 ^ e / (n * 2 ^ f) := by
    have := two_zpow_pos (-1074)
    linarith
  obtain ⟨r, g, hr, within, same⟩ := exists_within_div hm.positive hn.positive positive
  refine stands_of_within hr within most ?_
  change Float.ofModel (.pack (UnpackedFloat.div .binary64
    (Float.ofModel (.pack (.finite .positive m e hm.positive))).toModel.unpack
    (Float.ofModel (.pack (.finite .positive n f hn.positive))).toModel.unpack)) = _
  rw [unpack_ofModel_pack hm he, unpack_ofModel_pack hn hf, same]

theorem mul_power {k : Int} (hx : Stands x p) (least : 2 ^ (-1000 : Int) ≤ p) (low : -20 ≤ k)
    (high : k ≤ 0) (power : y.toModel.unpack =
      .finite .positive (2 ^ 52) (k - 52) (Nat.two_pow_pos 52)) : Stands (x * y) (p * 2 ^ k) := by
  obtain ⟨m, e, hm, he, rfl, rfl⟩ := hx
  have exponent := hm.lt_exponent least
  have hk : Canonical m (e + k) :=
    ⟨hm.positive, hm.width, by omega, .inl (hm.full.resolve_right (by omega))⟩
  refine ⟨m, e + k, hk, by omega, ?_, ?_⟩
  · rw [mul_assoc, zpow_add₀ two_ne_zero]
  · change Float.ofModel (.pack (UnpackedFloat.mul .binary64
      (Float.ofModel (.pack (.finite .positive m e hm.positive))).toModel.unpack
      y.toModel.unpack)) = _
    rw [unpack_ofModel_pack hm he, power, hm.mul_power hk]

end Stands

-- The quotient of two natural numbers: each of them is rounded, and so is what comes of them.
structure Quotient (n m : Nat) (q : ℚ) : Prop where
  stands : Stands (Float.ofNat n / Float.ofNat m) q
  rounds : ∃ a b, Rounds n a ∧ Rounds m b ∧ Rounds (a / b) q
  least : 2 ^ (-64 : Int) ≤ q
  most : q ≤ 1

theorem one_le_of_rounds {n : Nat} {a : ℚ} (h : Rounds n a) (hn : 0 < n) : 1 ≤ a := by
  rw [← zpow_zero (2 : ℚ)]
  refine h.power_le (by decide) ?_
  rw [zpow_zero]
  exact_mod_cast hn

theorem le_of_rounds {n : Nat} {a : ℚ} (h : Rounds n a) (fits : n < 2 ^ 64) :
    a ≤ 2 ^ (64 : Int) :=
  h.le_power (by decide) (by exact_mod_cast fits.le)

theorem exists_quotient {n m : Nat} (hn : 0 < n) (le : n ≤ m) (fits : m < 2 ^ 64) :
    ∃ q, Quotient n m q := by
  have hm : 0 < m := hn.trans_le le
  obtain ⟨a, numerator, ha⟩ := stands_ofNat hn (le.trans_lt fits)
  obtain ⟨b, denominator, hb⟩ := stands_ofNat hm fits
  have above := one_le_of_rounds ha hn
  have below := le_of_rounds hb fits
  have order : a ≤ b := ha.mono hb (by exact_mod_cast le)
  have positive : 0 < b := denominator.pos
  have least : (2 : ℚ) ^ (-64 : Int) ≤ a / b := by
    rw [le_div_iff₀ positive]
    calc (2 : ℚ) ^ (-64 : Int) * b ≤ 2 ^ (-64 : Int) * 2 ^ (64 : Int) :=
          mul_le_mul_of_nonneg_left below (two_zpow_pos _).le
      _ = 1 := by norm_num
      _ ≤ a := above
  have most : a / b ≤ 1 := (div_le_one₀ positive).mpr order
  obtain ⟨q, stands, hq⟩ := numerator.div denominator
    ((zpow_le_zpow_right₀ one_le_two (by decide)).trans least) (most.trans (by norm_num))
  refine ⟨q, stands, ⟨a, b, ha, hb, hq⟩, hq.power_le (by decide) least, ?_⟩
  exact hq.le_power (k := 0) (by decide) (by rwa [zpow_zero])

theorem rounds_natCast {n : Nat} (hn : 0 < n) (narrow : n < 2 ^ 53) : Rounds n n := by
  obtain ⟨r, g, hr, _, value⟩ := exists_canonical hn narrow
  exact value ▸ hr.rounds

namespace Quotient

variable {n m : Nat} {q : ℚ}

theorem eq_one (h : Quotient m m q) (hm : 0 < m) : q = 1 := by
  obtain ⟨a, b, ha, hb, hq⟩ := h.rounds
  obtain rfl := ha.unique hb
  have above := one_le_of_rounds ha hm
  rw [div_self (by linarith)] at hq
  exact hq.unique (rounds_power (k := 0) (by decide))

-- Short lengths that differ leave their quotient well below one.
theorem le_of_lt (h : Quotient n m q) (hn : 0 < n) (less : n < m) (short : m ≤ 2 ^ 51) :
    q ≤ 1 - 1 / 2 ^ 51 := by
  obtain ⟨a, b, ha, hb, hq⟩ := h.rounds
  obtain rfl := ha.unique (rounds_natCast hn (by omega))
  obtain rfl := hb.unique (rounds_natCast (hn.trans less) (by omega))
  have bound : Rounds (1 - 1 / 2 ^ 51) (1 - 1 / 2 ^ 51) := by
    have canonical : Canonical (2 ^ 53 - 4) (-53) := ⟨by decide, by decide, by decide, by decide⟩
    have value : ((2 ^ 53 - 4 : Nat) : ℚ) * 2 ^ (-53 : Int) = 1 - 1 / 2 ^ 51 := by norm_num
    exact value ▸ canonical.rounds
  refine hq.mono bound ?_
  have positive : (0 : ℚ) < m := by exact_mod_cast hn.trans less
  have next : (n : ℚ) + 1 ≤ m := by exact_mod_cast less
  have width : (m : ℚ) ≤ 2 ^ 51 := by exact_mod_cast short
  rw [div_le_iff₀ positive]
  linarith

end Quotient

theorem div_self_ofNat {m : Nat} (hm : 0 < m) (fits : m < 2 ^ 64) :
    Float.ofNat m / Float.ofNat m = 1 := by
  obtain ⟨q, quotient⟩ := exists_quotient hm (le_refl m) fits
  exact (quotient.eq_one hm ▸ quotient.stands).unique stands_one

theorem ofNat_zero_div {m : Nat} (hm : 0 < m) (fits : m < 2 ^ 64) :
    (Float.ofNat 0 / Float.ofNat m).toModel.unpack = .zero .positive := by
  obtain ⟨b, ⟨k, e, hk, most, _, same⟩, _⟩ := stands_ofNat hm fits
  have zero : (Float.ofNat 0).toModel.unpack = .zero .positive := rfl
  have none : UnpackedFloat.div .binary64 (.zero .positive) (.finite .positive k e hk.positive) =
      .zero .positive := rfl
  change UnpackedFloat.unpack .binary64 (UnpackedFloat.pack .binary64
    (UnpackedFloat.div .binary64 (Float.ofNat 0).toModel.unpack (Float.ofNat m).toModel.unpack)) = _
  rw [zero, same, unpack_ofModel_pack hk most, none]
  rfl

theorem nonneg_div {n m : Nat} (hm : 0 < m) (le : n ≤ m) (fits : m < 2 ^ 64) :
    Nonneg (Float.ofNat n / Float.ofNat m).toModel.unpack := by
  rcases Nat.eq_zero_or_pos n with rfl | positive
  · rw [ofNat_zero_div hm fits]
    exact .zero
  · obtain ⟨_, quotient⟩ := exists_quotient positive le fits
    exact quotient.stands.nonneg

theorem div_le_one {n m : Nat} (hm : 0 < m) (le : n ≤ m) (fits : m < 2 ^ 64) :
    Float.ofNat n / Float.ofNat m ≤ 1 := by
  rcases Nat.eq_zero_or_pos n with rfl | positive
  · have one : (1 : Float).toModel.unpack = .finite .positive (2 ^ 52) (-52) (Nat.two_pow_pos 52) :=
      rfl
    rw [le_iff_compare, one, ofNat_zero_div hm fits]
    rfl
  · obtain ⟨q, quotient⟩ := exists_quotient positive le fits
    exact (quotient.stands.le_iff stands_one).mpr quotient.most

end Float
