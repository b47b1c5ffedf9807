import Criteria.Proofs.Float.Division

namespace Float.Model.UnpackedFloat

theorem log2_shiftLeft {m : Nat} (hm : m ≠ 0) (k : Nat) : (m <<< k).log2 = m.log2 + k := by
  obtain ⟨lower, upper⟩ := (Nat.log2_eq_iff hm).mp rfl
  have ne : m * 2 ^ k ≠ 0 :=
    Nat.ne_of_gt (Nat.mul_pos (Nat.pos_of_ne_zero hm) (Nat.two_pow_pos k))
  rw [Nat.shiftLeft_eq, Nat.log2_eq_iff ne, Nat.add_right_comm, Nat.pow_add, Nat.pow_add]
  exact ⟨Nat.mul_le_mul_right _ lower, Nat.mul_lt_mul_of_pos_right upper (Nat.two_pow_pos k)⟩

theorem within_self {m : Nat} {e : Int} : Within m e (m * 2 ^ e) := by
  have pos := two_zpow_pos e
  have low : (m - gap m e) * (2 : ℚ) ^ e < m * 2 ^ e :=
    mul_lt_mul_of_pos_right (by linarith [(gap_le m e).1]) pos
  have high : (m : ℚ) * 2 ^ e < (m + 1 / 2) * 2 ^ e :=
    mul_lt_mul_of_pos_right (by linarith) pos
  exact ⟨low.le, high.le, fun same => absurd same (not_or.mpr ⟨low.ne', high.ne⟩)⟩

theorem exists_canonical {n : Nat} (hn : 0 < n) (narrow : n < 2 ^ 53) :
    ∃ r g, Canonical r g ∧ g ≤ 0 ∧ (r : ℚ) * 2 ^ g = n := by
  have short : n.log2 < 53 := (Nat.log2_lt hn.ne').mpr narrow
  refine ⟨n <<< (52 - n.log2), -(52 - n.log2 : Nat), ?_, by omega, ?_⟩
  · have width : (n <<< (52 - n.log2)).log2 = 52 := by
      rw [log2_shiftLeft hn.ne']
      omega
    have ne : n <<< (52 - n.log2) ≠ 0 := by
      intro zero
      rw [zero] at width
      exact absurd width (by decide)
    obtain ⟨least, most⟩ := (Nat.log2_eq_iff ne).mp width
    exact ⟨Nat.pos_of_ne_zero ne, most, by omega, .inl least⟩
  · rw [Nat.shiftLeft_eq, zpow_neg, zpow_natCast]
    push_cast
    field_simp

theorem round_of_within {n r : Nat} {g : Int} (hn : 0 < n) (hr : Canonical r g)
    (within : Within r g n) :
    round .binary64 .positive n 0 = .finite .positive r g hr.positive := by
  rw [round, targetExponent_eq_max, decreaseExponent]
  generalize hk : (0 - max ((n.log2 : Int) + 0 - 52) (-1074)).toNat = k
  have value : ((n <<< k : Nat) : ℚ) * 2 ^ (0 - k : Int) = n := by
    rw [Nat.shiftLeft_eq, zero_sub, zpow_neg, zpow_natCast]
    push_cast
    field_simp
  have width := log2_shiftLeft hn.ne' k
  exact roundWithAccuracy_of_within .positive (.exact _) (.inl (by omega)) hr (value.symm ▸ within)

end Float.Model.UnpackedFloat

namespace Float

open Model UnpackedFloat

theorem unpack_toFloat {n r : Nat} {g : Int} (hn : 0 < n) (narrow : n < 2 ^ 53)
    (hr : Canonical r g) (most : g ≤ 971) (value : (r : ℚ) * 2 ^ g = n) :
    n.toUInt64.toFloat.toModel.unpack = .finite .positive r g hr.positive := by
  have same : n.toUInt64.toNat = n :=
    UInt64.toNat_ofNat_of_lt (Nat.lt_trans narrow (by decide))
  change unpack .binary64 (pack .binary64
    (normalize .binary64 (n.toUInt64.toNat : Int) 0 .positive)) = _
  rw [same, UnpackedFloat.normalize, Int.compare_eq_gt.mpr (by omega)]
  simp only [Int.toNat_natCast]
  rw [round_of_within hn hr (value ▸ within_self)]
  exact hr.unpack_pack .positive most

def isExactly (n : Nat) : UnpackedFloat → Bool
  | .finite .positive m e _ => m * Nat.pow 2 e.toNat = n * Nat.pow 2 (-e).toNat
  | _ => false

theorem exists_of_isExactly {n : Nat} {u : UnpackedFloat} (h : isExactly n u = true) :
    ∃ (r : Nat) (g : Int) (hr : 0 < r), (r : ℚ) * 2 ^ g = n ∧ u = .finite .positive r g hr := by
  unfold isExactly at h
  split at h
  · rename_i m e hm
    have cast : (m : ℚ) * 2 ^ e.toNat = n * 2 ^ (-e).toNat := by
      exact_mod_cast of_decide_eq_true h
    refine ⟨m, e, hm, ?_, rfl⟩
    obtain ⟨k, rfl | rfl⟩ := Int.eq_nat_or_neg e
    · simpa using cast
    · rw [zpow_neg, zpow_natCast, ← div_eq_mul_inv, div_eq_iff (by positivity)]
      simpa using cast
  · cases h

theorem unpack_power {k : Nat} (hk : k < exactlyRepresentablePowersOfTen.size) :
    ∃ (r : Nat) (g : Int) (hr : 0 < r), (r : ℚ) * 2 ^ g = 10 ^ k ∧
      exactlyRepresentablePowersOfTen[k].toModel.unpack = .finite .positive r g hr := by
  have table : ∀ k (_ : k < exactlyRepresentablePowersOfTen.size),
      isExactly (Nat.pow 10 k) exactlyRepresentablePowersOfTen[k].toModel.unpack = true := by
    decide +kernel
  obtain ⟨r, g, hr, value, unpacked⟩ := exists_of_isExactly (table k hk)
  refine ⟨r, g, hr, ?_, unpacked⟩
  rw [value, Nat.pow_eq]
  push_cast
  rfl

theorem ofScientific_negSucc {n k : Nat} (hn : n ≠ 0) (small : k + 1 ≤ 2048 + n.log2) :
    UnpackedFloat.ofScientific .binary64 n (Int.negSucc k) =
      UnpackedFloat.div .binary64 (.finite .positive n 0 (Nat.pos_of_ne_zero hn))
        (.finite .positive (10 ^ (k + 1)) 0 (Nat.pow_pos (by decide))) := by
  have range : (2 : Int) ^ Format.binary64.exponentBits = 2048 := by decide
  rw [UnpackedFloat.ofScientific, dif_neg hn, range, if_neg (by omega), if_neg (by omega),
    if_neg (by omega)]
  rfl

theorem ofScientific_of_within {n k r : Nat} {g : Int} (hn : 0 < n)
    (small : k + 1 ≤ 2048 + n.log2) (hr : Canonical r g) (within : Within r g (n / 10 ^ (k + 1))) :
    Float.ofScientific n true (k + 1) = .ofModel (.pack (.finite .positive r g hr.positive)) := by
  rw [Float.ofScientific]
  split
  · rename_i fast
    have hk : k + 1 < exactlyRepresentablePowersOfTen.size := Nat.lt_succ_of_le fast.2
    obtain ⟨p, f, hp, below, numerator⟩ := exists_canonical hn fast.1
    obtain ⟨q, h, hq, denominator, power⟩ := unpack_power hk
    change Float.ofModel (.pack (UnpackedFloat.div .binary64 n.toUInt64.toFloat.toModel.unpack
      exactlyRepresentablePowersOfTen[k + 1].toModel.unpack)) = _
    rw [unpack_toFloat hn fast.1 hp (by omega) numerator, power,
      div_of_within hp.positive hq hr (by rwa [numerator, denominator])]
  · change Float.ofModel (.pack (UnpackedFloat.ofScientific .binary64 n (Int.negSucc k))) = _
    rw [ofScientific_negSucc hn.ne' small, div_of_within hn (Nat.pow_pos (by decide)) hr
      (by simpa using within)]

end Float
