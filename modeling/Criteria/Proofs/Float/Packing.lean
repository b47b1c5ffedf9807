import Criteria.Proofs.Float.Rounding

namespace Float.Model.UnpackedFloat

theorem log2_of_bounds {m : Nat} (lower : 2 ^ 52 ≤ m) (upper : m < 2 ^ 53) : m.log2 = 52 :=
  (Nat.log2_eq_iff (Nat.ne_of_gt (Nat.lt_of_lt_of_le (Nat.two_pow_pos 52) lower))).mpr
    ⟨lower, upper⟩

theorem toNat_implicit {m : Nat} (lower : 2 ^ 52 ≤ m) (upper : m < 2 ^ 53) :
    (1#1 ++ BitVec.ofNat 52 m).toNat = m := by
  have part : m % 2 ^ 52 < 2 ^ 52 := Nat.mod_lt _ (Nat.two_pow_pos 52)
  rw [BitVec.toNat_append, BitVec.toNat_ofNat, BitVec.toNat_ofNat,
    ← Nat.shiftLeft_add_eq_or_of_lt part, Nat.shiftLeft_eq]
  omega

theorem ofNat_ne {b k : Nat} (hb : b < 2 ^ 11) (hk : k < 2 ^ 11) (ne : b ≠ k) :
    BitVec.ofNat 11 b ≠ BitVec.ofNat 11 k := by
  intro same
  have same := congrArg BitVec.toNat same
  rw [BitVec.toNat_ofNat, BitVec.toNat_ofNat, Nat.mod_eq_of_lt hb, Nat.mod_eq_of_lt hk] at same
  exact ne same

theorem pack_full (s : Sign) {m : Nat} {b : Nat} (positive : 0 < m) (hm : m.log2 = 52)
    (high : b < 2047) :
    pack .binary64 (.finite s m (b - 1075) positive) =
      packComponents .binary64 s (BitVec.ofNat 11 b) (BitVec.ofNat 52 m) := by
  have biased : ((b : Int) - 1075 + Format.binary64.exponentBias +
      Format.binary64.mantissaBitsWithoutImplicit).toNat = b := by
    have bias : (Format.binary64.exponentBias : Int) = 1023 := rfl
    rw [bias]
    dsimp only
    omega
  have small : ¬ 2 ^ Format.binary64.exponentBits ≤ b + 1 := by
    dsimp only
    omega
  have full : m.log2 + 1 = Format.binary64.mantissaBits := by
    rw [hm]
    rfl
  simp only [pack, biased, if_neg small, if_pos full]

theorem unpack_pack (s : Sign) {m : Nat} {e : Int} (positive : 0 < m) (hm : m.log2 = 52)
    (low : -1074 ≤ e) (high : e ≤ 971) :
    unpack .binary64 (pack .binary64 (.finite s m e positive)) = .finite s m e positive := by
  obtain ⟨lower, upper⟩ := (Nat.log2_eq_iff (Nat.ne_of_gt positive)).mp hm
  obtain ⟨b, rfl⟩ : ∃ b : Nat, e = b - 1075 := ⟨(e + 1075).toNat, by omega⟩
  have fits : (BitVec.ofNat 11 b).toNat = b := by
    rw [BitVec.toNat_ofNat, Nat.mod_eq_of_lt (by omega)]
  have notAll : BitVec.ofNat 11 b ≠ -1#11 :=
    ofNat_ne (k := 2047) (by omega) (by omega) (by omega)
  have notNone : BitVec.ofNat 11 b ≠ 0#11 := ofNat_ne (by omega) (by omega) (by omega)
  rw [pack_full s positive hm (by omega)]
  simp only [unpack, unpackExponent_packComponents, unpackMantissa_packComponents,
    unpackSign_packComponents, Sign.ofBitVec_toBitVec, if_neg notAll, if_neg notNone, fits,
    toNat_implicit lower upper]
  rfl

theorem pack_short (s : Sign) {m : Nat} (positive : 0 < m) (hm : m < 2 ^ 52) :
    pack .binary64 (.finite s m (-1074) positive) =
      packComponents .binary64 s 0#11 (BitVec.ofNat 52 m) := by
  have short : m.log2 < 52 := (Nat.log2_lt positive.ne').mpr hm
  have hidden : m.log2 + 1 ≠ Format.binary64.mantissaBits := by
    change m.log2 + 1 ≠ 53
    omega
  have small : ¬ 2 ^ Format.binary64.exponentBits ≤ ((-1074 : Int) + Format.binary64.exponentBias +
      Format.binary64.mantissaBitsWithoutImplicit).toNat + 1 := by
    decide
  simp only [pack, if_neg small, if_neg hidden]

theorem unpack_pack_short (s : Sign) {m : Nat} (positive : 0 < m) (hm : m < 2 ^ 52) :
    unpack .binary64 (pack .binary64 (.finite s m (-1074) positive)) =
      .finite s m (-1074) positive := by
  have fits : (BitVec.ofNat 52 m).toNat = m := by
    rw [BitVec.toNat_ofNat, Nat.mod_eq_of_lt hm]
  have ne : BitVec.ofNat 52 m ≠ 0#52 := by
    intro zero
    rw [zero] at fits
    exact positive.ne fits
  rw [pack_short s positive hm]
  simp only [unpack, unpackExponent_packComponents, unpackMantissa_packComponents,
    unpackSign_packComponents, Sign.ofBitVec_toBitVec, dif_neg ne, fits]
  rfl

theorem Canonical.unpack_pack {m : Nat} {e : Int} (h : Canonical m e) (s : Sign) (most : e ≤ 971) :
    unpack .binary64 (pack .binary64 (.finite s m e h.positive)) = .finite s m e h.positive := by
  rcases Nat.lt_or_ge m (2 ^ 52) with short | full
  · obtain rfl : e = -1074 := h.full.resolve_left (Nat.not_le_of_lt short)
    exact unpack_pack_short s h.positive short
  · exact UnpackedFloat.unpack_pack s h.positive (log2_of_bounds full h.width) h.least most

theorem toNat_unpackMantissa (b : BitVec 64) :
    (@unpackMantissa .binary64 b).toNat = b.toNat % 2 ^ 52 := by
  simp [unpackMantissa]

theorem toNat_unpackExponent (b : BitVec 64) :
    (@unpackExponent .binary64 b).toNat = b.toNat / 2 ^ 52 % 2 ^ 11 := by
  simp [unpackExponent, Nat.shiftRight_eq_div_pow]

theorem toNat_unpackSign (b : BitVec 64) :
    (@unpackSign .binary64 b).toNat = b.toNat / 2 ^ 63 := by
  have single : b.toNat / 9223372036854775808 ≤ 1 := by
    have := b.isLt
    omega
  simpa [unpackSign, Nat.shiftRight_eq_div_pow] using single

theorem toNat_packComponents (s : Sign) (e : BitVec 11) (m : BitVec 52) :
    (packComponents .binary64 s e m).toNat =
      s.toBitVec.toNat * 2 ^ 63 + e.toNat * 2 ^ 52 + m.toNat := by
  rw [packComponents, BitVec.toNat_append, ← Nat.shiftLeft_add_eq_or_of_lt m.isLt,
    BitVec.toNat_append, ← Nat.shiftLeft_add_eq_or_of_lt e.isLt, Nat.shiftLeft_eq, Nat.shiftLeft_eq]
  omega

theorem packComponents_unpack (b : BitVec 64) :
    packComponents .binary64 (Sign.ofBitVec (@unpackSign .binary64 b))
      (@unpackExponent .binary64 b) (@unpackMantissa .binary64 b) = b := by
  apply BitVec.eq_of_toNat_eq
  have := b.isLt
  rw [toNat_packComponents, Sign.toBitVec_ofBitVec, toNat_unpackSign, toNat_unpackExponent,
    toNat_unpackMantissa]
  omega

end Float.Model.UnpackedFloat
