import Criteria.Decimal.Magnitude
import Criteria.Proofs.Float.Packing

namespace Criteria.Decimal

open Float.Model (UnpackedFloat)
open Float.Model.UnpackedFloat

def sign (x : Float) : Sign :=
  if negative x then .negative else .positive

def bits (x : Float) : BitVec 64 :=
  x.toBits.toBitVec

theorem eq_of_bits {x : Float} {u : UnpackedFloat} (h : pack .binary64 u = bits x) :
    x = .ofModel (.pack u) := by
  obtain ⟨⟨word, valid⟩⟩ := x
  have same : word = UInt64.ofBitVec (pack .binary64 u) := by
    rw [h]
    rfl
  subst same
  rfl

theorem ofBitVec_unpackSign (x : Float) :
    Sign.ofBitVec (@unpackSign .binary64 (bits x)) = sign x := by
  have top : (@unpackSign .binary64 (bits x)).toNat = (x.toBits >>> 63).toNat := by
    rw [toNat_unpackSign, UInt64.toNat_shiftRight, Nat.shiftRight_eq_div_pow]
    rfl
  rw [sign, negative]
  rcases BitVec.eq_zero_or_eq_one (@unpackSign .binary64 (bits x)) with zero | one
  · rw [zero] at top ⊢
    have clear : x.toBits >>> 63 = 0 := UInt64.toNat_inj.mp top.symm
    rw [clear]
    rfl
  · rw [one] at top ⊢
    have set : x.toBits >>> 63 = 1 := UInt64.toNat_inj.mp top.symm
    rw [set]
    rfl

theorem packComponents_eq_bits {x : Float} {e : BitVec 11} {m : BitVec 52}
    (he : e.toNat = x.toBits.toNat / 2 ^ 52 % 2 ^ 11) (hm : m.toNat = x.toBits.toNat % 2 ^ 52) :
    packComponents .binary64 (sign x) e m = bits x := by
  have exponent : e = @unpackExponent .binary64 (bits x) :=
    BitVec.eq_of_toNat_eq (he.trans (toNat_unpackExponent (bits x)).symm)
  have mantissa : m = @unpackMantissa .binary64 (bits x) :=
    BitVec.eq_of_toNat_eq (hm.trans (toNat_unpackMantissa (bits x)).symm)
  rw [← ofBitVec_unpackSign, exponent, mantissa]
  exact packComponents_unpack (bits x)

-- The fields of a finite number, subnormal or normal.
theorem fields_of_magnitude {x : Float} {m : Nat} {e : Int} (h : magnitude x = .finite m e) :
    (e = -1074 ∧ m = x.toBits.toNat % 2 ^ 52 ∧ x.toBits.toNat / 2 ^ 52 % 2 ^ 11 = 0) ∨
      ∃ b : Nat, e = b - 1075 ∧ m = 2 ^ 52 + x.toBits.toNat % 2 ^ 52 ∧
        x.toBits.toNat / 2 ^ 52 % 2 ^ 11 = b ∧ 0 < b ∧ b < 2047 := by
  simp only [magnitude, Nat.pow_eq] at h
  have narrow := Nat.mod_lt (x.toBits.toNat / 2 ^ 52) (Nat.two_pow_pos 11)
  split at h
  · split at h <;> cases h
  · split at h
    · rename_i zero
      cases h
      exact .inl ⟨rfl, rfl, zero⟩
    · cases h
      exact .inr ⟨_, rfl, rfl, rfl, by omega, by omega⟩

variable {x : Float} {m : Nat} {e : Int}

theorem canonical_of_magnitude (h : magnitude x = .finite m e) (positive : 0 < m) :
    Canonical m e ∧ e ≤ 971 := by
  have narrow := Nat.mod_lt x.toBits.toNat (Nat.two_pow_pos 52)
  rcases fields_of_magnitude h with ⟨rfl, rfl, _⟩ | ⟨b, rfl, rfl, _, low, high⟩
  · exact ⟨⟨positive, by omega, by omega, .inr rfl⟩, by omega⟩
  · exact ⟨⟨positive, by omega, by omega, .inl (by omega)⟩, by omega⟩

theorem eq_of_magnitude (h : magnitude x = .finite m e) (hm : Canonical m e) :
    x = .ofModel (.pack (.finite (sign x) m e hm.positive)) := by
  have narrow := Nat.mod_lt x.toBits.toNat (Nat.two_pow_pos 52)
  apply eq_of_bits
  rcases fields_of_magnitude h with ⟨rfl, rfl, field⟩ | ⟨b, rfl, rfl, field, low, high⟩
  · rw [pack_short _ hm.positive narrow]
    exact packComponents_eq_bits field.symm (by rw [BitVec.toNat_ofNat, Nat.mod_mod])
  · rw [pack_full _ hm.positive (log2_of_bounds (by omega) (by omega)) high]
    exact packComponents_eq_bits (by rw [BitVec.toNat_ofNat]; omega)
      (by rw [BitVec.toNat_ofNat]; omega)

theorem eq_zero_of_magnitude (h : magnitude x = .finite 0 e) :
    x = .ofModel (.pack (.zero (sign x))) := by
  apply eq_of_bits
  rcases fields_of_magnitude h with ⟨_, fraction, field⟩ | ⟨b, _, fraction, _⟩
  · exact packComponents_eq_bits field.symm fraction
  · omega

theorem unpack_of_full (h : x.toBits.toNat / 2 ^ 52 % 2 ^ 11 = 2047) :
    (∃ s, x.toModel.unpack = .infinity s) ∨ x.toModel.unpack = .notANumber := by
  have full : @unpackExponent .binary64 (bits x) = -1#11 :=
    BitVec.eq_of_toNat_eq ((toNat_unpackExponent (bits x)).trans h)
  change (∃ s, unpack .binary64 (bits x) = _) ∨ unpack .binary64 (bits x) = _
  rw [unpack, if_pos full]
  split
  · exact .inl ⟨_, rfl⟩
  · exact .inr rfl

theorem exists_magnitude (low : 0 ≤ x) (high : x ≤ 1) : ∃ m e, magnitude x = .finite m e := by
  have finite : x.toBits.toNat / 2 ^ 52 % 2 ^ 11 ≠ 2047 := by
    intro full
    have zero : (0 : Float).toModel.unpack = .zero .positive := rfl
    have one : (1 : Float).toModel.unpack = .finite .positive (2 ^ 52) (-52) (Nat.two_pow_pos 52) :=
      rfl
    rw [Float.le_iff_compare, zero] at low
    rw [Float.le_iff_compare, one] at high
    rcases unpack_of_full full with ⟨s, same⟩ | same
    · rw [same] at low high
      cases s with
      | positive => cases high
      | negative => cases low
    · rw [same] at low
      cases low
  simp only [magnitude, Nat.pow_eq, if_neg finite]
  split
  · exact ⟨_, _, rfl⟩
  · exact ⟨_, _, rfl⟩

end Criteria.Decimal
