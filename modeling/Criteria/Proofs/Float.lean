namespace Float

namespace Model.UnpackedFloat

theorem compare_swap (a b : UnpackedFloat) : b.compare a = (a.compare b).map Ordering.swap := by
  cases a with
  | notANumber => cases b <;> rfl
  | infinity s =>
      cases b with
      | notANumber => cases s <;> rfl
      | infinity r => cases s <;> cases r <;> rfl
      | zero r => cases s <;> rfl
      | finite r => cases s <;> rfl
  | zero s =>
      cases b with
      | notANumber => rfl
      | infinity r => cases r <;> rfl
      | zero r => rfl
      | finite r => cases r <;> rfl
  | finite s m e =>
      cases b with
      | notANumber => cases s <;> rfl
      | infinity r => cases s <;> cases r <;> rfl
      | zero r => cases s <;> rfl
      | finite r n f =>
          have magnitudes : (Ord.compare f e).then (Ord.compare n m) =
              ((Ord.compare e f).then (Ord.compare m n)).swap := by
            rw [Ordering.swap_then, Int.compare_swap, Nat.compare_swap]
          cases s with
          | negative =>
              cases r with
              | negative => exact congrArg (fun o => some o.swap) magnitudes
              | positive => rfl
          | positive =>
              cases r with
              | negative => rfl
              | positive => exact congrArg some magnitudes

theorem isSome_compare (a b : UnpackedFloat) :
    (a.compare b).isSome = (!a.isNaN && !b.isNaN) := by
  cases a with
  | notANumber => rfl
  | infinity s =>
      cases b with
      | infinity r => rfl
      | _ => cases s <;> rfl
  | zero s =>
      cases b with
      | infinity r => cases r <;> rfl
      | finite r => cases r <;> rfl
      | _ => rfl
  | finite s =>
      cases b with
      | infinity r => cases s <;> cases r <;> rfl
      | finite r => cases s <;> cases r <;> rfl
      | _ => cases s <;> rfl

end Model.UnpackedFloat

theorem lt_iff_compare {a b : Float} :
    a < b ↔ a.toModel.unpack.compare b.toModel.unpack = some .lt := by
  change decide (_ = true) = true ↔ _
  rw [decide_eq_true_iff]
  exact beq_iff_eq

theorem le_iff_compare {a b : Float} :
    a ≤ b ↔ (a.toModel.unpack.compare b.toModel.unpack).any Ordering.isLE = true := by
  change decide (_ = true) = true ↔ _
  rw [decide_eq_true_iff]
  rfl

theorem isSome_compare {a b : Float} :
    (a.toModel.unpack.compare b.toModel.unpack).isSome = true ↔
      a.isNaN = false ∧ b.isNaN = false := by
  rw [Model.UnpackedFloat.isSome_compare, Bool.and_eq_true, Bool.not_eq_true', Bool.not_eq_true']
  rfl

theorem isNaN_of_le {a b : Float} (h : a ≤ b) : a.isNaN = false ∧ b.isNaN = false := by
  rw [← isSome_compare]
  rw [le_iff_compare] at h
  cases hc : a.toModel.unpack.compare b.toModel.unpack with
  | none =>
      rw [hc] at h
      cases h
  | some o => rfl

theorem not_lt_iff_le {a b : Float} (ha : a.isNaN = false) (hb : b.isNaN = false) :
    ¬ b < a ↔ a ≤ b := by
  obtain ⟨o, ho⟩ := Option.isSome_iff_exists.mp (isSome_compare.mpr ⟨ha, hb⟩)
  rw [lt_iff_compare, le_iff_compare, Model.UnpackedFloat.compare_swap, ho]
  cases o <;> decide

end Float
