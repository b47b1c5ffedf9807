namespace Criteria.Schema

class Score (σ : Type) extends LE σ, LT σ where
  ratio : Nat → Nat → σ
  weigh : σ → Bool → Nat → σ
  shown : σ → Float
  decidableLE : DecidableRel (α := σ) (· ≤ ·)
  decidableLT : DecidableRel (α := σ) (· < ·)

instance Score.relationLE {σ : Type} [Score σ] : DecidableRel (α := σ) (· ≤ ·) :=
  Score.decidableLE

instance Score.relationLT {σ : Type} [Score σ] : DecidableRel (α := σ) (· < ·) :=
  Score.decidableLT

instance : Score Float where
  ratio n m := Float.ofNat n / Float.ofNat m
  weigh s structural depth := s * (if structural then 1.0 else 0.5) / Float.ofNat (1 + depth)
  shown s := s
  decidableLE := inferInstance
  decidableLT := inferInstance

instance : Score Rat where
  ratio n m := (n : Rat) / (m : Rat)
  weigh s structural depth := s * (if structural then 1 else 1 / 2) / ((1 + depth : Nat) : Rat)
  shown s := Float.ofInt s.num / Float.ofNat s.den
  decidableLE := inferInstance
  decidableLT := inferInstance

end Criteria.Schema
