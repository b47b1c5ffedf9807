namespace Criteria.Decimal

inductive Magnitude where
  | notANumber
  | infinite
  | finite (significand : Nat) (exponent : Int)
  deriving DecidableEq, Repr

def negative (x : Float) : Bool :=
  x.toBits >>> 63 == 1

def magnitude (x : Float) : Magnitude :=
  let bits : Nat := x.toBits.toNat
  let biased : Nat := bits / Nat.pow 2 52 % Nat.pow 2 11
  let fraction : Nat := bits % Nat.pow 2 52
  if biased = 2047 then
    if fraction = 0 then .infinite else .notANumber
  else if biased = 0 then .finite fraction (-1074)
  else .finite (Nat.pow 2 52 + fraction) (biased - 1075)

structure Ratio where
  num : Nat
  den : Nat
  deriving DecidableEq, Repr

def Ratio.scaled (n : Nat) (base : Nat) (exponent : Int) : Ratio :=
  match exponent with
  | .ofNat k => ⟨n * Nat.pow base k, 1⟩
  | .negSucc k => ⟨n, Nat.pow base (k + 1)⟩

def Ratio.le (a b : Ratio) : Bool :=
  decide (a.num * b.den ≤ b.num * a.den)

def Ratio.lt (a b : Ratio) : Bool :=
  decide (a.num * b.den < b.num * a.den)

theorem Ratio.lt_eq_not_le (a b : Ratio) : a.lt b = !b.le a := by
  rw [Bool.eq_iff_iff]
  simp [Ratio.lt, Ratio.le]

def roundEven (num den : Nat) : Nat :=
  let q := num / den
  let r := num % den
  if 2 * r > den ∨ (2 * r = den ∧ q % 2 = 1) then q + 1 else q

theorem roundEven_mul (q : Nat) {den : Nat} (h : 0 < den) : roundEven (q * den) den = q := by
  have h2 : q * den / den = q := Nat.mul_div_cancel q h
  simp only [roundEven, Nat.mul_mod_left, h2]
  split
  · omega
  · rfl

theorem roundEven_near (num : Nat) {den : Nat} (h : 0 < den) :
    2 * (roundEven num den * den) ≤ 2 * num + den ∧
      2 * num ≤ 2 * (roundEven num den * den) + den := by
  have hq := Nat.div_add_mod num den
  have hr := Nat.mod_lt num h
  rw [Nat.mul_comm] at hq
  simp only [roundEven]
  split <;> constructor <;> (try rw [Nat.add_mul]) <;> omega

end Criteria.Decimal
