namespace Criteria.Decimal

def limit : Nat := 800

def ofDecimal (negative : Bool) (significand : Nat) (exponent : Int) : Float :=
  let width := (Nat.toDigits 10 significand).length
  let size :=
    if significand = 0 then 0.0
    else if exponent + width > limit then (1.0 : Float) / 0.0
    else if exponent + width < -limit then 0.0
    else match exponent with
      | .ofNat k => Float.ofScientific significand false k
      | .negSucc k => Float.ofScientific significand true (k + 1)
  if negative then -size else size

def digitValue (c : Char) : Nat :=
  c.toNat - '0'.toNat

def numeral (base : Nat) (digits : List Nat) : Nat :=
  digits.foldl (fun n d => n * base + d) 0

theorem numeral_concat (base : Nat) (digits : List Nat) (d : Nat) :
    numeral base (digits ++ [d]) = numeral base digits * base + d := by
  simp [numeral]

def hexValue? (c : Char) : Option Nat :=
  if '0' ≤ c ∧ c ≤ '9' then some (c.toNat - '0'.toNat)
  else if 'a' ≤ c ∧ c ≤ 'f' then some (c.toNat - 'a'.toNat + 10)
  else if 'A' ≤ c ∧ c ≤ 'F' then some (c.toNat - 'A'.toNat + 10)
  else none

end Criteria.Decimal
