import Criteria.Decimal.Magnitude

namespace Criteria.Decimal

structure Digits where
  significand : Nat
  exponent : Int
  deriving DecidableEq, Repr

def digitCount (n : Nat) : Nat :=
  (Nat.toDigits 10 n).length

def pointPosition (v : Ratio) : Int :=
  if v.den ≤ v.num then digitCount (v.num / v.den)
  else 1 - digitCount ((v.den - 1) / v.num)

structure Interval where
  low : Ratio
  high : Ratio
  closed : Bool

def Interval.holds (i : Interval) (v : Ratio) : Bool :=
  if i.closed then i.low.le v && v.le i.high else i.low.lt v && v.lt i.high

def interval (significand : Nat) (exponent : Int) : Interval :=
  let below := if significand = Nat.pow 2 52 ∧ exponent > -1074 then 1 else 2
  { low := .scaled (4 * significand - below) 2 (exponent - 2)
    high := .scaled (4 * significand + 2) 2 (exponent - 2)
    closed := significand % 2 = 0 }

def floorOn (v : Ratio) (grid : Int) : Nat :=
  match grid with
  | .ofNat k => v.num / (v.den * Nat.pow 10 k)
  | .negSucc k => v.num * Nat.pow 10 (k + 1) / v.den

inductive Tie where
  | toEven
  | upward
  deriving DecidableEq, Repr

def Tie.below (t : Tie) (below : Nat) : Bool :=
  match t with
  | .toEven => below % 2 = 0
  | .upward => false

def nearerBelow (t : Tie) (v : Ratio) (below : Nat) (grid : Int) : Bool :=
  let middle := Ratio.scaled (2 * below + 1) 10 grid
  let twice : Ratio := ⟨2 * v.num, v.den⟩
  twice.lt middle || (twice.le middle && t.below below)

def onGrid (t : Tie) (i : Interval) (v : Ratio) (grid : Int) : Option Digits :=
  let below := floorOn v grid
  let low := i.holds (.scaled below 10 grid)
  let high := i.holds (.scaled (below + 1) 10 grid)
  if low && high then
    some ⟨if nearerBelow t v below grid then below else below + 1, grid⟩
  else if low then some ⟨below, grid⟩
  else if high then some ⟨below + 1, grid⟩
  else none

def stripZeros : Nat → Digits → Digits
  | 0, d => d
  | fuel + 1, d =>
      if d.significand ≠ 0 ∧ d.significand % 10 = 0 then
        stripZeros fuel ⟨d.significand / 10, d.exponent + 1⟩
      else d

def shortest (t : Tie) (significand : Nat) (exponent : Int) : Digits :=
  if significand = 0 then ⟨0, 0⟩
  else
    let v := Ratio.scaled significand 2 exponent
    let i := interval significand exponent
    let point := pointPosition v
    let hit := (List.range 17).findSome? (fun n : Nat => onGrid t i v (point - (n + 1)))
    stripZeros 20 (hit.getD ⟨floorOn v (point - 17), point - 17⟩)

end Criteria.Decimal
