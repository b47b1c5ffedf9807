import Criteria.Decimal.Magnitude
import Criteria.Decimal.Reading
import Criteria.Text.Cut
import Criteria.Toml.Value

namespace Criteria.Toml.Scalar

def octal (c : Char) : Bool :=
  '0' ≤ c && c ≤ '7'

def binary (c : Char) : Bool :=
  c = '0' || c = '1'

def grouped? (digit : Char → Bool) (cs : List Char) : Option (List Nat) :=
  let groups := Text.cut (· = '_') cs
  if groups.all (fun g => !g.isEmpty && g.all digit) then
    groups.flatten.mapM Decimal.hexValue?
  else none

def whole? (cs : List Char) : Option (List Nat) :=
  match grouped? Char.isDigit cs with
  | some (0 :: _ :: _) => none
  | digits => digits

def signed (cs : List Char) : Bool × List Char :=
  match cs with
  | '-' :: rest => (true, rest)
  | '+' :: rest => (false, rest)
  | _ => (false, cs)

def inRange (n : Int) : Bool :=
  -(Nat.pow 2 127 : Int) ≤ n && n < Nat.pow 2 128

def bounded (n : Int) : Option Value :=
  if inRange n then some (.integer n) else none

def integer? (cs : List Char) : Option Value :=
  match cs with
  | '0' :: 'x' :: rest => do
      let digits ← grouped? (fun c => (Decimal.hexValue? c).isSome) rest
      bounded (Decimal.numeral 16 digits)
  | '0' :: 'o' :: rest => do
      let digits ← grouped? octal rest
      bounded (Decimal.numeral 8 digits)
  | '0' :: 'b' :: rest => do
      let digits ← grouped? binary rest
      bounded (Decimal.numeral 2 digits)
  | _ => do
      let (negative, rest) := signed cs
      let digits ← whole? rest
      let n : Int := Decimal.numeral 10 digits
      bounded (if negative then -n else n)

def raised (c : Char) : Bool :=
  c = 'e' || c = 'E'

def exponent? (cs : List Char) : Option Int := do
  let (negative, rest) := signed cs
  let digits ← grouped? Char.isDigit rest
  let n : Int := Decimal.numeral 10 digits
  return if negative then -n else n

def finite? (x : Float) : Option Value :=
  match Decimal.magnitude x with
  | .finite _ _ => some (.real x)
  | _ => none

def decimal? (negative : Bool) (mantissa : List Char) (exponent : Int) : Option Value := do
  match Text.cut (· = '.') mantissa with
  | [whole] =>
      let digits ← whole? whole
      finite? (Decimal.ofDecimal negative (Decimal.numeral 10 digits) exponent)
  | [whole, part] =>
      let digits ← whole? whole
      let places ← grouped? Char.isDigit part
      let significand := Decimal.numeral 10 (digits ++ places)
      finite? (Decimal.ofDecimal negative significand (exponent - places.length))
  | _ => none

def real? (cs : List Char) : Option Value :=
  let (negative, rest) := signed cs
  match rest with
  | ['i', 'n', 'f'] =>
      let infinite : Float := 1.0 / 0.0
      some (.real (if negative then -infinite else infinite))
  | ['n', 'a', 'n'] => some (.real (0.0 / 0.0))
  | _ =>
      match Text.cut raised rest with
      | [mantissa] => if mantissa.contains '.' then decimal? negative mantissa 0 else none
      | [mantissa, power] => (exponent? power).bind (decimal? negative mantissa)
      | _ => none

def pair? (limit : Nat) (cs : List Char) : Option Nat :=
  match cs with
  | [a, b] =>
      let n := 10 * Decimal.digitValue a + Decimal.digitValue b
      if a.isDigit && b.isDigit && n ≤ limit then some n else none
  | _ => none

def leap (year : Nat) : Bool :=
  year % 4 = 0 && (year % 100 ≠ 0 || year % 400 = 0)

def monthLength (year month : Nat) : Nat :=
  if month = 2 then (if leap year then 29 else 28)
  else if month ∈ [4, 6, 9, 11] then 30
  else 31

def isDate (cs : List Char) : Bool :=
  match Text.cut (· = '-') cs with
  | [year, month, day] =>
      match pair? 12 month, pair? 31 day with
      | some m, some d =>
          year.length = 4 && year.all Char.isDigit && 1 ≤ m && 1 ≤ d &&
            d ≤ monthLength (Decimal.numeral 10 (year.map Decimal.digitValue)) m
      | _, _ => false
  | _ => false

def isSeconds (cs : List Char) : Bool :=
  match Text.cut (· = '.') cs with
  | [seconds] => (pair? 60 seconds).isSome
  | [seconds, part] => (pair? 60 seconds).isSome && !part.isEmpty && part.all Char.isDigit
  | _ => false

def isTime (cs : List Char) : Bool :=
  match Text.cut (· = ':') cs with
  | [hour, minute] => (pair? 23 hour).isSome && (pair? 59 minute).isSome
  | [hour, minute, seconds] =>
      (pair? 23 hour).isSome && (pair? 59 minute).isSome && isSeconds seconds
  | _ => false

def isOffset (cs : List Char) : Bool :=
  match Text.cut (· = ':') cs with
  | [hour, minute] => (pair? 23 hour).isSome && (pair? 59 minute).isSome
  | _ => false

def isClock (cs : List Char) : Bool :=
  let time := cs.takeWhile (fun c => c.isDigit || c = ':' || c = '.')
  isTime time &&
    match cs.drop time.length with
    | [] => true
    | ['Z'] | ['z'] => true
    | '+' :: offset | '-' :: offset => isOffset offset
    | _ => false

def isMoment (cs : List Char) : Bool :=
  match cs.drop 10 with
  | [] => isDate cs || isTime cs
  | c :: clock =>
      ((c = 'T' || c = 't' || c = ' ') && isDate (cs.take 10) && isClock clock) || isTime cs

def read (text : String) : Option Value :=
  match text with
  | "true" => some (.bool true)
  | "false" => some (.bool false)
  | _ =>
      if isMoment text.toList then some (.moment text)
      else (integer? text.toList).or (real? text.toList)

end Criteria.Toml.Scalar
