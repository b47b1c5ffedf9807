import Criteria.Decimal.Shortest

namespace Criteria.Decimal

structure Layout where
  positionalFrom : Option Int
  positionalTo : Option Int
  whole : String
  raised : String
  notANumber : String
  infinite : String
  tie : Tie

def Layout.positional (l : Layout) (leading : Int) : Bool :=
  l.positionalFrom.all (· ≤ leading) && l.positionalTo.all (leading ≤ ·)

def zeros (n : Nat) : String :=
  String.ofList (List.replicate n '0')

def Layout.digits (l : Layout) (d : Digits) : String :=
  let text := toString d.significand
  let leading := (text.length : Int) - 1 + d.exponent
  if l.positional leading then
    match d.exponent with
    | .ofNat k => text ++ zeros k ++ l.whole
    | .negSucc k =>
        let cs := text.toList
        if k + 1 < cs.length then
          String.ofList (cs.take (cs.length - (k + 1))) ++ "." ++
            String.ofList (cs.drop (cs.length - (k + 1)))
        else "0." ++ zeros (k + 1 - cs.length) ++ text
  else
    let mantissa := match text.toList with
      | [] => ""
      | [c] => String.singleton c
      | c :: cs => String.singleton c ++ "." ++ String.ofList cs
    let mark := match leading with
      | .ofNat k => l.raised ++ toString k
      | .negSucc k => "-" ++ toString (k + 1)
    mantissa ++ "e" ++ mark

def Layout.write (l : Layout) (x : Float) : String :=
  match magnitude x with
  | .notANumber => l.notANumber
  | .infinite => if negative x then "-" ++ l.infinite else l.infinite
  | .finite m e =>
      let text := l.digits (shortest l.tie m e)
      if negative x then "-" ++ text else text

def plain : Layout where
  positionalFrom := none
  positionalTo := none
  whole := ""
  raised := ""
  notANumber := "NaN"
  infinite := "inf"
  tie := .upward

def fixed (places : Nat) (x : Float) : String :=
  match magnitude x with
  | .notANumber => plain.notANumber
  | .infinite => if negative x then "-" ++ plain.infinite else plain.infinite
  | .finite m e =>
      let v := Ratio.scaled m 2 e
      let n := roundEven (v.num * Nat.pow 10 places) v.den
      let whole := toString (n / Nat.pow 10 places)
      let rest := toString (n % Nat.pow 10 places)
      let body := if places = 0 then whole
        else whole ++ "." ++ zeros (places - rest.length) ++ rest
      if negative x then "-" ++ body else body

end Criteria.Decimal
