import Criteria.Decimal.Layout
import Criteria.Text.Quoted

namespace Criteria.Trace

inductive Level where
  | trace
  | debug
  | warn
  deriving DecidableEq, Repr

def Level.rank : Level → Nat
  | .trace => 0
  | .debug => 1
  | .warn => 2

def Level.name : Level → String
  | .trace => "TRACE"
  | .debug => "DEBUG"
  | .warn => "WARN"

inductive Datum where
  | bare (text : String)
  | quoted (text : String)
  | real (x : Float)
  | count (n : Nat)
  deriving DecidableEq

structure Event where
  level : Level
  message : String
  fields : List (String × Datum) := []
  deriving DecidableEq

def layout : Decimal.Layout where
  positionalFrom := some (-4)
  positionalTo := some 15
  whole := ".0"
  raised := ""
  notANumber := "NaN"
  infinite := "inf"
  tie := .upward

def Datum.text : Datum → String
  | .bare text => text
  | .quoted text => Text.Quoted.quoted text
  | .real x => layout.write x
  | .count n => toString n

def shown (c : Char) : List Char :=
  if ['\x07', '\x08', '\x0c', '\x1b', '\x7f'].contains c then
    ['\\', 'x', Nat.digitChar (c.toNat / 16), Nat.digitChar (c.toNat % 16)]
  else if 0x80 ≤ c.toNat ∧ c.toNat ≤ 0x9F then
    ['\\', 'u', '\x7b'] ++ Text.Quoted.hexDigits c.toNat ++ ['\x7d']
  else [c]

def Event.shownMessage (e : Event) : String :=
  String.ofList (e.message.toList.flatMap shown)

def Event.line (e : Event) : String :=
  String.intercalate " "
    ([e.level.name, e.shownMessage] ++ e.fields.map (fun (name, d) => name ++ "=" ++ d.text))

def Event.visible (threshold : Level) (e : Event) : Bool :=
  threshold.rank ≤ e.level.rank

theorem visible_trace (e : Event) : e.visible .trace = true := by
  simp [Event.visible, Level.rank]

end Criteria.Trace
