import Criteria.Text.Cut
import Criteria.Toml.Draft
import Criteria.Toml.Lexeme
import Criteria.Toml.Scalar

namespace Criteria.Toml

inductive Cell where
  | mark (l : Lexeme)
  | value (v : Value)

namespace Cell

def isMark (l : Lexeme) : Cell → Bool
  | .mark m => m = l
  | .value _ => false

def idle : Cell → Bool
  | .mark (.blank _) => true
  | .mark .newline => true
  | _ => false

def isBlank : Cell → Bool
  | .mark (.blank _) => true
  | _ => false

def trimmed (loose : Cell → Bool) (cells : List Cell) : List Cell :=
  ((cells.dropWhile loose).reverse.dropWhile loose).reverse

def piece? : Cell → Option String
  | .mark (.word w) => some w
  | .mark .dot => some "."
  | .mark (.blank true) => some " "
  | _ => none

def spelled? (cells : List Cell) : Option Value := do
  let pieces ← cells.mapM piece?
  Scalar.read (String.join pieces)

def single? (cells : List Cell) : Option Value :=
  match trimmed isBlank cells with
  | [] => none
  | [.value v] => some v
  | [.mark (.text body _)] => some (.text body)
  | cells => spelled? cells

def bare (w : String) : Bool :=
  w.toList.all (fun c => c.isAlphanum || c = '_' || c = '-')

def name? : Cell → Option String
  | .mark (.word w) => if bare w then some w else none
  | .mark (.text body false) => some body
  | _ => none

def longest : Nat := 80

def route? (cells : List Cell) : Option (List String) := do
  let route ← (Text.cut (isMark .dot) cells).mapM (fun part =>
    match part.filter (fun c => !isBlank c) with
    | [c] => name? c
    | _ => none)
  if route.length ≤ longest then return route else none

def pair? (cells : List Cell) : Option (List String × Value) :=
  match Text.cut (isMark .equals) cells with
  | [key, given] => do
      let route ← route? (trimmed idle key)
      let v ← single? (trimmed idle given)
      return (route, v)
  | _ => none

def parts (cells : List Cell) : List (List Cell) :=
  let all := (Text.cut (isMark .comma) cells).map (trimmed idle)
  if all.getLast?.all List.isEmpty then all.dropLast else all

def list? (cells : List Cell) : Option Value := do
  let items ← (parts cells).mapM single?
  return .array items

def table? (cells : List Cell) : Option Value := do
  let pairs ← (parts cells).mapM pair?
  let entries ← pairs.foldlM (fun entries (route, v) => Draft.assign route v entries) []
  return .table (Draft.settleAll entries)

end Cell

inductive Bracket where
  | list
  | table
  deriving DecidableEq

def Bracket.close? : Bracket → List Cell → Option Value
  | .list, cells => Cell.list? cells
  | .table, cells => Cell.table? cells

structure Nest where
  outer : List (Bracket × List Cell) := []
  cells : List Cell := []

namespace Nest

def deepest : Nat := 80

def enter (b : Bracket) (n : Nest) : Option Nest :=
  if n.outer.length < deepest then some ⟨(b, n.cells) :: n.outer, []⟩ else none

def leave (b : Bracket) (n : Nest) : Option Nest :=
  match n.outer with
  | (c, outer) :: rest =>
      if c = b then (b.close? n.cells.reverse).map (fun v => ⟨rest, .value v :: outer⟩) else none
  | [] => none

def step (n : Nest) : Lexeme → Option Nest
  | .openList => n.enter .list
  | .closeList => n.leave .list
  | .openTable => n.enter .table
  | .closeTable => n.leave .table
  | .broken => none
  | l => some { n with cells := .mark l :: n.cells }

def gather (ls : List Lexeme) : Option (List Cell) := do
  let n ← ls.foldlM step {}
  if n.outer.isEmpty then return n.cells.reverse else none

end Nest

namespace Statement

def shift (depth : Nat) : Lexeme → Nat
  | .openList | .openTable => depth + 1
  | .closeList | .closeTable => depth - 1
  | _ => depth

def split (depth : Nat) : List Lexeme → List (List Lexeme)
  | [] => [[]]
  | l :: ls =>
      if depth = 0 && l = .newline then [] :: split 0 ls
      else match split (shift depth l) ls with
        | [] => [[l]]
        | s :: rest => (l :: s) :: rest

def isBlank : Lexeme → Bool
  | .blank _ => true
  | _ => false

def trimmed (ls : List Lexeme) : List Lexeme :=
  ((ls.dropWhile isBlank).reverse.dropWhile isBlank).reverse

def heading? (ls : List Lexeme) : Option (List String) :=
  Cell.route? (ls.map .mark)

def apply (p : Page) (ls : List Lexeme) : Option Page :=
  match trimmed ls with
  | [] => some p
  | .openList :: .openList :: rest =>
      match rest.reverse with
      | .closeList :: .closeList :: inner => do
          let route ← heading? inner.reverse
          p.declare true route
      | _ => none
  | .openList :: rest =>
      match rest.reverse with
      | .closeList :: inner => do
          let route ← heading? inner.reverse
          p.declare false route
      | _ => none
  | ls => do
      let cells ← Nest.gather ls
      let (route, v) ← Cell.pair? cells
      p.assign route v

end Statement

def read (text : String) : Option Table := do
  let p ← (Statement.split 0 (Lexeme.lex text)).foldlM Statement.apply {}
  return p.finish

end Criteria.Toml
