import Criteria.Decimal.Layout
import Criteria.Toml.Reader

namespace Criteria.Toml

namespace Quoted

def unwritable (c : Char) : Bool :=
  Lexeme.control c && c ≠ '\n'

def runs (quote : Char) (current : Nat) : List Char → Nat
  | [] => current
  | c :: cs =>
      if c = quote then runs quote (current + 1) cs else max current (runs quote 0 cs)

theorem le_runs (quote : Char) (cs : List Char) (n : Nat) : n ≤ runs quote n cs := by
  induction cs generalizing n with
  | nil => exact Nat.le_refl n
  | cons c cs ih =>
      simp only [runs]
      split
      · exact Nat.le_trans (Nat.le_succ n) (ih (n + 1))
      · exact Nat.le_max_left ..

def hexDigits (n : Nat) : List Char :=
  let digits := (Nat.toDigits 16 n).map Char.toUpper
  List.replicate (4 - digits.length) '0' ++ digits

def escaped (c : Char) : List Char :=
  match c with
  | '\\' => ['\\', '\\']
  | '\x08' => ['\\', 'b']
  | '\t' => ['\\', 't']
  | '\x0c' => ['\\', 'f']
  | '\r' => ['\\', 'r']
  | c => if unwritable c then ['\\', 'u'] ++ hexDigits c.toNat else [c]

def spaced (gap count : Nat) : List Char → List Char
  | [] => []
  | '"' :: cs =>
      if count = gap then ['\\', '"'] ++ spaced gap 0 cs else '"' :: spaced gap (count + 1) cs
  | c :: cs => escaped c ++ spaced gap 0 cs

inductive Form where
  | lineBasic
  | lineLiteral
  | blockBasic
  | blockLiteral
  deriving DecidableEq, Repr

def form (cs : List Char) : Form :=
  let clean := !cs.any unwritable
  let one := !cs.contains '\n'
  if clean && one && !cs.contains '\\' && !cs.contains '"' then .lineBasic
  else if clean && one && !cs.contains '\'' then .lineLiteral
  else if clean && !cs.contains '\\' && runs '"' 0 cs < 3 then .blockBasic
  else if clean && runs '\'' 0 cs < 3 then .blockLiteral
  else if one then .lineBasic
  else .blockBasic

def opening (cs : List Char) : String :=
  if cs.contains '\n' then "\n" else ""

def write (text : String) : String :=
  let cs := text.toList
  match form cs with
  | .lineBasic => "\"" ++ String.ofList (spaced 0 0 cs) ++ "\""
  | .lineLiteral => "'" ++ text ++ "'"
  | .blockBasic => "\"\"\"" ++ opening cs ++ String.ofList (spaced 2 0 cs) ++ "\"\"\""
  | .blockLiteral => "'''" ++ opening cs ++ text ++ "'''"

end Quoted

def layout : Decimal.Layout :=
  { Decimal.plain with whole := ".0", notANumber := "nan" }

def key (name : String) : String :=
  if name.isEmpty || !Cell.bare name then Quoted.write name else name

namespace Value

mutual
def inline : Value → String
  | .bool b => if b then "true" else "false"
  | .integer n => toString n
  | .real x => layout.write x
  | .text s => Quoted.write s
  | .moment s => s
  | .array items => "[" ++ String.intercalate ", " (inlineItems items) ++ "]"
  | .table entries => "\x7b " ++ String.intercalate ", " (inlineEntries entries) ++ " \x7d"
def inlineItems : List Value → List String
  | [] => []
  | v :: vs => inline v :: inlineItems vs
def inlineEntries : List (String × Value) → List String
  | [] => []
  | (name, v) :: rest => (key name ++ " = " ++ inline v) :: inlineEntries rest
end

def line : Value → String
  | .array (v :: w :: rest) =>
      "[\n" ++ String.join ((inlineItems (v :: w :: rest)).map (fun s => "    " ++ s ++ ",\n")) ++ "]"
  | v => inline v

end Value

namespace Table

def pairLines (t : Table) : String :=
  String.join (t.map (fun (name, v) => key name ++ " = " ++ v.line ++ "\n"))

def sections : Table → List String
  | [] => []
  | (name, .table entries) :: rest =>
      ("[" ++ key name ++ "]\n" ++ pairLines entries) :: sections rest
  | _ :: rest => sections rest

def loose (t : Table) : Table :=
  t.filter (fun e => match e.2 with
    | .table _ => false
    | _ => true)

def write (t : Table) : String :=
  let head := if t.loose.isEmpty then [] else [pairLines t.loose]
  String.intercalate "\n" (head ++ t.sections)

end Table

end Criteria.Toml
