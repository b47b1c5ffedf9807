import Criteria.Json.Value
import Criteria.Decimal.Layout

namespace Criteria.Json

def layout : Decimal.Layout where
  positionalFrom := some (-5)
  positionalTo := some 15
  whole := ".0"
  raised := "+"
  notANumber := "null"
  infinite := "null"
  tie := .toEven

def Number.write : Number → String
  | .integer n => toString n
  | .real x => layout.write x

def escaped (c : Char) : List Char :=
  match c with
  | '"' => ['\\', '"']
  | '\\' => ['\\', '\\']
  | '\x08' => ['\\', 'b']
  | '\x0c' => ['\\', 'f']
  | '\n' => ['\\', 'n']
  | '\r' => ['\\', 'r']
  | '\t' => ['\\', 't']
  | c =>
      if c.toNat < 0x20 then
        ['\\', 'u', '0', '0', Nat.digitChar (c.toNat / 16), Nat.digitChar (c.toNat % 16)]
      else [c]

def writeString (s : String) : String :=
  "\"" ++ String.ofList (s.toList.flatMap escaped) ++ "\""

namespace Value

mutual
def compact : Value → String
  | .null => "null"
  | .bool b => if b then "true" else "false"
  | .number n => n.write
  | .string s => writeString s
  | .array items => "[" ++ String.intercalate "," (compactItems items) ++ "]"
  | .object members => "\x7b" ++ String.intercalate "," (compactMembers members) ++ "\x7d"
def compactItems : List Value → List String
  | [] => []
  | v :: vs => compact v :: compactItems vs
def compactMembers : List (String × Value) → List String
  | [] => []
  | (k, v) :: ms => (writeString k ++ ":" ++ compact v) :: compactMembers ms
end

def indent (depth : Nat) : String :=
  "\n" ++ String.ofList (List.replicate (2 * depth) ' ')

def block (left right : String) (depth : Nat) (parts : List String) : String :=
  match parts with
  | [] => left ++ right
  | parts =>
      left ++ String.intercalate "," (parts.map (indent (depth + 1) ++ ·)) ++ indent depth ++ right

mutual
def prettyAt (depth : Nat) : Value → String
  | .null => "null"
  | .bool b => if b then "true" else "false"
  | .number n => n.write
  | .string s => writeString s
  | .array items => block "[" "]" depth (prettyItems (depth + 1) items)
  | .object members => block "\x7b" "\x7d" depth (prettyMembers (depth + 1) members)
def prettyItems (depth : Nat) : List Value → List String
  | [] => []
  | v :: vs => prettyAt depth v :: prettyItems depth vs
def prettyMembers (depth : Nat) : List (String × Value) → List String
  | [] => []
  | (k, v) :: ms => (writeString k ++ ": " ++ prettyAt depth v) :: prettyMembers depth ms
end

def pretty (v : Value) : String :=
  prettyAt 0 v

end Value

end Criteria.Json
