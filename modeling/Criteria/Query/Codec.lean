import Criteria.Query.Token
import Criteria.Json.Decoder

namespace Criteria.Query

open Json Json.Decoder

def Modifiers.members (m : Modifiers) : Members :=
  Members.optional "token_order" (m.tokenOrder.map .string) ++
    Members.optional "fuzzy" m.fuzzy ++
    Members.optional "score" m.score ++
    Members.optional "min_grams" (m.minGrams.map (fun n => .integer n.toNat)) ++
    Members.optional "max_grams" (m.maxGrams.map (fun n => .integer n.toNat)) ++
    Members.optional "slop" (m.slop.map (fun n => .integer n.toNat))

def Operand.encode (o : Operand) : Value :=
  .object (Members.gather
    ([("field", .string o.field)] ++
      Members.optional "op" (o.comparison.map (fun c => .string c.expression)) ++
      [("value", o.value)] ++
      (if o.includeBlanks then [("include_blanks", .bool true)] else []) ++
      o.modifiers.members))

def Connective.tag : Connective → String
  | .and => "and"
  | .or => "or"

def Operator.encode (o : Operator) : Value :=
  .object [("connective", .string o.connective.tag), ("separate", .bool o.separate)]

def Token.encode : Token Operand → Value
  | .operand o => .object [("operand", o.encode)]
  | .operator o => .object [("operator", o.encode)]
  | .opening => .string "open"
  | .closing => .string "close"

def encodeTokens (tokens : List (Token Operand)) : Value :=
  .array (tokens.map Token.encode)

structure ModifierDraft where
  tokenOrder : Option (Option String) := none
  fuzzy : Option (Option Value) := none
  score : Option (Option Value) := none
  minGrams : Option (Option UInt32) := none
  maxGrams : Option (Option UInt32) := none
  slop : Option (Option UInt32) := none

namespace ModifierDraft

def put (d : ModifierDraft) (key : String) (s : Source) : Result ModifierDraft :=
  match key with
  | "token_order" => do
      let slot ← once "token_order" d.tokenOrder (optional text s)
      return { d with tokenOrder := slot }
  | "fuzzy" => do
      let slot ← once "fuzzy" d.fuzzy (optional (any .inline) s)
      return { d with fuzzy := slot }
  | "score" => do
      let slot ← once "score" d.score (optional (any .inline) s)
      return { d with score := slot }
  | "min_grams" => do
      let slot ← once "min_grams" d.minGrams (optional word s)
      return { d with minGrams := slot }
  | "max_grams" => do
      let slot ← once "max_grams" d.maxGrams (optional word s)
      return { d with maxGrams := slot }
  | "slop" => do
      let slot ← once "slop" d.slop (optional word s)
      return { d with slop := slot }
  | _ => .ok d

def putAll (d : ModifierDraft) : Members → Result ModifierDraft
  | [] => .ok d
  | (key, v) :: rest => do
      let d ← d.put key (Source.ofValue v)
      putAll d rest

def finish (d : ModifierDraft) : Modifiers where
  tokenOrder := d.tokenOrder.join
  fuzzy := d.fuzzy.join
  score := d.score.join
  minGrams := d.minGrams.join
  maxGrams := d.maxGrams.join
  slop := d.slop.join

end ModifierDraft

def Modifiers.keys : List String :=
  ["token_order", "fuzzy", "score", "min_grams", "max_grams", "slop"]

def Modifiers.ofMembers (members : Members) : Result Modifiers :=
  (ModifierDraft.putAll {} members).map ModifierDraft.finish

def Modifiers.decode : Value → Result Modifiers
  | .object members => Modifiers.ofMembers members
  | .array items => do
      let modifiers ← Modifiers.ofMembers (Modifiers.keys.zip items)
      if items.length ≤ Modifiers.keys.length then return modifiers
      else surplus .inline items.length
  | v => mismatch "struct TextModifiers" (Source.ofValue v)

structure OperandDraft where
  field : Option String := none
  comparison : Option (Option Comparison) := none
  value : Option Value := none
  includeBlanks : Option Bool := none
  others : Members := []

namespace OperandDraft

def comparison? (s : Source) : Result (Option Comparison) :=
  (optional text s).map (Option.map Comparison.ofExpression)

def put (form : Form) (d : OperandDraft) (key : String) (s : Source) : Result OperandDraft :=
  match key with
  | "field" => do
      let slot ← once "field" d.field (text s)
      return { d with field := slot }
  | "op" => do
      let slot ← once "op" d.comparison (comparison? s)
      return { d with comparison := slot }
  | "comparison" => do
      let slot ← once "op" d.comparison (comparison? s)
      return { d with comparison := slot }
  | "value" => do
      let slot ← once "value" d.value (any form s)
      return { d with value := slot }
  | "include_blanks" => do
      let slot ← once "include_blanks" d.includeBlanks (flag s)
      return { d with includeBlanks := slot }
  | key => do
      let v ← any form s
      return { d with others := d.others ++ [(key, v)] }

def putAll (form : Form) (d : OperandDraft) : List (Option String × Source) → Result OperandDraft
  | [] => .ok d
  | (none, _) :: _ => .error .notJson
  | (some key, s) :: rest => do
      let d ← d.put form key s
      putAll form d rest

def finish (d : OperandDraft) : Result Operand := do
  let field ← required "field" d.field
  let modifiers ← Modifiers.ofMembers d.others
  return {
    field := field
    comparison := d.comparison.join
    value := d.value.getD .null
    includeBlanks := d.includeBlanks.getD false
    modifiers := modifiers }

end OperandDraft

def Operand.decode (form : Form) : Source → Result Operand
  | .object members ending => do
      let form ← enter form
      let d ← OperandDraft.putAll form {} members
      settle ending
      d.finish
  | s => mismatch "struct Operand" s

def Connective.decode (form : Form) : Source → Result Connective :=
  variant form ["and", "or"] (fun _ name content =>
    unitContent (if name = "and" then Connective.and else Connective.or) content)

structure OperatorDraft where
  connective : Option Connective := none
  separate : Option Bool := none

def OperatorDraft.putAll (form : Form) (d : OperatorDraft) :
    List (Option String × Source) → Result OperatorDraft
  | [] => .ok d
  | (none, _) :: _ => .error .notJson
  | (some "connective", s) :: rest => do
      let slot ← once "connective" d.connective (Connective.decode form s)
      putAll form { d with connective := slot } rest
  | (some "separate", s) :: rest => do
      let slot ← once "separate" d.separate (flag s)
      putAll form { d with separate := slot } rest
  | (some _, s) :: rest => do
      skip s
      putAll form d rest

def Operator.decode (form : Form) : Source → Result Operator
  | .object members ending => do
      let form ← enter form
      let d ← OperatorDraft.putAll form {} members
      settle ending
      let connective ← required "connective" d.connective
      return ⟨connective, d.separate.getD false⟩
  | .array items ending => do
      let form ← enter form
      match items with
      | [] =>
          settle ending
          refuse (.invalidLength 0 "struct Operator with 2 elements")
      | c :: rest =>
          let connective ← Connective.decode form c
          match rest with
          | [] =>
              settle ending
              return ⟨connective, false⟩
          | s :: rest =>
              let separate ← flag s
              if rest.isEmpty then
                settle ending
                return ⟨connective, separate⟩
              else surplus form items.length
  | s => mismatch "struct Operator" s

def Token.decode (form : Form) : Source → Result (Token Operand) :=
  variant form ["operand", "operator", "open", "close"] (fun form name content =>
    match name with
    | "operand" => newtypeContent (fun s => (Operand.decode form s).map .operand) content
    | "operator" => newtypeContent (fun s => (Operator.decode form s).map .operator) content
    | "open" => unitContent .opening content
    | _ => unitContent .closing content)

def decodeTokens (form : Form) : Source → Result (List (Token Operand))
  | .array items ending => do
      let form ← enter form
      let tokens ← items.mapM (Token.decode form)
      settle ending
      return tokens
  | s => mismatch "a sequence" s

def Operand.label (o : Operand) : String :=
  o.field ++ " " ++ ((o.comparison.map Comparison.expression).getD "NOT_NULL") ++ " " ++
    o.value.compact

end Criteria.Query
