import Criteria.Search.Clause
import Criteria.Search.Error
import Criteria.Json.Writer
import Criteria.Schema.Resolve

namespace Criteria.Search

open Json (Value Members)
open Query (Comparison Operand)
open Schema (Node Resolution)

structure Context where
  node : Node
  parentIsList : Bool := false
  deriving DecidableEq

def Context.ofResolution {σ : Type} (r : Resolution σ) : Context :=
  ⟨r.node, r.parentIsList⟩

inductive TypeClass where
  | numeric
  | text
  deriving DecidableEq, Repr

def lowercase (tag : String) : String :=
  String.ofList (tag.toList.map Char.toLower)

def TypeClass.of? (tag : String) : Option TypeClass :=
  let tag := lowercase tag
  if ["int", "integer", "long", "double", "float", "number"].contains tag then some .numeric
  else if tag = "string" then some .text
  else none

def TypeClass.default : TypeClass → Value
  | .numeric => .integer 0
  | .text => .string ""

def Context.typeClass (c : Context) : Option TypeClass :=
  TypeClass.of? c.node.tag

def isNullDocument (field : String) (c : Context) : Value :=
  compound "should"
    ([equalsClause field .null, negate (existsClause field)] ++
      (c.typeClass.map (fun t => equalsClause field t.default)).toList)

def leastInteger : Int := -2147483648

def listExclusion (field : String) (c : Context) : Option Value :=
  match c.typeClass with
  | some .numeric => some (rangeClause [("gt", .integer leastInteger)] field)
  | some .text => some (anyTextClause field)
  | none => c.node.children.head?.map (fun first => existsClause (field ++ "." ++ first.name))

def blankExclusion (field : String) (c : Context) : Option Value :=
  if c.node.list then listExclusion field c
  else c.typeClass.map (fun t => equalsClause field t.default)

def notNullDocument (field : String) (c : Context) : Value :=
  requiring [existsClause field] (equalsClause field .null :: (blankExclusion field c).toList)

structure Lowering where
  lower : Operand → Context → Except CompileError Clause
  isNull : String → Context → Value := isNullDocument
  notNull : String → Context → Value := notNullDocument

namespace Lowering

def range (field bound : String) (value : Value) : Except CompileError Value :=
  match value with
  | .null => .error (.invalidValue field ("range comparison '" ++ bound ++ "' needs a value"))
  | value => .ok (rangeClause [(bound, value)] field)

def between (field : String) : Value → Except CompileError Value
  | .array [low, high] => .ok (rangeClause [("gte", low), ("lte", high)] field)
  | _ => .error (.invalidValue field "between needs exactly two bounds")

def equality (field : String) (value : Value) : Value :=
  match value with
  | .bool _ => equalsClause field value
  | .number _ => equalsClause field value
  | .null => equalsClause field value
  | _ => textClause field value

def listed : Value → List Value
  | .array values => values
  | .null => []
  | value => [value]

def membership (field : String) (value : Value) : Except CompileError Value :=
  let values := listed value
  match values with
  | [] => .error (.invalidValue field "membership needs at least one value")
  | .string _ :: _ => .ok (textClause field (.array values))
  | .number _ :: _ => .ok (inClause field values)
  | .bool _ :: _ => .ok (inClause field values)
  | .object _ :: _ => .ok (inClause field values)
  | other :: _ => .error (.invalidValue field ("unsupported membership value " ++ other.compact))

inductive Affix where
  | leading
  | trailing
  | inner
  deriving DecidableEq, Repr

def Affix.pattern (text : String) : Affix → String
  | .leading => text ++ "*"
  | .trailing => "*" ++ text
  | .inner => "*" ++ text ++ "*"

def patterns (field : String) (affix : Affix) : List Value → Except CompileError (List Value)
  | [] => .ok []
  | .string text :: rest => do
      let ps ← patterns field affix rest
      return .string (affix.pattern text) :: ps
  | _ :: _ => .error (.invalidValue field "wildcard patterns must be strings")

def wildcard (field : String) (affix : Affix) (value : Value) : Except CompileError Value :=
  match value with
  | .string text => .ok (wildcardClause field (.string (affix.pattern text)))
  | .array (first :: rest) => do
      let ps ← patterns field affix (first :: rest)
      return wildcardClause field (.array ps)
  | _ => .error (.invalidValue field "wildcard needs a string or a non-empty list of strings")

def queryText (field : String) : Value → Except CompileError String
  | .string text => .ok text
  | .null => .error (.invalidValue field "autocomplete needs a query")
  | other => .ok other.compact

def autocomplete (o : Operand) : Except CompileError Value := do
  let query ← queryText o.field o.value
  let m := o.modifiers
  return record "autocomplete"
    (Members.optional "fuzzy" m.fuzzy ++
      Members.optional "maxGrams" (m.maxGrams.map (fun n => .integer n.toNat)) ++
      Members.optional "minGrams" (m.minGrams.map (fun n => .integer n.toNat)) ++
      [("path", .string o.field), ("query", .string query)] ++
      Members.optional "score" m.score ++
      Members.optional "tokenOrder" (m.tokenOrder.map .string))

def phraseQuery : Value → Bool
  | .string _ => true
  | .array (first :: rest) => (first :: rest).all Value.isString
  | _ => false

def phrase (o : Operand) : Except CompileError Value :=
  if phraseQuery o.value then .ok (phraseClause o.field o.value (o.modifiers.slop.getD 0).toNat)
  else .error (.invalidValue o.field "phrase needs a string or a list of strings")

def compare (c : Comparison) (o : Operand) (ctx : Context) : Except CompileError Clause :=
  let field := o.field
  let value := o.value
  match c with
  | .lessThan => (range field "lt" value).map .positive
  | .lessThanOrEqual => (range field "lte" value).map .positive
  | .greaterThan => (range field "gt" value).map .positive
  | .greaterThanOrEqual => (range field "gte" value).map .positive
  | .equal => .ok (.positive (equality field value))
  | .notEqual => .ok (.negative (equality field value))
  | .between => (between field value).map .positive
  | .notBetween => (between field value).map .negative
  | .isIn => (membership field value).map .positive
  | .notIn => (membership field value).map .negative
  | .startsWith => (wildcard field .leading value).map .positive
  | .endsWith => (wildcard field .trailing value).map .positive
  | .contains => (wildcard field .inner value).map .positive
  | .regex => (wildcard field .inner value).map .positive
  | .startsWithNot => (wildcard field .leading value).map .negative
  | .endsWithNot => (wildcard field .trailing value).map .negative
  | .containsNot => (wildcard field .inner value).map .negative
  | .present => .ok (.positive (existsClause field))
  | .isNull => .ok (.positive (isNullDocument field ctx))
  | .notNull => .ok (.positive (notNullDocument field ctx))
  | .autocomplete => (autocomplete o).map .positive
  | .phrase => (phrase o).map .positive
  | .search => .error (.unsupported c)
  | .regexNot => .error (.unsupported c)
  | .notDefined => .error (.unsupported c)

def lowerOperand (o : Operand) (ctx : Context) : Except CompileError Clause :=
  match o.comparison with
  | none => .ok (.positive (notNullDocument o.field ctx))
  | some c => compare c o ctx

def standard : Lowering where
  lower := lowerOperand

def overriding (l : Lowering) (override? : Operand → Option Clause) : Lowering where
  lower o ctx := (override? o).elim (l.lower o ctx) .ok

end Lowering

end Criteria.Search
