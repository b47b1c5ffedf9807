import Criteria.Json.Value

namespace Criteria.Query

inductive Comparison where
  | lessThan
  | lessThanOrEqual
  | greaterThan
  | greaterThanOrEqual
  | equal
  | notEqual
  | between
  | notBetween
  | isIn
  | notIn
  | startsWith
  | endsWith
  | contains
  | regex
  | notNull
  | isNull
  | present
  | search
  | startsWithNot
  | endsWithNot
  | containsNot
  | regexNot
  | autocomplete
  | phrase
  | notDefined
  deriving DecidableEq, Repr

def Comparison.expression : Comparison → String
  | .lessThan => "<"
  | .lessThanOrEqual => "<="
  | .greaterThan => ">"
  | .greaterThanOrEqual => ">="
  | .equal => "="
  | .notEqual => "!="
  | .between => "IS_BETWEEN"
  | .notBetween => "IS_NOT_BETWEEN"
  | .isIn => "IN"
  | .notIn => "NOT_IN"
  | .startsWith => "STARTS_WITH"
  | .endsWith => "ENDS_WITH"
  | .contains => "CONTAINS"
  | .regex => "~"
  | .notNull => "NOT_NULL"
  | .isNull => "IS_NULL"
  | .present => "EXIST"
  | .search => "SEARCH"
  | .startsWithNot => "STARTS_WITH_NOT"
  | .endsWithNot => "ENDS_WITH_NOT"
  | .containsNot => "CONTAINS_NOT"
  | .regexNot => "REGEX_NOT"
  | .autocomplete => "AUTOCOMPLETE"
  | .phrase => "PHRASE"
  | .notDefined => "NOT_DEFINED"

def Comparison.all : List Comparison :=
  [.lessThan, .lessThanOrEqual, .greaterThan, .greaterThanOrEqual, .equal, .notEqual, .between,
    .notBetween, .isIn, .notIn, .startsWith, .endsWith, .contains, .regex, .notNull, .isNull,
    .present, .search, .startsWithNot, .endsWithNot, .containsNot, .regexNot, .autocomplete,
    .phrase, .notDefined]

theorem Comparison.mem_all (c : Comparison) : c ∈ Comparison.all := by
  cases c <;> decide

def Comparison.ofExpression (expression : String) : Comparison :=
  (Comparison.all.find? (fun c => c.expression = expression)).getD .notDefined

theorem Comparison.ofExpression_expression (c : Comparison) :
    Comparison.ofExpression c.expression = c := by
  cases c <;> decide

structure Modifiers where
  tokenOrder : Option String := none
  fuzzy : Option Json.Value := none
  score : Option Json.Value := none
  minGrams : Option UInt32 := none
  maxGrams : Option UInt32 := none
  slop : Option UInt32 := none
  deriving DecidableEq

structure Operand where
  field : String
  comparison : Option Comparison
  value : Json.Value := .null
  includeBlanks : Bool := false
  modifiers : Modifiers := {}
  deriving DecidableEq

def Operand.compare (field : String) (comparison : Comparison) (value : Json.Value) : Operand :=
  { field := field, comparison := some comparison, value := value }

def Operand.present (field : String) : Operand :=
  { field := field, comparison := none }

inductive Connective where
  | and
  | or
  deriving DecidableEq, Repr

def Connective.precedence : Connective → Nat
  | .and => 2
  | .or => 1

def Connective.keyword : Connective → String
  | .and => "must"
  | .or => "should"

def Connective.name : Connective → String
  | .and => "AND"
  | .or => "OR"

structure Operator where
  connective : Connective
  separate : Bool := false
  deriving DecidableEq, Repr

inductive Token (α : Type) where
  | operand (a : α)
  | operator (o : Operator)
  | opening
  | closing
  deriving DecidableEq

namespace Token

variable {α β : Type}

def map (f : α → β) : Token α → Token β
  | .operand a => .operand (f a)
  | .operator o => .operator o
  | .opening => .opening
  | .closing => .closing

def operand? : Token α → Option α
  | .operand a => some a
  | _ => none

def parenthesis : Token α → Bool
  | .opening => true
  | .closing => true
  | _ => false

def text (name : α → String) : Token α → String
  | .operand a => name a
  | .operator o => o.connective.name
  | .opening => "("
  | .closing => ")"

def line (name : α → String) (tokens : List (Token α)) : String :=
  String.intercalate " " (tokens.map (text name))

def operands (tokens : List (Token α)) : List α :=
  tokens.filterMap operand?

@[simp]
theorem operands_nil : operands ([] : List (Token α)) = [] := rfl

@[simp]
theorem operands_operand (a : α) (tokens : List (Token α)) :
    operands (.operand a :: tokens) = a :: operands tokens := rfl

@[simp]
theorem operands_operator (o : Operator) (tokens : List (Token α)) :
    operands (.operator o :: tokens) = operands tokens := rfl

@[simp]
theorem operands_opening (tokens : List (Token α)) :
    operands (.opening :: tokens) = operands tokens := rfl

@[simp]
theorem operands_closing (tokens : List (Token α)) :
    operands (.closing :: tokens) = operands tokens := rfl

@[simp]
theorem operands_append (s t : List (Token α)) : operands (s ++ t) = operands s ++ operands t := by
  simp [operands]

theorem operands_map (f : α → β) (tokens : List (Token α)) :
    operands (tokens.map (map f)) = (operands tokens).map f := by
  induction tokens with
  | nil => rfl
  | cons t ts ih =>
      simp only [operands] at ih
      cases t <;> simp [operands, map, operand?, List.filterMap_cons, ih]

end Token

end Criteria.Query
