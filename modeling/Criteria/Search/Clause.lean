import Criteria.Json.Value

namespace Criteria.Search

open Json (Value Members)

def record (kind : String) (body : Members) : Value :=
  .object [(kind, .object body)]

def existsClause (field : String) : Value :=
  record "exists" [("path", .string field)]

def equalsClause (field : String) (value : Value) : Value :=
  record "equals" [("path", .string field), ("value", value)]

def textClause (field : String) (query : Value) : Value :=
  record "text" [("path", .string field), ("query", query)]

def inClause (field : String) (values : List Value) : Value :=
  record "in" [("path", .string field), ("value", .array values)]

def rangeClause (bounds : Members) (field : String) : Value :=
  record "range" (bounds ++ [("path", .string field)])

def wildcardClause (field : String) (query : Value) : Value :=
  record "wildcard" [("allowAnalyzedField", .bool true), ("path", .string field), ("query", query)]

def anyTextClause (field : String) : Value :=
  record "text" [("path", .string field), ("query", .string "*"), ("wildcard", .bool true)]

def phraseClause (field : String) (query : Value) (slop : Nat) : Value :=
  record "phrase" [("path", .string field), ("query", query), ("slop", .integer slop)]

def compound (keyword : String) (clauses : List Value) : Value :=
  record "compound" [(keyword, .array clauses)]

def requiring (must mustNot : List Value) : Value :=
  record "compound" [("must", .array must), ("mustNot", .array mustNot)]

def negate (clause : Value) : Value :=
  compound "mustNot" [clause]

def embeddedDocument (path : String) (operator : Value) : Value :=
  record "embeddedDocument" [("operator", operator), ("path", .string path)]

structure Clause where
  document : Value
  negated : Bool := false
  deriving DecidableEq

def Clause.positive (document : Value) : Clause :=
  { document := document }

def Clause.negative (document : Value) : Clause :=
  { document := document, negated := true }

def Clause.final (c : Clause) : Value :=
  if c.negated then negate c.document else c.document

theorem record_not_blank (kind : String) (body : Members) : (record kind body).blank = false := rfl

end Criteria.Search
