import Criteria.Query.Token
import Criteria.Text.Search

namespace Criteria.Query

inductive QueryError where
  | mismatchedParentheses
  | noOperands (connective : Connective)
  | strayParenthesis
  | nodesLeft (count : Nat)
  deriving DecidableEq, Repr

namespace QueryError

def detail : QueryError → String
  | .mismatchedParentheses => "mismatched parentheses"
  | .noOperands c => "operator " ++ c.name ++ " has no operands"
  | .strayParenthesis => "parenthesis in postfix sequence"
  | .nodesLeft n => toString n ++ " nodes left after reduction, expected 1"

def isSyntactic : QueryError → Bool
  | .mismatchedParentheses => true
  | _ => false

def message (e : QueryError) : String :=
  (if e.isSyntactic then "syntax error: " else "invalid expression: ") ++ e.detail

def reductionHint (detail : String) : Option String :=
  if Text.contains detail "operator" then
    some "Operators need an operand on each side, e.g. [a, and, b]"
  else none

def suggestion (e : QueryError) : Option String :=
  if e.isSyntactic then some "Every \"open\" token needs a matching \"close\" token"
  else reductionHint e.detail

end QueryError

end Criteria.Query
