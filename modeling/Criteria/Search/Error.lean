import Criteria.Query.Error

namespace Criteria.Search

open Query (Comparison QueryError)

inductive CompileError where
  | query (e : QueryError)
  | unsupported (comparison : Comparison)
  | invalidValue (field detail : String)
  | configuration (detail : String)
  | invalidArgument (detail : String)
  deriving DecidableEq

namespace CompileError

def message : CompileError → String
  | .query e => e.message
  | .unsupported c => "unsupported operation: " ++ c.expression
  | .invalidValue field detail => "invalid value for field '" ++ field ++ "': " ++ detail
  | .configuration detail => "configuration error: " ++ detail
  | .invalidArgument detail => "invalid argument: " ++ detail

def suggestion : CompileError → Option String
  | .query e => e.suggestion
  | .unsupported _ =>
      some "Supported comparisons include <, =, IN, CONTAINS, IS_NULL and AUTOCOMPLETE"
  | .invalidValue _ _ => none
  | .configuration _ => none
  | .invalidArgument _ => none

end CompileError

end Criteria.Search
