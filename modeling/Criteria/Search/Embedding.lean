import Criteria.Schema.Resolve

namespace Criteria.Search

open Schema (Resolution)
open Text

structure EmbeddingRules where
  flat : List String := []
  embedded : List String := []
  deriving DecidableEq

namespace EmbeddingRules

def schemaOnly : EmbeddingRules := {}

def standard : EmbeddingRules where
  flat := ["standaloneFinancialInfo", "consolidatedFinancialInfo"]
  embedded := ["investmentInfo", "linkedCompanies"]

def covers (stems : List String) (field : String) : Bool :=
  stems.any (Dotted.begins field)

def aligned (field canonical : String) : Bool :=
  (Dotted.segments field).length = (Dotted.segments canonical).length

def classify {σ : Type} (rules : EmbeddingRules) (field : String) (r : Resolution σ) :
    Option String :=
  if covers rules.flat field then none
  else match Dotted.owner? field with
    | none => none
    | some owner =>
        if covers rules.embedded field then some (Dotted.head field)
        else if r.embedded then
          if aligned field r.canonicalPath then some owner else Dotted.owner? r.canonicalPath
        else none

end EmbeddingRules

end Criteria.Search
