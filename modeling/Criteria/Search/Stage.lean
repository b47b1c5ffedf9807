import Criteria.Search.Error
import Criteria.Json.Value
import Criteria.Text.Blank

namespace Criteria.Search

open Json (Value Members)

inductive SortOrder where
  | ascending
  | descending
  deriving DecidableEq, Repr

def SortOrder.direction : SortOrder → Int
  | .ascending => 1
  | .descending => -1

def lift : Value → Members
  | .object members => members
  | _ => []

def missingCriteria (step : String) : CompileError :=
  .configuration (step ++ " requires criteria; call with_criteria first")

def totalCount : Value :=
  .object [("type", .string "total")]

structure SearchStage where
  index : String
  body : Option Members := none
  deriving DecidableEq

namespace SearchStage

def withCriteria (s : SearchStage) (criteria : Value) : SearchStage :=
  { s with body := some ((lift criteria).put "index" (.string s.index)) }

def bodyFor (s : SearchStage) (step : String) : Except CompileError Members :=
  match s.body with
  | some body => .ok body
  | none => .error (missingCriteria step)

def addTotalCount (s : SearchStage) : Except CompileError SearchStage := do
  let body ← s.bodyFor "count"
  return { s with body := some (body.put "count" totalCount) }

def sortKey (order : SortOrder) : Value :=
  .object [("order", .integer order.direction)]

def sortKeys (order : SortOrder) (fields : List String) : Value :=
  .object (Members.gather (fields.map (fun f => (f, sortKey order))))

def addSort (s : SearchStage) (order : SortOrder) (fields : List String) :
    Except CompileError SearchStage := do
  let body ← s.bodyFor "sort"
  if fields.isEmpty then .error (.invalidArgument "sort needs at least one field")
  else return { s with body := some (body.put "sort" (sortKeys order fields)) }

def build (s : SearchStage) : Except CompileError Value := do
  let body ← s.bodyFor "build"
  return .object [("$search", .object body)]

end SearchStage

structure SearchMetaStage where
  index : String
  body : Option Members := none
  faceted : Bool := false
  deriving DecidableEq

namespace SearchMetaStage

def facetBuckets : Int := 1000

def withCriteria (s : SearchMetaStage) (criteria : Value) : SearchMetaStage :=
  { s with body := some ((lift criteria).put "index" (.string s.index)), faceted := false }

def withFacetCriteria (s : SearchMetaStage) (criteria : Value) : SearchMetaStage :=
  { s with
    body := some [("facet", .object [("operator", criteria)]), ("index", .string s.index)]
    faceted := true }

def bodyFor (s : SearchMetaStage) (step : String) : Except CompileError Members :=
  match s.body with
  | some body => .ok body
  | none => .error (missingCriteria step)

def addTotalCount (s : SearchMetaStage) : Except CompileError SearchMetaStage := do
  let body ← s.bodyFor "count"
  return { s with body := some (body.put "count" totalCount) }

def facet (field : String) : Value :=
  .object [("numBuckets", .integer facetBuckets), ("path", .string field), ("type", .string "string")]

def collectorOf (body : Members) : Except CompileError Members :=
  match (body.get? "facet").getD (.object []) with
  | .object collector => .ok collector
  | _ => .error (.configuration "facet collector is not an object")

def facetsOf (collector : Members) : Except CompileError Members :=
  match (collector.get? "facets").getD (.object []) with
  | .object facets => .ok facets
  | _ => .error (.configuration "facet list is not an object")

def addFacets (s : SearchMetaStage) (fields : List String) :
    Except CompileError SearchMetaStage :=
  if !s.faceted then
    .error (.configuration "facets need facet criteria; call with_facet_criteria first")
  else if fields.isEmpty || fields.any Text.Blank.blank then
    .error (.invalidArgument "facets need at least one non-blank field name")
  else do
    let body ← s.bodyFor "facets"
    let collector ← collectorOf body
    let facets ← facetsOf collector
    let facets := facets.putAll (fields.map (fun f => (f, facet f)))
    return { s with
      body := some (body.put "facet" (.object (collector.put "facets" (.object facets)))) }

def build (s : SearchMetaStage) : Except CompileError Value := do
  let body ← s.bodyFor "build"
  return .object [("$searchMeta", .object body)]

end SearchMetaStage

end Criteria.Search
