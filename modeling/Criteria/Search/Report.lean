import Criteria.Query.Report
import Criteria.Schema.Report
import Criteria.Search.Compile

namespace Criteria.Search.Compiler

open Query (Operand Token)
open Trace

def embeddedEvent (field parent : String) : Event where
  level := .debug
  message := "embedded leaf"
  fields := [("field", .bare field), ("parent", .bare parent)]

def leafEvents (c : Compiler Float) (o : Operand) : List Event :=
  c.thresholds.events c.schema o.field ++
    match c.compilePrepared o with
    | .error _ => []
    | .ok leaf => (leaf.embeddedIn.map (embeddedEvent o.field)).toList

def operandEvents (c : Compiler Float) : List Operand → List Event
  | [] => []
  | o :: rest =>
      let o := c.prepare o
      leafEvents c o ++
        match c.compilePrepared o with
        | .error _ => []
        | .ok _ => operandEvents c rest

def events (c : Compiler Float) (tokens : List (Token Operand)) : List Event :=
  Query.tokensEvent "compiling" tokens :: Query.treeEvents tokens ++
    match Query.Tree.ofTokens tokens with
    | .error _ => []
    | .ok t => operandEvents c t.leaves

end Criteria.Search.Compiler
