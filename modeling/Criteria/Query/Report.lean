import Criteria.Query.Codec
import Criteria.Query.Tree
import Criteria.Trace

namespace Criteria.Query

open Trace

def tokenLine (tokens : List (Token Operand)) : String :=
  Token.line Operand.field tokens

def tokensEvent (message : String) (tokens : List (Token Operand)) : Event where
  level := .debug
  message := message
  fields := [("tokens", .bare (tokenLine tokens))]

def postfixEvents (tokens : List (Token Operand)) : List Event :=
  tokensEvent "infix tokens" tokens ::
    match toPostfix tokens with
    | .ok ordered => [tokensEvent "postfix tokens" ordered]
    | .error _ => []

def Tree.render (t : Tree Operand) : String :=
  t.display Operand.label

def treeEvent (t : Tree Operand) : Event where
  level := .debug
  message := "logical tree:\n" ++ t.render

def treeEvents (tokens : List (Token Operand)) : List Event :=
  postfixEvents tokens ++
    match Tree.ofTokens tokens with
    | .ok t => [treeEvent t]
    | .error _ => []

end Criteria.Query
