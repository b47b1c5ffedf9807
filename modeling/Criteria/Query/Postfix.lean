import Criteria.Query.Error

namespace Criteria.Query

inductive Held where
  | operator (o : Operator)
  | opening
  deriving DecidableEq

namespace Postfix

variable {α : Type}

def release (incoming : Operator) : List Held → List Operator × List Held
  | .operator top :: rest =>
      if top.connective.precedence < incoming.connective.precedence then ([], .operator top :: rest)
      else
        let (out, kept) := release incoming rest
        (top :: out, kept)
  | held => ([], held)

def close : List Held → Option (List Operator × List Held)
  | [] => none
  | .opening :: rest => some ([], rest)
  | .operator o :: rest => (close rest).map (fun (out, kept) => (o :: out, kept))

def drain : List Held → Option (List Operator)
  | [] => some []
  | .opening :: _ => none
  | .operator o :: rest => (drain rest).map (o :: ·)

def operators (os : List Operator) : List (Token α) :=
  os.map .operator

def shunt : List Held → List (Token α) → Option (List (Token α))
  | held, [] => (drain held).map operators
  | held, .operand a :: rest => (shunt held rest).map (.operand a :: ·)
  | held, .operator o :: rest =>
      (shunt (.operator o :: (release o held).2) rest).map (operators (release o held).1 ++ ·)
  | held, .opening :: rest => shunt (.opening :: held) rest
  | held, .closing :: rest =>
      match close held with
      | none => none
      | some (out, kept) => (shunt kept rest).map (operators out ++ ·)

end Postfix

def toPostfix {α : Type} (tokens : List (Token α)) : Except QueryError (List (Token α)) :=
  match Postfix.shunt [] tokens with
  | some out => .ok out
  | none => .error .mismatchedParentheses

end Criteria.Query
