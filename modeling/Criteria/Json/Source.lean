import Criteria.Json.Value

namespace Criteria.Json

inductive Found where
  | null
  | bool (b : Bool)
  | integer (n : Int)
  | real (x : Float)
  | string (s : String)
  | sequence
  | map
  | unitVariant
  deriving DecidableEq

def Found.ofNumber : Number → Found
  | .integer n => .integer n
  | .real x => .real x

inductive Ending where
  | closed
  | broken
  deriving DecidableEq, Repr

inductive Source where
  | null
  | bool (b : Bool)
  | number (n : Number)
  | string (s : String)
  | array (items : List Source) (ending : Ending)
  | object (members : List (Option String × Source)) (ending : Ending)
  | unreadable
  | broken
  deriving Inhabited

namespace Source

def found? : Source → Option Found
  | .null => some .null
  | .bool b => some (.bool b)
  | .number n => some (.ofNumber n)
  | .string s => some (.string s)
  | .array _ _ => some .sequence
  | .object _ _ => some .map
  | .unreadable => none
  | .broken => none

mutual
def ofValue : Value → Source
  | .null => .null
  | .bool b => .bool b
  | .number n => .number n
  | .string s => .string s
  | .array items => .array (ofItems items) .closed
  | .object members => .object (ofMembers members) .closed
def ofItems : List Value → List Source
  | [] => []
  | v :: vs => ofValue v :: ofItems vs
def ofMembers : List (String × Value) → List (Option String × Source)
  | [] => []
  | (k, v) :: ms => (some k, ofValue v) :: ofMembers ms
end

mutual
def whole : Source → Bool
  | .null | .bool _ | .number _ | .string _ | .unreadable => true
  | .array items ending => decide (ending = .closed) && wholeItems items
  | .object members ending => decide (ending = .closed) && wholeMembers members
  | .broken => false
def wholeItems : List Source → Bool
  | [] => true
  | s :: rest => whole s && wholeItems rest
def wholeMembers : List (Option String × Source) → Bool
  | [] => true
  | (_, s) :: rest => whole s && wholeMembers rest
end

mutual
theorem whole_ofValue (v : Value) : whole (ofValue v) = true := by
  match v with
  | .null | .bool _ | .number _ | .string _ => rfl
  | .array items => simp [ofValue, whole, wholeItems_ofItems items]
  | .object members => simp [ofValue, whole, wholeMembers_ofMembers members]
theorem wholeItems_ofItems (vs : List Value) : wholeItems (ofItems vs) = true := by
  match vs with
  | [] => rfl
  | v :: vs => simp [ofItems, wholeItems, whole_ofValue v, wholeItems_ofItems vs]
theorem wholeMembers_ofMembers (ms : List (String × Value)) : wholeMembers (ofMembers ms) = true := by
  match ms with
  | [] => rfl
  | (_, v) :: ms => simp [ofMembers, wholeMembers, whole_ofValue v, wholeMembers_ofMembers ms]
end

end Source

end Criteria.Json
