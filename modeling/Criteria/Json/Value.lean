namespace Criteria.Json

inductive Number where
  | integer (n : Int)
  | real (x : Float)
  deriving DecidableEq

inductive Value where
  | null
  | bool (b : Bool)
  | number (n : Number)
  | string (s : String)
  | array (items : List Value)
  | object (members : List (String × Value))
  deriving Inhabited

abbrev Members := List (String × Value)

namespace Value

mutual
def decEq : (a b : Value) → Decidable (a = b)
  | .null, .null => isTrue rfl
  | .bool a, .bool b => decidable_of_iff (a = b) (by simp)
  | .number a, .number b => decidable_of_iff (a = b) (by simp)
  | .string a, .string b => decidable_of_iff (a = b) (by simp)
  | .array a, .array b => have := decEqItems a b; decidable_of_iff (a = b) (by simp)
  | .object a, .object b => have := decEqMembers a b; decidable_of_iff (a = b) (by simp)
  | .null, .bool _ | .null, .number _ | .null, .string _ | .null, .array _ | .null, .object _
  | .bool _, .null | .bool _, .number _ | .bool _, .string _ | .bool _, .array _
  | .bool _, .object _ | .number _, .null | .number _, .bool _ | .number _, .string _
  | .number _, .array _ | .number _, .object _ | .string _, .null | .string _, .bool _
  | .string _, .number _ | .string _, .array _ | .string _, .object _ | .array _, .null
  | .array _, .bool _ | .array _, .number _ | .array _, .string _ | .array _, .object _
  | .object _, .null | .object _, .bool _ | .object _, .number _ | .object _, .string _
  | .object _, .array _ => isFalse nofun
def decEqItems : (a b : List Value) → Decidable (a = b)
  | [], [] => isTrue rfl
  | x :: xs, y :: ys =>
      match decEq x y, decEqItems xs ys with
      | isTrue h, isTrue h' => isTrue (by rw [h, h'])
      | isFalse h, _ => isFalse (by simp [h])
      | _, isFalse h => isFalse (by simp [h])
  | [], _ :: _ | _ :: _, [] => isFalse nofun
def decEqMembers : (a b : List (String × Value)) → Decidable (a = b)
  | [], [] => isTrue rfl
  | (k, x) :: xs, (l, y) :: ys =>
      match decEq x y, decEqMembers xs ys with
      | isTrue h, isTrue h' => decidable_of_iff (k = l) (by simp [h, h'])
      | isFalse h, _ => isFalse (by simp [h])
      | _, isFalse h => isFalse (by simp [h])
  | [], _ :: _ | _ :: _, [] => isFalse nofun
end

instance : DecidableEq Value :=
  decEq

def integer (n : Int) : Value :=
  .number (.integer n)

def real (x : Float) : Value :=
  .number (.real x)

def blank : Value → Bool
  | .null => true
  | .object [] => true
  | _ => false

def isString : Value → Bool
  | .string _ => true
  | _ => false

end Value

namespace Members

def put (key : String) (value : Value) : Members → Members
  | [] => [(key, value)]
  | (k, v) :: rest =>
      if key < k then (key, value) :: (k, v) :: rest
      else if key = k then (key, value) :: rest
      else (k, v) :: put key value rest

def get? (key : String) : Members → Option Value
  | [] => none
  | (k, v) :: rest => if key = k then some v else get? key rest

def putAll (members new : Members) : Members :=
  new.foldl (fun ms m => put m.1 m.2 ms) members

def gather (members : Members) : Members :=
  putAll [] members

def optional (key : String) : Option Value → Members
  | none => []
  | some v => [(key, v)]

theorem get?_put_self (key : String) (value : Value) (members : Members) :
    get? key (put key value members) = some value := by
  induction members with
  | nil => simp [put, get?]
  | cons m rest ih =>
      simp only [put]
      split
      · simp [get?]
      · split
        · simp [get?]
        · rename_i h
          simp [get?, h, ih]

theorem get?_put_of_ne {key other : String} (h : other ≠ key) (value : Value) (members : Members) :
    get? other (put key value members) = get? other members := by
  induction members with
  | nil => simp [put, get?, h]
  | cons m rest ih =>
      simp only [put]
      split
      · simp [get?, h]
      · split
        · rename_i hk
          subst hk
          simp [get?, h]
        · simp [get?, ih]

end Members

end Criteria.Json
