namespace Criteria.Schema

structure Node where
  name : String
  tag : String
  list : Bool := false
  declared : Bool := true
  children : List Node := []
  deriving Inhabited

namespace Node

def customTag : String := "Custom"

def scalar (name tag : String) : Node :=
  { name := name, tag := tag }

def undeclared (path : String) : Node :=
  { name := path, tag := customTag, declared := false }

def hasChildren (n : Node) : Bool :=
  !n.children.isEmpty

def child? (n : Node) (name : String) : Option Node :=
  n.children.find? (fun c => c.name = name)

mutual
def decEq : (a b : Node) → Decidable (a = b)
  | ⟨n, t, l, d, cs⟩, ⟨n', t', l', d', cs'⟩ =>
      have := decEqForest cs cs'
      decidable_of_iff (n = n' ∧ t = t' ∧ l = l' ∧ d = d' ∧ cs = cs') (by simp)
def decEqForest : (a b : List Node) → Decidable (a = b)
  | [], [] => isTrue rfl
  | x :: xs, y :: ys =>
      match decEq x y, decEqForest xs ys with
      | isTrue h, isTrue h' => isTrue (by rw [h, h'])
      | isFalse h, _ => isFalse (by simp [h])
      | _, isFalse h => isFalse (by simp [h])
  | [], _ :: _ | _ :: _, [] => isFalse nofun
end

instance : DecidableEq Node :=
  decEq

mutual
def count : Node → Nat
  | ⟨_, _, _, _, children⟩ => 1 + forestCount children
def forestCount : List Node → Nat
  | [] => 0
  | n :: ns => count n + forestCount ns
end

mutual
def deepest : Node → Node
  | ⟨name, tag, list, declared, children⟩ =>
      (forestDeepest children).getD ⟨name, tag, list, declared, children⟩
def forestDeepest : List Node → Option Node
  | [] => none
  | n :: _ => some (deepest n)
end

theorem deepest_eq_self {n : Node} (h : n.children = []) : n.deepest = n := by
  cases n
  simp_all [deepest, forestDeepest]

theorem deepest_eq_head {n c : Node} {cs : List Node} (h : n.children = c :: cs) :
    n.deepest = c.deepest := by
  cases n
  simp_all [deepest, forestDeepest]

def indent (level : Nat) : String :=
  String.ofList (List.replicate (2 * level) ' ')

mutual
def lines (level : Nat) : Node → List String
  | ⟨name, tag, list, declared, children⟩ =>
      (indent level ++ name ++ ": " ++ tag ++ (if list then "[]" else "") ++
        (if declared then "" else " (undeclared)")) :: forestLines (level + 1) children
def forestLines (level : Nat) : List Node → List String
  | [] => []
  | n :: ns => lines level n ++ forestLines level ns
end

def display (n : Node) : String :=
  String.join ((lines 0 n).map (· ++ "\n"))

end Node

end Criteria.Schema
