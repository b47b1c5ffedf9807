import Criteria.Schema.Score

namespace Criteria.Schema

def sweep (c : Char) (left diagonal : Nat) : List Char → List Nat → List Nat
  | d :: ds, above :: row =>
      let cost := if c = d then 0 else 1
      let best := min (min (diagonal + cost) (above + 1)) (left + 1)
      best :: sweep c best above ds row
  | _, _ => []

def nextRow (word : List Char) (row : List Nat) (c : Char) : List Nat :=
  match row with
  | [] => []
  | diagonal :: above => (diagonal + 1) :: sweep c (diagonal + 1) diagonal word above

def distance (a b : List Char) : Nat :=
  (a.foldl (nextRow b) (List.range (b.length + 1))).getLastD 0

def levenshtein (a b : String) : Nat :=
  distance a.toList b.toList

def aliased (a b : String) : Bool :=
  (a = "id" && b = "_id") || (a = "_id" && b = "id")

theorem aliased_comm (a b : String) : aliased a b = aliased b a := by
  simp only [aliased]
  rw [Bool.or_comm, Bool.and_comm (a = "_id"), Bool.and_comm (a = "id")]

def longer (a b : String) : Nat :=
  max a.length b.length

def similarity {σ : Type} [Score σ] (a b : String) : σ :=
  if aliased a b then Score.ratio 1 1
  else if longer a b = 0 then Score.ratio 1 1
  else Score.ratio (longer a b - levenshtein a b) (longer a b)

end Criteria.Schema
