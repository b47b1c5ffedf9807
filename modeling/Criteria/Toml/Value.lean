namespace Criteria.Toml

inductive Value where
  | bool (b : Bool)
  | integer (n : Int)
  | real (x : Float)
  | text (s : String)
  | moment (s : String)
  | array (items : List Value)
  | table (entries : List (String × Value))

abbrev Table := List (String × Value)

namespace Table

def get? (key : String) : Table → Option Value
  | [] => none
  | (k, v) :: rest => if key = k then some v else get? key rest

theorem get?_cons_self (key : String) (v : Value) (rest : Table) :
    get? key ((key, v) :: rest) = some v := by
  simp [get?]

theorem get?_cons_of_ne {key other : String} (h : other ≠ key) (v : Value) (rest : Table) :
    get? other ((key, v) :: rest) = get? other rest := by
  simp [get?, h]

end Table

end Criteria.Toml
