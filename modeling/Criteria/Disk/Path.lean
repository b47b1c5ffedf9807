import Criteria.Text.Cut

namespace Criteria.Disk

structure Path where
  text : String
  deriving DecidableEq

namespace Path

def pieces (p : Path) : List String :=
  (Text.cut (· = '/') p.text.toList).map String.ofList

def idle (piece : String) : Bool :=
  piece = "" || piece = "."

def absolute (p : Path) : Bool :=
  p.text.toList.head? = some '/'

def components (p : Path) : List String :=
  match p.pieces with
  | [] => []
  | first :: rest =>
      (if p.absolute then ["/"] else [first].filter (· ≠ "")) ++ rest.filter (fun piece => !idle piece)

def same (p q : Path) : Bool :=
  p.components = q.components

def join (base : Path) (rest : String) : Path :=
  if (Path.mk rest).absolute then ⟨rest⟩
  else if base.text.isEmpty || base.text.toList.getLast? = some '/' then ⟨base.text ++ rest⟩
  else ⟨base.text ++ "/" ++ rest⟩

def trimmed (pieces : List String) : List String :=
  (pieces.reverse.dropWhile idle).reverse

def parent? (p : Path) : Option Path :=
  match p.pieces with
  | [] => none
  | first :: rest =>
      match trimmed rest with
      | [] => if first = "" then none else some ⟨""⟩
      | names =>
          match trimmed names.dropLast with
          | [] => some ⟨if first = "" then "/" else first⟩
          | kept => some ⟨String.intercalate "/" (first :: kept)⟩

def climb : Nat → Path → List Path
  | 0, p => [p]
  | room + 1, p => p :: (p.parent?.map (climb room)).getD []

def ancestors (p : Path) : List Path :=
  climb p.pieces.length p

theorem same_refl (p : Path) : p.same p = true := by
  simp [same]

end Path

end Criteria.Disk
