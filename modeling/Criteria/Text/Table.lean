import Criteria.Text.Columns
import Criteria.Text.Cut

namespace Criteria.Text.Table

abbrev Row := List (List (List Char))

def cells (row : List String) : Row :=
  row.map (fun cell => cut (· = '\n') cell.toList)

def cellWidth (cell : List (List Char)) : Nat :=
  (cell.map Columns.count).foldl max 0

def widths (rows : List Row) (count : Nat) : List Nat :=
  (List.range count).map (fun i => (rows.map (fun r => cellWidth (r.getD i []))).foldl max 0)

def rowHeight (row : Row) : Nat :=
  (row.map List.length).foldl max 0

def padded (width : Nat) (text : List Char) : String :=
  " " ++ String.ofList text ++ String.ofList (List.replicate (width - Columns.count text) ' ') ++ " "

def rowLine (sizes : List Nat) (row : Row) (i : Nat) : String :=
  let parts := (sizes.zip row).map (fun (w, cell) => padded w (cell.getD i []))
  "│" ++ String.intercalate "┆" parts ++ "│"

def rowLines (sizes : List Nat) (row : Row) : List String :=
  (List.range (rowHeight row)).map (rowLine sizes row)

def rule (left middle right : String) (bar : Char) (sizes : List Nat) : String :=
  left ++ String.intercalate middle (sizes.map (fun w => String.ofList (List.replicate (w + 2) bar))) ++
    right

def render (header : List String) (rows : List (List String)) : String :=
  let head := cells header
  let body := rows.map cells
  let sizes := widths (head :: body) header.length
  String.intercalate "\n"
    ([rule "┌" "┬" "┐" '─' sizes] ++ rowLines sizes head ++ [rule "╞" "╪" "╡" '═' sizes] ++
      body.flatMap (rowLines sizes) ++ [rule "└" "┴" "┘" '─' sizes])

end Criteria.Text.Table
