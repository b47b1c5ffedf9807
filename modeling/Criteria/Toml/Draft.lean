import Criteria.Toml.Value

namespace Criteria.Toml

inductive Shape where
  | implied
  | dotted
  | declared
  deriving DecidableEq, Repr

inductive Draft where
  | value (v : Value)
  | table (shape : Shape) (entries : List (String × Draft))
  | tables (earlier : List Value) (last : List (String × Draft))

namespace Draft

abbrev Entries := List (String × Draft)

mutual
def settle : Draft → Value
  | .value v => v
  | .table _ entries => .table (settleAll entries)
  | .tables earlier last => .array (earlier ++ [.table (settleAll last)])
def settleAll : List (String × Draft) → Table
  | [] => []
  | (key, d) :: rest => (key, settle d) :: settleAll rest
end

def put (key : String) (d : Draft) : Entries → Entries
  | [] => [(key, d)]
  | (k, e) :: rest => if k = key then (k, d) :: rest else (k, e) :: put key d rest

theorem lookup_put_self (key : String) (d : Draft) (entries : Entries) :
    (put key d entries).lookup key = some d := by
  induction entries with
  | nil => simp [put]
  | cons e rest ih =>
      simp only [put]
      split
      · rename_i h
        simp [h]
      · rename_i h
        have h : (key == e.1) = false := by simpa using Ne.symm h
        simp only [List.lookup_cons, h, ih]

def descend (dotted : Bool) (act : Shape → Entries → Option Entries) :
    List String → Shape → Entries → Option Entries
  | [], shape, entries => act shape entries
  | key :: route, _, entries =>
      match entries.lookup key with
      | none => do
          let shape := if dotted then Shape.dotted else .implied
          let inner ← descend dotted act route shape []
          return put key (.table shape inner) entries
      | some (.table shape inner) =>
          if dotted && shape = .declared then none
          else do
            let inner ← descend dotted act route shape inner
            return put key (.table shape inner) entries
      | some (.tables earlier last) => do
          let last ← descend dotted act route .declared last
          return put key (.tables earlier last) entries
      | some (.value _) => none

def insert (key : String) (v : Value) (direct : Bool) (shape : Shape) (entries : Entries) :
    Option Entries :=
  if (shape = .dotted) = direct then none
  else match entries.lookup key with
    | some _ => none
    | none => some (put key (.value v) entries)

def assign (route : List String) (v : Value) (entries : Entries) : Option Entries := do
  let key ← route.getLast?
  descend true (insert key v route.dropLast.isEmpty) route.dropLast .declared entries

def declare (key : String) (_ : Shape) (entries : Entries) : Option Entries :=
  match entries.lookup key with
  | none => some (put key (.table .declared []) entries)
  | some (.table .implied inner) => some (put key (.table .declared inner) entries)
  | some _ => none

def declareItem (key : String) (_ : Shape) (entries : Entries) : Option Entries :=
  match entries.lookup key with
  | none => some (put key (.tables [] []) entries)
  | some (.tables earlier last) =>
      some (put key (.tables (earlier ++ [.table (settleAll last)]) []) entries)
  | some _ => none

end Draft

structure Page where
  entries : Draft.Entries := []
  header : List String := []

namespace Page

def declare (item : Bool) (route : List String) (p : Page) : Option Page := do
  let key ← route.getLast?
  let act := if item then Draft.declareItem key else Draft.declare key
  let entries ← Draft.descend false act route.dropLast .declared p.entries
  return ⟨entries, route⟩

def assign (route : List String) (v : Value) (p : Page) : Option Page := do
  let entries ← Draft.descend false (fun _ inner => Draft.assign route v inner) p.header .declared
    p.entries
  return { p with entries := entries }

def finish (p : Page) : Table :=
  Draft.settleAll p.entries

end Page

end Criteria.Toml
