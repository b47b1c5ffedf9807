import Criteria.Decimal.Reading
import Criteria.Schema.Resolve
import Criteria.Toml.Reader

namespace Criteria.Settings

open Schema (Thresholds)
open Toml (Value Table)

structure EmbeddingLayer where
  flat : Option (List String) := none
  embedded : Option (List String) := none
  deriving DecidableEq

structure SearchLayer where
  index : Option String := none
  deriving DecidableEq

structure Layer where
  root : Option Bool := none
  resolver : Option (Thresholds (Option Float)) := none
  embedding : Option EmbeddingLayer := none
  search : Option SearchLayer := none
  deriving DecidableEq

namespace Layer

def resolverKeys : List String :=
  ["candidate_threshold", "strong_threshold", "moderate_threshold"]

def embeddingKeys : List String :=
  ["flat_prefixes", "embedded_prefixes"]

def searchKeys : List String :=
  ["index"]

def bool? : Value → Option Bool
  | .bool b => some b
  | _ => none

def text? : Value → Option String
  | .text s => some s
  | _ => none

def texts? : Value → Option (List String)
  | .array items => items.mapM text?
  | _ => none

def machineWord (n : Int) : Bool :=
  -(Nat.pow 2 63 : Int) ≤ n && n < Nat.pow 2 64

def number? : Value → Option Float
  | .real x => some x
  | .integer n =>
      if machineWord n then some (Decimal.ofDecimal (n < 0) n.natAbs 0) else none
  | _ => none

def setting? {α : Type} (decode : Value → Option α) (t : Table) (key : String) :
    Option (Option α) :=
  match t.get? key with
  | none => some none
  | some v => (decode v).map some

def section? (keys : List String) : Value → Option Table
  | .table entries => some entries
  | .array items => some (keys.zip items)
  | .moment _ => some []
  | _ => none

def resolver? (v : Value) : Option (Thresholds (Option Float)) := do
  let t ← section? resolverKeys v
  let candidate ← setting? number? t "candidate_threshold"
  let strong ← setting? number? t "strong_threshold"
  let moderate ← setting? number? t "moderate_threshold"
  return ⟨candidate, strong, moderate⟩

def embedding? (v : Value) : Option EmbeddingLayer := do
  let t ← section? embeddingKeys v
  let flat ← setting? texts? t "flat_prefixes"
  let embedded ← setting? texts? t "embedded_prefixes"
  return ⟨flat, embedded⟩

def search? (v : Value) : Option SearchLayer := do
  let t ← section? searchKeys v
  let index ← setting? text? t "index"
  return ⟨index⟩

def ofTable (t : Table) : Option Layer := do
  let root ← setting? bool? t "root"
  let resolver ← setting? resolver? t "resolver"
  let embedding ← setting? embedding? t "embedding"
  let search ← setting? search? t "search"
  return ⟨root, resolver, embedding, search⟩

def parse (text : String) : Option Layer :=
  (Toml.read text).bind ofTable

theorem texts?_map_text (names : List String) :
    texts? (.array (names.map Value.text)) = some names := by
  unfold texts?
  induction names with
  | nil => rfl
  | cons name names ih =>
      simp only [List.map_cons, List.mapM_cons, text?] at ih ⊢
      simp [ih]

end Layer

end Criteria.Settings
