import Criteria.Decimal.Layout
import Criteria.Disk.Path
import Criteria.Search.Embedding
import Criteria.Settings.Layer
import Criteria.Text.Blank
import Criteria.Toml.Writer

namespace Criteria

open Disk (Path)
open Schema (Thresholds)
open Search (EmbeddingRules)
open Toml (Value Table)

structure Settings where
  thresholds : Thresholds Float := .standard
  rules : EmbeddingRules := .standard
  index : String := "default"
  nearest : Option Path := none

namespace Settings

inductive Misfit where
  | outside (name : String) (value : Float)
  | crossed (moderate strong : Float)

def Misfit.message : Misfit → String
  | .outside name value => name ++ " = " ++ Decimal.plain.write value ++ " is outside [0, 1]"
  | .crossed moderate strong =>
      "moderate_threshold (" ++ Decimal.plain.write moderate ++ ") exceeds strong_threshold (" ++
        Decimal.plain.write strong ++ ")"

def inUnit (x : Float) : Bool :=
  0 ≤ x && x ≤ 1

def named (t : Thresholds Float) : List (String × Float) :=
  [("candidate_threshold", t.candidate), ("strong_threshold", t.strong),
    ("moderate_threshold", t.moderate)]

def misfit? (t : Thresholds Float) : Option Misfit :=
  match (named t).find? (fun e => !inUnit e.2) with
  | some (name, value) => some (.outside name value)
  | none => if t.strong < t.moderate then some (.crossed t.moderate t.strong) else none

inductive Warning where
  | conflict (stem : String)
  | emptyStem (list : String)
  | blankIndex
  deriving DecidableEq

def Warning.message : Warning → String
  | .conflict stem => "prefix '" ++ stem ++ "' is both flat and embedded; it will be treated as flat"
  | .emptyStem list => "empty entry in embedding." ++ list ++ " matches every field"
  | .blankIndex => "search.index is blank"

def emptyStems (list : String) (stems : List String) : List Warning :=
  if stems.contains "" then [.emptyStem list] else []

def warnings (s : Settings) : List Warning :=
  (s.rules.flat.filter s.rules.embedded.contains).map .conflict ++
    emptyStems "flat_prefixes" s.rules.flat ++ emptyStems "embedded_prefixes" s.rules.embedded ++
    (if Text.Blank.blank s.index then [.blankIndex] else [])

theorem conflict_mem_warnings {s : Settings} {stem : String} :
    .conflict stem ∈ s.warnings ↔ stem ∈ s.rules.flat ∧ stem ∈ s.rules.embedded := by
  simp only [warnings, emptyStems, List.mem_append, List.mem_map, List.mem_filter]
  constructor
  · rintro (((⟨t, ⟨hf, he⟩, h⟩ | h) | h) | h)
    · cases h
      exact ⟨hf, by simpa using he⟩
    all_goals split at h <;> simp at h
  · rintro ⟨hf, he⟩
    exact .inl (.inl (.inl ⟨stem, ⟨hf, by simpa using he⟩, rfl⟩))

def override (s : Settings) (l : Layer) : Settings :=
  let resolver := l.resolver.getD ⟨none, none, none⟩
  let embedding := l.embedding.getD {}
  let search := l.search.getD {}
  { s with
    thresholds :=
      { candidate := resolver.candidate.getD s.thresholds.candidate
        strong := resolver.strong.getD s.thresholds.strong
        moderate := resolver.moderate.getD s.thresholds.moderate }
    rules :=
      { flat := embedding.flat.getD s.rules.flat
        embedded := embedding.embedded.getD s.rules.embedded }
    index := search.index.getD s.index }

def layered (layers : List Layer) : Settings :=
  layers.foldr (fun l s => s.override l) {}

theorem layered_cons (l : Layer) (layers : List Layer) :
    layered (l :: layers) = (layered layers).override l := rfl

def merge (files : List (Path × Layer)) : Except Misfit Settings :=
  let s := layered (files.map Prod.snd)
  match misfit? s.thresholds with
  | some m => .error m
  | none => .ok { s with nearest := files.head?.bind (fun f => f.1.parent?) }

def stems (names : List String) : Value :=
  .array (names.map .text)

def document (s : Settings) : Table :=
  [("resolver", .table
      [("candidate_threshold", .real s.thresholds.candidate),
        ("strong_threshold", .real s.thresholds.strong),
        ("moderate_threshold", .real s.thresholds.moderate)]),
    ("embedding", .table
      [("flat_prefixes", stems s.rules.flat), ("embedded_prefixes", stems s.rules.embedded)]),
    ("search", .table [("index", .text s.index)])]

def toml (s : Settings) : String :=
  s.document.write

end Settings

end Criteria
