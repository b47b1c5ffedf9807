import Criteria.Schema.Resolve
import Criteria.Trace

namespace Criteria.Schema

open Trace

variable {σ : Type} [Score σ]

def Candidate.event (segment : String) (c : Candidate σ) : Event where
  level := .trace
  message := "candidate"
  fields := [("segment", .quoted segment), ("node", .bare c.node.name),
    ("similarity", .real (Score.shown c.similarity)), ("depth", .count c.depth),
    ("weight", .real (Score.shown c.weight))]

def Step.outcome (t : Thresholds σ) (path : String) (s : Step σ) : List Event :=
  match s.chosen with
  | none => [{
      level := .debug
      message := "no match, treating as undeclared field"
      fields := [("path", .quoted path), ("segment", .quoted s.segment)] }]
  | some c =>
      if c.similarity < t.strong then [{
        level := .warn
        message := "moderate match bound field"
        fields := [("path", .quoted path), ("segment", .quoted s.segment),
          ("node", .bare c.node.name), ("similarity", .real (Score.shown c.similarity))] }]
      else []

def Step.events (t : Thresholds σ) (path : String) (s : Step σ) : List Event :=
  s.candidates.map (Candidate.event s.segment) ++ s.outcome t path

def Thresholds.events (t : Thresholds σ) (root : Node) (path : String) : List Event :=
  (t.trail root path).flatMap (Step.events t path)

structure CandidateRow (σ : Type) where
  segment : String
  candidate : Candidate σ
  deriving DecidableEq

namespace Thresholds

def rowsFrom (t : Thresholds σ) (start : Node) (segment : String) : List (CandidateRow σ) :=
  (t.candidates start segment).map (fun c => ⟨segment, c⟩)

def rowsAfter (t : Thresholds σ) (root : Node) (before : List String) :
    List String → List (CandidateRow σ)
  | [] => []
  | segment :: rest =>
      let r := t.resolve root (Text.Dotted.join before)
      if r.isDeclared then
        t.rowsFrom r.node segment ++ rowsAfter t root (before ++ [segment]) rest
      else []

def rows (t : Thresholds σ) (root : Node) (path : String) : List (CandidateRow σ) :=
  match Text.Dotted.segments path with
  | [] => []
  | segment :: rest => t.rowsFrom root segment ++ rowsAfter t root [segment] rest

def rowEventsAfter (t : Thresholds σ) (root : Node) (before : List String) :
    List String → List Event
  | [] => []
  | segment :: rest =>
      let path := Text.Dotted.join before
      t.events root path ++
        (if (t.resolve root path).isDeclared then
          rowEventsAfter t root (before ++ [segment]) rest
        else [])

def rowEvents (t : Thresholds σ) (root : Node) (path : String) : List Event :=
  match Text.Dotted.segments path with
  | [] => []
  | segment :: rest => t.rowEventsAfter root [segment] rest

end Thresholds

end Criteria.Schema
