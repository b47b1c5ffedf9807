import Criteria.Disk.Path
import Criteria.Trace

namespace Criteria.Command

open Trace (Event Level)

inductive Note where
  | event (e : Event)
  | line (text : String)
  deriving DecidableEq

def Note.text? (threshold : Level) : Note → Option String
  | .event e => if e.visible threshold then some e.line else none
  | .line text => some text

structure Outcome where
  code : Nat := 0
  printed : String := ""
  notes : List Note := []
  written : List (Disk.Path × String) := []
  deriving DecidableEq

namespace Outcome

def usage : String :=
  "usage: atlasq [-v] (compile | resolve | config | init) [options]"

def rejected : Outcome :=
  { code := 2, notes := [.line usage] }

def failed (lines : List String) : Outcome :=
  { code := 1, notes := lines.map .line }

def after (notes : List Note) (o : Outcome) : Outcome :=
  { o with notes := notes ++ o.notes }

def errors (threshold : Level) (o : Outcome) : String :=
  String.join ((o.notes.filterMap (Note.text? threshold)).map (· ++ "\n"))

theorem after_after (a b : List Note) (o : Outcome) : (o.after b).after a = o.after (a ++ b) := by
  simp [after]

end Outcome

def logLevel (verbosity : Nat) : Level :=
  match verbosity with
  | 0 => .warn
  | 1 => .debug
  | _ => .trace

end Criteria.Command
