import Criteria.Command.Invocation
import Criteria.Command.Outcome
import Criteria.Json.Writer
import Criteria.Schema.Codec
import Criteria.Search.Report
import Criteria.Search.Stage
import Criteria.Settings.Discovery
import Criteria.Settings.Template
import Criteria.Text.Table

namespace Criteria.Command

open Disk (Path Store)
open Json (Value)
open Query (Operand Token)
open Schema (CandidateRow Node Resolution Thresholds)
open Search (CompileError Compiler SearchStage)

structure Place where
  disk : Store
  cwd : Path
  home : Path

def readSchema (place : Place) (file : String) : Except String Node :=
  let path := place.cwd.join file
  match place.disk.read path with
  | .error fault => .error ("failed to read schema file " ++ path.text ++ ": " ++ fault.message)
  | .ok text =>
      match Node.decodeText text with
      | .ok n => .ok n
      | .error _ => .error ("failed to parse schema " ++ path.text)

def readTokens (place : Place) (file : String) : Except String (List (Token Operand)) :=
  let path := place.cwd.join file
  match place.disk.read path with
  | .error fault => .error ("failed to read tokens " ++ path.text ++ ": " ++ fault.message)
  | .ok text =>
      match Json.Decoder.fromText Query.decodeTokens text with
      | .ok tokens => .ok tokens
      | .error _ => .error ("failed to parse tokens " ++ path.text)

def errorLine (text : String) : String :=
  "error: " ++ text

namespace CompileOptions

def compiler (s : Settings) (schema : Node) : Compiler Float where
  schema := schema
  thresholds := s.thresholds
  rules := s.rules

def counted (o : CompileOptions) (stage : SearchStage) : Except CompileError SearchStage :=
  if o.count then stage.addTotalCount else .ok stage

def sorted (o : CompileOptions) (stage : SearchStage) : Except CompileError SearchStage :=
  if o.sort.isEmpty then .ok stage
  else stage.addSort (if o.descending then .descending else .ascending) o.sort

def enveloped (o : CompileOptions) (s : Settings) (criteria : Value) :
    Except CompileError Value := do
  let stage : SearchStage := { index := o.index.getD s.index }
  let stage ← o.counted (stage.withCriteria criteria)
  let stage ← o.sorted stage
  stage.build

def document (o : CompileOptions) (s : Settings) (schema : Node) (tokens : List (Token Operand)) :
    Except CompileError Value := do
  let criteria ← (compiler s schema).compile tokens
  if o.envelope then o.enveloped s criteria else return criteria

def report (e : CompileError) : List String :=
  errorLine e.message :: (e.suggestion.map ("hint: " ++ ·)).toList

def printed (o : CompileOptions) (v : Value) : String :=
  (if o.compact then v.compact else v.pretty) ++ "\n"

def run (o : CompileOptions) (place : Place) (s : Settings) : Outcome :=
  match readSchema place o.schema with
  | .error message => .failed [errorLine message]
  | .ok schema =>
      match readTokens place o.tokens with
      | .error message => .failed [errorLine message]
      | .ok tokens =>
          let result : Outcome := match o.document s schema tokens with
            | .error e => .failed (report e)
            | .ok v => { printed := o.printed v }
          result.after (((compiler s schema).events tokens).map .event)

end CompileOptions

namespace ResolveOptions

def rowObject (r : CandidateRow Float) : Value :=
  .object [("segment", .string r.segment), ("node", .string r.candidate.node.name),
    ("path", .string (Text.Dotted.join r.candidate.path)),
    ("similarity", .real r.candidate.similarity), ("depth", .integer r.candidate.depth),
    ("weight", .real r.candidate.weight)]

def resolutionObject (r : Resolution Float) (rows : Option (List (CandidateRow Float))) : Value :=
  .object ([("requested", .string r.requested), ("node", .object r.node.fields),
    ("canonical_path", .string r.canonicalPath), ("parent_is_list", .bool r.parentIsList),
    ("similarity", .real r.similarity), ("tier", .string r.tier.name),
    ("terminal_type", .string r.terminal.tag)] ++
    (rows.map (fun rows => ("candidates", .array (rows.map rowObject)))).toList)

def yesNo (b : Bool) : String :=
  if b then "yes" else "no"

def typeName (n : Node) : String :=
  if n.list then n.tag ++ "[]" else n.tag

def resolutionCells (r : Resolution Float) : List String :=
  [r.requested, r.canonicalPath, typeName r.node, yesNo r.isDeclared, yesNo r.parentIsList,
    Decimal.fixed 2 r.similarity, r.tier.name, r.terminal.tag]

def resolutionTable (rs : List (Resolution Float)) : String :=
  Text.Table.render ["Requested", "Canonical", "Type", "Exists", "List parent", "Similarity",
    "Tier", "Terminal"] (rs.map resolutionCells)

def rowCells (r : CandidateRow Float) : List String :=
  [r.segment, r.candidate.node.name, Text.Dotted.join r.candidate.path,
    Decimal.fixed 2 r.candidate.similarity, toString r.candidate.depth,
    Decimal.fixed 3 r.candidate.weight]

def rowTable (rows : List (CandidateRow Float)) : String :=
  Text.Table.render ["Segment", "Node", "Path", "Similarity", "Depth", "Weight"]
    (rows.map rowCells)

def rowBlock (path : String) (rows : List (CandidateRow Float)) : String :=
  "\nCandidates for " ++ path ++ ":\n" ++ (if rows.isEmpty then "  (none)" else rowTable rows) ++ "\n"

def undeclaredWarning : String :=
  "warning: some paths did not resolve and would compile as undeclared fields"

def tables (o : ResolveOptions) (t : Thresholds Float) (schema : Node) : Outcome :=
  let rs := o.paths.map (t.resolve schema)
  let blocks := if o.candidates then o.paths.map (fun p => rowBlock p (t.rows schema p)) else []
  { printed := resolutionTable rs ++ "\n" ++ String.join blocks
    notes := if rs.all Resolution.isDeclared then [] else [.line undeclaredWarning] }

def objects (o : ResolveOptions) (t : Thresholds Float) (schema : Node) : Outcome :=
  let object (path : String) : Value :=
    resolutionObject (t.resolve schema path) (if o.candidates then some (t.rows schema path) else none)
  { printed := (Value.array (o.paths.map object)).pretty ++ "\n" }

def events (o : ResolveOptions) (t : Thresholds Float) (schema : Node) : List Trace.Event :=
  o.paths.flatMap (t.events schema) ++
    if o.candidates then o.paths.flatMap (t.rowEvents schema) else []

def run (o : ResolveOptions) (place : Place) (s : Settings) : Outcome :=
  match readSchema place o.schema with
  | .error message => .failed [errorLine message]
  | .ok schema =>
      let result := if o.json then o.objects s.thresholds schema else o.tables s.thresholds schema
      result.after ((o.events s.thresholds schema).map .event)

end ResolveOptions

def showSettings (s : Settings) : Outcome :=
  let heading := (s.nearest.map (fun p => "# nearest configuration: " ++ p.text ++ "\n")).getD ""
  { printed := heading ++ s.toml }

namespace InitOptions

def isPersonal (o : InitOptions) (place : Place) : Bool :=
  o.personal || (Settings.personalFile place.home).parent?.any place.cwd.same

def target (o : InitOptions) (place : Place) : Path :=
  if o.isPersonal place then Settings.personalFile place.home
  else place.cwd.join Settings.fileName

def template (o : InitOptions) (place : Place) : String :=
  Settings.Template.text
    (if o.isPersonal place then Settings.Template.personal else Settings.Template.project)

def run (o : InitOptions) (place : Place) : Outcome :=
  let file := o.target place
  if place.disk.holds file && !o.force then
    .failed [errorLine ("configuration file already exists: " ++ file.text),
      "use --force to overwrite"]
  else match place.disk.writable file with
    | .error fault => .failed [errorLine ("failed to write " ++ file.text ++ ": " ++ fault.message)]
    | .ok () =>
        { printed := "Created " ++ file.text ++ "\nUncomment the settings you want to change.\n"
          written := [(file, o.template place)] }

end InitOptions

def settingsNotes (s : Settings) : List Note :=
  (s.nearest.map (fun p => Note.event
    { level := .debug, message := "loaded configuration", fields := [("root", .bare p.text)] })).toList ++
    s.warnings.map (fun w => .line ("warning: " ++ w.message))

def withSettings (place : Place) (act : Settings → Outcome) : Outcome :=
  match Settings.load place.disk place.cwd place.home with
  | .error e => .failed [errorLine ("failed to load configuration: " ++ e.message)]
  | .ok s => (act s).after (settingsNotes s)

namespace Action

def reads : Action → List String
  | .compile o => [o.schema, o.tokens]
  | .resolve o => [o.schema]
  | .config => []
  | .init _ => []

def run (place : Place) : Action → Outcome
  | .compile o => withSettings place (o.run place)
  | .resolve o => withSettings place (o.run place)
  | .config => withSettings place showSettings
  | .init o => o.run place

end Action

structure Answer where
  code : Nat
  stdout : String
  stderr : String
  written : List (Path × String)
  deriving DecidableEq

def Outcome.answer (threshold : Trace.Level) (o : Outcome) : Answer where
  code := o.code
  stdout := o.printed
  stderr := o.errors threshold
  written := o.written

def reads (cwd home : Path) (args : List String) : List Path :=
  Settings.candidates cwd ++ Settings.personalFile home ::
    (((Invocation.parse args).map (fun i => i.action.reads)).getD []).map cwd.join

def run (place : Place) (args : List String) : Answer :=
  match Invocation.parse args with
  | none => Outcome.rejected.answer .warn
  | some i => (i.action.run place).answer (logLevel i.verbosity)

end Criteria.Command
