import Criteria.Command.Options

namespace Criteria.Command

structure CompileOptions where
  schema : String
  tokens : String
  envelope : Bool := false
  index : Option String := none
  count : Bool := false
  sort : List String := []
  descending : Bool := false
  compact : Bool := false
  deriving DecidableEq

structure ResolveOptions where
  schema : String
  paths : List String
  json : Bool := false
  candidates : Bool := false
  deriving DecidableEq

structure InitOptions where
  personal : Bool := false
  force : Bool := false
  deriving DecidableEq

inductive Action where
  | compile (o : CompileOptions)
  | resolve (o : ResolveOptions)
  | config
  | init (o : InitOptions)
  deriving DecidableEq

structure Invocation where
  verbosity : Nat
  action : Action
  deriving DecidableEq

def verbose : Switch where
  name := "verbose"
  short := some 'v'
  arity := .tally

def schemaSwitch : Switch where
  name := "schema"
  short := some 's'
  arity := .single

def flag (name : String) : Switch where
  name := name
  arity := .flag

namespace CompileOptions

def switches : List Switch :=
  [verbose, schemaSwitch, ⟨"tokens", some 't', .single⟩, flag "envelope",
    ⟨"index", none, .single⟩, flag "count", ⟨"sort", none, .repeated⟩, flag "desc", flag "compact"]

def consistent (p : Parsed) : Bool :=
  p.needs "index" "envelope" && p.needs "count" "envelope" && p.needs "sort" "envelope" &&
    p.needs "desc" "sort"

def of? (p : Parsed) : Option CompileOptions := do
  let schema ← p.value? "schema"
  let tokens ← p.value? "tokens"
  if p.words.isEmpty && !schema.isEmpty && !tokens.isEmpty && consistent p then
    return {
      schema := schema
      tokens := tokens
      envelope := p.has "envelope"
      index := p.value? "index"
      count := p.has "count"
      sort := p.all "sort"
      descending := p.has "desc"
      compact := p.has "compact" }
  else none

end CompileOptions

namespace ResolveOptions

def switches : List Switch :=
  [verbose, schemaSwitch, flag "json", flag "candidates"]

def of? (p : Parsed) : Option ResolveOptions := do
  let schema ← p.value? "schema"
  if !p.words.isEmpty && !schema.isEmpty then
    return {
      schema := schema
      paths := p.words
      json := p.has "json"
      candidates := p.has "candidates" }
  else none

end ResolveOptions

namespace InitOptions

def switches : List Switch :=
  [verbose, flag "global", flag "force"]

def of? (p : Parsed) : Option InitOptions :=
  if p.words.isEmpty then some { personal := p.has "global", force := p.has "force" } else none

end InitOptions

namespace Action

def switches? : String → Option (List Switch)
  | "compile" => some CompileOptions.switches
  | "resolve" => some ResolveOptions.switches
  | "config" => some [verbose]
  | "init" => some InitOptions.switches
  | _ => none

def of? (name : String) (p : Parsed) : Option Action :=
  match name with
  | "compile" => (CompileOptions.of? p).map .compile
  | "resolve" => (ResolveOptions.of? p).map .resolve
  | "config" => if p.words.isEmpty then some .config else none
  | "init" => (InitOptions.of? p).map .init
  | _ => none

end Action

namespace Invocation

def innermost (inner outer : Nat) : Nat :=
  if inner = 0 then outer else inner

def parse (args : List String) : Option Invocation := do
  let (given, rest) ← Parsed.leading [verbose] args
  match rest with
  | [] => none
  | name :: rest =>
      let switches ← Action.switches? name
      let p ← Parsed.of switches rest
      let action ← Action.of? name p
      return ⟨innermost (p.count "verbose") given.length, action⟩

end Invocation

end Criteria.Command
