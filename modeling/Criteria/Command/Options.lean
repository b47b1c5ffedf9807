namespace Criteria.Command

inductive Arity where
  | flag
  | tally
  | single
  | repeated
  deriving DecidableEq, Repr

def Arity.takesValue : Arity → Bool
  | .flag => false
  | .tally => false
  | .single => true
  | .repeated => true

structure Switch where
  name : String
  short : Option Char := none
  arity : Arity
  deriving DecidableEq

structure Given where
  name : String
  value : Option String
  deriving DecidableEq

structure Parsed where
  given : List Given := []
  words : List String := []
  deriving DecidableEq

structure Reading where
  given : List Given
  awaiting : Option String := none
  deriving DecidableEq

namespace Switch

def named? (switches : List Switch) (name : String) : Option Switch :=
  switches.find? (fun s => s.name = name)

def lettered? (switches : List Switch) (c : Char) : Option Switch :=
  switches.find? (fun s => s.short = some c)

def unassigned (cs : List Char) : List Char :=
  match cs with
  | '=' :: rest => rest
  | _ => cs

def readLetters (switches : List Switch) : List Char → Option Reading
  | [] => some ⟨[], none⟩
  | c :: rest =>
      match lettered? switches c with
      | none => none
      | some s =>
          if s.arity.takesValue then
            if rest.isEmpty then some ⟨[], some s.name⟩
            else some ⟨[⟨s.name, some (String.ofList (unassigned rest))⟩], none⟩
          else (readLetters switches rest).map
            (fun r => { r with given := ⟨s.name, none⟩ :: r.given })

def readLong (switches : List Switch) (cs : List Char) : Option Reading := do
  let s ← named? switches (String.ofList (cs.takeWhile (· ≠ '=')))
  match s.arity.takesValue, cs.dropWhile (· ≠ '=') with
  | true, _ :: value => return ⟨[⟨s.name, some (String.ofList value)⟩], none⟩
  | true, [] => return ⟨[], some s.name⟩
  | false, [] => return ⟨[⟨s.name, none⟩], none⟩
  | false, _ :: _ => none

def dashed (arg : String) : Bool :=
  match arg.toList with
  | '-' :: _ :: _ => true
  | _ => false

def read (switches : List Switch) (arg : String) : Option Reading :=
  match arg.toList with
  | '-' :: '-' :: name => readLong switches name
  | '-' :: letters => readLetters switches letters
  | _ => none

def once (switches : List Switch) (given : List Given) : Bool :=
  switches.all (fun s =>
    match s.arity with
    | .flag | .single => (given.filter (fun g => g.name = s.name)).length ≤ 1
    | .tally | .repeated => true)

end Switch

namespace Parsed

def scan (switches : List Switch) : List String → Option Parsed
  | [] => some {}
  | arg :: args =>
      if arg = "--" then some { words := args }
      else if Switch.dashed arg then
        match Switch.read switches arg, args with
        | none, _ => none
        | some ⟨given, none⟩, args =>
            (scan switches args).map (fun p => { p with given := given ++ p.given })
        | some ⟨_, some _⟩, [] => none
        | some ⟨given, some name⟩, value :: rest =>
            if Switch.dashed value then none
            else (scan switches rest).map
              (fun p => { p with given := given ++ ⟨name, some value⟩ :: p.given })
      else (scan switches args).map (fun p => { p with words := arg :: p.words })

def leading (switches : List Switch) : List String → Option (List Given × List String)
  | [] => some ([], [])
  | arg :: args =>
      if Switch.dashed arg then do
        let r ← Switch.read switches arg
        let (given, rest) ← leading switches args
        return (r.given ++ given, rest)
      else some ([], arg :: args)

def of (switches : List Switch) (args : List String) : Option Parsed := do
  let p ← scan switches args
  if Switch.once switches p.given then return p else none

def count (p : Parsed) (name : String) : Nat :=
  (p.given.filter (fun g => g.name = name)).length

def has (p : Parsed) (name : String) : Bool :=
  p.given.any (fun g => g.name = name)

def all (p : Parsed) (name : String) : List String :=
  p.given.filterMap (fun g => if g.name = name then g.value else none)

def value? (p : Parsed) (name : String) : Option String :=
  (p.all name).head?

def needs (p : Parsed) (name other : String) : Bool :=
  !p.has name || p.has other

theorem has_iff_count_pos {p : Parsed} {name : String} : p.has name = true ↔ 0 < p.count name := by
  simp [has, count, List.length_pos_iff_exists_mem, List.mem_filter]

end Parsed

end Criteria.Command
