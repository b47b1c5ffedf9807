import Criteria.Json.Lexeme
import Criteria.Json.Source

namespace Criteria.Json.Reader

inductive Frame where
  | items (done : List Source)
  | members (done : List (Option String × Source)) (pending : Option (Option String))

inductive Mode where
  | value
  | firstItem
  | afterItem
  | firstKey
  | key
  | colon
  | afterMember
  | done (whole : Source) (clean : Bool)
  | failed (whole : Source)

structure State where
  mode : Mode
  frames : List Frame

def start : State :=
  ⟨.value, []⟩

def unwind (inner : Source) : List Frame → Source
  | [] => inner
  | .items done :: rest => unwind (.array (inner :: done).reverse .broken) rest
  | .members done pending :: rest =>
      unwind (.object ((pending.getD none, inner) :: done).reverse .broken) rest

def halt : List Frame → Source
  | [] => .broken
  | .items done :: rest => unwind (.array done.reverse .broken) rest
  | .members done none :: rest => unwind (.object done.reverse .broken) rest
  | .members done (some key) :: rest =>
      unwind (.object ((key, .broken) :: done).reverse .broken) rest

def fail (frames : List Frame) : State :=
  ⟨.failed (halt frames), []⟩

def supply (v : Source) : List Frame → State
  | [] => ⟨.done v true, []⟩
  | .items done :: rest => ⟨.afterItem, .items (v :: done) :: rest⟩
  | .members done pending :: rest =>
      ⟨.afterMember, .members ((pending.getD none, v) :: done) none :: rest⟩

def scalar? : Lexeme → Option Source
  | .null => some .null
  | .bool b => some (.bool b)
  | .number n => some (.number n)
  | .string s => some (.string s)
  | .unreadable => some .unreadable
  | .outOfRange => some .unreadable
  | _ => none

def begin (frames : List Frame) (l : Lexeme) : State :=
  match l with
  | .beginArray => ⟨.firstItem, .items [] :: frames⟩
  | .beginObject => ⟨.firstKey, .members [] none :: frames⟩
  | l =>
      match scalar? l with
      | some v => supply v frames
      | none => fail frames

def close : List Frame → State
  | .items done :: rest => supply (.array done.reverse .closed) rest
  | .members done _ :: rest => supply (.object done.reverse .closed) rest
  | [] => fail []

def named (key : Option String) : List Frame → State
  | .members done _ :: rest => ⟨.colon, .members done (some key) :: rest⟩
  | frames => fail frames

def step (s : State) (l : Lexeme) : State :=
  match s.mode, l with
  | .value, l => begin s.frames l
  | .firstItem, .endArray => close s.frames
  | .firstItem, l => begin s.frames l
  | .afterItem, .comma => ⟨.value, s.frames⟩
  | .afterItem, .endArray => close s.frames
  | .afterItem, _ => fail s.frames
  | .firstKey, .endObject => close s.frames
  | .firstKey, .string k => named (some k) s.frames
  | .firstKey, .unreadable => named none s.frames
  | .firstKey, _ => fail s.frames
  | .key, .string k => named (some k) s.frames
  | .key, .unreadable => named none s.frames
  | .key, _ => fail s.frames
  | .colon, .colon => ⟨.value, s.frames⟩
  | .colon, _ => fail s.frames
  | .afterMember, .comma => ⟨.key, s.frames⟩
  | .afterMember, .endObject => close s.frames
  | .afterMember, _ => fail s.frames
  | .done v _, _ => ⟨.done v false, []⟩
  | .failed v, _ => ⟨.failed v, []⟩

def finish (s : State) : Source × Bool :=
  match s.mode with
  | .done v clean => (v, clean)
  | .failed v => (v, false)
  | _ => (halt s.frames, false)

def read (text : String) : Source × Bool :=
  finish ((Lexeme.lex text.toList).foldl step start)

end Criteria.Json.Reader
