import Criteria.Json.Reader
import Criteria.Json.Writer
import Criteria.Text.Quoted

namespace Criteria.Json

def Found.describe : Found → String
  | .null => "null"
  | .bool b => "boolean `" ++ (if b then "true" else "false") ++ "`"
  | .integer n => "integer `" ++ toString n ++ "`"
  | .real x => "floating point `" ++ layout.write x ++ "`"
  | .string s => "string " ++ Text.Quoted.quoted s
  | .sequence => "sequence"
  | .map => "map"
  | .unitVariant => "unit variant"

inductive ShapeError where
  | invalidType (found : Found) (expected : String)
  | invalidValue (found : Found) (expected : String)
  | invalidLength (length : Nat) (expected : String)
  | unknownVariant (name : String) (known : List String)
  | missingField (name : String)
  | duplicateField (name : String)
  deriving DecidableEq

def alternatives : List String → String
  | [] => "there are no variants"
  | [a] => "expected `" ++ a ++ "`"
  | [a, b] => "expected `" ++ a ++ "` or `" ++ b ++ "`"
  | names => "expected one of " ++ String.intercalate ", " (names.map (fun n => "`" ++ n ++ "`"))

def ShapeError.message : ShapeError → String
  | .invalidType found expected => "invalid type: " ++ found.describe ++ ", expected " ++ expected
  | .invalidValue found expected => "invalid value: " ++ found.describe ++ ", expected " ++ expected
  | .invalidLength length expected =>
      "invalid length " ++ toString length ++ ", expected " ++ expected
  | .unknownVariant name known => "unknown variant `" ++ name ++ "`, " ++ alternatives known
  | .missingField name => "missing field `" ++ name ++ "`"
  | .duplicateField name => "duplicate field `" ++ name ++ "`"

inductive DecodeError where
  | notJson
  | shape (error : ShapeError)
  deriving DecidableEq

inductive Form where
  | inline
  | text (room : Nat)
  deriving DecidableEq

namespace Decoder

abbrev Result (α : Type) := Except DecodeError α

def refuse {α : Type} (error : ShapeError) : Result α :=
  .error (.shape error)

def enter : Form → Result Form
  | .inline => .ok .inline
  | .text 0 => .error .notJson
  | .text (room + 1) => .ok (.text room)

def mismatch {α : Type} (expected : String) (s : Source) : Result α :=
  match s.found? with
  | some found => refuse (.invalidType found expected)
  | none => .error .notJson

def skip (s : Source) : Result Unit :=
  if s.whole then .ok () else .error .notJson

def settle (ending : Ending) : Result Unit :=
  if ending = .closed then .ok () else .error .notJson

def text : Source → Result String
  | .string s => .ok s
  | s => mismatch "a string" s

def flag : Source → Result Bool
  | .bool b => .ok b
  | s => mismatch "a boolean" s

def unit : Source → Result Unit
  | .null => .ok ()
  | s => mismatch "unit" s

def word : Source → Result UInt32
  | .number (.integer n) =>
      if 0 ≤ n ∧ n < UInt32.size then .ok n.toNat.toUInt32
      else refuse (.invalidValue (.integer n) "u32")
  | s => mismatch "u32" s

def optional {α : Type} (decode : Source → Result α) : Source → Result (Option α)
  | .null => .ok none
  | s => (decode s).map some

def once {α : Type} (name : String) (slot : Option α) (decode : Result α) : Result (Option α) :=
  match slot with
  | some _ => refuse (.duplicateField name)
  | none => decode.map some

def required {α : Type} (name : String) : Option α → Result α
  | some a => .ok a
  | none => refuse (.missingField name)

def keep (form : Form) (key : String) (value : Value) (members : Members) : Members :=
  match form with
  | .inline => members ++ [(key, value)]
  | .text _ => members.put key value

mutual
def any (form : Form) : Source → Result Value
  | .null => .ok .null
  | .bool b => .ok (.bool b)
  | .number n => .ok (.number n)
  | .string s => .ok (.string s)
  | .array items ending => do
      let inner ← enter form
      let values ← anyItems inner items
      settle ending
      return .array values
  | .object members ending => do
      let inner ← enter form
      let values ← anyMembers inner [] members
      settle ending
      return .object values
  | .unreadable => .error .notJson
  | .broken => .error .notJson
def anyItems (form : Form) : List Source → Result (List Value)
  | [] => .ok []
  | s :: rest => do
      let v ← any form s
      let vs ← anyItems form rest
      return v :: vs
def anyMembers (form : Form) (done : Members) : List (Option String × Source) → Result Members
  | [] => .ok done
  | (none, _) :: _ => .error .notJson
  | (some key, s) :: rest => do
      let v ← any form s
      anyMembers form (keep form key v done) rest
end

def variant {α : Type} (form : Form) (names : List String)
    (content : Form → String → Option Source → Result α) (s : Source) : Result α :=
  let chosen (form : Form) (name : String) (inner : Option Source) : Result α :=
    if names.contains name then content form name inner
    else refuse (.unknownVariant name names)
  match form, s with
  | form, .string name => chosen form name none
  | .inline, .object [(some name, inner)] .closed => chosen .inline name (some inner)
  | .inline, .object _ _ => refuse (.invalidValue .map "map with a single key")
  | .inline, s => mismatch "string or map" s
  | .text room, .object members ending => do
      let inner ← enter (.text room)
      match members with
      | [] => .error .notJson
      | (none, _) :: _ => .error .notJson
      | (some name, value) :: rest =>
          let result ← chosen inner name (some value)
          if rest.isEmpty && ending = .closed then .ok result else .error .notJson
  | .text _, _ => .error .notJson

def unitContent {α : Type} (result : α) : Option Source → Result α
  | none => .ok result
  | some s => (unit s).map (fun _ => result)

def newtypeContent {α : Type} (decode : Source → Result α) : Option Source → Result α
  | none => refuse (.invalidType .unitVariant "newtype variant")
  | some s => decode s

def surplus {α : Type} (form : Form) (length : Nat) : Result α :=
  match form with
  | .inline => refuse (.invalidLength length "fewer elements in array")
  | .text _ => .error .notJson

def depthLimit : Nat := 127

def fromText {α : Type} (decode : Form → Source → Result α) (json : String) : Result α := do
  let (source, clean) := Reader.read json
  let result ← decode (.text depthLimit) source
  if clean then .ok result else .error .notJson

def fromValue {α : Type} (decode : Form → Source → Result α) (v : Value) : Result α :=
  decode .inline (Source.ofValue v)

def value? (json : String) : Option Value :=
  (fromText any json).toOption

end Decoder

end Criteria.Json
