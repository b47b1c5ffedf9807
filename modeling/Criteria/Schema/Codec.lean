import Criteria.Schema.Node
import Criteria.Json.Decoder

namespace Criteria.Schema.Node

open Json Json.Decoder

mutual
def fields : Node → Members
  | ⟨name, tag, list, declared, children⟩ =>
      [("name", .string name), ("type", .string tag), ("list", .bool list),
        ("exists", .bool declared)] ++
        (match children with
          | [] => []
          | n :: ns => [("children", .array (.object (fields n) :: forestFields ns))])
def forestFields : List Node → List Value
  | [] => []
  | n :: ns => .object (fields n) :: forestFields ns
end

mutual
def encode : Node → Value
  | ⟨name, tag, list, declared, children⟩ =>
      .object (Members.gather
        ([("name", .string name), ("type", .string tag), ("list", .bool list),
          ("exists", .bool declared)] ++
          (match children with
            | [] => []
            | n :: ns => [("children", .array (encode n :: forestEncode ns))])))
def forestEncode : List Node → List Value
  | [] => []
  | n :: ns => encode n :: forestEncode ns
end

structure Draft where
  name : Option String := none
  tag : Option String := none
  list : Option Bool := none
  declared : Option Bool := none
  children : Option (List Node) := none

def Draft.finish (d : Draft) : Result Node := do
  let name ← required "name" d.name
  let tag ← required "type" d.tag
  return ⟨name, tag, d.list.getD false, d.declared.getD true, d.children.getD []⟩

def Draft.finishItems (d : Draft) : Result Node :=
  match d.name, d.tag with
  | none, _ => refuse (.invalidLength 0 "struct SchemaNode with 5 elements")
  | some _, none => refuse (.invalidLength 1 "struct SchemaNode with 5 elements")
  | some name, some tag =>
      .ok ⟨name, tag, d.list.getD false, d.declared.getD true, d.children.getD []⟩

mutual
def decode (form : Form) : Source → Result Node
  | .object members ending => do
      let form ← enter form
      let d ← decodeMembers form {} members
      settle ending
      d.finish
  | .array items ending => do
      let form ← enter form
      let d ← decodeItems form {} 0 items
      settle ending
      d.finishItems
  | s => mismatch "struct SchemaNode" s
def decodeMembers (form : Form) (d : Draft) : List (Option String × Source) → Result Draft
  | [] => .ok d
  | (none, _) :: _ => .error .notJson
  | (some "name", s) :: rest => do
      let slot ← once "name" d.name (text s)
      decodeMembers form { d with name := slot } rest
  | (some "type", s) :: rest => do
      let slot ← once "type" d.tag (text s)
      decodeMembers form { d with tag := slot } rest
  | (some "list", s) :: rest => do
      let slot ← once "list" d.list (flag s)
      decodeMembers form { d with list := slot } rest
  | (some "exists", s) :: rest => do
      let slot ← once "exists" d.declared (flag s)
      decodeMembers form { d with declared := slot } rest
  | (some "children", s) :: rest => do
      let slot ← once "children" d.children (decodeForest form s)
      decodeMembers form { d with children := slot } rest
  | (some _, s) :: rest => do
      skip s
      decodeMembers form d rest
def decodeItems (form : Form) (d : Draft) (position : Nat) : List Source → Result Draft
  | [] => .ok d
  | s :: rest =>
      match position with
      | 0 => do
          let name ← text s
          decodeItems form { d with name := some name } 1 rest
      | 1 => do
          let tag ← text s
          decodeItems form { d with tag := some tag } 2 rest
      | 2 => do
          let list ← flag s
          decodeItems form { d with list := some list } 3 rest
      | 3 => do
          let declared ← flag s
          decodeItems form { d with declared := some declared } 4 rest
      | 4 => do
          let children ← decodeForest form s
          decodeItems form { d with children := some children } 5 rest
      | _ => surplus form (5 + 1 + rest.length)
def decodeForest (form : Form) : Source → Result (List Node)
  | .array items ending => do
      let form ← enter form
      let children ← decodeEach form items
      settle ending
      return children
  | s => mismatch "a sequence" s
def decodeEach (form : Form) : List Source → Result (List Node)
  | [] => .ok []
  | s :: rest => do
      let n ← decode form s
      let ns ← decodeEach form rest
      return n :: ns
end

def decodeText (json : String) : Result Node :=
  fromText decode json

end Criteria.Schema.Node
