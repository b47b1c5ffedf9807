import Criteria.Proofs.Json.Decoding
import Criteria.Proofs.Json.Slots
import Criteria.Proofs.Schema.Position
import Criteria.Schema.Codec

namespace Criteria.Schema.Node

open Json Json.Decoder
open Members (slots slots_cons slots_nil)

def slot (n : Node) : String → Option Value
  | "name" => some (.string n.name)
  | "type" => some (.string n.tag)
  | "list" => some (.bool n.list)
  | "exists" => some (.bool n.declared)
  | "children" => if n.children = [] then none else some (.array (n.children.map encode))
  | _ => none

def sortedKeys : List String :=
  ["children", "exists", "list", "name", "type"]

theorem forestEncode_eq_map (ns : List Node) : forestEncode ns = ns.map encode := by
  induction ns with
  | nil => rfl
  | cons n ns ih => rw [forestEncode, ih, List.map_cons]

theorem encode_eq (n : Node) : n.encode = .object (slots n.slot sortedKeys) := by
  have listed : n.encode =
      .object (Members.gather (slots n.slot ["name", "type", "list", "exists", "children"])) := by
    obtain ⟨name, tag, list, declared, children⟩ := n
    cases children <;>
      simp [encode, slot, forestEncode_eq_map, Members.optional_some, Members.optional_none]
  rw [listed]
  exact congrArg Value.object (Members.gather_slots n.slot (by decide) (by decide))

theorem decodeForest_map {ns : List Node}
    (each : ∀ n ∈ ns, decode .inline (Source.ofValue n.encode) = .ok n) :
    decodeForest .inline (Source.ofValue (.array (ns.map encode))) = .ok ns := by
  have items : decodeEach .inline (Source.ofItems (ns.map encode)) = .ok ns := by
    induction ns with
    | nil => rfl
    | cons n ns ih =>
        obtain ⟨first, later⟩ := List.forall_mem_cons.mp each
        rw [List.map_cons, Source.ofItems, decodeEach, first, Except.ok_bind, ih later]
        rfl
  rw [Source.ofValue, decodeForest, enter, Except.ok_bind, items]
  rfl

theorem decode_encode (n : Node) : fromValue decode n.encode = .ok n := by
  induction n with
  | node n ih =>
      obtain ⟨name, tag, list, declared, children⟩ := n
      rw [encode_eq]
      cases children with
      | nil => rfl
      | cons child children =>
          have read := decodeForest_map ih
          change ((once "children" none (decodeForest .inline (Source.ofValue
            (.array ((child :: children).map encode))))).bind _).bind _ = _
          rw [read]
          rfl

theorem schema_reread :
    (∀ n : Node, fromValue decode n.encode = .ok n) ∧
      (∀ j, (fromValue decode j >>= fun n => fromValue decode n.encode) = fromValue decode j) ∧
      ∀ json, (decodeText json >>= fun n => fromValue decode n.encode) = decodeText json := by
  have again (read : Result Node) : (read >>= fun n => fromValue decode n.encode) = read := by
    cases read with
    | error e => rfl
    | ok n => exact decode_encode n
  exact ⟨decode_encode, fun j => again (fromValue decode j), fun json => again (decodeText json)⟩

end Criteria.Schema.Node
