import Criteria.Json.Writer
import Criteria.Proofs.Json.Members

namespace Criteria.Json.Value

theorem intercalate_around (separator : String) (before after : List String) :
    ∃ left right, ∀ part,
      String.intercalate separator (before ++ part :: after) = left ++ part ++ right := by
  have ahead : ∃ right, ∀ part,
      String.intercalate separator (part :: after) = part ++ right := by
    cases after with
    | nil => exact ⟨"", fun part => by rw [String.intercalate_singleton, String.append_empty]⟩
    | cons next later =>
        exact ⟨separator ++ String.intercalate separator (next :: later), fun part => by
          rw [String.intercalate_cons_cons, String.append_assoc]⟩
  obtain ⟨right, ahead⟩ := ahead
  cases before with
  | nil => exact ⟨"", right, fun part => by rw [List.nil_append, ahead, String.empty_append]⟩
  | cons first former =>
      refine ⟨String.intercalate separator (first :: former) ++ separator, right, fun part => ?_⟩
      rw [String.intercalate_append_of_ne_nil (List.cons_ne_nil _ _) (List.cons_ne_nil _ _),
        ahead, ← String.append_assoc]

theorem compactMembers_eq_map (members : Members) :
    compactMembers members = members.map (fun m => writeString m.1 ++ ":" ++ m.2.compact) := by
  induction members with
  | nil => rfl
  | cons m members ih => rw [compactMembers, ih, List.map_cons]

theorem prettyMembers_eq_map (depth : Nat) (members : Members) :
    prettyMembers depth members =
      members.map (fun m => writeString m.1 ++ ": " ++ m.2.prettyAt depth) := by
  induction members with
  | nil => rfl
  | cons m members ih => rw [prettyMembers, ih, List.map_cons]

theorem block_of_ne_nil (left right : String) (depth : Nat) {parts : List String}
    (h : parts ≠ []) : block left right depth parts =
      left ++ String.intercalate "," (parts.map (indent (depth + 1) ++ ·)) ++ indent depth ++
        right := by
  cases parts with
  | nil => exact absurd rfl h
  | cons part parts => rfl

-- The text around a member does not depend on what the member holds.
theorem compact_put (key : String) (members : Members) :
    ∃ left right, ∀ value, (object (members.put key value)).compact =
      left ++ (writeString key ++ ":" ++ value.compact) ++ right := by
  obtain ⟨before, after, placed⟩ := Members.exists_put_eq key members
  obtain ⟨left, right, around⟩ := intercalate_around ","
    (before.map (fun m => writeString m.1 ++ ":" ++ m.2.compact))
    (after.map (fun m => writeString m.1 ++ ":" ++ m.2.compact))
  refine ⟨"\x7b" ++ left, right ++ "\x7d", fun value => ?_⟩
  rw [placed, compact, compactMembers_eq_map, List.map_append, List.map_cons, around]
  simp only [String.append_assoc]

theorem prettyAt_put (depth : Nat) (key : String) (members : Members) :
    ∃ left right, ∀ value, (object (members.put key value)).prettyAt depth =
      left ++ (writeString key ++ ": " ++ value.prettyAt (depth + 1)) ++ right := by
  obtain ⟨before, after, placed⟩ := Members.exists_put_eq key members
  obtain ⟨left, right, around⟩ := intercalate_around ","
    ((before.map (fun m => writeString m.1 ++ ": " ++ m.2.prettyAt (depth + 1))).map
      (indent (depth + 1) ++ ·))
    ((after.map (fun m => writeString m.1 ++ ": " ++ m.2.prettyAt (depth + 1))).map
      (indent (depth + 1) ++ ·))
  refine ⟨"\x7b" ++ left ++ indent (depth + 1), right ++ indent depth ++ "\x7d", fun value => ?_⟩
  rw [placed, prettyAt, prettyMembers_eq_map, block_of_ne_nil _ _ _ (by simp), List.map_append,
    List.map_append, List.map_cons, List.map_cons, around]
  simp only [String.append_assoc]

end Criteria.Json.Value
