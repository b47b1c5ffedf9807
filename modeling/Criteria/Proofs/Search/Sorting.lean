import Criteria.Proofs.Json.Printing
import Criteria.Search.Stage

namespace Criteria.Search.SearchStage

open Json (Value Members writeString)

def sortOf (stage : Value) : Members :=
  lift (((lift (((lift stage).get? "$search").getD .null)).get? "sort").getD .null)

def sortMembers (order : SortOrder) (keys : List String) : Members :=
  keys.map (fun k => (k, sortKey order))

def sortedStage (body : Members) (order : SortOrder) (keys : List String) : Value :=
  .object [("$search", .object (body.put "sort" (.object (sortMembers order keys))))]

def compactSort (order : SortOrder) (keys : List String) : String :=
  "\"sort\":\x7b" ++
    String.intercalate "," (keys.map (fun k => writeString k ++ ":" ++ (sortKey order).compact)) ++
      "\x7d"

def prettySort (order : SortOrder) (keys : List String) : String :=
  "\"sort\": " ++ Value.block "\x7b" "\x7d" 2
    (keys.map (fun k => writeString k ++ ": " ++ (sortKey order).prettyAt 3))

-- What comes of a sort by fields: the keys of the sort object are not in the order of the fields.
structure Sorted (s : SearchStage) (body : Members) (order : SortOrder) (fields : List String)
    (next : SearchStage) (keys : List String) : Prop where
  added : s.addSort order fields = .ok next
  built : next.build = .ok (sortedStage body order keys)
  members : sortOf (sortedStage body order keys) = sortMembers order keys
  same : keys.Perm fields
  increasing : keys.Pairwise (· < ·)
  kept_iff : keys = fields ↔ fields.Pairwise (· < ·)
  reordered : ∀ other, other.Perm fields → s.addSort order other = .ok next
  compact : ∃ left right,
    (sortedStage body order keys).compact = left ++ compactSort order keys ++ right
  pretty : ∃ left right,
    (sortedStage body order keys).pretty = left ++ prettySort order keys ++ right

theorem sortKeys_eq (order : SortOrder) {fields : List String} (distinct : fields.Nodup) :
    ∃ keys : List String, keys.Perm fields ∧ keys.Pairwise (· < ·) ∧
      sortKeys order fields = .object (sortMembers order keys) := by
  obtain ⟨keys, same, increasing, gathered⟩ :=
    Members.exists_gather_map (fun _ => sortKey order) distinct
  exact ⟨keys, same, increasing, congrArg Value.object gathered⟩

theorem sortKeys_perm (order : SortOrder) {fields other : List String} (distinct : fields.Nodup)
    (same : other.Perm fields) : sortKeys order other = sortKeys order fields := by
  obtain ⟨keys, hp, hi, hk⟩ := sortKeys_eq order distinct
  obtain ⟨keys', hp', hi', hk'⟩ := sortKeys_eq order (same.nodup_iff.mpr distinct)
  rw [hk, hk', Members.eq_of_perm_of_increasing id (hp'.trans (same.trans hp.symm)) hi' hi]

theorem addSort_eq {s : SearchStage} {body : Members} (h : s.body = some body) (order : SortOrder)
    {fields : List String} (filled : fields ≠ []) :
    s.addSort order fields =
      .ok { s with body := some (body.put "sort" (sortKeys order fields)) } := by
  have some_field : fields.isEmpty = false := by simpa using filled
  simp only [addSort, bodyFor, h, some_field]
  rfl

theorem sortOf_sortedStage (body : Members) (order : SortOrder) (keys : List String) :
    sortOf (sortedStage body order keys) = sortMembers order keys := by
  simp only [sortOf, sortedStage, lift, Members.get?, if_pos, Option.getD_some,
    Members.get?_put_self]

theorem writeString_sort : writeString "sort" = "\"sort\"" := by
  decide

theorem compact_sortMembers (order : SortOrder) (keys : List String) :
    writeString "sort" ++ ":" ++ (Value.object (sortMembers order keys)).compact =
      compactSort order keys := by
  rw [Value.compact, Value.compactMembers_eq_map, sortMembers, List.map_map, writeString_sort]
  simp only [compactSort, Function.comp_def, ← String.append_assoc]
  rfl

theorem prettyAt_sortMembers (order : SortOrder) (keys : List String) :
    writeString "sort" ++ ": " ++ (Value.object (sortMembers order keys)).prettyAt 2 =
      prettySort order keys := by
  rw [Value.prettyAt, Value.prettyMembers_eq_map, sortMembers, List.map_map, writeString_sort]
  rfl

theorem compact_sortedStage (body : Members) (order : SortOrder) (keys : List String) :
    ∃ left right,
      (sortedStage body order keys).compact = left ++ compactSort order keys ++ right := by
  obtain ⟨left, right, around⟩ := Value.compact_put "sort" body
  refine ⟨"\x7b" ++ (writeString "$search" ++ ":" ++ left), right ++ "\x7d", ?_⟩
  rw [sortedStage, Value.compact, Value.compactMembers_eq_map, List.map_singleton,
    String.intercalate_singleton, around, compact_sortMembers]
  simp only [String.append_assoc]

theorem pretty_sortedStage (body : Members) (order : SortOrder) (keys : List String) :
    ∃ left right,
      (sortedStage body order keys).pretty = left ++ prettySort order keys ++ right := by
  obtain ⟨left, right, around⟩ := Value.prettyAt_put 1 "sort" body
  refine ⟨"\x7b" ++ (Value.indent 1 ++ (writeString "$search" ++ ": " ++ left)),
    right ++ Value.indent 0 ++ "\x7d", ?_⟩
  rw [sortedStage, Value.pretty, Value.prettyAt, Value.prettyMembers_eq_map, List.map_singleton,
    Value.block_of_ne_nil _ _ _ (List.cons_ne_nil _ _), List.map_singleton,
    String.intercalate_singleton, around, prettyAt_sortMembers]
  simp only [String.append_assoc]

theorem sort_alphabetical (s : SearchStage) (body : Members) (h : s.body = some body)
    (order : SortOrder) (fields : List String) (filled : fields ≠ []) (distinct : fields.Nodup) :
    ∃ next keys, Sorted s body order fields next keys := by
  obtain ⟨keys, same, increasing, gathered⟩ := sortKeys_eq order distinct
  refine ⟨{ s with body := some (body.put "sort" (sortKeys order fields)) }, keys, ?_⟩
  constructor
  case added => exact addSort_eq h order filled
  case built =>
    rw [gathered]
    rfl
  case members => exact sortOf_sortedStage body order keys
  case same => exact same
  case increasing => exact increasing
  case kept_iff =>
    exact ⟨fun kept => kept ▸ increasing, Members.eq_of_perm_of_increasing id same increasing⟩
  case reordered =>
    intro other perm
    have filled' : other ≠ [] := fun none => filled (List.nil_perm.mp (none ▸ perm))
    rw [addSort_eq h order filled', sortKeys_perm order distinct perm]
  case compact => exact compact_sortedStage body order keys
  case pretty => exact pretty_sortedStage body order keys

def byName : SearchStage :=
  withCriteria { index := "default" } (.object [("exists", .object [("path", .string "name")])])

theorem sort_alphabetical_byName :
    byName.body = some [("exists", .object [("path", .string "name")]),
        ("index", .string "default")] ∧
      ["rating", "price"] ≠ [] ∧ ["rating", "price"].Nodup ∧
      ∃ next keys, Sorted byName [("exists", .object [("path", .string "name")]),
        ("index", .string "default")] .ascending ["rating", "price"] next keys :=
  ⟨rfl, by simp, by decide,
    sort_alphabetical byName _ rfl .ascending ["rating", "price"] (by simp) (by decide)⟩

theorem sort_order_lost :
    ((byName.addSort .ascending ["rating", "price"]).bind build).map
        (fun stage => (sortOf stage).map Prod.fst) = .ok ["price", "rating"] ∧
      byName.addSort .ascending ["rating", "price"] =
        byName.addSort .ascending ["price", "rating"] :=
  ⟨rfl, rfl⟩

end Criteria.Search.SearchStage
