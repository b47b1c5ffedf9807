import Criteria.Proofs.Json.Members

namespace Criteria.Json

namespace Members

def slots (value? : String → Option Value) (keys : List String) : Members :=
  keys.flatMap (fun key => optional key (value? key))

theorem optional_none (key : String) : optional key none = [] := rfl

theorem optional_some (key : String) (value : Value) : optional key (some value) = [(key, value)] :=
  rfl

@[simp]
theorem slots_nil (value? : String → Option Value) : slots value? [] = [] := rfl

@[simp]
theorem slots_cons (value? : String → Option Value) (key : String) (keys : List String) :
    slots value? (key :: keys) = optional key (value? key) ++ slots value? keys := rfl

theorem map_fst_slots_sublist (value? : String → Option Value) (keys : List String) :
    ((slots value? keys).map Prod.fst).Sublist keys := by
  induction keys with
  | nil => exact List.Sublist.slnil
  | cons key keys ih =>
      rw [slots_cons, List.map_append]
      cases value? key with
      | none => exact ih.cons key
      | some v => exact ih.cons_cons key

theorem put_perm {key : String} {members : Members} (fresh : key ∉ members.map Prod.fst)
    (value : Value) : (put key value members).Perm ((key, value) :: members) := by
  induction members with
  | nil => exact List.Perm.refl _
  | cons head rest ih =>
      obtain ⟨k, v⟩ := head
      rw [List.map_cons, List.mem_cons, not_or] at fresh
      rcases lt_cases key k with h | rfl | h
      · rw [put_of_lt h]
      · exact absurd rfl fresh.1
      · rw [put_of_gt h]
        exact ((ih fresh.2).cons (k, v)).trans (List.Perm.swap _ _ rest)

theorem putAll_perm {members new : Members} (distinct : ((members ++ new).map Prod.fst).Nodup) :
    (putAll members new).Perm (members ++ new) := by
  induction new generalizing members with
  | nil => rw [List.append_nil]; exact List.Perm.refl _
  | cons m new ih =>
      have split : (members ++ m :: new).Perm (m :: members ++ new) := List.perm_middle
      have apart := (split.map Prod.fst).nodup_iff.mp distinct
      have fresh : m.1 ∉ members.map Prod.fst := by
        rw [List.cons_append, List.map_cons, List.nodup_cons, List.map_append] at apart
        exact fun hm => apart.1 (List.mem_append_left _ hm)
      have placed := (put_perm fresh m.2).append_right new
      exact (ih ((placed.map Prod.fst).nodup_iff.mpr apart)).trans (placed.trans split.symm)

theorem gather_slots (value? : String → Option Value) {keys sorted : List String}
    (same : sorted.Perm keys) (increasing : sorted.Pairwise (· < ·)) :
    gather (slots value? keys) = slots value? sorted := by
  have distinct : keys.Nodup :=
    same.nodup (increasing.imp (fun h => (ne_of_lt h : _ ≠ _)))
  have listed : (gather (slots value? keys)).Perm (slots value? sorted) :=
    (putAll_perm (distinct.sublist (map_fst_slots_sublist value? keys))).trans
      (same.symm.flatMap_right _)
  have ordered : Ordered (slots value? sorted) :=
    List.pairwise_map.mp (increasing.sublist (map_fst_slots_sublist value? sorted))
  exact eq_of_perm_of_increasing Prod.fst listed (ordered_putAll _ List.Pairwise.nil) ordered

end Members

end Criteria.Json
