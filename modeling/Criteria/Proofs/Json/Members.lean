import Criteria.Json.Value
import Mathlib.Data.String.Basic

namespace Criteria.Json

-- What a document holds under a key; one that is no object holds nothing.
def Value.member? (document : Value) (key : String) : Option Value :=
  match document with
  | .object members => Members.get? key members
  | _ => none

namespace Members

def Ordered (members : Members) : Prop :=
  members.Pairwise (fun a b => a.1 < b.1)

def without (keys : List String) (members : Members) : Members :=
  members.filter (fun m => m.1 ∉ keys)

def overlay (key : String) : Option Value → Members → Members
  | none, members => members
  | some value, members => members.put key value

theorem eq_of_perm_of_increasing {α : Type} (key : α → String) {first second : List α}
    (same : first.Perm second) (former : first.Pairwise (key · < key ·))
    (latter : second.Pairwise (key · < key ·)) : first = second :=
  same.eq_of_pairwise (fun _ _ _ _ ab ba => absurd (String.lt_trans ab ba) (String.lt_irrefl _))
    former latter

theorem lt_cases (j k : String) : j < k ∨ j = k ∨ k < j :=
  lt_trichotomy j k

theorem put_of_lt {key k : String} (h : key < k) (value v : Value) (rest : Members) :
    put key value ((k, v) :: rest) = (key, value) :: (k, v) :: rest := by
  rw [put, if_pos h]

theorem put_self (key : String) (value v : Value) (rest : Members) :
    put key value ((key, v) :: rest) = (key, value) :: rest := by
  rw [put, if_neg (String.lt_irrefl key), if_pos rfl]

theorem put_of_gt {key k : String} (h : k < key) (value v : Value) (rest : Members) :
    put key value ((k, v) :: rest) = (k, v) :: put key value rest := by
  have hn : ¬ key < k := fun hk => String.lt_irrefl k (String.lt_trans h hk)
  have hk : key ≠ k := fun hk => String.lt_irrefl k (hk ▸ h)
  rw [put, if_neg hn, if_neg hk]

@[simp]
theorem put_put_self (key : String) (value v : Value) (members : Members) :
    put key value (put key v members) = put key value members := by
  induction members with
  | nil => exact put_self key value v []
  | cons m rest ih =>
      obtain ⟨k, w⟩ := m
      rcases lt_cases key k with h | rfl | h
      · rw [put_of_lt h, put_of_lt h, put_self]
      · rw [put_self, put_self, put_self]
      · rw [put_of_gt h, put_of_gt h, put_of_gt h, ih]

theorem put_comm_of_lt {j k : String} (h : j < k) (a b : Value) (members : Members) :
    put j a (put k b members) = put k b (put j a members) := by
  induction members with
  | nil => exact (put_of_lt h a b []).trans (put_of_gt h b a []).symm
  | cons m rest ih =>
      obtain ⟨l, c⟩ := m
      rcases lt_cases j l with hj | rfl | hj
      · rw [put_of_lt hj, put_of_gt h]
        rcases lt_cases k l with hk | rfl | hk
        · rw [put_of_lt hk, put_of_lt h]
        · rw [put_self, put_of_lt h]
        · rw [put_of_gt hk, put_of_lt hj]
      · rw [put_self, put_of_gt h, put_of_gt h, put_self]
      · have hk : l < k := String.lt_trans hj h
        rw [put_of_gt hj, put_of_gt hk, put_of_gt hj, put_of_gt hk, ih]

theorem put_comm {j k : String} (h : j ≠ k) (a b : Value) (members : Members) :
    put j a (put k b members) = put k b (put j a members) := by
  rcases lt_cases j k with hj | rfl | hk
  · exact put_comm_of_lt hj a b members
  · exact absurd rfl h
  · exact (put_comm_of_lt hk b a members).symm

theorem put_overlay_self (key : String) (value : Value) (old : Option Value)
    (members : Members) : put key value (overlay key old members) = put key value members := by
  cases old with
  | none => rfl
  | some v => exact put_put_self key value v members

theorem put_overlay_comm {j k : String} (h : j ≠ k) (value : Value) (old : Option Value)
    (members : Members) :
    put j value (overlay k old members) = overlay k old (put j value members) := by
  cases old with
  | none => rfl
  | some v => exact put_comm h value v members

theorem get?_overlay_self (key : String) (value : Option Value) (members : Members) :
    get? key (overlay key value members) = value.or (get? key members) := by
  cases value with
  | none => rfl
  | some v => exact get?_put_self key v members

theorem get?_overlay_of_imp {key other : String} {value : Option Value}
    (h : other = key → value = none) (members : Members) :
    get? other (overlay key value members) = get? other members := by
  cases value with
  | none => rfl
  | some v => exact get?_put_of_ne (fun same => Option.some_ne_none v (h same)) v members

theorem get?_overlay_of_ne {key other : String} (h : other ≠ key) (value : Option Value)
    (members : Members) : get? other (overlay key value members) = get? other members :=
  get?_overlay_of_imp (fun same => absurd same h) members

theorem mem_of_mem_put {key : String} {value : Value} {members : Members} {m : String × Value}
    (h : m ∈ put key value members) : m = (key, value) ∨ m ∈ members := by
  induction members with
  | nil => exact .inl (List.mem_singleton.mp h)
  | cons head rest ih =>
      obtain ⟨k, v⟩ := head
      rcases lt_cases key k with hk | rfl | hk
      · rw [put_of_lt hk] at h
        exact List.mem_cons.mp h
      · rw [put_self] at h
        exact (List.mem_cons.mp h).imp_right (List.mem_cons_of_mem _)
      · rw [put_of_gt hk] at h
        rcases List.mem_cons.mp h with rfl | h
        · exact .inr List.mem_cons_self
        · exact (ih h).imp_right (List.mem_cons_of_mem _)

theorem exists_put_eq (key : String) (members : Members) :
    ∃ before after, ∀ value, put key value members = before ++ (key, value) :: after := by
  induction members with
  | nil => exact ⟨[], [], fun _ => rfl⟩
  | cons head rest ih =>
      obtain ⟨k, v⟩ := head
      rcases lt_cases key k with hk | rfl | hk
      · exact ⟨[], (k, v) :: rest, fun value => put_of_lt hk value v rest⟩
      · exact ⟨[], rest, fun value => put_self key value v rest⟩
      · obtain ⟨before, after, placed⟩ := ih
        refine ⟨(k, v) :: before, after, fun value => ?_⟩
        rw [put_of_gt hk, placed, List.cons_append]

theorem ordered_put (key : String) (value : Value) {members : Members} (h : Ordered members) :
    Ordered (put key value members) := by
  induction members with
  | nil => exact List.pairwise_singleton _ _
  | cons head rest ih =>
      obtain ⟨k, v⟩ := head
      obtain ⟨above, later⟩ := List.pairwise_cons.mp h
      rcases lt_cases key k with hk | rfl | hk
      · rw [put_of_lt hk]
        refine List.pairwise_cons.mpr ⟨List.forall_mem_cons.mpr ⟨hk, ?_⟩, h⟩
        exact fun m hm => String.lt_trans hk (above m hm)
      · rw [put_self]
        exact List.pairwise_cons.mpr ⟨above, later⟩
      · rw [put_of_gt hk]
        refine List.pairwise_cons.mpr ⟨?_, ih later⟩
        intro m hm
        rcases mem_of_mem_put hm with rfl | hm
        · exact hk
        · exact above m hm

theorem ordered_overlay (key : String) (value : Option Value) {members : Members}
    (h : Ordered members) : Ordered (overlay key value members) := by
  cases value with
  | none => exact h
  | some v => exact ordered_put key v h

theorem Ordered.nodup {members : Members} (h : Ordered members) :
    (members.map Prod.fst).Nodup := by
  rw [List.Nodup, List.pairwise_map]
  refine h.imp ?_
  intro a b hab heq
  rw [heq] at hab
  exact String.lt_irrefl b.1 hab

theorem get?_eq_some_iff {members : Members} (h : Ordered members) {key : String} {value : Value} :
    get? key members = some value ↔ (key, value) ∈ members := by
  induction members with
  | nil => simp [get?]
  | cons head rest ih =>
      obtain ⟨k, v⟩ := head
      obtain ⟨above, later⟩ := List.pairwise_cons.mp h
      rw [get?, List.mem_cons]
      split
      · rename_i hk
        subst hk
        have absent : (key, value) ∉ rest := fun hm => String.lt_irrefl key (above _ hm)
        simp [absent, eq_comm]
      · rename_i hk
        simp [ih later, hk]

theorem ordered_putAll {members : Members} (new : Members) (h : Ordered members) :
    Ordered (putAll members new) := by
  induction new generalizing members with
  | nil => exact h
  | cons m new ih => exact ih (ordered_put m.1 m.2 h)

theorem get?_putAll_map (f : String → Value) (key : String) (keys : List String)
    (members : Members) :
    get? key (putAll members (keys.map (fun k => (k, f k)))) =
      if key ∈ keys then some (f key) else get? key members := by
  induction keys generalizing members with
  | nil => simp [putAll]
  | cons k keys ih =>
      have later := ih (put k (f k) members)
      rw [putAll] at later ⊢
      rw [List.map_cons, List.foldl_cons, later]
      by_cases hm : key ∈ keys
      · rw [if_pos hm, if_pos (List.mem_cons_of_mem k hm)]
      · rw [if_neg hm]
        by_cases hk : key = k
        · rw [hk, get?_put_self, if_pos List.mem_cons_self]
        · rw [get?_put_of_ne hk, if_neg (by simp [hk, hm])]

theorem mem_gather_map {f : String → Value} {keys : List String} {m : String × Value} :
    m ∈ gather (keys.map (fun k => (k, f k))) ↔ m.1 ∈ keys ∧ m.2 = f m.1 := by
  have ordered : Ordered (gather (keys.map (fun k => (k, f k)))) :=
    ordered_putAll _ List.Pairwise.nil
  rw [← Prod.eta m, ← get?_eq_some_iff ordered, gather, get?_putAll_map]
  simp [get?, eq_comm]

theorem exists_gather_map (f : String → Value) {keys : List String} (distinct : keys.Nodup) :
    ∃ sorted : List String, sorted.Perm keys ∧ sorted.Pairwise (· < ·) ∧
      gather (keys.map (fun k => (k, f k))) = sorted.map (fun k => (k, f k)) := by
  have ordered : Ordered (gather (keys.map (fun k => (k, f k)))) :=
    ordered_putAll _ List.Pairwise.nil
  refine ⟨(gather (keys.map (fun k => (k, f k)))).map Prod.fst, ?_, ?_, ?_⟩
  · rw [List.perm_ext_iff_of_nodup ordered.nodup distinct]
    intro k
    rw [List.mem_map]
    constructor
    · rintro ⟨m, hm, rfl⟩
      exact (mem_gather_map.mp hm).1
    · exact fun hk => ⟨(k, f k), mem_gather_map.mpr ⟨hk, rfl⟩, rfl⟩
  · exact List.pairwise_map.mpr ordered
  · have entries : ∀ m ∈ gather (keys.map (fun k => (k, f k))), m = (m.1, f m.1) :=
      fun m hm => Prod.ext rfl (mem_gather_map.mp hm).2
    rw [List.map_map]
    exact (List.map_id _).symm.trans (List.map_congr_left entries)

theorem gather_append (first second : Members) :
    gather (first ++ second) = putAll (gather first) second := by
  rw [gather, gather, putAll, putAll, putAll, List.foldl_append]

@[simp]
theorem without_put {keys : List String} {key : String} (h : key ∈ keys) (value : Value)
    (members : Members) : without keys (put key value members) = without keys members := by
  induction members with
  | nil => simp [without, put, h]
  | cons head rest ih =>
      obtain ⟨k, v⟩ := head
      rcases lt_cases key k with hk | rfl | hk
      · rw [put_of_lt hk, without, List.filter_cons_of_neg (by simpa using h)]
        rfl
      · rw [put_self, without, without, List.filter_cons_of_neg (by simpa using h),
          List.filter_cons_of_neg (by simpa using h)]
      · rw [put_of_gt hk, without, without, List.filter_cons, List.filter_cons]
        exact congrArg (fun later => if decide (k ∉ keys) then (k, v) :: later else later) ih

theorem get?_append (key : String) (first second : Members) :
    get? key (first ++ second) = (get? key first).or (get? key second) := by
  induction first with
  | nil => rfl
  | cons head rest ih =>
      obtain ⟨k, v⟩ := head
      rw [List.cons_append, get?, get?]
      split
      · rfl
      · exact ih

@[simp]
theorem get?_optional_of_ne {key k : String} (h : key ≠ k) (value : Option Value) :
    get? key (optional k value) = none := by
  cases value with
  | none => rfl
  | some v => rw [optional, get?, if_neg h, get?]

end Members

end Criteria.Json
