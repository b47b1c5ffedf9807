import Criteria.Query.Tree
import Mathlib.Data.List.Basic

namespace Criteria.Query.Tree

variable {α β ε : Type}

theorem induction {motive : Tree α → Prop} (leaf : ∀ a, motive (.leaf a))
    (group : ∀ operator children, (∀ t ∈ children, motive t) → motive (.group operator children))
    (t : Tree α) : motive t :=
  @Tree.rec α motive (fun ts => ∀ t ∈ ts, motive t) leaf group (by simp)
    (fun _ _ ht hts => List.forall_mem_cons.mpr ⟨ht, hts⟩) t

attribute [induction_eliminator] induction

theorem forestLeaves_eq_flatMap (ts : List (Tree α)) : forestLeaves ts = ts.flatMap leaves := by
  induction ts with
  | nil => rfl
  | cons t ts ih => rw [forestLeaves, ih, List.flatMap_cons]

theorem forestMap_eq_map (f : α → β) (ts : List (Tree α)) : forestMap f ts = ts.map (map f) := by
  induction ts with
  | nil => rfl
  | cons t ts ih => rw [forestMap, ih, List.map_cons]

@[simp]
theorem leaves_leaf (a : α) : leaves (.leaf a) = [a] := by
  rw [leaves]

@[simp]
theorem leaves_group (operator : Operator) (children : List (Tree α)) :
    leaves (.group operator children) = children.flatMap leaves := by
  rw [leaves, forestLeaves_eq_flatMap]

theorem mem_leaves_of_mem {operator : Operator} {children : List (Tree α)} {t : Tree α}
    (ht : t ∈ children) {a : α} (ha : a ∈ t.leaves) : a ∈ leaves (.group operator children) := by
  rw [leaves_group]
  exact List.mem_flatMap_of_mem ht ha

@[simp]
theorem map_leaf (f : α → β) (a : α) : map f (.leaf a) = .leaf (f a) := by
  rw [map]

@[simp]
theorem map_group (f : α → β) (operator : Operator) (children : List (Tree α)) :
    map f (.group operator children) = .group operator (children.map (map f)) := by
  rw [map, forestMap_eq_map]

theorem leaves_map (f : α → β) (t : Tree α) : (map f t).leaves = t.leaves.map f := by
  induction t with
  | leaf a => simp
  | group operator children ih =>
      simp only [map_group, leaves_group, List.flatMap_map, List.map_flatMap]
      exact List.flatMap_congr ih

theorem forall_leaves_map {f : α → β} {t : Tree α} {p : β → Prop} (h : ∀ a ∈ t.leaves, p (f a)) :
    ∀ b ∈ (map f t).leaves, p b := by
  rw [leaves_map]
  exact List.forall_mem_map.mpr h

theorem flatMap_leaves_spliced (operator : Operator) (t : Tree α) :
    (spliced operator t).flatMap leaves = t.leaves := by
  cases t with
  | leaf a => simp [spliced]
  | group inner children =>
      simp only [spliced]
      split
      · rw [leaves_group]
      · simp

theorem leaves_collapse (operator : Operator) (ts : List (Tree α)) :
    leaves (collapse operator ts) = ts.flatMap leaves := by
  unfold collapse
  split
  · simp
  · rw [leaves_group]

theorem leaves_join (operator : Operator) (ts : List (Tree α)) :
    leaves (join operator ts) = ts.flatMap leaves := by
  rw [join, leaves_collapse, List.flatMap_assoc]
  exact List.flatMap_congr (fun t _ => flatMap_leaves_spliced operator t)

theorem forestTraverse_eq_map {f : α → Except ε β} {g : α → β} {ts : List (Tree α)}
    (h : ∀ t ∈ ts, traverse f t = .ok (map g t)) : forestTraverse f ts = .ok (ts.map (map g)) := by
  induction ts with
  | nil => rfl
  | cons t ts ih =>
      obtain ⟨ht, hts⟩ := List.forall_mem_cons.mp h
      rw [forestTraverse, ht, ih hts]
      rfl

theorem traverse_eq_map {f : α → Except ε β} {g : α → β} {t : Tree α}
    (h : ∀ a ∈ t.leaves, f a = .ok (g a)) : traverse f t = .ok (map g t) := by
  induction t with
  | leaf a =>
      rw [traverse, h a (by simp), map_leaf]
      rfl
  | group operator children ih =>
      have hc : ∀ t ∈ children, traverse f t = .ok (map g t) := by
        intro t ht
        apply ih t ht
        intro a ha
        exact h a (mem_leaves_of_mem ht ha)
      rw [traverse, forestTraverse_eq_map hc, map_group]
      rfl

theorem forestTraverse_congr {f g : α → Except ε β} {ts : List (Tree α)}
    (h : ∀ t ∈ ts, traverse f t = traverse g t) : forestTraverse f ts = forestTraverse g ts := by
  induction ts with
  | nil => rfl
  | cons t ts ih =>
      obtain ⟨ht, hts⟩ := List.forall_mem_cons.mp h
      rw [forestTraverse, forestTraverse, ht, ih hts]

theorem traverse_congr {f g : α → Except ε β} {t : Tree α} (h : ∀ a ∈ t.leaves, f a = g a) :
    traverse f t = traverse g t := by
  induction t with
  | leaf a => rw [traverse, traverse, h a (by simp)]
  | group operator children ih =>
      have each : ∀ t ∈ children, traverse f t = traverse g t :=
        fun t ht => ih t ht (fun a ha => h a (mem_leaves_of_mem ht ha))
      rw [traverse, traverse, forestTraverse_congr each]

theorem map_leaves_traverse (f : α → Except ε β) (t : Tree α) :
    (traverse f t).map leaves = t.leaves.mapM f := by
  induction t with
  | leaf a =>
      rw [traverse, leaves_leaf, List.mapM_cons]
      cases f a with
      | error e => rfl
      | ok b => exact congrArg Except.ok (leaves_leaf b)
  | group operator children ih =>
      have forest : (forestTraverse f children).map (fun ts => ts.flatMap leaves) =
          (children.flatMap leaves).mapM f := by
        induction children with
        | nil => rfl
        | cons t ts ihs =>
            obtain ⟨ht, hts⟩ := List.forall_mem_cons.mp ih
            rw [forestTraverse, List.flatMap_cons, List.mapM_append, ← ht, ← ihs hts]
            cases traverse f t with
            | error e => rfl
            | ok t => cases forestTraverse f ts <;> rfl
      rw [traverse, leaves_group, ← forest]
      cases forestTraverse f children with
      | error e => rfl
      | ok ts => exact congrArg Except.ok (leaves_group operator ts)

end Criteria.Query.Tree
