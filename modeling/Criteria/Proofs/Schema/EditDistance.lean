import Criteria.Schema.Similarity
import Mathlib.Data.List.Basic
import Mathlib.Order.Bounds.Defs
import Mathlib.Order.MinMax

namespace Criteria.Schema

def editDistance : List Char → List Char → Nat
  | [], b => b.length
  | a, [] => a.length
  | c :: a, d :: b =>
      min (min (editDistance a b + if c = d then 0 else 1) (editDistance a (d :: b) + 1))
        (editDistance (c :: a) b + 1)
termination_by a b => a.length + b.length

inductive Edit : List Char → List Char → Prop
  | insert (before after : List Char) (c : Char) : Edit (before ++ after) (before ++ c :: after)
  | delete (before after : List Char) (c : Char) : Edit (before ++ c :: after) (before ++ after)
  | substitute (before after : List Char) (c d : Char) :
      Edit (before ++ c :: after) (before ++ d :: after)

inductive Edits : Nat → List Char → List Char → Prop
  | refl (a : List Char) : Edits 0 a a
  | head {n : Nat} {a b c : List Char} : Edit a b → Edits n b c → Edits (n + 1) a c

-- Both words are read from left to right, with at most n edits on the way.
inductive Within : Nat → List Char → List Char → Prop
  | nil (n : Nat) : Within n [] []
  | keep {n : Nat} {a b : List Char} (c : Char) : Within n a b → Within n (c :: a) (c :: b)
  | substitute {n : Nat} {a b : List Char} (c d : Char) :
      Within n a b → Within (n + 1) (c :: a) (d :: b)
  | delete {n : Nat} {a b : List Char} (c : Char) : Within n a b → Within (n + 1) (c :: a) b
  | insert {n : Nat} {a b : List Char} (d : Char) : Within n a b → Within (n + 1) a (d :: b)

theorem Edits.cons {n : Nat} {a b : List Char} (c : Char) (h : Edits n a b) :
    Edits n (c :: a) (c :: b) := by
  induction h with
  | refl a => exact .refl (c :: a)
  | head edit _ ih =>
      refine .head ?_ ih
      cases edit with
      | insert before after d => exact .insert (c :: before) after d
      | delete before after d => exact .delete (c :: before) after d
      | substitute before after d e => exact .substitute (c :: before) after d e

namespace Within

variable {m n : Nat} {a b x y : List Char}

theorem weaken (k : Nat) (h : Within n a b) : Within (k + n) a b := by
  induction h with
  | nil n => exact .nil (k + n)
  | keep c _ ih => exact .keep c ih
  | substitute c d _ ih => exact .substitute c d ih
  | delete c _ ih => exact .delete c ih
  | insert d _ ih => exact .insert d ih

theorem mono (h : Within m a b) (le : m ≤ n) : Within n a b :=
  Nat.sub_add_cancel le ▸ h.weaken (n - m)

theorem refl (a : List Char) : Within 0 a a := by
  induction a with
  | nil => exact .nil 0
  | cons c a ih => exact .keep c ih

theorem deleteAll (a : List Char) : Within a.length a [] := by
  induction a with
  | nil => exact .nil 0
  | cons c a ih => exact .delete c ih

theorem symm (h : Within n a b) : Within n b a := by
  induction h with
  | nil n => exact .nil n
  | keep c _ ih => exact .keep c ih
  | substitute c d _ ih => exact .substitute d c ih
  | delete c _ ih => exact .insert c ih
  | insert d _ ih => exact .delete d ih

theorem append (h : Within m a b) (h' : Within n x y) : Within (m + n) (a ++ x) (b ++ y) := by
  induction h with
  | nil m => exact h'.weaken m
  | keep c _ ih => exact .keep c ih
  | substitute c d _ ih => exact Nat.succ_add _ n ▸ .substitute c d ih
  | delete c _ ih => exact Nat.succ_add _ n ▸ .delete c ih
  | insert d _ ih => exact Nat.succ_add _ n ▸ .insert d ih

theorem reverse (h : Within n a b) : Within n a.reverse b.reverse := by
  induction h with
  | nil n => exact .nil n
  | keep c _ ih =>
      rw [List.reverse_cons, List.reverse_cons]
      exact ih.append (refl [c])
  | substitute c d _ ih =>
      rw [List.reverse_cons, List.reverse_cons]
      exact ih.append (.substitute c d (.nil 0))
  | @delete n a b c _ ih =>
      rw [List.reverse_cons, ← List.append_nil b.reverse]
      exact ih.append (.delete c (.nil 0))
  | @insert n a b d _ ih =>
      rw [List.reverse_cons, ← List.append_nil a.reverse]
      exact ih.append (.insert d (.nil 0))

-- What becomes of the first character; the characters inserted before it come one by one.
theorem head_induction {d : Char} {motive : Nat → List Char → Prop}
    (keep : ∀ n w, Within n b w → motive n (d :: w))
    (substitute : ∀ n w e, Within n b w → motive (n + 1) (e :: w))
    (delete : ∀ n w, Within n b w → motive (n + 1) w)
    (insert : ∀ n w e, motive n w → motive (n + 1) (e :: w)) {w : List Char}
    (h : Within n (d :: b) w) : motive n w := by
  generalize hd : d :: b = v at h
  induction h with
  | nil => cases hd
  | keep c h =>
      cases hd
      exact keep _ _ h
  | substitute c e h =>
      cases hd
      exact substitute _ _ e h
  | delete c h =>
      cases hd
      exact delete _ _ h
  | insert e _ ih => exact insert _ _ e (ih hd)

theorem trans (h : Within m a b) {w : List Char} (h' : Within n b w) : Within (m + n) a w := by
  induction h generalizing n w with
  | nil m => exact h'.weaken m
  | @keep m a b c _ ih =>
      refine head_induction (motive := fun n w => Within (m + n) (c :: a) w) ?_ ?_ ?_ ?_ h'
      · exact fun n w rest => .keep c (ih rest)
      · exact fun n w e rest => .substitute c e (ih rest)
      · exact fun n w rest => .delete c (ih rest)
      · exact fun n w e here => .insert e here
  | @substitute m a b c d _ ih =>
      refine head_induction (motive := fun n w => Within (m + 1 + n) (c :: a) w) ?_ ?_ ?_ ?_ h'
      · exact fun n w rest => (Within.substitute c d (ih rest)).mono (by omega)
      · exact fun n w e rest => (Within.substitute c e (ih rest)).mono (by omega)
      · exact fun n w rest => (Within.delete c (ih rest)).mono (by omega)
      · exact fun n w e here => .insert e here
  | delete c _ ih => exact (Within.delete c (ih h')).mono (by omega)
  | @insert m a b d _ ih =>
      refine head_induction (motive := fun n w => Within (m + 1 + n) a w) ?_ ?_ ?_ ?_ h'
      · exact fun n w rest => (Within.insert d (ih rest)).mono (by omega)
      · exact fun n w e rest => (Within.insert e (ih rest)).mono (by omega)
      · exact fun n w rest => (ih rest).mono (by omega)
      · exact fun n w e here => .insert e here

theorem of_edit (h : Edit a b) : Within 1 a b := by
  cases h with
  | insert before after c => exact (refl before).append (.insert c (refl after))
  | delete before after c => exact (refl before).append (.delete c (refl after))
  | substitute before after c d => exact (refl before).append (.substitute c d (refl after))

theorem of_edits (h : Edits n a b) : Within n a b := by
  induction h with
  | refl a => exact refl a
  | head edit _ ih => exact ((of_edit edit).trans ih).mono (by omega)

theorem exists_edits (h : Within n a b) : ∃ k ≤ n, Edits k a b := by
  induction h with
  | nil n => exact ⟨0, Nat.zero_le n, .refl []⟩
  | keep c _ ih =>
      obtain ⟨k, hk, later⟩ := ih
      exact ⟨k, hk, later.cons c⟩
  | @substitute n a b c d _ ih =>
      obtain ⟨k, hk, later⟩ := ih
      exact ⟨k + 1, Nat.succ_le_succ hk, .head (.substitute [] a c d) (later.cons d)⟩
  | @delete n a b c _ ih =>
      obtain ⟨k, hk, later⟩ := ih
      exact ⟨k + 1, Nat.succ_le_succ hk, .head (.delete [] a c) later⟩
  | @insert n a b d _ ih =>
      obtain ⟨k, hk, later⟩ := ih
      exact ⟨k + 1, Nat.succ_le_succ hk, .head (.insert [] a d) (later.cons d)⟩

theorem eq_of_zero (h : Within 0 a b) : a = b := by
  generalize hn : 0 = n at h
  induction h with
  | nil => rfl
  | keep c _ ih => exact congrArg (c :: ·) (ih hn)
  | substitute | delete | insert => cases hn

theorem length_le (h : Within n a b) : a.length ≤ b.length + n := by
  induction h with
  | nil n => exact Nat.zero_le _
  | keep | substitute | delete | insert => simp only [List.length_cons]; omega

theorem of_lengths : ∀ a b : List Char, Within (max a.length b.length) a b
  | [], b => (deleteAll b).symm.mono (Nat.le_max_right _ _)
  | a, [] => (deleteAll a).mono (Nat.le_max_left _ _)
  | c :: a, d :: b => Nat.add_max_add_right .. ▸ .substitute c d (of_lengths a b)

end Within

section Recurrence

variable {n : Nat} {a b : List Char}

theorem editDistance_nil_left (b : List Char) : editDistance [] b = b.length := by
  rw [editDistance]

theorem editDistance_nil_right (a : List Char) : editDistance a [] = a.length := by
  cases a <;> simp [editDistance]

theorem editDistance_cons (c d : Char) (a b : List Char) :
    editDistance (c :: a) (d :: b) =
      min (min (editDistance a b + if c = d then 0 else 1) (editDistance a (d :: b) + 1))
        (editDistance (c :: a) b + 1) := by
  rw [editDistance]

theorem editDistance_delete_le (c : Char) (a b : List Char) :
    editDistance (c :: a) b ≤ editDistance a b + 1 := by
  cases b with
  | nil => simp [editDistance_nil_right]
  | cons d b =>
      rw [editDistance_cons]
      exact (min_le_left _ _).trans (min_le_right _ _)

theorem editDistance_insert_le (d : Char) (a b : List Char) :
    editDistance a (d :: b) ≤ editDistance a b + 1 := by
  cases a with
  | nil => simp [editDistance_nil_left]
  | cons c a =>
      rw [editDistance_cons]
      exact min_le_right _ _

theorem editDistance_cons_le (c d : Char) (a b : List Char) :
    editDistance (c :: a) (d :: b) ≤ editDistance a b + if c = d then 0 else 1 := by
  rw [editDistance_cons]
  exact (min_le_left _ _).trans (min_le_left _ _)

theorem within_cons (c d : Char) (h : Within n a b) :
    Within (n + if c = d then 0 else 1) (c :: a) (d :: b) := by
  split
  · rename_i same
    exact same ▸ .keep c h
  · exact .substitute c d h

theorem within_editDistance (a b : List Char) : Within (editDistance a b) a b := by
  induction a, b using editDistance.induct with
  | case1 b =>
      rw [editDistance_nil_left]
      exact (Within.deleteAll b).symm
  | case2 a =>
      rw [editDistance_nil_right]
      exact Within.deleteAll a
  | case3 c a d b both left right =>
      rw [editDistance_cons]
      rcases min_choice (min (editDistance a b + if c = d then 0 else 1)
        (editDistance a (d :: b) + 1)) (editDistance (c :: a) b + 1) with h | h
      · rw [h]
        rcases min_choice (editDistance a b + if c = d then 0 else 1)
          (editDistance a (d :: b) + 1) with h | h
        · rw [h]
          exact within_cons c d both
        · rw [h]
          exact .delete c left
      · rw [h]
        exact .insert d right

theorem editDistance_le (h : Within n a b) : editDistance a b ≤ n := by
  induction h with
  | nil n => exact editDistance_nil_left [] ▸ Nat.zero_le n
  | @keep n a b c _ ih =>
      have same := editDistance_cons_le c c a b
      rw [if_pos rfl] at same
      exact same.trans ih
  | @substitute n a b c d _ ih =>
      have cost : (if c = d then 0 else 1) ≤ 1 := by split <;> omega
      exact (editDistance_cons_le c d a b).trans (Nat.add_le_add ih cost)
  | @delete n a b c _ ih => exact (editDistance_delete_le c a b).trans (Nat.succ_le_succ ih)
  | @insert n a b d _ ih => exact (editDistance_insert_le d a b).trans (Nat.succ_le_succ ih)

theorem editDistance_le_iff : editDistance a b ≤ n ↔ Within n a b :=
  ⟨(within_editDistance a b).mono, editDistance_le⟩

theorem isLeast_editDistance (a b : List Char) :
    IsLeast {n | Edits n a b} (editDistance a b) := by
  obtain ⟨k, hk, edits⟩ := (within_editDistance a b).exists_edits
  have least : editDistance a b ∈ lowerBounds {n | Edits n a b} :=
    fun n h => editDistance_le (.of_edits h)
  exact ⟨le_antisymm hk (least edits) ▸ edits, least⟩

theorem editDistance_eq_zero_iff : editDistance a b = 0 ↔ a = b := by
  rw [← Nat.le_zero, editDistance_le_iff]
  exact ⟨Within.eq_of_zero, fun same => same ▸ .refl a⟩

theorem editDistance_comm (a b : List Char) : editDistance a b = editDistance b a :=
  le_antisymm (editDistance_le (within_editDistance b a).symm)
    (editDistance_le (within_editDistance a b).symm)

theorem editDistance_triangle (a b c : List Char) :
    editDistance a c ≤ editDistance a b + editDistance b c :=
  editDistance_le ((within_editDistance a b).trans (within_editDistance b c))

theorem editDistance_reverse (a b : List Char) :
    editDistance a.reverse b.reverse = editDistance a b := by
  refine le_antisymm (editDistance_le (within_editDistance a b).reverse) ?_
  have back := (within_editDistance a.reverse b.reverse).reverse
  rw [List.reverse_reverse, List.reverse_reverse] at back
  exact editDistance_le back

theorem editDistance_concat (a b : List Char) (c d : Char) :
    editDistance (a ++ [c]) (b ++ [d]) =
      min (min (editDistance a b + if c = d then 0 else 1) (editDistance a (b ++ [d]) + 1))
        (editDistance (a ++ [c]) b + 1) := by
  rw [← editDistance_reverse (a ++ [c]), ← editDistance_reverse a, ← editDistance_reverse a,
    ← editDistance_reverse (a ++ [c])]
  simp only [List.reverse_concat, editDistance_cons]

end Recurrence

-- The distances from a to the beginnings of a word that are longer than before.
def rowFrom (a before : List Char) : List Char → List Nat
  | [] => []
  | d :: after => editDistance a (before ++ [d]) :: rowFrom a (before ++ [d]) after

def row (a word : List Char) : List Nat :=
  editDistance a [] :: rowFrom a [] word

theorem sweep_rowFrom (a before after : List Char) (c : Char) :
    sweep c (editDistance (a ++ [c]) before) (editDistance a before) after
      (rowFrom a before after) = rowFrom (a ++ [c]) before after := by
  induction after generalizing before with
  | nil => rfl
  | cons d after ih =>
      rw [rowFrom, sweep, rowFrom]
      simp only [← editDistance_concat, ih]

theorem nextRow_row (a word : List Char) (c : Char) :
    nextRow word (row a word) c = row (a ++ [c]) word := by
  have start : editDistance a [] + 1 = editDistance (a ++ [c]) [] := by
    simp [editDistance_nil_right]
  rw [row, nextRow, start, sweep_rowFrom, row]

theorem foldl_nextRow_row (a rest word : List Char) :
    rest.foldl (nextRow word) (row a word) = row (a ++ rest) word := by
  induction rest generalizing a with
  | nil => rw [List.foldl_nil, List.append_nil]
  | cons c rest ih => rw [List.foldl_cons, nextRow_row, ih, List.append_assoc,
      List.singleton_append]

theorem rowFrom_nil (before after : List Char) :
    rowFrom [] before after = List.range' (before.length + 1) after.length := by
  induction after generalizing before with
  | nil => rfl
  | cons d after ih =>
      rw [rowFrom, ih, editDistance_nil_left, List.length_append, List.length_singleton,
        List.length_cons, List.range'_succ]

theorem row_nil (word : List Char) : row [] word = List.range (word.length + 1) := by
  rw [row, rowFrom_nil, editDistance_nil_left, List.range_eq_range', List.range'_succ]
  rfl

theorem getLastD_rowFrom (a before after : List Char) :
    (rowFrom a before after).getLastD (editDistance a before) =
      editDistance a (before ++ after) := by
  induction after generalizing before with
  | nil => rw [rowFrom, List.getLastD_nil, List.append_nil]
  | cons d after ih =>
      rw [rowFrom, List.getLastD_cons, ih, List.append_assoc, List.singleton_append]

theorem distance_eq_editDistance (a b : List Char) : distance a b = editDistance a b := by
  rw [distance, ← row_nil, foldl_nextRow_row, row, List.getLastD_cons, getLastD_rowFrom,
    List.nil_append, List.nil_append]

theorem levenshtein_eq_editDistance (a b : String) :
    levenshtein a b = editDistance a.toList b.toList :=
  distance_eq_editDistance a.toList b.toList

theorem levenshtein_isLeast (a b : String) :
    levenshtein a b = editDistance a.toList b.toList ∧
      IsLeast {n | Edits n a.toList b.toList} (levenshtein a b) := by
  rw [levenshtein_eq_editDistance]
  exact ⟨rfl, isLeast_editDistance a.toList b.toList⟩

end Criteria.Schema
