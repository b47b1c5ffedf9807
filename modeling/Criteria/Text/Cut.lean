namespace Criteria.Text

variable {α : Type}

def cut (apart : α → Bool) : List α → List (List α)
  | [] => [[]]
  | c :: cs =>
      if apart c then [] :: cut apart cs
      else match cut apart cs with
        | [] => [[c]]
        | word :: words => (c :: word) :: words

theorem cut_ne_nil (apart : α → Bool) (cs : List α) : cut apart cs ≠ [] := by
  cases cs with
  | nil => simp [cut]
  | cons c cs =>
      simp only [cut]
      split
      · simp
      · split <;> simp

theorem cut_eq_singleton {apart : α → Bool} {cs : List α} (h : ∀ c ∈ cs, apart c = false) :
    cut apart cs = [cs] := by
  induction cs with
  | nil => rfl
  | cons c cs ih =>
      simp only [List.mem_cons, forall_eq_or_imp] at h
      simp [cut, ih h.2, h.1]

theorem apart_of_mem_cut {apart : α → Bool} {cs word : List α} (h : word ∈ cut apart cs) :
    ∀ c ∈ word, apart c = false := by
  induction cs generalizing word with
  | nil =>
      rw [List.mem_singleton.mp h]
      exact nofun
  | cons c cs ih =>
      obtain ⟨front, words, hw⟩ := List.exists_cons_of_ne_nil (cut_ne_nil apart cs)
      rw [cut, hw] at h
      rw [hw] at ih
      split at h
      · rcases List.mem_cons.mp h with rfl | h
        · exact nofun
        · exact ih h
      · rename_i hc
        rcases List.mem_cons.mp h with rfl | h
        · exact List.forall_mem_cons.mpr ⟨Bool.eq_false_iff.mpr hc, ih List.mem_cons_self⟩
        · exact ih (List.mem_cons_of_mem front h)

theorem cut_append {apart : α → Bool} {mark : α} (hm : apart mark = true) (cs rest : List α) :
    cut apart (cs ++ mark :: rest) = cut apart cs ++ cut apart rest := by
  induction cs with
  | nil => simp [cut, hm]
  | cons c cs ih =>
      by_cases hc : apart c = true
      · simp [cut, hc, ih]
      · obtain ⟨word, words, hw⟩ := List.exists_cons_of_ne_nil (cut_ne_nil apart cs)
        simp [cut, hc, ih, hw]

end Criteria.Text
