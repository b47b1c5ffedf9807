import Criteria.Text.Cut

namespace Criteria.Text.Dotted

def dot (c : Char) : Bool :=
  c = '.'

def segments (path : String) : List String :=
  (cut dot path.toList).map String.ofList

theorem segments_ne_nil (path : String) : segments path ≠ [] := by
  simp [segments, cut_ne_nil]

def join : List String → String
  | [] => ""
  | [word] => word
  | word :: words => word ++ "." ++ join words

def owner? (path : String) : Option String :=
  match segments path with
  | [] | [_] => none
  | words => some (join words.dropLast)

def head (path : String) : String :=
  (segments path).headD path

def begins (path stem : String) : Bool :=
  stem.toList.isPrefixOf path.toList

theorem dot_of_mem {cs : List Char} (h : '.' ∉ cs) : ∀ c ∈ cs, dot c = false := by
  intro c hc
  simp only [dot, decide_eq_false_iff_not]
  rintro rfl
  exact h hc

theorem segments_eq_singleton {word : String} (h : '.' ∉ word.toList) : segments word = [word] := by
  simp [segments, cut_eq_singleton (dot_of_mem h)]

theorem not_mem_of_mem_segments {path word : String} (h : word ∈ segments path) :
    '.' ∉ word.toList := by
  obtain ⟨cs, hc, rfl⟩ := List.mem_map.mp h
  rw [String.toList_ofList]
  intro hd
  have apart := apart_of_mem_cut hc '.' hd
  cases apart

theorem segments_append (front back : String) :
    segments (front ++ "." ++ back) = segments front ++ segments back := by
  have hl : (front ++ "." ++ back).toList = front.toList ++ '.' :: back.toList := by simp
  rw [segments, hl, cut_append rfl, List.map_append]
  rfl

theorem join_cons (word : String) {words : List String} (ne : words ≠ []) :
    join (word :: words) = word ++ "." ++ join words := by
  cases words with
  | nil => contradiction
  | cons next words => rfl

theorem join_concat {words : List String} (ne : words ≠ []) (last : String) :
    join (words ++ [last]) = join words ++ "." ++ last := by
  induction words with
  | nil => contradiction
  | cons word words ih =>
      cases words with
      | nil => rfl
      | cons next words =>
          have hn : next :: words ≠ [] := List.cons_ne_nil next words
          rw [List.cons_append, join_cons word (by simp), ih hn, join_cons word hn]
          simp only [String.append_assoc]

theorem mem_join_concat {words : List String} {last : String} (h : '.' ∈ last.toList) :
    '.' ∈ (join (words ++ [last])).toList := by
  cases words with
  | nil => exact h
  | cons word words =>
      rw [join_concat (List.cons_ne_nil word words)]
      simp [h]

theorem segments_join {words : List String} (ne : words ≠ [])
    (h : ∀ w ∈ words, '.' ∉ w.toList) : segments (join words) = words := by
  induction words with
  | nil => contradiction
  | cons w words ih =>
      have hw := segments_eq_singleton (h w (List.mem_cons_self ..))
      cases words with
      | nil => exact hw
      | cons v words =>
          have ih := ih (by simp) (fun u hu => h u (List.mem_cons_of_mem _ hu))
          rw [join_cons w (by simp), segments_append, hw, ih, List.singleton_append]

theorem join_map_cut (cs : List Char) :
    join ((cut dot cs).map String.ofList) = String.ofList cs := by
  induction cs with
  | nil => rfl
  | cons c cs ih =>
      obtain ⟨word, words, hw⟩ := List.exists_cons_of_ne_nil (cut_ne_nil dot cs)
      rw [hw, List.map_cons] at ih
      by_cases hc : dot c = true
      · have hd : c = '.' := of_decide_eq_true hc
        rw [cut, if_pos hc, hw, List.map_cons, List.map_cons, join_cons _ (by simp), ih, hd,
          String.ofList_cons]
        rfl
      · have hs : (cut dot (c :: cs)) = (c :: word) :: words := by
          rw [cut, if_neg hc, hw]
        rw [hs, List.map_cons, String.ofList_cons, String.ofList_cons, ← ih]
        cases words with
        | nil => rfl
        | cons next words =>
            have hn : (next :: words).map String.ofList ≠ [] := by simp
            rw [join_cons (String.singleton c ++ String.ofList word) hn,
              join_cons (String.ofList word) hn]
            simp only [String.append_assoc]

theorem join_segments (path : String) : join (segments path) = path := by
  rw [segments, join_map_cut, String.ofList_toList]

theorem owner?_append {front last : String} (h : '.' ∉ last.toList) :
    owner? (front ++ "." ++ last) = some front := by
  obtain ⟨word, words, hw⟩ := List.exists_cons_of_ne_nil (segments_ne_nil front)
  have hs : segments (front ++ "." ++ last) = segments front ++ [last] := by
    rw [segments_append, segments_eq_singleton h]
  have hf := join_segments front
  rw [hw] at hs hf
  have hd : (word :: (words ++ [last])).dropLast = word :: words := by
    rw [← List.cons_append, List.dropLast_concat]
  unfold owner?
  rw [hs, List.cons_append]
  split
  · contradiction
  · simp_all
  · rw [hd, hf]

theorem owner?_of_not_mem {word : String} (h : '.' ∉ word.toList) : owner? word = none := by
  rw [owner?, segments_eq_singleton h]

theorem two_le_length_segments {path : String} (h : '.' ∈ path.toList) :
    2 ≤ (segments path).length := by
  obtain ⟨front, back, hp⟩ := List.append_of_mem h
  have hs : path = String.ofList front ++ "." ++ String.ofList back := by
    rw [← String.toList_inj, hp]
    simp
  have hf := List.length_pos_iff.mpr (segments_ne_nil (String.ofList front))
  have hb := List.length_pos_iff.mpr (segments_ne_nil (String.ofList back))
  rw [hs, segments_append, List.length_append]
  omega

theorem exists_owner {path : String} (h : '.' ∈ path.toList) :
    ∃ owner, owner? path = some owner := by
  have hl := two_le_length_segments h
  unfold owner?
  split
  · simp_all
  · simp_all
  · exact ⟨_, rfl⟩

theorem isSome_owner?_iff {path : String} : (owner? path).isSome = true ↔ '.' ∈ path.toList := by
  constructor
  · intro h
    refine Decidable.byContradiction (fun plain => ?_)
    rw [owner?_of_not_mem plain] at h
    cases h
  · intro dotted
    obtain ⟨owner, ho⟩ := exists_owner dotted
    rw [ho]
    rfl

theorem exists_rest {path : String} (h : '.' ∈ path.toList) :
    ∃ rest, path = head path ++ "." ++ rest ∧ '.' ∉ (head path).toList := by
  obtain ⟨word, words, hw⟩ := List.exists_cons_of_ne_nil (segments_ne_nil path)
  have two := two_le_length_segments h
  have whole := join_segments path
  have ne : words ≠ [] := by
    rintro rfl
    rw [hw, List.length_singleton] at two
    omega
  have hh : head path = word := by
    rw [head, hw, List.headD_cons]
  rw [hw, join_cons word ne] at whole
  refine ⟨join words, by rw [hh, whole], ?_⟩
  rw [hh]
  exact not_mem_of_mem_segments (hw ▸ List.mem_cons_self)

end Criteria.Text.Dotted
