import Criteria.Disk.Path
import Mathlib.Logic.Relation

namespace Criteria.Disk.Path

open Text

def Within (p dir : Path) : Prop :=
  Relation.ReflTransGen (fun inner outer => inner.parent? = some outer) p dir

def depth (p : Path) : Nat :=
  (trimmed p.pieces.tail).length + if p.pieces.head? = some "" then 0 else 1

theorem length_trimmed_le (pieces : List String) : (trimmed pieces).length ≤ pieces.length := by
  have h := (List.dropWhile_suffix (l := pieces.reverse) idle).length_le
  simpa [trimmed] using h

theorem pieces_of_plain {name : String} (h : '/' ∉ name.toList) : (Path.mk name).pieces = [name] := by
  have apart : ∀ c ∈ name.toList, decide (c = '/') = false := by
    intro c hc
    simp only [decide_eq_false_iff_not]
    rintro rfl
    exact h hc
  simp [pieces, cut_eq_singleton apart]

theorem pieces_append (front back : String) :
    (Path.mk (front ++ "/" ++ back)).pieces = (Path.mk front).pieces ++ (Path.mk back).pieces := by
  have hl : (front ++ "/" ++ back).toList = front.toList ++ '/' :: back.toList := by simp
  rw [pieces, hl, cut_append (by simp), List.map_append]
  rfl

theorem pieces_intercalate {names : List String} (ne : names ≠ [])
    (plain : ∀ name ∈ names, '/' ∉ name.toList) :
    (Path.mk (String.intercalate "/" names)).pieces = names := by
  induction names with
  | nil => contradiction
  | cons name names ih =>
      obtain ⟨here, later⟩ := List.forall_mem_cons.mp plain
      cases names with
      | nil => rw [String.intercalate_singleton, pieces_of_plain here]
      | cons next names =>
          rw [String.intercalate_cons_cons, pieces_append, pieces_of_plain here,
            ih (by simp) later, List.singleton_append]

theorem plain_of_mem_pieces {p : Path} {name : String} (h : name ∈ p.pieces) :
    '/' ∉ name.toList := by
  obtain ⟨cs, hc, rfl⟩ := List.mem_map.mp h
  rw [String.toList_ofList]
  intro hs
  have apart := apart_of_mem_cut hc '/' hs
  simp at apart

theorem depth_le (p : Path) : p.depth ≤ p.pieces.length := by
  have ne : p.pieces ≠ [] := by simp [pieces, cut_ne_nil]
  obtain ⟨first, rest, hp⟩ := List.exists_cons_of_ne_nil ne
  have hl := length_trimmed_le rest
  rw [depth, hp, List.tail_cons, List.length_cons]
  split <;> omega

theorem mem_of_mem_trimmed {name : String} {pieces : List String} (h : name ∈ trimmed pieces) :
    name ∈ pieces := by
  rw [trimmed, List.mem_reverse] at h
  exact List.mem_reverse.mp ((List.dropWhile_sublist idle).subset h)

theorem depth_of_plain {name : String} (h : '/' ∉ name.toList) :
    (Path.mk name).depth = if name = "" then 0 else 1 := by
  simp [depth, pieces_of_plain h, trimmed]

theorem depth_intercalate_le {first : String} {rest : List String}
    (plain : ∀ name ∈ first :: rest, '/' ∉ name.toList) :
    (Path.mk (String.intercalate "/" (first :: rest))).depth ≤
      rest.length + if first = "" then 0 else 1 := by
  have hl := length_trimmed_le rest
  simp only [depth, pieces_intercalate (by simp) plain, List.tail_cons, List.head?_cons,
    Option.some.injEq]
  omega

theorem parent?_cases {p q : Path} (h : p.parent? = some q) :
    ∃ first rest, p.pieces = first :: rest ∧
      (trimmed rest = [] ∧ first ≠ "" ∧ q = ⟨""⟩ ∨
        trimmed rest ≠ [] ∧ q = ⟨if first = "" then "/" else first⟩ ∨
        trimmed rest ≠ [] ∧
          q = ⟨String.intercalate "/" (first :: trimmed (trimmed rest).dropLast)⟩) := by
  cases hp : p.pieces with
  | nil => simp [parent?, hp] at h
  | cons first rest =>
      refine ⟨first, rest, rfl, ?_⟩
      simp only [parent?, hp] at h
      cases hn : trimmed rest with
      | nil =>
          simp only [hn] at h
          split at h
          · cases h
          · rename_i named
            cases h
            exact .inl ⟨rfl, named, rfl⟩
      | cons name names =>
          have ne : name :: names ≠ [] := List.cons_ne_nil name names
          simp only [hn] at h
          cases hk : trimmed (name :: names).dropLast with
          | nil =>
              simp only [hk] at h
              cases h
              exact .inr (.inl ⟨ne, rfl⟩)
          | cons next kept =>
              simp only [hk] at h
              cases h
              exact .inr (.inr ⟨ne, rfl⟩)

theorem depth_lt_of_parent {p q : Path} (h : p.parent? = some q) : q.depth < p.depth := by
  obtain ⟨first, rest, hp, steps⟩ := parent?_cases h
  have plain : ∀ name ∈ first :: rest, '/' ∉ name.toList :=
    fun name hn => plain_of_mem_pieces (hp ▸ hn)
  have hd : p.depth = (trimmed rest).length + if first = "" then 0 else 1 := by
    simp [depth, hp]
  rcases steps with ⟨_, named, rfl⟩ | ⟨ne, rfl⟩ | ⟨ne, rfl⟩
  · rw [hd, if_neg named, depth_of_plain (by simp)]
    simp
  · have deep := List.length_pos_iff.mpr ne
    have here : (Path.mk (if first = "" then "/" else first)).depth ≤
        if first = "" then 0 else 1 := by
      split
      · decide
      · rename_i named
        simp [depth_of_plain (plain first List.mem_cons_self), named]
    omega
  · have deep := List.length_pos_iff.mpr ne
    have inner : ∀ name ∈ first :: trimmed (trimmed rest).dropLast, '/' ∉ name.toList := by
      intro word hw
      rcases List.mem_cons.mp hw with rfl | hw
      · exact plain word List.mem_cons_self
      · have kept := List.dropLast_subset _ (mem_of_mem_trimmed hw)
        exact plain word (List.mem_cons_of_mem first (mem_of_mem_trimmed kept))
    have shorter := depth_intercalate_le inner
    have hl := length_trimmed_le (trimmed rest).dropLast
    rw [List.length_dropLast] at hl
    omega

theorem climb_of_root {p : Path} (h : p.parent? = none) (room : Nat) : climb room p = [p] := by
  cases room with
  | zero => rfl
  | succ room => rw [climb, h]; rfl

theorem climb_of_parent {p q : Path} (h : p.parent? = some q) (room : Nat) :
    climb (room + 1) p = p :: climb room q := by
  rw [climb, h]
  rfl

-- Room for every step up is enough, and more of it changes nothing.
theorem climb_eq {p : Path} {room more : Nat} (hr : p.depth ≤ room) (hm : p.depth ≤ more) :
    climb room p = climb more p := by
  induction room generalizing p more with
  | zero =>
      cases hp : p.parent? with
      | none => rw [climb_of_root hp, climb_of_root hp]
      | some q =>
          have := depth_lt_of_parent hp
          omega
  | succ room ih =>
      cases hp : p.parent? with
      | none => rw [climb_of_root hp, climb_of_root hp]
      | some q =>
          have hq := depth_lt_of_parent hp
          obtain ⟨more, rfl⟩ : ∃ k, more = k + 1 := ⟨more - 1, by omega⟩
          have same : climb room q = climb more q := ih (by omega) (by omega)
          rw [climb_of_parent hp, climb_of_parent hp, same]

theorem ancestors_of_root {p : Path} (h : p.parent? = none) : p.ancestors = [p] :=
  climb_of_root h _

theorem ancestors_of_parent {p q : Path} (h : p.parent? = some q) :
    p.ancestors = p :: q.ancestors := by
  have hq := depth_lt_of_parent h
  have hp := p.depth_le
  obtain ⟨room, hroom⟩ : ∃ k, p.pieces.length = k + 1 := ⟨p.pieces.length - 1, by omega⟩
  rw [ancestors, hroom, climb_of_parent h, ancestors, climb_eq (by omega) q.depth_le]

theorem exists_ancestors (p : Path) : ∃ above, p.ancestors = p :: above := by
  cases h : p.parent? with
  | none => exact ⟨[], ancestors_of_root h⟩
  | some q => exact ⟨q.ancestors, ancestors_of_parent h⟩

theorem Within.ancestors {p dir : Path} (h : p.Within dir) :
    ∃ below, p.ancestors = below ++ dir.ancestors ∧
      ∀ inner ∈ below, p.Within inner ∧ inner.Within dir := by
  induction h using Relation.ReflTransGen.head_induction_on with
  | refl => exact ⟨[], rfl, nofun⟩
  | @head p q step inside ih =>
      obtain ⟨below, hb, hw⟩ := ih
      refine ⟨p :: below, by rw [ancestors_of_parent step, hb, List.cons_append], ?_⟩
      intro inner hi
      rcases List.mem_cons.mp hi with rfl | hi
      · exact ⟨.refl, .head step inside⟩
      · exact ⟨.head step (hw inner hi).1, (hw inner hi).2⟩

theorem within_of_mem_climb {p dir : Path} {room : Nat} (h : dir ∈ climb room p) :
    p.Within dir := by
  induction room generalizing p with
  | zero =>
      rw [List.mem_singleton.mp h]
      exact .refl
  | succ room ih =>
      cases hp : p.parent? with
      | none =>
          rw [climb_of_root hp] at h
          rw [List.mem_singleton.mp h]
          exact .refl
      | some q =>
          rw [climb_of_parent hp] at h
          rcases List.mem_cons.mp h with rfl | h
          · exact .refl
          · exact .head hp (ih h)

theorem mem_ancestors_iff {p dir : Path} : dir ∈ p.ancestors ↔ p.Within dir := by
  constructor
  · exact within_of_mem_climb
  · intro h
    obtain ⟨below, hb, _⟩ := h.ancestors
    obtain ⟨above, ha⟩ := dir.exists_ancestors
    rw [hb, ha]
    exact List.mem_append_right below List.mem_cons_self

instance (p dir : Path) : Decidable (p.Within dir) :=
  decidable_of_iff (dir ∈ p.ancestors) mem_ancestors_iff

end Criteria.Disk.Path
