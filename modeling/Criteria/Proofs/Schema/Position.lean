import Criteria.Schema.Node
import Mathlib.Data.List.Basic

namespace Criteria.Schema

abbrev Position := List Nat

namespace Node

theorem induction {motive : Node → Prop}
    (node : ∀ n : Node, (∀ child ∈ n.children, motive child) → motive n) (n : Node) : motive n :=
  @Node.rec motive (fun ns => ∀ n ∈ ns, motive n) (fun name tag list declared children ih =>
    node ⟨name, tag, list, declared, children⟩ ih) (by simp)
    (fun _ _ hn hns => List.forall_mem_cons.mpr ⟨hn, hns⟩) n

attribute [induction_eliminator] induction

def at? : Node → Position → Option Node
  | n, [] => some n
  | n, i :: below => n.children[i]?.bind (fun child => child.at? below)

def namesTo : Node → Position → List String
  | _, [] => []
  | n, i :: below =>
      match n.children[i]? with
      | none => []
      | some child => child.name :: child.namesTo below

def above? (n : Node) : Position → Option Node
  | [] => none
  | i :: below => n.at? (i :: below).dropLast

mutual
def names : Node → List String
  | ⟨name, _, _, _, children⟩ => name :: forestNames children
def forestNames : List Node → List String
  | [] => []
  | n :: ns => names n ++ forestNames ns
end

mutual
def places : Node → List (Position × Node)
  | ⟨name, tag, list, declared, children⟩ =>
      ([], ⟨name, tag, list, declared, children⟩) :: forestPlaces 0 children
def forestPlaces (i : Nat) : List Node → List (Position × Node)
  | [] => []
  | n :: ns => (places n).map (Prod.map (i :: ·) id) ++ forestPlaces (i + 1) ns
end

@[simp]
theorem at?_nil (n : Node) : n.at? [] = some n := rfl

theorem at?_cons {n child : Node} {i : Nat} (h : n.children[i]? = some child) (below : Position) :
    n.at? (i :: below) = child.at? below := by
  rw [at?, h]
  rfl

theorem at?_cons_eq_some {n m : Node} {i : Nat} {below : Position} :
    n.at? (i :: below) = some m ↔
      ∃ child, n.children[i]? = some child ∧ child.at? below = some m :=
  Option.bind_eq_some_iff

theorem at?_append (n : Node) (p q : Position) :
    n.at? (p ++ q) = (n.at? p).bind (fun m => m.at? q) := by
  induction p generalizing n with
  | nil => rfl
  | cons i p ih =>
      rw [List.cons_append, at?, at?]
      cases n.children[i]? with
      | none => rfl
      | some child => exact ih child

theorem at?_append_of_at? {n m : Node} {p : Position} (h : n.at? p = some m) (q : Position) :
    n.at? (p ++ q) = m.at? q := by
  rw [at?_append, h]
  rfl

@[simp]
theorem namesTo_nil (n : Node) : n.namesTo [] = [] := rfl

theorem namesTo_cons {n child : Node} {i : Nat} (h : n.children[i]? = some child)
    (below : Position) : n.namesTo (i :: below) = child.name :: child.namesTo below := by
  rw [namesTo, h]

theorem namesTo_append {n m : Node} {p : Position} (h : n.at? p = some m) (q : Position) :
    n.namesTo (p ++ q) = n.namesTo p ++ m.namesTo q := by
  induction p generalizing n with
  | nil =>
      cases h
      rfl
  | cons i p ih =>
      obtain ⟨child, hc, hm⟩ := at?_cons_eq_some.mp h
      rw [List.cons_append, namesTo_cons hc, namesTo_cons hc, ih hm, List.cons_append]

theorem length_namesTo {n m : Node} {p : Position} (h : n.at? p = some m) :
    (n.namesTo p).length = p.length := by
  induction p generalizing n with
  | nil => rfl
  | cons i p ih =>
      obtain ⟨child, hc, hm⟩ := at?_cons_eq_some.mp h
      rw [namesTo_cons hc, List.length_cons, List.length_cons, ih hm]

theorem at?_concat_eq_some {n m : Node} {p : Position} {i : Nat} :
    n.at? (p ++ [i]) = some m ↔ ∃ above, n.at? p = some above ∧ above.children[i]? = some m := by
  rw [at?_append, Option.bind_eq_some_iff]
  simp only [at?_cons_eq_some, at?_nil, Option.some.injEq, exists_eq_right]

theorem namesTo_concat {n m : Node} {p : Position} {i : Nat} (h : n.at? (p ++ [i]) = some m) :
    n.namesTo (p ++ [i]) = n.namesTo p ++ [m.name] := by
  obtain ⟨above, ha, hm⟩ := at?_concat_eq_some.mp h
  rw [namesTo_append ha, namesTo_cons hm, namesTo_nil]

@[simp]
theorem above?_nil (n : Node) : n.above? [] = none := rfl

theorem above?_concat (n : Node) (p : Position) (i : Nat) : n.above? (p ++ [i]) = n.at? p := by
  cases p with
  | nil => rfl
  | cons j p =>
      rw [List.cons_append, above?, ← List.cons_append, List.dropLast_concat]

theorem above?_append {n m k : Node} {p q : Position} (h : n.at? p = some m)
    (hq : m.at? q = some k) : n.above? (p ++ q) = (m.above? q).or (n.above? p) := by
  rcases List.eq_nil_or_concat' q with rfl | ⟨front, i, rfl⟩
  · rw [List.append_nil, above?_nil, Option.none_or]
  · rw [at?_append, Option.bind_eq_some_iff] at hq
    obtain ⟨above, ha, _⟩ := hq
    rw [← List.append_assoc, above?_concat, above?_concat, at?_append_of_at? h, ha,
      Option.some_or]

theorem forestNames_eq_flatMap (ns : List Node) : forestNames ns = ns.flatMap names := by
  induction ns with
  | nil => rfl
  | cons n ns ih => rw [forestNames, ih, List.flatMap_cons]

theorem names_eq (n : Node) : n.names = n.name :: n.children.flatMap names := by
  cases n
  rw [names, forestNames_eq_flatMap]

theorem mem_names_of_child {n child : Node} {i : Nat} (hc : n.children[i]? = some child)
    {name : String} (h : name ∈ child.names) : name ∈ n.names := by
  rw [names_eq]
  exact List.mem_cons_of_mem _ (List.mem_flatMap_of_mem (List.mem_of_getElem? hc) h)

theorem name_mem_names {n m : Node} {p : Position} (h : n.at? p = some m) : m.name ∈ n.names := by
  induction p generalizing n with
  | nil =>
      cases h
      rw [names_eq]
      exact List.mem_cons_self
  | cons i p ih =>
      obtain ⟨child, hc, hm⟩ := at?_cons_eq_some.mp h
      exact mem_names_of_child hc (ih hm)

theorem mem_names_of_mem_namesTo {n : Node} {p : Position} {name : String}
    (h : name ∈ n.namesTo p) : name ∈ n.names := by
  induction p generalizing n with
  | nil => cases h
  | cons i p ih =>
      cases hc : n.children[i]? with
      | none => simp [namesTo, hc] at h
      | some child =>
          rw [namesTo_cons hc] at h
          rcases List.mem_cons.mp h with rfl | h
          · exact mem_names_of_child hc (name_mem_names (at?_nil child))
          · exact mem_names_of_child hc (ih h)

theorem forestPlaces_eq_flatMap (i : Nat) (ns : List Node) :
    forestPlaces i ns =
      (ns.zipIdx i).flatMap (fun (n, j) => n.places.map (Prod.map (j :: ·) id)) := by
  induction ns generalizing i with
  | nil => rfl
  | cons n ns ih => rw [forestPlaces, ih, List.zipIdx_cons, List.flatMap_cons]

theorem places_eq (n : Node) :
    n.places = ([], n) ::
      n.children.zipIdx.flatMap (fun (child, i) =>
        child.places.map (Prod.map (i :: ·) id)) := by
  cases n
  rw [places, forestPlaces_eq_flatMap]

theorem mem_places {n m : Node} {p : Position} : (p, m) ∈ n.places ↔ n.at? p = some m := by
  induction n generalizing p with
  | node n ih =>
      rw [places_eq, List.mem_cons, List.mem_flatMap]
      constructor
      · rintro (heq | ⟨⟨child, i⟩, hc, hm⟩)
        · obtain ⟨rfl, rfl⟩ := Prod.mk.inj heq
          rfl
        · obtain ⟨⟨below, k⟩, hk, heq⟩ := List.mem_map.mp hm
          obtain ⟨rfl, rfl⟩ := Prod.mk.inj heq
          have hi := List.mem_zipIdx_iff_getElem?.mp hc
          rw [at?_cons hi]
          exact (ih child (List.mem_of_getElem? hi)).mp hk
      · intro h
        cases p with
        | nil =>
            cases h
            exact .inl rfl
        | cons i below =>
            obtain ⟨child, hi, hm⟩ := at?_cons_eq_some.mp h
            have hc := (ih child (List.mem_of_getElem? hi)).mpr hm
            exact .inr ⟨(child, i), List.mem_zipIdx_iff_getElem?.mpr hi,
              List.mem_map.mpr ⟨(below, m), hc, rfl⟩⟩

theorem pairwise_zipIdx {α : Type} (xs : List α) :
    xs.zipIdx.Pairwise (fun a b => a.2 < b.2) := by
  rw [← List.pairwise_map (f := Prod.snd), List.zipIdx_map_snd]
  exact List.pairwise_lt_range'

-- Pre-order is the lexicographic order of positions: a node first, then its children one by one.
theorem pairwise_places (n : Node) : n.places.Pairwise (fun a b => a.1 < b.1) := by
  induction n with
  | node n ih =>
      rw [places_eq, List.pairwise_cons, List.pairwise_flatMap]
      refine ⟨?_, ?_, ?_⟩
      · intro place hm
        obtain ⟨⟨child, i⟩, _, hm⟩ := List.mem_flatMap.mp hm
        obtain ⟨below, _, rfl⟩ := List.mem_map.mp hm
        exact List.nil_lt_cons i below.1
      · intro ⟨child, i⟩ hc
        have hi := List.mem_zipIdx_iff_getElem?.mp hc
        rw [List.pairwise_map]
        refine (ih child (List.mem_of_getElem? hi)).imp ?_
        intro p q hpq
        exact List.cons_lt_cons_iff.mpr (.inr ⟨rfl, hpq⟩)
      · refine (pairwise_zipIdx n.children).imp ?_
        intro former latter hlt p hp q hq
        obtain ⟨_, _, rfl⟩ := List.mem_map.mp hp
        obtain ⟨_, _, rfl⟩ := List.mem_map.mp hq
        exact List.cons_lt_cons_iff.mpr (.inl hlt)

theorem hasChildren_of_at? {n m : Node} {p : Position} (ne : p ≠ []) (h : n.at? p = some m) :
    n.hasChildren = true := by
  obtain ⟨i, below, rfl⟩ := List.exists_cons_of_ne_nil ne
  obtain ⟨child, hc, _⟩ := at?_cons_eq_some.mp h
  have hn : n.children ≠ [] := List.ne_nil_of_mem (List.mem_of_getElem? hc)
  simpa [hasChildren] using hn

end Node

end Criteria.Schema
