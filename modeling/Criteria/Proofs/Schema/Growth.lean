import Criteria.Proofs.Schema.Completeness
import Mathlib.Data.List.Forall2
import Mathlib.Data.List.Induction

namespace Criteria.Schema

open Text

namespace Position

def past (i : Nat) : Position → Position
  | [] => []
  | j :: below => (if j < i then j else j + 1) :: below

def under (i : Nat) (move : Position → Position) : Position → Position
  | [] => []
  | j :: below => j :: if j = i then move below else below

end Position

namespace Node

open Position (past under)

-- The index says where each position of the smaller tree lies in the larger one.
inductive Grows (extra : Node) : (Position → Position) → Node → Node → Prop
  | same (n : Node) : Grows extra id n n
  | here {n : Node} {front back : List Node} (split : n.children = front ++ back)
      (inner : n.hasChildren = true) :
      Grows extra (past front.length) n { n with children := front ++ extra :: back }
  | deeper {n child child' : Node} {front back : List Node} {move : Position → Position}
      (split : n.children = front ++ child :: back) (later : Grows extra move child child') :
      Grows extra (under front.length move) n { n with children := front ++ child' :: back }

namespace Grows

variable {extra n n' m : Node} {move : Position → Position} {p : Position}

theorem name (h : Grows extra move n n') : n'.name = n.name := by
  cases h <;> rfl

theorem list (h : Grows extra move n n') : n'.list = n.list := by
  cases h <;> rfl

theorem hasChildren (h : Grows extra move n n') : n'.hasChildren = n.hasChildren := by
  cases h with
  | same => rfl
  | here split inner =>
      rw [inner]
      simp [Node.hasChildren]
  | @deeper n child child' front back move split later =>
      rw [Node.hasChildren, Node.hasChildren, split]
      cases front <;> rfl

theorem nil (h : Grows extra move n n') : move [] = [] := by
  cases h <;> rfl

theorem singleton (h : Grows extra move n n') (i : Nat) : ∃ j, move [i] = [j] := by
  cases h with
  | same => exact ⟨i, rfl⟩
  | here split inner => exact ⟨_, rfl⟩
  | deeper split later =>
      refine ⟨i, ?_⟩
      rw [under, later.nil, ite_self]

theorem beside {i j : Nat} {below : Position} (hm : n.at? (i :: below) = some m)
    (child : n'.children[j]? = n.children[i]?) (moved : ∀ q, move (i :: q) = j :: q) :
    ∃ inner m', n'.at? (move (i :: below)) = some m' ∧ Grows extra inner m m' ∧
      ∀ q, move (i :: below ++ q) = move (i :: below) ++ inner q := by
  refine ⟨id, m, ?_, .same m, ?_⟩
  · rw [moved, at?, child]
    exact hm
  · intro q
    rw [List.cons_append, moved, moved]
    rfl

theorem descend (h : Grows extra move n n') (hm : n.at? p = some m) :
    ∃ inner m', n'.at? (move p) = some m' ∧ Grows extra inner m m' ∧
      ∀ q, move (p ++ q) = move p ++ inner q := by
  induction h generalizing p with
  | same n => exact ⟨id, m, hm, .same m, fun _ => rfl⟩
  | @here n front back split inner =>
      cases p with
      | nil =>
          cases hm
          exact ⟨past front.length, _, rfl, .here split inner, fun _ => rfl⟩
      | cons i below =>
          refine beside hm ?_ (fun _ => rfl)
          rw [split]
          grind
  | @deeper n child child' front back move split later ih =>
      cases p with
      | nil =>
          cases hm
          exact ⟨under front.length move, _, rfl, .deeper split later, fun _ => rfl⟩
      | cons i below =>
          by_cases hi : i = front.length
          · subst hi
            obtain ⟨here, hc, hm⟩ := at?_cons_eq_some.mp hm
            obtain rfl : child = here := by simpa [split] using hc
            obtain ⟨inner, m', hm', grows, moves⟩ := ih hm
            have top : ({ n with children := front ++ child' :: back } : Node).children[
                front.length]? = some child' := by simp
            refine ⟨inner, m', ?_, grows, ?_⟩
            · rw [under, if_pos rfl, at?_cons top, hm']
            · intro q
              rw [List.cons_append, under, under, if_pos rfl, if_pos rfl, moves,
                List.cons_append]
          · refine beside (j := i) hm ?_ (fun q => ?_)
            · rw [split]
              grind
            · rw [under, if_neg hi]

theorem concat (h : Grows extra move n n') {i : Nat} (hm : n.at? p = some m) :
    ∃ j m', move (p ++ [i]) = move p ++ [j] ∧ n'.at? (move p) = some m' ∧ m'.list = m.list := by
  obtain ⟨inner, m', hm', grows, moves⟩ := h.descend hm
  obtain ⟨j, hj⟩ := grows.singleton i
  exact ⟨j, m', hj ▸ moves [i], hm', grows.list⟩

theorem namesTo (h : Grows extra move n n') (hm : n.at? p = some m) :
    n'.namesTo (move p) = n.namesTo p := by
  induction p using List.reverseRecOn generalizing m with
  | nil =>
      rw [h.nil]
      rfl
  | append_singleton p i ih =>
      obtain ⟨above, ha, _⟩ := at?_concat_eq_some.mp hm
      obtain ⟨j, _, hj, _⟩ := h.concat (i := i) ha
      obtain ⟨_, m', hm', grows, _⟩ := h.descend hm
      rw [hj] at hm'
      rw [hj, namesTo_concat hm', namesTo_concat hm, ih ha, grows.name]

theorem above (h : Grows extra move n n') (hm : n.at? p = some m) :
    (n'.above? (move p)).any Node.list = (n.above? p).any Node.list := by
  rcases List.eq_nil_or_concat' p with rfl | ⟨place, i, rfl⟩
  · rw [h.nil]
    rfl
  · obtain ⟨above, ha, _⟩ := at?_concat_eq_some.mp hm
    obtain ⟨j, above', hj, ha', same⟩ := h.concat (i := i) ha
    rw [hj, above?_concat, above?_concat, ha, ha', Option.any_some, Option.any_some, same]

end Grows

section Sightings

variable {extra n n' : Node} {move : Position → Position}

def Moved (move : Position → Position) (a b : Position × Node) : Prop :=
  b.1 = move a.1 ∧ b.2.name = a.2.name

def sightings (keep : String → Bool) (places : List (Position × Node)) : List (Position × Node) :=
  places.filter (fun place => keep place.2.name)

theorem places_eq_cons (n : Node) : n.places = ([], n) :: forestPlaces 0 n.children := by
  cases n
  rfl

theorem forestPlaces_append (i : Nat) (xs ys : List Node) :
    forestPlaces i (xs ++ ys) = forestPlaces i xs ++ forestPlaces (i + xs.length) ys := by
  induction xs generalizing i with
  | nil => rfl
  | cons x xs ih =>
      rw [List.cons_append, forestPlaces, ih, forestPlaces, List.append_assoc, List.length_cons,
        Nat.add_assoc, Nat.add_comm 1]

theorem moved_forest {i j : Nat} {ns : List Node}
    (beside : ∀ k < ns.length, ∀ below, move ((i + k) :: below) = (j + k) :: below) :
    List.Forall₂ (Moved move) (forestPlaces i ns) (forestPlaces j ns) := by
  induction ns generalizing i j with
  | nil => exact .nil
  | cons n ns ih =>
      rw [forestPlaces, forestPlaces]
      apply List.rel_append
      · rw [List.forall₂_map_left_iff, List.forall₂_map_right_iff, List.forall₂_same]
        intro place _
        exact ⟨(beside 0 (Nat.zero_lt_succ _) place.1).symm, rfl⟩
      · apply ih
        intro k hk below
        have moved := beside (k + 1) (Nat.succ_lt_succ hk) below
        rwa [← Nat.add_assoc, Nat.add_right_comm, ← Nat.add_assoc j, Nat.add_right_comm j] at moved

variable {keep : String → Bool}

theorem sightings_append (keep : String → Bool) (xs ys : List (Position × Node)) :
    sightings keep (xs ++ ys) = sightings keep xs ++ sightings keep ys :=
  List.filter_append xs ys

theorem moved_sightings {xs ys : List (Position × Node)} (h : List.Forall₂ (Moved move) xs ys) :
    List.Forall₂ (Moved move) (sightings keep xs) (sightings keep ys) := by
  apply List.rel_filter _ h
  intro a b moved
  simp only [moved.2]

theorem sightings_map (keep : String → Bool) (i : Nat) (places : List (Position × Node)) :
    sightings keep (places.map (Prod.map (i :: ·) id)) =
      (sightings keep places).map (Prod.map (i :: ·) id) :=
  List.filter_map

theorem sightings_unrelated (apart : ∀ name ∈ extra.names, keep name = false) :
    sightings keep extra.places = [] := by
  rw [sightings, List.filter_eq_nil_iff]
  intro place hp
  rw [apart _ (name_mem_names (mem_places.mp hp))]
  exact Bool.false_ne_true

theorem Grows.sightings (h : Grows extra move n n')
    (apart : ∀ name ∈ extra.names, keep name = false) :
    List.Forall₂ (Moved move) (sightings keep n.places) (sightings keep n'.places) := by
  induction h with
  | same n => exact List.forall₂_same.mpr (fun _ _ => ⟨rfl, rfl⟩)
  | @here n front back split inner =>
      rw [places_eq_cons, places_eq_cons, split, forestPlaces_append, forestPlaces_append,
        forestPlaces, ← List.cons_append, ← List.cons_append, sightings_append,
        sightings_append, sightings_append, sightings_map, sightings_unrelated apart]
      apply List.rel_append
      · apply moved_sightings
        refine .cons ⟨rfl, rfl⟩ (moved_forest ?_)
        intro k hk below
        rw [past, Nat.zero_add, if_pos hk]
      · apply moved_sightings
        apply moved_forest
        intro k _ below
        rw [past, if_neg (by omega)]
        congr 1
        omega
  | @deeper n child child' front back move split later ih =>
      rw [places_eq_cons, places_eq_cons, split, forestPlaces_append, forestPlaces_append,
        forestPlaces, forestPlaces, ← List.cons_append, ← List.cons_append, sightings_append,
        sightings_append, sightings_append, sightings_append, sightings_map, sightings_map]
      apply List.rel_append
      · apply moved_sightings
        refine .cons ⟨rfl, rfl⟩ (moved_forest ?_)
        intro k hk below
        rw [under, if_neg (by omega)]
      · apply List.rel_append
        · rw [List.forall₂_map_left_iff, List.forall₂_map_right_iff]
          refine ih.imp ?_
          rintro a b ⟨position, named⟩
          refine ⟨?_, named⟩
          simp [under, position]
        · apply moved_sightings
          apply moved_forest
          intro k _ below
          rw [under, if_neg (by omega)]

end Sightings

end Node

section Options

variable {α β : Type} {R : α → α → Prop} {S : β → β → Prop}

theorem filter_rel {p : α → Bool} {xs ys : List α} (same : ∀ x y, R x y → p y = p x)
    (h : List.Forall₂ R xs ys) : List.Forall₂ R (xs.filter p) (ys.filter p) := by
  apply List.rel_filter _ h
  intro x y hxy
  simp only [same x y hxy]

theorem or_rel {a b a' b' : Option α} (ha : Option.Rel R a a') (hb : Option.Rel R b b') :
    Option.Rel R (a.or b) (a'.or b') := by
  cases ha with
  | none => exact hb
  | some hxy => exact .some hxy

theorem bind_rel {a b : Option α} {f g : α → Option β} (h : Option.Rel R a b)
    (later : ∀ x y, a = some x → R x y → Option.Rel S (f x) (g y)) :
    Option.Rel S (a.bind f) (b.bind g) := by
  cases h with
  | none => exact .none
  | some hxy => exact later _ _ rfl hxy

theorem map_rel {a b : Option α} {f g : α → β} (h : Option.Rel R a b)
    (later : ∀ x y, R x y → S (f x) (g y)) : Option.Rel S (a.map f) (b.map g) := by
  cases h with
  | none => exact .none
  | some hxy => exact .some (later _ _ hxy)

theorem rel_cases {a b : Option α} (h : Option.Rel R a b) :
    (a = none ∧ b = none) ∨ ∃ x y, a = some x ∧ b = some y ∧ R x y := by
  cases h with
  | none => exact .inl ⟨rfl, rfl⟩
  | @some x y hxy => exact .inr ⟨x, y, rfl, rfl, hxy⟩

end Options

section Rerun

variable {σ : Type} [Score σ] {extra n n' : Node} {move : Position → Position}

def Kin (extra n n' : Node) (move : Position → Position) (segment : String)
    (c d : Candidate σ) : Prop :=
  ∃ place inner, Occurs n segment place c ∧ Occurs n' segment (move place) d ∧
    Node.Grows extra inner c.node d.node ∧ ∀ q, move (place ++ q) = move place ++ inner q

structure Candidate.Alike (c d : Candidate σ) : Prop where
  similarity : d.similarity = c.similarity
  hasChildren : d.node.hasChildren = c.node.hasChildren
  depth : d.depth = c.depth

theorem Candidate.Alike.weight {c d : Candidate σ} (h : c.Alike d) : d.weight = c.weight := by
  rw [Candidate.weight, Candidate.weight, h.similarity, h.hasChildren, h.depth]

theorem Kin.alike (grows : Node.Grows extra move n n') {segment : String} {c d : Candidate σ}
    (h : Kin extra n n' move segment c d) : c.Alike d := by
  obtain ⟨place, inner, former, latter, deeper, _⟩ := h
  constructor
  · rw [former.similarity, latter.similarity, deeper.name]
  · exact deeper.hasChildren
  · rw [Candidate.depth, Candidate.depth, former.path, latter.path, grows.namesTo former.found]

namespace Thresholds

theorem candidates_kin (t : Thresholds σ) {segment : String} (grows : Node.Grows extra move n n')
    (apart : ∀ name ∈ extra.names, ¬ t.candidate ≤ similarity segment name) :
    List.Forall₂ (Kin extra n n' move segment) (t.candidates n segment)
      (t.candidates n' segment) := by
  have unseen : ∀ name ∈ extra.names, decide (t.candidate ≤ similarity segment name) = false :=
    fun name hn => decide_eq_false (apart name hn)
  have moved := List.forall₂_iff_zip.mp (grows.sightings unseen)
  rw [candidates, candidates, collect_eq_map, collect_eq_map, List.forall₂_map_left_iff,
    List.forall₂_map_right_iff, List.forall₂_iff_zip]
  refine ⟨moved.1, ?_⟩
  intro a b hab
  obtain ⟨position, _⟩ := moved.2 hab
  obtain ⟨ha, hb⟩ := List.of_mem_zip hab
  have former := Node.mem_places.mp (List.mem_of_mem_filter ha)
  have latter := Node.mem_places.mp (List.mem_of_mem_filter hb)
  obtain ⟨inner, m', hm, deeper, moves⟩ := grows.descend former
  rw [position] at latter
  obtain rfl := Option.some.inj (latter.symm.trans hm)
  refine ⟨a.1, inner, occurs_candidateAt former segment, ?_, deeper, moves⟩
  rw [← position] at latter ⊢
  exact occurs_candidateAt latter segment

section Parametric

variable {R : Candidate σ → Candidate σ → Prop} {cs ds : List (Candidate σ)}

theorem heaviest_rel (alike : ∀ c d, R c d → c.Alike d) (h : List.Forall₂ R cs ds) :
    Option.Rel R (heaviest cs) (heaviest ds) := by
  refine List.rel_foldl ?_ .none h
  intro best best' hbest c d hcd
  cases hbest with
  | none => exact .some hcd
  | @some b b' hb =>
      rw [heavier, heavier, (alike b b' hb).weight, (alike c d hcd).weight]
      split
      · exact .some hcd
      · exact .some hb

theorem select_rel (t : Thresholds σ) (alike : ∀ c d, R c d → c.Alike d) (structural : Bool)
    (h : List.Forall₂ R cs ds) :
    Option.Rel R (t.select structural cs) (t.select structural ds) := by
  have pool : List.Forall₂ R (cs.filter (eligible structural)) (ds.filter (eligible structural)) :=
    filter_rel (fun c d hcd => by rw [eligible, eligible, (alike c d hcd).hasChildren]) h
  apply or_rel
  · apply heaviest_rel alike
    refine filter_rel (fun c d hcd => ?_) pool
    rw [strongTier, strongTier, (alike c d hcd).similarity]
  · apply heaviest_rel alike
    refine filter_rel (fun c d hcd => ?_) pool
    rw [moderateTier, moderateTier, (alike c d hcd).similarity]

end Parametric

def Parallel (n n' : Node) (move : Position → Position) (segments : List String)
    (cs ds : List (Candidate σ)) : Prop :=
  ∃ place, Route n segments cs place ∧ Route n' segments ds (move place) ∧
    ds.map Candidate.similarity = cs.map Candidate.similarity

-- What one segment chooses is kin in both trees, so the next segment starts at such a pair again.
theorem bound_walk_parallel (t : Thresholds σ) {segments : List String}
    (grows : Node.Grows extra move n n')
    (apart : ∀ segment ∈ segments, ∀ name ∈ extra.names, ¬ t.candidate ≤ similarity segment name) :
    Option.Rel (Parallel n n' move segments) (bound (t.walk n segments))
      (bound (t.walk n' segments)) := by
  induction segments generalizing n n' move with
  | nil =>
      refine .some ⟨[], .here n, ?_, rfl⟩
      rw [grows.nil]
      exact .here n'
  | cons segment rest ih =>
      obtain ⟨here, later⟩ := List.forall_mem_cons.mp apart
      have selected := t.select_rel (fun c d => Kin.alike grows) (!rest.isEmpty)
        (t.candidates_kin grows here)
      rw [bound_walk_cons, bound_walk_cons]
      apply bind_rel selected
      intro c d hc kin
      have alike := kin.alike grows
      have inner := hasChildren_of_select hc
      obtain ⟨place, below, former, latter, deeper, moves⟩ := kin
      apply map_rel (ih deeper later)
      rintro cs ds ⟨rest, hcs, hds, same⟩
      refine ⟨place ++ rest, .down former inner hcs, ?_, ?_⟩
      · rw [moves]
        exact .down latter (fun more => alike.hasChildren.trans (inner more)) hds
      · rw [List.map_cons, List.map_cons, alike.similarity, same]

end Thresholds

structure Resolution.Regrown (extra root root' : Node) (move : Position → Position)
    (r r' : Resolution σ) : Prop where
  requested : r'.requested = r.requested
  canonicalPath : r'.canonicalPath = r.canonicalPath
  parentIsList : r'.parentIsList = r.parentIsList
  similarity : r'.similarity = r.similarity
  tier : r'.tier = r.tier
  missing : r.tier = .missing → r' = r
  node : r.tier ≠ .missing → ∃ position inner, r.Placed root position ∧
    r'.Placed root' (move position) ∧ Node.Grows extra inner r.node r'.node

namespace Thresholds

theorem resolve_regrown (t : Thresholds σ) {path : String} (grows : Node.Grows extra move n n')
    (apart : ∀ segment ∈ Dotted.segments path, ∀ name ∈ extra.names,
      ¬ t.candidate ≤ similarity segment name) :
    Resolution.Regrown extra n n' move (t.resolve n path) (t.resolve n' path) := by
  rcases rel_cases (t.bound_walk_parallel grows apart) with
    ⟨hc, hd⟩ | ⟨cs, ds, hc, hd, place, former, latter, same⟩
  · rw [resolve_of_unbound hc, resolve_of_unbound hd]
    exact ⟨rfl, rfl, rfl, rfl, rfl, fun _ => rfl, fun bound => absurd rfl bound⟩
  · obtain ⟨inner, m', hm', deeper, _⟩ := grows.descend former.node
    have names := grows.namesTo former.node
    have above := grows.above former.node
    have low : lowest ds = lowest cs := by
      rw [lowest, lowest, same]
    rw [resolve_of_bound hc, resolve_of_bound hd, former.settled former.node,
      latter.settled hm', names, above, low]
    refine ⟨rfl, rfl, rfl, rfl, rfl, ?_, ?_⟩
    · intro missing
      split at missing <;> cases missing
    · intro _
      refine ⟨place, inner, ⟨former.node, rfl, rfl⟩, ⟨hm', ?_, ?_⟩, deeper⟩
      · rw [names]
      · rw [above]

end Thresholds

end Rerun

namespace Thresholds

theorem resolve_unrelated (t : Thresholds Rat) (extra root root' : Node)
    (move : Position → Position) (grows : Node.Grows extra move root root') (path : String)
    (apart : ∀ name ∈ extra.names, ∀ segment ∈ Dotted.segments path,
      similarity segment name < t.candidate) :
    Resolution.Regrown extra root root' move (t.resolve root path) (t.resolve root' path) :=
  t.resolve_regrown grows (fun segment hs name hn => not_le.mpr (apart name hn segment hs))

def freight : Node where
  name := "freight"
  tag := "Freight"
  children := [.scalar "carrier" "String"]

def stocked : Node where
  name := "order"
  tag := "Order"
  children := [.scalar "customer" "String",
    { name := "lines", tag := "Line", list := true, children := [freight, article] }]

theorem stocked_grows : Node.Grows freight (Position.under 1 (Position.past 0)) order stocked := by
  have lines : order.children =
      [.scalar "customer" "String"] ++ ⟨"lines", "Line", true, true, [article]⟩ :: [] := rfl
  have articles : (⟨"lines", "Line", true, true, [article]⟩ : Node).children =
      [] ++ [article] := rfl
  exact .deeper lines (.here articles rfl)

theorem resolve_unrelated_order :
    (∀ name ∈ freight.names, ∀ segment ∈ Dotted.segments "order.article",
      (similarity segment name : Rat) < 4 / 5) ∧
    Resolution.Regrown freight order stocked (Position.under 1 (Position.past 0))
      ((⟨4 / 5, 7 / 10, 1 / 2⟩ : Thresholds Rat).resolve order "order.article")
      ((⟨4 / 5, 7 / 10, 1 / 2⟩ : Thresholds Rat).resolve stocked "order.article") := by
  have apart : ∀ name ∈ freight.names, ∀ segment ∈ Dotted.segments "order.article",
      (similarity segment name : Rat) < 4 / 5 := by
    decide +kernel
  exact ⟨apart, resolve_unrelated ⟨4 / 5, 7 / 10, 1 / 2⟩ freight order stocked _ stocked_grows
    "order.article" apart⟩

end Thresholds

end Criteria.Schema
