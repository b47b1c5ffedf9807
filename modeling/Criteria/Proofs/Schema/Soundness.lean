import Criteria.Proofs.Schema.Candidate
import Criteria.Proofs.Schema.Similarity
import Mathlib.Algebra.Order.Field.Rat
import Mathlib.Algebra.Order.Field.Basic
import Mathlib.Order.Bounds.Basic

namespace Criteria.Schema

open Text

variable {σ : Type}

structure Resolution.Placed (root : Node) (position : Position) (r : Resolution σ) : Prop where
  node : root.at? position = some r.node
  canonicalPath : r.canonicalPath = Dotted.join (root.namesTo position)
  parentIsList : r.parentIsList = (root.above? position).any Node.list

theorem Resolution.Placed.exists_list {root : Node} {position : Position} {r : Resolution σ}
    (h : r.Placed root position) (hl : r.parentIsList = true) :
    ∃ place i list, position = place ++ [i] ∧ root.at? place = some list ∧ list.list = true := by
  rw [h.parentIsList] at hl
  rcases List.eq_nil_or_concat' position with rfl | ⟨place, i, rfl⟩
  · cases hl
  · rw [Node.above?_concat] at hl
    cases ha : root.at? place with
    | none => simp [ha] at hl
    | some list => exact ⟨place, i, list, rfl, ha, by simpa [ha] using hl⟩

theorem Resolution.Placed.owner {root : Node} {place : Position} {i : Nat} {r : Resolution σ}
    (h : r.Placed root (place ++ [i])) (hd : '.' ∉ r.node.name.toList) :
    Dotted.owner? r.canonicalPath =
      if place = [] then none else some (Dotted.join (root.namesTo place)) := by
  rw [h.canonicalPath, Node.namesTo_concat h.node]
  split
  · rename_i hp
    rw [hp]
    exact Dotted.owner?_of_not_mem hd
  · rename_i hp
    obtain ⟨above, ha, _⟩ := Node.at?_concat_eq_some.mp h.node
    have ne : root.namesTo place ≠ [] := by
      rwa [← List.length_pos_iff, Node.length_namesTo ha, List.length_pos_iff]
    rw [Dotted.join_concat ne, Dotted.owner?_append hd]

theorem Resolution.Placed.segments {root : Node} {place : Position} {i : Nat} {r : Resolution σ}
    (h : r.Placed root (place ++ [i])) (plain : ∀ name ∈ root.names, '.' ∉ name.toList) :
    Dotted.segments r.canonicalPath = root.namesTo (place ++ [i]) := by
  rw [h.canonicalPath]
  apply Dotted.segments_join
  · rw [Node.namesTo_concat h.node]
    simp
  · intro name hn
    exact plain name (Node.mem_names_of_mem_namesTo hn)

namespace Thresholds

theorem bound_cons (s : Step σ) (steps : List (Step σ)) :
    bound (s :: steps) = s.chosen.bind (fun c => (bound steps).map (c :: ·)) := by
  rw [bound, List.mapM_cons]
  cases s.chosen with
  | none => rfl
  | some c => exact Option.map_eq_bind.symm

theorem bound_eq_some {steps : List (Step σ)} {chosen : List (Candidate σ)}
    (h : bound steps = some chosen) : steps.map Step.chosen = chosen.map some := by
  induction steps generalizing chosen with
  | nil =>
      cases h
      rfl
  | cons s steps ih =>
      rw [bound_cons, Option.bind_eq_some_iff] at h
      obtain ⟨c, hc, h⟩ := h
      obtain ⟨later, hl, rfl⟩ := Option.map_eq_some_iff.mp h
      rw [List.map_cons, List.map_cons, hc, ih hl]

theorem map_chosen {β : Type} {steps : List (Step σ)} {chosen : List (Candidate σ)}
    (h : bound steps = some chosen) (f : Candidate σ → β) :
    steps.map (fun step => step.chosen.map f) = (chosen.map f).map some := by
  have hm := congrArg (List.map (Option.map f)) (bound_eq_some h)
  simpa [Function.comp_def] using hm

theorem forall_chosen {steps : List (Step σ)} {chosen : List (Candidate σ)}
    (h : bound steps = some chosen) {p : Candidate σ → Prop} :
    (∀ step ∈ steps, ∀ c ∈ step.chosen, p c) ↔ ∀ c ∈ chosen, p c := by
  have hm := bound_eq_some h
  constructor
  · intro hp c hc
    obtain ⟨step, hs, he⟩ := List.mem_map.mp (hm ▸ List.mem_map_of_mem hc)
    exact hp step hs c he
  · intro hp step hs c he
    obtain ⟨d, hd, he'⟩ := List.mem_map.mp (hm ▸ List.mem_map_of_mem hs)
    cases he'.trans he
    exact hp c hd

theorem exists_chosen {steps : List (Step σ)} {cs : List (Candidate σ)} (h : bound steps = some cs)
    {p : Candidate σ → Prop} :
    (∃ step ∈ steps, ∃ c ∈ step.chosen, p c) ↔ ∃ c ∈ cs, p c := by
  have none := not_congr (forall_chosen h (p := fun c => ¬ p c))
  push Not at none
  exact none

end Thresholds

section Routes

variable [Score σ]

inductive Route : Node → List String → List (Candidate σ) → Position → Prop
  | here (start : Node) : Route start [] [] []
  | down {start : Node} {segment : String} {rest : List String} {c : Candidate σ}
      {chosen : List (Candidate σ)} {below position : Position}
      (first : Occurs start segment below c)
      (inner : rest ≠ [] → c.node.hasChildren = true)
      (later : Route c.node rest chosen position) :
      Route start (segment :: rest) (c :: chosen) (below ++ position)

def Thresholds.LevelByLevel (t : Thresholds σ) (root : Node) (path : String) : Prop :=
  (∀ step ∈ t.trail root path, ∀ c ∈ step.chosen, c.depth = 1) ∧
    (t.trail root path).map (fun step => step.chosen.map (fun c => c.node.name)) =
      (Dotted.segments (t.resolve root path).canonicalPath).map some

namespace Route

variable {start : Node} {segments : List String} {chosen : List (Candidate σ)}
  {position : Position}

theorem node (h : Route start segments chosen position) :
    start.at? position = some ((chosen.map Candidate.node).getLastD start) := by
  induction h with
  | here start => rfl
  | down first inner later ih =>
      rw [Node.at?_append_of_at? first.found, ih, List.map_cons, List.getLastD_cons]

theorem path (h : Route start segments chosen position) :
    chosen.flatMap Candidate.path = start.namesTo position := by
  induction h with
  | here start => rfl
  | down first inner later ih =>
      rw [Node.namesTo_append first.found, List.flatMap_cons, ih, first.path]

-- A candidate at its own start has no parent, and then the parent found before it still stands.
theorem parent (h : Route start segments chosen position) :
    (chosen.filterMap Candidate.parent).getLast? = start.above? position := by
  induction h with
  | here start => rfl
  | @down start segment rest c chosen below position first inner later ih =>
      have hc : (c :: chosen).filterMap Candidate.parent =
          c.parent.toList ++ chosen.filterMap Candidate.parent := by
        cases hp : c.parent <;> simp [hp]
      have hl : c.parent.toList.getLast? = c.parent := by
        cases c.parent <;> rfl
      rw [hc, List.getLast?_append, ih, hl, first.parent,
        Node.above?_append first.found later.node]

theorem length (h : Route start segments chosen position) : chosen.length = segments.length := by
  induction h with
  | here start => rfl
  | down first inner later ih => rw [List.length_cons, List.length_cons, ih]

theorem scored (h : Route start segments chosen position) :
    ∀ c ∈ chosen, ∃ segment ∈ segments, ∃ name ∈ start.names,
      c.similarity = similarity segment name := by
  suffices ∀ c ∈ chosen, ∃ segment ∈ segments, ∃ p m, start.at? p = some m ∧
      c.similarity = similarity segment m.name by
    intro c hc
    obtain ⟨segment, hs, p, m, hm, same⟩ := this c hc
    exact ⟨segment, hs, m.name, Node.name_mem_names hm, same⟩
  induction h with
  | here start => exact nofun
  | @down start segment rest c chosen below position first inner later ih =>
      rw [List.forall_mem_cons]
      refine ⟨⟨segment, List.mem_cons_self, below, c.node, first.found, first.similarity⟩, ?_⟩
      intro d hd
      obtain ⟨other, ho, p, m, hm, same⟩ := ih d hd
      exact ⟨other, List.mem_cons_of_mem segment ho, below ++ p, m,
        (Node.at?_append_of_at? first.found p).trans hm, same⟩

theorem length_le (h : Route start segments chosen position) (moves : ∀ c ∈ chosen, c.path ≠ []) :
    chosen.length ≤ position.length := by
  induction h with
  | here start => exact Nat.le_refl _
  | down first inner later ih =>
      obtain ⟨hc, hs⟩ := List.forall_mem_cons.mp moves
      have hb := first.length_path
      have hp := List.length_pos_iff.mpr hc
      have hl := ih hs
      rw [List.length_cons, List.length_append]
      omega

theorem level (h : Route start segments chosen position) (moves : ∀ c ∈ chosen, c.path ≠ [])
    (hl : position.length ≤ chosen.length) :
    (∀ c ∈ chosen, c.depth = 1) ∧
      chosen.map (fun c => c.node.name) = start.namesTo position := by
  induction h with
  | here start => exact ⟨nofun, rfl⟩
  | @down start segment rest c chosen below position first inner later ih =>
      obtain ⟨hc, hs⟩ := List.forall_mem_cons.mp moves
      have hb := first.length_path
      have hp := List.length_pos_iff.mpr hc
      have hle := later.length_le hs
      rw [List.length_cons, List.length_append] at hl
      obtain ⟨hd, hn⟩ := ih hs (by omega)
      have one : c.path.length = 1 := by omega
      refine ⟨List.forall_mem_cons.mpr ⟨one, hd⟩, ?_⟩
      rw [List.map_cons, hn, Node.namesTo_append first.found, ← first.path,
        first.path_of_length one]
      rfl

theorem placed (t : Thresholds σ) {root : Node} {path : String}
    (h : Route root segments chosen position) :
    (t.settled root path chosen).Placed root position where
  node := h.node
  canonicalPath := congrArg Dotted.join h.path
  parentIsList := congrArg (Option.any Node.list) h.parent

theorem settled {t : Thresholds σ} {root v : Node} {path : String}
    (h : Route root segments chosen position) (hv : root.at? position = some v) :
    t.settled root path chosen =
      { requested := path
        node := v
        canonicalPath := Dotted.join (root.namesTo position)
        parentIsList := (root.above? position).any Node.list
        similarity := Thresholds.lowest chosen
        tier := if t.strong ≤ Thresholds.lowest chosen then .strong else .moderate } := by
  have node : (chosen.map Candidate.node).getLastD root = v :=
    Option.some.inj (h.node.symm.trans hv)
  rw [Thresholds.settled, node, h.path, h.parent]

end Route

namespace Thresholds

theorem bound_walk_cons (t : Thresholds σ) (start : Node) (segment : String)
    (rest : List String) :
    bound (t.walk start (segment :: rest)) =
      (t.select (!rest.isEmpty) (t.candidates start segment)).bind (fun c =>
        (bound (t.walk c.node rest)).map (c :: ·)) := by
  rw [walk]
  cases hc : t.select (!rest.isEmpty) (t.candidates start segment) with
  | none => rfl
  | some c => exact bound_cons _ _

theorem hasChildren_of_select {t : Thresholds σ} {rest : List String} {cs : List (Candidate σ)}
    {c : Candidate σ} (h : t.select (!rest.isEmpty) cs = some c) (more : rest ≠ []) :
    c.node.hasChildren = true := by
  have structural : (!rest.isEmpty) = true := by simpa using more
  simpa [eligible, structural] using (mem_of_select h).2

theorem exists_route {t : Thresholds σ} {start : Node} {segments : List String}
    {chosen : List (Candidate σ)} (h : bound (t.walk start segments) = some chosen) :
    ∃ position, Route start segments chosen position := by
  induction segments generalizing start chosen with
  | nil =>
      cases h
      exact ⟨[], .here start⟩
  | cons segment rest ih =>
      rw [bound_walk_cons, Option.bind_eq_some_iff] at h
      obtain ⟨c, hc, h⟩ := h
      obtain ⟨later, hl, rfl⟩ := Option.map_eq_some_iff.mp h
      obtain ⟨position, hr⟩ := ih hl
      obtain ⟨below, hb⟩ := occurs_of_mem_candidates (mem_of_select hc).1
      exact ⟨below ++ position, .down hb (hasChildren_of_select hc) hr⟩

theorem ne_nil_of_bound {t : Thresholds σ} {root : Node} {path : String}
    {chosen : List (Candidate σ)} (h : bound (t.trail root path) = some chosen) : chosen ≠ [] := by
  obtain ⟨position, route⟩ := exists_route h
  rw [← List.length_pos_iff, route.length, List.length_pos_iff]
  exact Dotted.segments_ne_nil path

theorem resolve_of_bound {t : Thresholds σ} {root : Node} {path : String}
    {chosen : List (Candidate σ)} (h : bound (t.trail root path) = some chosen) :
    t.resolve root path = t.settled root path chosen := by
  rw [resolve, h]

theorem exists_bound {t : Thresholds σ} {root : Node} {path : String}
    (h : (t.resolve root path).isDeclared = true) :
    ∃ chosen, bound (t.trail root path) = some chosen := by
  cases hb : bound (t.trail root path) with
  | none =>
      rw [resolve, hb] at h
      cases h
  | some chosen => exact ⟨chosen, rfl⟩

theorem exists_placed {t : Thresholds σ} {root : Node} {path : String}
    (h : (t.resolve root path).isDeclared = true) :
    ∃ position, (t.resolve root path).Placed root position := by
  obtain ⟨chosen, hb⟩ := exists_bound h
  obtain ⟨position, route⟩ := exists_route hb
  exact ⟨position, resolve_of_bound hb ▸ route.placed t⟩

theorem resolve_of_unbound {t : Thresholds σ} {root : Node} {path : String}
    (h : bound (t.trail root path) = none) : t.resolve root path = missing path := by
  rw [resolve, h]

theorem LevelByLevel.of_route {t : Thresholds σ} {root : Node} {path : String}
    {chosen : List (Candidate σ)} {position : Position}
    (h : bound (t.trail root path) = some chosen)
    (route : Route root (Dotted.segments path) chosen position)
    (canonical : Dotted.segments (t.resolve root path).canonicalPath = root.namesTo position)
    (moves : ∀ c ∈ chosen, c.path ≠ []) (hl : position.length ≤ chosen.length) :
    t.LevelByLevel root path := by
  obtain ⟨level, names⟩ := route.level moves hl
  refine ⟨(forall_chosen h).mpr level, ?_⟩
  rw [canonical, ← names]
  exact map_chosen h _

theorem LevelByLevel.length {t : Thresholds σ} {root : Node} {path : String}
    (h : t.LevelByLevel root path) (hd : (t.resolve root path).isDeclared = true) :
    (Dotted.segments path).length =
      (Dotted.segments (t.resolve root path).canonicalPath).length := by
  obtain ⟨chosen, hb⟩ := exists_bound hd
  obtain ⟨position, route⟩ := exists_route hb
  have hm := congrArg List.length ((map_chosen hb (fun c => c.node.name)).symm.trans h.2)
  rw [List.length_map, List.length_map, List.length_map] at hm
  rw [← hm, route.length]

end Thresholds

end Routes

section Exact

theorem Route.similarity_le_one {start : Node} {segments : List String}
    {chosen : List (Candidate Rat)} {position : Position}
    (h : Route start segments chosen position) : ∀ c ∈ chosen, c.similarity ≤ 1 := by
  intro c hc
  obtain ⟨segment, _, name, _, same⟩ := h.scored c hc
  rw [same]
  exact Schema.similarity_le_one segment name

namespace Thresholds

theorem lower_eq_min (a b : Rat) : lower a b = min a b := by
  rw [lower, min_def]
  split
  · rename_i h
    rw [if_neg (not_le.mpr h)]
  · rename_i h
    rw [if_pos (not_lt.mp h)]

theorem isLeast_foldl_lower (a : Rat) (scores : List Rat) :
    IsLeast {s | s ∈ a :: scores} (scores.foldl lower a) := by
  induction scores generalizing a with
  | nil => exact ⟨List.mem_singleton_self a, fun s hs => (List.mem_singleton.mp hs).ge⟩
  | cons s scores ih =>
      rw [List.foldl_cons, lower_eq_min]
      obtain ⟨hm, hl⟩ := ih (min a s)
      have ha : scores.foldl lower (min a s) ≤ min a s := hl List.mem_cons_self
      constructor
      · rcases List.mem_cons.mp hm with hm | hm
        · rw [hm]
          rcases min_choice a s with h | h
          · rw [h]
            exact List.mem_cons_self
          · rw [h]
            exact List.mem_cons_of_mem a List.mem_cons_self
        · exact List.mem_cons_of_mem a (List.mem_cons_of_mem s hm)
      · intro x hx
        rcases List.mem_cons.mp hx with rfl | hx
        · exact ha.trans (min_le_left x s)
        · rcases List.mem_cons.mp hx with rfl | hx
          · exact ha.trans (min_le_right a x)
          · exact hl (List.mem_cons_of_mem _ hx)

theorem isLeast_lowest {cs : List (Candidate Rat)} (ne : cs ≠ [])
    (h : ∀ c ∈ cs, c.similarity ≤ 1) :
    IsLeast {s | s ∈ cs.map Candidate.similarity} (lowest cs) := by
  have one : (Score.ratio 1 1 : Rat) = 1 := div_self one_ne_zero
  obtain ⟨hm, hl⟩ := isLeast_foldl_lower 1 (cs.map Candidate.similarity)
  rw [lowest, one]
  refine ⟨?_, fun s hs => hl (List.mem_cons_of_mem 1 hs)⟩
  rcases List.mem_cons.mp hm with hm | hm
  · obtain ⟨c, cs', rfl⟩ := List.exists_cons_of_ne_nil ne
    have hc : c.similarity ∈ (c :: cs').map Candidate.similarity := List.mem_cons_self
    have he : c.similarity = 1 :=
      le_antisymm (h c List.mem_cons_self) (hm ▸ hl (List.mem_cons_of_mem 1 hc))
    rw [hm, ← he]
    exact hc
  · exact hm

end Thresholds

end Exact

end Criteria.Schema
