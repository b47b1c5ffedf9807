import Criteria.Proofs.Schema.Similarity
import Criteria.Proofs.Schema.Soundness
import Mathlib.Tactic.NormNum

namespace Criteria.Schema

open Text

namespace Node

def Separated (threshold : Rat) (n : Node) : Prop :=
  ∀ (p q : Position) (a b : Node), p ≠ q → n.at? p = some a → n.at? q = some b →
    similarity a.name b.name < threshold

theorem Separated.descend {threshold : Rat} {n m : Node} {p : Position} (h : n.Separated threshold)
    (hm : n.at? p = some m) : m.Separated threshold := by
  intro q r a b hne ha hb
  apply h (p ++ q) (p ++ r) a b
  · exact fun he => hne (List.append_cancel_left he)
  · rw [at?_append_of_at? hm, ha]
  · rw [at?_append_of_at? hm, hb]

def Apart (threshold : Rat) (a b : String) : Prop :=
  similarity a b < threshold ∧ similarity b a < threshold

instance (threshold : Rat) : DecidableRel (Apart threshold) :=
  fun a b => inferInstanceAs (Decidable (similarity a b < threshold ∧ similarity b a < threshold))

-- The names in pre-order decide the matter, and they can be listed.
theorem Separated.of_names {threshold : Rat} {n : Node} (h : n.names.Pairwise (Apart threshold)) :
    n.Separated threshold := by
  induction n with
  | node n ih =>
      rw [names_eq, List.pairwise_cons, List.pairwise_flatMap] at h
      obtain ⟨top, within, across⟩ := h
      have below {i : Nat} {r : Position} {m : Node} (hm : n.at? (i :: r) = some m) :
          m.name ∈ n.children.flatMap names := by
        obtain ⟨child, hc, hm⟩ := at?_cons_eq_some.mp hm
        exact List.mem_flatMap_of_mem (List.mem_of_getElem? hc) (name_mem_names hm)
      have between {i j : Nat} {former latter : Node} (hlt : i < j)
          (hi : n.children[i]? = some former) (hj : n.children[j]? = some latter)
          {x y : String} (hx : x ∈ former.names) (hy : y ∈ latter.names) :
          Apart threshold x y := by
        obtain ⟨hil, rfl⟩ := List.getElem?_eq_some_iff.mp hi
        obtain ⟨hjl, rfl⟩ := List.getElem?_eq_some_iff.mp hj
        exact List.pairwise_iff_getElem.mp across i j hil hjl hlt x hx y hy
      intro p q a b hne ha hb
      cases p with
      | nil =>
          cases ha
          cases q with
          | nil => exact absurd rfl hne
          | cons j q => exact (top b.name (below hb)).1
      | cons i p =>
          cases q with
          | nil =>
              cases hb
              exact (top a.name (below ha)).2
          | cons j q =>
              obtain ⟨child, hi, ha⟩ := at?_cons_eq_some.mp ha
              obtain ⟨sibling, hj, hb⟩ := at?_cons_eq_some.mp hb
              have hna := name_mem_names ha
              have hnb := name_mem_names hb
              rcases Nat.lt_trichotomy i j with hlt | rfl | hlt
              · exact (between hlt hi hj hna hnb).1
              · cases hi.symm.trans hj
                have hmem := List.mem_of_getElem? hi
                have hpq : p ≠ q := fun he => hne (congrArg (i :: ·) he)
                exact ih child hmem (within child hmem) p q a b hpq ha hb
              · exact (between hlt hj hi hnb hna).2

-- The first name of a part of the chain is met at some node, and the others lie below that node.
theorem exists_stop {n v : Node} {p : Position} {word : String} {words : List String}
    (hv : n.at? p = some v)
    (h : (word :: words).Sublist (n.name :: n.namesTo p).dropLast) :
    ∃ (front back : Position) (stop : Node), p = front ++ back ∧ back ≠ [] ∧
      n.at? front = some stop ∧ stop.name = word ∧ stop.at? back = some v ∧
      words.Sublist (stop.name :: stop.namesTo back).dropLast := by
  induction p generalizing n with
  | nil => cases h
  | cons i p ih =>
      obtain ⟨child, hc, hm⟩ := at?_cons_eq_some.mp hv
      rw [namesTo_cons hc, List.dropLast_cons_cons] at h
      cases h with
      | cons _ h =>
          obtain ⟨front, back, stop, rfl, ne, hs, hn, hb, hw⟩ := ih hm h
          exact ⟨i :: front, back, stop, rfl, ne, (at?_cons hc front).trans hs, hn, hb, hw⟩
      | cons_cons _ h =>
          refine ⟨[], i :: p, n, rfl, List.cons_ne_nil i p, rfl, rfl, hv, ?_⟩
          rw [namesTo_cons hc, List.dropLast_cons_cons]
          exact h.cons n.name

end Node

namespace Thresholds

variable {t : Thresholds Rat} {n v : Node} {p : Position}

theorem exists_select_named (strong : t.strong ≤ 1) (candidate : t.candidate ≤ 1)
    (apart : n.Separated t.candidate) (hv : n.at? p = some v) {structural : Bool}
    (inner : structural = true → v.hasChildren = true) :
    ∃ c, t.select structural (t.candidates n v.name) = some c ∧ Occurs n v.name p c := by
  have only {d : Candidate Rat} (hd : d ∈ t.candidates n v.name) : Occurs n v.name p d := by
    obtain ⟨below, occurs⟩ := occurs_of_mem_candidates hd
    by_cases hp : p = below
    · exact hp ▸ occurs
    · have near := threshold_le_of_mem_collect hd
      rw [occurs.similarity] at near
      exact absurd near (not_le.mpr (apart p below v d.node hp hv occurs.found))
  have here : t.candidate ≤ similarity v.name v.name := by
    rwa [similarity_self]
  have named : ∃ c ∈ t.candidates n v.name, c.node = v := mem_collect hv here
  obtain ⟨c, hc, rfl⟩ := named
  have full : t.strong ≤ c.similarity := by
    rwa [(only hc).similarity, similarity_self]
  have ready : eligible structural c = true := by
    cases structural with
    | false => rfl
    | true => exact inner rfl
  obtain ⟨d, hd⟩ := exists_select hc ready full
  exact ⟨d, hd, only (mem_of_select hd).1⟩

theorem exists_bound_chain (strong : t.strong ≤ 1) (candidate : t.candidate ≤ 1)
    (apart : n.Separated t.candidate) (hv : n.at? p = some v) {above : List String}
    (hs : above.Sublist (n.name :: n.namesTo p).dropLast) :
    ∃ chosen, bound (t.walk n (above ++ [v.name])) = some chosen ∧
      Route n (above ++ [v.name]) chosen p ∧ ∀ c ∈ chosen, c.similarity = 1 := by
  induction above generalizing n p with
  | nil =>
      have last : (!([] : List String).isEmpty) = true → v.hasChildren = true := nofun
      obtain ⟨c, hc, occurs⟩ := exists_select_named strong candidate apart hv last
      have route : Route n [v.name] [c] (p ++ []) := .down occurs (absurd rfl) (.here c.node)
      have full : c.similarity = 1 := by
        rw [occurs.similarity, Option.some.inj (occurs.found.symm.trans hv), similarity_self]
      refine ⟨[c], ?_, List.append_nil p ▸ route, List.forall_mem_singleton.mpr full⟩
      rw [List.nil_append, bound_walk_cons, hc]
      rfl
  | cons word words ih =>
      obtain ⟨front, back, stop, rfl, ne, hstop, rfl, hb, hw⟩ := Node.exists_stop hv hs
      have children := Node.hasChildren_of_at? ne hb
      have more : (!(words ++ [v.name]).isEmpty) = true → stop.hasChildren = true :=
        fun _ => children
      obtain ⟨c, hc, occurs⟩ := exists_select_named strong candidate apart hstop more
      obtain rfl : c.node = stop := Option.some.inj (occurs.found.symm.trans hstop)
      obtain ⟨chosen, hchosen, route, full⟩ := ih (apart.descend hstop) hb hw
      have here : c.similarity = 1 := by
        rw [occurs.similarity, similarity_self]
      refine ⟨c :: chosen, ?_, .down occurs (fun _ => children) route,
        List.forall_mem_cons.mpr ⟨here, full⟩⟩
      rw [List.cons_append, bound_walk_cons, hc, Option.bind_some, hchosen]
      rfl

theorem resolve_chain (t : Thresholds Rat) (strong : t.strong ≤ 1) (candidate : t.candidate ≤ 1)
    (root : Node) (plain : ∀ name ∈ root.names, '.' ∉ name.toList)
    (apart : root.Separated t.candidate) (position : Position) (v : Node)
    (hv : root.at? position = some v) (above : List String)
    (hs : above.Sublist (root.name :: root.namesTo position).dropLast) :
    t.resolve root (Dotted.join (above ++ [v.name])) =
      { requested := Dotted.join (above ++ [v.name])
        node := v
        canonicalPath := Dotted.join (root.namesTo position)
        parentIsList := (root.above? position).any Node.list
        similarity := 1
        tier := .strong } := by
  obtain ⟨chosen, hb, route, full⟩ := exists_bound_chain strong candidate apart hv hs
  have words : ∀ w ∈ above ++ [v.name], '.' ∉ w.toList := by
    intro w hw
    apply plain
    rcases List.mem_append.mp hw with hw | hw
    · rcases List.mem_cons.mp ((hs.trans (List.dropLast_sublist _)).subset hw) with rfl | hw
      · exact Node.name_mem_names (Node.at?_nil root)
      · exact Node.mem_names_of_mem_namesTo hw
    · rw [List.mem_singleton.mp hw]
      exact Node.name_mem_names hv
  have ht : bound (t.trail root (Dotted.join (above ++ [v.name]))) = some chosen := by
    rw [trail, Dotted.segments_join (by simp) words, hb]
  have lowest_eq : lowest chosen = 1 := by
    have ne : chosen ≠ [] := by
      rw [← List.length_pos_iff, route.length]
      simp
    obtain ⟨c, hc, he⟩ := List.mem_map.mp (isLeast_lowest ne route.similarity_le_one).1
    rw [← he, full c hc]
  rw [resolve_of_bound ht, route.settled hv, lowest_eq, if_pos strong]

def article : Node where
  name := "article"
  tag := "Article"
  children := [.scalar "price" "Double"]

def order : Node where
  name := "order"
  tag := "Order"
  children := [.scalar "customer" "String",
    { name := "lines", tag := "Line", list := true, children := [article] }]

theorem resolve_chain_order :
    order.Separated (4 / 5) ∧
      (⟨4 / 5, 7 / 10, 1 / 2⟩ : Thresholds Rat).resolve order "order.article" =
        { requested := "order.article"
          node := article
          canonicalPath := "lines.article"
          parentIsList := true
          similarity := 1
          tier := .strong } := by
  have names : (∀ name ∈ order.names, '.' ∉ name.toList) ∧
      order.names.Pairwise (Node.Apart (4 / 5)) := by
    decide +kernel
  have apart := Node.Separated.of_names names.2
  have named : ["order"].Sublist (order.name :: order.namesTo [1, 0]).dropLast := by
    simp [order, Node.namesTo]
  exact ⟨apart, resolve_chain ⟨4 / 5, 7 / 10, 1 / 2⟩ (by norm_num) (by norm_num) order names.1
    apart [1, 0] article rfl ["order"] named⟩

end Thresholds

end Criteria.Schema
