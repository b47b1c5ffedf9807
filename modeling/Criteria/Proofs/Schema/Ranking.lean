import Criteria.Proofs.Schema.Soundness
import Criteria.Proofs.Schema.Weighing

namespace Criteria.Schema

open Float (Stands)
open Float.Model.UnpackedFloat (Nonneg)
open Text

namespace Node

def weightAt (segment : String) (place : Position) (n : Node) : Float :=
  Score.weigh (similarity segment n.name) n.hasChildren place.length

structure Leads (root : Node) (threshold : Float) (segment : String) (place : Position)
    (n : Node) : Prop where
  found : root.at? place = some n
  admitted : threshold ≤ similarity segment n.name
  ahead : ∀ (other : Position) (m : Node), root.at? other = some m → other ≠ place →
    threshold ≤ similarity segment m.name →
      weightAt segment other m < weightAt segment place n ∨
        weightAt segment other m = weightAt segment place n ∧ place < other

theorem Leads.unique {root n m : Node} {threshold : Float} {segment : String} {p q : Position}
    (hn : root.Leads threshold segment p n) (hm : root.Leads threshold segment q m) : p = q := by
  by_contra ne
  rcases hn.ahead q m hm.found (Ne.symm ne) hm.admitted with hlt | ⟨heq, hpq⟩
  · rcases hm.ahead p n hn.found ne hn.admitted with hgt | ⟨heq, _⟩
    · exact Float.not_lt_of_le (Float.le_of_lt hlt) hgt
    · exact Float.not_lt_of_le (Float.le_of_lt hlt) (heq ▸ hlt)
  · rcases hm.ahead p n hn.found ne hn.admitted with hgt | ⟨_, hqp⟩
    · exact Float.not_lt_of_le (Float.le_of_lt hgt) (heq ▸ hgt)
    · exact List.lt_asymm hpq hqp

-- Names and depths that machine words hold.
structure Held (root : Node) : Prop where
  length : ∀ (p : Position) (n : Node), root.at? p = some n → n.name.length < 2 ^ 64
  depth : ∀ (p : Position) (n : Node), root.at? p = some n → 1 + p.length < 2 ^ 64

theorem Held.of_places {root : Node}
    (h : ∀ place ∈ root.places, place.2.name.length < 2 ^ 64 ∧ 1 + place.1.length < 2 ^ 64) :
    root.Held :=
  ⟨fun p n hn => (h (p, n) (mem_places.mpr hn)).1, fun p n hn => (h (p, n) (mem_places.mpr hn)).2⟩

theorem Held.exists_weight {root n : Node} (held : root.Held) {place : Position}
    (found : root.at? place = some n) {segment : String} (fits : segment.length < 2 ^ 64)
    (near : (0.8 : Float) ≤ similarity segment n.name) :
    ∃ s w, Scored segment n.name s ∧ Stands (weightAt segment place n) w ∧
      Weighs s n.hasChildren place.length w := by
  have width : longer segment n.name < 2 ^ 64 := Nat.max_lt.mpr ⟨fits, held.length place n found⟩
  obtain ⟨s, scored⟩ := exists_scored width near
  obtain ⟨w, stands, weighs⟩ := exists_weighs scored.stands scored.least scored.most n.hasChildren
    (held.depth place n found)
  exact ⟨s, w, scored, stands, weighs⟩

structure Sole (root : Node) (place : Position) (n : Node) : Prop where
  found : root.at? place = some n
  alone : ∀ (other : Position) (m : Node), root.at? other = some m → other ≠ place →
    m.name ≠ n.name ∧ aliased n.name m.name = false

theorem Sole.of_places {root n : Node} {place : Position} (found : root.at? place = some n)
    (h : ∀ other ∈ root.places, other.1 ≠ place →
      other.2.name ≠ n.name ∧ aliased n.name other.2.name = false) : root.Sole place n :=
  ⟨found, fun other m hm ne => h (other, m) (mem_places.mpr hm) ne⟩

theorem Sole.leads {root n : Node} {place : Position} (h : root.Sole place n) (held : root.Held)
    (shadowed : ∀ (other : Position) (m : Node), root.at? other = some m → other ≠ place →
      (0.8 : Float) ≤ similarity n.name m.name →
        place.length ≤ other.length ∧ (m.hasChildren = true → n.hasChildren = true) ∧
          (longer n.name m.name ≤ 2 ^ 51 ∨ place < other)) :
    root.Leads 0.8 n.name place n := by
  have fits := held.length place n h.found
  have deep := held.depth place n h.found
  have exact := similarity_self_eq_one fits
  obtain ⟨top, stands, weighs⟩ :=
    exists_weighs Float.stands_one (by norm_num) (le_refl 1) n.hasChildren deep
  rw [← exact] at stands
  refine ⟨h.found, by rw [exact]; exact Float.le_iff_compare.mpr rfl, ?_⟩
  intro other m hm ne near
  obtain ⟨name, apart⟩ := h.alone other m hm ne
  obtain ⟨shallow, inner, close⟩ := shadowed other m hm ne near
  obtain ⟨s, w, scored, stands', weighs'⟩ := held.exists_weight hm fits near
  have positive : 0 ≤ s := scored.stands.pos.le
  rcases close with short | behind
  · left
    exact (stands'.lt_iff stands).mpr
      (weighs'.lt weighs positive (scored.apart name.symm apart short) inner shallow deep)
  · rcases (weighs'.le weighs positive scored.most inner shallow).lt_or_eq with less | rfl
    · exact .inl ((stands'.lt_iff stands).mpr less)
    · exact .inr ⟨stands'.unique stands, behind⟩

def boundAt (root : Node) (requested : String) (place : Position) (n : Node) :
    Resolution Float where
  requested := requested
  node := n
  canonicalPath := Dotted.join (root.namesTo place)
  parentIsList := (root.above? place).any Node.list
  similarity := similarity requested n.name
  tier := .strong

end Node

theorem Occurs.weight {start : Node} {segment : String} {below : Position} {c : Candidate Float}
    (h : Occurs start segment below c) : c.weight = Node.weightAt segment below c.node := by
  rw [Candidate.weight, Node.weightAt, Candidate.depth, h.length_path, h.similarity]

namespace Thresholds

section Selection

variable {σ : Type} [Score σ]

theorem heaviest_eq_none {cs : List (Candidate σ)} (h : heaviest cs = none) : cs = [] := by
  cases cs with
  | nil => rfl
  | cons c cs =>
      have hs := foldl_heavier_isSome c cs
      rw [heaviest, List.foldl_cons, heavier] at h
      rw [h] at hs
      cases hs

theorem filter_eligible_final {σ : Type} (cs : List (Candidate σ)) :
    cs.filter (eligible false) = cs :=
  List.filter_eq_self.mpr (fun _ _ => rfl)

theorem select_of_strong {t : Thresholds σ} {cs : List (Candidate σ)}
    (h : ∀ c ∈ cs, t.strong ≤ c.similarity) (structural : Bool) :
    t.select structural cs = heaviest (cs.filter (eligible structural)) := by
  have all : (cs.filter (eligible structural)).filter t.strongTier =
      cs.filter (eligible structural) :=
    List.filter_eq_self.mpr (fun c hc => decide_eq_true (h c (List.mem_of_mem_filter hc)))
  rw [select]
  simp only [all]
  cases hs : heaviest (cs.filter (eligible structural)) with
  | none =>
      rw [heaviest_eq_none hs]
      rfl
  | some c => rfl

theorem bound_trail_of_plain {t : Thresholds σ} {root : Node} {segment : String}
    (plain : '.' ∉ segment.toList) :
    bound (t.trail root segment) =
      (t.select false (t.candidates root segment)).map (fun c => [c]) := by
  have last : (!([] : List String).isEmpty) = false := rfl
  rw [trail, Dotted.segments_eq_singleton plain, bound_walk_cons, last]
  cases t.select false (t.candidates root segment) <;> rfl

-- A number for each candidate, in the order of the weights.
def Ranks (rank : Candidate σ → ℚ) (cs : List (Candidate σ)) : Prop :=
  ∀ a ∈ cs, ∀ b ∈ cs, a.weight < b.weight ↔ rank a < rank b

theorem rank_le_of_split {σ : Type} {rank : Candidate σ → ℚ} {c : Candidate σ}
    {before after : List (Candidate σ)} (hb : ∀ b ∈ before, rank b < rank c)
    (ha : ∀ a ∈ after, rank a ≤ rank c) : ∀ d ∈ before ++ c :: after, rank d ≤ rank c := by
  intro d hd
  rcases List.mem_append.mp hd with hd | hd
  · exact (hb d hd).le
  · rcases List.mem_cons.mp hd with rfl | hd
    · exact le_rfl
    · exact ha d hd

theorem exists_split_of_foldl_heavier {rank : Candidate σ → ℚ} {best c : Candidate σ}
    {cs : List (Candidate σ)} (ranks : Ranks rank (best :: cs))
    (h : cs.foldl heavier (some best) = some c) :
    ∃ before after, best :: cs = before ++ c :: after ∧ (∀ b ∈ before, rank b < rank c) ∧
      ∀ a ∈ after, rank a ≤ rank c := by
  induction cs generalizing best with
  | nil =>
      cases h
      exact ⟨[], [], rfl, nofun, nofun⟩
  | cons d cs ih =>
      have order := ranks best (by simp) d (by simp)
      rw [List.foldl_cons, heavier] at h
      split at h
      · rename_i hlt
        obtain ⟨before, after, hs, hb, ha⟩ :=
          ih (fun a hm b hn => ranks a (.tail _ hm) b (.tail _ hn)) h
        have hd : rank d ≤ rank c := by
          apply rank_le_of_split hb ha
          rw [← hs]
          exact List.mem_cons_self
        exact ⟨best :: before, after, congrArg (best :: ·) hs,
          List.forall_mem_cons.mpr ⟨(order.mp hlt).trans_le hd, hb⟩, ha⟩
      · rename_i hle
        have above := not_lt.mp (mt order.mpr hle)
        have kept : best :: cs ⊆ best :: d :: cs :=
          List.cons_subset_cons best (List.subset_cons_self d cs)
        obtain ⟨before, after, hs, hb, ha⟩ :=
          ih (fun a hm b hn => ranks a (kept hm) b (kept hn)) h
        cases before with
        | nil =>
            obtain ⟨rfl, rfl⟩ := List.cons.inj hs
            exact ⟨[], d :: cs, rfl, nofun, List.forall_mem_cons.mpr ⟨above, ha⟩⟩
        | cons b before =>
            obtain ⟨rfl, rfl⟩ := List.cons.inj hs
            obtain ⟨hbest, hb⟩ := List.forall_mem_cons.mp hb
            exact ⟨best :: d :: before, after, rfl, List.forall_mem_cons.mpr ⟨hbest,
              List.forall_mem_cons.mpr ⟨above.trans_lt hbest, hb⟩⟩, ha⟩

theorem heaviest_split {rank : Candidate σ → ℚ} {c : Candidate σ} {cs : List (Candidate σ)}
    (ranks : Ranks rank cs) (h : heaviest cs = some c) :
    ∃ before after, cs = before ++ c :: after ∧ (∀ b ∈ before, rank b < rank c) ∧
      ∀ a ∈ after, rank a ≤ rank c := by
  cases cs with
  | nil => cases h
  | cons best cs => exact exists_split_of_foldl_heavier ranks h

end Selection

theorem leads_of_heaviest {t : Thresholds Float} {root : Node} {segment : String}
    {rank : Candidate Float → ℚ}
    (stands : ∀ c ∈ t.candidates root segment, Stands c.weight (rank c)) {c : Candidate Float}
    (h : heaviest (t.candidates root segment) = some c) :
    ∃ place, root.Leads t.candidate segment place c.node ∧ Occurs root segment place c := by
  have ranks : Ranks rank (t.candidates root segment) :=
    fun a ha b hb => (stands a ha).lt_iff (stands b hb)
  obtain ⟨before, after, hs, lighter, noHeavier⟩ := heaviest_split ranks h
  rw [hs] at stands
  rw [candidates, collect_eq_map, List.map_eq_append_iff] at hs
  obtain ⟨former, others, hplaces, rfl, hs⟩ := hs
  obtain ⟨⟨place, n⟩, latter, rfl, rfl, rfl⟩ := List.map_eq_cons_iff.mp hs
  have admitted {p : Position} {m : Node} :
      (p, m) ∈ former ++ (place, n) :: latter ↔
        root.at? p = some m ∧ t.candidate ≤ similarity segment m.name := by
    rw [← hplaces, List.mem_filter, Node.mem_places, decide_eq_true_iff]
  have order := hplaces ▸ root.pairwise_places.filter _
  obtain ⟨hn, hnear⟩ := admitted.mp (List.mem_append_right former List.mem_cons_self)
  have occurs {p : Position} {m : Node} (hm : root.at? p = some m) :
      (candidateAt segment none [] root (p, m) : Candidate Float).weight =
        Node.weightAt segment p m := (occurs_candidateAt hm segment).weight
  have own := stands _ (List.mem_append_right _ List.mem_cons_self)
  refine ⟨place, ⟨hn, hnear, ?_⟩, occurs_candidateAt hn segment⟩
  intro other m hm ne near
  change Node.weightAt segment other m < Node.weightAt segment place n ∨
    Node.weightAt segment other m = Node.weightAt segment place n ∧ place < other
  rw [← occurs hm, ← occurs hn]
  have listed {places : List (Position × Node)} (hm : (other, m) ∈ places) :
      (candidateAt segment none [] root (other, m) : Candidate Float) ∈
        places.map (candidateAt segment none [] root) := List.mem_map_of_mem hm
  rcases List.mem_append.mp (admitted.mpr ⟨hm, near⟩) with hmem | hmem
  · have theirs := stands _ (List.mem_append_left _ (listed hmem))
    exact .inl ((theirs.lt_iff own).mpr (lighter _ (listed hmem)))
  · rcases List.mem_cons.mp hmem with heq | hmem
    · exact absurd (Prod.mk.inj heq).1 ne
    · have behind := (List.pairwise_cons.mp (List.pairwise_append.mp order).2.1).1 _ hmem
      have theirs := stands _ (List.mem_append_right _ (List.mem_cons_of_mem _ (listed hmem)))
      rcases (noHeavier _ (listed hmem)).lt_or_eq with less | same
      · exact .inl ((theirs.lt_iff own).mpr less)
      · exact .inr ⟨theirs.unique (same ▸ own), behind⟩

theorem lowest_singleton {c : Candidate Float} {p : ℚ} (stands : Stands c.similarity p)
    (most : p ≤ 1) : lowest [c] = c.similarity := by
  have one : (Score.ratio 1 1 : Float) = 1 := Float.div_self_ofNat Nat.one_pos (by decide)
  change lower (Score.ratio 1 1) c.similarity = c.similarity
  rw [lower, one]
  split
  · rfl
  · rename_i above
    have same : p = 1 := most.antisymm (not_lt.mp (mt (stands.lt_iff Float.stands_one).mpr above))
    exact Float.stands_one.unique (same ▸ stands)

section Standard

variable {root : Node} {segment : String} (held : root.Held) (fits : segment.length < 2 ^ 64)
include held fits

theorem exists_weight_of_mem {c : Candidate Float} (h : c ∈ standard.candidates root segment) :
    (∃ s, Scored segment c.node.name s) ∧ ∃ w, Stands c.weight w := by
  obtain ⟨below, occurs⟩ := occurs_of_mem_candidates h
  obtain ⟨s, w, scored, stands, _⟩ := held.exists_weight occurs.found fits
    (occurs.similarity ▸ threshold_le_of_mem_collect h)
  exact ⟨⟨s, scored⟩, w, occurs.weight ▸ stands⟩

theorem strong_of_mem {c : Candidate Float} (h : c ∈ standard.candidates root segment) :
    standard.strong ≤ c.similarity := by
  obtain ⟨below, occurs⟩ := occurs_of_mem_candidates h
  obtain ⟨⟨s, scored⟩, _⟩ := exists_weight_of_mem held fits h
  have admitted : Nonneg (0.8 : Float).toModel.unpack := by
    rw [unpack_four_fifths]
    exact .finite _ _ _
  refine Float.le_trans_of_nonneg admitted ?_ (Float.le_iff_compare.mpr rfl)
    (threshold_le_of_mem_collect h)
  rw [occurs.similarity]
  exact scored.stands.nonneg

theorem exists_leads (plain : '.' ∉ segment.toList) {n : Node} {place : Position}
    (found : root.at? place = some n) (near : (0.8 : Float) ≤ similarity segment n.name) :
    ∃ p m, root.Leads 0.8 segment p m ∧
      standard.resolve root segment = root.boundAt segment p m := by
  have weights : ∀ c ∈ standard.candidates root segment, ∃ w, Stands c.weight w :=
    fun c hc => (exists_weight_of_mem held fits hc).2
  choose! rank stands using weights
  obtain ⟨d, hd, _⟩ : ∃ c ∈ standard.candidates root segment, c.node = n := mem_collect found near
  obtain ⟨c, hc⟩ := Option.isSome_iff_exists.mp (heaviest_isSome hd)
  have member := mem_of_heaviest hc
  have hsel : standard.select false (standard.candidates root segment) = some c := by
    rw [select_of_strong (fun c => strong_of_mem held fits), filter_eligible_final]
    exact hc
  have hb : bound (standard.trail root segment) = some [c] := by
    rw [bound_trail_of_plain plain, hsel]
    rfl
  obtain ⟨p, leads, occurs⟩ := leads_of_heaviest stands hc
  have route : Route root [segment] [c] (p ++ []) := .down occurs (absurd rfl) (.here c.node)
  rw [List.append_nil] at route
  obtain ⟨⟨s, scored⟩, _⟩ := exists_weight_of_mem held fits member
  have lowest : lowest [c] = similarity segment c.node.name :=
    (lowest_singleton (occurs.similarity ▸ scored.stands) scored.most).trans occurs.similarity
  have strong := strong_of_mem held fits member
  rw [occurs.similarity] at strong
  refine ⟨p, c.node, leads, ?_⟩
  rw [resolve_of_bound hb, route.settled leads.found, lowest, if_pos strong]
  rfl

end Standard

theorem resolve_sole (root n : Node) (place : Position) (sole : root.Sole place n)
    (plain : '.' ∉ n.name.toList) (held : root.Held) :
    (∃ p m, root.Leads 0.8 n.name p m ∧
      standard.resolve root n.name = root.boundAt n.name p m) ∧
    ((standard.resolve root n.name).node = n ↔ root.Leads 0.8 n.name place n) ∧
    (root.Leads 0.8 n.name place n → standard.resolve root n.name =
      { requested := n.name
        node := n
        canonicalPath := Dotted.join (root.namesTo place)
        parentIsList := (root.above? place).any Node.list
        similarity := 1
        tier := .strong }) ∧
    ((∀ (other : Position) (m : Node), root.at? other = some m → other ≠ place →
      (0.8 : Float) ≤ similarity n.name m.name →
        place.length ≤ other.length ∧ (m.hasChildren = true → n.hasChildren = true) ∧
          (longer n.name m.name ≤ 2 ^ 51 ∨ place < other)) →
      root.Leads 0.8 n.name place n) := by
  have fits := held.length place n sole.found
  have exact := similarity_self_eq_one fits
  have near : (0.8 : Float) ≤ similarity n.name n.name := by
    rw [exact]
    exact Float.le_iff_compare.mpr rfl
  obtain ⟨p, m, leads, hr⟩ := exists_leads held fits plain sole.found near
  have bound (own : root.Leads 0.8 n.name place n) :
      standard.resolve root n.name = root.boundAt n.name place n := by
    obtain rfl := leads.unique own
    obtain rfl := Option.some.inj (leads.found.symm.trans own.found)
    exact hr
  refine ⟨⟨p, m, leads, hr⟩, ⟨?_, ?_⟩, ?_, sole.leads held⟩
  · intro hn
    rw [hr] at hn
    by_cases hp : p = place
    · subst hp
      obtain rfl : m = n := hn
      exact leads
    · exact absurd (congrArg Node.name hn) (sole.alone p m leads.found hp).1
  · intro own
    rw [bound own]
    rfl
  · intro own
    rw [bound own, Node.boundAt, exact]

def packed : Node where
  name := "item"
  tag := "Item"
  children := [.scalar "sku" "String"]

def basket : Node where
  name := "Root"
  tag := "Root"
  children := [.scalar "items" "String", packed]

theorem basket_sole :
    basket.Sole [0] (.scalar "items" "String") ∧ basket.Sole [1] packed := by
  have names : ∀ other ∈ basket.places,
      (other.1 ≠ [0] → other.2.name ≠ "items" ∧ aliased "items" other.2.name = false) ∧
      (other.1 ≠ [1] → other.2.name ≠ "item" ∧ aliased "item" other.2.name = false) := by
    decide
  exact ⟨.of_places rfl (fun other hm => (names other hm).1),
    .of_places rfl (fun other hm => (names other hm).2)⟩

theorem resolve_sole_packed :
    basket.Sole [1] packed ∧ '.' ∉ packed.name.toList ∧ basket.Held ∧
      standard.resolve basket "item" =
        { requested := "item"
          node := packed
          canonicalPath := "item"
          parentIsList := false
          similarity := 1
          tier := .strong } := by
  have sole := basket_sole.2
  have held : basket.Held := .of_places (by decide)
  have far : ¬ (0.8 : Float) ≤ similarity "item" basket.name := by decide +kernel
  have short : ∀ place ∈ basket.places, longer "item" place.2.name ≤ 2 ^ 51 := by decide
  obtain ⟨_, _, bound, leads⟩ := resolve_sole basket packed [1] sole (by decide) held
  refine ⟨sole, by decide, held, bound (leads ?_)⟩
  intro other m hm _ near
  refine ⟨?_, fun _ => rfl, .inl (short _ (Node.mem_places.mpr hm))⟩
  cases other with
  | nil =>
      cases hm
      exact absurd near far
  | cons i other => exact Nat.le_add_left 1 other.length

theorem exact_name_outweighed :
    basket.Sole [0] (.scalar "items" "String") ∧ '.' ∉ "items".toList ∧
      standard.resolve basket "items" = ⟨"items", packed, "item", false, 0.8, .strong⟩ ∧
      packed ≠ .scalar "items" "String" :=
  ⟨basket_sole.1, by decide, by decide +kernel, by decide⟩

end Thresholds

end Criteria.Schema
