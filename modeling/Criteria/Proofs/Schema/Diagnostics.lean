import Criteria.Proofs.Schema.Soundness
import Criteria.Schema.Report

namespace Criteria.Schema

open Text

variable {σ : Type} [Score σ]

def Step.Anticipated (t : Thresholds σ) (s : Step σ) : Prop :=
  ((t.select false s.candidates).map Candidate.node).filter Node.declared =
    s.chosen.map Candidate.node

instance (t : Thresholds σ) (s : Step σ) : Decidable (s.Anticipated t) :=
  inferInstanceAs (Decidable (_ = _))

def CandidateRow.place {σ : Type} (row : CandidateRow σ) : String × List String :=
  (row.segment, row.candidate.path)

namespace Thresholds

def examined (t : Thresholds σ) (root : Node) (path : String) : List (CandidateRow σ) :=
  (t.trail root path).flatMap (fun step => step.candidates.map (⟨step.segment, ·⟩))

def startsAfter (t : Thresholds σ) (root : Node) (before : List String) :
    List String → List (String × Node)
  | [] => []
  | segment :: rest =>
      if (t.resolve root (Dotted.join before)).isDeclared then
        (segment, (t.resolve root (Dotted.join before)).node) ::
          startsAfter t root (before ++ [segment]) rest
      else []

def starts (t : Thresholds σ) (root : Node) (path : String) : List (String × Node) :=
  match Dotted.segments path with
  | [] => []
  | segment :: rest => (segment, root) :: t.startsAfter root [segment] rest

def descend (t : Thresholds σ) (start : Node) : List String → Option Node
  | [] => some start
  | segment :: rest =>
      (t.select true (t.candidates start segment)).bind (fun c => descend t c.node rest)

theorem rowsAfter_eq_flatMap (t : Thresholds σ) (root : Node) (before rest : List String) :
    t.rowsAfter root before rest =
      (t.startsAfter root before rest).flatMap (fun (segment, start) =>
        t.rowsFrom start segment) := by
  induction rest generalizing before with
  | nil => rfl
  | cons segment rest ih =>
      rw [rowsAfter, startsAfter]
      split
      · rw [ih, List.flatMap_cons]
      · rfl

theorem rows_eq_flatMap (t : Thresholds σ) (root : Node) (path : String) :
    t.rows root path =
      (t.starts root path).flatMap (fun (segment, start) => t.rowsFrom start segment) := by
  obtain ⟨segment, rest, hs⟩ := List.exists_cons_of_ne_nil (Dotted.segments_ne_nil path)
  unfold rows starts
  rw [hs]
  dsimp only
  rw [rowsAfter_eq_flatMap, List.flatMap_cons]

theorem walk_cons (t : Thresholds σ) (start : Node) (segment : String) (rest : List String) :
    t.walk start (segment :: rest) =
      ⟨segment, start, t.candidates start segment,
        t.select (!rest.isEmpty) (t.candidates start segment)⟩ ::
        ((t.select (!rest.isEmpty) (t.candidates start segment)).elim []
          (fun c => t.walk c.node rest)) := by
  rw [walk]
  cases hc : t.select (!rest.isEmpty) (t.candidates start segment) <;> rfl

theorem exists_select_of_mem_walk {t : Thresholds σ} {start : Node} {segments : List String}
    {step : Step σ} (h : step ∈ t.walk start segments) :
    step.candidates = t.candidates step.start step.segment ∧
      ∃ structural, step.chosen = t.select structural step.candidates := by
  induction segments generalizing start with
  | nil => cases h
  | cons segment rest ih =>
      rw [walk_cons] at h
      rcases List.mem_cons.mp h with rfl | h
      · exact ⟨rfl, _, rfl⟩
      · cases hc : t.select (!rest.isEmpty) (t.candidates start segment) with
        | none =>
            rw [hc] at h
            cases h
        | some c =>
            rw [hc] at h
            exact ih h

theorem candidates_of_mem_walk {t : Thresholds σ} {start : Node} {segments : List String}
    {step : Step σ} (h : step ∈ t.walk start segments) :
    step.candidates = t.candidates step.start step.segment :=
  (exists_select_of_mem_walk h).1

-- Only the last segment of a prefix is bound as a last one, the others as in the whole path.
theorem bound_walk_concat (t : Thresholds σ) (start : Node) (front : List String)
    (last : String) :
    (bound (t.walk start (front ++ [last]))).map (fun cs =>
        (cs.map Candidate.node).getLastD start) =
      (t.descend start front).bind (fun n =>
        (t.select false (t.candidates n last)).map Candidate.node) := by
  induction front generalizing start with
  | nil =>
      have final : (!([] : List String).isEmpty) = false := rfl
      rw [List.nil_append, bound_walk_cons, final, descend, Option.bind_some]
      cases t.select false (t.candidates start last) <;> rfl
  | cons segment front ih =>
      have inner : (!(front ++ [last]).isEmpty) = true := by simp
      rw [List.cons_append, bound_walk_cons, inner, descend]
      cases t.select true (t.candidates start segment) with
      | none => rfl
      | some c =>
          have below : (fun cs => (cs.map Candidate.node).getLastD start) ∘ (c :: ·) =
              fun cs => (cs.map Candidate.node).getLastD c.node := by
            funext cs
            rw [Function.comp, List.map_cons, List.getLastD_cons]
          rw [Option.bind_some, Option.bind_some, ← ih c.node, Option.map_map, below]

def Warned (t : Thresholds σ) (root : Node) (path : String) : Prop :=
  ∃ e ∈ t.events root path, e.message = "moderate match bound field"

theorem message_outcome_iff {t : Thresholds σ} {path : String} {step : Step σ} :
    (∃ e ∈ step.outcome t path, e.message = "moderate match bound field") ↔
      ∃ c ∈ step.chosen, c.similarity < t.strong := by
  unfold Step.outcome
  split
  · rename_i hc
    simp [hc]
  · rename_i c hc
    by_cases below : c.similarity < t.strong <;> simp [hc, below]

theorem warned_iff {t : Thresholds σ} {root : Node} {path : String} :
    t.Warned root path ↔ ∃ step ∈ t.trail root path, ∃ c ∈ step.chosen, c.similarity < t.strong := by
  have listed (step : Step σ) : (∃ e ∈ step.events t path, e.message = "moderate match bound field") ↔
      ∃ c ∈ step.chosen, c.similarity < t.strong := by
    have outcome : (∃ e ∈ step.outcome t path, e.message = "moderate match bound field") ↔ _ :=
      message_outcome_iff
    rw [← outcome]
    simp [Step.events, Candidate.event, or_and_right, exists_or]
  simp only [Warned, events, List.mem_flatMap, ← listed]
  constructor
  · rintro ⟨e, ⟨step, hs, he⟩, hm⟩
    exact ⟨step, hs, e, he, hm⟩
  · rintro ⟨step, hs, e, he, hm⟩
    exact ⟨e, ⟨step, hs, he⟩, hm⟩

theorem node_resolve (t : Thresholds σ) (root : Node) {front : List String} {last : String}
    (plain : ∀ w ∈ front ++ [last], '.' ∉ w.toList) :
    (some (t.resolve root (Dotted.join (front ++ [last]))).node).filter Node.declared =
      ((t.descend root front).bind (fun n =>
        (t.select false (t.candidates n last)).map Candidate.node)).filter Node.declared := by
  have words : Dotted.segments (Dotted.join (front ++ [last])) = front ++ [last] :=
    Dotted.segments_join (by simp) plain
  rw [← bound_walk_concat]
  cases hb : bound (t.walk root (front ++ [last])) with
  | none =>
      rw [resolve_of_unbound (by rw [trail, words, hb])]
      rfl
  | some chosen =>
      rw [resolve_of_bound (by rw [trail, words, hb])]
      rfl

theorem startsAfter_cons (t : Thresholds σ) (root : Node) {front rest : List String}
    {last segment : String} (plain : ∀ w ∈ front ++ [last], '.' ∉ w.toList) {n : Node}
    (hn : t.descend root front = some n) :
    t.startsAfter root (front ++ [last]) (segment :: rest) =
      (((t.select false (t.candidates n last)).map Candidate.node).filter Node.declared).elim []
        (fun m => (segment, m) :: t.startsAfter root (front ++ [last] ++ [segment]) rest) := by
  have hr := node_resolve t root plain
  rw [hn, Option.bind_some] at hr
  rw [← hr, startsAfter, Resolution.isDeclared, Option.filter_some]
  split <;> rfl

theorem descend_concat (t : Thresholds σ) (start : Node) (front : List String) (last : String) :
    t.descend start (front ++ [last]) =
      (t.descend start front).bind (fun n =>
        (t.select true (t.candidates n last)).map Candidate.node) := by
  induction front generalizing start with
  | nil =>
      rw [List.nil_append, descend, descend, Option.bind_some]
      cases t.select true (t.candidates start last) <;> rfl
  | cons segment front ih =>
      rw [List.cons_append, descend, descend]
      cases t.select true (t.candidates start segment) with
      | none => rfl
      | some c => exact ih c.node

theorem startsAfter_eq_iff (t : Thresholds σ) (root : Node) {front rest : List String}
    {last : String} (plain : ∀ w ∈ front ++ last :: rest, '.' ∉ w.toList) {n : Node}
    (hn : t.descend root front = some n) :
    (last, n) :: t.startsAfter root (front ++ [last]) rest =
        (t.walk n (last :: rest)).map (fun step => (step.segment, step.start)) ↔
      ∀ step ∈ (t.walk n (last :: rest)).take rest.length, step.Anticipated t := by
  induction rest generalizing front last n with
  | nil =>
      rw [walk_cons, startsAfter]
      cases t.select (!([] : List String).isEmpty) (t.candidates n last) <;> simp [walk]
  | cons segment rest ih =>
      have inner : (!(segment :: rest).isEmpty) = true := rfl
      have shorter : front ++ last :: segment :: rest = (front ++ [last]) ++ segment :: rest := by
        rw [List.append_assoc, List.singleton_append]
      rw [shorter] at plain
      have words : ∀ w ∈ front ++ [last], '.' ∉ w.toList :=
        fun w hw => plain w (List.mem_append_left _ hw)
      have below := t.descend_concat root front last
      rw [hn, Option.bind_some] at below
      rw [walk_cons, inner, startsAfter_cons t root words hn, List.length_cons,
        List.take_succ_cons, List.map_cons, List.forall_mem_cons, List.cons_inj_right,
        Step.Anticipated]
      cases hc : t.select true (t.candidates n last) with
      | none =>
          rw [Option.elim_none]
          cases ((t.select false (t.candidates n last)).map Candidate.node).filter
            Node.declared <;> simp
      | some c =>
          rw [hc, Option.map_some] at below
          rw [Option.elim_some, ← ih plain below, walk_cons, List.map_cons]
          cases ((t.select false (t.candidates n last)).map Candidate.node).filter
            Node.declared <;> simp

def Faithful (t : Thresholds σ) (root : Node) (path : String) : Prop :=
  ∀ step ∈ (t.trail root path).take ((Dotted.segments path).length - 1), step.Anticipated t

instance (t : Thresholds σ) (root : Node) (path : String) : Decidable (t.Faithful root path) :=
  inferInstanceAs (Decidable (∀ step ∈ (t.trail root path).take _, step.Anticipated t))

theorem starts_eq_iff (t : Thresholds σ) (root : Node) (path : String) :
    t.starts root path = (t.trail root path).map (fun step => (step.segment, step.start)) ↔
      t.Faithful root path := by
  have plain : ∀ w ∈ Dotted.segments path, '.' ∉ w.toList :=
    fun w hw => Dotted.not_mem_of_mem_segments hw
  obtain ⟨segment, rest, hs⟩ := List.exists_cons_of_ne_nil (Dotted.segments_ne_nil path)
  rw [hs] at plain
  unfold starts Faithful trail
  rw [hs]
  have top : t.descend root [] = some root := rfl
  exact startsAfter_eq_iff t root plain top

theorem examined_eq_flatMap (t : Thresholds σ) (root : Node) (path : String) :
    t.examined root path =
      ((t.trail root path).map (fun step => (step.segment, step.start))).flatMap
        (fun (segment, start) => t.rowsFrom start segment) := by
  rw [examined, List.flatMap_map]
  refine List.flatMap_congr (fun step hs => ?_)
  rw [candidates_of_mem_walk hs]
  rfl

theorem rows_examined (t : Thresholds σ) (root : Node) (path : String) :
    t.rows root path =
        (t.starts root path).flatMap (fun (segment, start) => t.rowsFrom start segment) ∧
      (t.starts root path = (t.trail root path).map (fun step => (step.segment, step.start)) ↔
        t.Faithful root path) ∧
      (t.Faithful root path → t.rows root path = t.examined root path) := by
  refine ⟨rows_eq_flatMap t root path, starts_eq_iff t root path, ?_⟩
  intro faithful
  rw [rows_eq_flatMap, (starts_eq_iff t root path).mpr faithful, examined_eq_flatMap]

def stockroom : Node where
  name := "Root"
  tag := "Root"
  children := [.scalar "item" "String",
    { name := "stock", tag := "Stock", children := [
      { name := "shelf", tag := "Shelf", children := [
        { name := "box", tag := "Box", children := [
          { name := "item", tag := "Item", children := [.scalar "sku" "String"] }] }] }] }]

theorem stockroom_rows :
    standard.Faithful stockroom "stock.sku" ∧
      (standard.examined stockroom "stock.sku").map CandidateRow.place =
        [("stock", ["stock"]), ("sku", ["shelf", "box", "item", "sku"])] ∧
      (standard.resolve stockroom "item.sku").canonicalPath = "stock.shelf.box.item.sku" ∧
      (standard.examined stockroom "item.sku").map CandidateRow.place =
        [("item", ["item"]), ("item", ["stock", "shelf", "box", "item"]), ("sku", ["sku"])] ∧
      (standard.rows stockroom "item.sku").map CandidateRow.place =
        [("item", ["item"]), ("item", ["stock", "shelf", "box", "item"])] := by
  decide +kernel

theorem rows_examined_stock :
    standard.Faithful stockroom "stock.sku" ∧
      (standard.rows stockroom "stock.sku").map CandidateRow.place =
        [("stock", ["stock"]), ("sku", ["shelf", "box", "item", "sku"])] := by
  obtain ⟨faithful, places, _⟩ := stockroom_rows
  refine ⟨faithful, ?_⟩
  rw [(rows_examined standard stockroom "stock.sku").2.2 faithful, places]

theorem rows_miss_examined :
    (standard.resolve stockroom "item.sku").canonicalPath = "stock.shelf.box.item.sku" ∧
      (standard.examined stockroom "item.sku").map CandidateRow.place =
        [("item", ["item"]), ("item", ["stock", "shelf", "box", "item"]), ("sku", ["sku"])] ∧
      (standard.rows stockroom "item.sku").map CandidateRow.place =
        [("item", ["item"]), ("item", ["stock", "shelf", "box", "item"])] ∧
      standard.rows stockroom "item.sku" ≠ standard.examined stockroom "item.sku" := by
  obtain ⟨_, _, bound, examined, rows⟩ := stockroom_rows
  refine ⟨bound, examined, rows, ?_⟩
  intro same
  have lengths := congrArg List.length ((congrArg _ same).symm.trans rows)
  rw [examined] at lengths
  cases lengths

end Thresholds

end Criteria.Schema
