import Criteria.Proofs.Schema.Diagnostics
import Criteria.Proofs.Schema.Ranking

namespace Criteria.Schema.Thresholds

open Text

section Selective

variable {σ : Type} [Score σ]

-- What is admitted as a candidate is strong at once.
def Selective (t : Thresholds σ) : Prop :=
  ∀ score, t.candidate ≤ score → t.strong ≤ score

theorem Selective.strong {t : Thresholds σ} (h : t.Selective) {start : Node} {segment : String}
    {c : Candidate σ} (hc : c ∈ t.candidates start segment) : t.strong ≤ c.similarity :=
  h c.similarity (threshold_le_of_mem_collect hc)

variable {s t : Thresholds σ}

theorem candidates_congr (same : s.candidate = t.candidate) (start : Node) (segment : String) :
    s.candidates start segment = t.candidates start segment := by
  rw [candidates, candidates, same]

theorem walk_congr (same : s.candidate = t.candidate) (hs : s.Selective) (ht : t.Selective)
    (start : Node) (segments : List String) : s.walk start segments = t.walk start segments := by
  induction segments generalizing start with
  | nil => rfl
  | cons segment rest ih =>
      have chosen : s.select (!rest.isEmpty) (s.candidates start segment) =
          t.select (!rest.isEmpty) (t.candidates start segment) := by
        rw [select_of_strong (fun c => hs.strong), candidates_congr same,
          select_of_strong (fun c => ht.strong)]
      rw [walk_cons, walk_cons, chosen, candidates_congr same]
      exact congrArg (_ :: ·) (congrArg (Option.elim _ []) (funext fun c => ih c.node))

theorem trail_congr (same : s.candidate = t.candidate) (hs : s.Selective) (ht : t.Selective)
    (root : Node) (path : String) : s.trail root path = t.trail root path :=
  walk_congr same hs ht root (Dotted.segments path)

theorem mem_candidates_of_chosen {start : Node} {segments : List String} {step : Step σ}
    (h : step ∈ t.walk start segments) {c : Candidate σ} (hc : step.chosen = some c) :
    c ∈ t.candidates step.start step.segment := by
  obtain ⟨listed, structural, chosen⟩ := exists_select_of_mem_walk h
  rw [← listed]
  exact (mem_of_select (chosen.symm.trans hc)).1

theorem Selective.strong_of_chosen (h : t.Selective) {root : Node} {path : String} :
    ∀ step ∈ t.trail root path, ∀ c ∈ step.chosen, t.strong ≤ c.similarity :=
  fun _ hs _ hc => h.strong (mem_candidates_of_chosen hs hc)

end Selective

section Exact

variable {s t : Thresholds Rat} {root : Node} {path : String}

theorem selective_of_le (h : t.strong ≤ t.candidate) : t.Selective :=
  fun _ admitted => h.trans admitted

theorem isLeast_of_bound {cs : List (Candidate Rat)} (h : bound (t.trail root path) = some cs) :
    IsLeast {s | s ∈ cs.map Candidate.similarity} (lowest cs) := by
  obtain ⟨position, route⟩ := exists_route h
  exact isLeast_lowest (ne_nil_of_bound h) route.similarity_le_one

theorem strong_le_lowest {cs : List (Candidate Rat)} (h : bound (t.trail root path) = some cs)
    (strong : ∀ c ∈ cs, t.strong ≤ c.similarity) : t.strong ≤ lowest cs := by
  obtain ⟨c, hc, same⟩ := List.mem_map.mp (isLeast_of_bound h).1
  rw [← same]
  exact strong c hc

theorem resolve_of_selective (h : t.Selective) {cs : List (Candidate Rat)}
    (hb : bound (t.trail root path) = some cs) :
    t.resolve root path = { t.settled root path cs with tier := .strong } := by
  have strong := strong_le_lowest hb ((forall_chosen hb).mp h.strong_of_chosen)
  rw [resolve_of_bound hb, settled, if_pos strong]

theorem resolve_congr (same : s.candidate = t.candidate) (hs : s.Selective) (ht : t.Selective) :
    s.resolve root path = t.resolve root path := by
  have trails := trail_congr same hs ht root path
  cases hb : bound (t.trail root path) with
  | none => rw [resolve_of_unbound hb, resolve_of_unbound (trails ▸ hb)]
  | some cs =>
      rw [resolve_of_selective ht hb, resolve_of_selective hs (trails ▸ hb)]
      rfl

theorem tier_of_selective (h : t.Selective) : (t.resolve root path).tier ≠ .moderate := by
  cases hb : bound (t.trail root path) with
  | none =>
      rw [resolve_of_unbound hb]
      exact nofun
  | some cs =>
      rw [resolve_of_selective h hb]
      exact nofun

theorem outcome_congr {step : Step Rat} (hs : ∀ c ∈ step.chosen, s.strong ≤ c.similarity)
    (ht : ∀ c ∈ step.chosen, t.strong ≤ c.similarity) :
    step.outcome s path = step.outcome t path := by
  unfold Step.outcome
  split
  · rfl
  · rename_i c hc
    rw [if_neg (not_lt.mpr (hs c hc)), if_neg (not_lt.mpr (ht c hc))]

theorem events_congr (same : s.candidate = t.candidate) (hs : s.Selective) (ht : t.Selective) :
    s.events root path = t.events root path := by
  have trails := trail_congr same hs ht root path
  rw [events, events, trails]
  refine List.flatMap_congr (fun step hm => ?_)
  rw [Step.events, Step.events,
    outcome_congr (hs.strong_of_chosen step (trails ▸ hm)) (ht.strong_of_chosen step hm)]

theorem message_of_selective (h : t.Selective) {e : Trace.Event} (he : e ∈ t.events root path) :
    e.message ≠ "moderate match bound field" := by
  intro same
  obtain ⟨step, hs, c, hc, below⟩ := warned_iff.mp ⟨e, he, same⟩
  exact absurd below (not_lt.mpr (h.strong_of_chosen step hs c hc))

end Exact

theorem resolve_inert (s t : Thresholds Rat) (same : s.candidate = t.candidate)
    (hs : s.strong ≤ s.candidate) (ht : t.strong ≤ t.candidate) (root : Node) (path : String) :
    s.resolve root path = t.resolve root path ∧
      s.events root path = t.events root path ∧
      (s.resolve root path).tier ≠ .moderate ∧
      ∀ e ∈ s.events root path, e.message ≠ "moderate match bound field" := by
  have selective := selective_of_le hs
  have selective' := selective_of_le ht
  exact ⟨resolve_congr same selective selective', events_congr same selective selective',
    tier_of_selective selective, fun e => message_of_selective selective⟩

theorem resolve_inert_stocks :
    (7 / 10 : Rat) ≤ 4 / 5 ∧ (1 / 5 : Rat) ≤ 4 / 5 ∧
      (⟨4 / 5, 7 / 10, 1 / 2⟩ : Thresholds Rat).resolve stockroom "stocks.sku" =
        (⟨4 / 5, 1 / 5, 9 / 10⟩ : Thresholds Rat).resolve stockroom "stocks.sku" ∧
      (⟨4 / 5, 7 / 10, 1 / 2⟩ : Thresholds Rat).events stockroom "stocks.sku" =
        (⟨4 / 5, 1 / 5, 9 / 10⟩ : Thresholds Rat).events stockroom "stocks.sku" ∧
      ((⟨4 / 5, 7 / 10, 1 / 2⟩ : Thresholds Rat).resolve stockroom "stocks.sku").tier ≠
        .moderate := by
  have strong : (7 / 10 : Rat) ≤ 4 / 5 := by norm_num
  have weak : (1 / 5 : Rat) ≤ 4 / 5 := by norm_num
  obtain ⟨resolution, events, tier, _⟩ := resolve_inert ⟨4 / 5, 7 / 10, 1 / 2⟩
    ⟨4 / 5, 1 / 5, 9 / 10⟩ rfl strong weak stockroom "stocks.sku"
  exact ⟨strong, weak, resolution, events, tier⟩

end Criteria.Schema.Thresholds
