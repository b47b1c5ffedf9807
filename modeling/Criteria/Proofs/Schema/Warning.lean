import Criteria.Proofs.Float.Standing
import Criteria.Proofs.Schema.Admission
import Criteria.Proofs.Schema.Listing

namespace Criteria.Schema.Thresholds

open Text

section Walks

variable {σ : Type} [Score σ] {t : Thresholds σ} {start root : Node} {path : String}

theorem tier_of_select {structural : Bool} {cs : List (Candidate σ)} {c : Candidate σ}
    (h : t.select structural cs = some c) :
    t.strong ≤ c.similarity ∨ t.moderate ≤ c.similarity ∧ c.similarity < t.strong := by
  rw [select, Option.or_eq_some_iff] at h
  rcases h with h | ⟨_, h⟩
  · exact .inl (by simpa [strongTier] using (List.mem_filter.mp (mem_of_heaviest h)).2)
  · exact .inr (by simpa [moderateTier] using (List.mem_filter.mp (mem_of_heaviest h)).2)

theorem tier_of_chosen {step : Step σ} (h : step ∈ t.trail root path) :
    ∀ c ∈ step.chosen,
      t.strong ≤ c.similarity ∨ t.moderate ≤ c.similarity ∧ c.similarity < t.strong := by
  intro c hc
  obtain ⟨_, structural, chosen⟩ := exists_select_of_mem_walk h
  exact tier_of_select (chosen.symm.trans hc)

theorem exists_unmatched {segments : List String} (h : bound (t.walk start segments) = none) :
    ∃ before last cs, t.walk start segments = before ++ [last] ∧ last.chosen = none ∧
      bound before = some cs ∧
      (before ++ [last]).map Step.segment <+: segments := by
  induction segments generalizing start with
  | nil => cases h
  | cons segment rest ih =>
      rw [bound_walk_cons] at h
      rw [walk_cons]
      cases hc : t.select (!rest.isEmpty) (t.candidates start segment) with
      | none => exact ⟨[], _, [], rfl, rfl, rfl, by simp⟩
      | some c =>
          rw [hc, Option.bind_some, Option.map_eq_none_iff] at h
          obtain ⟨before, last, cs, steps, unmatched, chosen, front⟩ := ih h
          refine ⟨⟨segment, start, t.candidates start segment, some c⟩ :: before, last, c :: cs,
            ?_, unmatched, ?_, ?_⟩
          · rw [Option.elim_some, steps, List.cons_append]
          · rw [bound_cons, chosen]
            rfl
          · exact List.cons_prefix_cons.mpr ⟨rfl, front⟩

structure WarnsExactly (t : Thresholds σ) (root : Node) (path : String) : Prop where
  found : (t.resolve root path).tier ≠ .missing →
    (t.Warned root path ↔ (t.resolve root path).tier = .moderate)
  lost : (t.resolve root path).tier = .missing →
    ∃ before last cs, t.trail root path = before ++ [last] ∧ last.chosen = none ∧
      bound before = some cs ∧
      (before ++ [last]).map Step.segment <+: Dotted.segments path ∧
      (t.Warned root path ↔ ∃ c ∈ cs, t.moderate ≤ c.similarity ∧ c.similarity < t.strong)
  strong : (∀ step ∈ t.trail root path, ∀ c ∈ step.chosen, t.strong ≤ c.similarity) →
    ¬ t.Warned root path

theorem tier_eq_missing_iff :
    (t.resolve root path).tier = .missing ↔ bound (t.trail root path) = none := by
  cases hb : bound (t.trail root path) with
  | none => exact iff_of_true (by rw [resolve_of_unbound hb]; rfl) rfl
  | some cs =>
      refine iff_of_false ?_ (Option.some_ne_none cs)
      rw [resolve_of_bound hb, settled]
      dsimp only
      split <;> decide

theorem tier_settled_eq_moderate {cs : List (Candidate σ)} :
    (t.settled root path cs).tier = .moderate ↔ ¬ t.strong ≤ lowest cs := by
  rw [settled]
  dsimp only
  split
  · rename_i strong
    exact iff_of_false (by decide) (not_not_intro strong)
  · rename_i weak
    exact iff_of_true rfl weak

theorem warned_of_bound {cs : List (Candidate σ)} (h : bound (t.trail root path) = some cs) :
    t.Warned root path ↔ ∃ c ∈ cs, c.similarity < t.strong := by
  rw [warned_iff, exists_chosen h]

theorem warned_of_unmatched {before : List (Step σ)} {last : Step σ} {cs : List (Candidate σ)}
    (steps : t.trail root path = before ++ [last]) (unmatched : last.chosen = none)
    (h : bound before = some cs) : t.Warned root path ↔ ∃ c ∈ cs, c.similarity < t.strong := by
  rw [warned_iff, steps, ← exists_chosen h]
  simp [or_and_right, exists_or, unmatched]

variable (strict : ∀ score, t.strong ≤ score → ¬ score < t.strong)
include strict

theorem below_iff {step : Step σ} (h : step ∈ t.trail root path) {c : Candidate σ}
    (hc : c ∈ step.chosen) :
    c.similarity < t.strong ↔ t.moderate ≤ c.similarity ∧ c.similarity < t.strong := by
  refine ⟨fun below => ?_, And.right⟩
  rcases tier_of_chosen h c hc with strong | moderate
  · exact absurd below (strict _ strong)
  · exact moderate

-- The least of the scores meets the strong threshold exactly if each of them does.
theorem warnsExactly (graded : ∀ cs, bound (t.trail root path) = some cs →
    (t.strong ≤ lowest cs ↔ ∀ c ∈ cs, t.strong ≤ c.similarity)) : t.WarnsExactly root path where
  found := by
    rw [Ne, tier_eq_missing_iff]
    intro hb
    obtain ⟨cs, hb⟩ := Option.ne_none_iff_exists'.mp hb
    have tiers := (forall_chosen hb).mp (fun step hs => tier_of_chosen hs)
    have apart : (∃ c ∈ cs, c.similarity < t.strong) ↔ ¬ ∀ c ∈ cs, t.strong ≤ c.similarity := by
      constructor
      · rintro ⟨c, hc, below⟩ all
        exact strict _ (all c hc) below
      · intro some
        obtain ⟨c, hc, weak⟩ : ∃ c ∈ cs, ¬ t.strong ≤ c.similarity := by
          push Not at some
          exact some
        exact ⟨c, hc, ((tiers c hc).resolve_left weak).2⟩
    rw [warned_of_bound hb, apart, ← graded cs hb, resolve_of_bound hb, tier_settled_eq_moderate]
  lost := by
    rw [tier_eq_missing_iff]
    intro hb
    obtain ⟨before, last, cs, steps, unmatched, chosen, front⟩ := exists_unmatched hb
    change t.trail root path = before ++ [last] at steps
    refine ⟨before, last, cs, steps, unmatched, chosen, front, ?_⟩
    rw [warned_of_unmatched steps unmatched chosen, ← exists_chosen chosen, ← exists_chosen chosen]
    have mem {step : Step σ} (hs : step ∈ before) : step ∈ t.trail root path := by
      rw [steps]
      exact List.mem_append_left _ hs
    constructor
    · rintro ⟨step, hs, c, hc, below⟩
      exact ⟨step, hs, c, hc, (below_iff strict (mem hs) hc).mp below⟩
    · rintro ⟨step, hs, c, hc, moderate⟩
      exact ⟨step, hs, c, hc, moderate.2⟩
  strong all := by
    rw [warned_iff]
    rintro ⟨step, hs, c, hc, below⟩
    exact strict _ (all step hs c hc) below

end Walks

section Approximate

open Float.Model.UnpackedFloat (Nonneg)

structure Proportion (x : Float) : Prop where
  nonneg : Nonneg x.toModel.unpack
  le_one : x ≤ 1

theorem Proportion.ratio {n m : Nat} (hm : 0 < m) (le : n ≤ m) (fits : m < 2 ^ 64) :
    Proportion (Score.ratio n m) where
  nonneg := Float.nonneg_div hm le fits
  le_one := Float.div_le_one hm le fits

theorem Proportion.similarity {a b : String} (fits : longer a b < 2 ^ 64) :
    Proportion (similarity a b) := by
  obtain ⟨n, m, fraction, width⟩ := exists_fraction_lt fits
  rw [fraction.read]
  exact .ratio fraction.positive fraction.le width

theorem lower_spec {a s : Float} (ha : Proportion a) (hs : Proportion s) :
    Proportion (lower a s) ∧ lower a s ≤ a ∧ lower a s ≤ s ∧ (lower a s = a ∨ lower a s = s) := by
  rw [lower]
  split
  · rename_i less
    exact ⟨hs, Float.le_of_lt less, Float.le_refl_of_nonneg hs.nonneg, .inr rfl⟩
  · rename_i above
    exact ⟨ha, Float.le_refl_of_nonneg ha.nonneg, Float.le_of_not_lt ha.nonneg hs.nonneg above,
      .inl rfl⟩

theorem foldl_lower_spec {a : Float} {scores : List Float} (h : ∀ s ∈ a :: scores, Proportion s) :
    scores.foldl lower a ∈ a :: scores ∧ ∀ s ∈ a :: scores, scores.foldl lower a ≤ s := by
  induction scores generalizing a with
  | nil =>
      rw [List.forall_mem_singleton] at h ⊢
      exact ⟨List.mem_singleton_self a, Float.le_refl_of_nonneg h.nonneg⟩
  | cons s scores ih =>
      obtain ⟨ha, h⟩ := List.forall_mem_cons.mp h
      obtain ⟨hs, later⟩ := List.forall_mem_cons.mp h
      obtain ⟨hl, belowA, belowS, choice⟩ := lower_spec ha hs
      obtain ⟨mem, least⟩ := ih (List.forall_mem_cons.mpr ⟨hl, later⟩)
      have first := least _ List.mem_cons_self
      rw [List.foldl_cons]
      constructor
      · rcases List.mem_cons.mp mem with same | mem
        · rw [same]
          rcases choice with same | same <;> simp [same]
        · exact List.mem_cons_of_mem a (List.mem_cons_of_mem s mem)
      · simp only [List.forall_mem_cons]
        exact ⟨Float.le_trans_of_nonneg hl.nonneg ha.nonneg first belowA,
          Float.le_trans_of_nonneg hl.nonneg hs.nonneg first belowS,
          fun r hr => least r (List.mem_cons_of_mem _ hr)⟩

theorem strong_le_lowest_iff {t : Thresholds Float} {cs : List (Candidate Float)} (ne : cs ≠ [])
    (h : ∀ c ∈ cs, Proportion c.similarity) :
    t.strong ≤ lowest cs ↔ ∀ c ∈ cs, t.strong ≤ c.similarity := by
  have one : Proportion (Score.ratio 1 1) := .ratio Nat.one_pos (Nat.le_refl 1) (by decide)
  have proportions : ∀ s ∈ Score.ratio 1 1 :: cs.map Candidate.similarity, Proportion s := by
    rw [List.forall_mem_cons, List.forall_mem_map]
    exact ⟨one, h⟩
  obtain ⟨mem, least⟩ := foldl_lower_spec proportions
  constructor
  · intro hs c hc
    have hm : c.similarity ∈ Score.ratio 1 1 :: cs.map Candidate.similarity :=
      List.mem_cons_of_mem _ (List.mem_map_of_mem hc)
    exact Float.le_trans_of_nonneg (proportions _ mem).nonneg (h c hc).nonneg hs (least _ hm)
  · intro all
    rcases List.mem_cons.mp mem with same | mem
    · obtain ⟨c, cs, rfl⟩ := List.exists_cons_of_ne_nil ne
      have first := h c List.mem_cons_self
      rw [lowest, same]
      exact Float.le_trans_of_nonneg first.nonneg one.nonneg (all c List.mem_cons_self) first.le_one
    · obtain ⟨c, hc, same⟩ := List.mem_map.mp mem
      rw [lowest, ← same]
      exact all c hc

end Approximate

theorem warning_exact (root : Node) (path : String) :
    (∀ t : Thresholds Rat, t.WarnsExactly root path) ∧
      ((∀ segment ∈ Dotted.segments path, ∀ name ∈ root.names, longer segment name < 2 ^ 64) →
        ∀ t : Thresholds Float, t.WarnsExactly root path) := by
  constructor
  · intro t
    refine warnsExactly (fun _ => not_lt.mpr) (fun cs hb => ⟨fun hs c hc => ?_, strong_le_lowest hb⟩)
    exact hs.trans ((isLeast_of_bound hb).2 (List.mem_map_of_mem hc))
  · intro fits t
    refine warnsExactly (fun _ => Float.not_lt_of_le)
      (fun cs hb => strong_le_lowest_iff (ne_nil_of_bound hb) (fun c hc => ?_))
    obtain ⟨position, route⟩ := exists_route hb
    obtain ⟨segment, hs, name, hn, same⟩ := route.scored c hc
    rw [same]
    exact .similarity (fits segment hs name hn)

def strict : Thresholds Float where
  candidate := 0.5
  strong := 0.9
  moderate := 0.5

theorem strict_tiers :
    (strict.resolve stockroom "stok.sku").tier = .moderate ∧
      (strict.resolve stockroom "stok.zzz").tier = .missing ∧
      ∃ step ∈ strict.trail stockroom "stok.zzz", ∃ c ∈ step.chosen,
        c.similarity < strict.strong := by
  decide +kernel

theorem warning_exact_stock :
    (∀ segment ∈ Dotted.segments "stok.sku", ∀ name ∈ stockroom.names,
      longer segment name < 2 ^ 64) ∧ strict.Warned stockroom "stok.sku" := by
  have fits : ∀ segment ∈ Dotted.segments "stok.sku", ∀ name ∈ stockroom.names,
      longer segment name < 2 ^ 64 := by
    decide
  have exact := (warning_exact stockroom "stok.sku").2 fits strict
  have moderate := strict_tiers.1
  exact ⟨fits, (exact.found (by rw [moderate]; decide)).mpr moderate⟩

theorem warned_though_missing :
    (strict.resolve stockroom "stok.zzz").tier = .missing ∧ strict.Warned stockroom "stok.zzz" ∧
      ¬ (strict.Warned stockroom "stok.zzz" ↔
        (strict.resolve stockroom "stok.zzz").tier = .moderate) := by
  obtain ⟨_, missing, below⟩ := strict_tiers
  have warned := warned_iff.mpr below
  refine ⟨missing, warned, fun same => ?_⟩
  have moderate := same.mp warned
  rw [missing] at moderate
  cases moderate

end Criteria.Schema.Thresholds
