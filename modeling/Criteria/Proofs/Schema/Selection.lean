import Criteria.Proofs.Schema.Ranking

namespace Criteria.Schema.Thresholds

def Grades (t : Thresholds Rat) : Tier → Candidate Rat → Prop
  | .strong, c => t.strong ≤ c.similarity
  | .moderate, c => t.moderate ≤ c.similarity ∧ c.similarity < t.strong
  | .missing, _ => False

def Contends (t : Thresholds Rat) (structural : Bool) (tier : Tier) (c : Candidate Rat) : Prop :=
  (structural = true → c.node.hasChildren = true) ∧ t.Grades tier c

def Best (t : Thresholds Rat) (structural : Bool) (cs : List (Candidate Rat)) (tier : Tier) :
    Prop :=
  (∃ c ∈ cs, t.Contends structural tier c) ∧
    (tier = .moderate → ∀ c ∈ cs, ¬ t.Contends structural .strong c)

def FirstAmong (p : Candidate Rat → Prop) (cs : List (Candidate Rat)) (c : Candidate Rat) : Prop :=
  p c ∧ (∀ d ∈ cs, p d → d.weight ≤ c.weight) ∧
    ∃ before after, cs = before ++ c :: after ∧ ∀ d ∈ before, p d → d.weight < c.weight

instance (t : Thresholds Rat) (tier : Tier) : DecidablePred (t.Grades tier) :=
  fun c => match tier with
    | .strong => inferInstanceAs (Decidable (t.strong ≤ c.similarity))
    | .moderate => inferInstanceAs (Decidable (t.moderate ≤ c.similarity ∧ c.similarity < t.strong))
    | .missing => inferInstanceAs (Decidable False)

instance (t : Thresholds Rat) (structural : Bool) (tier : Tier) :
    DecidablePred (t.Contends structural tier) :=
  fun c => inferInstanceAs (Decidable ((structural = true → c.node.hasChildren = true) ∧ _))

theorem ranks_weight (cs : List (Candidate Rat)) : Ranks Candidate.weight cs :=
  fun _ _ _ _ => Iff.rfl

theorem foldl_heavier_of_le {c : Candidate Rat} {cs : List (Candidate Rat)}
    (h : ∀ d ∈ cs, d.weight ≤ c.weight) : cs.foldl heavier (some c) = some c := by
  induction cs with
  | nil => rfl
  | cons d cs ih =>
      obtain ⟨here, later⟩ := List.forall_mem_cons.mp h
      rw [List.foldl_cons, heavier, if_neg (not_lt.mpr here)]
      exact ih later

theorem heaviest_append {c : Candidate Rat} {before after : List (Candidate Rat)}
    (hb : ∀ d ∈ before, d.weight < c.weight) (ha : ∀ d ∈ after, d.weight ≤ c.weight) :
    heaviest (before ++ c :: after) = some c := by
  have reached : heavier (heaviest before) c = some c := by
    cases hd : heaviest before with
    | none => rfl
    | some d => rw [heavier, if_pos (hb d (mem_of_heaviest hd))]
  rw [heaviest, List.foldl_append, List.foldl_cons]
  change after.foldl heavier (heavier (heaviest before) c) = some c
  rw [reached]
  exact foldl_heavier_of_le ha

section Contest

variable {p : Candidate Rat → Prop} [DecidablePred p] {cs : List (Candidate Rat)}

theorem mem_filter_decide {c : Candidate Rat} : c ∈ cs.filter (p ·) ↔ c ∈ cs ∧ p c := by
  rw [List.mem_filter, decide_eq_true_iff]

theorem firstAmong_of_heaviest {c : Candidate Rat} (h : heaviest (cs.filter (p ·)) = some c) :
    FirstAmong p cs c := by
  obtain ⟨front, back, hs, hf, hb⟩ := heaviest_split (ranks_weight _) h
  refine ⟨(mem_filter_decide.mp (mem_of_heaviest h)).2, ?_, ?_⟩
  · intro d hd hp
    apply rank_le_of_split hf hb
    rw [← hs]
    exact mem_filter_decide.mpr ⟨hd, hp⟩
  · obtain ⟨before, rest, rfl, rfl, hr⟩ := List.filter_eq_append_iff.mp hs
    obtain ⟨skipped, after, rfl, hn, _, _⟩ := List.filter_eq_cons_iff.mp hr
    refine ⟨before ++ skipped, after, by simp, ?_⟩
    intro d hd hp
    rcases List.mem_append.mp hd with hd | hd
    · exact hf d (mem_filter_decide.mpr ⟨hd, hp⟩)
    · exact absurd (decide_eq_true hp) (hn d hd)

theorem heaviest_of_firstAmong {c : Candidate Rat} (h : FirstAmong p cs c) :
    heaviest (cs.filter (p ·)) = some c := by
  obtain ⟨hc, heavy, before, after, rfl, first⟩ := h
  have kept : (c :: after).filter (p ·) = c :: after.filter (p ·) := by
    simp [hc]
  rw [List.filter_append, kept]
  apply heaviest_append
  · intro d hd
    obtain ⟨hm, hp⟩ := mem_filter_decide.mp hd
    exact first d hm hp
  · intro d hd
    obtain ⟨hm, hp⟩ := mem_filter_decide.mp hd
    exact heavy d (by simp [hm]) hp

theorem heaviest_filter_eq_none_iff : heaviest (cs.filter (p ·)) = none ↔ ∀ c ∈ cs, ¬ p c := by
  have empty : cs.filter (p ·) = [] ↔ ∀ c ∈ cs, ¬ p c := by
    simp [List.filter_eq_nil_iff]
  rw [← empty]
  constructor
  · exact heaviest_eq_none
  · intro h
    rw [h]
    rfl

end Contest

theorem select_eq_or (t : Thresholds Rat) (structural : Bool) (cs : List (Candidate Rat)) :
    t.select structural cs =
      (heaviest (cs.filter (t.Contends structural .strong ·))).or
        (heaviest (cs.filter (t.Contends structural .moderate ·))) := by
  have pools (tier : Tier) (accepts : Candidate Rat → Bool)
      (h : ∀ c, accepts c = true ↔ t.Grades tier c) :
      (cs.filter (eligible structural)).filter accepts =
        cs.filter (t.Contends structural tier ·) := by
    rw [List.filter_filter]
    refine List.filter_congr (fun c _ => ?_)
    rw [Bool.eq_iff_iff, Bool.and_eq_true, decide_eq_true_iff, h, and_comm]
    cases structural <;> simp [eligible, Contends]
  have strong := pools .strong t.strongTier (fun c => decide_eq_true_iff)
  have moderate := pools .moderate t.moderateTier (fun c => by simp [moderateTier, Grades])
  rw [select, strong, moderate]

theorem select_optimal (t : Thresholds Rat) (structural : Bool) (cs : List (Candidate Rat)) :
    (t.select structural cs = none ↔
      ∀ c ∈ cs, ¬ t.Contends structural .strong c ∧ ¬ t.Contends structural .moderate c) ∧
    ∀ c, t.select structural cs = some c ↔
      ∃ tier, t.Best structural cs tier ∧ FirstAmong (t.Contends structural tier) cs c := by
  rw [select_eq_or]
  constructor
  · rw [Option.or_eq_none_iff, heaviest_filter_eq_none_iff, heaviest_filter_eq_none_iff,
      ← forall₂_and]
  · intro c
    rw [Option.or_eq_some_iff, heaviest_filter_eq_none_iff]
    constructor
    · rintro (strong | ⟨weak, moderate⟩)
      · have first := firstAmong_of_heaviest strong
        obtain ⟨hm, hc⟩ := mem_filter_decide.mp (mem_of_heaviest strong)
        exact ⟨.strong, ⟨⟨c, hm, hc⟩, nofun⟩, first⟩
      · have first := firstAmong_of_heaviest moderate
        obtain ⟨hm, hc⟩ := mem_filter_decide.mp (mem_of_heaviest moderate)
        exact ⟨.moderate, ⟨⟨c, hm, hc⟩, fun _ => weak⟩, first⟩
    · rintro ⟨tier, ⟨_, weak⟩, first⟩
      cases tier with
      | strong => exact .inl (heaviest_of_firstAmong first)
      | moderate => exact .inr ⟨weak rfl, heaviest_of_firstAmong first⟩
      | missing => exact absurd first.1.2 id

end Criteria.Schema.Thresholds
