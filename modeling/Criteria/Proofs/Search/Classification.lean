import Criteria.Proofs.Schema.Soundness
import Criteria.Proofs.Search.Assembly

namespace Criteria.Search

open Schema (Candidate Node Position Resolution Score Step Thresholds)
open Text

namespace EmbeddingRules

structure BySchema {σ : Type} (rules : EmbeddingRules) (field : String) (r : Resolution σ) :
    Prop where
  flat : covers rules.flat field = false
  embedded : covers rules.embedded field = false
  dotted : '.' ∈ field.toList
  listed : r.embedded = true

theorem BySchema.classify {σ : Type} {rules : EmbeddingRules} {field : String} {r : Resolution σ}
    (h : rules.BySchema field r) :
    rules.classify field r =
      if aligned field r.canonicalPath then Dotted.owner? field
      else Dotted.owner? r.canonicalPath := by
  obtain ⟨owner, ho⟩ := Dotted.exists_owner h.dotted
  simp [EmbeddingRules.classify, h.flat, h.embedded, h.listed, ho]

variable {σ : Type} [Score σ]

theorem classify_names_list (t : Thresholds σ) (schema : Node) (rules : EmbeddingRules)
    (field : String) (plain : ∀ name ∈ schema.names, '.' ∉ name.toList)
    (h : rules.BySchema field (t.resolve schema field))
    (moves : aligned field (t.resolve schema field).canonicalPath = true →
      ∀ step ∈ t.trail schema field, ∀ c ∈ step.chosen, c.depth ≠ 0) :
    ∃ (place : Position) (i : Nat) (list : Node),
      (t.resolve schema field).Placed schema (place ++ [i]) ∧
      schema.at? place = some list ∧ list.list = true ∧
      (place = [] → rules.classify field (t.resolve schema field) = none) ∧
      (place ≠ [] → ∃ wrapper, rules.classify field (t.resolve schema field) = some wrapper ∧
        (wrapper = Dotted.join (schema.namesTo place) ∨
          Dotted.owner? field = some wrapper ∧ t.LevelByLevel schema field)) := by
  have hr : (t.resolve schema field).node.declared = true ∧
      (t.resolve schema field).parentIsList = true := Bool.and_eq_true_iff.mp h.listed
  obtain ⟨chosen, hb⟩ := Thresholds.exists_bound hr.1
  obtain ⟨position, route⟩ := Thresholds.exists_route hb
  have placed : (t.resolve schema field).Placed schema position :=
    Thresholds.resolve_of_bound hb ▸ route.placed t
  obtain ⟨place, i, list, rfl, ha, hl⟩ := placed.exists_list hr.2
  refine ⟨place, i, list, placed, ha, hl, ?_⟩
  have hd : '.' ∉ (t.resolve schema field).node.name.toList :=
    plain _ (Node.name_mem_names placed.node)
  have hs := placed.segments plain
  rw [h.classify]
  split
  · rename_i aligned
    have hlen : chosen.length = (place ++ [i]).length := by
      rw [route.length, of_decide_eq_true aligned, hs, Node.length_namesTo placed.node]
    have hm : ∀ c ∈ chosen, c.path ≠ [] := by
      intro c hc
      have hne := (Thresholds.forall_chosen hb).mp (moves aligned) c hc
      exact List.length_pos_iff.mp (Nat.pos_of_ne_zero hne)
    have level : t.LevelByLevel schema field := .of_route hb route hs hm hlen.ge
    constructor
    · rintro rfl
      have two := Dotted.two_le_length_segments h.dotted
      rw [← route.length, hlen, List.nil_append, List.length_singleton] at two
      omega
    · intro _
      obtain ⟨owner, ho⟩ := Dotted.exists_owner h.dotted
      exact ⟨owner, ho, .inr ⟨ho, level⟩⟩
  · rw [placed.owner hd]
    constructor
    · intro hp
      rw [if_pos hp]
    · intro hp
      rw [if_neg hp]
      exact ⟨_, rfl, .inl rfl⟩

theorem classify_names_list_misspelt :
    ∃ (place : Position) (list : Node),
      Compiler.sample.schema.at? place = some list ∧ list.list = true ∧
        ("review" = Dotted.join (Compiler.sample.schema.namesTo place) ∨
          Dotted.owner? "review.stars" = some "review" ∧
            Compiler.sample.thresholds.LevelByLevel Compiler.sample.schema "review.stars") := by
  have hr : Compiler.sample.thresholds.resolve Compiler.sample.schema "review.stars" =
      ⟨"review.stars", .scalar "stars" "Integer", "reviews.stars", true, 6 / 7, .strong⟩ := by
    decide +kernel
  have rule : standard.BySchema "review.stars"
      (Compiler.sample.thresholds.resolve Compiler.sample.schema "review.stars") := by
    rw [hr]
    exact ⟨rfl, rfl, by simp, rfl⟩
  obtain ⟨place, i, list, _, ha, hl, hroot, hw⟩ := classify_names_list Compiler.sample.thresholds
    Compiler.sample.schema standard "review.stars" (by decide +kernel) rule (by decide +kernel)
  have named : standard.classify "review.stars"
      (Compiler.sample.thresholds.resolve Compiler.sample.schema "review.stars") =
        some "review" := by
    rw [hr]
    rfl
  rw [named] at hroot hw
  obtain ⟨wrapper, hs, hw⟩ := hw (fun hp => Option.some_ne_none _ (hroot hp))
  cases hs
  exact ⟨place, list, ha, hl, hw⟩

theorem classify_names_root :
    (∀ name ∈ Compiler.sample.schema.names, '.' ∉ name.toList) ∧
      standard.BySchema "Product.author"
        (Compiler.sample.thresholds.resolve Compiler.sample.schema "Product.author") ∧
      (Compiler.sample.thresholds.resolve Compiler.sample.schema "Product.author").Placed
        Compiler.sample.schema [2, 0] ∧
      standard.classify "Product.author"
        (Compiler.sample.thresholds.resolve Compiler.sample.schema "Product.author") =
          some "Product" ∧
      Dotted.join (Compiler.sample.schema.namesTo [2]) = "reviews" ∧
      ¬ Compiler.sample.thresholds.LevelByLevel Compiler.sample.schema "Product.author" := by
  have hr : Compiler.sample.thresholds.resolve Compiler.sample.schema "Product.author" =
      ⟨"Product.author", .scalar "author" "String", "reviews.author", true, 1, .strong⟩ := by
    decide +kernel
  refine ⟨by decide +kernel, ?_, ?_, ?_, rfl, ?_⟩
  · rw [hr]
    exact ⟨rfl, rfl, by simp, rfl⟩
  · rw [hr]
    exact ⟨rfl, rfl, rfl⟩
  · rw [hr]
    rfl
  · rintro ⟨level, _⟩
    exact absurd level (by decide +kernel)

end EmbeddingRules

end Criteria.Search
