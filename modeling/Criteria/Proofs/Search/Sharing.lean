import Criteria.Proofs.Search.Classification
import Criteria.Proofs.Search.Declared

namespace Criteria.Search

open Json (Value)
open Query (Operand)
open Schema (Position Resolution Score)
open Text

namespace Compiler

variable {σ : Type} [Score σ]

structure UnderList (c : Compiler σ) (place : Position) (o : Operand) : Prop where
  bySchema : c.rules.BySchema (c.prepare o).field (c.resolution (c.prepare o))
  child : ∃ i, (c.resolution (c.prepare o)).Placed c.schema (place ++ [i])
  embedded : (c.parent (c.prepare o)).isSome = true

inductive Keyed (c : Compiler σ) (o : Operand) : String → Prop
  | skipping {key : String}
      (other : EmbeddingRules.aligned (c.prepare o).field
        (c.resolution (c.prepare o)).canonicalPath = false)
      (canonical : Dotted.owner? (c.resolution (c.prepare o)).canonicalPath = some key) :
      Keyed c o key
  | spelled {key : String}
      (level : c.thresholds.LevelByLevel c.schema (c.prepare o).field)
      (owner : Dotted.owner? (c.prepare o).field = some key) : Keyed c o key

theorem UnderList.parent {c : Compiler σ} {place : Position} {o : Operand}
    (h : c.UnderList place o) {key : String} (hk : c.Keyed o key) :
    c.parent (c.prepare o) = some key := by
  rw [Compiler.parent, h.bySchema.classify]
  cases hk with
  | skipping other canonical =>
      rw [other, if_neg Bool.false_ne_true, canonical]
  | spelled level owner =>
      have ha : EmbeddingRules.aligned (c.prepare o).field
          (c.resolution (c.prepare o)).canonicalPath = true := by
        have declared := (Bool.and_eq_true_iff.mp h.bySchema.listed).1
        exact decide_eq_true (level.length declared)
      rw [if_pos ha, owner]

theorem UnderList.owner {c : Compiler σ} {place : Position} {o : Operand}
    (h : c.UnderList place o) (plain : '.' ∉ (c.resolution (c.prepare o)).node.name.toList) :
    Dotted.owner? (c.resolution (c.prepare o)).canonicalPath =
      some (Dotted.join (c.schema.namesTo place)) := by
  obtain ⟨i, hp⟩ := h.child
  have ho := hp.owner plain
  by_cases root : place = []
  · have hs : Dotted.segments (c.resolution (c.prepare o)).canonicalPath =
        [(c.resolution (c.prepare o)).node.name] := by
      rw [hp.canonicalPath, Schema.Node.namesTo_concat hp.node, root]
      exact Dotted.segments_eq_singleton plain
    have two := Dotted.two_le_length_segments h.bySchema.dotted
    have other : EmbeddingRules.aligned (c.prepare o).field
        (c.resolution (c.prepare o)).canonicalPath = false := by
      rw [EmbeddingRules.aligned, hs, List.length_singleton, decide_eq_false_iff_not]
      omega
    have hc : c.parent (c.prepare o) = none := by
      rw [Compiler.parent, h.bySchema.classify, other, ho, if_pos root]
      rfl
    have he := h.embedded
    rw [hc] at he
    cases he
  · rw [ho, if_neg root]

def byAuthor : Operand :=
  .compare "Product.reviews.author" .equal (.string "ann")

def byStars : Operand :=
  .compare "reviews.stars" .equal (.integer 5)

def bySpelling : Operand :=
  .compare "review.author" .equal (.string "ann")

def author (field : String) (similarity : Rat) (tier : Schema.Tier) : Resolution Rat :=
  ⟨field, .scalar "author" "String", "reviews.author", true, similarity, tier⟩

theorem resolutions :
    sample.resolution (sample.prepare byAuthor) = author "Product.reviews.author" 1 .strong ∧
      sample.resolution (sample.prepare byStars) =
        ⟨"reviews.stars", .scalar "stars" "Integer", "reviews.stars", true, 1, .strong⟩ ∧
      sample.resolution (sample.prepare bySpelling) = author "review.author" (6 / 7) .strong := by
  decide +kernel

end Compiler

end Criteria.Search
