import Criteria.Proofs.Search.Classification

namespace Criteria.Search

open Schema (Node Resolution Score Thresholds)
open Text

namespace EmbeddingRules

theorem covers_iff {stems : List String} {field : String} :
    covers stems field = true ↔ ∃ stem ∈ stems, stem.toList <+: field.toList := by
  simp only [covers, List.any_eq_true, Dotted.begins, List.isPrefixOf_iff_prefix]

theorem covers_eq_false_iff {stems : List String} {field : String} :
    covers stems field = false ↔ ∀ stem ∈ stems, ¬ stem.toList <+: field.toList := by
  rw [← Bool.not_eq_true, covers_iff]
  simp only [not_exists, not_and]

theorem dotted_of_aligned {field canonical : String} (h : aligned field canonical = true)
    (dotted : '.' ∈ field.toList) : '.' ∈ canonical.toList := by
  by_contra plain
  have same := of_decide_eq_true h
  have two := Dotted.two_le_length_segments dotted
  rw [same, Dotted.segments_eq_singleton plain, List.length_singleton] at two
  omega

theorem isSome_classify_iff {σ : Type} {rules : EmbeddingRules} {field : String}
    {r : Resolution σ} :
    (rules.classify field r).isSome = true ↔
      covers rules.flat field = false ∧ '.' ∈ field.toList ∧
        (covers rules.embedded field = true ∨
          r.embedded = true ∧ '.' ∈ r.canonicalPath.toList) := by
  unfold classify
  split
  · rename_i flat
    simp [flat]
  · rename_i flat
    split
    · rename_i undotted
      have plain : '.' ∉ field.toList := by
        rw [← Dotted.isSome_owner?_iff, undotted]
        simp
      simp [plain]
    · rename_i owner ho
      have dotted : '.' ∈ field.toList := Dotted.isSome_owner?_iff.mp (by rw [ho]; rfl)
      split
      · rename_i embedded
        simp [flat, dotted, embedded]
      · rename_i embedded
        split
        · rename_i listed
          split
          · rename_i level
            simp [flat, dotted, listed, dotted_of_aligned level dotted]
          · simp [flat, dotted, listed, embedded, Dotted.isSome_owner?_iff]
        · rename_i loose
          simp [embedded, loose]

theorem classify_of_embedded {σ : Type} {rules : EmbeddingRules} {field : String}
    {r : Resolution σ} (flat : covers rules.flat field = false) (dotted : '.' ∈ field.toList)
    (embedded : covers rules.embedded field = true) :
    rules.classify field r = some (Dotted.head field) := by
  obtain ⟨owner, ho⟩ := Dotted.exists_owner dotted
  simp [classify, flat, ho, embedded]

variable {σ : Type} [Score σ]

-- A child of the root, with a name of one segment: its canonical path has no segment for a list.
def AtTop {σ : Type} (schema : Node) (r : Resolution σ) : Prop :=
  ∃ i, r.Placed schema [i] ∧ '.' ∉ r.node.name.toList

theorem dotted_canonicalPath_iff {t : Thresholds σ} {schema : Node} {field : String}
    (listed : (t.resolve schema field).embedded = true) :
    '.' ∈ (t.resolve schema field).canonicalPath.toList ↔
      ¬ AtTop schema (t.resolve schema field) := by
  obtain ⟨declared, below⟩ := Bool.and_eq_true_iff.mp listed
  obtain ⟨position, placed⟩ := Thresholds.exists_placed declared
  obtain ⟨place, i, _, rfl, _, _⟩ := placed.exists_list below
  rw [← Dotted.isSome_owner?_iff]
  constructor
  · rintro owned ⟨j, top, plain⟩
    have first : (t.resolve schema field).Placed schema ([] ++ [j]) := top
    rw [first.owner plain] at owned
    cases owned
  · intro deep
    by_cases plain : '.' ∈ (t.resolve schema field).node.name.toList
    · rw [Dotted.isSome_owner?_iff, placed.canonicalPath, Node.namesTo_concat placed.node]
      exact Dotted.mem_join_concat plain
    · have ne : place ≠ [] := by
        rintro rfl
        exact deep ⟨i, placed, plain⟩
      rw [placed.owner plain, if_neg ne]
      rfl

theorem classify_returns_iff (t : Thresholds σ) (schema : Node) (rules : EmbeddingRules)
    (field : String) :
    ((∃ path, rules.classify field (t.resolve schema field) = some path) ↔
      (∀ stem ∈ rules.flat, ¬ stem.toList <+: field.toList) ∧ '.' ∈ field.toList ∧
        ((∃ stem ∈ rules.embedded, stem.toList <+: field.toList) ∨
          (t.resolve schema field).node.declared = true ∧
            (t.resolve schema field).parentIsList = true ∧
            ¬ AtTop schema (t.resolve schema field))) ∧
      ((∀ stem ∈ rules.flat, ¬ stem.toList <+: field.toList) → '.' ∈ field.toList →
        (∃ stem ∈ rules.embedded, stem.toList <+: field.toList) →
          ∃ first rest, field = first ++ "." ++ rest ∧ '.' ∉ first.toList ∧
            rules.classify field (t.resolve schema field) = some first) := by
  constructor
  · have deep : ((t.resolve schema field).embedded = true ∧
        '.' ∈ (t.resolve schema field).canonicalPath.toList) ↔
        (t.resolve schema field).node.declared = true ∧
          (t.resolve schema field).parentIsList = true ∧
          ¬ AtTop schema (t.resolve schema field) := by
      rw [and_congr_right dotted_canonicalPath_iff, Resolution.embedded, Bool.and_eq_true_iff,
        and_assoc]
    rw [← Option.isSome_iff_exists, isSome_classify_iff, covers_eq_false_iff, covers_iff, deep]
  · intro flat dotted embedded
    obtain ⟨rest, whole, plain⟩ := Dotted.exists_rest dotted
    refine ⟨Dotted.head field, rest, whole, plain, ?_⟩
    exact classify_of_embedded (covers_eq_false_iff.mpr flat) dotted (covers_iff.mpr embedded)

def catalog : Node where
  name := "Product"
  tag := "Product"
  list := true
  children := [.scalar "name" "String"]

theorem resolutions :
    Compiler.sample.thresholds.resolve Compiler.sample.schema "reviews.stars" =
        ⟨"reviews.stars", .scalar "stars" "Integer", "reviews.stars", true, 1, .strong⟩ ∧
      Compiler.sample.thresholds.resolve catalog "Product.name" =
        ⟨"Product.name", .scalar "name" "String", "name", true, 1, .strong⟩ := by
  decide +kernel

theorem classify_returns_iff_reviews :
    (∃ path, standard.classify "reviews.stars"
      (Compiler.sample.thresholds.resolve Compiler.sample.schema "reviews.stars") = some path) ∧
      ∃ first rest, "investmentInfo.amount" = first ++ "." ++ rest ∧ '.' ∉ first.toList ∧
        standard.classify "investmentInfo.amount" (Compiler.sample.thresholds.resolve
          Compiler.sample.schema "investmentInfo.amount") = some first := by
  have listed : (Compiler.sample.thresholds.resolve Compiler.sample.schema
      "reviews.stars").embedded = true := by
    rw [resolutions.1]
    rfl
  have deep : ¬ AtTop Compiler.sample.schema
      (Compiler.sample.thresholds.resolve Compiler.sample.schema "reviews.stars") := by
    rw [← dotted_canonicalPath_iff listed, resolutions.1]
    simp
  obtain ⟨declared, below⟩ := Bool.and_eq_true_iff.mp listed
  obtain ⟨returns, _⟩ := classify_returns_iff Compiler.sample.thresholds Compiler.sample.schema
    standard "reviews.stars"
  obtain ⟨_, first⟩ := classify_returns_iff Compiler.sample.thresholds Compiler.sample.schema
    standard "investmentInfo.amount"
  refine ⟨returns.mpr ⟨?_, by simp, .inr ⟨declared, below, deep⟩⟩, first ?_ (by simp) ?_⟩
  · exact covers_eq_false_iff.mp rfl
  · exact covers_eq_false_iff.mp rfl
  · exact covers_iff.mp rfl

theorem classify_drops_child_of_root :
    (∀ stem ∈ standard.flat, ¬ stem.toList <+: "Product.name".toList) ∧
      '.' ∈ "Product.name".toList ∧
      (Compiler.sample.thresholds.resolve catalog "Product.name").node.declared = true ∧
      (Compiler.sample.thresholds.resolve catalog "Product.name").parentIsList = true ∧
      standard.classify "Product.name"
        (Compiler.sample.thresholds.resolve catalog "Product.name") = none := by
  refine ⟨covers_eq_false_iff.mp rfl, by simp, ?_, ?_, ?_⟩
  · rw [resolutions.2]
    rfl
  · rw [resolutions.2]
  · rw [resolutions.2]
    rfl

end EmbeddingRules

end Criteria.Search
