import Criteria.Proofs.Json.Members
import Criteria.Proofs.Search.Form

namespace Criteria.Search

open Json (Value Members)
open Query (Comparison Operand)

def kinds : List String :=
  ["exists", "equals", "text", "in", "range", "wildcard", "autocomplete", "phrase"]

-- A clause of one of the kinds, on the field as the operand spells it.
inductive About (field : String) : Value → Prop
  | record {kind : String} (hk : kind ∈ kinds) {body : Members}
      (path : body.get? "path" = some (.string field)) : About field (record kind body)

namespace About

theorem presence (field : String) : About field (existsClause field) :=
  .record (by decide) rfl

theorem equals (field : String) (value : Value) : About field (equalsClause field value) :=
  .record (by decide) rfl

theorem text (field : String) (query : Value) : About field (textClause field query) :=
  .record (by decide) rfl

theorem range {bounds : Members} (h : bounds.get? "path" = none) (field : String) :
    About field (rangeClause bounds field) := by
  refine .record (by decide) ?_
  rw [Members.get?_append, h]
  rfl

theorem of_range {field bound : String} (hb : "path" ≠ bound) {value clause : Value}
    (h : Lowering.range field bound value = .ok clause) : About field clause := by
  simp only [Lowering.range] at h
  split at h <;> cases h
  exact range (by simp [Members.get?, hb]) field

theorem of_between {field : String} {value clause : Value}
    (h : Lowering.between field value = .ok clause) : About field clause := by
  simp only [Lowering.between] at h
  split at h <;> cases h
  exact range rfl field

theorem equality (field : String) (value : Value) :
    About field (Lowering.equality field value) := by
  unfold Lowering.equality
  split
  · exact equals field _
  · exact equals field _
  · exact equals field _
  · exact text field _

theorem of_membership {field : String} {value clause : Value}
    (h : Lowering.membership field value = .ok clause) : About field clause := by
  simp only [Lowering.membership] at h
  split at h <;> cases h <;> exact .record (by decide) rfl

theorem of_wildcard {field : String} {affix : Lowering.Affix} {value clause : Value}
    (h : Lowering.wildcard field affix value = .ok clause) : About field clause := by
  simp only [Lowering.wildcard] at h
  split at h
  · cases h
    exact .record (by decide) rfl
  · obtain ⟨patterns, _, hp⟩ := Except.bind_eq_ok_iff.mp h
    cases hp
    exact .record (by decide) rfl
  · cases h

theorem of_autocomplete {o : Operand} {clause : Value}
    (h : Lowering.autocomplete o = .ok clause) : About o.field clause := by
  obtain ⟨query, _, hq⟩ := Except.bind_eq_ok_iff.mp h
  cases hq
  refine .record (by decide) ?_
  simp [Members.get?_append, Members.get?]

theorem of_phrase {o : Operand} {clause : Value} (h : Lowering.phrase o = .ok clause) :
    About o.field clause := by
  simp only [Lowering.phrase] at h
  split at h <;> cases h
  exact .record (by decide) rfl

theorem of_draft {form : Form} (hn : form ≠ .isNull) (hp : form ≠ .notNull) {o : Operand}
    {ctx : Context} {clause : Value} (h : form.draft o ctx = .ok clause) :
    About o.field clause := by
  cases form with
  | range bound => exact of_range (by cases bound <;> decide) h
  | between => exact of_between h
  | equality =>
      cases h
      exact equality _ _
  | membership => exact of_membership h
  | wildcard affix => exact of_wildcard h
  | presence =>
      cases h
      exact presence _
  | isNull => exact absurd rfl hn
  | notNull => exact absurd rfl hp
  | autocomplete => exact of_autocomplete h
  | phrase => exact of_phrase h
  | unsupported comparison => cases h

end About

-- What the standard lowering gives: a clause on the field, or one of the two blank tests.
inductive Worded (o : Operand) (ctx : Context) : Comparison → Clause → Prop
  | about {comparison : Comparison} {clause : Clause} (h : About o.field clause.document) :
      Worded o ctx comparison clause
  | isNull : Worded o ctx .isNull (.positive (isNullDocument o.field ctx))
  | notNull : Worded o ctx .notNull (.positive (notNullDocument o.field ctx))

theorem worded_of_compare {comparison : Comparison} {o : Operand} {ctx : Context}
    {clause : Clause} (h : Lowering.compare comparison o ctx = .ok clause) :
    Worded o ctx comparison clause := by
  rw [Form.compare_eq] at h
  obtain ⟨d, hd, rfl⟩ := Except.map_eq_ok_iff.mp h
  by_cases hn : Form.of comparison = .isNull
  · rw [hn] at hd
    cases hd
    cases Form.eq_isNull_of_form hn
    exact .isNull
  · by_cases hp : Form.of comparison = .notNull
    · rw [hp] at hd
      cases hd
      cases Form.eq_notNull_of_form hp
      exact .notNull
    · exact .about (.of_draft hn hp hd)

end Criteria.Search
