import Criteria.Proofs.Json.Members
import Criteria.Proofs.Search.Form
import Criteria.Proofs.Search.Presence

namespace Criteria.Search

open Json (Value Members)
open Query (Comparison Operand)

def Textual : Value → Prop
  | .string _ => True
  | .array items => items ≠ [] ∧ ∀ item ∈ items, item.isString = true
  | _ => False

def Discrete : Value → Prop
  | .number _ => True
  | .bool _ => True
  | .object _ => True
  | _ => False

structure WellFormed (kind : String) (body : Members) : Prop where
  bounds : kind = "range" → ∀ m ∈ body, m.1 ≠ "path" → m.2 ≠ .null
  values : kind = "in" → ∃ items, body.get? "value" = some (.array items) ∧
    ∀ item ∈ items, Discrete item
  query : kind ∈ ["text", "wildcard", "autocomplete", "phrase"] →
    ∃ query, body.get? "query" = some query ∧ Textual query

def clausesIn (document : Value) : List Value :=
  document :: (clauseLists document).flatMap Prod.snd

def Sound (document : Value) : Prop :=
  ∀ kind body, record kind body ∈ clausesIn document → WellFormed kind body

namespace WellFormed

theorem of_other {kind : String}
    (h : kind ∉ ["range", "in", "text", "wildcard", "autocomplete", "phrase"]) (body : Members) :
    WellFormed kind body := by
  refine ⟨?_, ?_, ?_⟩
  · rintro rfl
    exact absurd (by decide) h
  · rintro rfl
    exact absurd (by decide) h
  · intro textual
    exact absurd (List.mem_cons_of_mem _ (List.mem_cons_of_mem _ textual)) h

theorem of_query {kind : String} (hk : kind ∈ ["text", "wildcard", "autocomplete", "phrase"])
    {body : Members} {query : Value} (hq : body.get? "query" = some query) (ht : Textual query) :
    WellFormed kind body := by
  refine ⟨?_, ?_, fun _ => ⟨query, hq, ht⟩⟩
  · rintro rfl
    exact absurd hk (by decide)
  · rintro rfl
    exact absurd hk (by decide)

end WellFormed

theorem mem_clausesIn_compound {clause : Value} {keyword : String} {clauses : List Value} :
    clause ∈ clausesIn (compound keyword clauses) ↔
      clause = compound keyword clauses ∨ ∃ inner ∈ clauses, clause ∈ clausesIn inner := by
  simp only [clausesIn, clauseLists_compound, List.flatMap_cons, List.flatMap_assoc,
    List.mem_cons, List.mem_append, List.mem_flatMap]
  grind

theorem mem_clausesIn_requiring {clause : Value} {must mustNot : List Value} :
    clause ∈ clausesIn (requiring must mustNot) ↔
      clause = requiring must mustNot ∨ (∃ inner ∈ must, clause ∈ clausesIn inner) ∨
        ∃ inner ∈ mustNot, clause ∈ clausesIn inner := by
  simp only [clausesIn, clauseLists_requiring, List.flatMap_cons, List.flatMap_append,
    List.flatMap_assoc, List.mem_cons, List.mem_append, List.mem_flatMap]
  grind

namespace Sound

theorem primitive {kind : String} (hc : kind ≠ "compound") (he : kind ≠ "embeddedDocument")
    {body : Members} (h : WellFormed kind body) : Sound (record kind body) := by
  intro kind' body' hb
  rw [clausesIn, clauseLists_of_primitive (primitive_record hc he body), List.flatMap_nil,
    List.mem_singleton] at hb
  cases hb
  exact h

theorem compound (keyword : String) {clauses : List Value} (h : ∀ clause ∈ clauses, Sound clause) :
    Sound (compound keyword clauses) := by
  intro kind body hb
  rcases mem_clausesIn_compound.mp hb with same | ⟨inner, hi, hb⟩
  · cases same
    exact .of_other (by decide) _
  · exact h inner hi kind body hb

theorem requiring {must mustNot : List Value} (hm : ∀ clause ∈ must, Sound clause)
    (hn : ∀ clause ∈ mustNot, Sound clause) : Sound (requiring must mustNot) := by
  intro kind body hb
  rcases mem_clausesIn_requiring.mp hb with same | ⟨inner, hi, hb⟩ | ⟨inner, hi, hb⟩
  · cases same
    exact .of_other (by decide) _
  · exact hm inner hi kind body hb
  · exact hn inner hi kind body hb

theorem negated {clause : Value} (h : Sound clause) : Sound (negate clause) :=
  .compound "mustNot" (by simpa using h)

theorem final {clause : Clause} (h : Sound clause.document) : Sound clause.final := by
  unfold Clause.final
  split
  · exact h.negated
  · exact h

theorem existence (field : String) : Sound (existsClause field) :=
  .primitive (by decide) (by decide) (.of_other (by decide) _)

theorem equals (field : String) (value : Value) : Sound (equalsClause field value) :=
  .primitive (by decide) (by decide) (.of_other (by decide) _)

theorem text (field : String) {query : Value} (h : Textual query) :
    Sound (textClause field query) :=
  .primitive (by decide) (by decide) (.of_query (by decide) rfl h)

theorem anyText (field : String) : Sound (anyTextClause field) :=
  .primitive (by decide) (by decide)
    (.of_query (by decide) rfl (show Textual (.string "*") from trivial))

theorem wildcard (field : String) {query : Value} (h : Textual query) :
    Sound (wildcardClause field query) :=
  .primitive (by decide) (by decide) (.of_query (by decide) rfl h)

theorem phrase (field : String) {query : Value} (h : Textual query) (slop : Nat) :
    Sound (phraseClause field query slop) :=
  .primitive (by decide) (by decide) (.of_query (by decide) rfl h)

theorem membership (field : String) {items : List Value} (h : ∀ item ∈ items, Discrete item) :
    Sound (inClause field items) :=
  .primitive (by decide) (by decide)
    ⟨fun other => absurd other (by decide), fun _ => ⟨items, rfl, h⟩,
      fun other => absurd other (by decide)⟩

theorem range {bounds : Members} (h : ∀ m ∈ bounds, m.2 ≠ .null) (field : String) :
    Sound (rangeClause bounds field) := by
  refine .primitive (by decide) (by decide)
    ⟨fun _ m hm apart => ?_, fun other => absurd other (by decide),
      fun other => absurd other (by decide)⟩
  rcases List.mem_append.mp hm with bound | path
  · exact h m bound
  · rw [List.mem_singleton.mp path] at apart
    exact absurd rfl apart

theorem of_blankTest {field : String} {clause : Value} (h : BlankTest field clause) :
    Sound clause := by
  cases h with
  | presence => exact existence field
  | null => exact equals field .null
  | default t => exact equals field t.default
  | number => exact range (by simp [Value.integer]) field
  | text => exact anyText field
  | child first => exact existence _

theorem isNull (field : String) (ctx : Context) : Sound (isNullDocument field ctx) :=
  isNullDocument_of (fun keyword _ _ h => .compound keyword h) (fun _ => of_blankTest)

theorem notNull (field : String) (ctx : Context) : Sound (notNullDocument field ctx) :=
  notNullDocument_of (fun _ _ _ hm hn => .requiring hm hn) (fun _ => of_blankTest)

end Sound

end Criteria.Search
