import Criteria.Proofs.Search.Document
import Criteria.Search.Lowering

namespace Criteria.Search

open Json (Value)
open Schema (Node)

-- The clauses of which the two tests for blanks are made.
inductive BlankTest (field : String) : Value → Prop
  | presence : BlankTest field (existsClause field)
  | null : BlankTest field (equalsClause field .null)
  | default (t : TypeClass) : BlankTest field (equalsClause field t.default)
  | number : BlankTest field (rangeClause [("gt", .integer leastInteger)] field)
  | text : BlankTest field (anyTextClause field)
  | child (first : Node) : BlankTest field (existsClause (field ++ "." ++ first.name))

def defaultClause (field : String) (ctx : Context) : Option Value :=
  ctx.typeClass.map (fun t => equalsClause field t.default)

namespace BlankTest

variable {field : String} {ctx : Context} {clause : Value}

theorem of_defaultClause (h : clause ∈ defaultClause field ctx) : BlankTest field clause := by
  obtain ⟨t, _, rfl⟩ := Option.map_eq_some_iff.mp h
  exact .default t

theorem of_listExclusion (h : clause ∈ listExclusion field ctx) : BlankTest field clause := by
  unfold listExclusion at h
  split at h
  · cases h
    exact .number
  · cases h
    exact .text
  · obtain ⟨first, _, rfl⟩ := Option.map_eq_some_iff.mp h
    exact .child first

theorem of_blankExclusion (h : clause ∈ blankExclusion field ctx) : BlankTest field clause := by
  unfold blankExclusion at h
  split at h
  · exact of_listExclusion h
  · exact of_defaultClause h

theorem primitive (h : BlankTest field clause) : Primitive clause := by
  cases h <;> exact primitive_record (by decide) (by decide) _

end BlankTest

section Documents

variable {field : String} {ctx : Context} {p : Value → Prop}

theorem isNullDocument_eq :
    isNullDocument field ctx =
      compound "should" (equalsClause field .null :: negate (existsClause field) ::
        (defaultClause field ctx).toList) := rfl

theorem blankExclusion_eq :
    blankExclusion field ctx =
      if ctx.node.list then listExclusion field ctx else defaultClause field ctx := rfl

theorem isNullDocument_of
    (closed : ∀ keyword clauses, clauses ≠ [] → (∀ clause ∈ clauses, p clause) →
      p (compound keyword clauses))
    (test : ∀ clause, BlankTest field clause → p clause) : p (isNullDocument field ctx) := by
  have absent : p (negate (existsClause field)) :=
    closed "mustNot" _ (List.cons_ne_nil _ _) (List.forall_mem_singleton.mpr (test _ .presence))
  refine closed "should" _ (List.cons_ne_nil _ _) (List.forall_mem_cons.mpr ⟨test _ .null, ?_⟩)
  refine List.forall_mem_cons.mpr ⟨absent, fun clause default => ?_⟩
  exact test clause (.of_defaultClause (Option.mem_toList.mp default))

theorem notNullDocument_of
    (closed : ∀ must mustNot, must ≠ [] → (∀ clause ∈ must, p clause) →
      (∀ clause ∈ mustNot, p clause) → p (requiring must mustNot))
    (test : ∀ clause, BlankTest field clause → p clause) : p (notNullDocument field ctx) := by
  refine closed _ _ (List.cons_ne_nil _ _) (List.forall_mem_singleton.mpr (test _ .presence)) ?_
  refine List.forall_mem_cons.mpr ⟨test _ .null, fun clause exclusion => ?_⟩
  exact test clause (.of_blankExclusion (Option.mem_toList.mp exclusion))

end Documents

section Presence

variable (valuation : Value → Bool) (field : String) (ctx : Context)

theorem holds_blankTest {field : String} {clause : Value} (h : BlankTest field clause) :
    holds valuation clause = valuation clause :=
  holds_of_primitive valuation h.primitive

theorem any_holds_toList {field : String} {clause : Option Value}
    (h : ∀ c ∈ clause, BlankTest field c) :
    clause.toList.any (holds valuation) = clause.any valuation := by
  cases clause with
  | none => rfl
  | some c => simp [holds_blankTest valuation (h c rfl)]

theorem holds_isNullDocument :
    holds valuation (isNullDocument field ctx) =
      (valuation (equalsClause field .null) || !valuation (existsClause field) ||
        (defaultClause field ctx).any valuation) := by
  have default : (defaultClause field ctx).toList.any (holds valuation) =
      (defaultClause field ctx).any valuation :=
    any_holds_toList valuation (fun _ => BlankTest.of_defaultClause)
  rw [isNullDocument_eq, holds_compound, verdict, List.any_map, Function.id_comp, List.any_cons,
    List.any_cons, holds_blankTest valuation .null, holds_negate,
    holds_blankTest valuation .presence, default, Bool.or_assoc]

theorem holds_notNullDocument :
    holds valuation (notNullDocument field ctx) =
      (valuation (existsClause field) &&
        !(valuation (equalsClause field .null) || (blankExclusion field ctx).any valuation)) := by
  have exclusion : (blankExclusion field ctx).toList.any (holds valuation) =
      (blankExclusion field ctx).any valuation :=
    any_holds_toList valuation (fun _ => BlankTest.of_blankExclusion)
  rw [notNullDocument, holds_requiring, List.all_cons, List.all_nil, Bool.and_true,
    List.any_cons, holds_blankTest valuation .presence, holds_blankTest valuation .null, exclusion]

-- The two tests differ only on a field that exists and is not null.
theorem complementary_iff :
    holds valuation (notNullDocument field ctx) = !holds valuation (isNullDocument field ctx) ↔
      (valuation (existsClause field) = true → valuation (equalsClause field .null) = false →
        (blankExclusion field ctx).any valuation = (defaultClause field ctx).any valuation) := by
  rw [holds_isNullDocument, holds_notNullDocument]
  cases valuation (existsClause field) <;> cases valuation (equalsClause field .null) <;> simp

theorem listExclusion_eq_none {field : String} {ctx : Context} (untyped : ctx.typeClass = none)
    (bare : ctx.node.children = []) : listExclusion field ctx = none := by
  rw [listExclusion, untyped]
  simp [bare]

theorem presence_complements_blank :
    (ctx.node.list = false ∨ ctx.typeClass = none ∧ ctx.node.children = [] →
      holds valuation (notNullDocument field ctx) = !holds valuation (isNullDocument field ctx)) ∧
      (ctx.node.list = true →
        (holds valuation (notNullDocument field ctx) =
            !holds valuation (isNullDocument field ctx) ↔
          (valuation (existsClause field) = true →
            valuation (equalsClause field .null) = false →
              (listExclusion field ctx).any valuation =
                (defaultClause field ctx).any valuation))) := by
  constructor
  · intro plain
    rw [complementary_iff, blankExclusion_eq]
    intro _ _
    rcases plain with scalar | ⟨untyped, bare⟩
    · rw [scalar]
      rfl
    · rw [listExclusion_eq_none untyped bare, defaultClause, untyped]
      split <;> rfl
  · intro list
    rw [complementary_iff, blankExclusion_eq, if_pos list]

end Presence

def price : Context where
  node := .scalar "price" "Double"

def tags : Context where
  node := { name := "tags", tag := "String", list := true }

def present (field : String) (held : Value) (clause : Value) : Bool :=
  clause = existsClause field || clause = held

theorem presence_complements_blank_price :
    holds (present "price" .null) (notNullDocument "price" price) =
        !holds (present "price" .null) (isNullDocument "price" price) ∧
      holds (present "name" .null) (notNullDocument "tags" tags) =
        !holds (present "name" .null) (isNullDocument "tags" tags) := by
  obtain ⟨scalar, _⟩ := presence_complements_blank (present "price" .null) "price" price
  obtain ⟨_, list⟩ := presence_complements_blank (present "name" .null) "tags" tags
  exact ⟨scalar (.inl rfl), (list rfl).mpr (fun missing => absurd missing (by decide))⟩

theorem tags_apart :
    (holds (present "tags" (anyTextClause "tags")) (isNullDocument "tags" tags) = false ∧
      holds (present "tags" (anyTextClause "tags")) (notNullDocument "tags" tags) = false) ∧
      holds (present "tags" (equalsClause "tags" (.string ""))) (isNullDocument "tags" tags) =
        true ∧
      holds (present "tags" (equalsClause "tags" (.string ""))) (notNullDocument "tags" tags) =
        true :=
  ⟨⟨rfl, rfl⟩, rfl, rfl⟩

end Criteria.Search
