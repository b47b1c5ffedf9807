import Criteria.Search.Clause

namespace Criteria.Search

open Json (Value)

def verdict (keyword : String) (verdicts : List Bool) : Bool :=
  match keyword with
  | "must" => verdicts.all id
  | "should" => verdicts.any id
  | "mustNot" => !verdicts.any id
  | _ => true

mutual
def holds (valuation : Value → Bool) : Value → Bool
  | .object [("compound", .object body)] => bodyHolds valuation body
  | document => valuation document
def bodyHolds (valuation : Value → Bool) : List (String × Value) → Bool
  | [] => true
  | (keyword, .array clauses) :: body =>
      verdict keyword (clauseVerdicts valuation clauses) && bodyHolds valuation body
  | _ :: body => bodyHolds valuation body
def clauseVerdicts (valuation : Value → Bool) : List Value → List Bool
  | [] => []
  | clause :: clauses => holds valuation clause :: clauseVerdicts valuation clauses
end

mutual
def gathered (above : List String) : Value → List (List String × Value)
  | .object [("compound", .object body)] => bodyGathered above body
  | .object [("embeddedDocument", .object [("operator", operator), ("path", .string path)])] =>
      gathered (above ++ [path]) operator
  | document => [(above, document)]
def bodyGathered (above : List String) : List (String × Value) → List (List String × Value)
  | [] => []
  | ("must", .array clauses) :: body => clausesGathered above clauses ++ bodyGathered above body
  | ("should", .array clauses) :: body => clausesGathered above clauses ++ bodyGathered above body
  | _ :: body => bodyGathered above body
def clausesGathered (above : List String) : List Value → List (List String × Value)
  | [] => []
  | clause :: clauses => gathered above clause ++ clausesGathered above clauses
end

mutual
def clauseLists : Value → List (String × List Value)
  | .object [("compound", .object body)] => bodyLists body
  | .object [("embeddedDocument", .object [("operator", operator), ("path", .string _)])] =>
      clauseLists operator
  | _ => []
def bodyLists : List (String × Value) → List (String × List Value)
  | [] => []
  | (keyword, .array clauses) :: body =>
      (keyword, clauses) :: (innerLists clauses ++ bodyLists body)
  | _ :: body => bodyLists body
def innerLists : List Value → List (String × List Value)
  | [] => []
  | clause :: clauses => clauseLists clause ++ innerLists clauses
end

def wrapperPath? : Value → Option String
  | .object [("embeddedDocument", .object [("operator", _), ("path", .string path)])] => some path
  | _ => none

def Primitive : Value → Prop
  | .object [] => False
  | .object members => ∀ m ∈ members, m.1 ≠ "compound" ∧ m.1 ≠ "embeddedDocument"
  | _ => False

theorem clauseVerdicts_eq_map (valuation : Value → Bool) (clauses : List Value) :
    clauseVerdicts valuation clauses = clauses.map (holds valuation) := by
  induction clauses with
  | nil => rfl
  | cons clause clauses ih => rw [clauseVerdicts, ih, List.map_cons]

theorem clausesGathered_eq_flatMap (above : List String) (clauses : List Value) :
    clausesGathered above clauses = clauses.flatMap (gathered above) := by
  induction clauses with
  | nil => rfl
  | cons clause clauses ih => rw [clausesGathered, ih, List.flatMap_cons]

theorem innerLists_eq_flatMap (clauses : List Value) :
    innerLists clauses = clauses.flatMap clauseLists := by
  induction clauses with
  | nil => rfl
  | cons clause clauses ih => rw [innerLists, ih, List.flatMap_cons]

theorem holds_compound (valuation : Value → Bool) (keyword : String) (clauses : List Value) :
    holds valuation (compound keyword clauses) =
      verdict keyword (clauses.map (holds valuation)) := by
  rw [compound, record, holds, bodyHolds, bodyHolds, clauseVerdicts_eq_map, Bool.and_true]

theorem holds_of_primitive (valuation : Value → Bool) {document : Value} (h : Primitive document) :
    holds valuation document = valuation document := by
  unfold holds
  split
  · exact absurd rfl (h _ (List.mem_singleton_self _)).1
  · rfl

theorem holds_negate (valuation : Value → Bool) (clause : Value) :
    holds valuation (negate clause) = !holds valuation clause := by
  rw [negate, holds_compound, List.map_singleton, verdict, List.any_cons, List.any_nil,
    Bool.or_false, id]

theorem holds_requiring (valuation : Value → Bool) (must mustNot : List Value) :
    holds valuation (requiring must mustNot) =
      (must.all (holds valuation) && !mustNot.any (holds valuation)) := by
  rw [requiring, record, holds, bodyHolds, bodyHolds, bodyHolds, clauseVerdicts_eq_map,
    clauseVerdicts_eq_map, Bool.and_true, verdict, verdict, List.all_map, List.any_map]
  rfl

theorem gathered_embeddedDocument (above : List String) (path : String) (operator : Value) :
    gathered above (embeddedDocument path operator) = gathered (above ++ [path]) operator := by
  rw [embeddedDocument, record, gathered]

theorem gathered_of_primitive (above : List String) {document : Value} (h : Primitive document) :
    gathered above document = [(above, document)] := by
  unfold gathered
  split
  · exact absurd rfl (h _ (List.mem_singleton_self _)).1
  · exact absurd rfl (h _ (List.mem_singleton_self _)).2
  · rfl

theorem not_blank_of_primitive {document : Value} (h : Primitive document) :
    document.blank = false := by
  unfold Value.blank
  split
  · exact h.elim
  · exact h.elim
  · rfl

theorem clauseLists_compound (keyword : String) (clauses : List Value) :
    clauseLists (compound keyword clauses) = (keyword, clauses) :: clauses.flatMap clauseLists := by
  rw [compound, record, clauseLists, bodyLists, bodyLists, innerLists_eq_flatMap, List.append_nil]

theorem clauseLists_requiring (must mustNot : List Value) :
    clauseLists (requiring must mustNot) =
      ("must", must) :: (must.flatMap clauseLists ++
        ("mustNot", mustNot) :: mustNot.flatMap clauseLists) := by
  rw [requiring, record, clauseLists, bodyLists, bodyLists, bodyLists, innerLists_eq_flatMap,
    innerLists_eq_flatMap, List.append_nil]

theorem clauseLists_embeddedDocument (path : String) (operator : Value) :
    clauseLists (embeddedDocument path operator) = clauseLists operator := by
  rw [embeddedDocument, record, clauseLists]

theorem clauseLists_of_primitive {document : Value} (h : Primitive document) :
    clauseLists document = [] := by
  unfold clauseLists
  split
  · exact absurd rfl (h _ (List.mem_singleton_self _)).1
  · exact absurd rfl (h _ (List.mem_singleton_self _)).2
  · rfl

theorem wrapperPath?_of_primitive {document : Value} (h : Primitive document) :
    wrapperPath? document = none := by
  unfold wrapperPath?
  split
  · exact absurd rfl (h _ (List.mem_singleton_self _)).2
  · rfl

theorem primitive_record {kind : String} (hc : kind ≠ "compound") (he : kind ≠ "embeddedDocument")
    (body : Json.Members) : Primitive (record kind body) := by
  intro m hm
  rw [List.mem_singleton.mp hm]
  exact ⟨hc, he⟩

end Criteria.Search
