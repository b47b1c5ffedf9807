import Criteria.Proofs.Query.Forest
import Criteria.Proofs.Query.Infix

namespace Criteria.Query

variable {α : Type}

def Connective.combine : Connective → List Bool → Bool
  | .and, values => values.all id
  | .or, values => values.any id

mutual
def Tree.holds (valuation : α → Bool) : Tree α → Bool
  | .leaf a => valuation a
  | .group operator children => operator.connective.combine (forestHolds valuation children)
def Tree.forestHolds (valuation : α → Bool) : List (Tree α) → List Bool
  | [] => []
  | t :: ts => Tree.holds valuation t :: Tree.forestHolds valuation ts
end

def Infix.holds (valuation : α → Bool) : {level : Level} → Infix α level → Bool
  | _, .operand a => valuation a
  | _, .enclosed e => e.holds valuation
  | _, .single _ part => part.holds valuation
  | _, .joined .and e _ part => e.holds valuation && part.holds valuation
  | _, .joined .or e _ part => e.holds valuation || part.holds valuation

namespace Connective

theorem combine_singleton (c : Connective) (value : Bool) : c.combine [value] = value := by
  cases c <;> cases value <;> rfl

theorem combine_flatMap {β : Type} (c : Connective) (parts : β → List Bool) (bs : List β) :
    c.combine (bs.flatMap parts) = c.combine (bs.map (fun b => c.combine (parts b))) := by
  cases c with
  | and =>
      rw [combine, combine, List.all_flatMap, List.all_map]
      rfl
  | or =>
      rw [combine, combine, List.any_flatMap, List.any_map]
      rfl

end Connective

namespace Tree

theorem forestHolds_eq_map (valuation : α → Bool) (ts : List (Tree α)) :
    forestHolds valuation ts = ts.map (holds valuation) := by
  induction ts with
  | nil => rfl
  | cons t ts ih => rw [forestHolds, ih, List.map_cons]

theorem holds_group (valuation : α → Bool) (operator : Operator) (children : List (Tree α)) :
    holds valuation (.group operator children) =
      operator.connective.combine (children.map (holds valuation)) := by
  rw [holds, forestHolds_eq_map]

theorem combine_spliced (valuation : α → Bool) (operator : Operator) (t : Tree α) :
    operator.connective.combine ((spliced operator t).map (holds valuation)) =
      holds valuation t := by
  cases t with
  | leaf a => exact Connective.combine_singleton _ _
  | group inner children =>
      simp only [spliced]
      split
      · rename_i h
        simp only [Bool.and_eq_true, decide_eq_true_eq] at h
        rw [holds_group, h.2]
      · exact Connective.combine_singleton _ _

theorem holds_collapse (valuation : α → Bool) (operator : Operator) (ts : List (Tree α)) :
    holds valuation (collapse operator ts) =
      operator.connective.combine (ts.map (holds valuation)) := by
  unfold collapse
  split
  · exact (Connective.combine_singleton _ _).symm
  · exact holds_group valuation operator ts

theorem holds_join (valuation : α → Bool) (operator : Operator) (ts : List (Tree α)) :
    holds valuation (join operator ts) =
      operator.connective.combine (ts.map (holds valuation)) := by
  rw [join, holds_collapse, List.map_flatMap, Connective.combine_flatMap]
  congr 1
  exact List.map_congr_left (fun t _ => combine_spliced valuation operator t)

theorem holds_map {β : Type} (valuation : β → Bool) (f : α → β) (t : Tree α) :
    holds valuation (map f t) = holds (fun a => valuation (f a)) t := by
  induction t with
  | leaf a => rfl
  | group operator children ih =>
      rw [map_group, holds_group, holds_group, List.map_map]
      congr 1
      exact List.map_congr_left ih

theorem holds_congr {v w : α → Bool} {t : Tree α} (h : ∀ a ∈ t.leaves, v a = w a) :
    holds v t = holds w t := by
  induction t with
  | leaf a => exact h a (by simp)
  | group operator children ih =>
      rw [holds_group, holds_group]
      congr 1
      refine List.map_congr_left (fun t ht => ih t ht ?_)
      intro a ha
      exact h a (mem_leaves_of_mem ht ha)

theorem holds_tree (valuation : α → Bool) {level : Level} (e : Infix α level) :
    holds valuation e.tree = e.holds valuation := by
  induction e with
  | operand a => rfl
  | enclosed e ih => exact ih
  | single c part ih => exact ih
  | joined c e separate part ihe ihp =>
      rw [Infix.tree, holds_join]
      cases c with
      | and => simp [Connective.combine, Infix.holds, ihe, ihp]
      | or => simp [Connective.combine, Infix.holds, ihe, ihp]

end Tree

end Criteria.Query
