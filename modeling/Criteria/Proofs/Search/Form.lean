import Criteria.Proofs.Except
import Criteria.Search.Lowering

namespace Criteria.Search

open Json (Value)
open Query (Comparison Operand)

inductive Bound where
  | lt
  | lte
  | gt
  | gte
  deriving DecidableEq, Repr

def Bound.key : Bound → String
  | .lt => "lt"
  | .lte => "lte"
  | .gt => "gt"
  | .gte => "gte"

-- Comparisons of one form differ in a parameter and in whether they exclude what they match.
inductive Form where
  | range (bound : Bound)
  | between
  | equality
  | membership
  | wildcard (affix : Lowering.Affix)
  | presence
  | isNull
  | notNull
  | autocomplete
  | phrase
  | unsupported (comparison : Comparison)
  deriving DecidableEq, Repr

namespace Form

def of : Comparison → Form
  | .lessThan => .range .lt
  | .lessThanOrEqual => .range .lte
  | .greaterThan => .range .gt
  | .greaterThanOrEqual => .range .gte
  | .equal | .notEqual => .equality
  | .between | .notBetween => .between
  | .isIn | .notIn => .membership
  | .startsWith | .startsWithNot => .wildcard .leading
  | .endsWith | .endsWithNot => .wildcard .trailing
  | .contains | .regex | .containsNot => .wildcard .inner
  | .present => .presence
  | .isNull => .isNull
  | .notNull => .notNull
  | .autocomplete => .autocomplete
  | .phrase => .phrase
  | .search => .unsupported .search
  | .regexNot => .unsupported .regexNot
  | .notDefined => .unsupported .notDefined

def excludes : Comparison → Bool
  | .notEqual | .notBetween | .notIn | .startsWithNot | .endsWithNot | .containsNot => true
  | _ => false

def ofOperand (o : Operand) : Form :=
  o.comparison.elim .notNull of

def draft (o : Operand) (ctx : Context) : Form → Except CompileError Value
  | .range bound => Lowering.range o.field bound.key o.value
  | .between => Lowering.between o.field o.value
  | .equality => .ok (Lowering.equality o.field o.value)
  | .membership => Lowering.membership o.field o.value
  | .wildcard affix => Lowering.wildcard o.field affix o.value
  | .presence => .ok (existsClause o.field)
  | .isNull => .ok (isNullDocument o.field ctx)
  | .notNull => .ok (notNullDocument o.field ctx)
  | .autocomplete => Lowering.autocomplete o
  | .phrase => Lowering.phrase o
  | .unsupported comparison => .error (.unsupported comparison)

theorem compare_eq (comparison : Comparison) (o : Operand) (ctx : Context) :
    Lowering.compare comparison o ctx =
      ((of comparison).draft o ctx).map (fun d => ⟨d, excludes comparison⟩) := by
  cases comparison <;> rfl

theorem lowerOperand_eq (o : Operand) (ctx : Context) :
    Lowering.lowerOperand o ctx =
      ((ofOperand o).draft o ctx).map (fun d => ⟨d, o.comparison.any excludes⟩) := by
  unfold Lowering.lowerOperand ofOperand
  cases o.comparison with
  | none => rfl
  | some comparison => exact compare_eq comparison o ctx

theorem eq_isNull_of_form {comparison : Comparison} (h : of comparison = .isNull) :
    comparison = .isNull := by
  cases comparison <;> first | rfl | cases h

theorem eq_notNull_of_form {comparison : Comparison} (h : of comparison = .notNull) :
    comparison = .notNull := by
  cases comparison <;> first | rfl | cases h

end Form

end Criteria.Search
