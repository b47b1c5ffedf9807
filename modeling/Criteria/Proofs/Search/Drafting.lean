import Criteria.Proofs.Except
import Criteria.Search.Compile

namespace Criteria.Search.Compiler

open Json (Value)
open Query (Operand)
open Schema (Score)

variable {σ : Type} [Score σ]

def context (c : Compiler σ) (o : Operand) : Context :=
  .ofResolution (c.resolution (c.prepare o))

def Asks {σ : Type} (c : Compiler σ) (o : Operand) : Prop :=
  (c.prepare o).includeBlanks = true ∨ (c.prepare o).comparison.isSome = true

def lowered (c : Compiler σ) (o : Operand) : Except CompileError Clause :=
  c.lowering.lower (c.prepare o) (c.context o)

def Refuses (c : Compiler σ) (o : Operand) (e : CompileError) : Prop :=
  c.Asks o ∧ c.lowered o = .error e

inductive Drafted (c : Compiler σ) (o : Operand) : Value → Prop
  | plain {clause : Clause} (excluded : (c.prepare o).includeBlanks = false) (asked : c.Asks o)
      (h : c.lowered o = .ok clause) : Drafted c o clause.final
  | including {clause : Clause} (included : (c.prepare o).includeBlanks = true)
      (h : c.lowered o = .ok clause) :
      Drafted c o (compound "should"
        [clause.final, c.lowering.isNull (c.prepare o).field (c.context o)])
  | present (unasked : ¬ c.Asks o) :
      Drafted c o (c.lowering.notNull (c.prepare o).field (c.context o))

theorem drafted_of_compileLeaf {c : Compiler σ} {o : Operand} {leaf : Leaf}
    (h : c.compileLeaf o = .ok leaf) : c.Drafted o leaf.clause := by
  obtain ⟨document, hl, hd⟩ := Except.bind_eq_ok_iff.mp h
  cases hd
  simp only [lowerLeaf] at hl
  split at hl
  · rename_i included
    obtain ⟨clause, hc, hd⟩ := Except.bind_eq_ok_iff.mp hl
    cases hd
    exact .including included hc
  · rename_i plain
    split at hl
    · rename_i none
      cases hl
      exact .present (by simp [Asks, plain, none])
    · rename_i some
      obtain ⟨clause, hc, rfl⟩ := Except.map_eq_ok_iff.mp hl
      exact .plain (by simpa using plain) (.inr (by rw [some]; rfl)) hc

theorem lowerLeaf_eq_error_iff {σ : Type} {c : Compiler σ} {o : Operand} {ctx : Context}
    {e : CompileError} :
    c.lowerLeaf o ctx = .error e ↔
      (o.includeBlanks = true ∨ o.comparison.isSome = true) ∧
        c.lowering.lower o ctx = .error e := by
  unfold lowerLeaf
  split
  · rename_i included
    rw [and_iff_right (.inl included)]
    exact Except.map_eq_error_iff
  · rename_i plain
    cases o.comparison with
    | none => simp [plain]
    | some comparison =>
        rw [and_iff_right (.inr rfl)]
        exact Except.map_eq_error_iff

theorem compileLeaf_eq_error_iff {c : Compiler σ} {o : Operand} {e : CompileError} :
    c.compileLeaf o = .error e ↔ c.Refuses o e :=
  Except.map_eq_error_iff.trans lowerLeaf_eq_error_iff

end Criteria.Search.Compiler
