import Criteria.Proofs.Search.Grouping
import Criteria.Proofs.Search.Refusal

namespace Criteria.Search

open Json (Value)
open Query (Operand Token)
open Schema (Score)

-- The layers around the given documents: what a given document holds inside is its own matter.
inductive Built (given : Value → Prop) : Value → Prop
  | given {document : Value} (h : given document) : Built given document
  | compound {keyword : String} {clauses : List Value}
      (kept : ∀ clause ∈ clauses, clause.blank = false)
      (parts : ∀ clause ∈ clauses, Built given clause) : Built given (compound keyword clauses)
  | embedded {path : String} {operator : Value} (kept : operator.blank = false)
      (part : Built given operator) : Built given (embeddedDocument path operator)

theorem Built.of_forall {given : Value → Prop} {keyword : String} {clauses : List Value}
    (h : ∀ clause ∈ clauses, clause.blank = false ∧ Built given clause) :
    Built given (Search.compound keyword clauses) :=
  .compound (fun clause hc => (h clause hc).1) (fun clause hc => (h clause hc).2)

theorem Built.of_compound {given : Value → Prop} {keyword : String} {clauses : List Value}
    (h : Built given (Search.compound keyword clauses)) :
    given (Search.compound keyword clauses) ∨
      ∀ clause ∈ clauses, clause.blank = false ∧ Built given clause := by
  generalize hd : Search.compound keyword clauses = document at h
  cases h with
  | given h => exact .inl h
  | compound kept parts =>
      cases hd
      exact .inr (fun clause hc => ⟨kept clause hc, parts clause hc⟩)
  | @embedded path operator kept part =>
      have unwrapped : none = some path := congrArg wrapperPath? hd
      cases unwrapped

theorem Built.mono {given wider : Value → Prop} (hw : ∀ document, given document → wider document)
    {document : Value} (h : Built given document) : Built wider document := by
  induction h with
  | given h => exact .given (hw _ h)
  | compound kept parts ih => exact .compound kept ih
  | embedded kept part ih => exact .embedded kept ih

def HoldsBlank (document : Value) : Prop :=
  ∃ list ∈ clauseLists document, ∃ clause ∈ list.2, clause.blank = true

namespace HoldsBlank

theorem not_blank {document : Value} (h : HoldsBlank document) : document.blank = false := by
  obtain ⟨list, hl, _⟩ := h
  unfold Value.blank
  split
  · cases hl
  · cases hl
  · rfl

theorem of_blank {keyword : String} {clauses : List Value} {clause : Value}
    (hc : clause ∈ clauses) (h : clause.blank = true) : HoldsBlank (compound keyword clauses) := by
  refine ⟨(keyword, clauses), ?_, clause, hc, h⟩
  rw [clauseLists_compound]
  exact List.mem_cons_self

theorem of_mem {keyword : String} {clauses : List Value} {clause : Value}
    (hc : clause ∈ clauses) (h : HoldsBlank clause) : HoldsBlank (compound keyword clauses) := by
  obtain ⟨list, hl, hb⟩ := h
  refine ⟨list, ?_, hb⟩
  rw [clauseLists_compound]
  exact List.mem_cons_of_mem _ (List.mem_flatMap_of_mem hc hl)

theorem embedded_iff {path : String} {operator : Value} :
    HoldsBlank (embeddedDocument path operator) ↔ HoldsBlank operator := by
  rw [HoldsBlank, clauseLists_embeddedDocument]
  rfl

theorem of_negated {clause : Clause} (negated : clause.negated = true)
    (blank : clause.document.blank = true) : HoldsBlank clause.final := by
  rw [Clause.final, if_pos negated]
  exact .of_blank (List.mem_singleton_self _) blank

end HoldsBlank

theorem not_blank_of_mem_assemble {t : Query.Tree Leaf} {document : Value}
    (h : document ∈ assemble t) : document.blank = false := by
  rw [assemble_eq_kept, mem_kept_iff] at h
  exact h.1 ▸ h.2

theorem built_of_mem_assemble {given : Value → Prop} {t : Query.Tree Leaf}
    (h : ∀ l ∈ t.leaves, l.clause.blank = false → Built given l.clause) {document : Value}
    (hd : document ∈ assemble t) : Built given document := by
  induction t generalizing document with
  | leaf l =>
      rw [assemble_leaf] at hd
      split at hd
      · cases hd
      · rename_i hb
        have kept := Bool.eq_false_iff.mpr hb
        have clause : Built given l.clause := h l (by simp) kept
        rw [List.mem_singleton.mp hd, Leaf.document]
        split
        · exact .embedded kept clause
        · exact clause
  | group operator children ih =>
      have below : ∀ t ∈ children, ∀ l ∈ t.leaves, l.clause.blank = false → Built given l.clause :=
        fun t ht l hl => h l (Query.Tree.mem_leaves_of_mem ht hl)
      obtain ⟨clauses, whole, parts, _⟩ := exists_clauses operator children
      rw [whole, List.mem_singleton] at hd
      rw [hd]
      refine .of_forall (fun clause hc => ?_)
      rcases parts clause hc with ⟨t, ht, hm⟩ | ⟨path, inner, rfl, _, hi⟩
      · exact ⟨not_blank_of_mem_assemble hm, ih t ht (below t ht) hm⟩
      · refine ⟨rfl, .embedded rfl (.of_forall (fun d hd => ?_))⟩
        obtain ⟨t, ht, l, hl, rfl, hb⟩ := hi d hd
        exact ⟨hb, below t ht l hl hb⟩

theorem HoldsBlank.part {t : Query.Tree Leaf} {document : Value} (hd : document ∈ assemble t)
    (h : HoldsBlank document) :
    (∃ d ∈ loose t, HoldsBlank d) ∨ ∃ p ∈ nested t, HoldsBlank p.2 := by
  match t with
  | .leaf ⟨clause, embeddedIn⟩ =>
      rw [assemble_leaf] at hd
      split at hd
      · cases hd
      · rename_i hb
        have single : clause ∈ kept clause := mem_kept_iff.mpr ⟨rfl, Bool.eq_false_iff.mpr hb⟩
        rw [List.mem_singleton.mp hd] at h
        cases embeddedIn with
        | none => exact .inl ⟨clause, single, h⟩
        | some path =>
            exact .inr ⟨(path, clause), List.mem_map_of_mem single, HoldsBlank.embedded_iff.mp h⟩
  | .group operator children => exact .inl ⟨document, hd, h⟩

theorem HoldsBlank.wrapped {pairs : List (String × Value)} {p : String × Value} (hp : p ∈ pairs)
    (h : HoldsBlank p.2) : ∃ document ∈ wrappers pairs, HoldsBlank document := by
  have under : p.2 ∈ clausesUnder p.1 pairs := clausesUnder_of_mem hp
  exact ⟨_, mem_wrappers_of_clausesUnder (List.ne_nil_of_mem under),
    HoldsBlank.embedded_iff.mpr (.of_mem under h)⟩

theorem holdsBlank_of_leaf {t : Query.Tree Leaf} {l : Leaf} (hl : l ∈ t.leaves)
    (h : HoldsBlank l.clause) : ∃ document ∈ assemble t, HoldsBlank document := by
  induction t with
  | leaf a =>
      rw [Query.Tree.leaves_leaf, List.mem_singleton] at hl
      subst hl
      refine ⟨l.document, ?_, ?_⟩
      · rw [assemble_leaf, h.not_blank]
        exact List.mem_singleton_self _
      · rw [Leaf.document]
        split
        · exact HoldsBlank.embedded_iff.mpr h
        · exact h
  | group operator children ih =>
      obtain ⟨connective, separate⟩ := operator
      rw [Query.Tree.leaves_group] at hl
      obtain ⟨t, ht, hl⟩ := List.mem_flatMap.mp hl
      obtain ⟨document, hd, hb⟩ := ih t ht hl
      cases connective with
      | and =>
          rw [assemble_and, documents_addAll]
          refine ⟨_, List.mem_singleton_self _, ?_⟩
          rcases hb.part hd with ⟨d, hm, hb⟩ | ⟨p, hp, hb⟩
          · exact .of_mem (List.mem_append_left _ (List.mem_flatMap_of_mem ht hm)) hb
          · obtain ⟨d, hm, hb⟩ := hb.wrapped (List.mem_flatMap_of_mem ht hp)
            exact .of_mem (List.mem_append_right _ hm) hb
      | or =>
          rw [assemble_or]
          exact ⟨_, List.mem_singleton_self _, .of_mem (List.mem_flatMap_of_mem ht hd) hb⟩

namespace Compiler

variable {σ : Type} [Score σ]

inductive Gives (c : Compiler σ) (o : Operand) : Value → Prop
  | lowered {clause : Clause} (asked : c.Asks o) (h : c.lowered o = .ok clause) :
      Gives c o clause.document
  | isNull (included : (c.prepare o).includeBlanks = true) :
      Gives c o (c.lowering.isNull (c.prepare o).field (c.context o))
  | notNull (unasked : ¬ c.Asks o) :
      Gives c o (c.lowering.notNull (c.prepare o).field (c.context o))

inductive WrapsBlank (c : Compiler σ) (o : Operand) : Prop
  | negated {clause : Clause} (asked : c.Asks o) (h : c.lowered o = .ok clause)
      (negated : clause.negated = true) (blank : clause.document.blank = true)
  | listed {clause : Clause} (included : (c.prepare o).includeBlanks = true)
      (h : c.lowered o = .ok clause) (blank : clause.final.blank = true)
  | unset (included : (c.prepare o).includeBlanks = true)
      (blank : (c.lowering.isNull (c.prepare o).field (c.context o)).blank = true)

theorem built_final {c : Compiler σ} {o : Operand} (hw : ¬ c.WrapsBlank o) {clause : Clause}
    (asked : c.Asks o) (h : c.lowered o = .ok clause) : Built (c.Gives o) clause.final := by
  have document : Built (c.Gives o) clause.document := .given (.lowered asked h)
  rw [Clause.final]
  split
  · rename_i negated
    have kept : clause.document.blank = false :=
      Bool.eq_false_iff.mpr (fun blank => hw (.negated asked h negated blank))
    exact .compound (by simpa using kept) (by simpa using document)
  · exact document

theorem Drafted.built {c : Compiler σ} {o : Operand} (hw : ¬ c.WrapsBlank o) {clause : Value}
    (h : c.Drafted o clause) : Built (c.Gives o) clause := by
  cases h with
  | plain _ asked h => exact built_final hw asked h
  | including included h =>
      refine .compound ?_ ?_
      · simp only [List.forall_mem_cons, Bool.eq_false_iff]
        exact ⟨fun blank => hw (.listed included h blank),
          fun blank => hw (.unset included blank), List.forall_mem_nil _⟩
      · simp only [List.forall_mem_cons]
        exact ⟨built_final hw (.inl included) h, .given (.isNull included), List.forall_mem_nil _⟩
  | present unasked => exact .given (.notNull unasked)

theorem Drafted.holdsBlank {c : Compiler σ} {o : Operand} (hw : c.WrapsBlank o) {clause : Value}
    (h : c.Drafted o clause) : HoldsBlank clause := by
  cases h with
  | plain excluded asked h =>
      cases hw with
      | negated _ h' negated blank =>
          cases Except.ok.inj (h.symm.trans h')
          exact .of_negated negated blank
      | listed included => simp [included] at excluded
      | unset included => simp [included] at excluded
  | including included h =>
      cases hw with
      | negated _ h' negated blank =>
          cases Except.ok.inj (h.symm.trans h')
          exact .of_mem List.mem_cons_self (.of_negated negated blank)
      | listed _ h' blank =>
          cases Except.ok.inj (h.symm.trans h')
          exact .of_blank List.mem_cons_self blank
      | unset _ blank => exact .of_blank (by simp) blank
  | present unasked =>
      cases hw with
      | negated asked => exact absurd asked unasked
      | listed included => exact absurd (.inl included) unasked
      | unset included => exact absurd (.inl included) unasked

theorem kept_of_compileTree {c : Compiler σ} {t : Query.Tree Operand} {document : Value}
    (h : c.compileTree t = .ok document) : assemble (t.map c.leafOf) = kept document := by
  rw [assemble_leafOf (lowers_of_compileTree h), Compiler.document, h]

theorem null_of_blank {c : Compiler σ} {t : Query.Tree Operand} {document : Value}
    (h : c.compileTree t = .ok document) (hb : document.blank = true) : document = .null := by
  have whole := kept_of_compileTree h
  rw [compileTree_eq (lowers_of_compileTree h), whole, kept_of_blank hb] at h
  exact (Except.ok.inj h).symm

theorem built_of_compileTree {c : Compiler σ} {t : Query.Tree Operand} {document : Value}
    (h : c.compileTree t = .ok document) {given : Value → Prop}
    (hg : ∀ o ∈ t.leaves, Built given (c.leafOf o).clause) :
    document = .null ∨ Built given document := by
  cases hb : document.blank with
  | true => exact .inl (null_of_blank h hb)
  | false =>
      right
      have leaf : ∀ l ∈ (t.map c.leafOf).leaves, l.clause.blank = false → Built given l.clause :=
        Query.Tree.forall_leaves_map (fun o ho _ => hg o ho)
      apply built_of_mem_assemble leaf
      rw [kept_of_compileTree h]
      exact mem_kept_iff.mpr ⟨rfl, hb⟩

theorem holdsBlank_of_compileTree {c : Compiler σ} {t : Query.Tree Operand} {document : Value}
    (h : c.compileTree t = .ok document) {o : Operand} (ho : o ∈ t.leaves)
    (hb : HoldsBlank (c.leafOf o).clause) : HoldsBlank document := by
  have leaf : c.leafOf o ∈ (t.map c.leafOf).leaves := by
    rw [Query.Tree.leaves_map]
    exact List.mem_map_of_mem ho
  obtain ⟨d, hd, hb⟩ := holdsBlank_of_leaf leaf hb
  rw [kept_of_compileTree h, mem_kept_iff] at hd
  exact hd.1 ▸ hb

theorem compile_built {c : Compiler σ} {tokens : List (Token Operand)} {document : Value}
    (h : c.compile tokens = .ok document) :
    (document = .null ∨
        Built (fun d => ∃ o ∈ Token.operands tokens, c.Drafted o d) document) ∧
      ((∀ o ∈ Token.operands tokens, ¬ c.WrapsBlank o) →
        document = .null ∨ Built (fun d => ∃ o ∈ Token.operands tokens, c.Gives o d) document) ∧
      ∀ o ∈ Token.operands tokens, c.WrapsBlank o → HoldsBlank document := by
  obtain ⟨t, ht⟩ := exists_tree h
  rw [compile_of_ofTokens ht] at h
  rw [← Query.Tree.leaves_ofTokens ht]
  have drafted : ∀ o ∈ t.leaves, c.Drafted o (c.leafOf o).clause :=
    fun o ho => drafted_of_compileLeaf (compileLeaf_eq (lowers_of_compileTree h o ho))
  refine ⟨?_, ?_, ?_⟩
  · apply built_of_compileTree h
    intro o ho
    exact .given ⟨o, ho, drafted o ho⟩
  · intro hw
    apply built_of_compileTree h
    intro o ho
    exact ((drafted o ho).built (hw o ho)).mono (fun d hd => ⟨o, ho, hd⟩)
  · intro o ho hw
    exact holdsBlank_of_compileTree h ho ((drafted o ho).holdsBlank hw)

def unnamed : Compiler Rat :=
  { sample with
    lowering := Lowering.standard.overriding
      (fun o => if o.field = "name" then some (.negative .null) else none) }

def atTen : Operand :=
  .compare "price" .equal (.integer 10)

def lampAtTen : List (Token Operand) :=
  [.operand calledLamp, .operator ⟨.and, false⟩, .operand atTen]

theorem compile_lampAtTen :
    unnamed.compile lampAtTen =
      .ok (compound "must" [negate .null, equalsClause "price" (.integer 10)]) := rfl

theorem compile_built_lampAtTen :
    unnamed.WrapsBlank calledLamp ∧
      HoldsBlank (compound "must" [negate .null, equalsClause "price" (.integer 10)]) := by
  have wraps : unnamed.WrapsBlank calledLamp := .negated (.inr rfl) rfl rfl rfl
  exact ⟨wraps, (compile_built compile_lampAtTen).2.2 calledLamp (by simp [lampAtTen]) wraps⟩

theorem Gives.eq_of_lowered {c : Compiler σ} {o : Operand} {clause : Clause} {document : Value}
    (h : c.Gives o document) (excluded : (c.prepare o).includeBlanks = false) (asked : c.Asks o)
    (hc : c.lowered o = .ok clause) : document = clause.document := by
  cases h with
  | lowered _ h => rw [Except.ok.inj (h.symm.trans hc)]
  | isNull included => simp [included] at excluded
  | notNull unasked => exact absurd asked unasked

theorem not_built_lampAtTen :
    ∃ document, unnamed.compile lampAtTen = .ok document ∧
      ¬ (document = .null ∨
        Built (fun d => ∃ o ∈ Token.operands lampAtTen, unnamed.Gives o d) document) := by
  have given (d : Value) (h : ∃ o ∈ Token.operands lampAtTen, unnamed.Gives o d) :
      d = .null ∨ d = equalsClause "price" (.integer 10) := by
    obtain ⟨o, ho, h⟩ := h
    have either : o = calledLamp ∨ o = atTen := by simpa [lampAtTen] using ho
    rcases either with rfl | rfl
    · exact .inl (h.eq_of_lowered rfl (.inr rfl) rfl)
    · exact .inr (h.eq_of_lowered rfl (.inr rfl) rfl)
  have not_compound {keyword : String} {clauses : List Value}
      (h : ∃ o ∈ Token.operands lampAtTen, unnamed.Gives o (compound keyword clauses)) : False := by
    rcases given _ h with h | h
    · cases h
    · simp [compound, equalsClause, record] at h
  refine ⟨_, compile_lampAtTen, ?_⟩
  rintro (h | built)
  · cases h
  · rcases built.of_compound with h | outer
    · exact not_compound h
    · have negated : Built _ (negate .null) := (outer _ List.mem_cons_self).2
      rcases negated.of_compound with h | inner
      · exact not_compound h
      · cases (inner _ List.mem_cons_self).1

end Compiler

end Criteria.Search
