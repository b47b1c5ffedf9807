import Criteria.Proofs.Search.Blankness
import Criteria.Proofs.Search.Declared
import Criteria.Proofs.Search.Hollowness
import Criteria.Proofs.Search.Staging

namespace Criteria.Search

open Json (Value Members)
open Query (Operand Token)
open Schema (Score)

def Filled (document : Value) : Prop :=
  ∀ list ∈ clauseLists document, list.1 = "must" ∨ list.1 = "should" → list.2 ≠ []

namespace Filled

theorem compound {keyword : String} {clauses : List Value} (ne : clauses ≠ [])
    (h : ∀ clause ∈ clauses, Filled clause) : Filled (compound keyword clauses) := by
  intro list hl
  rw [clauseLists_compound, List.mem_cons, List.mem_flatMap] at hl
  rcases hl with rfl | ⟨clause, hc, hl⟩
  · exact fun _ => ne
  · exact h clause hc list hl

end Filled

theorem Lowered.filled {document : Value} (h : Lowered document) : Filled document := by
  induction h with
  | primitive hc he body =>
      intro list hl
      rw [clauseLists_of_primitive (primitive_record hc he body)] at hl
      cases hl
  | compound keyword ne h ih => exact .compound ne ih
  | @requiring must mustNot ne hm hn ihm ihn =>
      intro list hl
      simp only [clauseLists_requiring, List.mem_cons, List.mem_append, List.mem_flatMap] at hl
      rcases hl with rfl | ⟨clause, hc, hl⟩ | rfl | ⟨clause, hc, hl⟩
      · exact fun _ => ne
      · exact ihm clause hc list hl
      · exact fun hk => absurd hk (by simp)
      · exact ihn clause hc list hl

def Liftable (document : Value) : Prop :=
  ∃ key body, document = record key body ∧ key ∈ "compound" :: "embeddedDocument" :: kinds

namespace Liftable

theorem reserved {key : String} (h : key ∈ "compound" :: "embeddedDocument" :: kinds) :
    key ∉ ["index", "count", "sort", "facet"] :=
  (by decide : ∀ k ∈ "compound" :: "embeddedDocument" :: kinds,
    k ∉ ["index", "count", "sort", "facet"]) key h

theorem key {document : Value} (h : Liftable document) :
    ∃ key value, document = .object [(key, value)] ∧ key ∉ ["index", "count", "sort", "facet"] := by
  obtain ⟨key, body, rfl, hk⟩ := h
  exact ⟨key, .object body, rfl, reserved hk⟩

theorem of_about {field : String} {document : Value} (h : About field document) :
    Liftable document := by
  cases h with
  | @record kind hk body path =>
      exact ⟨kind, body, rfl, List.mem_cons_of_mem _ (List.mem_cons_of_mem _ hk)⟩

theorem compound (body : Members) : Liftable (record "compound" body) :=
  ⟨"compound", body, rfl, List.mem_cons_self⟩

theorem embedded (path : String) (operator : Value) : Liftable (embeddedDocument path operator) :=
  ⟨"embeddedDocument", _, rfl, List.mem_cons_of_mem _ List.mem_cons_self⟩

theorem of_lowerOperand {o : Operand} {ctx : Context} {clause : Clause}
    (h : Lowering.lowerOperand o ctx = .ok clause) : Liftable clause.document := by
  simp only [Lowering.lowerOperand] at h
  split at h
  · cases h
    exact compound _
  · cases worded_of_compare h with
    | about h => exact of_about h
    | isNull => exact compound _
    | notNull => exact compound _

theorem final {clause : Clause} (h : Liftable clause.document) : Liftable clause.final := by
  unfold Clause.final
  split
  · exact compound _
  · exact h

theorem of_drafted {σ : Type} [Score σ] {c : Compiler σ} (hc : c.lowering = .standard)
    {o : Operand} {clause : Value} (h : c.Drafted o clause) : Liftable clause := by
  cases h with
  | plain _ _ hl =>
      rw [Compiler.lowered, hc] at hl
      exact final (of_lowerOperand hl)
  | including => exact compound _
  | present =>
      rw [hc]
      exact compound _

theorem of_built {given : Value → Prop} (hg : ∀ d, given d → Liftable d) {document : Value}
    (h : Built given document) : Liftable document := by
  cases h with
  | given h => exact hg document h
  | compound => exact compound _
  | embedded => exact embedded _ _

end Liftable

theorem without_lift {keys : List String} {key index : String} {value : Value}
    (hk : key ∉ keys) (hi : "index" ∈ keys) :
    Value.object (((lift (.object [(key, value)])).put "index" (.string index)).without keys) =
      .object [(key, value)] := by
  rw [Members.without_put hi]
  simp [lift, Members.without, hk]

-- Additions that write under the given keys only leave the rest of the body alone.
theorem without_foldlM {σ α : Type} {add : σ → α → Except CompileError σ}
    (content : σ → Option Members) (keeps : σ → Prop) (keys : List String)
    (writes : ∀ s a next, keeps s → add s a = .ok next → keeps next ∧
      ∃ body key value, content s = some body ∧ key ∈ keys ∧
        content next = some (body.put key value))
    {s last : σ} {body : Members} (hs : keeps s) (hb : content s = some body) {additions : List α}
    (run : additions.foldlM add s = .ok last) :
    ∃ final, content last = some final ∧ final.without keys = body.without keys := by
  have kept := Except.foldlM_keeps (fun s => keeps s ∧
    ∃ final, content s = some final ∧ final.without keys = body.without keys) ?_
    ⟨hs, body, hb, rfl⟩ run
  · exact kept.2
  · rintro s a next ⟨hs, final, hf, hw⟩ ha
    obtain ⟨hn, earlier, key, value, he, hk, written⟩ := writes s a next hs ha
    cases hf.symm.trans he
    exact ⟨hn, final.put key value, written, (Members.without_put hk value final).trans hw⟩

theorem SearchStage.lossless {document : Value} (h : Liftable document) {index : String}
    {additions : List Addition} {stage : SearchStage}
    (run : additions.foldlM add ((SearchStage.mk index none).withCriteria document) = .ok stage) :
    ∃ body, stage.build = .ok (.object [("$search", .object body)]) ∧
      .object (Members.without ["index", "count", "sort"] body) = document := by
  obtain ⟨key, value, rfl, hk⟩ := h.key
  obtain ⟨body, hb, hw⟩ := without_foldlM SearchStage.body (fun _ => True)
    ["index", "count", "sort"] (fun s a next _ ha => by
      obtain ⟨body, key, value, hb, hk, rfl⟩ := of_add ha
      exact ⟨trivial, body, key, value, hb, List.mem_cons_of_mem _ hk, rfl⟩) trivial rfl run
  refine ⟨body, by rw [build, bodyFor, hb]; rfl, ?_⟩
  rw [hw]
  exact without_lift (fun h => hk (List.mem_append_left ["facet"] h)) List.mem_cons_self

theorem SearchMetaStage.lossless {document : Value} (h : Liftable document) {index : String}
    {additions : List Addition} {stage : SearchMetaStage}
    (run : additions.foldlM add ((SearchMetaStage.mk index none false).withCriteria document) =
      .ok stage) :
    ∃ body, stage.build = .ok (.object [("$searchMeta", .object body)]) ∧
      .object (Members.without ["index", "count"] body) = document := by
  obtain ⟨key, value, rfl, hk⟩ := h.key
  obtain ⟨body, hb, hw⟩ := without_foldlM SearchMetaStage.body
    (fun s => s.faceted = false) ["index", "count"] (fun s a next hs ha => by
      obtain ⟨body, key, value, hb, rfl | ⟨_, hf⟩, rfl⟩ := of_add ha
      · exact ⟨hs, body, "count", value, hb, by simp, rfl⟩
      · exact absurd (hs.symm.trans hf) Bool.false_ne_true) rfl rfl run
  refine ⟨body, by rw [build, bodyFor, hb]; rfl, ?_⟩
  rw [hw]
  exact without_lift (fun h => hk (List.mem_append_left ["sort", "facet"] h)) List.mem_cons_self

namespace Compiler

variable {σ : Type} [Score σ]

theorem liftable_of_compileTree {c : Compiler σ} (hc : c.lowering = .standard)
    {t : Query.Tree Operand} {document : Value} (h : c.compileTree t = .ok document) :
    Liftable document := by
  have lowers := lowers_of_compileTree h
  have leaf : ∀ o ∈ t.leaves, Built Liftable (c.leafOf o).clause := fun o ho =>
    .given (.of_drafted hc (drafted_of_compileLeaf (compileLeaf_eq (lowers o ho))))
  have built : Built Liftable document := by
    apply built_of_mem_assemble (Query.Tree.forall_leaves_map (fun o ho _ => leaf o ho))
    rw [assemble_standard hc lowers h]
    exact List.mem_singleton_self _
  exact .of_built (fun _ hd => hd) built

theorem filled_of_compileTree {c : Compiler σ} (hc : c.lowering = .standard)
    {t : Query.Tree Operand} (hb : t.Branching) {document : Value}
    (h : c.compileTree t = .ok document) : Filled document := by
  have lowers := lowers_of_compileTree h
  have lowered := lowered_leafOf hc lowers
  have apart := hollow_of_compileTree hb (fun o ho => (lowered o ho).not_blank) h
  intro list hl keyword empty
  obtain ⟨o, ho, hm⟩ := List.mem_flatMap.mp (apart.mem_iff.mp (mem_hollow_iff.mpr ⟨hl, empty⟩))
  rw [← hollow_leafOf (lowers o ho)] at hm
  exact (lowered o ho).filled list (mem_hollow_iff.mp hm).1 keyword empty

theorem compile_lossless {c : Compiler σ} (hc : c.lowering = .standard)
    {tokens : List (Token Operand)} {document : Value} (h : c.compile tokens = .ok document) :
    (∃ key value, document = .object [(key, value)] ∧
        key ∉ ["index", "count", "sort", "facet"]) ∧
      (∀ list ∈ clauseLists document, list.1 = "must" ∨ list.1 = "should" → list.2 ≠ []) ∧
      (∀ index (additions : List SearchStage.Addition) stage,
        additions.foldlM SearchStage.add ((SearchStage.mk index none).withCriteria document) =
            .ok stage →
          ∃ body, stage.build = .ok (.object [("$search", .object body)]) ∧
            .object (Members.without ["index", "count", "sort"] body) = document) ∧
      ∀ index (additions : List SearchMetaStage.Addition) stage,
        additions.foldlM SearchMetaStage.add
            ((SearchMetaStage.mk index none false).withCriteria document) = .ok stage →
          ∃ body, stage.build = .ok (.object [("$searchMeta", .object body)]) ∧
            .object (Members.without ["index", "count"] body) = document := by
  obtain ⟨t, ht⟩ := exists_tree h
  rw [compile_of_ofTokens ht] at h
  have liftable : Liftable document := liftable_of_compileTree hc h
  exact ⟨liftable.key, filled_of_compileTree hc (Query.Tree.branching_ofTokens ht) h,
    fun index additions stage run => SearchStage.lossless liftable run,
    fun index additions stage run => SearchMetaStage.lossless liftable run⟩

def lampClauses : Value :=
  compound "must" [textClause "name" (.string "lamp"), equalsClause "price" (.integer 10)]

theorem compile_lossless_lampAtTen :
    sample.compile lampAtTen = .ok lampClauses ∧
      ∃ stage body, [SearchStage.Addition.count, .sort .descending ["price"]].foldlM
          SearchStage.add ((SearchStage.mk "products" none).withCriteria lampClauses) = .ok stage ∧
        stage.build = .ok (.object [("$search", .object body)]) ∧
        .object (Members.without ["index", "count", "sort"] body) = lampClauses := by
  have compiled : sample.compile lampAtTen = .ok lampClauses := rfl
  obtain ⟨body, built, whole⟩ := (compile_lossless rfl compiled).2.2.1 "products"
    [.count, .sort .descending ["price"]] _ rfl
  exact ⟨compiled, _, body, rfl, built, whole⟩

end Compiler

end Criteria.Search
