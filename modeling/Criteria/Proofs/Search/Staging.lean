import Criteria.Proofs.Except
import Criteria.Proofs.Json.Members
import Criteria.Search.Stage
import Mathlib.Data.List.Induction

namespace Criteria.Search

open Json (Value Members)

inductive Step (γ α : Type) where
  | criteria (c : γ)
  | addition (a : α)

-- A run whose last criteria step brought c.
def Step.since {γ α : Type} (before : List (Step γ α)) (c : γ) (additions : List α) :
    List (Step γ α) :=
  before ++ .criteria c :: additions.map .addition

-- A step that fails leaves the builder as it was.
def settle {σ τ : Type} (take : σ → τ → Except CompileError σ) (s : σ) (step : τ) : σ :=
  match take s step with
  | .ok next => next
  | .error _ => s

theorem foldl_settle {σ τ : Type} {take : σ → τ → Except CompileError σ} (keeps : σ → Prop)
    (h : ∀ s step next, keeps s → take s step = .ok next → keeps next) {s : σ} (hs : keeps s)
    (steps : List τ) : keeps (steps.foldl (settle take) s) := by
  induction steps generalizing s with
  | nil => exact hs
  | cons step steps ih =>
      apply ih
      unfold settle
      split
      · rename_i next hn
        exact h s step next hs hn
      · exact hs

theorem Step.split {γ α : Type} (steps : List (Step γ α)) :
    (∃ additions : List α, steps = additions.map .addition) ∨
      ∃ before c additions, steps = since before c additions := by
  induction steps using List.reverseRecOn with
  | nil => exact .inl ⟨[], rfl⟩
  | append_singleton steps step ih =>
      cases step with
      | criteria c => exact .inr ⟨steps, c, [], rfl⟩
      | addition a =>
          rcases ih with ⟨additions, rfl⟩ | ⟨before, c, additions, rfl⟩
          · exact .inl ⟨additions ++ [a], by simp⟩
          · exact .inr ⟨before, c, additions ++ [a], by simp [since]⟩

theorem foldl_additions {σ γ α : Type} {take : σ → Step γ α → Except CompileError σ}
    (state : List α → σ)
    (h : ∀ earlier a, settle take (state earlier) (.addition a) = state (earlier ++ [a]))
    (additions : List α) :
    (additions.map .addition).foldl (settle take) (state []) = state additions := by
  induction additions using List.reverseRecOn with
  | nil => rfl
  | append_singleton earlier a ih =>
      rw [List.map_append, List.foldl_append, ih]
      exact h earlier a

theorem foldl_since {σ γ α : Type} {take : σ → Step γ α → Except CompileError σ}
    (state : List α → σ) {s : σ} {before : List (Step γ α)} {c : γ}
    (attached : settle take (before.foldl (settle take) s) (.criteria c) = state [])
    (h : ∀ earlier a, settle take (state earlier) (.addition a) = state (earlier ++ [a]))
    (additions : List α) :
    (Step.since before c additions).foldl (settle take) s = state additions := by
  rw [Step.since, List.foldl_append, List.foldl_cons, attached]
  exact foldl_additions state h additions

def total (counted : Bool) : Option Value :=
  if counted then some (.object [("type", .string "total")]) else none

def laid (index : String) (document : Value) (counted : Bool)
    (sort? : Option (SortOrder × List String)) : Members :=
  (((lift document).put "index" (.string index)).overlay "count" (total counted)).overlay "sort"
    (sort?.map (fun s => SearchStage.sortKeys s.1 s.2))

-- The sort object of a list of fields, each field once however often it is listed.
structure SortsBy (order : SortOrder) (fields : List String) (keys : Members) : Prop where
  nodup : (keys.map Prod.fst).Nodup
  mem_iff : ∀ m, m ∈ keys ↔ m.1 ∈ fields ∧
    m.2 = .object [("order", .integer (if order = .ascending then 1 else -1))]

-- The body of a stage as the document, the index and the later steps determine it under every key.
structure Lifts (index : String) (document : Value) (counted : Bool)
    (sort? : Option (SortOrder × List String)) (body : Members) : Prop where
  index : body.get? "index" = some (.string index)
  count : counted = true → body.get? "count" = some (.object [("type", .string "total")])
  sort : ∀ order fields, sort? = some (order, fields) →
    ∃ keys, body.get? "sort" = some (.object keys) ∧ SortsBy order fields keys
  kept : ∀ key, key ≠ "index" → (key = "count" → counted = false) → (key = "sort" → sort? = none) →
    body.get? key = document.member? key
  ordered : (∀ members : Members, document = .object members → members.Ordered) → body.Ordered

theorem get?_lift (document : Value) (key : String) :
    (lift document).get? key = document.member? key := by
  cases document <;> rfl

theorem ordered_lift {document : Value}
    (h : ∀ members : Members, document = .object members → members.Ordered) :
    (lift document).Ordered := by
  cases document with
  | object members => exact h members rfl
  | _ => exact List.Pairwise.nil

theorem sortsBy_gather (order : SortOrder) (fields : List String) :
    SortsBy order fields
      (Members.gather (fields.map (fun f => (f, SearchStage.sortKey order)))) where
  nodup := (Members.ordered_putAll _ List.Pairwise.nil).nodup
  mem_iff _ := by
    rw [Members.mem_gather_map]
    cases order <;> exact Iff.rfl

theorem lifts_laid (index : String) (document : Value) (counted : Bool)
    (sort? : Option (SortOrder × List String)) :
    Lifts index document counted sort? (laid index document counted sort?) where
  index := by
    rw [laid, Members.get?_overlay_of_ne (by decide), Members.get?_overlay_of_ne (by decide),
      Members.get?_put_self]
  count h := by
    rw [laid, Members.get?_overlay_of_ne (by decide), Members.get?_overlay_self, h]
    rfl
  sort order fields h := by
    refine ⟨_, ?_, sortsBy_gather order fields⟩
    rw [laid, Members.get?_overlay_self, h]
    rfl
  kept key hi hc hs := by
    have unsorted (same : key = "sort") :
        sort?.map (fun s => SearchStage.sortKeys s.1 s.2) = none := by
      rw [hs same]
      rfl
    have uncounted (same : key = "count") : total counted = none := by
      rw [hc same]
      rfl
    rw [laid, Members.get?_overlay_of_imp unsorted, Members.get?_overlay_of_imp uncounted,
      Members.get?_put_of_ne hi, get?_lift]
  ordered h :=
    Members.ordered_overlay _ _ (Members.ordered_overlay _ _ (Members.ordered_put _ _
      (ordered_lift h)))

namespace SearchStage

inductive Addition where
  | count
  | sort (order : SortOrder) (fields : List String)
  deriving DecidableEq

namespace Addition

def accepted : Addition → Bool
  | .count => true
  | .sort _ fields => !fields.isEmpty

def sort? : Addition → Option (SortOrder × List String)
  | .count => none
  | .sort order fields => some (order, fields)

end Addition

def add (s : SearchStage) : Addition → Except CompileError SearchStage
  | .count => s.addTotalCount
  | .sort order fields => s.addSort order fields

def take (s : SearchStage) : Step Value Addition → Except CompileError SearchStage
  | .criteria document => .ok (s.withCriteria document)
  | .addition a => s.add a

def after (index : String) (steps : List (Step Value Addition)) : SearchStage :=
  steps.foldl (settle take) { index := index }

def lastSort? (additions : List Addition) : Option (SortOrder × List String) :=
  ((additions.filter Addition.accepted).filterMap Addition.sort?).getLast?

def overlaid (index : String) (document : Value) (additions : List Addition) : Members :=
  laid index document (.count ∈ additions) (lastSort? additions)

theorem lastSort?_concat (additions : List Addition) (a : Addition) :
    lastSort? (additions ++ [a]) =
      (if a.accepted then a.sort? else none).or (lastSort? additions) := by
  have last : ((List.filter Addition.accepted [a]).filterMap Addition.sort?).getLast? =
      if a.accepted then a.sort? else none := by
    cases ha : a.accepted <;> cases hk : a.sort? <;> simp [ha, hk]
  rw [lastSort?, List.filter_append, List.filterMap_append, List.getLast?_append, last]
  rfl

theorem overlaid_count (index : String) (document : Value) (additions : List Addition) :
    overlaid index document (additions ++ [.count]) =
      (overlaid index document additions).put "count" totalCount := by
  have counted : total (.count ∈ additions ++ [.count]) = some totalCount := by
    simp [total, totalCount]
  rw [overlaid, overlaid, laid, laid, lastSort?_concat, counted,
    Members.put_overlay_comm (by decide), Members.put_overlay_self]
  rfl

theorem overlaid_sort (index : String) (document : Value) (additions : List Addition)
    (order : SortOrder) {fields : List String} (h : fields.isEmpty = false) :
    overlaid index document (additions ++ [.sort order fields]) =
      (overlaid index document additions).put "sort" (sortKeys order fields) := by
  have sorts : lastSort? (additions ++ [.sort order fields]) = some (order, fields) := by
    simp [lastSort?_concat, Addition.accepted, Addition.sort?, h]
  have counted : .count ∈ additions ++ [.sort order fields] ↔ .count ∈ additions := by
    simp
  rw [overlaid, overlaid, laid, laid, sorts, decide_eq_decide.mpr counted,
    Members.put_overlay_self]
  rfl

theorem overlaid_refused (index : String) (document : Value) (additions : List Addition)
    {a : Addition} (h : a.accepted = false) :
    overlaid index document (additions ++ [a]) = overlaid index document additions := by
  have sorts : lastSort? (additions ++ [a]) = lastSort? additions := by
    simp [lastSort?_concat, h]
  have counted : .count ∈ additions ++ [a] ↔ .count ∈ additions := by
    cases a with
    | count => cases h
    | sort order fields => simp
  rw [overlaid, overlaid, sorts, decide_eq_decide.mpr counted]

theorem add_overlaid (index : String) (document : Value) (additions : List Addition)
    (a : Addition) :
    add ⟨index, some (overlaid index document additions)⟩ a =
      if a.accepted then .ok ⟨index, some (overlaid index document (additions ++ [a]))⟩
      else .error (.invalidArgument "sort needs at least one field") := by
  cases a with
  | count =>
      rw [overlaid_count]
      rfl
  | sort order fields =>
      cases fields with
      | nil => rfl
      | cons field fields =>
          rw [overlaid_sort index document additions order rfl]
          rfl

theorem settle_overlaid (index : String) (document : Value) (additions : List Addition)
    (a : Addition) :
    settle take ⟨index, some (overlaid index document additions)⟩ (.addition a) =
      ⟨index, some (overlaid index document (additions ++ [a]))⟩ := by
  rw [settle, take, add_overlaid]
  cases ha : a.accepted with
  | false =>
      rw [overlaid_refused index document additions ha]
      rfl
  | true => rfl

theorem of_bodyFor {s : SearchStage} {step : String} {body : Members}
    (h : s.bodyFor step = .ok body) : s.body = some body := by
  unfold bodyFor at h
  split at h
  · rename_i hb
    exact hb.trans (congrArg some (Except.ok.inj h))
  · cases h

theorem of_add {s next : SearchStage} {a : Addition} (h : s.add a = .ok next) :
    ∃ body key value, s.body = some body ∧ key ∈ ["count", "sort"] ∧
      next = { s with body := some (body.put key value) } := by
  cases a with
  | count =>
      obtain ⟨body, hb, hn⟩ := Except.bind_eq_ok_iff.mp h
      cases hn
      exact ⟨body, "count", totalCount, of_bodyFor hb, by simp, rfl⟩
  | sort order fields =>
      obtain ⟨body, hb, hn⟩ := Except.bind_eq_ok_iff.mp h
      split at hn <;> cases hn
      exact ⟨body, "sort", sortKeys order fields, of_bodyFor hb, by simp, rfl⟩

theorem index_after (index : String) (steps : List (Step Value Addition)) :
    (after index steps).index = index := by
  refine foldl_settle (fun s : SearchStage => s.index = index) ?_ rfl steps
  intro s step next hs h
  cases step with
  | criteria document =>
      cases h
      exact hs
  | addition a =>
      obtain ⟨body, key, value, _, _, rfl⟩ := of_add h
      exact hs

theorem after_additions (index : String) (additions : List Addition) :
    after index (additions.map .addition) = { index := index } := by
  refine foldl_additions (fun _ => SearchStage.mk index none) ?_ additions
  intro _ a
  cases a <;> rfl

theorem after_criteria (index : String) (before : List (Step Value Addition)) (document : Value)
    (additions : List Addition) :
    after index (Step.since before document additions) =
      ⟨index, some (overlaid index document additions)⟩ := by
  refine foldl_since _ ?_ (settle_overlaid index document) additions
  rw [← after, settle, take, withCriteria, index_after]
  rfl

end SearchStage

namespace SearchMetaStage

inductive Attachment where
  | plain (document : Value)
  | faceted (document : Value)

inductive Addition where
  | count
  | facets (fields : List String)
  deriving DecidableEq

namespace Addition

def accepted : Addition → Bool
  | .count => true
  | .facets fields => !(fields.isEmpty || fields.any Text.Blank.blank)

def fields : Addition → List String
  | .count => []
  | .facets fields => fields

end Addition

def attach (s : SearchMetaStage) : Attachment → SearchMetaStage
  | .plain document => s.withCriteria document
  | .faceted document => s.withFacetCriteria document

def add (s : SearchMetaStage) : Addition → Except CompileError SearchMetaStage
  | .count => s.addTotalCount
  | .facets fields => s.addFacets fields

def take (s : SearchMetaStage) : Step Attachment Addition → Except CompileError SearchMetaStage
  | .criteria c => .ok (s.attach c)
  | .addition a => s.add a

def after (index : String) (steps : List (Step Attachment Addition)) : SearchMetaStage :=
  steps.foldl (settle take) { index := index }

def named (additions : List Addition) : List String :=
  (additions.filter Addition.accepted).flatMap Addition.fields

def facetsFor (fields : List String) : Members :=
  Members.gather (fields.map (fun f => (f, facet f)))

def collector (document : Value) (fields : List String) : Members :=
  Members.optional "facets" (if fields.isEmpty then none else some (.object (facetsFor fields))) ++
    [("operator", document)]

def framed (index : String) (counted : Bool) (collector : Members) : Members :=
  Members.optional "count" (total counted) ++
    [("facet", .object collector), ("index", .string index)]

def plainBody (index : String) (document : Value) (additions : List Addition) : Members :=
  laid index document (.count ∈ additions) none

def facetBody (index : String) (document : Value) (additions : List Addition) : Members :=
  framed index (.count ∈ additions) (collector document (named additions))

theorem mem_facetsFor {fields : List String} {m : String × Value} :
    m ∈ facetsFor fields ↔ m.1 ∈ fields ∧ m.2 = facet m.1 :=
  Members.mem_gather_map

theorem named_concat (additions : List Addition) (a : Addition) :
    named (additions ++ [a]) = named additions ++ if a.accepted then a.fields else [] := by
  cases ha : a.accepted <;> simp [named, ha]

theorem facetsOf_collector (document : Value) (fields : List String) :
    facetsOf (collector document fields) = .ok (facetsFor fields) := by
  cases fields <;> rfl

theorem put_collector (document : Value) (fields : List String) {more : List String}
    (h : more.isEmpty = false) :
    (collector document fields).put "facets" (.object (facetsFor (fields ++ more))) =
      collector document (fields ++ more) := by
  have filled : (fields ++ more).isEmpty = false := by
    cases fields with
    | nil => exact h
    | cons field fields => rfl
  rw [collector, collector, filled]
  cases fields with
  | nil => exact Members.put_of_lt (by decide) _ _ _
  | cons field fields => exact Members.put_self "facets" _ _ _

theorem collectorOf_framed (index : String) (counted : Bool) (c : Members) :
    collectorOf (framed index counted c) = .ok c := by
  cases counted <;> rfl

theorem put_facet_framed (index : String) (counted : Bool) (c new : Members) :
    (framed index counted c).put "facet" (.object new) = framed index counted new := by
  cases counted with
  | false => exact Members.put_self "facet" _ _ _
  | true =>
      rw [framed, total, if_pos rfl, Members.optional, List.singleton_append,
        Members.put_of_gt (by decide), Members.put_self]
      rfl

theorem put_count_framed (index : String) (counted : Bool) (c : Members) :
    (framed index counted c).put "count" totalCount = framed index true c := by
  cases counted with
  | false => exact Members.put_of_lt (by decide) _ _ _
  | true => exact Members.put_self "count" _ _ _

theorem addFacets_framed (index : String) (counted : Bool) (document : Value)
    (earlier : List String) {fields : List String}
    (h : (Addition.facets fields).accepted = true) :
    addFacets ⟨index, some (framed index counted (collector document earlier)), true⟩ fields =
      .ok ⟨index, some (framed index counted (collector document (earlier ++ fields))), true⟩ := by
  have valid : (fields.isEmpty || fields.any Text.Blank.blank) = false := by
    simpa only [Addition.accepted, Bool.not_eq_true'] using h
  have filled : fields.isEmpty = false := (Bool.or_eq_false_iff.mp valid).1
  have grown : (facetsFor earlier).putAll (fields.map (fun f => (f, facet f))) =
      facetsFor (earlier ++ fields) := by
    rw [facetsFor, facetsFor, List.map_append, Members.gather_append]
  simp only [addFacets, valid, bodyFor, bind, Except.bind, collectorOf_framed,
    facetsOf_collector, grown, put_collector document earlier filled, put_facet_framed]
  rfl

theorem named_eq_nil_iff {additions : List Addition} :
    named additions = [] ↔
      ∀ fields, .facets fields ∈ additions → (Addition.facets fields).accepted = false := by
  rw [named, List.flatMap_eq_nil_iff]
  constructor
  · intro none fields hm
    cases ha : (Addition.facets fields).accepted with
    | false => rfl
    | true =>
        cases none _ (List.mem_filter.mpr ⟨hm, ha⟩)
        cases ha
  · intro refused a ha
    obtain ⟨hm, ha⟩ := List.mem_filter.mp ha
    cases a with
    | count => rfl
    | facets fields =>
        rw [refused fields hm] at ha
        cases ha

theorem facetBody_count (index : String) (document : Value) (additions : List Addition) :
    facetBody index document (additions ++ [.count]) =
      (facetBody index document additions).put "count" totalCount := by
  have names : named (additions ++ [.count]) = named additions := by
    simp [named_concat, Addition.accepted, Addition.fields]
  rw [facetBody, facetBody, put_count_framed, names]
  simp

theorem facetBody_facets (index : String) (document : Value) (additions : List Addition)
    {fields : List String} (h : (Addition.facets fields).accepted = true) :
    facetBody index document (additions ++ [.facets fields]) =
      framed index (.count ∈ additions) (collector document (named additions ++ fields)) := by
  rw [facetBody, named_concat, h]
  simp [Addition.fields]

theorem facetBody_refused (index : String) (document : Value) (additions : List Addition)
    {a : Addition} (h : a.accepted = false) :
    facetBody index document (additions ++ [a]) = facetBody index document additions := by
  cases a with
  | count => cases h
  | facets fields =>
      rw [facetBody, facetBody, named_concat, h]
      simp

theorem addFacets_refused {s : SearchMetaStage} (h : s.faceted = true) {fields : List String}
    (hr : (Addition.facets fields).accepted = false) :
    s.addFacets fields =
      .error (.invalidArgument "facets need at least one non-blank field name") := by
  have invalid : (fields.isEmpty || fields.any Text.Blank.blank) = true := by
    simpa only [Addition.accepted, Bool.not_eq_false'] using hr
  simp only [addFacets, h, invalid]
  rfl

theorem addFacets_unfaceted {s : SearchMetaStage} (h : s.faceted = false) (fields : List String) :
    s.addFacets fields = .error
      (.configuration "facets need facet criteria; call with_facet_criteria first") := by
  simp only [addFacets, h]
  rfl

theorem add_faceted (index : String) (document : Value) (additions : List Addition)
    (a : Addition) :
    add ⟨index, some (facetBody index document additions), true⟩ a =
      if a.accepted then .ok ⟨index, some (facetBody index document (additions ++ [a])), true⟩
      else .error (.invalidArgument "facets need at least one non-blank field name") := by
  cases a with
  | count =>
      rw [facetBody_count]
      rfl
  | facets fields =>
      rw [add]
      cases ha : (Addition.facets fields).accepted with
      | false => exact addFacets_refused rfl ha
      | true =>
          rw [facetBody_facets index document additions ha]
          exact addFacets_framed index _ document _ ha

theorem settle_faceted (index : String) (document : Value) (additions : List Addition)
    (a : Addition) :
    settle take ⟨index, some (facetBody index document additions), true⟩ (.addition a) =
      ⟨index, some (facetBody index document (additions ++ [a])), true⟩ := by
  rw [settle, take, add_faceted]
  cases ha : a.accepted with
  | false =>
      rw [facetBody_refused index document additions ha]
      rfl
  | true => rfl

theorem settle_plain (index : String) (document : Value) (additions : List Addition)
    (a : Addition) :
    settle take ⟨index, some (plainBody index document additions), false⟩ (.addition a) =
      ⟨index, some (plainBody index document (additions ++ [a])), false⟩ := by
  cases a with
  | count =>
      have counted : total (.count ∈ additions ++ [.count]) = some totalCount := by
        simp [total, totalCount]
      have again := Members.put_overlay_self "count" totalCount (total (.count ∈ additions))
        ((lift document).put "index" (.string index))
      rw [plainBody, plainBody, laid, laid, counted]
      exact congrArg (fun body => SearchMetaStage.mk index (some body) false) again
  | facets fields =>
      have counted : .count ∈ additions ++ [.facets fields] ↔ .count ∈ additions := by
        simp
      rw [plainBody, plainBody, decide_eq_decide.mpr counted]
      rfl

theorem of_bodyFor {s : SearchMetaStage} {step : String} {body : Members}
    (h : s.bodyFor step = .ok body) : s.body = some body := by
  unfold bodyFor at h
  split at h
  · rename_i hb
    exact hb.trans (congrArg some (Except.ok.inj h))
  · cases h

theorem of_add {s next : SearchMetaStage} {a : Addition} (h : s.add a = .ok next) :
    ∃ body key value, s.body = some body ∧ (key = "count" ∨ key = "facet" ∧ s.faceted = true) ∧
      next = { s with body := some (body.put key value) } := by
  cases a with
  | count =>
      obtain ⟨body, hb, hn⟩ := Except.bind_eq_ok_iff.mp h
      cases hn
      exact ⟨body, "count", totalCount, of_bodyFor hb, .inl rfl, rfl⟩
  | facets fields =>
      simp only [add, addFacets] at h
      split at h
      · cases h
      · rename_i faceted
        split at h
        · cases h
        · obtain ⟨body, hb, h⟩ := Except.bind_eq_ok_iff.mp h
          obtain ⟨collector, _, h⟩ := Except.bind_eq_ok_iff.mp h
          obtain ⟨facets, _, h⟩ := Except.bind_eq_ok_iff.mp h
          cases h
          exact ⟨body, "facet", _, of_bodyFor hb, .inr ⟨rfl, by simpa using faceted⟩, rfl⟩

theorem index_after (index : String) (steps : List (Step Attachment Addition)) :
    (after index steps).index = index := by
  refine foldl_settle (fun s : SearchMetaStage => s.index = index) ?_ rfl steps
  intro s step next hs h
  cases step with
  | criteria c => cases c <;> cases h <;> exact hs
  | addition a =>
      obtain ⟨body, key, value, _, _, rfl⟩ := of_add h
      exact hs

theorem after_additions (index : String) (additions : List Addition) :
    after index (additions.map .addition) = { index := index } := by
  refine foldl_additions (fun _ => SearchMetaStage.mk index none false) ?_ additions
  intro _ a
  cases a <;> rfl

theorem after_plain (index : String) (before : List (Step Attachment Addition))
    (document : Value) (additions : List Addition) :
    after index (Step.since before (.plain document) additions) =
      ⟨index, some (plainBody index document additions), false⟩ := by
  refine foldl_since _ ?_ (settle_plain index document) additions
  rw [← after, settle, take, attach, withCriteria, index_after]
  rfl

theorem after_faceted (index : String) (before : List (Step Attachment Addition))
    (document : Value) (additions : List Addition) :
    after index (Step.since before (.faceted document) additions) =
      ⟨index, some (facetBody index document additions), true⟩ := by
  refine foldl_since _ ?_ (settle_faceted index document) additions
  rw [← after, settle, take, attach, withFacetCriteria, index_after]
  rfl

-- The errors about the shape of the collector are not among them.
theorem of_add_eq_error {index : String} {steps : List (Step Attachment Addition)}
    {a : Addition} {e : CompileError} (h : (after index steps).add a = .error e) :
    e = missingCriteria "count" ∨
      e = .configuration "facets need facet criteria; call with_facet_criteria first" ∨
      e = .invalidArgument "facets need at least one non-blank field name" := by
  rcases Step.split steps with ⟨additions, rfl⟩ | ⟨before, c, additions, rfl⟩
  · rw [after_additions] at h
    cases a with
    | count =>
        cases h
        exact .inl rfl
    | facets fields =>
        rw [add, addFacets_unfaceted rfl] at h
        cases h
        exact .inr (.inl rfl)
  · cases c with
    | plain document =>
        rw [after_plain] at h
        cases a with
        | count => cases h
        | facets fields =>
            rw [add, addFacets_unfaceted rfl] at h
            cases h
            exact .inr (.inl rfl)
    | faceted document =>
        rw [after_faceted, add_faceted] at h
        split at h <;> cases h
        exact .inr (.inr rfl)

end SearchMetaStage

theorem Step.mem_since {γ α : Type} (before : List (Step γ α)) (c : γ) (additions : List α) :
    .criteria c ∈ since before c additions :=
  List.mem_append_right before List.mem_cons_self

structure SearchStage.FollowsSteps (index : String) : Prop where
  builds : ∀ steps, (after index steps).build.isOk = true ↔ ∃ document, .criteria document ∈ steps
  body : ∀ before document additions, ∃ body,
    (after index (Step.since before document additions)).build =
      .ok (.object [("$search", .object body)]) ∧
      Lifts index document (.count ∈ additions) (lastSort? additions) body
  accepts : ∀ before document additions a,
    ((after index (Step.since before document additions)).add a).isOk =
      a.accepted

structure SearchMetaStage.FollowsSteps (index : String) : Prop where
  builds : ∀ steps, (after index steps).build.isOk = true ↔ ∃ c, .criteria c ∈ steps
  facetBody : ∀ before document additions,
    (after index (Step.since before (.faceted document) additions)).build =
      .ok (.object [("$searchMeta", .object (facetBody index document additions))])
  accepts : ∀ before document additions a,
    ((after index (Step.since before (.faceted document) additions)).add a).isOk =
      a.accepted
  absent : ∀ additions, named additions = [] ↔
    ∀ fields, .facets fields ∈ additions → (Addition.facets fields).accepted = false
  entries : ∀ fields, ((facetsFor fields).map Prod.fst).Nodup ∧
    ∀ m, m ∈ facetsFor fields ↔ m.1 ∈ fields ∧
      m.2 = .object [("numBuckets", .integer 1000), ("path", .string m.1),
        ("type", .string "string")]
  plainBody : ∀ before document additions, ∃ body,
    (after index (Step.since before (.plain document) additions)).build =
      .ok (.object [("$searchMeta", .object body)]) ∧
      Lifts index document (.count ∈ additions) none body
  refuses : ∀ before document additions fields,
    (∃ detail, (after index (Step.since before (.plain document) additions)).addFacets fields =
      .error (.configuration detail)) ∧
    settle take (after index (Step.since before (.plain document) additions))
      (.addition (.facets fields)) = after index (Step.since before (.plain document) additions)
  shaped : ∀ steps step detail,
    (after index steps).take step = .error (.configuration detail) →
      detail ≠ "facet collector is not an object" ∧ detail ≠ "facet list is not an object"

theorem SearchStage.followsSteps (index : String) : FollowsSteps index where
  builds steps := by
    rcases Step.split steps with ⟨additions, rfl⟩ | ⟨before, document, additions, rfl⟩
    · rw [after_additions]
      simp [build, bodyFor, Except.isOk, Except.toBool, bind, Except.bind]
    · rw [after_criteria]
      exact iff_of_true rfl ⟨document, Step.mem_since before document additions⟩
  body before document additions := by
    rw [after_criteria]
    exact ⟨overlaid index document additions, rfl, lifts_laid index document _ _⟩
  accepts before document additions a := by
    rw [after_criteria, add_overlaid]
    cases a.accepted <;> rfl

theorem SearchMetaStage.followsSteps (index : String) : FollowsSteps index where
  builds steps := by
    rcases Step.split steps with ⟨additions, rfl⟩ | ⟨before, c, additions, rfl⟩
    · rw [after_additions]
      simp [build, bodyFor, Except.isOk, Except.toBool, bind, Except.bind]
    · have built : (after index (Step.since before c additions)).build.isOk = true := by
        cases c with
        | plain document =>
            rw [after_plain]
            rfl
        | faceted document =>
            rw [after_faceted]
            rfl
      exact iff_of_true built ⟨c, Step.mem_since before c additions⟩
  facetBody before document additions := by
    rw [after_faceted]
    rfl
  accepts before document additions a := by
    rw [after_faceted, add_faceted]
    cases a.accepted <;> rfl
  absent additions := named_eq_nil_iff
  entries fields :=
    ⟨(Members.ordered_putAll _ List.Pairwise.nil).nodup, fun _ => mem_facetsFor⟩
  plainBody before document additions := by
    rw [after_plain]
    exact ⟨plainBody index document additions, rfl, lifts_laid index document _ none⟩
  refuses before document additions fields := by
    rw [after_plain]
    exact ⟨⟨_, addFacets_unfaceted rfl fields⟩, rfl⟩
  shaped steps step detail h := by
    cases step with
    | criteria c => cases h
    | addition a => rcases of_add_eq_error h with h | h | h <;> cases h <;> decide

theorem stages_followSteps (index : String) :
    SearchStage.FollowsSteps index ∧ SearchMetaStage.FollowsSteps index :=
  ⟨SearchStage.followsSteps index, SearchMetaStage.followsSteps index⟩

end Criteria.Search
