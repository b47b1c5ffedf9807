import Criteria.Proofs.Search.Wellformed

namespace Criteria.Search

open Json (Value Members)
open Query (Comparison Operand)

def Atomic : Value → Prop
  | .null => True
  | .bool _ => True
  | .number _ => True
  | _ => False

def Uniform (items : List Value) : Prop :=
  (∀ item ∈ items, item.isString = true) ∨ ∀ item ∈ items, Discrete item

namespace Lowering

variable {field : String}

theorem range_of_ne_null {value : Value} (h : value ≠ .null) (bound : String) :
    range field bound value = .ok (rangeClause [(bound, value)] field) := by
  cases value with
  | null => exact absurd rfl h
  | _ => rfl

theorem between_eq_error {value : Value} (h : ∀ low high, value ≠ .array [low, high]) :
    between field value = .error (.invalidValue field "between needs exactly two bounds") := by
  unfold between
  split
  · exact absurd rfl (h _ _)
  · rfl

theorem equality_of_atomic {value : Value} (h : Atomic value) :
    equality field value = equalsClause field value := by
  cases value with
  | null => rfl
  | bool b => rfl
  | number n => rfl
  | _ => exact h.elim

theorem equality_of_not_atomic {value : Value} (h : ¬ Atomic value) :
    equality field value = textClause field value := by
  cases value with
  | null => exact absurd trivial h
  | bool b => exact absurd trivial h
  | number n => exact absurd trivial h
  | _ => rfl

theorem membership_of_string {value first : Value} {rest : List Value}
    (h : listed value = first :: rest) (hf : first.isString = true) :
    membership field value = .ok (textClause field (.array (first :: rest))) := by
  simp only [membership, h]
  cases first with
  | string text => rfl
  | _ => cases hf

theorem membership_of_discrete {value first : Value} {rest : List Value}
    (h : listed value = first :: rest) (hf : Discrete first) :
    membership field value = .ok (inClause field (first :: rest)) := by
  simp only [membership, h]
  cases first with
  | number n => rfl
  | bool b => rfl
  | object members => rfl
  | _ => exact hf.elim

theorem membership_eq_error {value : Value}
    (h : ∀ first rest, listed value = first :: rest → ¬ Uniform [first]) :
    ∃ detail, membership field value = .error (.invalidValue field detail) := by
  unfold membership
  cases hl : listed value with
  | nil => exact ⟨_, rfl⟩
  | cons first rest =>
      have other := h first rest hl
      cases first with
      | null => exact ⟨_, rfl⟩
      | array items => exact ⟨_, rfl⟩
      | string text => exact absurd (.inl (by simp [Value.isString])) other
      | _ => exact absurd (.inr (by simp [Discrete])) other

theorem patterns_of_strings (field : String) (affix : Affix) {items : List Value}
    (h : ∀ item ∈ items, item.isString = true) :
    ∃ ps, patterns field affix items = .ok ps ∧ ps.length = items.length ∧
      ∀ p ∈ ps, p.isString = true := by
  induction items with
  | nil => exact ⟨[], rfl, rfl, nofun⟩
  | cons item items ih =>
      obtain ⟨first, later⟩ := List.forall_mem_cons.mp h
      obtain ⟨ps, hp, hl, hs⟩ := ih later
      cases item with
      | string text =>
          refine ⟨.string (affix.pattern text) :: ps, ?_, congrArg (· + 1) hl,
            List.forall_mem_cons.mpr ⟨rfl, hs⟩⟩
          rw [patterns, hp]
          rfl
      | _ => cases first

theorem patterns_eq_error {affix : Affix} {items : List Value}
    (h : ¬ ∀ item ∈ items, item.isString = true) :
    patterns field affix items =
      .error (.invalidValue field "wildcard patterns must be strings") := by
  induction items with
  | nil => exact absurd nofun h
  | cons item items ih =>
      cases item with
      | string text =>
          have later : ¬ ∀ item ∈ items, item.isString = true := fun hs =>
            h (List.forall_mem_cons.mpr ⟨rfl, hs⟩)
          rw [patterns, ih later]
          rfl
      | _ => rfl

theorem wildcard_of_textual (field : String) (affix : Affix) {value : Value} (h : Textual value) :
    ∃ query, wildcard field affix value = .ok (wildcardClause field query) ∧ Textual query := by
  cases value with
  | string text => exact ⟨.string (affix.pattern text), rfl, trivial⟩
  | array items =>
      obtain ⟨ne, strings⟩ := h
      obtain ⟨ps, hp, hl, hs⟩ := patterns_of_strings field affix strings
      cases items with
      | nil => exact absurd rfl ne
      | cons item items =>
          refine ⟨.array ps, ?_, ?_, hs⟩
          · rw [wildcard, hp]
            rfl
          · rw [← List.length_pos_iff, hl]
            exact Nat.succ_pos _
  | _ => exact h.elim

theorem wildcard_eq_error {value : Value} (h : ¬ Textual value) (affix : Affix) :
    ∃ detail, wildcard field affix value = .error (.invalidValue field detail) := by
  cases value with
  | string text => exact absurd trivial h
  | array items =>
      cases items with
      | nil => exact ⟨_, rfl⟩
      | cons item items =>
          have other : ¬ ∀ i ∈ item :: items, i.isString = true := fun hs =>
            h ⟨List.cons_ne_nil _ _, hs⟩
          refine ⟨"wildcard patterns must be strings", ?_⟩
          rw [wildcard, patterns_eq_error other]
          rfl
  | _ => exact ⟨_, rfl⟩

theorem exists_queryText (field : String) {value : Value} (h : value ≠ .null) :
    ∃ text, queryText field value = .ok text := by
  cases value with
  | null => exact absurd rfl h
  | _ => exact ⟨_, rfl⟩

theorem autocomplete_of_ne_null {o : Operand} (h : o.value ≠ .null) :
    ∃ document, autocomplete o = .ok document ∧ Sound document := by
  obtain ⟨text, ht⟩ := exists_queryText o.field h
  refine ⟨_, Except.bind_eq_ok_iff.mpr ⟨text, ht, rfl⟩, .primitive (by decide) (by decide) ?_⟩
  refine .of_query (by decide) ?_ (show Textual (.string text) from trivial)
  simp [Members.get?_append, Members.get?, Members.get?_optional_of_ne]

theorem phraseQuery_iff {value : Value} : phraseQuery value = true ↔ Textual value := by
  cases value with
  | array items => cases items <;> simp [phraseQuery, Textual]
  | _ => simp [phraseQuery, Textual]

end Lowering

namespace Form

def Fits : Form → Value → Prop
  | .range _, value => value ≠ .null
  | .between, value => ∃ low high, value = .array [low, high] ∧ low ≠ .null ∧ high ≠ .null
  | .equality, value => Atomic value ∨ Textual value
  | .membership, value => Lowering.listed value ≠ [] ∧ Uniform (Lowering.listed value)
  | .wildcard _, value => Textual value
  | .presence, _ => True
  | .isNull, _ => True
  | .notNull, _ => True
  | .autocomplete, value => value ≠ .null
  | .phrase, value => Textual value
  | .unsupported _, _ => False

-- A list that passes although its bounds, or its values behind the first, do not fit.
def Overlooked : Form → Value → Prop
  | .between, value => ∃ low high, value = .array [low, high] ∧ (low = .null ∨ high = .null)
  | .membership, value => ∃ first rest, Lowering.listed value = first :: rest ∧
      Uniform [first] ∧ ¬ Uniform (first :: rest)
  | _, _ => False

theorem draft_of_fits {form : Form} {o : Operand} (h : form.Fits o.value) (ctx : Context) :
    ∃ document, form.draft o ctx = .ok document ∧ Sound document := by
  cases form with
  | range bound =>
      refine ⟨_, Lowering.range_of_ne_null h bound.key, .range ?_ o.field⟩
      exact List.forall_mem_singleton.mpr h
  | between =>
      obtain ⟨low, high, hv, hl, hh⟩ := h
      refine ⟨rangeClause [("gte", low), ("lte", high)] o.field, ?_, .range ?_ o.field⟩
      · rw [draft, hv]
        rfl
      · simp [hl, hh]
  | equality =>
      refine ⟨_, rfl, ?_⟩
      by_cases atomic : Atomic o.value
      · rw [Lowering.equality_of_atomic atomic]
        exact .equals o.field o.value
      · rw [Lowering.equality_of_not_atomic atomic]
        exact .text o.field (h.resolve_left atomic)
  | membership =>
      obtain ⟨ne, uniform⟩ := h
      obtain ⟨first, rest, hl⟩ := List.exists_cons_of_ne_nil ne
      rw [hl] at uniform
      rcases uniform with strings | discrete
      · exact ⟨_, Lowering.membership_of_string hl (strings first List.mem_cons_self),
          .text o.field ⟨List.cons_ne_nil first rest, strings⟩⟩
      · exact ⟨_, Lowering.membership_of_discrete hl (discrete first List.mem_cons_self),
          .membership o.field discrete⟩
  | wildcard affix =>
      obtain ⟨query, hw, ht⟩ := Lowering.wildcard_of_textual o.field affix h
      exact ⟨_, hw, .wildcard o.field ht⟩
  | presence => exact ⟨_, rfl, .existence o.field⟩
  | isNull => exact ⟨_, rfl, .isNull o.field ctx⟩
  | notNull => exact ⟨_, rfl, .notNull o.field ctx⟩
  | autocomplete => exact Lowering.autocomplete_of_ne_null h
  | phrase =>
      refine ⟨_, ?_, .phrase o.field h (o.modifiers.slop.getD 0).toNat⟩
      rw [draft, Lowering.phrase, if_pos (Lowering.phraseQuery_iff.mpr h)]
  | unsupported comparison => exact h.elim

theorem draft_of_unfit {form : Form} {o : Operand} (unfit : ¬ form.Fits o.value)
    (seen : ¬ form.Overlooked o.value) (he : form ≠ .equality)
    (hs : ∀ comparison, form ≠ .unsupported comparison) (ctx : Context) :
    ∃ detail, form.draft o ctx = .error (.invalidValue o.field detail) := by
  cases form with
  | range bound =>
      refine ⟨"range comparison '" ++ bound.key ++ "' needs a value", ?_⟩
      rw [draft, not_ne_iff.mp unfit]
      rfl
  | between =>
      refine ⟨_, Lowering.between_eq_error (fun low high hv => ?_)⟩
      by_cases hl : low = .null
      · exact seen ⟨low, high, hv, .inl hl⟩
      · by_cases hh : high = .null
        · exact seen ⟨low, high, hv, .inr hh⟩
        · exact unfit ⟨low, high, hv, hl, hh⟩
  | equality => exact absurd rfl he
  | membership =>
      refine Lowering.membership_eq_error (fun first rest hl uniform => ?_)
      refine seen ⟨first, rest, hl, uniform, fun whole => unfit ⟨?_, ?_⟩⟩
      · rw [hl]
        exact List.cons_ne_nil first rest
      · rwa [hl]
  | wildcard affix => exact Lowering.wildcard_eq_error unfit affix
  | presence => exact absurd trivial unfit
  | isNull => exact absurd trivial unfit
  | notNull => exact absurd trivial unfit
  | autocomplete =>
      refine ⟨"autocomplete needs a query", ?_⟩
      rw [draft, Lowering.autocomplete, not_ne_iff.mp unfit]
      rfl
  | phrase =>
      refine ⟨"phrase needs a string or a list of strings", ?_⟩
      rw [draft, Lowering.phrase, if_neg (fun hq => unfit (Lowering.phraseQuery_iff.mp hq))]
  | unsupported comparison => exact absurd rfl (hs comparison)

end Form

namespace Lowering

theorem lowerOperand_of_fits {o : Operand} (h : (Form.ofOperand o).Fits o.value) (ctx : Context) :
    ∃ clause, lowerOperand o ctx = .ok clause ∧ Sound clause.final := by
  obtain ⟨document, hd, sound⟩ := Form.draft_of_fits h ctx
  refine ⟨⟨document, o.comparison.any Form.excludes⟩, ?_, Sound.final sound⟩
  rw [Form.lowerOperand_eq, hd]
  rfl

theorem lowerOperand_of_unfit {o : Operand} (unfit : ¬ (Form.ofOperand o).Fits o.value)
    (seen : ¬ (Form.ofOperand o).Overlooked o.value) (he : Form.ofOperand o ≠ .equality)
    (hs : ∀ comparison, Form.ofOperand o ≠ .unsupported comparison) (ctx : Context) :
    ∃ detail, lowerOperand o ctx = .error (.invalidValue o.field detail) := by
  obtain ⟨detail, hd⟩ := Form.draft_of_unfit unfit seen he hs ctx
  exact ⟨detail, by rw [Form.lowerOperand_eq, hd]; rfl⟩

theorem lowerOperand_of_unsupported {o : Operand} {comparison : Comparison}
    (h : Form.ofOperand o = .unsupported comparison) (ctx : Context) :
    lowerOperand o ctx = .error (.unsupported comparison) := by
  rw [Form.lowerOperand_eq, h]
  rfl

theorem lowerOperand_of_plain_text {o : Operand} (he : Form.ofOperand o = .equality)
    (h : ¬ Atomic o.value) (ctx : Context) :
    ∃ clause, lowerOperand o ctx = .ok clause ∧ clause.document = textClause o.field o.value := by
  refine ⟨⟨textClause o.field o.value, o.comparison.any Form.excludes⟩, ?_, rfl⟩
  rw [Form.lowerOperand_eq, he, Form.draft, equality_of_not_atomic h]
  rfl

theorem lowerOperand_wellFormed (o : Operand) (ctx : Context) :
    (∀ clause, lowerOperand o ctx = .ok clause → ¬ (Form.ofOperand o).Overlooked o.value →
        (Form.ofOperand o = .equality → Atomic o.value ∨ Textual o.value) →
          Sound clause.final) ∧
      ((Form.ofOperand o).Fits o.value → ∃ clause, lowerOperand o ctx = .ok clause) ∧
      (Form.ofOperand o = .equality → ¬ Atomic o.value →
        ∃ clause, lowerOperand o ctx = .ok clause ∧
          clause.document = textClause o.field o.value) ∧
      (¬ (Form.ofOperand o).Fits o.value → ¬ (Form.ofOperand o).Overlooked o.value →
        Form.ofOperand o ≠ .equality →
          (∀ comparison, Form.ofOperand o ≠ .unsupported comparison) →
            ∃ detail, lowerOperand o ctx = .error (.invalidValue o.field detail)) ∧
      ∀ comparison, Form.ofOperand o = .unsupported comparison →
        lowerOperand o ctx = .error (.unsupported comparison) := by
  refine ⟨?_, ?_, fun he h => lowerOperand_of_plain_text he h ctx,
    fun unfit seen he hs => lowerOperand_of_unfit unfit seen he hs ctx,
    fun _ h => lowerOperand_of_unsupported h ctx⟩
  · -- What does not fit is refused, unless it is overlooked; so what is lowered fits.
    intro clause hc seen textual
    by_cases fits : (Form.ofOperand o).Fits o.value
    · obtain ⟨lowered, hl, sound⟩ := lowerOperand_of_fits fits ctx
      cases hl.symm.trans hc
      exact sound
    · have he : Form.ofOperand o ≠ .equality := by
        intro he
        rw [he] at fits
        exact fits (textual he)
      have hs (comparison : Comparison) : Form.ofOperand o ≠ .unsupported comparison := by
        intro hs
        cases (lowerOperand_of_unsupported hs ctx).symm.trans hc
      obtain ⟨detail, refused⟩ := lowerOperand_of_unfit fits seen he hs ctx
      cases refused.symm.trans hc
  · intro fits
    obtain ⟨clause, hc, _⟩ := lowerOperand_of_fits fits ctx
    exact ⟨clause, hc⟩

def brief : Context where
  node := .scalar "name" "String"

theorem lowerOperand_wellFormed_patterns :
    (∃ clause, lowerOperand (.compare "name" .containsNot (.array [.string "lap", .string "top"]))
        brief = .ok clause ∧ Sound clause.final) ∧
      ∃ detail, lowerOperand (.compare "name" .containsNot (.array [.string "lap", .integer 5]))
        brief = .error (.invalidValue "name" detail) := by
  constructor
  · obtain ⟨sound, lowers, _⟩ := lowerOperand_wellFormed
      (.compare "name" .containsNot (.array [.string "lap", .string "top"])) brief
    obtain ⟨clause, hc⟩ := lowers ⟨List.cons_ne_nil _ _, by simp [Value.isString]⟩
    exact ⟨clause, hc, sound clause hc id nofun⟩
  · obtain ⟨_, _, _, refuses, _⟩ := lowerOperand_wellFormed
      (.compare "name" .containsNot (.array [.string "lap", .integer 5])) brief
    refine refuses ?_ id nofun nofun
    rintro ⟨_, strings⟩
    exact absurd (strings (.integer 5) (by simp)) (by decide)

theorem unread_values_lowered :
    (lowerOperand (.compare "name" .equal (.object [("first", .string "ann")])) brief =
        .ok (.positive (textClause "name" (.object [("first", .string "ann")]))) ∧
      ¬ Sound (textClause "name" (.object [("first", .string "ann")]))) ∧
      (lowerOperand (.compare "name" .between (.array [.null, .integer 5])) brief =
        .ok (.positive (rangeClause [("gte", .null), ("lte", .integer 5)] "name")) ∧
        ¬ Sound (rangeClause [("gte", .null), ("lte", .integer 5)] "name")) ∧
      lowerOperand (.compare "name" .isIn (.array [.integer 1, .string "a"])) brief =
        .ok (.positive (inClause "name" [.integer 1, .string "a"])) ∧
        ¬ Sound (inClause "name" [.integer 1, .string "a"]) := by
  refine ⟨⟨rfl, fun sound => ?_⟩, ⟨rfl, fun sound => ?_⟩, rfl, fun sound => ?_⟩
  · obtain ⟨query, hq, ht⟩ := (sound "text" _ List.mem_cons_self).query (by decide)
    cases hq
    exact ht
  · exact (sound "range" _ List.mem_cons_self).bounds rfl ("gte", .null) (by simp) (by decide) rfl
  · obtain ⟨items, hi, hd⟩ := (sound "in" _ List.mem_cons_self).values rfl
    cases hi
    exact hd (.string "a") (by simp)

end Lowering

end Criteria.Search
