import Criteria.Proofs.Json.Decoding
import Criteria.Proofs.Json.Slots
import Criteria.Query.Codec

namespace Criteria.Query

open Json Json.Decoder
open Members (slots slots_cons slots_nil)

def Modifiers.pruned (m : Modifiers) : Modifiers :=
  { m with fuzzy := m.fuzzy.filter (· ≠ .null), score := m.score.filter (· ≠ .null) }

def Operand.pruned (o : Operand) : Operand :=
  { o with modifiers := o.modifiers.pruned }

def Modifiers.slot (m : Modifiers) : String → Option Value
  | "token_order" => m.tokenOrder.map .string
  | "fuzzy" => m.fuzzy
  | "score" => m.score
  | "min_grams" => m.minGrams.map (fun n => .integer n.toNat)
  | "max_grams" => m.maxGrams.map (fun n => .integer n.toNat)
  | "slop" => m.slop.map (fun n => .integer n.toNat)
  | _ => none

def Operand.slot (o : Operand) : String → Option Value
  | "field" => some (.string o.field)
  | "op" => o.comparison.map (fun c => .string c.expression)
  | "value" => some o.value
  | "include_blanks" => if o.includeBlanks then some (.bool true) else none
  | key => o.modifiers.slot key

def Modifiers.sortedKeys : List String :=
  ["fuzzy", "max_grams", "min_grams", "score", "slop", "token_order"]

def Operand.sortedKeys : List String :=
  ["field", "fuzzy", "include_blanks", "max_grams", "min_grams", "op", "score", "slop",
    "token_order", "value"]

theorem optional_text (t : String) :
    Decoder.optional text (Source.ofValue (.string t)) = .ok (some t) := rfl

def explicit (v : Value) : Option Value :=
  (some v).filter (· ≠ .null)

theorem optional_any (v : Value) :
    Decoder.optional (any .inline) (Source.ofValue v) = .ok (explicit v) := by
  have read : (any .inline (Source.ofValue v)).map some = .ok (some v) := by
    rw [any_ofValue]
    rfl
  cases v with
  | null => rfl
  | _ => exact read

theorem optional_word (n : UInt32) :
    Decoder.optional word (Source.ofValue (.integer n.toNat)) = .ok (some n) := by
  have small : 0 ≤ (n.toNat : Int) ∧ (n.toNat : Int) < UInt32.size :=
    ⟨Int.natCast_nonneg _, Int.ofNat_lt.mpr n.toNat_lt⟩
  have read : word (Source.ofValue (.integer n.toNat)) = .ok n := by
    rw [Value.integer, Source.ofValue, word, if_pos small, Int.toNat_natCast]
    exact congrArg Except.ok UInt32.ofNat_toNat
  change (word (Source.ofValue (.integer n.toNat))).map some = _
  rw [read]
  rfl

namespace ModifierDraft

theorem putAll_eq_fill (d : ModifierDraft) (members : Members) :
    d.putAll members = fill put d members := by
  induction members generalizing d with
  | nil => rfl
  | cons m members ih =>
      rw [putAll, fill, List.foldlM_cons]
      exact bind_congr ih

variable {d : ModifierDraft}

theorem fill_tokenOrder (free : d.tokenOrder = none) (t : Option String) :
    fill put d (Members.optional "token_order" (t.map .string)) =
      .ok { d with tokenOrder := t.map some } := by
  cases d
  subst free
  exact fill_optional put "token_order" optional_text (mk · _ _ _ _ _)
    (fun s a h => by rw [put, h]; rfl) t rfl

theorem fill_fuzzy (free : d.fuzzy = none) (v : Option Value) :
    fill put d (Members.optional "fuzzy" v) = .ok { d with fuzzy := v.map explicit } := by
  cases d
  subst free
  exact fill_optional put "fuzzy" optional_any (mk _ · _ _ _ _)
    (fun s a h => by rw [put, h]; rfl) v Option.map_id'.symm

theorem fill_score (free : d.score = none) (v : Option Value) :
    fill put d (Members.optional "score" v) = .ok { d with score := v.map explicit } := by
  cases d
  subst free
  exact fill_optional put "score" optional_any (mk _ _ · _ _ _)
    (fun s a h => by rw [put, h]; rfl) v Option.map_id'.symm

theorem fill_minGrams (free : d.minGrams = none) (n : Option UInt32) :
    fill put d (Members.optional "min_grams" (n.map (fun n => .integer n.toNat))) =
      .ok { d with minGrams := n.map some } := by
  cases d
  subst free
  exact fill_optional put "min_grams" optional_word (mk _ _ _ · _ _)
    (fun s a h => by rw [put, h]; rfl) n rfl

theorem fill_maxGrams (free : d.maxGrams = none) (n : Option UInt32) :
    fill put d (Members.optional "max_grams" (n.map (fun n => .integer n.toNat))) =
      .ok { d with maxGrams := n.map some } := by
  cases d
  subst free
  exact fill_optional put "max_grams" optional_word (mk _ _ _ _ · _)
    (fun s a h => by rw [put, h]; rfl) n rfl

theorem fill_slop (free : d.slop = none) (n : Option UInt32) :
    fill put d (Members.optional "slop" (n.map (fun n => .integer n.toNat))) =
      .ok { d with slop := n.map some } := by
  cases d
  subst free
  exact fill_optional put "slop" optional_word (mk _ _ _ _ _ ·)
    (fun s a h => by rw [put, h]; rfl) n rfl

end ModifierDraft

theorem Modifiers.ofMembers_slots (m : Modifiers) :
    Modifiers.ofMembers (slots m.slot sortedKeys) = .ok m.pruned := by
  have filled : fill ModifierDraft.put {} (slots m.slot sortedKeys) =
      .ok ⟨m.tokenOrder.map some, m.fuzzy.map explicit, m.score.map explicit,
        m.minGrams.map some, m.maxGrams.map some, m.slop.map some⟩ := by
    simp only [sortedKeys, slots_cons, slots_nil, slot, fill_append]
    rw [ModifierDraft.fill_fuzzy rfl, Except.ok_bind, ModifierDraft.fill_maxGrams rfl,
      Except.ok_bind, ModifierDraft.fill_minGrams rfl, Except.ok_bind,
      ModifierDraft.fill_score rfl, Except.ok_bind, ModifierDraft.fill_slop rfl, Except.ok_bind,
      ModifierDraft.fill_tokenOrder rfl]
    rfl
  have joined {α : Type} (a : Option α) : (a.map some).join = a := by cases a <;> rfl
  have kept (v : Option Value) : (v.map explicit).join = v.filter (· ≠ .null) := by
    cases v <;> rfl
  rw [ofMembers, ModifierDraft.putAll_eq_fill, filled, pruned]
  simp only [Except.map, ModifierDraft.finish, joined, kept]

namespace OperandDraft

theorem putAll_eq_fill (d : OperandDraft) (members : Members) :
    d.putAll .inline (Source.ofMembers members) = fill (put .inline) d members := by
  induction members generalizing d with
  | nil => rfl
  | cons m members ih =>
      rw [Source.ofMembers, putAll, fill, List.foldlM_cons]
      exact bind_congr ih

theorem comparison?_expression (c : Comparison) :
    comparison? (Source.ofValue (.string c.expression)) = .ok (some c) :=
  congrArg (fun c => Except.ok (some c)) (Comparison.ofExpression_expression c)

variable {d : OperandDraft}

theorem fill_field (free : d.field = none) (field : String) :
    fill (put .inline) d (Members.optional "field" (some (.string field))) =
      .ok { d with field := some field } := by
  cases d
  subst free
  rfl

theorem fill_comparison (free : d.comparison = none) (c : Option Comparison) :
    fill (put .inline) d
        (Members.optional "op" (c.map (fun c => .string c.expression))) =
      .ok { d with comparison := c.map some } := by
  cases d
  subst free
  exact fill_optional (put .inline) "op" comparison?_expression (mk _ · _ _ _)
    (fun s a h => by rw [put, h]; rfl) c rfl

theorem fill_value (free : d.value = none) (v : Value) :
    fill (put .inline) d (Members.optional "value" (some v)) =
      .ok { d with value := some v } := by
  cases d
  subst free
  exact fill_optional (put .inline) "value" any_ofValue (mk _ _ · _ _)
    (fun s a h => by rw [put, h]; rfl) (some v) rfl

theorem fill_includeBlanks (free : d.includeBlanks = none) (b : Bool) :
    fill (put .inline) d
        (Members.optional "include_blanks" (if b then some (.bool true) else none)) =
      .ok { d with includeBlanks := if b then some true else none } := by
  cases d
  subst free
  cases b <;> rfl

theorem fill_other {key : String}
    (other : key ∉ ["field", "op", "comparison", "value", "include_blanks"]) (v : Option Value) :
    fill (put .inline) d (Members.optional key v) =
      .ok { d with others := d.others ++ Members.optional key v } := by
  cases v with
  | none => rw [Members.optional_none, List.append_nil]; rfl
  | some v =>
      have kept : d.put .inline key (Source.ofValue v) =
          .ok { d with others := d.others ++ [(key, v)] } := by
        unfold put
        split <;> first
          | exact absurd (by decide) other
          | rw [any_ofValue]; rfl
      rw [Members.optional_some, fill, List.foldlM_cons, kept]
      rfl

end OperandDraft

theorem Operand.encode_eq (o : Operand) :
    o.encode = .object (slots o.slot sortedKeys) := by
  have listed : o.encode = .object (Members.gather (slots o.slot ["field", "op", "value",
      "include_blanks", "token_order", "fuzzy", "score", "min_grams", "max_grams", "slop"])) := by
    rw [encode, Modifiers.members]
    cases hb : o.includeBlanks <;>
      simp [slots_cons, slot, Modifiers.slot, hb, Members.optional_some, Members.optional_none]
  rw [listed]
  exact congrArg Value.object (Members.gather_slots o.slot (by decide) (by decide))

theorem Operand.decode_encode (o : Operand) :
    Operand.decode .inline (Source.ofValue o.encode) = .ok o.pruned := by
  have filled : fill (OperandDraft.put .inline) {} (slots o.slot sortedKeys) =
      .ok ⟨some o.field, o.comparison.map some, some o.value,
        if o.includeBlanks then some true else none,
        slots o.modifiers.slot Modifiers.sortedKeys⟩ := by
    simp only [sortedKeys, slots_cons, slots_nil, slot, fill_append]
    rw [OperandDraft.fill_field rfl, Except.ok_bind, OperandDraft.fill_other (by decide),
      Except.ok_bind, OperandDraft.fill_includeBlanks rfl, Except.ok_bind,
      OperandDraft.fill_other (by decide), Except.ok_bind, OperandDraft.fill_other (by decide),
      Except.ok_bind, OperandDraft.fill_comparison rfl, Except.ok_bind,
      OperandDraft.fill_other (by decide), Except.ok_bind, OperandDraft.fill_other (by decide),
      Except.ok_bind, OperandDraft.fill_other (by decide), Except.ok_bind,
      OperandDraft.fill_value rfl]
    simp [Modifiers.sortedKeys]
    rfl
  have joined : (o.comparison.map some).join = o.comparison := by cases o.comparison <;> rfl
  have blanks : (if o.includeBlanks then some true else none).getD false = o.includeBlanks := by
    cases o.includeBlanks <;> rfl
  rw [encode_eq, Source.ofValue, decode, enter, Except.ok_bind, OperandDraft.putAll_eq_fill,
    filled, Except.ok_bind, settle, if_pos rfl, Except.ok_bind, OperandDraft.finish, required,
    Except.ok_bind, Modifiers.ofMembers_slots, Except.ok_bind, joined, blanks]
  rfl

theorem Operator.decode_encode (o : Operator) :
    Operator.decode .inline (Source.ofValue o.encode) = .ok o := by
  obtain ⟨connective, separate⟩ := o
  cases connective <;> cases separate <;> rfl

theorem Token.decode_encode (t : Token Operand) :
    Token.decode .inline (Source.ofValue t.encode) = .ok (t.map Operand.pruned) := by
  cases t with
  | operand o =>
      change (Operand.decode .inline (Source.ofValue o.encode)).map Token.operand = _
      rw [Operand.decode_encode]
      rfl
  | operator o =>
      change (Operator.decode .inline (Source.ofValue o.encode)).map Token.operator = _
      rw [Operator.decode_encode]
      rfl
  | opening => rfl
  | closing => rfl

theorem decodeTokens_encodeTokens (tokens : List (Token Operand)) :
    fromValue decodeTokens (encodeTokens tokens) =
      .ok (tokens.map (Token.map Operand.pruned)) := by
  have each : (Source.ofItems (tokens.map Token.encode)).mapM (Token.decode .inline) =
      .ok (tokens.map (Token.map Operand.pruned)) := by
    induction tokens with
    | nil => rfl
    | cons t tokens ih =>
        rw [List.map_cons, Source.ofItems, List.mapM_cons, Token.decode_encode, Except.ok_bind,
          ih]
        rfl
  rw [fromValue, encodeTokens, Source.ofValue, decodeTokens, enter, Except.ok_bind, each]
  rfl

section Decoded

-- No slot holds a null that was given as a value.
def ModifierDraft.Explicit (d : ModifierDraft) : Prop :=
  d.fuzzy ≠ some (some .null) ∧ d.score ≠ some (some .null)

theorem ModifierDraft.Explicit.put {d next : ModifierDraft} (h : d.Explicit) {key : String}
    {s : Source} (run : d.put key s = .ok next) : next.Explicit := by
  unfold ModifierDraft.put at run
  split at run
  case h_2 =>
    obtain ⟨slot, hs, same⟩ := Except.bind_eq_ok_iff.mp run
    obtain ⟨v, hv, rfl⟩ := of_once hs
    cases same
    exact ⟨fun same => ne_null_of_optional_any hv (Option.some.inj same), h.2⟩
  case h_3 =>
    obtain ⟨slot, hs, same⟩ := Except.bind_eq_ok_iff.mp run
    obtain ⟨v, hv, rfl⟩ := of_once hs
    cases same
    exact ⟨h.1, fun same => ne_null_of_optional_any hv (Option.some.inj same)⟩
  case h_7 =>
    cases run
    exact h
  all_goals
    obtain ⟨slot, hs, same⟩ := Except.bind_eq_ok_iff.mp run
    cases same
    exact h

theorem ModifierDraft.Explicit.finish {d : ModifierDraft} (h : d.Explicit) :
    d.finish.pruned = d.finish := by
  have kept {slot : Option (Option Value)} (hs : slot ≠ some (some .null)) :
      slot.join.filter (· ≠ .null) = slot.join := by
    cases slot with
    | none => rfl
    | some v =>
        cases v with
        | none => rfl
        | some v => exact Option.filter_some_pos (decide_eq_true fun hv => hs (by rw [hv]))
  simp only [Modifiers.pruned, ModifierDraft.finish, kept h.1, kept h.2]

theorem pruned_of_ofMembers {members : Members} {m : Modifiers}
    (h : Modifiers.ofMembers members = .ok m) : m.pruned = m := by
  obtain ⟨d, hd, rfl⟩ := Except.map_eq_ok_iff.mp h
  rw [ModifierDraft.putAll_eq_fill] at hd
  have start : ModifierDraft.Explicit {} := ⟨nofun, nofun⟩
  exact (Except.foldlM_keeps ModifierDraft.Explicit (fun d m next h run => h.put run) start
    hd).finish

theorem pruned_of_decode {form : Form} {s : Source} {o : Operand}
    (h : Operand.decode form s = .ok o) : o.pruned = o := by
  unfold Operand.decode at h
  split at h
  · obtain ⟨_, _, h⟩ := Except.bind_eq_ok_iff.mp h
    obtain ⟨d, _, h⟩ := Except.bind_eq_ok_iff.mp h
    obtain ⟨_, _, h⟩ := Except.bind_eq_ok_iff.mp h
    obtain ⟨field, _, h⟩ := Except.bind_eq_ok_iff.mp h
    obtain ⟨modifiers, hm, h⟩ := Except.bind_eq_ok_iff.mp h
    cases h
    rw [Operand.pruned, pruned_of_ofMembers hm]
  · unfold mismatch at h
    split at h <;> cases h

theorem pruned_of_decodeToken {form : Form} {s : Source} {t : Token Operand}
    (h : Token.decode form s = .ok t) : t.map Operand.pruned = t := by
  obtain ⟨inner, name, content, h⟩ := exists_of_variant h
  split at h
  · obtain ⟨s, h⟩ := exists_of_newtypeContent h
    obtain ⟨o, ho, rfl⟩ := Except.map_eq_ok_iff.mp h
    exact congrArg Token.operand (pruned_of_decode ho)
  · obtain ⟨s, h⟩ := exists_of_newtypeContent h
    obtain ⟨o, _, rfl⟩ := Except.map_eq_ok_iff.mp h
    rfl
  · rw [eq_of_unitContent h]
    rfl
  · rw [eq_of_unitContent h]
    rfl

theorem pruned_of_decodeTokens {form : Form} {s : Source} {tokens : List (Token Operand)}
    (h : decodeTokens form s = .ok tokens) : tokens.map (Token.map Operand.pruned) = tokens := by
  unfold decodeTokens at h
  split at h
  · obtain ⟨inner, _, h⟩ := Except.bind_eq_ok_iff.mp h
    obtain ⟨read, hr, h⟩ := Except.bind_eq_ok_iff.mp h
    obtain ⟨_, _, h⟩ := Except.bind_eq_ok_iff.mp h
    cases h
    refine (List.map_congr_left (fun t ht => ?_)).trans (List.map_id tokens)
    obtain ⟨s, hs⟩ := Except.exists_of_mem_mapM hr t ht
    exact pruned_of_decodeToken hs
  · unfold mismatch at h
    split at h <;> cases h

end Decoded

theorem tokens_reread (tokens : List (Token Operand)) :
    fromValue decodeTokens (encodeTokens tokens) =
        .ok (tokens.map (Token.map Operand.pruned)) ∧
      (∀ j, (fromValue decodeTokens j >>= fun read => fromValue decodeTokens (encodeTokens read)) =
        fromValue decodeTokens j) ∧
      ∀ json, (fromText decodeTokens json >>= fun read =>
        fromValue decodeTokens (encodeTokens read)) = fromText decodeTokens json := by
  have again {form : Form} {s : Source} {read : List (Token Operand)}
      (h : decodeTokens form s = .ok read) :
      fromValue decodeTokens (encodeTokens read) = .ok read := by
    rw [decodeTokens_encodeTokens, pruned_of_decodeTokens h]
  refine ⟨decodeTokens_encodeTokens tokens, fun j => ?_, fun json => ?_⟩
  · cases h : fromValue decodeTokens j with
    | error e => rfl
    | ok read => exact again h
  · cases h : fromText decodeTokens json with
    | error e => rfl
    | ok read =>
        obtain ⟨form, s, hs⟩ := exists_of_fromText h
        exact again hs

end Criteria.Query
