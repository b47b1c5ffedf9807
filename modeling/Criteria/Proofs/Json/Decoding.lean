import Criteria.Json.Decoder
import Criteria.Proofs.Except

namespace Criteria.Json

namespace Decoder

open Source

mutual
theorem any_ofValue (v : Value) : any .inline (ofValue v) = .ok v := by
  match v with
  | .null | .bool _ | .number _ | .string _ => rfl
  | .array items =>
      rw [ofValue, any, enter, Except.ok_bind, anyItems_ofItems items]
      rfl
  | .object members =>
      rw [ofValue, any, enter, Except.ok_bind, anyMembers_ofMembers [] members]
      rfl
theorem anyItems_ofItems (vs : List Value) : anyItems .inline (ofItems vs) = .ok vs := by
  match vs with
  | [] => rfl
  | v :: vs =>
      rw [ofItems, anyItems, any_ofValue v, anyItems_ofItems vs]
      rfl
theorem anyMembers_ofMembers (done ms : Members) :
    anyMembers .inline done (ofMembers ms) = .ok (done ++ ms) := by
  match ms with
  | [] => rw [List.append_nil]; rfl
  | (k, v) :: ms =>
      rw [ofMembers, anyMembers, any_ofValue v, Except.ok_bind, keep, anyMembers_ofMembers,
        List.append_assoc]
      rfl
end

-- A decoder of fields that reads the members of an object one after the other into a draft.
def fill {δ : Type} (put : δ → String → Source → Result δ) (d : δ) (members : Members) :
    Result δ :=
  members.foldlM (fun d m => put d m.1 (ofValue m.2)) d

section Fill

variable {α β δ : Type} {put : δ → String → Source → Result δ}

theorem fill_append (d : δ) (first second : Members) :
    fill put d (first ++ second) = fill put d first >>= fun d => fill put d second :=
  List.foldlM_append

-- What is written of an optional field is what its slot of the draft then holds.
theorem fill_optional (put : δ → String → Source → Result δ) (key : String) {encode : β → Value} {decode : Source → Result α}
    {read : β → α} (inverse : ∀ b, decode (ofValue (encode b)) = .ok (read b))
    (set : Option α → δ)
    (reads : ∀ s a, decode s = .ok a → put (set none) key s = .ok (set (some a)))
    {value : Option Value} (b : Option β) (written : value = b.map encode) :
    fill put (set none) (Members.optional key value) = .ok (set (b.map read)) := by
  subst written
  cases b with
  | none => rfl
  | some b =>
      rw [Option.map_some, Members.optional, fill, List.foldlM_cons,
        reads _ _ (inverse b), Except.ok_bind]
      rfl

end Fill

section Inversion

variable {α : Type}

theorem of_once {name : String} {slot next : Option α} {read : Result α}
    (h : once name slot read = .ok next) : ∃ a, read = .ok a ∧ next = some a := by
  cases slot with
  | some b => cases h
  | none =>
      obtain ⟨a, ha, rfl⟩ := Except.map_eq_ok_iff.mp h
      exact ⟨a, ha, rfl⟩

theorem eq_null_of_any {form : Form} {s : Source} (h : any form s = .ok .null) : s = .null := by
  cases s with
  | null => rfl
  | bool b => cases h
  | number n => cases h
  | string t => cases h
  | array items ending =>
      rw [any] at h
      obtain ⟨inner, _, h⟩ := Except.bind_eq_ok_iff.mp h
      obtain ⟨values, _, h⟩ := Except.bind_eq_ok_iff.mp h
      obtain ⟨_, _, h⟩ := Except.bind_eq_ok_iff.mp h
      cases h
  | object members ending =>
      rw [any] at h
      obtain ⟨inner, _, h⟩ := Except.bind_eq_ok_iff.mp h
      obtain ⟨values, _, h⟩ := Except.bind_eq_ok_iff.mp h
      obtain ⟨_, _, h⟩ := Except.bind_eq_ok_iff.mp h
      cases h
  | unreadable => cases h
  | broken => cases h

theorem ne_null_of_optional_any {form : Form} {s : Source} {v : Option Value}
    (h : Decoder.optional (any form) s = .ok v) : v ≠ some .null := by
  rintro rfl
  unfold Decoder.optional at h
  split at h
  · cases h
  · rename_i hs
    obtain ⟨w, hw, same⟩ := Except.map_eq_ok_iff.mp h
    cases same
    exact hs (eq_null_of_any hw)

theorem exists_of_variant {form : Form} {names : List String}
    {content : Form → String → Option Source → Result α} {s : Source} {a : α}
    (h : variant form names content s = .ok a) :
    ∃ form name inner, content form name inner = .ok a := by
  have chosen {form : Form} {name : String} {inner : Option Source}
      (h : (if names.contains name then content form name inner
        else refuse (.unknownVariant name names)) = .ok a) :
      ∃ form name inner, content form name inner = .ok a := by
    split at h
    · exact ⟨form, name, inner, h⟩
    · cases h
  unfold variant at h
  dsimp only at h
  split at h
  · exact chosen h
  · exact chosen h
  · cases h
  · unfold mismatch at h
    split at h <;> cases h
  · obtain ⟨inner, _, h⟩ := Except.bind_eq_ok_iff.mp h
    split at h
    · cases h
    · cases h
    · obtain ⟨result, hr, h⟩ := Except.bind_eq_ok_iff.mp h
      split at h
      · cases h
        exact chosen hr
      · cases h
  · cases h

theorem exists_of_newtypeContent {decode : Source → Result α} {inner : Option Source}
    {a : α} (h : newtypeContent decode inner = .ok a) : ∃ s, decode s = .ok a := by
  cases inner with
  | none => cases h
  | some s => exact ⟨s, h⟩

theorem eq_of_unitContent {result a : α} {inner : Option Source}
    (h : unitContent result inner = .ok a) : a = result := by
  cases inner with
  | none => exact (Except.ok.inj h).symm
  | some s =>
      obtain ⟨_, _, same⟩ := Except.map_eq_ok_iff.mp h
      exact same.symm

theorem exists_of_fromText {decode : Form → Source → Result α} {json : String} {a : α}
    (h : fromText decode json = .ok a) : ∃ form s, decode form s = .ok a := by
  unfold fromText at h
  generalize Reader.read json = read at h
  obtain ⟨s, clean⟩ := read
  obtain ⟨result, hr, h⟩ := Except.bind_eq_ok_iff.mp h
  split at h
  · cases h
    exact ⟨_, s, hr⟩
  · cases h

end Inversion

end Decoder

end Criteria.Json
