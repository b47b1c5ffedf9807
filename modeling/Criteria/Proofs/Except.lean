import Mathlib.Data.List.Forall2

namespace Except

variable {ε α β : Type}

theorem ok_bind (a : α) (next : α → Except ε β) : (ok a >>= next) = next a := rfl

theorem bind_eq_ok_iff {read : Except ε α} {next : α → Except ε β} {b : β} :
    read >>= next = .ok b ↔ ∃ a, read = .ok a ∧ next a = .ok b := by
  constructor
  · intro h
    cases read with
    | error e => cases h
    | ok a => exact ⟨a, rfl, h⟩
  · rintro ⟨a, rfl, h⟩
    exact h

theorem map_eq_ok_iff {read : Except ε α} {f : α → β} {b : β} :
    read.map f = .ok b ↔ ∃ a, read = .ok a ∧ f a = b := by
  constructor
  · intro h
    cases read with
    | error e => cases h
    | ok a => exact ⟨a, rfl, ok.inj h⟩
  · rintro ⟨a, rfl, rfl⟩
    rfl

theorem map_eq_error_iff {read : Except ε α} {f : α → β} {e : ε} :
    read.map f = .error e ↔ read = .error e := by
  constructor
  · intro h
    cases read with
    | error d => exact congrArg error (error.inj h)
    | ok a => cases h
  · rintro rfl
    rfl

theorem foldlM_keeps {step : β → α → Except ε β} (keeps : β → Prop)
    (h : ∀ b a next, keeps b → step b a = .ok next → keeps next) {start last : β}
    (hs : keeps start) {xs : List α} (run : xs.foldlM step start = .ok last) : keeps last := by
  induction xs generalizing start with
  | nil =>
      cases run
      exact hs
  | cons x xs ih =>
      rw [List.foldlM_cons] at run
      obtain ⟨next, hn, run⟩ := bind_eq_ok_iff.mp run
      exact ih (h start x next hs hn) run

theorem forall₂_of_mapM {f : α → Except ε β} {xs : List α} {ys : List β}
    (h : xs.mapM f = .ok ys) : List.Forall₂ (fun x y => f x = .ok y) xs ys := by
  induction xs generalizing ys with
  | nil =>
      cases h
      exact .nil
  | cons x xs ih =>
      rw [List.mapM_cons] at h
      obtain ⟨y, hy, h⟩ := bind_eq_ok_iff.mp h
      obtain ⟨later, hl, h⟩ := bind_eq_ok_iff.mp h
      cases h
      exact .cons hy (ih hl)

theorem exists_ok_of_mapM {f : α → Except ε β} {xs : List α} {ys : List β}
    (h : xs.mapM f = .ok ys) : ∀ x ∈ xs, ∃ y, f x = .ok y :=
  ((List.forall₂_and_left xs ys).mp
    ((forall₂_of_mapM h).imp (fun _ y hy => ⟨⟨y, hy⟩, hy⟩))).1

theorem exists_of_mem_mapM {f : α → Except ε β} {xs : List α} {ys : List β}
    (h : xs.mapM f = .ok ys) : ∀ y ∈ ys, ∃ x, f x = .ok y :=
  ((List.forall₂_and_left ys xs).mp
    ((forall₂_of_mapM h).flip.imp (fun _ x hx => ⟨⟨x, hx⟩, hx⟩))).1

theorem mapM_eq_error_iff {f : α → Except ε β} {xs : List α} {e : ε} :
    xs.mapM f = .error e ↔
      ∃ before x after, xs = before ++ x :: after ∧ (∀ b ∈ before, ∃ y, f b = .ok y) ∧
        f x = .error e := by
  induction xs with
  | nil =>
      constructor
      · intro h
        cases h
      · rintro ⟨before, x, after, h, _⟩
        exact absurd h (by simp)
  | cons x xs ih =>
      rw [List.mapM_cons]
      constructor
      · intro h
        cases hx : f x with
        | error d =>
            rw [hx] at h
            have he : d = e := error.inj h
            exact ⟨[], x, xs, rfl, nofun, he ▸ hx⟩
        | ok y =>
            rw [hx] at h
            obtain ⟨before, z, after, rfl, hb, hz⟩ := ih.mp (map_eq_error_iff.mp h)
            exact ⟨x :: before, z, after, rfl, List.forall_mem_cons.mpr ⟨⟨y, hx⟩, hb⟩, hz⟩
      · rintro ⟨before, z, after, h, hb, hz⟩
        cases before with
        | nil =>
            obtain ⟨rfl, rfl⟩ := List.cons.inj h
            rw [hz]
            rfl
        | cons b before =>
            obtain ⟨rfl, rfl⟩ := List.cons.inj h
            obtain ⟨⟨y, hy⟩, hb⟩ := List.forall_mem_cons.mp hb
            rw [hy]
            exact map_eq_error_iff.mpr (ih.mpr ⟨before, z, after, rfl, hb, hz⟩)

end Except
