import Criteria.Proofs.Decimal.Reading
import Criteria.Toml.Writer

namespace Criteria.Toml

open Decimal (Digits Layout digitValue numeral magnitude negative shortest)

structure Figures (cs : List Char) : Prop where
  ne_nil : cs ≠ []
  digits : ∀ c ∈ cs, c.isDigit = true

namespace Figures

variable {cs ds : List Char}

theorem append (hc : Figures cs) (hd : ∀ d ∈ ds, d.isDigit = true) : Figures (cs ++ ds) where
  ne_nil := List.append_ne_nil_of_left_ne_nil hc.ne_nil ds
  digits c h := (List.mem_append.mp h).elim (hc.digits c) (hd c)

theorem toDigits (n : Nat) : Figures (Nat.toDigits 10 n) where
  ne_nil := Nat.toDigits_ne_nil
  digits _ h := Nat.isDigit_of_mem_toDigits (by decide) (by decide) h

theorem zeros (k : Nat) : ∀ c ∈ List.replicate k '0', c.isDigit = true := by
  intro c h
  rw [(List.mem_replicate.mp h).2]
  rfl

theorem zero : Figures ['0'] :=
  ⟨List.cons_ne_nil _ _, zeros 1⟩

end Figures

def reading (cs : List Char) : Nat :=
  numeral 10 (cs.map digitValue)

theorem reading_eq (cs : List Char) : reading cs = Nat.ofDigitChars 10 cs 0 := by
  rw [reading, numeral, List.foldl_map, Nat.ofDigitChars]
  congr 1
  funext n c
  rw [Nat.mul_comm, digitValue]

theorem reading_append (cs ds : List Char) :
    reading (cs ++ ds) = 10 ^ ds.length * reading cs + reading ds := by
  rw [reading_eq, reading_eq, reading_eq, Nat.ofDigitChars_append,
    Nat.ofDigitChars_eq_ofDigitChars_zero]

theorem reading_toDigits (n : Nat) : reading (Nat.toDigits 10 n) = n := by
  rw [reading_eq, Nat.ofDigitChars_ten_toDigits]

theorem reading_zeros (k : Nat) : reading (List.replicate k '0') = 0 := by
  rw [reading_eq, Nat.ofDigitChars_replicate_zero, Nat.mul_zero]

theorem reading_lt {cs : List Char} (h : ∀ c ∈ cs, c.isDigit = true) :
    reading cs < 10 ^ cs.length := by
  induction cs with
  | nil => decide
  | cons c cs ih =>
      rw [List.forall_mem_cons] at h
      have most := (Char.isDigit_iff_toNat.mp h.1).2
      have first : reading [c] ≤ 9 := by
        have nine : '9'.toNat = 57 := rfl
        change 0 * 10 + (c.toNat - 48) ≤ 9
        omega
      have rest := ih h.2
      calc reading (c :: cs) = 10 ^ cs.length * reading [c] + reading cs := reading_append [c] cs
        _ ≤ 10 ^ cs.length * 9 + reading cs := Nat.add_le_add_right (Nat.mul_le_mul_left _ first) _
        _ < 10 ^ (c :: cs).length := by
            rw [List.length_cons, Nat.pow_succ]
            omega

-- No zero stands before the first digit of a whole part of several digits.
def Leading (cs : List Char) : Prop :=
  cs = ['0'] ∨ cs.head? ≠ some '0'

theorem head_toDigits {n : Nat} (hn : 0 < n) : (Nat.toDigits 10 n).head? ≠ some '0' := by
  intro zero
  obtain ⟨rest, hr⟩ := List.head?_eq_some_iff.mp zero
  have digits := (Figures.toDigits n).digits
  have value := reading_toDigits n
  have least := Decimal.pow_digitCount_le hn
  rw [hr] at digits value
  rw [Decimal.digitCount, hr, List.length_cons, Nat.add_sub_cancel] at least
  have most := reading_lt (List.forall_mem_of_forall_mem_cons digits)
  have none : reading ['0'] = 0 := rfl
  rw [← List.singleton_append, reading_append, none, Nat.mul_zero, Nat.zero_add] at value
  omega

-- A printed number in two rows of digits, before and behind the point.
structure Pointed (d : Digits) (front back : List Char) : Prop where
  text : (layout.digits d).toList = front ++ '.' :: back
  whole : Figures front
  leading : Leading front
  places : Figures back
  value : (reading (front ++ back) : ℚ) / 10 ^ back.length = d.value

theorem digits_layout (d : Digits) : layout.digits d =
    match d.exponent with
    | .ofNat k => toString d.significand ++ Decimal.zeros k ++ ".0"
    | .negSucc k =>
        let cs := (toString d.significand).toList
        if k + 1 < cs.length then
          String.ofList (cs.take (cs.length - (k + 1))) ++ "." ++
            String.ofList (cs.drop (cs.length - (k + 1)))
        else "0." ++ Decimal.zeros (k + 1 - cs.length) ++ toString d.significand := by
  rfl

theorem toList_toString (n : Nat) : (toString n).toList = Nat.toDigits 10 n :=
  Nat.toList_repr

theorem pointed_whole (n k : Nat) (h : 0 < n ∨ k = 0) :
    Pointed ⟨n, .ofNat k⟩ (Nat.toDigits 10 n ++ List.replicate k '0') ['0'] where
  text := by
    simp [digits_layout, Decimal.zeros]
  whole := (Figures.toDigits n).append (Figures.zeros k)
  leading := by
    rcases Nat.eq_zero_or_pos n with rfl | hn
    · left
      rw [h.resolve_left (Nat.lt_irrefl 0)]
      rfl
    · right
      rw [List.head?_append_of_ne_nil _ Nat.toDigits_ne_nil]
      exact head_toDigits hn
  places := .zero
  value := by
    have last : reading ['0'] = 0 := rfl
    rw [reading_append, last, reading_append, reading_zeros, reading_toDigits, Digits.value,
      List.length_replicate, List.length_singleton, Int.ofNat_eq_natCast, zpow_natCast]
    push_cast
    ring

theorem pointed_inside {n k : Nat} (hn : 0 < n) (h : k + 1 < (Nat.toDigits 10 n).length) :
    Pointed ⟨n, .negSucc k⟩
      ((Nat.toDigits 10 n).take ((Nat.toDigits 10 n).length - (k + 1)))
      ((Nat.toDigits 10 n).drop ((Nat.toDigits 10 n).length - (k + 1))) where
  text := by
    simp only [digits_layout, toList_toString, if_pos h]
    simp
  whole := by
    refine ⟨?_, fun c hc => (Figures.toDigits n).digits c (List.mem_of_mem_take hc)⟩
    rw [Ne, List.take_eq_nil_iff, not_or]
    exact ⟨by omega, Nat.toDigits_ne_nil⟩
  leading := by
    right
    rw [List.head?_take, if_neg (by omega)]
    exact head_toDigits hn
  places := by
    refine ⟨?_, fun c hc => (Figures.toDigits n).digits c (List.mem_of_mem_drop hc)⟩
    rw [Ne, List.drop_eq_nil_iff]
    omega
  value := by
    have places : (Nat.toDigits 10 n).length - ((Nat.toDigits 10 n).length - (k + 1)) = k + 1 := by
      omega
    rw [List.take_append_drop, reading_toDigits, List.length_drop, places, Digits.value,
      zpow_negSucc, div_eq_mul_inv]

theorem pointed_outside {n k : Nat} (h : (Nat.toDigits 10 n).length ≤ k + 1) :
    Pointed ⟨n, .negSucc k⟩ ['0']
      (List.replicate (k + 1 - (Nat.toDigits 10 n).length) '0' ++ Nat.toDigits 10 n) where
  text := by
    simp only [digits_layout, toList_toString, if_neg h.not_gt]
    simp [Decimal.zeros]
  whole := .zero
  leading := .inl rfl
  places := ⟨List.append_ne_nil_of_right_ne_nil _ Nat.toDigits_ne_nil, fun c hc =>
    (List.mem_append.mp hc).elim (Figures.zeros _ c) ((Figures.toDigits n).digits c)⟩
  value := by
    have first : reading ['0'] = 0 := rfl
    rw [reading_append, first, reading_append, reading_zeros, reading_toDigits, List.length_append,
      List.length_replicate, Nat.sub_add_cancel h, Digits.value, zpow_negSucc, div_eq_mul_inv,
      Nat.mul_zero, Nat.mul_zero, Nat.zero_add, Nat.zero_add]

theorem exists_pointed (d : Digits) (h : 0 < d.significand ∨ d = ⟨0, 0⟩) :
    ∃ front back, Pointed d front back := by
  obtain ⟨n, e⟩ := d
  cases e with
  | ofNat k =>
      refine ⟨_, _, pointed_whole n k (h.imp_right (fun zero => ?_))⟩
      cases zero
      rfl
  | negSucc k =>
      have hn : 0 < n := by
        refine h.resolve_right (fun zero => ?_)
        cases zero
      rcases Nat.lt_or_ge (k + 1) (Nat.toDigits 10 n).length with inside | outside
      · exact ⟨_, _, pointed_inside hn inside⟩
      · exact ⟨_, _, pointed_outside outside⟩

namespace Scalar

variable {cs front back : List Char}

theorem hexValue?_digit {c : Char} (h : c.isDigit = true) :
    Decimal.hexValue? c = some (digitValue c) := by
  obtain ⟨low, high⟩ := Char.isDigit_iff_toNat.mp h
  exact if_pos ⟨low, high⟩

theorem not_mem_digits {c : Char} (digit : c.isDigit = false) (h : ∀ c ∈ cs, c.isDigit = true) :
    c ∉ cs := by
  intro hc
  rw [h c hc] at digit
  cases digit

theorem cut_of_not_mem {mark : Char} (h : mark ∉ cs) : Text.cut (· = mark) cs = [cs] :=
  Text.cut_eq_singleton (fun _ hc => decide_eq_false (ne_of_mem_of_not_mem hc h))

theorem mapM_digits (h : ∀ c ∈ cs, c.isDigit = true) :
    cs.mapM Decimal.hexValue? = some (cs.map digitValue) := by
  induction cs with
  | nil => rfl
  | cons c cs ih =>
      rw [List.forall_mem_cons] at h
      rw [List.mapM_cons, hexValue?_digit h.1, ih h.2]
      rfl

theorem grouped?_figures (h : Figures cs) :
    grouped? Char.isDigit cs = some (cs.map digitValue) := by
  have all : cs.all Char.isDigit = true := List.all_eq_true.mpr h.digits
  have some : cs.isEmpty = false := List.isEmpty_eq_false_iff.mpr h.ne_nil
  rw [grouped?, cut_of_not_mem (not_mem_digits (by decide) h.digits)]
  simp [all, some, mapM_digits h.digits]

theorem whole?_figures (h : Figures cs) (leading : Leading cs) :
    whole? cs = some (cs.map digitValue) := by
  rw [whole?, grouped?_figures h]
  split
  · rename_i padded
    exfalso
    obtain ⟨c, rest, rfl⟩ := List.exists_cons_of_ne_nil h.ne_nil
    injection padded with padded
    injection padded with first more
    have low := (Char.isDigit_iff_toNat.mp (h.digits c List.mem_cons_self)).1
    have zero : c = '0' := Char.toNat_inj.mp (Nat.le_antisymm (Nat.le_of_sub_eq_zero first) low)
    rcases leading with single | lead
    · injection single with _ single
      rw [single] at more
      cases more
    · exact lead (congrArg some zero)
  · rfl

theorem decimal?_pointed (minus : Bool) (hf : Figures front) (leading : Leading front)
    (hb : Figures back) : decimal? minus (front ++ '.' :: back) 0 =
      finite? (Decimal.ofDecimal minus (reading (front ++ back)) (-back.length)) := by
  rw [decimal?, Text.cut_append (by decide), cut_of_not_mem (not_mem_digits (by decide) hf.digits),
    cut_of_not_mem (not_mem_digits (by decide) hb.digits)]
  simp [whole?_figures hf leading, grouped?_figures hb, reading]

def withSign (minus : Bool) (cs : List Char) : List Char :=
  if minus then '-' :: cs else cs

structure Plain (cs : List Char) : Prop where
  chars : ∀ c ∈ cs, c.isDigit = true ∨ c = '.'
  first : ∃ c rest, cs = c :: rest ∧ c.isDigit = true
  point : '.' ∈ cs

theorem plain_pointed (hf : Figures front) (hb : Figures back) : Plain (front ++ '.' :: back) where
  chars c h := by
    rcases List.mem_append.mp h with h | h
    · exact .inl (hf.digits c h)
    · exact (List.mem_cons.mp h).symm.imp_left (hb.digits c)
  first := by
    obtain ⟨c, rest, rfl⟩ := List.exists_cons_of_ne_nil hf.ne_nil
    exact ⟨c, _, rfl, hf.digits c List.mem_cons_self⟩
  point := List.mem_append_right _ List.mem_cons_self

namespace Plain

variable (h : Plain cs) (minus : Bool)
include h

theorem not_mem {c : Char} (digit : c.isDigit = false) (point : c ≠ '.') : c ∉ cs := by
  intro hc
  rcases h.chars c hc with figure | dot
  · rw [digit] at figure
    cases figure
  · exact point dot

theorem not_mem_withSign {c : Char} (digit : c.isDigit = false) (point : c ≠ '.')
    (dash : c ≠ '-') : c ∉ withSign minus cs := by
  cases minus with
  | false => exact h.not_mem digit point
  | true => exact List.not_mem_cons_of_ne_of_not_mem dash (h.not_mem digit point)

theorem cut_dash : Text.cut (· = '-') cs = [cs] :=
  cut_of_not_mem (h.not_mem (by decide) (by decide))

theorem isTime_eq : isTime (withSign minus cs) = false := by
  rw [isTime, cut_of_not_mem (h.not_mem_withSign minus (by decide) (by decide) (by decide))]

theorem isDate_eq : isDate (withSign minus cs) = false := by
  cases minus with
  | false => rw [isDate, withSign, if_neg (by decide), h.cut_dash]
  | true => rw [isDate, withSign, if_pos rfl, Text.cut, if_pos (by decide), h.cut_dash]

theorem isMoment_eq : isMoment (withSign minus cs) = false := by
  rw [isMoment]
  split
  · rw [h.isDate_eq, h.isTime_eq]
    rfl
  · rename_i c clock hd
    have hc : c ∈ withSign minus cs := List.mem_of_mem_drop (hd ▸ List.mem_cons_self)
    have other {d : Char} (digit : d.isDigit = false) (point : d ≠ '.') (dash : d ≠ '-') :
        decide (c = d) = false := by
      refine decide_eq_false ?_
      rintro rfl
      exact h.not_mem_withSign minus digit point dash hc
    rw [h.isTime_eq, other (d := 'T') (by decide) (by decide) (by decide),
      other (d := 't') (by decide) (by decide) (by decide),
      other (d := ' ') (by decide) (by decide) (by decide)]
    rfl

theorem signed_eq : signed (withSign minus cs) = (minus, cs) := by
  obtain ⟨c, rest, rfl, digit⟩ := h.first
  cases minus with
  | false =>
      change signed (c :: rest) = _
      unfold signed
      split
      · rename_i same
        cases same
        exact absurd digit (by decide)
      · rename_i same
        cases same
        exact absurd digit (by decide)
      · rfl
  | true => rfl

theorem grouped?_eq : grouped? Char.isDigit cs = none := by
  have mixed : cs.all Char.isDigit = false :=
    List.all_eq_false.mpr ⟨'.', h.point, by decide⟩
  rw [grouped?, cut_of_not_mem (h.not_mem (by decide) (by decide))]
  simp [mixed]

theorem integer?_eq : integer? (withSign minus cs) = none := by
  have foreign {c : Char} (digit : c.isDigit = false) (point : c ≠ '.') (dash : c ≠ '-')
      {rest : List Char} : withSign minus cs ≠ '0' :: c :: rest := by
    intro same
    refine h.not_mem_withSign minus digit point dash ?_
    rw [same]
    exact List.mem_cons_of_mem _ List.mem_cons_self
  unfold integer?
  split
  · rename_i same
    exact absurd same (foreign (by decide) (by decide) (by decide))
  · rename_i same
    exact absurd same (foreign (by decide) (by decide) (by decide))
  · rename_i same
    exact absurd same (foreign (by decide) (by decide) (by decide))
  · rw [h.signed_eq]
    dsimp only
    rw [whole?, h.grouped?_eq]
    rfl

theorem real?_eq : real? (withSign minus cs) = decimal? minus cs 0 := by
  have mantissa : Text.cut raised cs = [cs] := by
    refine Text.cut_eq_singleton (fun c hc => ?_)
    rw [raised, Bool.or_eq_false_iff, decide_eq_false_iff_not, decide_eq_false_iff_not]
    constructor
    · rintro rfl
      exact h.not_mem (by decide) (by decide) hc
    · rintro rfl
      exact h.not_mem (by decide) (by decide) hc
  have point : cs.contains '.' = true := List.contains_iff_mem.mpr h.point
  rw [real?, h.signed_eq]
  dsimp only
  split
  · exact absurd List.mem_cons_self (h.not_mem (c := 'i') (by decide) (by decide))
  · exact absurd List.mem_cons_self (h.not_mem (c := 'n') (by decide) (by decide))
  · rw [mantissa]
    exact if_pos point

theorem read_eq : read (String.ofList (withSign minus cs)) = decimal? minus cs 0 := by
  have chars := String.toList_ofList (l := withSign minus cs)
  have letter : 'e' ∉ withSign minus cs :=
    h.not_mem_withSign minus (by decide) (by decide) (by decide)
  unfold read
  split
  · rename_i same
    rw [← chars, same] at letter
    exact absurd letter (by decide)
  · rename_i same
    rw [← chars, same] at letter
    exact absurd letter (by decide)
  · rw [chars, h.isMoment_eq, if_neg (by decide), h.integer?_eq, h.real?_eq]
    rfl

end Plain

theorem finite?_eq {x : Float} {m : Nat} {e : Int} (h : magnitude x = .finite m e) :
    finite? x = some (.real x) := by
  rw [finite?, h]

theorem shortest_pos {x : Float} {m : Nat} {e : Int} (h : magnitude x = .finite m e)
    (t : Decimal.Tie) : 0 < (shortest t m e).significand ∨ shortest t m e = ⟨0, 0⟩ := by
  rcases Nat.eq_zero_or_pos m with rfl | positive
  · exact .inr rfl
  · exact .inl (Decimal.significand_pos (Decimal.canonical_of_magnitude h positive).1 t)

-- What is written of a finite number is its sign and two rows of digits, read as that number.
theorem exists_written {x : Float} {m : Nat} {e : Int} (h : magnitude x = .finite m e) :
    ∃ front back, Figures front ∧ Figures back ∧
      layout.write x = String.ofList (withSign (negative x) (front ++ '.' :: back)) ∧
        decimal? (negative x) (front ++ '.' :: back) 0 = some (.real x) := by
  obtain ⟨front, back, text, whole, leading, places, value⟩ :=
    exists_pointed (shortest layout.tie m e) (shortest_pos h layout.tie)
  refine ⟨front, back, whole, places, ?_, ?_⟩
  · rw [Layout.write, h, ← text]
    cases negative x <;> simp [withSign]
  · obtain ⟨k, hk⟩ := Nat.exists_eq_add_one_of_ne_zero
      (List.length_pos_iff.mpr places.ne_nil).ne'
    rw [decimal?_pointed _ whole leading places, hk]
    rw [hk] at value
    change finite? (Decimal.ofDecimal _ _ (.negSucc k)) = _
    rw [Decimal.ofDecimal_shortest h layout.tie value]
    exact finite?_eq h

theorem read_layout {x : Float} {m : Nat} {e : Int} (h : magnitude x = .finite m e) :
    read (layout.write x) = some (.real x) := by
  obtain ⟨front, back, whole, places, written, value⟩ := exists_written h
  rw [written, (plain_pointed whole places).read_eq, value]

end Scalar

end Criteria.Toml
