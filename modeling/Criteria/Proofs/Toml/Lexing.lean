import Criteria.Proofs.Toml.Quoting
import Criteria.Proofs.Toml.Reals

namespace Criteria.Toml

open Lexeme

variable {c : Char} {cs word rest : List Char}

theorem not_space (h : delimiter c = false) : space c = false := by
  rw [Bool.eq_false_iff]
  intro blank
  rw [space, Bool.or_eq_true, decide_eq_true_eq, decide_eq_true_eq] at blank
  rcases blank with rfl | rfl <;> cases h

theorem scan_word (h : delimiter c = false) (cs : List Char) :
    scan c cs = (.word (String.ofList (c :: cs.takeWhile (fun c => !delimiter c))),
      cs.dropWhile (fun c => !delimiter c)) := by
  unfold scan
  split
  case h_13 => rw [not_space h, h, if_neg (by decide), if_neg (by decide)]
  all_goals cases h

theorem lexAll_word {d : Char} (ne : word ≠ []) (h : ∀ c ∈ word, delimiter c = false)
    (hd : delimiter d = true) :
    lexAll (word ++ d :: rest) = .word (String.ofList word) :: lexAll (d :: rest) := by
  obtain ⟨c, word, rfl⟩ := List.exists_cons_of_ne_nil ne
  rw [List.forall_mem_cons] at h
  have inside : ∀ c ∈ word, (!delimiter c) = true := fun c hc => by rw [h.2 c hc]; rfl
  have scanned := scan_word h.1 (word ++ d :: rest)
  rw [List.takeWhile_append_of_pos inside, List.dropWhile_append_of_pos inside,
    List.takeWhile_cons, List.dropWhile_cons, hd] at scanned
  simpa using lexAll_scan scanned

theorem lexAll_blank (hc : space c = false) :
    lexAll (' ' :: c :: rest) = .blank true :: lexAll (c :: rest) := by
  have none : ¬ space c = true := by simp [hc]
  refine lexAll_scan ?_
  change (Lexeme.blank (' ' = ' ' && ((c :: rest).takeWhile space).isEmpty),
    (c :: rest).dropWhile space) = _
  rw [List.takeWhile_cons_of_neg none, List.dropWhile_cons_of_neg none]
  rfl

theorem lexAll_indent (hc : space c = false) :
    lexAll (' ' :: ' ' :: ' ' :: ' ' :: c :: rest) = .blank false :: lexAll (c :: rest) := by
  have none : ¬ space c = true := by simp [hc]
  refine lexAll_scan ?_
  change (Lexeme.blank false, (c :: rest).dropWhile space) = _
  rw [List.dropWhile_cons_of_neg none]

def marks : List (Char × Lexeme) :=
  [('.', .dot), ('=', .equals), (',', .comma), ('[', .openList), (']', .closeList),
    ('\n', .newline)]

theorem lexAll_mark {l : Lexeme} (h : (c, l) ∈ marks) (cs : List Char) :
    lexAll (c :: cs) = l :: lexAll cs := by
  simp only [marks, List.mem_cons, Prod.mk.injEq, List.not_mem_nil, or_false] at h
  rcases h with ⟨rfl, rfl⟩ | ⟨rfl, rfl⟩ | ⟨rfl, rfl⟩ | ⟨rfl, rfl⟩ | ⟨rfl, rfl⟩ | ⟨rfl, rfl⟩ <;>
    exact lexAll_scan rfl

-- What may follow a value: the end of its line, a comma or the end of its list.
def Ends (cs : List Char) : Prop :=
  ∃ d rest, cs = d :: rest ∧ d ∈ ['\n', ',', ']']

inductive Atom : Value → Prop
  | text (s : String) : Atom (.text s)
  | real {x : Float} {m : Nat} {e : Int} (h : Decimal.magnitude x = .finite m e) : Atom (.real x)

inductive Solid : Lexeme → Prop
  | dot : Solid .dot
  | word (w : String) : Solid (.word w)
  | text (s : String) (block : Bool) : Solid (.text s block)

structure Spells (ls : List Lexeme) (v : Value) : Prop where
  solid : ∀ l ∈ ls, Solid l
  ne_nil : ls ≠ []
  read : Cell.single? (ls.map .mark) = some v

structure Written (text : List Char) (ls : List Lexeme) : Prop where
  first : ∃ c, text.head? = some c ∧ space c = false
  lex : ∀ rest, Ends rest → lexAll (text ++ rest) = ls ++ lexAll rest

theorem Ends.not_quote {quote : Char} (h : Ends rest) (hq : quote ∉ ['\n', ',', ']']) :
    rest.head? ≠ some quote := by
  obtain ⟨d, tail, rfl, hd⟩ := h
  exact fun head => hq (Option.some.inj head ▸ hd)

theorem exists_text (s : String) :
    ∃ ls, Spells ls (.text s) ∧ Written (Quoted.write s).toList ls := by
  refine ⟨[.text s (spans (Quoted.form s.toList))], ⟨?_, List.cons_ne_nil _ _, rfl⟩,
    head_write s, ?_⟩
  · intro l hl
    rw [List.mem_singleton.mp hl]
    exact .text _ _
  · intro rest ends
    exact lexAll_quoted s (ends.not_quote (by decide)) (ends.not_quote (by decide))

theorem delimiter_digit (h : c.isDigit = true) : delimiter c = false := by
  rw [delimiter, Bool.eq_false_iff, Ne, List.contains_iff_mem]
  intro hc
  simp only [List.mem_cons, List.not_mem_nil, or_false] at hc
  rcases hc with rfl | rfl | rfl | rfl | rfl | rfl | rfl | rfl | rfl | rfl | rfl | rfl | rfl | rfl <;>
    exact absurd h (by decide)

theorem signed_ne_nil {front : List Char} (h : Figures front) (minus : Bool) :
    Scalar.withSign minus front ≠ [] := by
  cases minus with
  | false => exact h.ne_nil
  | true => exact List.cons_ne_nil _ _

theorem delimiter_signed {front : List Char} (h : Figures front) (minus : Bool) :
    ∀ c ∈ Scalar.withSign minus front, delimiter c = false := by
  have figures : ∀ c ∈ front, delimiter c = false := fun c hc => delimiter_digit (h.digits c hc)
  cases minus with
  | false => exact figures
  | true => exact List.forall_mem_cons.mpr ⟨rfl, figures⟩

theorem Ends.delimiter {d : Char} (h : d ∈ ['\n', ',', ']']) : delimiter d = true := by
  simp only [List.mem_cons, List.not_mem_nil, or_false] at h
  rcases h with rfl | rfl | rfl <;> rfl

theorem exists_real {x : Float} {m : Nat} {e : Int} (h : Decimal.magnitude x = .finite m e) :
    ∃ ls, Spells ls (.real x) ∧ Written (layout.write x).toList ls := by
  have read := Scalar.read_layout h
  obtain ⟨front, back, whole, places, written, _⟩ := Scalar.exists_written h
  generalize Decimal.negative x = minus at written
  have split : Scalar.withSign minus (front ++ '.' :: back) =
      Scalar.withSign minus front ++ '.' :: back := by
    cases minus <;> rfl
  rw [split] at written
  have signed := delimiter_signed whole minus
  have ne := signed_ne_nil whole minus
  generalize Scalar.withSign minus front = front at written signed ne
  refine ⟨[.word (String.ofList front), .dot, .word (String.ofList back)],
    ⟨?_, List.cons_ne_nil _ _, ?_⟩, ?_, ?_⟩
  · intro l hl
    simp only [List.mem_cons, List.not_mem_nil, or_false] at hl
    rcases hl with rfl | rfl | rfl
    · exact .word _
    · exact .dot
    · exact .word _
  · have joined : String.join [String.ofList front, ".", String.ofList back] = layout.write x := by
      simp [written, String.join, String.append_assoc]
    change Scalar.read (String.join [String.ofList front, ".", String.ofList back]) = _
    rw [joined, read]
  · obtain ⟨c, front, rfl⟩ := List.exists_cons_of_ne_nil ne
    exact ⟨c, by simp [written], not_space (signed c List.mem_cons_self)⟩
  · rintro _ ⟨d, rest, rfl, hd⟩
    have figures : ∀ c ∈ back, delimiter c = false :=
      fun c hc => delimiter_digit (places.digits c hc)
    rw [written, String.toList_ofList, List.append_assoc, List.cons_append,
      lexAll_word ne signed rfl, lexAll_mark (l := .dot) (by decide),
      lexAll_word places.ne_nil figures (Ends.delimiter hd)]
    rfl

theorem exists_atom {v : Value} (h : Atom v) : ∃ ls, Spells ls v ∧ Written v.inline.toList ls := by
  cases h with
  | text s => exact exists_text s
  | real h => exact exists_real h

end Criteria.Toml
