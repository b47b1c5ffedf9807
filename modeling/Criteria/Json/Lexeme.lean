import Criteria.Json.Value
import Criteria.Decimal.Magnitude
import Criteria.Decimal.Reading

namespace Criteria.Json

inductive Lexeme where
  | beginArray
  | endArray
  | beginObject
  | endObject
  | comma
  | colon
  | null
  | bool (b : Bool)
  | number (n : Number)
  | string (s : String)
  | unreadable
  | outOfRange
  | broken

namespace Lexeme

def space (c : Char) : Bool :=
  c = ' ' || c = '\t' || c = '\n' || c = '\r'

def digits (cs : List Char) : List Nat :=
  (cs.takeWhile Char.isDigit).map Decimal.digitValue

def afterDigits (cs : List Char) : List Char :=
  cs.dropWhile Char.isDigit

theorem afterDigits_length (cs : List Char) : (afterDigits cs).length ≤ cs.length :=
  (List.dropWhile_suffix _).length_le

inductive Piece where
  | char (c : Char)
  | unit (n : Nat)

def simpleEscape? (c : Char) : Option Char :=
  match c with
  | '"' => some '"'
  | '\\' => some '\\'
  | '/' => some '/'
  | 'b' => some '\x08'
  | 'f' => some '\x0c'
  | 'n' => some '\n'
  | 'r' => some '\r'
  | 't' => some '\t'
  | _ => none

def hexUnit? (a b c d : Char) : Option Nat := do
  let a ← Decimal.hexValue? a
  let b ← Decimal.hexValue? b
  let c ← Decimal.hexValue? c
  let d ← Decimal.hexValue? d
  return Decimal.numeral 16 [a, b, c, d]

def pieces : List Char → Option (List Piece × List Char)
  | [] => none
  | '"' :: rest => some ([], rest)
  | '\\' :: 'u' :: a :: b :: c :: d :: rest =>
      match hexUnit? a b c d, pieces rest with
      | some n, some (ps, rest) => some (.unit n :: ps, rest)
      | _, _ => none
  | '\\' :: c :: rest =>
      match simpleEscape? c, pieces rest with
      | some e, some (ps, rest) => some (.char e :: ps, rest)
      | _, _ => none
  | c :: rest =>
      if c.toNat < 0x20 ∨ c = '\\' then none
      else match pieces rest with
        | some (ps, rest) => some (.char c :: ps, rest)
        | none => none

theorem pieces_length {cs : List Char} {ps : List Piece} {rest : List Char}
    (h : pieces cs = some (ps, rest)) : rest.length ≤ cs.length := by
  fun_induction pieces cs generalizing ps rest with
  | case1 => simp at h
  | case2 => simp_all
  | case3 a b c d rest₀ n ps₀ rest₁ hp hn ih =>
      simp only [Option.some.injEq, Prod.mk.injEq] at h
      have := ih hp
      simp only [← h.2, List.length_cons]
      omega
  | case4 => simp at h
  | case5 c rest₀ hne e ps₀ rest₁ hp hn ih =>
      simp only [Option.some.injEq, Prod.mk.injEq] at h
      have := ih hp
      simp only [← h.2, List.length_cons]
      omega
  | case6 => simp at h
  | case7 => simp at h
  | case8 c rest₀ h1 h2 h3 hc ps₀ rest₁ hp ih =>
      simp only [Option.some.injEq, Prod.mk.injEq] at h
      have := ih hp
      simp only [← h.2, List.length_cons]
      omega
  | case9 => simp at h

def highUnit (n : Nat) : Bool :=
  0xD800 ≤ n && n ≤ 0xDBFF

def lowUnit (n : Nat) : Bool :=
  0xDC00 ≤ n && n ≤ 0xDFFF

def spell : List Piece → Option (List Char)
  | [] => some []
  | .char c :: ps => (spell ps).map (c :: ·)
  | .unit h :: .unit l :: ps =>
      if highUnit h && lowUnit l then
        (spell ps).map (Char.ofNat (0x10000 + (h - 0xD800) * 0x400 + (l - 0xDC00)) :: ·)
      else if highUnit h || lowUnit h then none
      else (spell (.unit l :: ps)).map (Char.ofNat h :: ·)
  | .unit h :: ps =>
      if highUnit h || lowUnit h then none else (spell ps).map (Char.ofNat h :: ·)

def text (cs : List Char) : Lexeme × List Char :=
  match pieces cs with
  | none => (.broken, [])
  | some (ps, rest) =>
      match spell ps with
      | some s => (.string (String.ofList s), rest)
      | none => (.unreadable, rest)

theorem text_length (cs : List Char) : (text cs).2.length ≤ cs.length := by
  unfold text
  split
  · simp
  · rename_i h
    have := pieces_length h
    split <;> exact this

def fraction (cs : List Char) : Option (List Nat × List Char) :=
  match cs with
  | '.' :: ds => if (digits ds).isEmpty then none else some (digits ds, afterDigits ds)
  | _ => some ([], cs)

theorem fraction_length {cs ds : List Char} {f : List Nat} (h : fraction cs = some (f, ds)) :
    ds.length ≤ cs.length := by
  unfold fraction at h
  split at h
  · rename_i rest
    split at h
    · simp at h
    · simp only [Option.some.injEq, Prod.mk.injEq] at h
      have := afterDigits_length rest
      simp only [← h.2, List.length_cons]
      omega
  · simp only [Option.some.injEq, Prod.mk.injEq] at h
    exact Nat.le_of_eq (congrArg List.length h.2.symm)

def signed (cs : List Char) : Bool × List Char :=
  match cs with
  | '+' :: ds => (false, ds)
  | '-' :: ds => (true, ds)
  | _ => (false, cs)

theorem signed_length (cs : List Char) : (signed cs).2.length ≤ cs.length := by
  unfold signed
  split <;> simp

def exponent (cs : List Char) : Option (Option Int × List Char) :=
  match cs with
  | [] => some (none, [])
  | c :: ds =>
      if c = 'e' ∨ c = 'E' then
        let s := signed ds
        if (digits s.2).isEmpty then none
        else
          let n : Int := Decimal.numeral 10 (digits s.2)
          some (some (if s.1 then -n else n), afterDigits s.2)
      else some (none, cs)

theorem exponent_length {cs ds : List Char} {e : Option Int} (h : exponent cs = some (e, ds)) :
    ds.length ≤ cs.length := by
  unfold exponent at h
  split at h
  · simp_all
  · rename_i c rest
    split at h
    · dsimp only at h
      split at h
      · simp at h
      · simp only [Option.some.injEq, Prod.mk.injEq] at h
        have h1 := afterDigits_length (signed rest).2
        have h2 := signed_length rest
        simp only [← h.2, List.length_cons]
        omega
    · simp only [Option.some.injEq, Prod.mk.injEq] at h
      exact Nat.le_of_eq (congrArg List.length h.2.symm)

def realLexeme (x : Float) : Lexeme :=
  match Decimal.magnitude x with
  | .finite _ _ => .number (.real x)
  | _ => .outOfRange

def numeric (negative : Bool) (whole part : List Nat) (exponent : Option Int) : Lexeme :=
  let n := Decimal.numeral 10 whole
  if part.isEmpty ∧ exponent = none then
    if negative then
      if 0 < n ∧ n ≤ Nat.pow 2 63 then .number (.integer (-(n : Int)))
      else realLexeme (Decimal.ofDecimal true n 0)
    else if n < Nat.pow 2 64 then .number (.integer n)
    else realLexeme (Decimal.ofDecimal false n 0)
  else
    let significand := Decimal.numeral 10 (whole ++ part)
    realLexeme (Decimal.ofDecimal negative significand (exponent.getD 0 - part.length))

def numeral (negative : Bool) (first : Char) (cs : List Char) : Lexeme × List Char :=
  let whole := Decimal.digitValue first :: digits cs
  if first = '0' ∧ whole.length ≠ 1 then (.broken, [])
  else match fraction (afterDigits cs) with
    | none => (.broken, [])
    | some (part, ds) =>
        match exponent ds with
        | none => (.broken, [])
        | some (e, rest) => (numeric negative whole part e, rest)

theorem numeral_length (negative : Bool) (first : Char) (cs : List Char) :
    (numeral negative first cs).2.length ≤ cs.length := by
  unfold numeral
  dsimp only
  split
  · simp
  · split
    · simp
    · rename_i hf
      have h1 := fraction_length hf
      have h2 := afterDigits_length cs
      split
      · simp
      · rename_i he
        have h3 := exponent_length he
        exact Nat.le_trans h3 (Nat.le_trans h1 h2)

def word (l : Lexeme) (letters cs : List Char) : Lexeme × List Char :=
  if letters.isPrefixOf cs then (l, cs.drop letters.length) else (.broken, [])

theorem word_length (l : Lexeme) (letters cs : List Char) :
    (word l letters cs).2.length ≤ cs.length := by
  unfold word
  split <;> simp

def scan (c : Char) (cs : List Char) : Lexeme × List Char :=
  match c with
  | '[' => (.beginArray, cs)
  | ']' => (.endArray, cs)
  | '\x7b' => (.beginObject, cs)
  | '\x7d' => (.endObject, cs)
  | ',' => (.comma, cs)
  | ':' => (.colon, cs)
  | '"' => text cs
  | 'n' => word .null ['u', 'l', 'l'] cs
  | 't' => word (.bool true) ['r', 'u', 'e'] cs
  | 'f' => word (.bool false) ['a', 'l', 's', 'e'] cs
  | '-' =>
      match cs with
      | d :: ds => if d.isDigit then numeral true d ds else (.broken, [])
      | [] => (.broken, [])
  | c => if c.isDigit then numeral false c cs else (.broken, [])

theorem scan_length (c : Char) (cs : List Char) : (scan c cs).2.length ≤ cs.length := by
  unfold scan
  split
  case h_7 => exact text_length cs
  case h_8 => exact word_length _ _ cs
  case h_9 => exact word_length _ _ cs
  case h_10 => exact word_length _ _ cs
  case h_11 =>
    split
    · rename_i d ds
      split
      · have := numeral_length true d ds
        simp only [List.length_cons]
        omega
      · simp
    · simp
  case h_12 =>
    split
    · exact numeral_length false _ cs
    · simp
  all_goals exact Nat.le_refl _

def lex : List Char → List Lexeme
  | [] => []
  | c :: cs =>
      if space c then lex cs
      else (scan c cs).1 :: lex (scan c cs).2
termination_by cs => cs.length
decreasing_by
  · simp
  · have := scan_length c cs
    simp only [List.length_cons]
    omega

end Lexeme

end Criteria.Json
