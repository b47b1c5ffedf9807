import Criteria.Text.Columns.Alone
import Criteria.Text.Columns.Picture

namespace Criteria.Text.Columns

open Text.Class (within)

inductive Ligature where
  | lamed
  | ya
  | vowelYa
  | consonant
  | joinedConsonant
  | tone
  | orkhon
  | coeng
  deriving DecidableEq, Repr

inductive Ahead where
  | plain
  | tint
  | indicator
  | indicators
  | picture
  | joinedPicture
  | joinedKeycap
  | joinedIndicator
  | joinedPairs
  | joinedOdd
  | tagEnd
  | tagLetters (count : Nat)
  | tagDigits (count : Nat)
  | vowelE
  | vowelAi
  | alef
  | ligature (l : Ligature) (joined : Bool)
  deriving DecidableEq, Repr

inductive Selector where
  | picture
  | text
  | wide
  deriving DecidableEq, Repr

structure Context where
  ahead : Ahead := .plain
  selector : Option Selector := none
  deriving DecidableEq, Repr

def opaqueRanges : List (Nat × Nat) :=
  [(0x605, 0x605), (0x890, 0x891), (0x8E2, 0x8E2), (0x9BE, 0x9BE), (0x9D7, 0x9D7), (0xB3E, 0xB3E),
    (0xB57, 0xB57), (0xBBE, 0xBBE), (0xBD7, 0xBD7), (0xCC0, 0xCC0), (0xCC2, 0xCC2), (0xCC7, 0xCC8),
    (0xCCA, 0xCCB), (0xCD5, 0xCD6), (0xD3E, 0xD3E), (0xD4E, 0xD4E), (0xD57, 0xD57), (0xDCF, 0xDCF),
    (0xDDF, 0xDDF), (0x1160, 0x11FF), (0x1715, 0x1715), (0x1734, 0x1734), (0x180E, 0x180E),
    (0x1B35, 0x1B35), (0x1B3B, 0x1B3B), (0x1B3D, 0x1B3D), (0x1B43, 0x1B44), (0x1BAA, 0x1BAA),
    (0x1BF2, 0x1BF3), (0x200C, 0x200D), (0x2065, 0x2069), (0x302E, 0x302F), (0x3164, 0x3164),
    (0xA8FA, 0xA8FA), (0xA953, 0xA953), (0xA9C0, 0xA9C0), (0xD7B0, 0xD7C6), (0xD7CB, 0xD7FB),
    (0xFFA0, 0xFFA0), (0xFFF0, 0xFFF8), (0x111C0, 0x111C0), (0x111C2, 0x111C3), (0x11235, 0x11235),
    (0x1133E, 0x1133E), (0x1134D, 0x1134D), (0x11357, 0x11357), (0x113B8, 0x113B8),
    (0x113C2, 0x113C2), (0x113C5, 0x113C5), (0x113C7, 0x113C9), (0x113CF, 0x113CF),
    (0x113D1, 0x113D1), (0x114B0, 0x114B0), (0x114BD, 0x114BD), (0x115AF, 0x115AF),
    (0x116B6, 0x116B6), (0x11930, 0x11930), (0x1193D, 0x1193D), (0x1193F, 0x1193F),
    (0x11941, 0x11941), (0x11A84, 0x11A89), (0x11D46, 0x11D46), (0x11F02, 0x11F02),
    (0x11F41, 0x11F41), (0x16FF0, 0x16FF1), (0x1D165, 0x1D166), (0x1D16D, 0x1D172),
    (0xE0000, 0xE0000), (0xE0002, 0xE001F), (0xE0080, 0xE00FF), (0xE01F0, 0xE0FFF)]

def transparent (c : Char) : Bool :=
  alone c = 0 && !within opaqueRanges c

def alefShape (c : Char) : Bool :=
  within [(0x622, 0x623), (0x625, 0x625), (0x627, 0x627), (0x671, 0x673), (0x675, 0x675),
    (0x773, 0x774), (0x870, 0x882)] c

def lamShape (c : Char) : Bool :=
  within [(0x644, 0x644), (0x6B5, 0x6B8), (0x76A, 0x76A), (0x8A6, 0x8A6), (0x8C7, 0x8C7)] c

def stackable (c : Char) : Bool :=
  within [(0x1780, 0x1782), (0x1784, 0x1787), (0x1789, 0x178C), (0x178E, 0x1793), (0x1795, 0x1798),
    (0x179B, 0x179D), (0x17A0, 0x17A0), (0x17A2, 0x17A2), (0x17A7, 0x17A7), (0x17AB, 0x17AC),
    (0x17AF, 0x17AF)] c

def tifinagh (c : Char) : Bool :=
  within [(0x2D31, 0x2D65), (0x2D6F, 0x2D6F)] c

def highTone (c : Char) : Bool :=
  within [(0xA4F8, 0xA4FB)] c

def lowTone (c : Char) : Bool :=
  within [(0xA4FC, 0xA4FD)] c

def filler (c : Char) : Bool :=
  within [(0x34F, 0x34F), (0x17B4, 0x17B5), (0x180B, 0x180D), (0x180F, 0x180F), (0xFE00, 0xFE0F),
    (0xE0100, 0xE01EF)] c

def curlyQuote (c : Char) : Bool :=
  within [(0x2018, 0x2019), (0x201C, 0x201D)] c

def tagLetter (c : Char) : Bool :=
  within [(0xE0061, 0xE007A)] c

def tagDigit (c : Char) : Bool :=
  within [(0xE0030, 0xE0039)] c

def joiner (c : Char) : Bool :=
  c = '\u200D'

def blackFlag (c : Char) : Bool :=
  c.toNat = 0x1F3F4

def aheadOf (c : Char) : Ahead :=
  if indicator c then .indicator
  else if tint c then .tint
  else if picture c then .picture
  else if alefShape c then .alef
  else if stackable c then .ligature .coeng true
  else if tifinagh c then .ligature .consonant false
  else if lowTone c then .ligature .tone true
  else match c.toNat with
    | 0x5DC => .ligature .lamed false
    | 0x1A10 => .ligature .ya false
    | 0x10C03 => .ligature .orkhon false
    | 0x16D67 => .vowelE
    | 0x16D68 => .vowelAi
    | _ => .plain

def Ahead.lasting : Ahead → Bool
  | .alef => true
  | .ligature _ _ => true
  | _ => false

def Ahead.joinsPicture : Ahead → Bool
  | .joinedPicture => true
  | .joinedKeycap => true
  | _ => false

def ligated? (c : Char) : Ligature → Bool → Option (Int × Ahead)
  | .lamed, joined => if joined && c = '\u05D0' then some (0, .plain) else none
  | .ya, joined => if joined && c = '\u1A17' then some (0, .ligature .vowelYa true) else none
  | .vowelYa, _ => if c = '\u1A15' then some (0, .plain) else none
  | .consonant, joined =>
      if c = '\u2D7F' then some (1, .ligature .joinedConsonant true)
      else if joined && tifinagh c then some (0, .plain)
      else none
  | .joinedConsonant, _ => if tifinagh c then some (-1, .plain) else none
  | .tone, _ => if highTone c then some (0, .plain) else none
  | .orkhon, joined => if joined && c.toNat = 0x10C32 then some (0, .plain) else none
  | .coeng, _ => if c = '\u17D2' then some (-1, .plain) else none

def tagged? (c : Char) (letters digits : Nat) : Option (Int × Ahead) :=
  if tagLetter c && digits = 0 && letters < 6 then some (0, .tagLetters (letters + 1))
  else if tagDigit c && digits = 0 && letters ≤ 4 then some (0, .tagDigits 1)
  else if tagDigit c && 0 < digits && digits < 3 then some (0, .tagDigits (digits + 1))
  else if blackFlag c && (3 ≤ letters || digits = 3) then some (0, .picture)
  else none

def joined? (c : Char) : Option (Int × Ahead) :=
  if c = '\u20E3' then some (0, .joinedKeycap)
  else if indicator c then some (1, .joinedIndicator)
  else if tint c then some (0, .tint)
  else if c.toNat = 0xE007F then some (0, .tagEnd)
  else if picture c then some (0, .picture)
  else none

def linked? (c : Char) : Ahead → Option (Int × Ahead)
  | .plain => none
  | .tint =>
      if tintable c then some (0, .picture)
      else if joiner c then some (0, .joinedPicture)
      else none
  | .indicator => if indicator c then some (1, .indicators) else none
  | .indicators =>
      if indicator c then some (1, .indicators)
      else if joiner c then some (0, .joinedPicture)
      else none
  | .picture => if joiner c then some (0, .joinedPicture) else none
  | .joinedPicture => joined? c
  | .joinedKeycap => none
  | .joinedIndicator => if indicator c then some (-1, .joinedPairs) else none
  | .joinedPairs =>
      if indicator c then some (3, .joinedOdd)
      else if joiner c then some (0, .joinedPicture)
      else none
  | .joinedOdd =>
      if indicator c then some (-1, .joinedPairs)
      else if joiner c then some (0, .joinedPicture)
      else none
  | .tagEnd => tagged? c 0 0
  | .tagLetters count => tagged? c count 0
  | .tagDigits count => tagged? c 0 count
  | .vowelE =>
      match c.toNat with
      | 0x16D63 => some (0, .plain)
      | 0x16D67 => some (0, .vowelAi)
      | 0x16D68 => some (1, .vowelE)
      | 0x16D69 => some (0, .plain)
      | _ => none
  | .vowelAi => if c.toNat = 0x16D63 then some (0, .plain) else none
  | .alef =>
      if lamShape c then some (0, .plain)
      else if transparent c then some (0, .alef)
      else none
  | .ligature l joined =>
      if joiner c then some (0, .ligature l true)
      else if filler c then some (0, .ligature l joined)
      else ligated? c l joined

def selector? (c : Char) : Option Selector :=
  match c with
  | '\uFE0F' => some .picture
  | '\uFE0E' => some .text
  | '\uFE01' => some .wide
  | _ => none

def Ahead.selected (a : Ahead) (s : Selector) : Context :=
  if a.lasting || (s = .picture && a.joinsPicture) then ⟨a, some s⟩ else ⟨.plain, some s⟩

def unmarked (c : Char) (a : Ahead) : Int × Context :=
  let (n, a) := (linked? c a).getD (alone c, aheadOf c)
  (n, ⟨a, none⟩)

def unpictured (c : Char) (k : Context) : Int × Context :=
  if c.toNat ≤ 0xA0 then (1, {})
  else match selector? c with
    | some s => (0, k.ahead.selected s)
    | none =>
        if k.selector = some .text && takesText c then (1, {})
        else if k.selector = some .wide && curlyQuote c then (2, {})
        else unmarked c k.ahead

def measure (c : Char) (k : Context) : Int × Context :=
  if k.selector = some .picture then
    if takesPicture c then (if k.ahead.joinsPicture then 0 else 2, ⟨.picture, none⟩)
    else unpictured c ⟨if k.ahead.lasting then k.ahead else .plain, none⟩
  else unpictured c k

def total (text : List Char) : Int × Context :=
  text.foldr (fun c (sum, k) =>
    let (n, k) := measure c k
    (sum + n, k)) (0, {})

def count (text : List Char) : Nat :=
  (total text).1.toNat

theorem measure_narrow {c : Char} (h : c.toNat ≤ 0xA0) : measure c {} = (1, {}) := by
  simp [measure, unpictured, h]

theorem total_narrow {text : List Char} (h : ∀ c ∈ text, c.toNat ≤ 0xA0) :
    total text = ((text.length : Int), {}) := by
  induction text with
  | nil => rfl
  | cons c cs ih =>
      have hc := measure_narrow (h c List.mem_cons_self)
      have hcs := ih (fun d hd => h d (List.mem_cons_of_mem c hd))
      simp only [total] at hcs
      simp only [total, List.foldr_cons, hcs, hc, List.length_cons, Int.natCast_succ]

theorem count_narrow {text : List Char} (h : ∀ c ∈ text, c.toNat ≤ 0xA0) :
    count text = text.length := by
  simp [count, total_narrow h]

end Criteria.Text.Columns
