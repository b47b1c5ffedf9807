import Criteria.Decimal.Reading

namespace Criteria.Toml

inductive Lexeme where
  | dot
  | equals
  | comma
  | openList
  | closeList
  | openTable
  | closeTable
  | blank (single : Bool)
  | newline
  | text (body : String) (block : Bool)
  | word (body : String)
  | broken
  deriving DecidableEq

namespace Lexeme

def space (c : Char) : Bool :=
  c = ' ' || c = '\t'

def control (c : Char) : Bool :=
  (c.toNat < 0x20 && c ≠ '\t') || c.toNat = 0x7F

def delimiter (c : Char) : Bool :=
  ['.', '=', ',', '[', ']', '\x7b', '\x7d', ' ', '\t', '#', '\n', '\r', '\'', '"'].contains c

def unicode (count : Nat) (cs : List Char) : Option (Char × List Char) := do
  let digits ← (cs.take count).mapM Decimal.hexValue?
  let n := Decimal.numeral 16 digits
  if digits.length = count ∧ n.isValidChar then
    return (Char.ofNat n, cs.drop count)
  else none

def escape : List Char → Option (Char × List Char)
  | 'b' :: rest => some ('\x08', rest)
  | 't' :: rest => some ('\t', rest)
  | 'n' :: rest => some ('\n', rest)
  | 'f' :: rest => some ('\x0c', rest)
  | 'r' :: rest => some ('\r', rest)
  | 'e' :: rest => some ('\x1b', rest)
  | '"' :: rest => some ('"', rest)
  | '\\' :: rest => some ('\\', rest)
  | 'x' :: rest => unicode 2 rest
  | 'u' :: rest => unicode 4 rest
  | 'U' :: rest => unicode 8 rest
  | _ => none

theorem unicode_length {count : Nat} {cs rest : List Char} {c : Char}
    (h : unicode count cs = some (c, rest)) : rest.length ≤ cs.length := by
  simp only [unicode, Option.bind_eq_bind, Option.bind_eq_some_iff] at h
  obtain ⟨digits, _, h⟩ := h
  split at h
  · simp only [Option.pure_def, Option.some.injEq, Prod.mk.injEq] at h
    simp [← h.2]
  · simp at h

theorem escape_length {cs rest : List Char} {c : Char} (h : escape cs = some (c, rest)) :
    rest.length ≤ cs.length := by
  unfold escape at h
  split at h
  case h_9 => exact Nat.le_succ_of_le (unicode_length h)
  case h_10 => exact Nat.le_succ_of_le (unicode_length h)
  case h_11 => exact Nat.le_succ_of_le (unicode_length h)
  case h_12 => simp at h
  all_goals
    simp only [Option.some.injEq, Prod.mk.injEq] at h
    simp [← h.2]

def lineEnd? : List Char → Option (List Char)
  | '\n' :: rest => some rest
  | '\r' :: '\n' :: rest => some rest
  | _ => none

theorem lineEnd?_length {cs rest : List Char} (h : lineEnd? cs = some rest) :
    rest.length < cs.length := by
  unfold lineEnd? at h
  split at h
  · simp only [Option.some.injEq] at h
    simp only [h, List.length_cons]
    omega
  · simp only [Option.some.injEq] at h
    simp only [h, List.length_cons]
    omega
  · exact absurd h (by simp)

def gapless : List Char → List Char
  | [] => []
  | '\r' :: '\n' :: rest => gapless rest
  | c :: rest => if space c || c = '\n' then gapless rest else c :: rest

theorem gapless_length (cs : List Char) : (gapless cs).length ≤ cs.length := by
  fun_induction gapless cs with
  | case1 => exact Nat.le_refl _
  | case2 rest ih =>
      simp only [List.length_cons]
      omega
  | case3 c rest _ _ ih => exact Nat.le_succ_of_le ih
  | case4 => exact Nat.le_refl _

def continued (cs : List Char) : Option (List Char) :=
  (lineEnd? (cs.dropWhile space)).map gapless

theorem continued_length {cs rest : List Char} (h : continued cs = some rest) :
    rest.length ≤ cs.length := by
  simp only [continued, Option.map_eq_some_iff] at h
  obtain ⟨tail, htail, rfl⟩ := h
  have h1 := (List.dropWhile_suffix space (l := cs)).length_le
  have h2 := lineEnd?_length htail
  have h3 := gapless_length tail
  omega

def lineText (cs : List Char) : Option (List Char × List Char) :=
  match cs with
  | [] => none
  | '"' :: rest => some ([], rest)
  | '\\' :: rest =>
      match _found : escape rest with
      | none => none
      | some (c, tail) => (lineText tail).map (fun (body, rest) => (c :: body, rest))
  | c :: rest =>
      if control c then none
      else (lineText rest).map (fun (body, rest) => (c :: body, rest))
termination_by cs.length
decreasing_by
  · have := escape_length _found
    simp only [List.length_cons]
    omega
  · simp

theorem lineText_length {cs body rest : List Char} (h : lineText cs = some (body, rest)) :
    rest.length ≤ cs.length := by
  fun_induction lineText cs generalizing body rest with
  | case1 => simp at h
  | case2 => simp_all
  | case3 => simp at h
  | case4 tail c rest₀ found ih =>
      simp only [Option.map_eq_some_iff, Prod.mk.injEq] at h
      obtain ⟨⟨b, r⟩, hr, _, rfl⟩ := h
      have := ih hr
      have := escape_length found
      simp only [List.length_cons]
      omega
  | case5 => simp at h
  | case6 c tail h1 h2 h3 ih =>
      simp only [Option.map_eq_some_iff, Prod.mk.injEq] at h
      obtain ⟨⟨b, r⟩, hr, _, rfl⟩ := h
      have := ih hr
      simp only [List.length_cons]
      omega

def ending (quote : Char) (cs : List Char) : List Char × List Char :=
  let extra := (cs.take 2).takeWhile (· = quote)
  (extra, cs.drop extra.length)

def blockText (cs : List Char) : Option (List Char × List Char) :=
  match cs with
  | [] => none
  | '"' :: '"' :: '"' :: rest => some (ending '"' rest)
  | '\\' :: rest =>
      match _found : continued rest with
      | some tail => blockText tail
      | none =>
          match _found : escape rest with
          | none => none
          | some (c, tail) => (blockText tail).map (fun (body, rest) => (c :: body, rest))
  | '\r' :: '\n' :: rest =>
      (blockText rest).map (fun (body, rest) => ('\r' :: '\n' :: body, rest))
  | c :: rest =>
      if control c && c ≠ '\n' then none
      else (blockText rest).map (fun (body, rest) => (c :: body, rest))
termination_by cs.length
decreasing_by
  · have := continued_length _found
    simp only [List.length_cons]
    omega
  · have := escape_length _found
    simp only [List.length_cons]
    omega
  · simp only [List.length_cons]
    omega
  · simp

theorem ending_length (quote : Char) (cs : List Char) : (ending quote cs).2.length ≤ cs.length := by
  simp [ending]

theorem blockText_length {cs body rest : List Char} (h : blockText cs = some (body, rest)) :
    rest.length ≤ cs.length := by
  fun_induction blockText cs generalizing body rest with
  | case1 => simp at h
  | case2 tail =>
      have := ending_length '"' tail
      simp only [Option.some.injEq] at h
      simp only [h] at this
      simp only [List.length_cons]
      omega
  | case3 tail rest₀ found ih =>
      have := ih h
      have := continued_length found
      simp only [List.length_cons]
      omega
  | case4 => simp at h
  | case5 tail found₀ c rest₀ found ih =>
      simp only [Option.map_eq_some_iff, Prod.mk.injEq] at h
      obtain ⟨⟨b, r⟩, hr, _, rfl⟩ := h
      have := ih hr
      have := escape_length found
      simp only [List.length_cons]
      omega
  | case6 tail ih =>
      simp only [Option.map_eq_some_iff, Prod.mk.injEq] at h
      obtain ⟨⟨b, r⟩, hr, _, rfl⟩ := h
      have := ih hr
      simp only [List.length_cons]
      omega
  | case7 => simp at h
  | case8 c tail h1 h2 h3 h4 ih =>
      simp only [Option.map_eq_some_iff, Prod.mk.injEq] at h
      obtain ⟨⟨b, r⟩, hr, _, rfl⟩ := h
      have := ih hr
      simp only [List.length_cons]
      omega

def lineLiteral : List Char → Option (List Char × List Char)
  | [] => none
  | '\'' :: rest => some ([], rest)
  | c :: rest =>
      if control c then none
      else (lineLiteral rest).map (fun (body, rest) => (c :: body, rest))

theorem lineLiteral_length {cs body rest : List Char} (h : lineLiteral cs = some (body, rest)) :
    rest.length ≤ cs.length := by
  fun_induction lineLiteral cs generalizing body rest with
  | case1 => simp at h
  | case2 => simp_all
  | case3 => simp at h
  | case4 c tail h1 h2 ih =>
      simp only [Option.map_eq_some_iff, Prod.mk.injEq] at h
      obtain ⟨⟨b, r⟩, hr, _, rfl⟩ := h
      have := ih hr
      simp only [List.length_cons]
      omega

def blockLiteral : List Char → Option (List Char × List Char)
  | [] => none
  | '\'' :: '\'' :: '\'' :: rest => some (ending '\'' rest)
  | '\r' :: '\n' :: rest =>
      (blockLiteral rest).map (fun (body, rest) => ('\r' :: '\n' :: body, rest))
  | c :: rest =>
      if control c && c ≠ '\n' then none
      else (blockLiteral rest).map (fun (body, rest) => (c :: body, rest))

theorem blockLiteral_length {cs body rest : List Char} (h : blockLiteral cs = some (body, rest)) :
    rest.length ≤ cs.length := by
  fun_induction blockLiteral cs generalizing body rest with
  | case1 => simp at h
  | case2 tail =>
      have := ending_length '\'' tail
      simp only [Option.some.injEq] at h
      simp only [h] at this
      simp only [List.length_cons]
      omega
  | case3 tail ih =>
      simp only [Option.map_eq_some_iff, Prod.mk.injEq] at h
      obtain ⟨⟨b, r⟩, hr, _, rfl⟩ := h
      have := ih hr
      simp only [List.length_cons]
      omega
  | case4 => simp at h
  | case5 c tail h1 h2 h3 ih =>
      simp only [Option.map_eq_some_iff, Prod.mk.injEq] at h
      obtain ⟨⟨b, r⟩, hr, _, rfl⟩ := h
      have := ih hr
      simp only [List.length_cons]
      omega

def opened (cs : List Char) : List Char :=
  (lineEnd? cs).getD cs

theorem opened_length (cs : List Char) : (opened cs).length ≤ cs.length := by
  unfold opened
  cases h : lineEnd? cs with
  | none => exact Nat.le_refl _
  | some rest => exact Nat.le_of_lt (lineEnd?_length h)

def quotedText (block : Bool) : Option (List Char × List Char) → Lexeme × List Char
  | some (body, rest) => (.text (String.ofList body) block, rest)
  | none => (.broken, [])

theorem quotedText_length {block : Bool} {found : Option (List Char × List Char)} {bound : Nat}
    (h : ∀ {body rest : List Char}, found = some (body, rest) → rest.length ≤ bound) :
    (quotedText block found).2.length ≤ bound := by
  unfold quotedText
  split
  · exact h rfl
  · simp

def remark (cs : List Char) : List Char × List Char :=
  match cs with
  | [] => ([], [])
  | c :: rest =>
      if (lineEnd? cs).isSome then ([], cs)
      else
        let (body, rest) := remark rest
        (c :: body, rest)

theorem remark_length (cs : List Char) : (remark cs).2.length ≤ cs.length := by
  induction cs with
  | nil => exact Nat.le_refl _
  | cons c rest ih =>
      simp only [remark]
      split
      · exact Nat.le_refl _
      · exact Nat.le_succ_of_le ih

def comment (cs : List Char) : Lexeme × List Char :=
  if (remark cs).1.any control then (.broken, []) else (.blank false, (remark cs).2)

def scan (c : Char) (cs : List Char) : Lexeme × List Char :=
  match c with
  | '.' => (.dot, cs)
  | '=' => (.equals, cs)
  | ',' => (.comma, cs)
  | '[' => (.openList, cs)
  | ']' => (.closeList, cs)
  | '\x7b' => (.openTable, cs)
  | '\x7d' => (.closeTable, cs)
  | '\n' => (.newline, cs)
  | '\r' =>
      match cs with
      | '\n' :: rest => (.newline, rest)
      | _ => (.broken, [])
  | '#' => comment cs
  | '"' =>
      match cs with
      | '"' :: '"' :: rest => quotedText true (blockText (opened rest))
      | _ => quotedText false (lineText cs)
  | '\'' =>
      match cs with
      | '\'' :: '\'' :: rest => quotedText true (blockLiteral (opened rest))
      | _ => quotedText false (lineLiteral cs)
  | c =>
      if space c then
        (.blank (c = ' ' && (cs.takeWhile space).isEmpty), cs.dropWhile space)
      else if delimiter c then (.broken, [])
      else
        (.word (String.ofList (c :: cs.takeWhile (fun c => !delimiter c))),
          cs.dropWhile (fun c => !delimiter c))

theorem scan_length (c : Char) (cs : List Char) : (scan c cs).2.length ≤ cs.length := by
  unfold scan
  split
  case h_9 => split <;> simp
  case h_10 =>
    unfold comment
    split
    · simp
    · exact remark_length cs
  case h_11 =>
    split
    · rename_i rest
      refine quotedText_length (fun h => ?_)
      have h1 := blockText_length h
      have h2 := opened_length rest
      simp only [List.length_cons]
      omega
    · exact quotedText_length lineText_length
  case h_12 =>
    split
    · rename_i rest
      refine quotedText_length (fun h => ?_)
      have h1 := blockLiteral_length h
      have h2 := opened_length rest
      simp only [List.length_cons]
      omega
    · exact quotedText_length lineLiteral_length
  case h_13 =>
    split
    · exact (List.dropWhile_suffix _).length_le
    · split
      · simp
      · exact (List.dropWhile_suffix _).length_le
  all_goals exact Nat.le_refl _

def lexAll : List Char → List Lexeme
  | [] => []
  | c :: cs => (scan c cs).1 :: lexAll (scan c cs).2
termination_by cs => cs.length
decreasing_by
  have := scan_length c cs
  simp only [List.length_cons]
  omega

def unmarked (cs : List Char) : List Char :=
  match cs with
  | '\uFEFF' :: rest => rest
  | _ => cs

def lex (text : String) : List Lexeme :=
  lexAll (unmarked text.toList)

end Lexeme

end Criteria.Toml
