import Criteria.Toml.Writer

namespace Criteria.Toml

open Quoted Lexeme

section Escapes

theorem hexDigits_ascii : ∀ n < 128, (hexDigits n).length = 4 ∧
    ((hexDigits n).mapM Decimal.hexValue?).any
      (fun ds => ds.length = 4 ∧ Decimal.numeral 16 ds = n) = true := by
  decide +kernel

theorem escape_hexDigits {c : Char} (h : c.toNat < 128) (rest : List Char) :
    escape ('u' :: (hexDigits c.toNat ++ rest)) = some (c, rest) := by
  obtain ⟨four, digits⟩ := hexDigits_ascii c.toNat h
  obtain ⟨ds, values, number⟩ := (Option.any_eq_true _ _).mp digits
  obtain ⟨length, number⟩ := of_decide_eq_true number
  have valid : c.toNat.isValidChar := .inl (by omega)
  change unicode 4 (hexDigits c.toNat ++ rest) = _
  rw [unicode, List.take_left' four, List.drop_left' four, values]
  simp [length, number, valid]

theorem lt_of_unwritable {c : Char} (h : unwritable c = true) : c.toNat < 128 := by
  simp only [unwritable, Lexeme.control, Bool.and_eq_true, Bool.or_eq_true, decide_eq_true_eq] at h
  omega

-- A character stands for itself or is escaped in a way that is read back.
inductive Escape (c : Char) : Prop
  | plain (same : escaped c = [c]) (slash : c ≠ '\\') (clean : unwritable c = false)
  | marked {tail : List Char} (same : escaped c = '\\' :: tail)
      (read : ∀ rest, escape (tail ++ rest) = some (c, rest))

theorem escape_escaped (c : Char) : Escape c := by
  have same := escaped.eq_def c
  split at same
  case h_6 slash _ _ _ _ =>
    split at same
    · rename_i h
      exact .marked same (escape_hexDigits (lt_of_unwritable h))
    · rename_i h
      exact .plain same slash (Bool.eq_false_iff.mpr h)
  all_goals exact .marked same (fun _ => rfl)

end Escapes

section Line

variable {c : Char} {cs tail body rest : List Char}

theorem lineText_marked (found : escape cs = some (c, tail)) (h : lineText tail = some (body, rest)) :
    lineText ('\\' :: cs) = some (c :: body, rest) := by
  rw [lineText]
  split
  · rename_i none
    rw [found] at none
    cases none
  · rename_i some
    rw [found] at some
    cases some
    rw [h]
    rfl

theorem lineText_plain (quote : c ≠ '"') (slash : c ≠ '\\') (clean : Lexeme.control c = false)
    (h : lineText cs = some (body, rest)) : lineText (c :: cs) = some (c :: body, rest) := by
  rw [lineText]
  · rw [clean, h]
    rfl
  · exact quote
  · exact slash

theorem lineText_escaped (quote : c ≠ '"') (line : c ≠ '\n')
    (h : lineText cs = some (body, rest)) :
    lineText (escaped c ++ cs) = some (c :: body, rest) := by
  rcases escape_escaped c with ⟨same, slash, clean⟩ | ⟨same, read⟩
  · rw [same]
    have clean : Lexeme.control c = false := by
      simpa [unwritable, line] using clean
    exact lineText_plain quote slash clean h
  · rw [same]
    exact lineText_marked (read cs) h

theorem lineText_spaced (line : '\n' ∉ cs) :
    lineText (spaced 0 0 cs ++ '"' :: rest) = some (cs, rest) := by
  induction cs with
  | nil => rw [spaced, List.nil_append, lineText]
  | cons c cs ih =>
      obtain ⟨here, later⟩ := not_or.mp (mt List.mem_cons.mpr line)
      by_cases quote : c = '"'
      · subst quote
        rw [spaced, if_pos rfl]
        exact lineText_marked (c := '"') rfl (ih later)
      · rw [spaced, List.append_assoc]
        · exact lineText_escaped quote (Ne.symm here) (ih later)
        · exact quote

theorem lineLiteral_append (quote : '\'' ∉ cs) (clean : ∀ c ∈ cs, Lexeme.control c = false) :
    lineLiteral (cs ++ '\'' :: rest) = some (cs, rest) := by
  induction cs with
  | nil => rfl
  | cons c cs ih =>
      obtain ⟨here, later⟩ := not_or.mp (mt List.mem_cons.mpr quote)
      rw [List.forall_mem_cons] at clean
      rw [List.cons_append, lineLiteral, clean.1, ih later clean.2]
      · rfl
      · exact Ne.symm here

end Line

section Block

variable {c : Char} {cs tail body rest : List Char}

theorem continued_eq_none (h : escape cs = some (c, tail)) : continued cs = none := by
  unfold escape at h
  split at h
  case h_12 => cases h
  all_goals rfl

theorem blockText_marked (found : escape cs = some (c, tail))
    (h : blockText tail = some (body, rest)) :
    blockText ('\\' :: cs) = some (c :: body, rest) := by
  rw [blockText]
  split
  · rename_i joined
    rw [continued_eq_none found] at joined
    cases joined
  · split
    · rename_i none
      rw [found] at none
      cases none
    · rename_i some
      rw [found] at some
      cases some
      rw [h]
      rfl

def Pair (quote : Char) (cs : List Char) : Prop :=
  ∃ rest, cs = quote :: quote :: rest

theorem blockText_plain (slash : c ≠ '\\') (clean : unwritable c = false)
    (single : c = '"' → ¬ Pair '"' cs) (h : blockText cs = some (body, rest)) :
    blockText (c :: cs) = some (c :: body, rest) := by
  rw [blockText]
  · rw [unwritable] at clean
    rw [clean, h]
    rfl
  · exact fun rest quote pair => single quote ⟨rest, pair⟩
  · exact slash
  · rintro rest rfl
    exact absurd clean (by decide)

theorem takeWhile_take {quote : Char} (next : rest.head? ≠ some quote) (k : Nat) :
    (rest.take k).takeWhile (· = quote) = [] := by
  cases rest with
  | nil => rw [List.take_nil]; rfl
  | cons d rest =>
      cases k with
      | zero => rfl
      | succ k =>
          have other : d ≠ quote := fun same => next (congrArg some same)
          simp [other]

theorem ending_eq {quote : Char} {n : Nat} (hn : n ≤ 2) (next : rest.head? ≠ some quote) :
    ending quote (List.replicate n quote ++ rest) = (List.replicate n quote, rest) := by
  have extra : ((List.replicate n quote ++ rest).take 2).takeWhile (· = quote) =
      List.replicate n quote := by
    rw [List.take_append, List.take_replicate, List.length_replicate, Nat.min_eq_right hn,
      List.takeWhile_append_of_pos (by simp), takeWhile_take next, List.append_nil]
  rw [ending, extra, List.length_replicate, List.drop_left' List.length_replicate]

theorem replicate_close (quote : Char) (n : Nat) (rest : List Char) :
    List.replicate n quote ++ quote :: quote :: quote :: rest =
      quote :: quote :: quote :: (List.replicate n quote ++ rest) := by
  change List.replicate n quote ++ (List.replicate 3 quote ++ rest) =
    List.replicate 3 quote ++ (List.replicate n quote ++ rest)
  rw [← List.append_assoc, ← List.append_assoc, List.replicate_append_replicate,
    List.replicate_append_replicate, Nat.add_comm]

theorem not_pair {quote : Char} {n : Nat} (hn : n ≤ 1) (ne : tail ≠ [])
    (head : tail.head? ≠ some quote) (rest : List Char) :
    ¬ Pair quote (List.replicate n quote ++ tail ++ rest) := by
  obtain ⟨d, tail, rfl⟩ := List.exists_cons_of_ne_nil ne
  rintro ⟨more, pair⟩
  rcases Nat.le_one_iff_eq_zero_or_eq_one.mp hn with rfl | rfl
  · injection pair with first _
    exact head (congrArg some first)
  · injection pair with _ pair
    injection pair with second _
    exact head (congrArg some second)

theorem blockText_close {n : Nat} (hn : n ≤ 2) (next : rest.head? ≠ some '"') :
    blockText (List.replicate n '"' ++ '"' :: '"' :: '"' :: rest) =
      some (List.replicate n '"', rest) := by
  rw [replicate_close, blockText, ending_eq hn next]

theorem blockText_escaped (quote : c ≠ '"') (h : blockText cs = some (body, rest)) :
    blockText (escaped c ++ cs) = some (c :: body, rest) := by
  rcases escape_escaped c with ⟨same, slash, clean⟩ | ⟨same, read⟩
  · rw [same]
    exact blockText_plain slash clean (fun same => absurd same quote) h
  · rw [same]
    exact blockText_marked (read cs) h

theorem escaped_ne_nil (c : Char) : escaped c ≠ [] := by
  rcases escape_escaped c with ⟨same, _, _⟩ | ⟨same, _⟩ <;>
    exact same ▸ List.cons_ne_nil _ _

theorem head_escaped (quote : c ≠ '"') (cs : List Char) : (escaped c ++ cs).head? ≠ some '"' := by
  rcases escape_escaped c with ⟨same, _, _⟩ | ⟨same, _⟩
  · rw [same]
    exact fun head => quote (Option.some.inj head)
  · rw [same]
    exact fun head => absurd (Option.some.inj head) (by decide)

-- A run of quotes that go unescaped ends the text or is followed by something else.
theorem spaced_cases {count : Nat} (hc : count ≤ 2) (cs : List Char) :
    (∃ n, cs = List.replicate n '"' ∧ spaced 2 count cs = cs ∧ count + n ≤ 2) ∨
      ∃ n tail, spaced 2 count cs = List.replicate n '"' ++ tail ∧ count + n ≤ 2 ∧ tail ≠ [] ∧
        tail.head? ≠ some '"' := by
  induction cs generalizing count with
  | nil => exact .inl ⟨0, rfl, rfl, hc⟩
  | cons c cs ih =>
      by_cases quote : c = '"'
      · subst quote
        rw [spaced]
        split
        · exact .inr ⟨0, _, rfl, hc, List.cons_ne_nil _ _,
            fun head => absurd (Option.some.inj head) (by decide)⟩
        · have room : count + 1 ≤ 2 := by omega
          rcases ih room with
            ⟨n, rfl, same, hn⟩ | ⟨n, tail, same, hn, ne, head⟩
          · exact .inl ⟨n + 1, rfl, by rw [same], by omega⟩
          · exact .inr ⟨n + 1, tail, by rw [same]; rfl, by omega, ne, head⟩
      · rw [spaced]
        · exact .inr ⟨0, _, rfl, hc, List.append_ne_nil_of_left_ne_nil (escaped_ne_nil c) _,
            head_escaped quote _⟩
        · exact quote

theorem blockText_spaced (next : rest.head? ≠ some '"') {count : Nat} (hc : count ≤ 2) :
    blockText (spaced 2 count cs ++ '"' :: '"' :: '"' :: rest) = some (cs, rest) := by
  induction cs generalizing count with
  | nil => exact blockText_close (Nat.zero_le 2) next
  | cons c cs ih =>
      by_cases quote : c = '"'
      · subst quote
        rw [spaced]
        split
        · exact blockText_marked (c := '"') rfl (ih (Nat.zero_le 2))
        · have room : count + 1 ≤ 2 := by omega
          have deeper := ih room
          rcases spaced_cases room cs with
            ⟨n, rfl, same, hn⟩ | ⟨n, tail, same, hn, ne, head⟩
          · rw [same]
            exact blockText_close (n := n + 1) (by omega) next
          · rw [List.cons_append]
            refine blockText_plain (by decide) (by decide) (fun _ => ?_) deeper
            rw [same]
            exact not_pair (by omega) ne head _
      · rw [spaced, List.append_assoc]
        · exact blockText_escaped quote (ih (Nat.zero_le 2))
        · exact quote

end Block

section Literal

variable {c : Char} {cs body rest : List Char}

theorem blockLiteral_plain (clean : unwritable c = false) (single : c = '\'' → ¬ Pair '\'' cs)
    (h : blockLiteral cs = some (body, rest)) : blockLiteral (c :: cs) = some (c :: body, rest) := by
  rw [blockLiteral]
  · rw [unwritable] at clean
    rw [clean, h]
    rfl
  · exact fun rest quote pair => single quote ⟨rest, pair⟩
  · rintro rest rfl
    exact absurd clean (by decide)

theorem blockLiteral_close {n : Nat} (hn : n ≤ 2) (next : rest.head? ≠ some '\'') :
    blockLiteral (List.replicate n '\'' ++ '\'' :: '\'' :: '\'' :: rest) =
      some (List.replicate n '\'', rest) := by
  rw [replicate_close, blockLiteral, ending_eq hn next]

theorem exists_run (quote : Char) (cs : List Char) :
    ∃ n tail, cs = List.replicate n quote ++ tail ∧ tail.head? ≠ some quote := by
  induction cs with
  | nil => exact ⟨0, [], rfl, nofun⟩
  | cons c cs ih =>
      by_cases same : c = quote
      · subst same
        obtain ⟨n, tail, rfl, head⟩ := ih
        exact ⟨n + 1, tail, rfl, head⟩
      · exact ⟨0, c :: cs, rfl, fun head => same (Option.some.inj head)⟩

theorem le_runs_replicate (quote : Char) (count n : Nat) (tail : List Char) :
    count + n ≤ runs quote count (List.replicate n quote ++ tail) := by
  induction n generalizing count with
  | zero => exact le_runs quote tail count
  | succ n ih =>
      rw [List.replicate_succ, List.cons_append, runs, if_pos rfl]
      have := ih (count + 1)
      omega

theorem blockLiteral_append (next : rest.head? ≠ some '\'') {count : Nat}
    (clean : ∀ c ∈ cs, unwritable c = false) (few : runs '\'' count cs < 3) :
    blockLiteral (cs ++ '\'' :: '\'' :: '\'' :: rest) = some (cs, rest) := by
  induction cs generalizing count with
  | nil => exact blockLiteral_close (Nat.zero_le 2) next
  | cons c cs ih =>
      rw [List.forall_mem_cons] at clean
      by_cases quote : c = '\''
      · subst quote
        rw [runs, if_pos rfl] at few
        have deeper := ih clean.2 few
        obtain ⟨n, tail, rfl, head⟩ := exists_run '\'' cs
        have run := le_runs_replicate '\'' (count + 1) n tail
        cases tail with
        | nil =>
            rw [List.append_nil]
            exact blockLiteral_close (n := n + 1) (by omega) next
        | cons d tail =>
            refine blockLiteral_plain (by decide) (fun _ => ?_) deeper
            exact not_pair (by omega) (List.cons_ne_nil _ _) head _
      · rw [runs, if_neg quote] at few
        exact blockLiteral_plain clean.1 (fun same => absurd same quote)
          (ih clean.2 (Nat.lt_of_le_of_lt (Nat.le_max_right _ _) few))

end Literal

section Scan

variable {cs text rest : List Char}

theorem opened_of_head (line : text.head? ≠ some '\n') (carriage : text.head? ≠ some '\r') :
    opened text = text := by
  unfold opened lineEnd?
  split
  · exact absurd rfl line
  · exact absurd rfl carriage
  · rfl

theorem opened_opening (line : '\n' ∉ cs → text.head? ≠ some '\n')
    (carriage : text.head? ≠ some '\r') : opened ((opening cs).toList ++ text) = text := by
  by_cases several : cs.contains '\n' = true
  · rw [opening, if_pos several]
    rfl
  · rw [opening, if_neg several]
    exact opened_of_head (line (mt List.contains_iff_mem.mpr several)) carriage

theorem scan_lineBasic (line : '\n' ∉ cs) (next : rest.head? ≠ some '"') :
    scan '"' (spaced 0 0 cs ++ '"' :: rest) = (.text (String.ofList cs) false, rest) := by
  rw [scan]
  · rw [lineText_spaced line]
    rfl
  · intro more pair
    cases cs with
    | nil =>
        injection pair with _ pair
        exact next (pair ▸ rfl)
    | cons c cs =>
        by_cases quote : c = '"'
        · subst quote
          rw [spaced, if_pos rfl] at pair
          exact absurd (congrArg List.head? pair) (by simp)
        · rw [spaced, List.append_assoc] at pair
          · exact head_escaped quote _ (congrArg List.head? pair)
          · exact quote

theorem scan_lineLiteral (quote : '\'' ∉ cs) (clean : ∀ c ∈ cs, Lexeme.control c = false)
    (ne : cs ≠ []) : scan '\'' (cs ++ '\'' :: rest) = (.text (String.ofList cs) false, rest) := by
  rw [scan]
  · rw [lineLiteral_append quote clean]
    rfl
  · intro more pair
    obtain ⟨c, cs, rfl⟩ := List.exists_cons_of_ne_nil ne
    injection pair with first _
    exact quote (first ▸ List.mem_cons_self)

theorem head_spaced (cs rest : List Char) {c : Char} (quote : c ≠ '"') (slash : c ≠ '\\')
    (h : c ∉ cs ∨ unwritable c = true) : (spaced 2 0 cs ++ '"' :: rest).head? ≠ some c := by
  cases cs with
  | nil => exact fun head => quote (Option.some.inj head).symm
  | cons d cs =>
      by_cases same : d = '"'
      · subst same
        exact fun head => quote (Option.some.inj head).symm
      · rw [spaced]
        · rcases escape_escaped d with ⟨plain, _, clean⟩ | ⟨marked, _⟩
          · rw [plain]
            intro head
            obtain rfl : d = c := Option.some.inj head
            rw [clean] at h
            simp at h
          · rw [marked]
            exact fun head => slash (Option.some.inj head).symm
        · exact same

theorem scan_blockBasic (next : rest.head? ≠ some '"') :
    scan '"' ('"' :: '"' :: ((opening cs).toList ++ (spaced 2 0 cs ++ '"' :: '"' :: '"' :: rest))) =
      (.text (String.ofList cs) true, rest) := by
  rw [scan, opened_opening, blockText_spaced next (Nat.zero_le 2)]
  · rfl
  · exact fun line => head_spaced cs _ (by decide) (by decide) (.inl line)
  · exact head_spaced cs _ (by decide) (by decide) (.inr rfl)

theorem scan_blockLiteral (clean : ∀ c ∈ cs, unwritable c = false) (few : runs '\'' 0 cs < 3)
    (next : rest.head? ≠ some '\'') :
    scan '\'' ('\'' :: '\'' :: ((opening cs).toList ++ (cs ++ '\'' :: '\'' :: '\'' :: rest))) =
      (.text (String.ofList cs) true, rest) := by
  have head {c : Char} (quote : c ≠ '\'') (h : c ∉ cs) :
      (cs ++ '\'' :: '\'' :: '\'' :: rest).head? ≠ some c := by
    cases cs with
    | nil => exact fun same => quote (Option.some.inj same).symm
    | cons d cs => exact fun same => h (Option.some.inj same ▸ List.mem_cons_self)
  rw [scan, opened_opening (head (by decide)) (head (by decide) (fun mem => ?_)),
    blockLiteral_append next clean few]
  · rfl
  · exact absurd (clean _ mem) (by decide)

inductive Fits (cs : List Char) : Form → Prop
  | lineBasic (line : '\n' ∉ cs) : Fits cs .lineBasic
  | lineLiteral (quote : '\'' ∉ cs) (clean : ∀ c ∈ cs, Lexeme.control c = false)
      (ne : cs ≠ []) : Fits cs .lineLiteral
  | blockBasic : Fits cs .blockBasic
  | blockLiteral (clean : ∀ c ∈ cs, unwritable c = false) (few : runs '\'' 0 cs < 3) :
      Fits cs .blockLiteral

theorem fits_form (cs : List Char) : Fits cs (form cs) := by
  have dirty (clean : (!cs.any unwritable) = true) : ∀ c ∈ cs, unwritable c = false := by
    simpa using clean
  have one (single : (!cs.contains '\n') = true) : '\n' ∉ cs := by
    simpa using single
  simp only [form]
  split
  · rename_i h
    simp only [Bool.and_eq_true] at h
    exact .lineBasic (one h.1.1.2)
  · rename_i simple
    split
    · rename_i h
      simp only [Bool.and_eq_true] at h
      refine .lineLiteral (by simpa using h.2) (fun c hc => ?_) ?_
      · have line : c ≠ '\n' := ne_of_mem_of_not_mem hc (one h.1.2)
        simpa [unwritable, line] using dirty h.1.1 c hc
      · rintro rfl
        exact simple rfl
    · split
      · exact .blockBasic
      · split
        · rename_i h
          simp only [Bool.and_eq_true, decide_eq_true_eq] at h
          exact .blockLiteral (dirty h.1) h.2
        · split
          · rename_i h
            exact .lineBasic (one h)
          · exact .blockBasic

theorem lexAll_cons (c : Char) (cs : List Char) :
    lexAll (c :: cs) = (scan c cs).1 :: lexAll (scan c cs).2 := by
  rw [lexAll]

theorem lexAll_scan {c : Char} {cs : List Char} {l : Lexeme} (h : scan c cs = (l, rest)) :
    lexAll (c :: cs) = l :: lexAll rest := by
  rw [lexAll_cons, h]

def spans : Form → Bool
  | .lineBasic => false
  | .lineLiteral => false
  | .blockBasic => true
  | .blockLiteral => true

theorem lexAll_quoted (text : String) (basic : rest.head? ≠ some '"')
    (literal : rest.head? ≠ some '\'') :
    lexAll ((Quoted.write text).toList ++ rest) =
      .text text (spans (form text.toList)) :: lexAll rest := by
  have fits := fits_form text.toList
  have same := String.ofList_toList (s := text)
  simp only [Quoted.write]
  generalize form text.toList = f at fits
  cases fits with
  | lineBasic line =>
      have scanned := scan_lineBasic line basic
      rw [same] at scanned
      simpa [spans] using lexAll_scan scanned
  | lineLiteral quote clean ne =>
      have scanned : scan '\'' (text.toList ++ '\'' :: rest) = _ :=
        scan_lineLiteral quote clean ne
      rw [same] at scanned
      simpa [spans] using lexAll_scan scanned
  | blockBasic =>
      have scanned : scan '"' ('"' :: '"' :: ((opening text.toList).toList ++
          (spaced 2 0 text.toList ++ '"' :: '"' :: '"' :: rest))) = _ := scan_blockBasic basic
      rw [same] at scanned
      simpa [spans] using lexAll_scan scanned
  | blockLiteral clean few =>
      have scanned := scan_blockLiteral clean few literal
      rw [same] at scanned
      simpa [spans] using lexAll_scan scanned

theorem head_write (text : String) :
    ∃ q, (Quoted.write text).toList.head? = some q ∧ space q = false := by
  simp only [Quoted.write]
  cases form text.toList with
  | lineBasic => exact ⟨'"', by simp, rfl⟩
  | lineLiteral => exact ⟨'\'', by simp, rfl⟩
  | blockBasic => exact ⟨'"', by simp, rfl⟩
  | blockLiteral => exact ⟨'\'', by simp, rfl⟩

end Scan

end Criteria.Toml
