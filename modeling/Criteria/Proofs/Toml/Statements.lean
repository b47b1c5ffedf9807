import Criteria.Proofs.Toml.Lexing

namespace Criteria.Toml

open Lexeme

-- Lexemes that neither open nor close a bracket, nor break the text.
def quiet : Lexeme → Bool
  | .openList => false
  | .closeList => false
  | .openTable => false
  | .closeTable => false
  | .broken => false
  | _ => true

theorem Solid.quiet {l : Lexeme} (h : Solid l) : quiet l = true := by
  cases h <;> rfl

theorem step_quiet {l : Lexeme} (h : quiet l = true) (n : Nest) :
    n.step l = some { n with cells := .mark l :: n.cells } := by
  cases l <;> first | rfl | cases h

theorem foldlM_quiet {ls : List Lexeme} (h : ∀ l ∈ ls, quiet l = true) (n : Nest) :
    ls.foldlM Nest.step n = some { n with cells := (ls.map .mark).reverse ++ n.cells } := by
  induction ls generalizing n with
  | nil => rfl
  | cons l ls ih =>
      rw [List.forall_mem_cons] at h
      rw [List.foldlM_cons, step_quiet h.1]
      refine (ih h.2 _).trans ?_
      simp

theorem leave_list {outer : List (Bracket × List Cell)} {before cells : List Cell} {v : Value}
    (h : Cell.list? cells.reverse = some v) :
    Nest.step ⟨(.list, before) :: outer, cells⟩ .closeList =
      some ⟨outer, .value v :: before⟩ := by
  simp [Nest.step, Nest.leave, Bracket.close?, h]

namespace Statement

def lead (name : String) : List Lexeme :=
  [.word name, .blank true, .equals, .blank true]

theorem quiet_lead {name : String} : ∀ l ∈ lead name, quiet l = true ∧ l ≠ .newline := by
  simp [lead, quiet]

theorem split_ne_nil (depth : Nat) (ls : List Lexeme) : split depth ls ≠ [] := by
  cases ls with
  | nil => exact List.cons_ne_nil _ _
  | cons l ls =>
      rw [split]
      split
      · exact List.cons_ne_nil _ _
      · split <;> exact List.cons_ne_nil _ _

theorem split_cons {depth : Nat} {l : Lexeme} (h : depth ≠ 0 ∨ l ≠ .newline) (ls : List Lexeme) :
    split depth (l :: ls) = (split (shift depth l) ls).modifyHead (l :: ·) := by
  have inside : ¬ (decide (depth = 0) && decide (l = .newline)) = true := by
    rw [Bool.and_eq_true, decide_eq_true_eq, decide_eq_true_eq, not_and_or]
    exact h
  obtain ⟨s, rest, hs⟩ := List.exists_cons_of_ne_nil (split_ne_nil (shift depth l) ls)
  rw [split, if_neg inside, hs]
  rfl

theorem split_quiet {depth : Nat} {ls : List Lexeme}
    (h : ∀ l ∈ ls, quiet l = true ∧ (depth ≠ 0 ∨ l ≠ .newline)) (more : List Lexeme) :
    split depth (ls ++ more) = (split depth more).modifyHead (ls ++ ·) := by
  induction ls with
  | nil => exact (congrFun List.modifyHead_id _).symm
  | cons l ls ih =>
      rw [List.forall_mem_cons] at h
      have level : shift depth l = depth := by
        cases l <;> first | rfl | cases h.1.1
      rw [List.cons_append, split_cons h.1.2, level, ih h.2, List.modifyHead_modifyHead]
      rfl

end Statement

section Trimming

variable {α : Type} {loose : α → Bool} {front cells back : List α}

theorem dropWhile_of_head (h : ∀ c ∈ cells.head?, loose c = false) :
    cells.dropWhile loose = cells := by
  cases cells with
  | nil => rfl
  | cons c cells => rw [List.dropWhile_cons_of_neg (by simp [h c rfl])]

theorem dropWhile_of_all (h : ∀ c ∈ cells, loose c = true) : cells.dropWhile loose = [] := by
  simpa using h

theorem trim_between (hf : ∀ c ∈ front, loose c = true) (hb : ∀ c ∈ back, loose c = true)
    (first : ∀ c ∈ cells.head?, loose c = false) (last : ∀ c ∈ cells.getLast?, loose c = false) :
    (((front ++ (cells ++ back)).dropWhile loose).reverse.dropWhile loose).reverse = cells := by
  rw [List.dropWhile_append_of_pos hf]
  cases cells with
  | nil =>
      rw [List.nil_append, dropWhile_of_all hb]
      rfl
  | cons c cs =>
      have start : (c :: cs ++ back).dropWhile loose = c :: cs ++ back := dropWhile_of_head first
      have finish : (c :: cs).reverse.dropWhile loose = (c :: cs).reverse :=
        dropWhile_of_head (by rwa [List.head?_reverse])
      have behind : ∀ c ∈ back.reverse, loose c = true := fun c hc => hb c (List.mem_reverse.mp hc)
      rw [start, List.reverse_append, List.dropWhile_append_of_pos behind, finish,
        List.reverse_reverse]

end Trimming

namespace Cell

theorem trimmed_between {loose : Cell → Bool} {front cells back : List Cell}
    (hf : ∀ c ∈ front, loose c = true) (h : ∀ c ∈ cells, loose c = false)
    (hb : ∀ c ∈ back, loose c = true) : trimmed loose (front ++ (cells ++ back)) = cells :=
  trim_between hf hb (fun c hc => h c (List.mem_of_mem_head? hc))
    (fun c hc => h c (List.mem_of_getLast? hc))

theorem idle_solid {ls : List Lexeme} (h : ∀ l ∈ ls, Solid l) :
    ∀ c ∈ ls.map Cell.mark, idle c = false := by
  intro c hc
  obtain ⟨l, hl, rfl⟩ := List.mem_map.mp hc
  cases h l hl <;> rfl

theorem isMark_solid {ls : List Lexeme} {m : Lexeme} (h : ∀ l ∈ ls, Solid l) (hm : ¬ Solid m) :
    ∀ c ∈ ls.map Cell.mark, isMark m c = false := by
  intro c hc
  obtain ⟨l, hl, rfl⟩ := List.mem_map.mp hc
  exact decide_eq_false (fun same => hm (same ▸ h l hl))

-- Rows of a list in several lines, each of them indented and closed by a comma.
def rows (lss : List (List Lexeme)) : List Lexeme :=
  lss.flatMap (fun ls => .blank false :: ls ++ [.comma, .newline])

theorem cut_rows {lss : List (List Lexeme)} (h : ∀ ls ∈ lss, ∀ l ∈ ls, Solid l) :
    (Text.cut (isMark .comma) ((.newline :: rows lss).map .mark)).map (trimmed idle) =
      lss.map (List.map .mark) ++ [[]] := by
  induction lss with
  | nil => rfl
  | cons ls lss ih =>
      rw [List.forall_mem_cons] at h
      have row : (Lexeme.newline :: rows (ls :: lss)).map Cell.mark =
          ([Cell.mark .newline, .mark (.blank false)] ++ ls.map .mark) ++
            Cell.mark .comma :: (Lexeme.newline :: rows lss).map .mark := by
        simp [rows]
      have whole : Text.cut (isMark .comma)
          ([Cell.mark .newline, .mark (.blank false)] ++ ls.map Cell.mark) =
            [[Cell.mark .newline, .mark (.blank false)] ++ ls.map Cell.mark] := by
        refine Text.cut_eq_singleton (List.forall_mem_append.mpr ⟨?_, isMark_solid h.1 nofun⟩)
        simp [isMark]
      have kept : trimmed idle ([Cell.mark .newline, .mark (.blank false)] ++ ls.map Cell.mark) =
          ls.map Cell.mark := by
        have between : trimmed idle ([Cell.mark .newline, .mark (.blank false)] ++
            (ls.map Cell.mark ++ [])) = ls.map Cell.mark :=
          trimmed_between (by simp [idle]) (idle_solid h.1) nofun
        rwa [List.append_nil] at between
      rw [row, Text.cut_append rfl, List.map_append, ih h.2, whole, List.map_singleton, kept]
      rfl

theorem parts_rows {lss : List (List Lexeme)} (h : ∀ ls ∈ lss, ∀ l ∈ ls, Solid l) :
    parts ((.newline :: rows lss).map .mark) = lss.map (List.map .mark) := by
  have all := cut_rows h
  rw [parts, all]
  simp

theorem parts_solid {ls : List Lexeme} (ne : ls ≠ []) (h : ∀ l ∈ ls, Solid l) :
    parts (ls.map .mark) = [ls].map (List.map .mark) := by
  have whole : Text.cut (isMark .comma) (ls.map .mark) = [ls.map .mark] :=
    Text.cut_eq_singleton (isMark_solid h nofun)
  have kept : trimmed idle ([] ++ (ls.map .mark ++ [])) = ls.map .mark :=
    trimmed_between nofun (idle_solid h) nofun
  rw [List.nil_append, List.append_nil] at kept
  simp [parts, whole, kept, ne]

theorem list?_of_forall₂ {cells : List Cell} {lss : List (List Lexeme)} {items : List Value}
    (h : List.Forall₂ Spells lss items) (same : parts cells = lss.map (List.map .mark)) :
    list? cells = some (.array items) := by
  have read : (lss.map (List.map Cell.mark)).mapM single? = some items := by
    clear same
    induction h with
    | nil => rfl
    | cons first _ ih =>
        rw [List.map_cons, List.mapM_cons, first.read, ih]
        rfl
  rw [list?, same, read]
  rfl

end Cell

-- What the lexemes of a value are gathered to.
structure Gathered (ls : List Lexeme) (cells : List Cell) (v : Value) : Prop where
  fold : ∀ before, ls.foldlM Nest.step { cells := before } =
    some { cells := cells.reverse ++ before }
  solid : ∀ c ∈ cells, c.idle = false ∧ c.isMark .equals = false
  read : Cell.single? cells = some v

structure Gives (ls : List Lexeme) (v : Value) : Prop where
  gathered : ∃ cells, Gathered ls cells v
  sealed : ∀ rest, Statement.split 0 (ls ++ .newline :: rest) = ls :: Statement.split 0 rest
  last : ∃ l, ls.getLast? = some l ∧ Statement.isBlank l = false

theorem Spells.gives {ls : List Lexeme} {v : Value} (h : Spells ls v) : Gives ls v where
  gathered := by
    refine ⟨ls.map .mark, fun before => ?_, fun c hc => ⟨?_, ?_⟩, h.read⟩
    · exact foldlM_quiet (fun l hl => (h.solid l hl).quiet) _
    · exact Cell.idle_solid h.solid c hc
    · exact Cell.isMark_solid (m := .equals) h.solid nofun c hc
  sealed rest := by
    have level : ∀ l ∈ ls, quiet l = true ∧ ((0 : Nat) ≠ 0 ∨ l ≠ .newline) := fun l hl =>
      ⟨(h.solid l hl).quiet, .inr (fun same => nomatch same ▸ h.solid l hl)⟩
    rw [Statement.split_quiet level]
    simp [Statement.split]
  last := by
    have solid := h.solid _ (List.getLast_mem h.ne_nil)
    refine ⟨ls.getLast h.ne_nil, List.getLast?_eq_some_getLast h.ne_nil, ?_⟩
    generalize ls.getLast h.ne_nil = l at solid
    cases solid <;> rfl

theorem gives_list {inner : List Lexeme} {items : List Value} (quiet : ∀ l ∈ inner, quiet l = true)
    (read : Cell.list? (inner.map .mark) = some (.array items)) :
    Gives (Lexeme.openList :: inner ++ [Lexeme.closeList]) (.array items) where
  gathered := by
    refine ⟨[.value (.array items)], fun before => ?_, by simp [Cell.idle, Cell.isMark], rfl⟩
    have entered : Nest.step { cells := before } .openList = some ⟨[(.list, before)], []⟩ := rfl
    have left : Nest.step ⟨[(.list, before)], (inner.map Cell.mark).reverse ++ []⟩ .closeList =
        some { cells := .value (.array items) :: before } := by
      rw [List.append_nil]
      exact leave_list (by rwa [List.reverse_reverse])
    rw [List.cons_append, List.foldlM_cons, entered]
    change (inner ++ [Lexeme.closeList]).foldlM Nest.step _ = _
    rw [List.foldlM_append, foldlM_quiet quiet]
    change [Lexeme.closeList].foldlM Nest.step _ = _
    rw [List.foldlM_cons, left]
    rfl
  sealed rest := by
    have level : ∀ l ∈ inner, Toml.quiet l = true ∧ (1 ≠ 0 ∨ l ≠ .newline) :=
      fun l hl => ⟨quiet l hl, .inl Nat.one_ne_zero⟩
    rw [List.cons_append, List.cons_append, Statement.split_cons (l := .openList) (.inr nofun),
      List.append_assoc]
    change (Statement.split 1 _).modifyHead _ = _
    rw [Statement.split_quiet level, List.singleton_append,
      Statement.split_cons (l := .closeList) (.inl Nat.one_ne_zero)]
    simp [Statement.shift, Statement.split]
  last := ⟨.closeList, List.getLast?_concat, rfl⟩

section Lists

variable {lss : List (List Lexeme)} {items : List Value}

theorem exists_items (h : ∀ v ∈ items, Atom v) :
    ∃ lss, List.Forall₂ Spells lss items ∧
      List.Forall₂ (fun ls v => Written v.inline.toList ls) lss items := by
  induction items with
  | nil => exact ⟨[], .nil, .nil⟩
  | cons v items ih =>
      rw [List.forall_mem_cons] at h
      obtain ⟨ls, spells, written⟩ := exists_atom h.1
      obtain ⟨lss, all, each⟩ := ih h.2
      exact ⟨ls :: lss, .cons spells all, .cons written each⟩

theorem solid_of_forall₂ (h : List.Forall₂ Spells lss items) : ∀ ls ∈ lss, ∀ l ∈ ls, Solid l := by
  induction h with
  | nil => exact nofun
  | cons first _ ih => exact List.forall_mem_cons.mpr ⟨first.solid, ih⟩

theorem lexAll_row {text : List Char} {ls : List Lexeme} (h : Written text ls)
    (rest : List Char) :
    lexAll (' ' :: ' ' :: ' ' :: ' ' :: (text ++ ',' :: '\n' :: rest)) =
      .blank false :: (ls ++ .comma :: .newline :: lexAll rest) := by
  obtain ⟨c, head, apart⟩ := h.first
  obtain ⟨tail, rfl⟩ := List.head?_eq_some_iff.mp head
  rw [List.cons_append, lexAll_indent apart, ← List.cons_append,
    h.lex _ ⟨',', _, rfl, by decide⟩, lexAll_mark (l := .comma) (by decide),
    lexAll_mark (l := .newline) (by decide)]

theorem lexAll_rows (h : List.Forall₂ (fun ls v => Written v.inline.toList ls) lss items)
    (rest : List Char) :
    lexAll ((String.join ((Value.inlineItems items).map (fun s => "    " ++ s ++ ",\n"))).toList ++
      rest) = Cell.rows lss ++ lexAll rest := by
  induction h with
  | nil => simp [Value.inlineItems, Cell.rows]
  | cons first _ ih =>
      rw [String.toList_join] at ih ⊢
      simp [Value.inlineItems, lexAll_row first, ih, Cell.rows]

theorem quiet_rows (h : ∀ ls ∈ lss, ∀ l ∈ ls, Solid l) : ∀ l ∈ Cell.rows lss, quiet l = true := by
  intro l hl
  obtain ⟨ls, hls, hl⟩ := List.mem_flatMap.mp hl
  simp only [List.cons_append, List.mem_cons, List.mem_append, List.not_mem_nil, or_false] at hl
  rcases hl with rfl | hl | rfl | rfl
  · rfl
  · exact (h ls hls l hl).quiet
  · rfl
  · rfl

theorem written_list {text : List Char} {inner : List Lexeme}
    (h : ∀ rest, lexAll (text ++ ']' :: rest) = inner ++ .closeList :: lexAll rest) :
    Written ('[' :: text ++ [']']) (Lexeme.openList :: inner ++ [Lexeme.closeList]) where
  first := ⟨'[', rfl, by decide⟩
  lex rest _ := by
    rw [List.cons_append, List.cons_append, lexAll_mark (l := .openList) (by decide),
      List.append_assoc, List.singleton_append, h]
    simp

theorem lexAll_close (rest : List Char) : lexAll (']' :: rest) = .closeList :: lexAll rest :=
  lexAll_mark (by decide) rest

theorem exists_of_inner {text : List Char} {inner : List Lexeme}
    (line : (Value.array items).line.toList = '[' :: text ++ [']'])
    (lex : ∀ rest, lexAll (text ++ ']' :: rest) = inner ++ .closeList :: lexAll rest)
    (quiet : ∀ l ∈ inner, quiet l = true)
    (read : Cell.list? (inner.map .mark) = some (.array items)) :
    ∃ ls, Gives ls (.array items) ∧ Written (Value.array items).line.toList ls :=
  ⟨_, gives_list quiet read, line ▸ written_list lex⟩

theorem exists_list (h : ∀ v ∈ items, Atom v) :
    ∃ ls, Gives ls (.array items) ∧ Written (Value.array items).line.toList ls := by
  obtain ⟨lss, spells, written⟩ := exists_items h
  have solid := solid_of_forall₂ spells
  cases items with
  | nil =>
      have line : (Value.array []).line.toList = '[' :: [] ++ [']'] := rfl
      have lex (rest : List Char) : lexAll ([] ++ ']' :: rest) = [] ++ .closeList :: lexAll rest :=
        lexAll_close rest
      exact exists_of_inner line lex (List.forall_mem_nil _) rfl
  | cons v items =>
      cases items with
      | nil =>
          obtain ⟨ls, _, first, none, rfl⟩ := List.forall₂_cons_right_iff.mp spells
          cases none
          cases written with
          | cons text _ =>
          rw [List.forall_mem_singleton] at solid
          have line : (Value.array [v]).line.toList = '[' :: v.inline.toList ++ [']'] := by
            simp [Value.line, Value.inline, Value.inlineItems]
          refine exists_of_inner line (fun rest => ?_) (fun l hl => (solid l hl).quiet)
            (Cell.list?_of_forall₂ spells (Cell.parts_solid first.ne_nil solid))
          rw [text.lex _ ⟨']', rest, rfl, by decide⟩, lexAll_close]
      | cons w items =>
          have line : (Value.array (v :: w :: items)).line.toList = '[' :: ('\n' ::
              (String.join ((Value.inlineItems (v :: w :: items)).map
                (fun s => "    " ++ s ++ ",\n"))).toList) ++ [']'] := by
            simp [Value.line]
          refine exists_of_inner line (fun rest => ?_)
            (List.forall_mem_cons.mpr ⟨rfl, quiet_rows solid⟩)
            (Cell.list?_of_forall₂ spells (Cell.parts_rows solid))
          rw [List.cons_append, lexAll_mark (l := .newline) (by decide), lexAll_rows written,
            lexAll_close]
          rfl

-- Values of a section: atoms and lists of atoms.
inductive Flat : Value → Prop
  | atom {v : Value} (h : Atom v) : Flat v
  | list {items : List Value} (h : ∀ v ∈ items, Atom v) : Flat (.array items)

theorem Atom.line_eq {v : Value} (h : Atom v) : v.line = v.inline := by
  cases h <;> rfl

theorem exists_line {v : Value} (h : Flat v) : ∃ ls, Gives ls v ∧ Written v.line.toList ls := by
  cases h with
  | atom h =>
      obtain ⟨ls, spells, written⟩ := exists_atom h
      exact ⟨ls, spells.gives, h.line_eq ▸ written⟩
  | list h => exact exists_list h

end Lists

namespace Statement

theorem apply_blank (p : Page) : apply p [] = some p := rfl

theorem route?_bare {name : String} (h : Cell.bare name = true) :
    Cell.route? [.mark (.word name)] = some [name] := by
  have whole : Text.cut (Cell.isMark .dot) [.mark (.word name)] = [[.mark (.word name)]] := rfl
  have named : Cell.name? (.mark (.word name)) = some name := if_pos h
  simp [Cell.route?, whole, Cell.isBlank, named, Cell.longest]

theorem apply_heading {name : String} (h : Cell.bare name = true) (p : Page) :
    apply p [.openList, .word name, .closeList] = p.declare false [name] := by
  change (Cell.route? [.mark (.word name)]).bind _ = _
  rw [route?_bare h]
  rfl

theorem gather_pair {name : String} {ls : List Lexeme} {cells : List Cell} {v : Value}
    (given : Gathered ls cells v) :
    Nest.gather (lead name ++ ls) = some ((lead name).map .mark ++ cells) := by
  rw [Nest.gather, List.foldlM_append, foldlM_quiet (fun l hl => (quiet_lead l hl).1)]
  change (ls.foldlM Nest.step _).bind _ = _
  rw [given.fold]
  simp

theorem pair?_cells {name : String} (h : Cell.bare name = true) {ls : List Lexeme}
    {cells : List Cell} {v : Value} (given : Gathered ls cells v) :
    Cell.pair? ((lead name).map .mark ++ cells) = some ([name], v) := by
  have behind : Text.cut (Cell.isMark .equals) (.mark (.blank true) :: cells) =
      [.mark (.blank true) :: cells] :=
    Text.cut_eq_singleton (List.forall_mem_cons.mpr ⟨rfl, fun c hc => (given.solid c hc).2⟩)
  have halves : Text.cut (Cell.isMark .equals) ((lead name).map .mark ++ cells) =
      [[.mark (.word name), .mark (.blank true)], .mark (.blank true) :: cells] := by
    rw [← behind]
    have equals : Cell.isMark .equals (.mark .equals) = true := rfl
    exact Text.cut_append equals [.mark (.word name), .mark (.blank true)] _
  have front : Cell.trimmed Cell.idle [.mark (.word name), .mark (.blank true)] =
      [.mark (.word name)] := rfl
  have back : Cell.trimmed Cell.idle (.mark (.blank true) :: cells) = cells := by
    have between : Cell.trimmed Cell.idle ([Cell.mark (.blank true)] ++ (cells ++ [])) = cells :=
      Cell.trimmed_between (by simp [Cell.idle]) (fun c hc => (given.solid c hc).1) nofun
    rwa [List.append_nil] at between
  rw [Cell.pair?, halves]
  simp [front, back, route?_bare h, given.read]

theorem trimmed_pair {name : String} {ls : List Lexeme} {v : Value} (given : Gives ls v) :
    trimmed (lead name ++ ls) = lead name ++ ls := by
  obtain ⟨l, last, solid⟩ := given.last
  have whole : trimmed ([] ++ ((lead name ++ ls) ++ [])) = lead name ++ ls :=
    trim_between nofun nofun (by simp [lead, isBlank])
      (by simp [lead, List.getLast?_cons, last, solid])
  rwa [List.nil_append, List.append_nil] at whole

theorem apply_pair {name : String} (h : Cell.bare name = true) {ls : List Lexeme} {v : Value}
    (given : Gives ls v) (p : Page) : apply p (lead name ++ ls) = p.assign [name] v := by
  obtain ⟨cells, gathered⟩ := given.gathered
  rw [apply, trimmed_pair given]
  change (Nest.gather (lead name ++ ls)).bind _ = _
  rw [gather_pair gathered]
  change (Cell.pair? _).bind _ = _
  rw [pair?_cells h gathered]
  rfl

end Statement

end Criteria.Toml
