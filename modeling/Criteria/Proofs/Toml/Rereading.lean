import Criteria.Proofs.Toml.Statements

namespace Criteria.Toml

open Lexeme

def readFrom (p : Page) (cs : List Char) : Option Page :=
  (Statement.split 0 (lexAll cs)).foldlM Statement.apply p

section Steps

variable {p : Page} {name : String} {rest : List Char}

theorem read_eq {text : String} (h : text.toList.head? ≠ some '\uFEFF') :
    read text = (readFrom {} text.toList).map Page.finish := by
  have same : lex text = lexAll text.toList := by
    rw [lex, unmarked]
    rintro tail marked
    exact h (by rw [marked]; rfl)
  rw [read, same, Option.map_eq_bind]
  rfl

theorem readFrom_nil (p : Page) : readFrom p [] = some p := by
  rw [readFrom, lexAll]
  rfl

theorem readFrom_of_split {cs : List Char} {ls : List Lexeme}
    (h : Statement.split 0 (lexAll cs) = ls :: Statement.split 0 (lexAll rest)) :
    readFrom p cs = (Statement.apply p ls).bind (readFrom · rest) := by
  rw [readFrom, h, List.foldlM_cons]
  rfl

theorem readFrom_blank (p : Page) (rest : List Char) :
    readFrom p ('\n' :: rest) = readFrom p rest := by
  have split : Statement.split 0 (lexAll ('\n' :: rest)) = [] :: Statement.split 0 (lexAll rest) := by
    rw [lexAll_mark (l := .newline) (by decide), Statement.split]
    rfl
  rw [readFrom_of_split split, Statement.apply_blank]
  rfl

structure Named (name : String) : Prop where
  bare : Cell.bare name = true
  ne_nil : name.toList ≠ []

theorem Named.key_eq (h : Named name) : key name = name := by
  have full : name.isEmpty = false := by
    rw [Bool.eq_false_iff, Ne, String.isEmpty_iff]
    rintro rfl
    exact h.ne_nil rfl
  simp [key, h.bare, full]

theorem Named.delimiter (h : Named name) : ∀ c ∈ name.toList, delimiter c = false := by
  intro c hc
  have plain := List.all_eq_true.mp h.bare c hc
  rw [Lexeme.delimiter, Bool.eq_false_iff, Ne, List.contains_iff_mem]
  intro mark
  simp only [List.mem_cons, List.not_mem_nil, or_false] at mark
  rcases mark with rfl | rfl | rfl | rfl | rfl | rfl | rfl | rfl | rfl | rfl | rfl | rfl | rfl | rfl <;>
    exact absurd plain (by decide)

theorem readFrom_heading (h : Named name) (p : Page) (rest : List Char) :
    readFrom p ('[' :: (name.toList ++ ']' :: '\n' :: rest)) =
      (p.declare false [name]).bind (readFrom · rest) := by
  have split : Statement.split 0 (lexAll ('[' :: (name.toList ++ ']' :: '\n' :: rest))) =
      [.openList, .word name, .closeList] :: Statement.split 0 (lexAll rest) := by
    rw [lexAll_mark (l := .openList) (by decide), lexAll_word h.ne_nil h.delimiter rfl,
      lexAll_mark (l := .closeList) (by decide), lexAll_mark (l := .newline) (by decide),
      String.ofList_toList]
    simp [Statement.split, Statement.shift]
  rw [readFrom_of_split split, Statement.apply_heading h.bare]

theorem readFrom_pair (h : Named name) {v : Value} (flat : Flat v) (p : Page)
    (rest : List Char) :
    readFrom p (name.toList ++ ' ' :: '=' :: ' ' :: (v.line.toList ++ '\n' :: rest)) =
      (p.assign [name] v).bind (readFrom · rest) := by
  obtain ⟨ls, gives, written⟩ := exists_line flat
  obtain ⟨c, head, apart⟩ := written.first
  have given : lexAll (' ' :: (v.line.toList ++ '\n' :: rest)) =
      .blank true :: (ls ++ .newline :: lexAll rest) := by
    obtain ⟨tail, line⟩ := List.head?_eq_some_iff.mp head
    have value := written.lex _ ⟨'\n', rest, rfl, by decide⟩
    rw [lexAll_mark (c := '\n') (l := .newline) (by decide), line, List.cons_append] at value
    rw [line, List.cons_append, lexAll_blank apart, value]
  have split : Statement.split 0
      (lexAll (name.toList ++ ' ' :: '=' :: ' ' :: (v.line.toList ++ '\n' :: rest))) =
      (Statement.lead name ++ ls) :: Statement.split 0 (lexAll rest) := by
    rw [lexAll_word h.ne_nil h.delimiter rfl, lexAll_blank rfl,
      lexAll_mark (l := .equals) (by decide), given, String.ofList_toList]
    have front : ∀ l ∈ Statement.lead name, quiet l = true ∧ ((0 : Nat) ≠ 0 ∨ l ≠ .newline) :=
      fun l hl => (Statement.quiet_lead l hl).imp_right .inr
    have whole := Statement.split_quiet front (ls ++ .newline :: lexAll rest)
    rwa [gives.sealed] at whole
  rw [readFrom_of_split split, Statement.apply_pair h.bare gives]

end Steps

namespace Draft

variable {key : String} {d e : Draft} {entries : Entries}

theorem lookup_eq_none (h : key ∉ entries.map Prod.fst) : entries.lookup key = none := by
  rw [List.lookup_eq_none_iff]
  intro f hf
  rw [bne_iff_ne]
  rintro rfl
  exact h (List.mem_map_of_mem hf)

theorem put_of_not_mem (h : key ∉ entries.map Prod.fst) :
    put key d entries = entries ++ [(key, d)] := by
  induction entries with
  | nil => rfl
  | cons f entries ih =>
      rw [List.map_cons, List.mem_cons, not_or] at h
      rw [put, if_neg (Ne.symm h.1), ih h.2, List.cons_append]

theorem put_last (h : key ∉ entries.map Prod.fst) :
    put key d (entries ++ [(key, e)]) = entries ++ [(key, d)] := by
  induction entries with
  | nil => exact if_pos rfl
  | cons f entries ih =>
      rw [List.map_cons, List.mem_cons, not_or] at h
      rw [List.cons_append, put, if_neg (Ne.symm h.1), ih h.2, List.cons_append]

theorem lookup_last (h : key ∉ entries.map Prod.fst) :
    (entries ++ [(key, d)]).lookup key = some d := by
  rw [List.lookup_append, lookup_eq_none h]
  simp

def pairs (t : Table) : Entries :=
  t.map (fun e => (e.1, .value e.2))

def parted (sections : List (String × Table)) : Entries :=
  sections.map (fun s => (s.1, .table .declared (pairs s.2)))

theorem settleAll_pairs (t : Table) : settleAll (pairs t) = t := by
  induction t with
  | nil => rfl
  | cons e t ih => exact congrArg (e :: ·) ih

end Draft

def document (sections : List (String × Table)) : Table :=
  sections.map (fun s => (s.1, .table s.2))

theorem settleAll_parted (sections : List (String × Table)) :
    Draft.settleAll (Draft.parted sections) = document sections := by
  induction sections with
  | nil => rfl
  | cons s sections ih =>
      change (s.1, Draft.settle (.table .declared (Draft.pairs s.2))) ::
        Draft.settleAll (Draft.parted sections) = _
      rw [Draft.settle, Draft.settleAll_pairs, ih]
      rfl

section Pages

variable {front : Draft.Entries} {name : String} {t more : Table}

-- The page behind the pairs of its last section.
def Page.within (front : Draft.Entries) (name : String) (t : Table) : Page :=
  ⟨front ++ [(name, .table .declared (Draft.pairs t))], [name]⟩

theorem declare_within {p : Page} (h : name ∉ p.entries.map Prod.fst) :
    p.declare false [name] = some (.within p.entries name []) := by
  have opened : Draft.declare name .declared p.entries =
      some (p.entries ++ [(name, .table .declared [])]) := by
    rw [Draft.declare, Draft.lookup_eq_none h, Draft.put_of_not_mem h]
  change (Draft.declare name .declared p.entries).bind _ = _
  rw [opened]
  rfl

theorem assign_within (h : name ∉ front.map Prod.fst) {key : String}
    (fresh : key ∉ t.map Prod.fst) (v : Value) :
    (Page.within front name t).assign [key] v = some (.within front name (t ++ [(key, v)])) := by
  have fresh : key ∉ (Draft.pairs t).map Prod.fst := by
    rwa [Draft.pairs, List.map_map]
  have inner : Draft.assign [key] v (Draft.pairs t) = some (Draft.pairs (t ++ [(key, v)])) := by
    change Draft.insert key v true .declared (Draft.pairs t) = _
    rw [Draft.insert, if_neg (by decide), Draft.lookup_eq_none fresh, Draft.put_of_not_mem fresh]
    simp [Draft.pairs]
  simp [Page.assign, Page.within, Draft.descend, Draft.lookup_last h, inner, Draft.put_last h]

theorem pairLines_cons {key : String} (h : Named key) (v : Value) (t : Table) :
    (Table.pairLines ((key, v) :: t)).toList =
      key.toList ++ ' ' :: '=' :: ' ' :: (v.line.toList ++ '\n' :: (Table.pairLines t).toList) := by
  simp [Table.pairLines, h.key_eq]

theorem readFrom_pairLines (h : name ∉ front.map Prod.fst)
    (fits : ∀ e ∈ more, Named e.1 ∧ Flat e.2) (once : ((t ++ more).map Prod.fst).Nodup)
    (rest : List Char) :
    readFrom (.within front name t) ((Table.pairLines more).toList ++ rest) =
      readFrom (.within front name (t ++ more)) rest := by
  induction more generalizing t with
  | nil => simp [Table.pairLines]
  | cons e more ih =>
      obtain ⟨key, v⟩ := e
      rw [List.forall_mem_cons] at fits
      have fresh : key ∉ t.map Prod.fst := by
        rw [List.map_append, List.map_cons, List.nodup_append] at once
        exact fun hk => once.2.2 _ hk _ List.mem_cons_self rfl
      rw [List.append_cons] at once ⊢
      rw [pairLines_cons fits.1.1, List.append_assoc, List.cons_append, List.cons_append,
        List.cons_append, List.append_assoc, List.cons_append,
        readFrom_pair fits.1.1 fits.1.2, assign_within h fresh, ← ih fits.2 once]
      rfl

end Pages

section Documents

variable {done sections : List (String × Table)}

structure Laid (sections : List (String × Table)) : Prop where
  once : (sections.map Prod.fst).Nodup
  named : ∀ s ∈ sections, Named s.1
  each : ∀ s ∈ sections, (s.2.map Prod.fst).Nodup
  fits : ∀ s ∈ sections, ∀ e ∈ s.2, Named e.1 ∧ Flat e.2

theorem readFrom_section {s : String × Table} (h : Laid (done ++ s :: sections)) {p : Page}
    (here : p.entries = Draft.parted done) (rest : List Char) :
    ∃ q, q.entries = Draft.parted (done ++ [s]) ∧
      readFrom p (("[" ++ key s.1 ++ "]\n" ++ Table.pairLines s.2).toList ++ rest) =
        readFrom q rest := by
  have mem : s ∈ done ++ s :: sections := by simp
  have fresh : s.1 ∉ (Draft.parted done).map Prod.fst := by
    have once := h.once
    rw [List.map_append, List.map_cons, List.nodup_append] at once
    rw [Draft.parted, List.map_map]
    exact fun hs => once.2.2 _ hs _ List.mem_cons_self rfl
  refine ⟨.within (Draft.parted done) s.1 s.2, by simp [Page.within, Draft.parted], ?_⟩
  have lines := readFrom_pairLines (t := []) fresh (h.fits s mem) (h.each s mem) rest
  have opened := readFrom_heading (h.named s mem) p ((Table.pairLines s.2).toList ++ rest)
  rw [declare_within (here ▸ fresh), here] at opened
  rw [List.nil_append] at lines
  rw [← lines, (h.named s mem).key_eq]
  simpa using opened

theorem readFrom_sections (h : Laid (done ++ sections)) {p : Page}
    (here : p.entries = Draft.parted done) :
    (readFrom p (String.intercalate "\n" (Table.sections (document sections))).toList).map
      Page.finish = some (document (done ++ sections)) := by
  induction sections generalizing done p with
  | nil =>
      change (readFrom p []).map Page.finish = _
      rw [readFrom_nil, List.append_nil, ← settleAll_parted, ← here]
      rfl
  | cons s sections ih =>
      have shifted := List.append_cons done s sections
      cases sections with
      | nil =>
          obtain ⟨q, hq, same⟩ := readFrom_section h here []
          rw [List.append_nil] at same
          change (readFrom p (String.intercalate "\n" [_]).toList).map _ = _
          rw [String.intercalate_singleton, same, readFrom_nil, ← settleAll_parted, ← hq]
          rfl
      | cons next sections =>
          obtain ⟨q, hq, same⟩ := readFrom_section h here
            ("\n" ++ String.intercalate "\n" (Table.sections (document (next :: sections)))).toList
          have later := ih (shifted ▸ h) hq
          change (readFrom p (String.intercalate "\n" (_ :: _ :: _)).toList).map _ = _
          rw [String.intercalate_cons_cons, String.append_assoc, String.toList_append]
          change (readFrom p (_ ++ ("\n" ++ String.intercalate "\n"
            (Table.sections (document (next :: sections)))).toList)).map _ = _
          rw [same, String.toList_append, shifted, ← later]
          exact congrArg _ (readFrom_blank q _)

theorem loose_document (sections : List (String × Table)) :
    Table.loose (document sections) = [] := by
  induction sections with
  | nil => rfl
  | cons s sections ih => exact ih

theorem head_document (sections : List (String × Table)) :
    (Table.write (document sections)).toList.head? ≠ some '\uFEFF' := by
  rw [Table.write, loose_document]
  cases sections with
  | nil => decide
  | cons s sections =>
      cases sections with
      | nil =>
          change (String.intercalate "\n" [_]).toList.head? ≠ _
          simp
      | cons next sections =>
          change (String.intercalate "\n" (_ :: _ :: _)).toList.head? ≠ _
          rw [String.intercalate_cons_cons]
          simp

theorem read_write (h : Laid sections) :
    read (Table.write (document sections)) = some (document sections) := by
  have laid : Laid ([] ++ sections) := h
  rw [read_eq (head_document sections), Table.write, loose_document]
  exact readFrom_sections laid rfl

end Documents

end Criteria.Toml
