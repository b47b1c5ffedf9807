import Criteria.Proofs.Query.Reduction

namespace Criteria.Query

variable {α : Type}

def operandCount (tokens : List (Token α)) : Nat :=
  tokens.countP (fun token => token.operand?.isSome)

def operatorCount (tokens : List (Token α)) : Nat :=
  tokens.countP (fun token => token.operator?.isSome)

section Counts

variable (tokens : List (Token α))

@[simp]
theorem operandCount_nil : operandCount ([] : List (Token α)) = 0 := rfl

@[simp]
theorem operatorCount_nil : operatorCount ([] : List (Token α)) = 0 := rfl

@[simp]
theorem operandCount_operand (a : α) :
    operandCount (.operand a :: tokens) = operandCount tokens + 1 :=
  List.countP_cons_of_pos rfl

@[simp]
theorem operandCount_operator (o : Operator) :
    operandCount (.operator o :: tokens) = operandCount tokens :=
  List.countP_cons_of_neg (by simp [Token.operand?])

@[simp]
theorem operatorCount_operand (a : α) :
    operatorCount (.operand a :: tokens) = operatorCount tokens :=
  List.countP_cons_of_neg (by simp [Token.operator?])

@[simp]
theorem operatorCount_operator (o : Operator) :
    operatorCount (.operator o :: tokens) = operatorCount tokens + 1 :=
  List.countP_cons_of_pos rfl

theorem operandCount_append (s t : List (Token α)) :
    operandCount (s ++ t) = operandCount s + operandCount t :=
  List.countP_append

theorem operatorCount_append (s t : List (Token α)) :
    operatorCount (s ++ t) = operatorCount s + operatorCount t :=
  List.countP_append

theorem counts_perm {s t : List (Token α)} (h : s.Perm t) :
    operandCount s = operandCount t ∧ operatorCount s = operatorCount t :=
  ⟨h.countP_eq _, h.countP_eq _⟩

theorem counts_plain :
    operandCount (Token.plain tokens) = operandCount tokens ∧
      operatorCount (Token.plain tokens) = operatorCount tokens := by
  constructor
  · rw [operandCount, Token.plain, List.countP_filter]
    refine List.countP_congr (fun token _ => ?_)
    cases token <;> simp [Token.operand?, Token.parenthesis]
  · rw [operatorCount, Token.plain, List.countP_filter]
    refine List.countP_congr (fun token _ => ?_)
    cases token <;> simp [Token.operator?, Token.parenthesis]

end Counts

def AfterOperators (p : List (Token α) → Prop) (tokens : List (Token α)) : Prop :=
  ∀ o rest, .operator o :: rest <:+ tokens → p rest

section AfterOperators

variable {p : List (Token α) → Prop} {tokens : List (Token α)}

theorem afterOperators_nil : AfterOperators p [] := by
  intro o rest h
  cases List.suffix_nil.mp h

theorem afterOperators_cons {token : Token α} :
    AfterOperators p (token :: tokens) ↔
      (token.operator?.isSome = true → p tokens) ∧ AfterOperators p tokens := by
  constructor
  · intro h
    refine ⟨fun operator => ?_, fun o rest hr => h o rest (List.suffix_cons_iff.mpr (.inr hr))⟩
    cases token with
    | operator o => exact h o tokens List.suffix_rfl
    | _ => cases operator
  · rintro ⟨here, later⟩ o rest hr
    rcases List.suffix_cons_iff.mp hr with same | hr
    · cases same
      exact here rfl
    · exact later o rest hr

theorem afterOperators_operator {o : Operator} :
    AfterOperators p (.operator o :: tokens) ↔ p tokens ∧ AfterOperators p tokens := by
  simp [afterOperators_cons, Token.operator?]

theorem afterOperators_of_none {token : Token α} (h : token.operator? = none) :
    AfterOperators p (token :: tokens) ↔ AfterOperators p tokens := by
  simp [afterOperators_cons, h]

end AfterOperators

def Headed (tokens : List (Token α)) : Prop :=
  ∃ a rest, tokens = .operand a :: rest

theorem not_headed_cons {token : Token α} {tokens : List (Token α)} (h : token.operand? = none) :
    ¬ Headed (token :: tokens) := by
  rintro ⟨a, rest, same⟩
  cases same
  cases h

-- What is left to read settles a stack of that height: a single node remains in the end.
structure Settles (height : Nat) (tokens : List (Token α)) : Prop where
  plain : ∀ token ∈ tokens, token.parenthesis = false
  total : height + operandCount tokens ≤ operatorCount tokens + 1
  absorbed : AfterOperators (fun rest => operandCount rest ≤ operatorCount rest) tokens

section Settles

variable {height : Nat} {tokens : List (Token α)}

theorem settles_nil : Settles height ([] : List (Token α)) ↔ height ≤ 1 :=
  ⟨fun h => h.total, fun h => ⟨nofun, h, afterOperators_nil⟩⟩

theorem settles_operand {a : α} :
    Settles height (.operand a :: tokens) ↔ Settles (height + 1) tokens := by
  constructor
  · rintro ⟨plain, total, absorbed⟩
    refine ⟨(List.forall_mem_cons.mp plain).2, ?_, (afterOperators_of_none rfl).mp absorbed⟩
    simp only [operandCount_operand, operatorCount_operand] at total
    omega
  · rintro ⟨plain, total, absorbed⟩
    refine ⟨List.forall_mem_cons.mpr ⟨rfl, plain⟩, ?_, (afterOperators_of_none rfl).mpr absorbed⟩
    simp only [operandCount_operand, operatorCount_operand]
    omega

-- A stack of one node stays as high when an operator takes it.
theorem settles_operator {o : Operator} :
    Settles (height + 1) (.operator o :: tokens) ↔ Settles (max height 1) tokens := by
  constructor
  · rintro ⟨plain, total, absorbed⟩
    obtain ⟨here, later⟩ := afterOperators_operator.mp absorbed
    refine ⟨(List.forall_mem_cons.mp plain).2, ?_, later⟩
    simp only [operandCount_operator, operatorCount_operator] at total
    omega
  · rintro ⟨plain, total, absorbed⟩
    refine ⟨List.forall_mem_cons.mpr ⟨rfl, plain⟩, ?_,
      afterOperators_operator.mpr ⟨by omega, absorbed⟩⟩
    simp only [operandCount_operator, operatorCount_operator]
    omega

theorem not_settles_parenthesis (token : Token α) (h : token.parenthesis = true) :
    ¬ Settles height (token :: tokens) := by
  intro hs
  have plain := hs.plain token List.mem_cons_self
  rw [h] at plain
  cases plain

end Settles

namespace Tree

theorem settles_step {stack : List (Tree α)} (ne : stack ≠ []) {token : Token α}
    {tokens : List (Token α)} :
    Settles stack.length (token :: tokens) ↔
      ∃ moved, step stack token = .ok moved ∧ Settles moved.length tokens := by
  cases token with
  | operand a => simp [step, settles_operand]
  | operator o =>
      cases stack with
      | nil => exact absurd rfl ne
      | cons right stack =>
          cases stack with
          | nil => simp [step, settles_operator]
          | cons left stack =>
              have height : max (left :: stack).length 1 = stack.length + 1 := by
                rw [List.length_cons]
                omega
              rw [List.length_cons, settles_operator, height]
              simp [step]
  | opening => simp [step, not_settles_parenthesis .opening rfl]
  | closing => simp [step, not_settles_parenthesis .closing rfl]

theorem exists_reduce_iff {stack : List (Tree α)} (ne : stack ≠ []) {tokens : List (Token α)} :
    (∃ t, reduce stack tokens = .ok t) ↔ Settles stack.length tokens := by
  induction tokens generalizing stack with
  | nil =>
      rw [settles_nil, reduce_nil]
      cases stack with
      | nil => exact absurd rfl ne
      | cons only stack => cases stack <;> simp [remaining]
  | cons token tokens ih =>
      rw [reduce_cons, settles_step ne]
      constructor
      · rintro ⟨t, h⟩
        obtain ⟨moved, hs, h⟩ := Except.bind_eq_ok_iff.mp h
        exact ⟨moved, hs, (ih (ne_nil_of_step hs)).mp ⟨t, h⟩⟩
      · rintro ⟨moved, hs, settled⟩
        obtain ⟨t, h⟩ := (ih (ne_nil_of_step hs)).mpr settled
        exact ⟨t, Except.bind_eq_ok_iff.mpr ⟨moved, hs, h⟩⟩

-- An operator fails only where nothing is stacked, and that is the case before the first operand.
theorem ofPostfix_settles {tokens : List (Token α)} :
    (∃ t, ofPostfix tokens = .ok t) ↔ Headed tokens ∧ Settles 0 tokens := by
  cases tokens with
  | nil => simp [ofPostfix, reduce, Headed]
  | cons token tokens =>
      cases token with
      | operand a =>
          rw [ofPostfix, reduce, exists_reduce_iff (List.cons_ne_nil _ _), settles_operand]
          exact (and_iff_right ⟨a, tokens, rfl⟩).symm
      | _ => simp [ofPostfix, reduce, Headed]

theorem ofPostfix_accepts_iff (tokens : List (Token α)) :
    (∃ t, ofPostfix tokens = .ok t) ↔
      (∀ token ∈ tokens, token.parenthesis = false) ∧
        (∃ a rest, tokens = .operand a :: rest) ∧
        operandCount tokens ≤ operatorCount tokens + 1 ∧
        ∀ o rest, .operator o :: rest <:+ tokens → operandCount rest ≤ operatorCount rest := by
  rw [ofPostfix_settles]
  constructor
  · rintro ⟨first, plain, total, absorbed⟩
    exact ⟨plain, first, by omega, absorbed⟩
  · rintro ⟨plain, first, total, absorbed⟩
    exact ⟨first, plain, by omega, absorbed⟩

end Tree

section Adjacent

-- Parentheses apart, every operator has an operand directly after it.
def Followed (tokens : List (Token α)) : Prop :=
  AfterOperators Headed (Token.plain tokens)

theorem operatorCount_le {tokens : List (Token α)} (h : AfterOperators Headed tokens) :
    operatorCount tokens ≤ operandCount tokens ∧
      (Headed tokens → operatorCount tokens + 1 ≤ operandCount tokens) := by
  induction tokens with
  | nil => exact ⟨Nat.le_refl 0, nofun⟩
  | cons token tokens ih =>
      cases token with
      | operand a =>
          have below := (ih ((afterOperators_of_none rfl).mp h)).1
          simp only [operandCount_operand, operatorCount_operand]
          exact ⟨by omega, fun _ => by omega⟩
      | operator o =>
          obtain ⟨here, later⟩ := afterOperators_operator.mp h
          have below := (ih later).2 here
          simp only [operandCount_operator, operatorCount_operator]
          exact ⟨below, fun headed => absurd headed (not_headed_cons rfl)⟩
      | opening =>
          refine ⟨?_, fun headed => absurd headed (not_headed_cons rfl)⟩
          exact (ih ((afterOperators_of_none rfl).mp h)).1
      | closing =>
          refine ⟨?_, fun headed => absurd headed (not_headed_cons rfl)⟩
          exact (ih ((afterOperators_of_none rfl).mp h)).1

theorem Followed.operatorCount_le {tokens : List (Token α)} (h : Followed tokens) :
    operatorCount tokens ≤ operandCount tokens := by
  obtain ⟨operands, operators⟩ := counts_plain tokens
  rw [← operands, ← operators]
  exact (Query.operatorCount_le h).1

theorem operatorCount_adjacent {front gap back : List (Token α)} {a b : α}
    (apart : ∀ token ∈ gap, token.parenthesis = true) (before : Followed front.reverse)
    (after : Followed back) :
    operatorCount (front ++ .operand a :: (gap ++ .operand b :: back)) + 2 ≤
      operandCount (front ++ .operand a :: (gap ++ .operand b :: back)) := by
  have none_between : operatorCount gap = 0 := by
    rw [operatorCount, List.countP_eq_zero]
    intro token ht
    have parenthesis := apart token ht
    cases token <;> simp_all [Token.operator?, Token.parenthesis]
  obtain ⟨same, same'⟩ := counts_perm (List.reverse_perm front)
  have left := before.operatorCount_le
  have right := after.operatorCount_le
  have operators : operatorCount (front ++ .operand a :: (gap ++ .operand b :: back)) =
      operatorCount front + operatorCount back := by
    rw [operatorCount_append, operatorCount_operand, operatorCount_append, operatorCount_operand,
      none_between, Nat.zero_add]
  have operands : operandCount (front ++ .operand a :: (gap ++ .operand b :: back)) =
      operandCount front + (operandCount gap + (operandCount back + 1) + 1) := by
    rw [operandCount_append, operandCount_operand, operandCount_append, operandCount_operand]
  omega

end Adjacent

namespace Tree

theorem operandCount_le_of_ofTokens {tokens : List (Token α)} {t : Tree α}
    (h : ofTokens tokens = .ok t) : operandCount tokens ≤ operatorCount tokens + 1 := by
  obtain ⟨ordered, hp, hr⟩ := Except.bind_eq_ok_iff.mp h
  have total := (ofPostfix_settles.mp ⟨t, hr⟩).2.total
  obtain ⟨operands, operators⟩ := counts_perm (toPostfix_perm hp)
  obtain ⟨operands', operators'⟩ := counts_plain tokens
  omega

theorem exists_ofTokens_iff {tokens ordered : List (Token α)} (h : toPostfix tokens = .ok ordered) :
    (∃ t, ofTokens tokens = .ok t) ↔ Headed ordered ∧ Settles 0 ordered := by
  rw [ofTokens, h]
  exact ofPostfix_settles

theorem not_syntactic_of_balanced {tokens : List (Token α)} (balanced : Balanced tokens)
    {e : QueryError} (h : ofTokens tokens = .error e) : e.isSyntactic = false := by
  obtain ⟨ordered, hp⟩ := exists_toPostfix balanced
  rw [ofTokens, hp] at h
  exact not_syntactic_of_reduce h

theorem ofTokens_adjacent {tokens : List (Token α)} (front gap back : List (Token α)) (a b : α)
    (split : tokens = front ++ .operand a :: (gap ++ .operand b :: back))
    (apart : ∀ token ∈ gap, token.parenthesis = true) :
    (¬ Balanced tokens → ofTokens tokens = .error .mismatchedParentheses) ∧
      (Balanced tokens →
        (∀ e, ofTokens tokens = .error e → e.isSyntactic = false) ∧
        (∃ ordered, toPostfix tokens = .ok ordered ∧
          ((∃ t, ofTokens tokens = .ok t) ↔ Headed ordered ∧ Settles 0 ordered)) ∧
        (operatorCount tokens + 2 ≤ operandCount tokens ∨ Followed front.reverse ∧ Followed back →
          ∃ e, ofTokens tokens = .error e)) := by
  refine ⟨ofTokens_of_unbalanced, fun balanced => ?_⟩
  refine ⟨fun e => not_syntactic_of_balanced balanced, ?_, ?_⟩
  · obtain ⟨ordered, ho⟩ := exists_toPostfix balanced
    exact ⟨ordered, ho, exists_ofTokens_iff ho⟩
  · intro surplus
    have more : operatorCount tokens + 2 ≤ operandCount tokens := by
      rcases surplus with more | ⟨before, after⟩
      · exact more
      · rw [split]
        exact operatorCount_adjacent apart before after
    cases ht : ofTokens tokens with
    | error e => exact ⟨e, rfl⟩
    | ok t =>
        have few := operandCount_le_of_ofTokens ht
        omega

theorem ofTokens_adjacent_sum :
    (∀ token ∈ [(.closing : Token String)], token.parenthesis = true) ∧
      Followed [.operator ⟨.or, false⟩, .operand "a", .opening] ∧
      Followed [.operator ⟨.and, false⟩, .operand "d"] ∧
      ∃ e, ofTokens [.opening, .operand "a", .operator ⟨.or, false⟩, .operand "b", .closing,
        .operand "c", .operator ⟨.and, false⟩, .operand "d"] = .error e ∧
          e.isSyntactic = false := by
  have apart : ∀ token ∈ [(.closing : Token String)], token.parenthesis = true := by decide
  have before : Followed [.operator ⟨.or, false⟩, .operand "a", .opening] :=
    afterOperators_operator.mpr
      ⟨⟨"a", [], rfl⟩, (afterOperators_of_none rfl).mpr afterOperators_nil⟩
  have after : Followed [.operator ⟨.and, false⟩, .operand "d"] :=
    afterOperators_operator.mpr
      ⟨⟨"d", [], rfl⟩, (afterOperators_of_none rfl).mpr afterOperators_nil⟩
  refine ⟨apart, before, after, ?_⟩
  obtain ⟨_, reduced⟩ := ofTokens_adjacent [.opening, .operand "a", .operator ⟨.or, false⟩]
    [.closing] [.operator ⟨.and, false⟩, .operand "d"] "b" "c" rfl apart
  obtain ⟨states, _, refused⟩ := reduced (balanced_iff.mpr ((Postfix.isSome_shunt [] _).mp rfl))
  obtain ⟨e, he⟩ := refused (.inr ⟨before, after⟩)
  exact ⟨e, he, states e he⟩

theorem ofTokens_absorbs_adjacent :
    Balanced [.operand "a", .operand "b", .operator ⟨.and, false⟩] ∧
      ofTokens [.operand "a", .operand "b", .operator ⟨.and, false⟩] =
        .ok (.group ⟨.and, false⟩ [.leaf "a", .leaf "b"]) ∧
      ofTokens [.operand "a", .operator ⟨.and, false⟩, .opening, .operator ⟨.and, false⟩,
        .operand "b", .closing, .operand "c"] =
          .ok (.group ⟨.and, false⟩ [.leaf "a", .leaf "b", .leaf "c"]) :=
  ⟨balanced_iff.mpr ((Postfix.isSome_shunt [] _).mp rfl), rfl, rfl⟩

end Tree

end Criteria.Query
