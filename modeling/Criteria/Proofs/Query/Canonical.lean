import Criteria.Proofs.Query.Infix
import Criteria.Proofs.Query.Join
import Mathlib.Logic.Relation

namespace Criteria.Query

variable {α : Type}

inductive Formula (α : Type) where
  | atom (a : α)
  | joined (c : Connective) (left right : Formula α)

def Formula.tree : Formula α → Tree α
  | .atom a => .leaf a
  | .joined c f g => .join ⟨c, false⟩ [f.tree, g.tree]

inductive Formula.Rotation : Formula α → Formula α → Prop
  | here (c : Connective) (f g h : Formula α) :
      Rotation (.joined c (.joined c f g) h) (.joined c f (.joined c g h))
  | left (c : Connective) {f f' : Formula α} (g : Formula α) (inner : Rotation f f') :
      Rotation (.joined c f g) (.joined c f' g)
  | right (c : Connective) (f : Formula α) {g g' : Formula α} (inner : Rotation g g') :
      Rotation (.joined c f g) (.joined c f g')

def Formula.Regrouped : Formula α → Formula α → Prop :=
  Relation.EqvGen Rotation

inductive Tree.Canonical : Tree α → Prop
  | leaf (a : α) : Canonical (.leaf a)
  | group {c : Connective} {children : List (Tree α)} (many : 2 ≤ children.length)
      (parts : ∀ t ∈ children, Canonical t) (apart : ∀ t ∈ children, t.connective? ≠ some c) :
      Canonical (.group ⟨c, false⟩ children)

namespace Infix

def Ordinary : {level : Level} → Infix α level → Prop
  | _, .operand _ => True
  | _, .enclosed e => e.Ordinary
  | _, .single _ part => part.Ordinary
  | _, .joined _ e separate part => separate = false ∧ e.Ordinary ∧ part.Ordinary

-- Parentheses are what a formula forgets of an expression.
def formula : {level : Level} → Infix α level → Formula α
  | _, .operand a => .atom a
  | _, .enclosed e => e.formula
  | _, .single _ part => part.formula
  | _, .joined c e _ part => .joined c e.formula part.formula

theorem tree_formula {level : Level} {e : Infix α level} (h : e.Ordinary) :
    e.formula.tree = e.tree := by
  induction e with
  | operand a => rfl
  | enclosed e ih => exact ih h
  | single c part ih => exact ih h
  | joined c e separate part ihe ihp =>
      obtain ⟨rfl, he, hp⟩ := h
      rw [formula, Formula.tree, ihe he, ihp hp, tree]

end Infix

namespace Tree

variable {c : Connective}

theorem Canonical.forks {t : Tree α} (h : t.Canonical) : t.Forks := by
  cases h with
  | leaf a => trivial
  | group many parts apart => exact many

theorem Canonical.of_mem_spliced {t part : Tree α} (h : t.Canonical)
    (hp : part ∈ spliced ⟨c, false⟩ t) : part.Canonical ∧ part.connective? ≠ some c := by
  by_cases hc : t.connective? = some c
  · rw [spliced_of_eq rfl hc] at hp
    cases h with
    | leaf a => cases hc
    | group many parts apart =>
        cases hc
        exact ⟨parts part hp, apart part hp⟩
  · rw [spliced_of_ne hc, List.mem_singleton] at hp
    rw [hp]
    exact ⟨h, hc⟩

theorem join_pair {l r : Tree α} (hl : l.Forks) (hr : r.Forks) :
    2 ≤ (spliced ⟨c, false⟩ l ++ spliced ⟨c, false⟩ r).length ∧
      join ⟨c, false⟩ [l, r] = .group ⟨c, false⟩ (spliced ⟨c, false⟩ l ++ spliced ⟨c, false⟩ r) := by
  have many : 2 ≤ (spliced ⟨c, false⟩ l ++ spliced ⟨c, false⟩ r).length := by
    have left := hl.one_le ⟨c, false⟩
    have right := hr.one_le ⟨c, false⟩
    rw [List.length_append]
    omega
  exact ⟨many, by rw [join_two, collapse_of_two_le many]⟩

theorem Canonical.join {l r : Tree α} (hl : l.Canonical) (hr : r.Canonical) :
    (join ⟨c, false⟩ [l, r]).Canonical := by
  obtain ⟨many, hj⟩ := join_pair (c := c) hl.forks hr.forks
  have parts : ∀ t ∈ spliced ⟨c, false⟩ l ++ spliced ⟨c, false⟩ r,
      t.Canonical ∧ t.connective? ≠ some c := by
    intro t ht
    rcases List.mem_append.mp ht with ht | ht
    · exact hl.of_mem_spliced ht
    · exact hr.of_mem_spliced ht
  rw [hj]
  exact .group many (fun t ht => (parts t ht).1) (fun t ht => (parts t ht).2)

theorem spliced_join_pair {l r : Tree α} (hl : l.Forks) (hr : r.Forks) :
    spliced ⟨c, false⟩ (Tree.join ⟨c, false⟩ [l, r]) =
      spliced ⟨c, false⟩ l ++ spliced ⟨c, false⟩ r := by
  rw [spliced_join rfl (by simp [hl, hr]), List.flatMap_cons, List.flatMap_singleton]

theorem join_assoc {l m r : Tree α} (hl : l.Forks) (hm : m.Forks) (hr : r.Forks) :
    Tree.join ⟨c, false⟩ [Tree.join ⟨c, false⟩ [l, m], r] =
      Tree.join ⟨c, false⟩ [l, Tree.join ⟨c, false⟩ [m, r]] := by
  rw [join_two _ (Tree.join _ _) r, join_two _ l (Tree.join _ _), spliced_join_pair hl hm,
    spliced_join_pair hm hr, List.append_assoc]

end Tree

namespace Formula

theorem canonical_tree (f : Formula α) : f.tree.Canonical := by
  induction f with
  | atom a => exact .leaf a
  | joined c f g ihf ihg => exact ihf.join ihg

theorem Rotation.tree {f g : Formula α} (h : Rotation f g) : f.tree = g.tree := by
  induction h with
  | here c f g h =>
      exact Tree.join_assoc f.canonical_tree.forks g.canonical_tree.forks h.canonical_tree.forks
  | left c g inner ih => rw [Formula.tree, ih, Formula.tree]
  | right c f inner ih => rw [Formula.tree, ih, Formula.tree]

theorem tree_joined (c : Connective) (f g : Formula α) :
    (joined c f g).tree =
      .group ⟨c, false⟩ (Tree.spliced ⟨c, false⟩ f.tree ++ Tree.spliced ⟨c, false⟩ g.tree) :=
  (Tree.join_pair f.canonical_tree.forks g.canonical_tree.forks).2

namespace Regrouped

variable {f g h f' g' : Formula α}

theorem rotation (step : Rotation f g) : f.Regrouped g :=
  .rel _ _ step

theorem refl (f : Formula α) : f.Regrouped f :=
  Relation.EqvGen.refl f

theorem symm (first : f.Regrouped g) : g.Regrouped f :=
  Relation.EqvGen.symm _ _ first

theorem trans (first : f.Regrouped g) (second : g.Regrouped h) : f.Regrouped h :=
  Relation.EqvGen.trans _ _ _ first second

theorem tree (h : f.Regrouped g) : f.tree = g.tree := by
  induction h with
  | rel f g step => exact step.tree
  | refl f => rfl
  | symm f g _ ih => exact ih.symm
  | trans f g h _ _ first second => exact first.trans second

-- A context that keeps single rotations keeps whole regroupings.
theorem within {context : Formula α → Formula α}
    (keeps : ∀ f f', Rotation f f' → Rotation (context f) (context f')) (h : f.Regrouped f') :
    (context f).Regrouped (context f') := by
  induction h with
  | rel f f' step => exact rotation (keeps f f' step)
  | refl f => exact refl _
  | symm f f' _ ih => exact ih.symm
  | trans f f' f'' _ _ first second => exact first.trans second

theorem left (c : Connective) (g : Formula α) (h : f.Regrouped f') :
    (Formula.joined c f g).Regrouped (.joined c f' g) :=
  h.within (fun _ _ step => .left c g step)

theorem right (c : Connective) (f : Formula α) (h : g.Regrouped g') :
    (Formula.joined c f g).Regrouped (.joined c f g') :=
  h.within (fun _ _ step => .right c f step)

theorem joined (c : Connective) (hf : f.Regrouped f') (hg : g.Regrouped g') :
    (Formula.joined c f g).Regrouped (.joined c f' g') :=
  (hf.left c g).trans (hg.right c f')

theorem foldl (c : Connective) {gs gs' : List (Formula α)} (hf : f.Regrouped f')
    (hg : List.Forall₂ Regrouped gs gs') :
    (gs.foldl (.joined c) f).Regrouped (gs'.foldl (.joined c) f') := by
  induction hg generalizing f f' with
  | nil => exact hf
  | cons hg _ ih => exact ih (hf.joined c hg)

theorem joined_foldl (c : Connective) (f g : Formula α) (gs : List (Formula α)) :
    (Formula.joined c f (gs.foldl (.joined c) g)).Regrouped ((g :: gs).foldl (.joined c) f) := by
  induction gs using List.reverseRecOn with
  | nil => exact refl _
  | append_singleton gs h ih =>
      rw [← List.cons_append, List.foldl_append, List.foldl_append]
      exact (rotation (.here c f _ h)).symm.trans (ih.left c h)

end Regrouped

theorem exists_parts (c : Connective) (f : Formula α) :
    ∃ first rest, f.Regrouped (rest.foldl (.joined c) first) ∧
      (first :: rest).map tree = Tree.spliced ⟨c, false⟩ f.tree := by
  induction f with
  | atom a => exact ⟨.atom a, [], .refl _, rfl⟩
  | joined d f g ihf ihg =>
      by_cases hd : d = c
      · subst hd
        obtain ⟨f₀, fs, hf, hfs⟩ := ihf
        obtain ⟨g₀, gs, hg, hgs⟩ := ihg
        refine ⟨f₀, fs ++ g₀ :: gs, ?_, ?_⟩
        · rw [List.foldl_append]
          exact (hf.joined d hg).trans (.joined_foldl d _ g₀ gs)
        · rw [tree_joined, Tree.spliced_of_eq rfl rfl, Tree.children, ← hfs, ← hgs,
            ← List.map_append, List.cons_append]
      · refine ⟨.joined d f g, [], .refl _, ?_⟩
        have hc : (Formula.joined d f g).tree.connective? ≠ some c := by
          rw [tree_joined]
          exact fun h => hd (Option.some.inj h)
        exact (Tree.spliced_of_ne hc).symm

theorem forall₂_regrouped {fs gs : List (Formula α)} (h : fs.map tree = gs.map tree)
    (each : ∀ f ∈ fs, ∀ g : Formula α, f.tree = g.tree → f.Regrouped g) :
    List.Forall₂ Regrouped fs gs := by
  induction fs generalizing gs with
  | nil =>
      rw [List.map_nil, eq_comm, List.map_eq_nil_iff] at h
      rw [h]
      exact .nil
  | cons f fs ih =>
      match gs with
      | g :: gs =>
          obtain ⟨hf, hfs⟩ := List.cons.inj h
          obtain ⟨first, later⟩ := List.forall_mem_cons.mp each
          exact .cons (first g hf) (ih hfs later)

-- Two formulas with one tree fall into the same parts, one for each child of that tree.
theorem regrouped_of_tree {f g : Formula α} (h : f.tree = g.tree) : f.Regrouped g := by
  generalize ht : f.tree = t at h
  induction t generalizing f g with
  | leaf a =>
      have atom {f : Formula α} (hf : f.tree = .leaf a) : f = .atom a := by
        cases f with
        | atom b => exact congrArg atom (Tree.leaf.inj hf)
        | joined c f g => cases (tree_joined c f g).symm.trans hf
      rw [atom ht, atom h.symm]
      exact .refl _
  | group operator children ih =>
      have ordinary : ∃ c, operator = ⟨c, false⟩ := by
        cases f with
        | atom a => cases ht
        | joined c f g => exact ⟨c, (Tree.group.inj ((tree_joined c f g).symm.trans ht)).1.symm⟩
      obtain ⟨c, rfl⟩ := ordinary
      obtain ⟨f₀, fs, hf, hfs⟩ := exists_parts c f
      obtain ⟨g₀, gs, hg, hgs⟩ := exists_parts c g
      have hp : Tree.spliced ⟨c, false⟩ (.group ⟨c, false⟩ children) = children :=
        Tree.spliced_of_eq rfl rfl
      rw [ht, hp] at hfs
      rw [← h, hp] at hgs
      have parts := forall₂_regrouped (hfs.trans hgs.symm) (by
        intro f hm g he
        exact ih f.tree (hfs ▸ List.mem_map_of_mem hm) rfl he)
      obtain ⟨first, later⟩ := List.forall₂_cons.mp parts
      exact hf.trans ((first.foldl c later).trans hg.symm)

end Formula

end Criteria.Query
