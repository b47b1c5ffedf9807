import Criteria.Proofs.Except
import Criteria.Proofs.Float
import Criteria.Settings.Discovery
import Mathlib.Data.List.Forall2

namespace Criteria

open Disk (Path Store Contents)
open Schema (Thresholds)
open Search (EmbeddingRules)

namespace Schema.Thresholds

def Proper (t : Thresholds Float) : Prop :=
  (∀ x ∈ [t.candidate, t.strong, t.moderate], 0 ≤ x ∧ x ≤ 1) ∧ t.moderate ≤ t.strong

instance (t : Thresholds Float) : Decidable t.Proper :=
  inferInstanceAs (Decidable ((∀ x ∈ [t.candidate, t.strong, t.moderate], 0 ≤ x ∧ x ≤ 1) ∧ _))

theorem proper_standard : standard.Proper := by
  decide +kernel

end Schema.Thresholds

namespace Settings

namespace Layer

def candidate? (l : Layer) : Option Float :=
  l.resolver.bind Thresholds.candidate

def strong? (l : Layer) : Option Float :=
  l.resolver.bind Thresholds.strong

def moderate? (l : Layer) : Option Float :=
  l.resolver.bind Thresholds.moderate

def flat? (l : Layer) : Option (List String) :=
  l.embedding.bind EmbeddingLayer.flat

def embedded? (l : Layer) : Option (List String) :=
  l.embedding.bind EmbeddingLayer.embedded

def index? (l : Layer) : Option String :=
  l.search.bind SearchLayer.index

end Layer

def foremost {α : Type} (setting? : Layer → Option α) (default : α) (layers : List Layer) : α :=
  (layers.findSome? setting?).getD default

def effective (layers : List Layer) : Settings where
  thresholds :=
    { candidate := foremost Layer.candidate? Thresholds.standard.candidate layers
      strong := foremost Layer.strong? Thresholds.standard.strong layers
      moderate := foremost Layer.moderate? Thresholds.standard.moderate layers }
  rules :=
    { flat := foremost Layer.flat? EmbeddingRules.standard.flat layers
      embedded := foremost Layer.embedded? EmbeddingRules.standard.embedded layers }
  index := foremost Layer.index? "default" layers

def Reads (disk : Store) (file : Path) (l : Layer) : Prop :=
  ∃ text, disk.read file = .ok text ∧ Layer.parse text = some l

inductive Fails (disk : Store) (file : Path) : LoadError → Prop
  | unreadable {fault : Disk.Fault} (h : disk.read file = .error fault) :
      Fails disk file (.unreadable file fault)
  | malformed {text : String} (h : disk.read file = .ok text) (broken : Layer.parse text = none) :
      Fails disk file (.malformed file)

def FirstFault (disk : Store) (files : List Path) (e : LoadError) : Prop :=
  ∃ before file after, files = before ++ file :: after ∧
    (∀ earlier ∈ before, ∃ l, Reads disk earlier l) ∧ Fails disk file e

theorem foremost_cons {α : Type} (setting? : Layer → Option α) (default : α) (l : Layer)
    (layers : List Layer) :
    foremost setting? default (l :: layers) =
      (setting? l).getD (foremost setting? default layers) := by
  rw [foremost, foremost, List.findSome?_cons]
  cases setting? l <;> rfl

theorem override_eq (s : Settings) (l : Layer) :
    s.override l =
      { s with
        thresholds :=
          { candidate := l.candidate?.getD s.thresholds.candidate
            strong := l.strong?.getD s.thresholds.strong
            moderate := l.moderate?.getD s.thresholds.moderate }
        rules :=
          { flat := l.flat?.getD s.rules.flat
            embedded := l.embedded?.getD s.rules.embedded }
        index := l.index?.getD s.index } := by
  obtain ⟨root, resolver, embedding, search⟩ := l
  cases resolver <;> cases embedding <;> cases search <;> rfl

theorem layered_eq_effective (layers : List Layer) : layered layers = effective layers := by
  induction layers with
  | nil => rfl
  | cons l layers ih =>
      rw [layered_cons, ih, override_eq]
      simp only [effective, foremost_cons]

theorem inUnit_iff {x : Float} : inUnit x = true ↔ 0 ≤ x ∧ x ≤ 1 := by
  simp [inUnit]

theorem misfit?_eq_none_iff {t : Thresholds Float} : misfit? t = none ↔ t.Proper := by
  have units : (named t).find? (fun e => !inUnit e.2) = none ↔
      ∀ x ∈ [t.candidate, t.strong, t.moderate], 0 ≤ x ∧ x ≤ 1 := by
    simp [named, inUnit_iff]
  unfold misfit? Thresholds.Proper
  cases hf : (named t).find? (fun e => !inUnit e.2) with
  | some e =>
      have outside := mt units.mpr (by simp [hf])
      exact iff_of_false nofun (fun h => outside h.1)
  | none =>
      have inside := units.mp hf
      have strong := (Float.isNaN_of_le (inside t.strong (by simp)).1).2
      have moderate := (Float.isNaN_of_le (inside t.moderate (by simp)).1).2
      have order := Float.not_lt_iff_le moderate strong
      simp [order, inside]

theorem reads_or_fails (disk : Store) (file : Path) :
    (∃ l, Reads disk file l) ∨ ∃ e, Fails disk file e := by
  cases hr : disk.read file with
  | error fault => exact .inr ⟨_, .unreadable hr⟩
  | ok text =>
      cases hp : Layer.parse text with
      | none => exact .inr ⟨_, .malformed hr hp⟩
      | some l => exact .inl ⟨l, text, hr, hp⟩

theorem Reads.readLayer {disk : Store} {file : Path} {l : Layer} (h : Reads disk file l) :
    readLayer disk file = .ok l := by
  obtain ⟨text, hr, hp⟩ := h
  simp only [Settings.readLayer, hr, hp]

theorem Fails.readLayer {disk : Store} {file : Path} {e : LoadError} (h : Fails disk file e) :
    readLayer disk file = .error e := by
  cases h with
  | unreadable hr => simp only [Settings.readLayer, hr]
  | malformed hr hp => simp only [Settings.readLayer, hr, hp]

theorem mapM_of_reads {disk : Store} {files : List Path} {layers : List Layer}
    (h : List.Forall₂ (Reads disk) files layers) :
    files.mapM (namedLayer disk) = .ok (files.zip layers) := by
  induction h with
  | nil => rfl
  | cons here later ih =>
      rw [List.mapM_cons, ih, namedLayer, here.readLayer]
      rfl

theorem mapM_of_firstFault {disk : Store} {files : List Path} {e : LoadError}
    (h : FirstFault disk files e) : files.mapM (namedLayer disk) = .error e := by
  obtain ⟨before, file, after, rfl, read, fails⟩ := h
  refine Except.mapM_eq_error_iff.mpr ⟨before, file, after, rfl, ?_, ?_⟩
  · intro earlier he
    obtain ⟨l, hl⟩ := read earlier he
    exact ⟨(earlier, l), by rw [namedLayer, hl.readLayer]; rfl⟩
  · rw [namedLayer, fails.readLayer]
    rfl

theorem firstFault_or_reads (disk : Store) (files : List Path) :
    (∃ e, FirstFault disk files e) ∨ ∃ layers, List.Forall₂ (Reads disk) files layers := by
  induction files with
  | nil => exact .inr ⟨[], .nil⟩
  | cons file files ih =>
      rcases reads_or_fails disk file with ⟨l, here⟩ | ⟨e, fails⟩
      · rcases ih with ⟨e, before, bad, after, rfl, read, fails⟩ | ⟨layers, later⟩
        · left
          refine ⟨e, file :: before, bad, after, rfl, ?_, fails⟩
          exact List.forall_mem_cons.mpr ⟨⟨l, here⟩, read⟩
        · exact .inr ⟨l :: layers, .cons here later⟩
      · exact .inl ⟨e, [], file, files, rfl, nofun, fails⟩

theorem merge_zip {files : List Path} {layers : List Layer} (h : files.length = layers.length) :
    merge (files.zip layers) =
      (misfit? (effective layers).thresholds).elim
        (.ok { effective layers with nearest := files.head?.bind Path.parent? }) .error := by
  have snd : (files.zip layers).map Prod.snd = layers := List.map_snd_zip (Nat.le_of_eq h.symm)
  have fst : (files.zip layers).map Prod.fst = files := List.map_fst_zip (Nat.le_of_eq h)
  have top : (files.zip layers).head?.bind (fun f => f.1.parent?) =
      files.head?.bind Path.parent? := by
    conv_rhs => rw [← fst, List.head?_map, Option.bind_map]
    rfl
  rw [merge, snd, layered_eq_effective, top]
  cases misfit? (effective layers).thresholds <;> rfl

theorem loadFiles_of_reads {disk : Store} {files : List Path} {layers : List Layer}
    (h : List.Forall₂ (Reads disk) files layers) :
    loadFiles disk files =
      (misfit? (effective layers).thresholds).elim
        (.ok { effective layers with nearest := files.head?.bind Path.parent? })
        (fun m => .error (.thresholds m)) := by
  cases files with
  | nil =>
      cases h
      have none : misfit? (effective []).thresholds = none :=
        misfit?_eq_none_iff.mpr Thresholds.proper_standard
      rw [none]
      rfl
  | cons file files =>
      have run : loadFiles disk (file :: files) = ((file :: files).mapM (namedLayer disk)).bind
          (fun named => (merge named).mapError .thresholds) := rfl
      rw [run, mapM_of_reads h, Except.bind, merge_zip h.length_eq]
      cases misfit? (effective layers).thresholds <;> rfl

theorem loadFiles_of_firstFault {disk : Store} {files : List Path} {e : LoadError}
    (h : FirstFault disk files e) : loadFiles disk files = .error e := by
  have run := mapM_of_firstFault h
  cases files with
  | nil => cases run
  | cons file files =>
      change ((file :: files).mapM (namedLayer disk)).bind _ = _
      rw [run]
      rfl

theorem loadFiles_precedence (disk : Store) (files : List Path) :
    ((∃ e, FirstFault disk files e) ∨ ∃ layers, List.Forall₂ (Reads disk) files layers) ∧
    (∀ e, FirstFault disk files e → loadFiles disk files = .error e) ∧
    (∀ layers, List.Forall₂ (Reads disk) files layers →
      ((effective layers).thresholds.Proper → loadFiles disk files =
        .ok { effective layers with nearest := files.head?.bind Path.parent? }) ∧
      ((∃ m, loadFiles disk files = .error (.thresholds m)) ↔
        ¬ (effective layers).thresholds.Proper)) ∧
    ∀ s, loadFiles disk files = .ok s → s.thresholds.Proper := by
  have outcome := firstFault_or_reads disk files
  refine ⟨outcome, fun _ => loadFiles_of_firstFault, ?_, ?_⟩
  · intro layers h
    rw [loadFiles_of_reads h, ← misfit?_eq_none_iff]
    cases misfit? (effective layers).thresholds with
    | none => simp
    | some m => simp
  · intro s hs
    rcases outcome with ⟨e, fault⟩ | ⟨layers, h⟩
    · rw [loadFiles_of_firstFault fault] at hs
      cases hs
    · rw [loadFiles_of_reads h] at hs
      cases hm : misfit? (effective layers).thresholds with
      | some m =>
          rw [hm] at hs
          cases hs
      | none =>
          rw [hm] at hs
          cases hs
          exact misfit?_eq_none_iff.mp hm

def overlaid : Contents :=
  [(["w"], .folder), (["w", "src"], .folder),
    (["w", "src", ".atlasq.toml"],
      .file "[search]\nindex = \"near\"\n[resolver]\nstrong_threshold = 0.4\n"),
    (["w", ".atlasq.toml"],
      .file ("[search]\nindex = \"far\"\n" ++
        "[resolver]\nstrong_threshold = 0.9\nmoderate_threshold = 0.3\n"))]

def innerLayer : Layer :=
  { resolver := some ⟨none, some 0.4, none⟩, search := some ⟨some "near"⟩ }

def outerLayer : Layer :=
  { resolver := some ⟨none, some 0.9, some 0.3⟩, search := some ⟨some "far"⟩ }

-- The inner strong threshold stands below the default moderate one: it passes only in a merge.
theorem loadFiles_precedence_overlaid :
    loadFiles overlaid.store [⟨"/w/src/.atlasq.toml"⟩, ⟨"/w/.atlasq.toml"⟩] =
        .ok ⟨⟨0.8, 0.4, 0.3⟩, .standard, "near", some ⟨"/w/src"⟩⟩ ∧
      (∃ m, loadFiles overlaid.store [⟨"/w/src/.atlasq.toml"⟩] = .error (.thresholds m)) ∧
      loadFiles overlaid.store [⟨"/w/.atlasq.toml"⟩, ⟨"/.atlasq.toml"⟩] =
        .error (.unreadable ⟨"/.atlasq.toml"⟩ .missing) := by
  have inner : Reads overlaid.store ⟨"/w/src/.atlasq.toml"⟩ innerLayer :=
    ⟨_, rfl, by decide +kernel⟩
  have outer : Reads overlaid.store ⟨"/w/.atlasq.toml"⟩ outerLayer :=
    ⟨_, rfl, by decide +kernel⟩
  have fault : FirstFault overlaid.store [⟨"/w/.atlasq.toml"⟩, ⟨"/.atlasq.toml"⟩]
      (.unreadable ⟨"/.atlasq.toml"⟩ .missing) :=
    ⟨[_], _, [], rfl, by simpa using ⟨_, outer⟩, .unreadable rfl⟩
  have proper : (effective [innerLayer, outerLayer]).thresholds.Proper := by decide +kernel
  have crossed : ¬ (effective [innerLayer]).thresholds.Proper := by decide +kernel
  have merged := ((loadFiles_precedence overlaid.store _).2.2.1 _ (.cons inner (.cons outer .nil))).1
    proper
  have alone := ((loadFiles_precedence overlaid.store _).2.2.1 _ (.cons inner .nil)).2
  have refused := (loadFiles_precedence overlaid.store _).2.1 _ fault
  have layers : effective [innerLayer, outerLayer] =
      ⟨⟨0.8, 0.4, 0.3⟩, .standard, "near", none⟩ := rfl
  have parent : Path.parent? ⟨"/w/src/.atlasq.toml"⟩ = some ⟨"/w/src"⟩ := by decide +kernel
  refine ⟨?_, alone.mpr crossed, refused⟩
  rw [merged, layers, List.head?_cons, Option.bind_some, parent]

end Settings

end Criteria
