import Criteria.Proofs.Disk.Ancestry
import Criteria.Proofs.Settings.Precedence

namespace Criteria.Settings

open Disk (Path Store Contents)

def nearby (disk : Store) (cwd : Path) : List Path :=
  (cwd.ancestors.map (·.join fileName)).filter disk.isFile

def Rooted (disk : Store) (file : Path) : Prop :=
  disk.isFile file = true ∧ ∃ l, Reads disk file l ∧ l.root = some true

theorem isRoot_iff {disk : Store} {file : Path} : isRoot disk file = true ↔ Rooted disk file := by
  unfold isRoot Rooted
  constructor
  · intro h
    rcases reads_or_fails disk file with ⟨l, hl⟩ | ⟨e, he⟩
    · rw [hl.readLayer] at h
      obtain ⟨text, hr, _⟩ := id hl
      exact ⟨(Store.holds_of_read hr).1, l, hl, by simpa using h⟩
    · rw [he.readLayer] at h
      cases h
  · rintro ⟨_, l, hl, root⟩
    rw [hl.readLayer]
    simpa using root

section Agreement

variable {disk disk' : Store} {file : Path}

theorem isFile_congr (h : disk'.entry file = disk.entry file) :
    disk'.isFile file = disk.isFile file := by
  rw [Store.isFile, Store.isFile, h]

theorem readLayer_congr (h : disk'.entry file = disk.entry file) :
    readLayer disk' file = readLayer disk file := by
  rw [readLayer, readLayer, Store.read, Store.read, h]

theorem isRoot_congr (h : disk'.entry file = disk.entry file) :
    isRoot disk' file = isRoot disk file := by
  rw [isRoot, isRoot, readLayer_congr h]

theorem seek_congr {files : List Path}
    (h : ∀ file ∈ files, disk'.entry file = disk.entry file) : seek disk' files = seek disk files := by
  induction files with
  | nil => rfl
  | cons file files ih =>
      obtain ⟨here, later⟩ := List.forall_mem_cons.mp h
      rw [seek, seek, isFile_congr here, isRoot_congr here, ih later]

theorem loadFiles_congr {files : List Path}
    (h : ∀ file ∈ files, disk'.entry file = disk.entry file) :
    loadFiles disk' files = loadFiles disk files := by
  have layers : files.mapM (namedLayer disk') = files.mapM (namedLayer disk) := by
    induction files with
    | nil => rfl
    | cons file files ih =>
        obtain ⟨here, later⟩ := List.forall_mem_cons.mp h
        rw [List.mapM_cons, List.mapM_cons, ih later, namedLayer, namedLayer, readLayer_congr here]
  unfold loadFiles
  rw [layers]

end Agreement

section Steps

variable {disk : Store} {file : Path}

theorem seek_of_no_file (h : disk.isFile file = false) (rest : List Path) :
    seek disk (file :: rest) = seek disk rest := by
  simp [seek, h]

theorem seek_of_root (h : Rooted disk file) (rest : List Path) :
    seek disk (file :: rest) = ⟨[file], true⟩ := by
  simp [seek, h.1, isRoot_iff.mpr h]

theorem seek_of_plain (hf : disk.isFile file = true) (hr : ¬ Rooted disk file)
    (rest : List Path) :
    seek disk (file :: rest) = ⟨file :: (seek disk rest).files, (seek disk rest).rooted⟩ := by
  simp [seek, hf, mt isRoot_iff.mp hr]

end Steps

theorem mem_of_mem_seek {disk : Store} {files : List Path} {file : Path}
    (h : file ∈ (seek disk files).files) : file ∈ files := by
  induction files with
  | nil => cases h
  | cons next files ih =>
      rw [List.mem_cons]
      by_cases hr : Rooted disk next
      · rw [seek_of_root hr, List.mem_singleton] at h
        exact .inl h
      · cases hf : disk.isFile next with
        | false =>
            rw [seek_of_no_file hf] at h
            exact .inr (ih h)
        | true =>
            rw [seek_of_plain hf hr, List.mem_cons] at h
            exact h.imp_right ih

theorem seek_append {disk : Store} {file : Path} (h : Rooted disk file) (below above : List Path) :
    seek disk (below ++ file :: above) = seek disk (below ++ [file]) ∧
      (seek disk (below ++ [file])).rooted = true := by
  induction below with
  | nil =>
      rw [List.nil_append, List.nil_append, seek_of_root h, seek_of_root h]
      exact ⟨rfl, rfl⟩
  | cons next below ih =>
      obtain ⟨same, rooted⟩ := ih
      rw [List.cons_append, List.cons_append]
      by_cases hr : Rooted disk next
      · rw [seek_of_root hr, seek_of_root hr]
        exact ⟨rfl, rfl⟩
      · cases hf : disk.isFile next with
        | false =>
            rw [seek_of_no_file hf, seek_of_no_file hf]
            exact ⟨same, rooted⟩
        | true =>
            rw [seek_of_plain hf hr, seek_of_plain hf hr, same]
            exact ⟨rfl, rooted⟩

theorem seek_of_unrooted {disk : Store} {files : List Path}
    (h : ∀ file ∈ files, ¬ Rooted disk file) :
    seek disk files = ⟨files.filter disk.isFile, false⟩ := by
  induction files with
  | nil => rfl
  | cons file files ih =>
      obtain ⟨here, later⟩ := List.forall_mem_cons.mp h
      cases hf : disk.isFile file with
      | false => rw [seek_of_no_file hf, ih later, List.filter_cons_of_neg (by simp [hf])]
      | true => rw [seek_of_plain hf here, ih later, List.filter_cons_of_pos hf]

theorem discover_of_rooted {disk : Store} {cwd : Path}
    (h : (seek disk (candidates cwd)).rooted = true) (home : Option Path) :
    discover disk cwd home = (seek disk (candidates cwd)).files := by
  simp [discover, h]

-- The candidates of a directory on the way up end those of every directory within it.
theorem candidates_of_within {cwd dir : Path} (h : cwd.Within dir) :
    ∃ below above, candidates cwd = below ++ dir.join fileName :: above ∧
      ∀ file ∈ below ++ [dir.join fileName],
        ∃ inner, cwd.Within inner ∧ inner.Within dir ∧ file = inner.join fileName := by
  obtain ⟨below, hb, hw⟩ := h.ancestors
  obtain ⟨above, ha⟩ := dir.exists_ancestors
  refine ⟨below.map (·.join fileName), above.map (·.join fileName), ?_, ?_⟩
  · rw [candidates, hb, ha, List.map_append, List.map_cons]
  · intro file hf
    rcases List.mem_append.mp hf with hf | hf
    · obtain ⟨inner, hi, rfl⟩ := List.mem_map.mp hf
      exact ⟨inner, (hw inner hi).1, (hw inner hi).2, rfl⟩
    · exact ⟨dir, h, .refl, List.mem_singleton.mp hf⟩

theorem load_isolated (disk : Store) (cwd : Path) (home : Option Path) :
    (∀ (dir : Path) (disk' : Store) (home' : Option Path), cwd.Within dir →
      Rooted disk (dir.join fileName) →
      (∀ inner : Path, cwd.Within inner → inner.Within dir →
        disk'.entry (inner.join fileName) = disk.entry (inner.join fileName)) →
      load disk' cwd home' = load disk cwd home) ∧
    ((∀ dir : Path, cwd.Within dir → ¬ Rooted disk (dir.join fileName)) →
      discover disk cwd home = nearby disk cwd ++
        ((home.map personalFile).filter (fun file =>
          disk.isFile file && !(nearby disk cwd).any file.same)).toList) := by
  constructor
  · intro dir disk' home' within rooted agree
    obtain ⟨below, above, hc, hw⟩ := candidates_of_within within
    have same : ∀ file ∈ below ++ [dir.join fileName], disk'.entry file = disk.entry file := by
      intro file hf
      obtain ⟨inner, hi, ho, rfl⟩ := hw file hf
      exact agree inner hi ho
    have rooted' : Rooted disk' (dir.join fileName) := by
      have here := same (dir.join fileName) (by simp)
      rw [← isRoot_iff, isRoot_congr here, isRoot_iff]
      exact rooted
    obtain ⟨found, stops⟩ := seek_append rooted below above
    obtain ⟨found', stops'⟩ := seek_append rooted' below above
    rw [load, load, discover_of_rooted (by rw [hc, found', stops']),
      discover_of_rooted (by rw [hc, found, stops]), hc, found, found', seek_congr same]
    apply loadFiles_congr
    intro file hf
    exact same file (mem_of_mem_seek hf)
  · intro unrooted
    have plain : ∀ file ∈ candidates cwd, ¬ Rooted disk file := by
      intro file hf
      obtain ⟨dir, hd, rfl⟩ := List.mem_map.mp hf
      exact unrooted dir (Path.mem_ancestors_iff.mp hd)
    rw [discover, seek_of_unrooted plain]
    rfl

def shared : Contents :=
  [(["w"], .folder), (["w", "src"], .folder), (["w", ".atlasq.toml"], .file "root = true\n")]

def crowded : Contents :=
  ([".atlasq.toml"], .file "root = [") :: (["home"], .folder) ::
    (["home", ".atlasq.toml"], .file "[search]\nindex = \"home\"\n") :: shared

theorem load_isolated_shared :
    Path.Within ⟨"/w/src"⟩ ⟨"/w"⟩ ∧ Rooted shared.store (Path.join ⟨"/w"⟩ fileName) ∧
      load crowded.store ⟨"/w/src"⟩ (some ⟨"/home"⟩) = load shared.store ⟨"/w/src"⟩ none := by
  have run : Path.Within ⟨"/w/src"⟩ ⟨"/w"⟩ ∧
      isRoot shared.store (Path.join ⟨"/w"⟩ fileName) = true ∧
      ∀ inner ∈ Path.ancestors ⟨"/w/src"⟩, inner.Within ⟨"/w"⟩ →
        crowded.store.entry (inner.join fileName) = shared.store.entry (inner.join fileName) := by
    decide +kernel
  obtain ⟨within, root, agree⟩ := run
  have rooted := isRoot_iff.mp root
  refine ⟨within, rooted, ?_⟩
  refine (load_isolated shared.store ⟨"/w/src"⟩ none).1 ⟨"/w"⟩ crowded.store (some ⟨"/home"⟩) within
    rooted ?_
  intro inner below above
  exact agree inner (Path.mem_ancestors_iff.mpr below) above

end Criteria.Settings
