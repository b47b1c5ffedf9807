import Criteria.Disk.Store
import Criteria.Settings.Basic

namespace Criteria.Settings

open Disk (Path Store Fault)

inductive LoadError where
  | unreadable (file : Path) (fault : Fault)
  | malformed (file : Path)
  | thresholds (m : Misfit)

def LoadError.message : LoadError → String
  | .unreadable file fault => "failed to read config file " ++ file.text ++ ": " ++ fault.message
  | .malformed file => "failed to parse config file " ++ file.text
  | .thresholds m => "invalid resolver thresholds: " ++ m.message

def fileName : String :=
  ".atlasq.toml"

def personalFile (home : Path) : Path :=
  home.join fileName

def readLayer (disk : Store) (file : Path) : Except LoadError Layer :=
  match disk.read file with
  | .error fault => .error (.unreadable file fault)
  | .ok text =>
      match Layer.parse text with
      | some l => .ok l
      | none => .error (.malformed file)

def isRoot (disk : Store) (file : Path) : Bool :=
  match readLayer disk file with
  | .ok l => l.root = some true
  | .error _ => false

structure Found where
  files : List Path
  rooted : Bool

def seek (disk : Store) : List Path → Found
  | [] => ⟨[], false⟩
  | file :: rest =>
      if !disk.isFile file then seek disk rest
      else if isRoot disk file then ⟨[file], true⟩
      else
        let found := seek disk rest
        ⟨file :: found.files, found.rooted⟩

theorem seek_isFile {disk : Store} {candidates : List Path} {file : Path}
    (h : file ∈ (seek disk candidates).files) : disk.isFile file = true := by
  induction candidates with
  | nil => simp [seek] at h
  | cons c rest ih =>
      simp only [seek] at h
      split at h
      · exact ih h
      · rename_i hc
        simp only [Bool.not_eq_true', Bool.not_eq_false] at hc
        split at h
        · simp only [List.mem_singleton] at h
          rw [h, hc]
        · simp only [List.mem_cons] at h
          rcases h with h | h
          · rw [h, hc]
          · exact ih h

def candidates (cwd : Path) : List Path :=
  cwd.ancestors.map (fun dir => dir.join fileName)

def discover (disk : Store) (cwd : Path) (home : Option Path) : List Path :=
  let found := seek disk (candidates cwd)
  let personal := (home.map personalFile).filter (fun file =>
    disk.isFile file && !found.files.any file.same)
  if found.rooted then found.files else found.files ++ personal.toList

def isPersonal (home : Option Path) (file : Path) : Bool :=
  (home.map personalFile).any file.same

def namedLayer (disk : Store) (file : Path) : Except LoadError (Path × Layer) :=
  (readLayer disk file).map (fun l => (file, l))

def loadFiles (disk : Store) (files : List Path) : Except LoadError Settings :=
  match files with
  | [] => .ok {}
  | _ => do
      let layers ← files.mapM (namedLayer disk)
      (merge layers).mapError .thresholds

def load (disk : Store) (cwd : Path) (home : Option Path) : Except LoadError Settings :=
  loadFiles disk (discover disk cwd home)

end Criteria.Settings
