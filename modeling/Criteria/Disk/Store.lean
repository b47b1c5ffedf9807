import Criteria.Disk.Path

namespace Criteria.Disk

inductive Fault where
  | missing
  | notFolder
  | isFolder
  | tooLong
  | notText
  deriving DecidableEq, Repr

def Fault.message : Fault → String
  | .missing => "No such file or directory (os error 2)"
  | .notFolder => "Not a directory (os error 20)"
  | .isFolder => "Is a directory (os error 21)"
  | .tooLong => "File name too long (os error 36)"
  | .notText => "stream did not contain valid UTF-8"

inductive Entry where
  | file (text : String)
  | binary
  | folder
  deriving DecidableEq

def Entry.isFile : Entry → Bool
  | .file _ => true
  | .binary => true
  | .folder => false

structure Store where
  entry : Path → Except Fault Entry

namespace Store

def read (s : Store) (p : Path) : Except Fault String :=
  match s.entry p with
  | .error fault => .error fault
  | .ok (.file text) => .ok text
  | .ok .binary => .error .notText
  | .ok .folder => .error .isFolder

def isFile (s : Store) (p : Path) : Bool :=
  match s.entry p with
  | .ok e => e.isFile
  | .error _ => false

def holds (s : Store) (p : Path) : Bool :=
  match s.entry p with
  | .ok _ => true
  | .error _ => false

def writable (s : Store) (p : Path) : Except Fault Unit :=
  match s.entry p with
  | .ok .folder => .error .isFolder
  | _ => .ok ()

theorem holds_of_read {s : Store} {p : Path} {text : String} (h : s.read p = .ok text) :
    s.isFile p = true ∧ s.holds p = true := by
  unfold read at h
  unfold isFile holds
  split at h <;> simp_all [Entry.isFile]

end Store

abbrev Contents := List (List String × Entry)

def longestName : Nat := 255

def longestPath : Nat := 4095

namespace Contents

def at? (contents : Contents) (names : List String) : Option Entry :=
  if names = [] then some .folder else List.lookup names contents

def reach (contents : Contents) (place : List String) : List String → Except Fault Entry
  | [] =>
      match contents.at? place with
      | some e => .ok e
      | none => .error .missing
  | piece :: pieces =>
      match contents.at? place with
      | none => .error .missing
      | some .folder =>
          if Path.idle piece then reach contents place pieces
          else if piece = ".." then reach contents place.dropLast pieces
          else if longestName < piece.utf8ByteSize then .error .tooLong
          else reach contents (place ++ [piece]) pieces
      | some _ => .error .notFolder

def store (contents : Contents) : Store where
  entry p :=
    if longestPath < p.text.utf8ByteSize then .error .tooLong else contents.reach [] p.pieces

theorem reach_idle (contents : Contents) (pieces : List String) :
    contents.reach [] ("" :: pieces) = contents.reach [] pieces := by
  simp [reach, at?, Path.idle]

end Contents

end Criteria.Disk
