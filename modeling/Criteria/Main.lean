import Criteria.Command.Run

namespace Criteria.Command

open Disk (Entry Fault Path Store)

def observe (p : Path) : IO (Except Fault Entry) := do
  try
    let bytes ← IO.FS.readBinFile p.text
    match String.fromUTF8? bytes with
    | some text => return .ok (.file text)
    | none => return .ok .binary
  catch
    | .inappropriateType none .. => return .ok .folder
    | .inappropriateType .. => return .error .notFolder
    | _ => return .error .missing

def storeOf (seen : List (Path × Except Fault Entry)) : Store where
  entry p := (seen.lookup p).getD (.error .missing)

def perform (a : Answer) : IO UInt32 := do
  IO.print a.stdout
  IO.eprint a.stderr
  for (file, body) in a.written do
    IO.FS.writeFile file.text body
  return UInt32.ofNat a.code

end Criteria.Command

open Criteria.Command in
def main (args : List String) : IO UInt32 := do
  let cwd : Criteria.Disk.Path := ⟨(← IO.currentDir).toString⟩
  let home : Criteria.Disk.Path := ⟨(← IO.getEnv "HOME").getD "/"⟩
  let seen ← (reads cwd home args).mapM (fun p => do return (p, ← observe p))
  perform (run ⟨storeOf seen, cwd, home⟩ args)
