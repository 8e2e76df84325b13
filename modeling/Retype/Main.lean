import Retype.CommandLine

/-! The program.  It reads what lies below the working directory and below the paths that it is given, runs the
command line on it, and writes back the files that the run has changed. -/

open Retype

namespace Retype.Program

def contentOf (bytes : ByteArray) : Content :=
  match String.fromUTF8? bytes with
  | some s => .text s
  | none => .bytes (bytes.toList.map (·.toNat))

def pathOf (names : List String) : String := "/" ++ "/".intercalate names

/-- Adds what is at names, and all that lies below; directories come before their content. -/
partial def gather (names : List String) (fs : Files) : IO Files := do
  match ← (IO.FS.readBinFile (pathOf names)).toBaseIO with
  | .ok bytes => return fs.put names (.file (contentOf bytes))
  | .error _ =>
    match ← (IO.FS.realPath (pathOf names) >>= (·.readDir)).toBaseIO with
    | .ok entries => entries.foldlM (fun fs entry => gather (names ++ [entry.fileName]) fs) (fs.put names .directory)
    | .error _ => return fs

/-- Adds what an argument may be the path of, or at least the directory that it may name a file in. -/
def gatherArgument (fs : Files) (arg : String) : IO Files := do
  match ← (IO.FS.realPath arg).toBaseIO with
  | .ok real =>
    let names := Path.names real.toString
    gather names (fs.addAbove names)
  | .error _ =>
    match ← (IO.FS.realPath (Path.parentOf arg)).toBaseIO with
    | .ok real => return fs.addAbove (Path.names real.toString ++ [Path.lastName arg])
    | .error _ => return fs

/-- Writes the texts that differ from what was there. -/
def store (before after : Files) : IO Unit := do
  for (names, entry) in after.entries do
    if before.get? names != some entry then
      if let .file (.text s) := entry then
        IO.FS.writeFile (pathOf names) s

end Retype.Program

def main (args : List String) : IO UInt32 := do
  let here := (← IO.currentDir).toString
  let before ← (here :: args.flatMap (·.splitOn "=")).foldlM Program.gatherArgument { cwd := Path.names here }
  let outcome := CommandLine.run args before
  Program.store before outcome.files
  IO.print outcome.output
  if let some message := outcome.message then IO.eprintln message
  return (outcome.code.getD 101).toUInt32
