import Retype.ConfigFile
import Retype.Format
import Retype.Imports
import Retype.Registry
import Retype.Text.Quoted

/-! Writing typed files beside their sources.  Once a file is written its imports are fixed; where that fails
the file stays as it is, but where the process dies of it there is no answer. -/

namespace Retype
open Retype.Code

/-- What an operation on files ends with instead of an answer. -/
inductive Halt (ε : Type)
  /-- No file is changed. -/
  | failed (e : ε)
  /-- The process dies, and leaves files behind. -/
  | died (files : Files)

def Halt.map {ε ε' : Type} (f : ε → ε') : Halt ε → Halt ε'
  | .failed e => .failed (f e)
  | .died files => .died files

namespace Imports

/-- Fixes the imports of a file that is already written, and answers how many changed.  It fails if the file cannot
be read, does not parse, or cannot be written. -/
def resolve (known : Known) (files : Files) (path : String) : Except (Halt Unit) (Files × Nat) :=
  match (files.read path).toOption.bind fun source => (ParsedFile.ofSource? path source).map fun p => (source, p) with
  | none => .error (.failed ())
  | some (source, parsed) =>
    let attrs := parsed.items.filter ParsedFile.isAttr
    match fix? known attrs parsed.ownItems with
    | none => .error (.died files)
    | some fixed =>
      if fixed.changes = 0 then .ok (files, 0)
      else
        match Format.unparse? (splitInterpreter source).1 (attrs ++ fixed.items) with
        | none => .error (.died files)
        | some text => ((files.write path text).map (·, fixed.changes)).mapError fun _ => .failed ()

end Imports

structure WriteError where
  path : String
  cause : FileError
  deriving DecidableEq, Repr

def WriteError.message (e : WriteError) : String :=
  String.join ["Failed to write ", Text.quoted e.path, ": ", e.cause.message]

def writeCode (known : Imports.Known) (files : Files) (path : String) (items : Trees) :
    Except (Halt WriteError) Files := do
  let some text := Format.code? items | throw (.died files)
  let written ← (files.write path text).mapError fun e => .failed ⟨path, e⟩
  match Imports.resolve known written path with
  | .ok (fixed, _) => pure fixed
  | .error (.failed ()) => pure written
  | .error (.died left) => throw (.died left)

/-- Writes the typed file of a source beside it; the answer holds its path. -/
def emit (config : Config) (files : Files) (source : String) (items : Trees) :
    Except (Halt WriteError) (Files × String) :=
  let path := Path.output source config.outputSuffix
  (writeCode (Imports.Known.ofTable config.knownImports) files path items).map fun written => (written, path)

end Retype
