import Retype.Emit
import Retype.Summary
import Retype.TypedFile
import Retype.Rewrite.Run

/-! Migration of resources.  Each is migrated on its own: one that fails is recorded with the reason, and the
next one follows.  One that the process dies of takes the rest of the run with it. -/

namespace Retype

inductive MigrationError
  | config (e : ConfigError)
  | analysis (e : AnalysisError)
  /-- Look-ups are left where none may be. -/
  | unresolved (resource : String) (count : Nat)
  | assembly (e : AssemblyError)
  | write (e : WriteError)

namespace MigrationError

def message : MigrationError → String
  | .config e => String.join ["Config error: ", e.message]
  | .analysis e => e.message
  | .unresolved resource count => String.join [resource, " has ", toString count, " unresolved lookups (strict mode)"]
  | .assembly e => e.message
  | .write e => e.message

end MigrationError

/-- Analyses, rewrites, assembles and writes the resource of an entry. -/
def migrateEntry (config : Config) (files : Files) (entry : RegistryEntry) :
    Except (Halt MigrationError) (Files × Migrated) := do
  if let some e := config.fault? then throw (.failed (.config e))
  let resource ← (Resource.ofEntry config entry).mapError fun e => .failed (.analysis e)
  let some (rewritten, state) := Rewrite.rewriteResource? config resource | throw (.died files)
  if config.strict && !state.unresolved.isEmpty then
    throw (.failed (.unresolved entry.name state.unresolved.length))
  let items ← (TypedFile.items config state.promoted rewritten).mapError fun e => .failed (.assembly e)
  let (written, output) ← (emit config files entry.path items).mapError (·.map .write)
  return (written, ⟨entry.name, output, state.unresolved⟩)

/-- The files and the summary after the resource of one more name. -/
def migrateName (config : Config) (registry : Registry) (files : Files) (summary : Summary) (name : String) :
    Files × Option Summary :=
  match registry.resolve name config.namePrefix with
  | none => (files, some (summary.addSkipped ⟨name, "not found in registry"⟩))
  | some entry =>
    match migrateEntry config files entry with
    | .ok (written, migrated) => (written, some (summary.addMigrated migrated))
    | .error (.failed e) => (files, some (summary.addSkipped ⟨name, e.message⟩))
    | .error (.died left) => (left, none)

/-- Migrates resources by their names, in order.  There is no summary if the process dies, and no name follows the
one that it dies of. -/
def migrate (config : Config) (registry : Registry) (files : Files) (names : List String) : Files × Option Summary :=
  names.foldl (fun (fs, s) name => s.elim (fs, none) fun s => migrateName config registry fs s name) (files, some {})

end Retype
