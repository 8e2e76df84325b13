import Retype.CommandLine.Args
import Retype.Migration

/-! A run of the command line on a directory of files: the lines it prints, the files it leaves, and how it
ends. -/

namespace Retype.CommandLine

def program : String := "hemmer-provider-migrator"

def versionText : String := program ++ " 0.4.1"

def helpLines : Mode → List String
  | .top => [
      "Migrate untyped provider resources to typed resources",
      "",
      "Usage: " ++ program ++ " [OPTIONS] <COMMAND>",
      "",
      "Commands:",
      "  migrate  Migrate resources and write `<file>_typed.rs` beside each definition",
      "  list     List the untyped resource definitions found in a source directory",
      "  help     Print this message or the help of the given subcommand(s)",
      "",
      "Options:",
      "  -v, --verbose  Enable verbose output",
      "  -h, --help     Print help",
      "  -V, --version  Print version"]
  | .migrate => [
      "Migrate resources and write `<file>_typed.rs` beside each definition",
      "",
      "Usage: " ++ program ++ " migrate [OPTIONS] --source <SOURCE> <NAMES>...",
      "",
      "Arguments:",
      "  <NAMES>...  Resource type names to migrate",
      "",
      "Options:",
      "  -s, --source <SOURCE>  Provider source directory to scan",
      "  -c, --config <CONFIG>  Migration config (YAML); built-in conventions if omitted",
      "  -r, --report <REPORT>  Write a JSON summary of the run",
      "      --strict           Fail resources that have unresolved lookups",
      "  -v, --verbose          Enable verbose output",
      "  -h, --help             Print help",
      "",
      "EXAMPLES:",
      "  # Migrate one resource (the azurerm_ prefix is optional)",
      "  " ++ program ++ " migrate --source ./internal/services redis_cache",
      "",
      "  # Migrate several resources with a custom config and a JSON report",
      "  " ++ program ++ " migrate \\",
      "    --source ./internal/services \\",
      "    --config migrate.yaml \\",
      "    --report report.json \\",
      "    azurerm_redis_cache azurerm_storage_account",
      "",
      "  # Refuse to write resources with unresolved lookups",
      "  " ++ program ++ " migrate --source ./internal/services --strict redis_cache"]
  | .list => [
      "List the untyped resource definitions found in a source directory",
      "",
      "Usage: " ++ program ++ " list [OPTIONS] --source <SOURCE>",
      "",
      "Options:",
      "  -s, --source <SOURCE>  Provider source directory to scan",
      "  -c, --config <CONFIG>  Migration config (YAML); built-in conventions if omitted",
      "  -v, --verbose          Enable verbose output",
      "  -h, --help             Print help"]

def migratedLines (ms : List Migrated) : List String :=
  if ms.isEmpty then []
  else "" :: "Migrated:" :: ms.map fun m => "  ✓ " ++ m.name ++ " → " ++ m.output

def incompleteLines (ms : List Migrated) : List String :=
  if ms.isEmpty then []
  else "" :: "Needs manual completion:" :: ms.flatMap fun m =>
    ("  ⚠ " ++ m.name ++ " (" ++ toString m.unresolved.length ++ " unresolved)") ::
      m.unresolved.map ("      " ++ ·)

def skippedLines (ks : List Skipped) : List String :=
  if ks.isEmpty then []
  else "" :: "Skipped:" :: ks.map fun k => "  ✗ " ++ k.name ++ ": " ++ k.reason

/-- What was migrated, what of it is to be completed, what was skipped, and the counts. -/
def summaryLines (s : Summary) : List String :=
  migratedLines s.migrated ++ incompleteLines s.incomplete ++ skippedLines s.skipped ++
    ["", (if s.skipped.isEmpty then "✓ " else "⚠ ") ++ toString s.migrated.length ++ " migrated, " ++
      toString s.skipped.length ++ " skipped"]

def entryLine (verbose : Bool) (e : RegistryEntry) : String :=
  "  • " ++ e.name ++ (if verbose then " (" ++ e.function ++ " in " ++ e.path ++ ")" else "")

inductive Failure
  | scan (source : String) (cause : FileError)
  | config (cause : ConfigError)
  | report (path : String) (cause : FileError)
  | nothingMigrated
  deriving DecidableEq, Repr

def Failure.message : Failure → String
  | .scan source _ => String.join ["Failed to scan ", source]
  | .config _ => "Failed to load migration config"
  | .report path _ => String.join ["Failed to write report ", path]
  | .nothingMigrated => "No resources were migrated"

/-- The lines printed and the files as they are. -/
structure Screen where
  lines : List String
  files : Files

/-- A command may end early, with a failure or with the death of the process. -/
abbrev Session := ExceptT (Option Failure) (StateM Screen)

def fail {α : Type} (e : Failure) : Session α := throw (some e)

def die {α : Type} : Session α := throw none

def say (lines : List String) : Session Unit := modify fun s => { s with lines := s.lines ++ lines }

def files : Session Files := do return (← get).files

def loadConfig : Option String → Session Config
  | none => pure {}
  | some path => do
    say ["→ Loading config: " ++ path]
    match Config.load (← files) path with
    | .ok config => pure config
    | .error e => fail (.config e)

def scan (config : Config) (source : String) : Session Registry := do
  say ["→ Scanning " ++ source]
  match Registry.scan config (← files) source with
  | .ok registry =>
    say ["✓ Found " ++ toString registry.length ++ " resource definitions"]
    pure registry
  | .error e => fail (.scan source e)

def writeReport (s : Summary) (path : String) : Session Unit := do
  match s.write (← files) path with
  | .ok written =>
    modify fun screen => { screen with files := written }
    say ["", "✓ Report written to " ++ path]
  | .error e => fail (.report path e)

/-- Migrates the names; a run that migrates none of them fails. -/
def runMigrate (config : Config) (source : String) (report : Option String) (names : List String) : Session Unit := do
  let registry ← scan config source
  say ["→ Migrating " ++ toString names.length ++ " resources..."]
  let (written, summary) := migrate config registry (← files) names
  modify fun screen => { screen with files := written }
  let some summary := summary | die
  say (summaryLines summary)
  if let some path := report then writeReport summary path
  if summary.migrated.isEmpty then fail .nothingMigrated

def runList (config : Config) (source : String) (verbose : Bool) : Session Unit := do
  let registry ← scan config source
  say ("" :: "Resources:" :: registry.map fun e => entryLine verbose e.2)

def runCommand : Command → Session Unit
  | .migrate source config report strict names => do
    let config ← loadConfig config
    runMigrate { config with strict := config.strict || strict } source report names
  | .list source config verbose => do
    runList (← loadConfig config) source verbose

/-- How a run ended.  A process that dies has no code of its own. -/
structure Outcome where
  code : Option Nat
  output : String
  message : Option String
  files : Files

def printed (lines : List String) : String := String.join (lines.map (· ++ "\n"))

/-- Runs a command line.  A command line that names no command has code 2, and a command that fails code 1. -/
def run (args : List String) (fs : Files) : Outcome :=
  match Command.ofArgs args with
  | .error .usage => ⟨some 2, "", some ("Usage: " ++ program ++ " [OPTIONS] <COMMAND>"), fs⟩
  | .error (.help mode) => ⟨some 0, printed (helpLines mode), none, fs⟩
  | .error .version => ⟨some 0, printed [versionText], none, fs⟩
  | .ok command =>
    match (runCommand command).run.run ⟨[], fs⟩ with
    | (.ok (), screen) => ⟨some 0, printed screen.lines, none, screen.files⟩
    | (.error (some e), screen) => ⟨some 1, printed screen.lines, some ("Error: " ++ e.message), screen.files⟩
    | (.error none, screen) => ⟨none, printed screen.lines, none, screen.files⟩

end Retype.CommandLine
