/-! The words of the command line.  Options stand in any order between the names; a word that begins with `-`
is an option unless `--` stands before it. -/

namespace Retype.CommandLine

/-- Whose options are read: those before a command, or those of a command. -/
inductive Mode
  | top | migrate | list
  deriving DecidableEq, Repr

/-- Options with a value. -/
inductive Setting
  | source | config | report
  deriving DecidableEq, Repr

/-- Options without a value. -/
inductive Switch
  | verbose | strict | help | version
  deriving DecidableEq, Repr

inductive Flag
  | setting (s : Setting)
  | switch (s : Switch)
  deriving DecidableEq, Repr

/-- Why no command is run. -/
inductive Stop
  | usage
  | help (mode : Mode)
  | version
  deriving DecidableEq, Repr

/-- Settings and switches that belong to every mode have no condition. -/
def Mode.admits (m : Mode) : Flag → Bool
  | .setting .report => m = .migrate
  | .setting _ => m ≠ .top
  | .switch .strict => m = .migrate
  | .switch .version => m = .top
  | .switch _ => true

def longFlags : List (String × Flag) :=
  [("source", .setting .source), ("config", .setting .config), ("report", .setting .report),
   ("verbose", .switch .verbose), ("strict", .switch .strict), ("help", .switch .help),
   ("version", .switch .version)]

def shortFlags : List (Char × Flag) :=
  [('s', .setting .source), ('c', .setting .config), ('r', .setting .report), ('v', .switch .verbose),
   ('h', .switch .help), ('V', .switch .version)]

def Mode.long? (m : Mode) (name : String) : Option Flag :=
  ((longFlags.find? (·.1 == name)).map (·.2)).filter m.admits

def Mode.short? (m : Mode) (letter : Char) : Option Flag :=
  ((shortFlags.find? (·.1 == letter)).map (·.2)).filter m.admits

structure Given where
  source : Option String := none
  config : Option String := none
  report : Option String := none
  verbose : Bool := false
  strict : Bool := false
  names : List String := []
  deriving DecidableEq, Repr

namespace Given

def get? (g : Given) : Setting → Option String
  | .source => g.source
  | .config => g.config
  | .report => g.report

def set (g : Given) (s : Setting) (value : String) : Except Stop Given :=
  if value.isEmpty || (g.get? s).isSome then .error .usage
  else .ok (match s with
    | .source => { g with source := some value }
    | .config => { g with config := some value }
    | .report => { g with report := some value })

/-- A switch is given once; help and version end the reading. -/
def turnOn (g : Given) (m : Mode) : Switch → Except Stop Given
  | .verbose => if g.verbose then .error .usage else .ok { g with verbose := true }
  | .strict => if g.strict then .error .usage else .ok { g with strict := true }
  | .help => .error (.help m)
  | .version => .error .version

end Given

/-- What was given so far, and the setting that waits for its value. -/
abbrev Reading := Given × Option Setting

/-- `--name` or `--name=value`. -/
def readLong (m : Mode) (g : Given) (body : List Char) : Except Stop Reading :=
  let name := String.ofList (body.takeWhile (· != '='))
  match m.long? name, body.dropWhile (· != '=') with
  | some (.setting s), [] => .ok (g, some s)
  | some (.setting s), _ :: value => (g.set s (String.ofList value)).map fun g => (g, none)
  | some (.switch s), [] => (g.turnOn m s).map fun g => (g, none)
  | _, _ => .error .usage

/-- The value of a setting that stands in the same word. -/
def attached : List Char → List Char
  | '=' :: value => value
  | value => value

/-- Letters after one `-`: switches, and at the end perhaps a setting with its value. -/
def readShort (m : Mode) (g : Given) : List Char → Except Stop Reading
  | [] => .ok (g, none)
  | c :: rest =>
    match m.short? c with
    | some (.switch s) =>
      match g.turnOn m s with
      | .ok g => readShort m g rest
      | .error e => .error e
    | some (.setting s) =>
      if rest.isEmpty then .ok (g, some s) else (g.set s (String.ofList (attached rest))).map fun g => (g, none)
    | none => .error .usage

def readOption? (m : Mode) (g : Given) (w : String) : Option (Except Stop Reading) :=
  match w.toList with
  | '-' :: '-' :: body => some (readLong m g body)
  | '-' :: c :: letters => some (readShort m g (c :: letters))
  | _ => none

def readNames (m : Mode) (g : Given) (words : List String) : Except Stop Given :=
  if m = .list && !words.isEmpty then .error .usage else .ok { g with names := g.names ++ words }

def readWords (m : Mode) (r : Reading) : List String → Except Stop Given
  | [] => if r.2.isSome then .error .usage else .ok r.1
  | w :: ws =>
    if w == "--" then
      if r.2.isSome then .error .usage else readNames m r.1 ws
    else
      match readOption? m r.1 w, r.2 with
      | some _, some _ => .error .usage
      | some (.error e), none => .error e
      | some (.ok next), none => readWords m next ws
      | none, some s =>
        match r.1.set s w with
        | .ok g => readWords m (g, none) ws
        | .error e => .error e
      | none, none =>
        match readNames m r.1 [w] with
        | .ok g => readWords m (g, none) ws
        | .error e => .error e

inductive Command
  | migrate (source : String) (config report : Option String) (strict : Bool) (names : List String)
  | list (source : String) (config : Option String) (verbose : Bool)
  deriving DecidableEq, Repr

/-- The command of a mode, with what was given before and after it. -/
def commandOf (m : Mode) (before after : Given) : Except Stop Command :=
  match m, after.source with
  | .migrate, some source =>
    if after.names.isEmpty then .error .usage
    else .ok (.migrate source after.config after.report after.strict after.names)
  | .list, some source => .ok (.list source after.config (before.verbose || after.verbose))
  | _, _ => .error .usage

def helpFor : List String → Stop
  | [] => .help .top
  | ["help"] => .help .top
  | ["migrate"] => .help .migrate
  | ["list"] => .help .list
  | _ => .usage

def readCommand (g : Given) : List String → Except Stop Command
  | [] => .error .usage
  | w :: ws =>
    let read (m : Mode) : Except Stop Command := do commandOf m g (← readWords m ({}, none) ws)
    match w with
    | "migrate" => read .migrate
    | "list" => read .list
    | "help" => .error (helpFor ws)
    | _ =>
      match readOption? .top g w with
      | some (.ok (g, none)) => readCommand g ws
      | some (.error e) => .error e
      | _ => .error .usage

def Command.ofArgs (args : List String) : Except Stop Command := readCommand {} args

end Retype.CommandLine
