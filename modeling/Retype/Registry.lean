import Retype.Config
import Retype.Definition
import Retype.Files

/-! The definitions of a source tree by the names of their resources.  A registration names the resource of a
definition; without one the name follows from the name of the function. -/

namespace Retype
open Retype.Code

structure RegistryEntry where
  /-- The resource type. -/
  name : String
  /-- The function that defines it. -/
  function : String
  path : String
  /-- The items of the file that holds the definition. -/
  items : Trees

abbrev Registry := Table RegistryEntry

/-- A file that parses: its path, and its items with the attributes of the file in front. -/
structure ParsedFile where
  path : String
  items : Trees

namespace ParsedFile

def isAttr : Tree → Bool
  | .node .attr _ => true
  | _ => false

def ofSource? (path source : String) : Option ParsedFile := (parseFile source).map fun items => ⟨path, items⟩

def ownItems (f : ParsedFile) : Trees := f.items.filter fun t => !isAttr t

end ParsedFile

namespace Registry

def dropStart (front s : String) : String :=
  if front.toList.isPrefixOf s.toList then String.ofList (s.toList.drop front.toList.length) else s

/-- The names under which a definition function is registered. -/
def namesOf (config : Config) (registrations : List Registration) (function : String) : List String :=
  match (registrations.filter (·.function == function)).map (·.name) with
  | [] => [config.namePrefix ++ dropStart "resource_" function]
  | names => names

def entriesOf (config : Config) (registrations : List Registration) (file : ParsedFile) : List RegistryEntry :=
  (file.ownItems.filterMap (·.fn?)).flatMap fun f =>
    if (Definition.literal? config.resourceTypeName f).isNone then []
    else (namesOf config registrations f.name).map fun name => ⟨name, f.name, file.path, file.ownItems⟩

/-- Enters the definitions of files; of two with one name the later counts. -/
def ofFiles (config : Config) (files : List ParsedFile) : Registry :=
  let registrations := files.flatMap fun f => Registration.collectAll f.items
  Table.ofList ((files.flatMap (entriesOf config registrations)).map fun e => (e.name, e))

/-- Enters the definitions of sources; one that does not parse is passed over. -/
def ofSources (config : Config) (sources : List (String × String)) : Registry :=
  ofFiles config (sources.filterMap fun (path, source) => ParsedFile.ofSource? path source)

/-- Looks a name up as it is and then with the prefix in front. -/
def resolve (r : Registry) (name namePrefix : String) : Option RegistryEntry :=
  Table.get? r name <|> Table.get? r (namePrefix ++ name)

def names (r : Registry) : List String := r.map (·.1)

/-- A source file, and not the output of an earlier run. -/
def isSource (config : Config) (path : String) : Bool :=
  Path.extension? path == some "rs" &&
    !(Path.stem? path).any fun stem => config.outputSuffix.toList.isSuffixOf stem.toList

def sourcesBelow (config : Config) (files : Files) (root : String) : List (String × String) :=
  (files.below root).filterMap fun (path, entry) =>
    match entry with
    | .file (.text source) => if isSource config path then some (path, source) else none
    | _ => none

/-- Enters the definitions of the source files below a directory. -/
def scan (config : Config) (files : Files) (root : String) : Except FileError Registry :=
  (files.checkDirectory root).map fun _ => ofSources config (sourcesBelow config files root)

end Registry
end Retype
