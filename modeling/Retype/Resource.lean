import Retype.Registry
import Retype.Schema
import Retype.Rewrite.Context

/-! A resource as its definition and the functions beside it describe it. -/

namespace Retype
open Retype.Code
open Retype.Rewrite (Role)

/-- Why a source tree or a definition cannot be used. -/
inductive AnalysisError
  | unreadable (cause : FileError)
  | missingDefinition (resource : String)
  | missingSchema (resource : String)
  | missingFunction (resource : String) (role : Role)
  deriving DecidableEq, Repr

def AnalysisError.message : AnalysisError → String
  | .unreadable cause => String.join ["Failed to read source directory: ", cause.message]
  | .missingDefinition resource => String.join ["No untyped definition found for resource ", resource]
  | .missingSchema resource => String.join ["Resource ", resource, " has no parseable schema map"]
  | .missingFunction resource role => String.join ["Resource ", resource, " is missing its ", role.label, " function"]

structure ResourceFn where
  name : String
  role : Role
  /-- The variable that holds the model. -/
  varModel : String
  /-- The parameter through which state is read and written. -/
  accessor : Option String
  /-- In milliseconds; zero if the definition gives none. -/
  timeout : Nat
  code : Fn

structure Resource where
  /-- The resource type. -/
  type : String
  /-- The name that the names of models and of the receiver begin with. -/
  name : String
  /-- The directory that the source lies in. -/
  package : String
  schemaVersion : Nat
  idValidator : Option Tree
  stateUpgraders : Option Tree
  imports : Trees
  models : ModelSet
  /-- The fields of the schema that can be set. -/
  arguments : List SchemaField
  /-- The fields that only the service sets. -/
  attributes : List SchemaField
  /-- The function that wraps the entries of the schema. -/
  schemaConstructor : Option Tree
  functions : List ResourceFn
  create : String
  read : String
  update : Option String
  delete : String
  /-- Items that are carried over as they are. -/
  passthrough : Trees

namespace Resource

def modelName (r : Resource) : String := r.models.top

def receiver (r : Resource) : String := r.name ++ "Resource"

def function? (r : Resource) (name : String) : Option ResourceFn := r.functions.find? (·.name == name)

end Resource

namespace ResourceFn

/-- The type, references aside, ends in the name of the accessor type. -/
def isAccessorType (accessorType : String) (t : Tree) : Bool :=
  t.bareType.typePath?.any fun path => path.lastSegment? == some accessorType

/-- The first named parameter of the accessor type. -/
def accessorOf (config : Config) (f : Fn) : Option String :=
  f.inputs.findSome? fun input => do
    let (pat, ty) ← param? input
    let name ← patIdent? pat
    if isAccessorType config.accessorType ty then some name else none

def varModelOf (config : Config) (role : Role) (accessor : Option String) : String :=
  match accessor, role with
  | some a, .helper => a
  | _, _ => config.modelVar

/-- A function of a file, given the roles of functions and the timeouts of roles. -/
def ofFn (config : Config) (roles : String → Role) (timeouts : String → Option Nat) (f : Fn) : ResourceFn :=
  let role := roles f.name
  let accessor := accessorOf config f
  { name := f.name
    role := role
    varModel := varModelOf config role accessor
    accessor := accessor
    timeout := if role.isCrud then (timeouts role.label).getD 0 else 0
    code := f }

end ResourceFn

namespace Definition

def signed64 (n : Int) : Option Int := if Int64.minValue.toInt ≤ n && n ≤ Int64.maxValue.toInt then some n else none

def unsigned64 (n : Int) : Option Nat := if 0 ≤ n && n < UInt64.size then some n.toNat else none

def arithmetic (l r : Int) : Tree → Option Int
  | .leaf (.punct "*" _) => signed64 (l * r)
  | .leaf (.punct "+" _) => signed64 (l + r)
  | .leaf (.punct "-" _) => signed64 (l - r)
  | _ => none

/-- The value of a constant integer expression, if no step leaves the range of signed 64-bit integers. -/
def integer? : Tree → Option Int
  | .node (.expr .lit) [_, .leaf (.literal t)] => (Literal.intValue? t).bind signed64
  | .node (.expr .paren) [_, .group _ [e]] => integer? e
  | .node (.expr .binary) [_, l, o, r] =>
    match integer? l, integer? r with
    | some a, some b => arithmetic a b o
    | _, _ => none
  | _ => none

def seconds (scale : Nat) (e : Tree) : Option Nat := do
  let n ← unsigned64 (← integer? e)
  (unsigned64 ((n * scale : Nat) : Int)).map (· * 1000)

mutual
/-- A duration in milliseconds: a constant in a unit, inside any calls of one argument. -/
def duration? : Tree → Option Nat
  | .node (.expr .paren) [_, .group _ [e]] => duration? e
  | .node (.expr .call) [_, .node (.expr .path) [_, path], .group _ args] =>
    if (Trees.members args).length != 1 then none
    else
      match path.lastSegment? with
      | none => none
      | some "from_secs" => (args.head?).bind (seconds 1)
      | some "from_mins" => (args.head?).bind (seconds 60)
      | some "from_hours" => (args.head?).bind (seconds 3600)
      | some "from_millis" => (args.head?).bind fun e => (integer? e).bind unsigned64
      | some _ => firstDuration? args
  | _ => none

def firstDuration? : List Tree → Option Nat
  | [] => none
  | t :: _ => duration? t
end

/-- The timeouts that a literal gives, by the names of its fields. -/
def timeouts (e : Tree) : Table Nat :=
  match e.structLit? with
  | some lit => Table.ofList (lit.fields.filterMap fun (name, value) => (duration? value).map (name, ·))
  | none => []

/-- The function that a field names: a name, alone or in `Some(…)`. -/
def function? : Tree → Option String
  | .node (.expr .path) [_, path] => path.pathIdent?.filter (· != "None")
  | .node (.expr .call) [_, .node (.expr .path) [_, callee], .group _ [arg]] =>
    if callee.pathIdent? == some "Some" then function? arg else none
  | .node (.expr .call) [_, .node (.expr .path) [_, callee], .group _ [arg, _]] =>
    if callee.pathIdent? == some "Some" then function? arg else none
  | _ => none

/-- What validates the identifier of an imported resource: the argument of the importer, or the importer. -/
def validator (e : Tree) : Tree :=
  match e.call? with
  | some ⟨_, [arg]⟩ => arg
  | _ => e

def schemaVersion (lit : StructLit) : Nat :=
  match (field? lit "schema_version").bind integer? with
  | some n => if 0 ≤ n && n < UInt32.size then n.toNat else 0
  | none => 0

/-- The schema tag that an attribute gives a field. -/
def tagOf? (attrs : Tree) : Option String := do
  let attr ← attrs.parts.find? isTag
  match attr with
  | .node .attr [_, .group _ [.node .metaList [_, .group _ [.leaf (.literal t)]]]] => Literal.stringValue? t
  | _ => none
where
  isTag : Tree → Bool
    | .node .attr [_, .group _ [.node _ (path :: _)]] => path.pathIdent? == some "tfschema"
    | _ => false

def modelField? : Tree → Option ModelField
  | .node .field [attrs, _, .leaf (.ident name), _, ty] =>
    (tagOf? attrs).map fun tag => ⟨unraw name, Naming.renderType ty, tag⟩
  | _ => none

def declaredModel? : Tree → Option Model
  | .node (.item .struct) [_, _, _, .leaf (.ident name), _, _, .group _ fields, _, _] =>
    match fields.filterMap modelField? with
    | [] => none
    | fields => some ⟨name, fields, true⟩
  | _ => none

/-- Declared models take the places of derived ones at the end. -/
def withDeclared (models declared : List Model) : List Model :=
  declared.foldl (fun models m => models.filter (·.name != m.name) ++ [m]) models

end Definition

namespace Resource

/-- The functions of a definition by their roles, and what else the definition says of them. -/
structure Crud where
  create : String
  read : String
  delete : String
  update : Option String

/-- The role of a function; one with several takes the last of create, read, delete and update. -/
def Crud.role (c : Crud) (name : String) : Role :=
  if c.update == some name then .update
  else if c.delete == name then .delete
  else if c.read == name then .read
  else if c.create == name then .create
  else .helper

/-- The roles in the order in which their functions are looked for. -/
def Crud.named (c : Crud) : List (Role × String) :=
  [(.create, c.create), (.read, c.read), (.delete, c.delete)] ++ c.update.toList.map fun u => (.update, u)

def crud (resource : String) (lit : StructLit) : Except AnalysisError Crud := do
  let get (role : Role) : Option String := (Definition.field? lit role.label).bind Definition.function?
  let need (role : Role) : Except AnalysisError String :=
    match get role with
    | some name => .ok name
    | none => .error (.missingFunction resource role)
  let create ← need .create
  let read ← need .read
  let delete ← need .delete
  pure ⟨create, read, delete, get .update⟩

def schemaOf (config : Config) (lit : StructLit) : Option Schema.Map :=
  (Definition.field? lit "schema").bind (Schema.ofExpr? config)

def definitionOf (config : Config) (entry : RegistryEntry) : Option StructLit :=
  ((entry.items.filterMap (·.fn?)).find? (·.name == entry.function)).bind
    (Definition.fields? config.resourceTypeName)

/-- Reads the resource that a registry entry defines. -/
def ofEntry (config : Config) (entry : RegistryEntry) : Except AnalysisError Resource := do
  let some lit := definitionOf config entry | .error (.missingDefinition entry.name)
  let some schema := schemaOf config lit | .error (.missingSchema entry.name)
  let crud ← crud entry.name lit
  let timeouts := ((Definition.field? lit "timeouts").map Definition.timeouts).getD []
  let functions := ((entry.items.filterMap (·.fn?)).filter (·.name != entry.function)).map
    (ResourceFn.ofFn config crud.role (Table.get? timeouts))
  match crud.named.find? fun (_, name) => !functions.any (·.name == name) with
  | some (role, _) => .error (.missingFunction entry.name role)
  | none =>
    let name := Text.upperCamel (Registry.dropStart config.namePrefix entry.name)
    let top := name ++ "Model"
    pure {
      type := entry.name
      name := name
      package := Path.directoryName entry.path
      schemaVersion := Definition.schemaVersion lit
      idValidator := (Definition.field? lit "importer").map Definition.validator
      stateUpgraders := Definition.field? lit "state_upgraders"
      imports := entry.items.filter isUse
      models := ⟨top, Definition.withDeclared (Schema.models top schema.fields)
        (entry.items.filterMap Definition.declaredModel?)⟩
      arguments := schema.fields.filter (!·.isAttribute)
      attributes := schema.fields.filter (·.isAttribute)
      schemaConstructor := schema.constructor
      functions := functions
      create := crud.create
      read := crud.read
      update := crud.update
      delete := crud.delete
      passthrough := entry.items.filter fun t => !isUse t && t.fn?.isNone }

end Resource
end Retype
