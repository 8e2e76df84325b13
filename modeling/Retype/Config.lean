import Retype.Table
import Retype.ValueKind
import Retype.Code.Grammar

/-! The conventions that a migration goes by. -/

namespace Retype
open Retype.Text

structure SchemaHelper where
  kind : ValueKind
  elem : Option ValueKind
  required : Bool
  computed : Bool
  deriving DecidableEq, Repr

structure Config where
  /-- What the names of resource types begin with. -/
  namePrefix : String := "azurerm_"
  /-- What follows the stem of a source file in the name of the output file. -/
  outputSuffix : String := "_typed"
  /-- A resource with an unresolved look-up is not written. -/
  strict : Bool := false
  /-- The type of the parameter through which state is read and written. -/
  accessorType : String := "ResourceData"
  /-- The type that a definition function returns. -/
  resourceTypeName : String := "Resource"
  modelVar : String := "model"
  metaVar : String := "meta"
  /-- The type that the metadata is downcast to. -/
  clientType : String := "Client"
  /-- Variables that hold parsed identifiers. -/
  identityVars : List String := ["id"]
  defaultTimeoutSecs : Nat := 1800
  sdkPath : String := "sdk"
  /-- The function that makes an optional value an owned one. -/
  pointerFrom : String := "pointer::from"
  /-- The function that reports that a resource exists already. -/
  importGuard : String := "tf::import_as_exists_error"
  /-- The module of the functions that acquire timeouts. -/
  timeoutModule : String := "timeouts"
  /-- The macro that releases a timeout. -/
  releaseMacro : String := "defer"
  functionRenames : Table String :=
    [("identity::expand_system_and_user_assigned_map", "identity::expand_system_and_user_assigned_map_from_model"),
     ("identity::expand_system_assigned", "identity::expand_system_assigned_from_model"),
     ("identity::flatten_system_and_user_assigned_map", "identity::flatten_system_and_user_assigned_map_to_model"),
     ("identity::flatten_system_assigned", "identity::flatten_system_assigned_to_model"),
     ("tags::expand", "tags::expand_typed"),
     ("tags::flatten", "tags::flatten_typed"),
     ("zones::expand_untyped", "zones::expand"),
     ("zones::flatten_untyped", "zones::flatten")]
  schemaHelpers : Table SchemaHelper :=
    [("commonschema::location", ⟨.string, none, true, false⟩),
     ("commonschema::location_computed", ⟨.string, none, false, true⟩),
     ("commonschema::resource_group_name", ⟨.string, none, true, false⟩),
     ("commonschema::zones_multiple_optional", ⟨.set, some .string, false, false⟩),
     ("tags::schema", ⟨.map, some .string, false, false⟩),
     ("tags::schema_computed", ⟨.map, some .string, false, true⟩)]
  /-- The path to import for a name that code begins a path with. -/
  knownImports : Table String :=
    [("Deserialize", "serde::Deserialize"),
     ("Duration", "std::time::Duration"),
     ("HashMap", "std::collections::HashMap"),
     ("Serialize", "serde::Serialize"),
     ("pluginsdk", "hemmer_provider_sdk::pluginsdk"),
     ("pointer", "hemmer_provider_sdk::pointer"),
     ("sdk", "hemmer_provider_sdk::sdk")]
  deriving DecidableEq, Repr

/-- Why a configuration is refused. -/
inductive ConfigError
  | unreadable (path cause : String)
  | malformed
  | empty (key : String)
  | notIdentifier (key value : String)
  | sameVariable (name : String)
  deriving DecidableEq, Repr

namespace ConfigError

def message : ConfigError → String
  | .unreadable path cause => String.join ["Failed to read config file ", quoted path, ": ", cause]
  | .malformed => "malformed configuration"
  | .empty key => String.join ["`", key, "` must not be empty"]
  | .notIdentifier key value => String.join ["`", key, "` value `", value, "` is not a valid identifier"]
  | .sameVariable name => String.join ["`model_var` and `meta_var` must differ (both are `", name, "`)"]

end ConfigError

namespace Config

def isBlankText (s : String) : Bool := s.toList.all isBlank

/-- Settings that must not be empty. -/
def required (c : Config) : List (String × String) :=
  [("accessor_type", c.accessorType), ("model_var", c.modelVar), ("meta_var", c.metaVar),
   ("output_suffix", c.outputSuffix)]

def variableNames (c : Config) : List (String × String) :=
  [("model_var", c.modelVar), ("meta_var", c.metaVar)] ++ c.identityVars.map fun v => ("identity_vars", v)

/-- The first fault of a configuration: an empty setting, then one that is no identifier, then a clash. -/
def fault? (c : Config) : Option ConfigError :=
  match c.required.find? fun (_, value) => isBlankText value with
  | some (key, _) => some (.empty key)
  | none =>
    match c.variableNames.find? fun (_, value) => (Code.parseIdent value).isNone with
    | some (key, value) => some (.notIdentifier key value)
    | none => if c.modelVar = c.metaVar then some (.sameVariable c.modelVar) else none

def isIdentityVar (c : Config) (name : String) : Bool := c.identityVars.contains name

/-- The identifier that a resource that is gone is marked with. -/
def primaryIdentity (c : Config) : String := c.identityVars.head?.getD "id"

end Config
end Retype
