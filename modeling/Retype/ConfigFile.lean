import Retype.Config
import Retype.Files
import Retype.Yaml.Node

/-! Configurations as YAML.  Every setting may be left out; a setting that is not known is passed over. -/

namespace Retype
open Retype.Yaml

namespace Yaml.Node

def text? : Node → Option String
  | .scalar _ _ s => some s
  | _ => none

/-- A scalar without quotes, or a literal block with the tag. -/
def unquoted? (tag : String) : Node → Option String
  | .scalar t style s => if style = .plain || style = .literal && t == some tag then some s else none
  | _ => none

def bool? (n : Node) : Option Bool :=
  match n.unquoted? "tag:yaml.org,2002:bool" with
  | some "true" | some "True" | some "TRUE" => some true
  | some "false" | some "False" | some "FALSE" => some false
  | _ => none

def digits? (base : Nat) (s : List Char) : Option Nat :=
  if s.isEmpty then none
  else s.foldl (fun v c => v.bind fun n => ((hexDigit? c).filter (· < base)).map (n * base + ·)) (some 0)

def decimal? (s : List Char) : Option Nat :=
  if s.length > 1 && s.head? == some '0' then none else digits? 10 s

/-- Digits after a mark of their base, or decimal digits; a plus sign may stand in front. -/
def magnitude? (s : List Char) : Option Nat :=
  match if s.head? == some '+' then s.drop 1 else s with
  | '0' :: 'x' :: r => digits? 16 r
  | '0' :: 'o' :: r => digits? 8 r
  | '0' :: 'b' :: r => digits? 2 r
  | r => decimal? r

def nat? (n : Node) : Option Nat :=
  (n.unquoted? "tag:yaml.org,2002:int").bind fun s => (magnitude? s.toList).filter (· < UInt64.size)

/-- The items of a sequence; nothing written is a sequence without any. -/
def items? : Node → Option (List Node)
  | .sequence ns => some ns
  | .scalar _ .plain "" => some []
  | _ => none

/-- The entries of a mapping; nothing written is a mapping without any. -/
def entries? : Node → Option (List (Node × Node))
  | .mapping es => some es
  | .scalar _ .plain "" => some []
  | _ => none

def texts? (n : Node) : Option (List String) := n.items?.bind fun ns => ns.mapM text?

/-- A mapping from texts; of entries with one key the last counts. -/
def table? {α : Type} (value? : Node → Option α) (n : Node) : Option (Table α) := do
  let es ← (← n.entries?).mapM fun (k, v) => do some (← text? k, ← value? v)
  some (Table.ofList es)

def isNullText (s : String) : Bool := s == "null" || s == "Null" || s == "NULL" || s == "~"

def nullTag : String := "tag:yaml.org,2002:null"

/-- A value, or none where a plain scalar says so. -/
def optional? {α : Type} (value? : Node → Option α) (n : Node) : Option (Option α) :=
  match n with
  | .scalar tag .plain s =>
    if tag == some nullTag then if isNullText s then some none else none
    else if tag.isNone && (s.isEmpty || isNullText s) then some none
    else (value? n).map some
  | _ => (value? n).map some

/-- The name that a tag of the document's own gives. -/
def variant? (tag : Option String) : Option String :=
  match (tag.getD "").toList with
  | '!' :: r => some (if r.isEmpty then "!" else String.ofList r)
  | _ => none

/-- A kind of values: named by a scalar, or by the tag of an empty one. -/
def kind? : Node → Option ValueKind
  | .scalar tag style s =>
    match variant? tag with
    | some name => if style = .plain && (s.isEmpty || isNullText s) then ValueKind.ofLabel name else none
    | none => ValueKind.ofLabel s
  | _ => none

/-- The entries of a record.  Keys have to be texts, and a known key may stand only once. -/
def record? (known : List String) (n : Node) : Option (List (String × Node)) := do
  let es ← (← n.entries?).mapM fun (k, v) => (text? k).map (·, v)
  let es := es.filter fun (k, _) => known.contains k
  if es.Pairwise (fun a b => a.1 ≠ b.1) then some es else none

/-- The value of a key, or what it is if left out. -/
def setting? {α : Type} (es : List (String × Node)) (key : String) (value? : Node → Option α) (otherwise : α) : Option α :=
  match es.find? (·.1 == key) with
  | some (_, n) => value? n
  | none => some otherwise

end Yaml.Node

open Yaml.Node

namespace SchemaHelper

def ofNode? (n : Node) : Option SchemaHelper := do
  let es ← record? ["type", "elem", "required", "computed"] n
  let (_, kind) ← es.find? (·.1 == "type")
  some {
    kind := ← kind? kind
    elem := ← setting? es "elem" (optional? kind?) none
    required := ← setting? es "required" bool? false
    computed := ← setting? es "computed" bool? false }

end SchemaHelper

namespace Config

def keys : List String :=
  ["name_prefix", "output_suffix", "strict", "accessor_type", "resource_type_name", "model_var", "meta_var",
   "client_type", "identity_vars", "default_timeout_secs", "sdk_path", "pointer_from", "import_guard",
   "timeout_module", "release_macro", "function_renames", "schema_helpers", "known_imports"]

/-- Reads settings; those left out keep their defaults. -/
def ofNode? (n : Node) : Option Config := do
  let es ← record? keys n
  let d : Config := {}
  some {
    namePrefix := ← setting? es "name_prefix" text? d.namePrefix
    outputSuffix := ← setting? es "output_suffix" text? d.outputSuffix
    strict := ← setting? es "strict" bool? d.strict
    accessorType := ← setting? es "accessor_type" text? d.accessorType
    resourceTypeName := ← setting? es "resource_type_name" text? d.resourceTypeName
    modelVar := ← setting? es "model_var" text? d.modelVar
    metaVar := ← setting? es "meta_var" text? d.metaVar
    clientType := ← setting? es "client_type" text? d.clientType
    identityVars := ← setting? es "identity_vars" texts? d.identityVars
    defaultTimeoutSecs := ← setting? es "default_timeout_secs" nat? d.defaultTimeoutSecs
    sdkPath := ← setting? es "sdk_path" text? d.sdkPath
    pointerFrom := ← setting? es "pointer_from" text? d.pointerFrom
    importGuard := ← setting? es "import_guard" text? d.importGuard
    timeoutModule := ← setting? es "timeout_module" text? d.timeoutModule
    releaseMacro := ← setting? es "release_macro" text? d.releaseMacro
    functionRenames := ← setting? es "function_renames" (table? text?) d.functionRenames
    schemaHelpers := ← setting? es "schema_helpers" (table? SchemaHelper.ofNode?) d.schemaHelpers
    knownImports := ← setting? es "known_imports" (table? text?) d.knownImports }

def ofYaml? (text : String) : Option Config := (parse? text).bind fun n => ofNode? (n.getD .empty)

def load (files : Files) (path : String) : Except ConfigError Config :=
  match files.read path with
  | .error e => .error (.unreadable path e.message)
  | .ok source =>
    match ofYaml? source with
    | none => .error .malformed
    | some config =>
      match config.fault? with
      | some e => .error e
      | none => .ok config

end Config
end Retype
