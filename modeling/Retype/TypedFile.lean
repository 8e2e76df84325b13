import Retype.Code.Declaration
import Retype.Rewrite.Run

/-! The typed file of a resource: its imports, a struct for each derived model, the items that are carried
over, the receiver, its implementations, and the helpers.  A function of the resource becomes a method that
answers a closure over its body; a promoted helper becomes a method of the receiver. -/

namespace Retype
open Retype.Code

inductive PathFault
  | unlexable | endOfInput | notIdentifier | keyword (name : String) | excess
  deriving DecidableEq, Repr

namespace PathFault

def message : PathFault → String
  | .unlexable => "cannot parse string into token stream"
  | .endOfInput => "unexpected end of input, expected identifier"
  | .notIdentifier => "expected identifier"
  | .keyword name => String.join ["expected identifier, found keyword `", name, "`"]
  | .excess => "unexpected token"

/-- What is wrong where a segment has to begin; `fuel` bounds the number of segments. -/
def ofSegments : (fuel : Nat) → Trees → PathFault
  | 0, _ => .excess
  | fuel + 1, s =>
    match s with
    | [] => .endOfInput
    | .leaf (.ident n) :: rest =>
      if !Parser.isIdent s && !Grammar.isOuterWord s && n != "Self" then .keyword n
      else if Parser.isOp "::" rest then ofSegments fuel (rest.drop 2)
      else .excess
    | _ => .notIdentifier

/-- What is wrong with a text that does not parse as a path. -/
def ofText (source : String) : PathFault :=
  match lex source with
  | none => .unlexable
  | some s => ofSegments (s.length + 1) (if Parser.isOp "::" s then s.drop 2 else s)

end PathFault

/-- Why the typed file of a resource cannot be assembled. -/
inductive AssemblyError
  | noTopModel (resource model : String)
  | sdkPath (value : String) (fault : PathFault)
  | fieldType (model field type : String)
  | keywordField (name : String)
  | missingFunction (resource name : String)
  | notCrud (name : String)
  | secondReceiver
  | unreadable
  deriving DecidableEq, Repr

namespace AssemblyError

def cause : AssemblyError → String
  | .noTopModel resource model => String.join [resource, " has no top model ", model]
  | .sdkPath value fault => String.join ["invalid sdk_path ", Text.quoted value, ": ", fault.message]
  | .fieldType model field type => String.join [model, ".", field, " has invalid type ", Text.quoted type]
  | .keywordField name => (PathFault.keyword name).message
  | .missingFunction resource name => String.join [resource, " lost its function ", name]
  | .notCrud name => String.join [name, " is not a CRUD function"]
  | .secondReceiver => "unexpected second method receiver"
  | .unreadable => PathFault.excess.message

def message (e : AssemblyError) : String := String.join ["Failed to build typed resource: ", e.cause]

end AssemblyError

namespace TypedFile

abbrev Build := Except AssemblyError

/-- The item, if it reads back. -/
def checked (item : Tree) : Build Tree := if readsBack item then .ok item else .error .unreadable

def fieldOf (model : Model) (f : ModelField) : Build Tree :=
  match parseType f.ty with
  | some ty => .ok (pubField [attrOf "tfschema" [lit (Text.stringLiteral f.tag)]] (Naming.identifier f.name) ty)
  | none => .error (.fieldType model.name f.name f.ty)

def modelTraits : List String := ["Debug", "Clone", "Default", "PartialEq", "Serialize", "Deserialize"]

def structOf (model : Model) : Build Tree := do
  let fields ← model.fields.mapM (fieldOf model)
  match (model.fields.map fun f => Naming.identifier f.name).find? Naming.scopeWords.contains with
  | some name => .error (.keywordField name)
  | none => checked (pubStruct [deriveAttr modelTraits] (Naming.identifier model.name) fields)

/-- What the methods of a typed file have in common. -/
structure Setting where
  config : Config
  resource : Resource
  /-- The path of the typed interface. -/
  sdk : Tree

namespace Setting

def sdkType (s : Setting) (name : String) : Tree := typeOfPath (s.sdk.extendPath name)

def receiver (s : Setting) : Tree := typeOf (Naming.identifier s.resource.receiver)

def model (s : Setting) : String := Naming.identifier s.resource.modelName

def metaVar (s : Setting) : String := Naming.identifier s.config.metaVar

end Setting

def defaultOf (model : String) : Tree := callOf (exprOf (pathOfNames [model, "default"])) []

/-- The seconds of a function's timeout, in whole minutes if they are. -/
def timeoutExpr (s : Setting) (f : ResourceFn) : Tree :=
  let given := f.timeout / 1000
  let seconds := if given = 0 then s.config.defaultTimeoutSecs else given
  let amount := if seconds % 60 = 0 then binaryOf (numberExpr (seconds / 60)) "*" (numberExpr 60) else numberExpr seconds
  callOf (exprOf (pathOfNames ["Duration", "from_secs"])) [amount]

/-- A read ends by handing the model over where it would only report success. -/
def encodeLast (encode : Tree) : Tree → Tree
  | .node (.stmt .expr) [.node (.expr .returnEarly) [attrs, w, value], semi] =>
    .node (.stmt .expr) [.node (.expr .returnEarly) [attrs, w, if value.isOkUnit then encode else value], semi]
  | .node (.stmt .expr) [e, semi] =>
    .node (.stmt .expr) [if semi.isAbsent && e.isOkUnit then encode else e, semi]
  | t => t

def encodeOnSuccess (encode : Tree) : Trees → Trees
  | [] => []
  | [s] => [encodeLast encode s]
  | s :: t :: ts => s :: encodeOnSuccess encode (t :: ts)

/-- The statements of the closure: the model is made, filled unless it is to be read, and used. -/
def closureBody (s : Setting) (f : ResourceFn) : Trees :=
  let model := Naming.identifier f.varModel
  let metadata := var s.metaVar
  let make := letMut model (defaultOf s.model)
  if f.role = .read then
    make :: encodeOnSuccess (methodCallOf metadata "encode" [referenceOf false (var model)]) f.code.stmts
  else
    make :: closedStmt (triedOf (methodCallOf metadata "decode" [referenceOf true (var model)])) :: f.code.stmts

def crudMethod (s : Setting) (f : ResourceFn) : Build Tree :=
  if !f.role.isCrud then .error (.notCrud f.name)
  else
    let func := callOf (exprOf (pathOfNames ["Box", "new"])) [moveClosure ["ctx", s.metaVar] (closureBody s f)]
    .ok (methodOf f.role.label (s.sdkType "ResourceFunc")
      [tailStmt (structLitOf (s.sdk.extendPath "ResourceFunc") [("timeout", timeoutExpr s f), ("func", func)])])

def crudMethodNamed (s : Setting) (name : String) : Build Tree :=
  match s.resource.function? name with
  | some f => crudMethod s f
  | none => .error (.missingFunction s.resource.type name)

def schemaMap (constructor : Option Tree) (fields : List SchemaField) : Tree :=
  let entries := arrayOf (fields.map fun f => tupleOf [stringExpr f.info.tag, f.info.expr])
  match constructor with
  | some path => callOf (exprOf path) [entries]
  | none => methodCallOf (methodCallOf entries "into_iter" []) "collect" []

def idValidation (s : Setting) : Trees :=
  s.resource.idValidator.toList.map fun e =>
    methodOf "id_validation_func" (s.sdkType "IdValidationFunc") [tailStmt e]

def resourceImpl (s : Setting) : Build Tree := do
  let r := s.resource
  let crud ← [r.create, r.read, r.delete].mapM (crudMethodNamed s)
  let schemaMethod (name : String) (fields : List SchemaField) : Tree :=
    methodOf name (s.sdkType "SchemaMap") [tailStmt (schemaMap r.schemaConstructor fields)]
  checked (implTraitOf (s.sdk.extendPath "Resource") s.receiver
    ([assocTypeOf "Model" (typeOf s.model),
      methodOf "resource_type" staticStr [tailStmt (stringExpr r.type)],
      methodOf "model_object" (boxedTrait (pathOfNames ["std", "any", "Any"]))
        [tailStmt (callOf (exprOf (pathOfNames ["Box", "new"])) [defaultOf s.model])]] ++
      idValidation s ++ [schemaMethod "arguments" r.arguments, schemaMethod "attributes" r.attributes] ++ crud))

def updateImpl (s : Setting) (name : String) : Build Tree := do
  let method ← crudMethodNamed s name
  checked (implTraitOf (s.sdk.extendPath "ResourceWithUpdate") s.receiver [method])

/-- State written by an earlier version of the schema is upgraded. -/
def upgradeImpl (s : Setting) : Build Tree :=
  let upgraders := s.resource.stateUpgraders.getD (callOf (exprOf (pathOfNames ["Default", "default"])) [])
  checked (implTraitOf (s.sdk.extendPath "ResourceWithStateMigration") s.receiver
    [methodOf "state_upgraders" (s.sdkType "StateUpgradeData")
      [tailStmt (structLitOf (s.sdk.extendPath "StateUpgradeData")
        [("schema_version", numberExpr s.resource.schemaVersion), ("upgraders", upgraders)])]])

def helperImpl (s : Setting) (helpers : List ResourceFn) : Build Tree :=
  if helpers.any (·.code.hasReceiver) then .error .secondReceiver
  else checked (implOf s.receiver (helpers.map (·.code.toMethod)))

def receiverTraits : List String := ["Debug", "Clone", "Copy", "Default"]

def receiverStruct (s : Setting) : Tree :=
  pubUnitStruct [deriveAttr receiverTraits] (Naming.identifier s.resource.receiver)

def sdkPath (config : Config) : Build Tree :=
  match parsePath config.sdkPath with
  | some path => .ok path
  | none => .error (.sdkPath config.sdkPath (PathFault.ofText config.sdkPath))

def furtherImpls (s : Setting) : Build Trees := do
  let update ← s.resource.update.toList.mapM (updateImpl s)
  let upgrade ← (if s.resource.schemaVersion > 0 then [upgradeImpl s] else []).mapM id
  pure (update ++ upgrade)

def items (config : Config) (promoted : List String) (r : Resource) : Build Trees := do
  if r.models.topModel.isNone then .error (.noTopModel r.type r.modelName)
  let s : Setting := ⟨config, r, ← sdkPath config⟩
  let structs ← (r.models.models.filter fun m => !m.declared).mapM structOf
  let main ← resourceImpl s
  let further ← furtherImpls s
  let helpers := r.functions.filter fun f => f.role = .helper
  let methods := helpers.filter fun f => promoted.contains f.name
  let methodImpl ← (if methods.isEmpty then [] else [helperImpl s methods]).mapM id
  let free := (helpers.filter fun f => !promoted.contains f.name).map (·.code.toTree)
  pure (r.imports ++ structs ++ r.passthrough ++ receiverStruct s :: main :: further ++ methodImpl ++ free)

end TypedFile
end Retype
