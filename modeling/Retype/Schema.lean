import Retype.Config
import Retype.Model

/-! Schemas.  A schema map is a list of pairs of a tag and an expression; each gives an attribute, and an
attribute whose elements are resources gives the attributes of a block.  From the attributes the models are
derived. -/

namespace Retype
open Retype.Code

/-- What is said of an attribute, its elements aside. -/
structure AttributeInfo where
  tag : String
  kind : ValueKind
  required : Bool
  optional : Bool
  computed : Bool
  /-- The expression that describes the attribute in the source. -/
  expr : Tree

/-- An attribute: its elements are values of a kind, if they are known, or blocks. -/
inductive SchemaField
  | plain (info : AttributeInfo) (elem : Option ValueKind)
  | block (info : AttributeInfo) (fields : List SchemaField)

namespace SchemaField

def info : SchemaField → AttributeInfo
  | .plain info _ => info
  | .block info _ => info

def isAttribute (f : SchemaField) : Bool := f.info.computed && !f.info.required && !f.info.optional

end SchemaField

namespace Schema

/-- The entries of a schema map: an array, or the first array that a call wraps. -/
structure Map where
  fields : List SchemaField
  /-- The function that wraps the entries. -/
  constructor : Option Tree

def vecMembers? (call : Tree) : Option Trees :=
  match macroCall? call with
  | some (some "vec", _, body) => (parseElements body).map Trees.members
  | _ => none

mutual
/-- The first array of entries that constructors or `vec!` wrap. -/
def entries? : Tree → Option Trees
  | .node (.expr .paren) [_, .group _ [e]] => entries? e
  | .node (.expr .reference) [_, _, _, e] => entries? e
  | .node (.expr .array) [_, .group _ es] => some (Trees.members es)
  | .node (.expr .call) [_, _, .group _ args] => firstEntries? args
  | .node (.expr .methodCall) [_, receiver, _, _, _, .group _ args] => entries? receiver <|> firstEntries? args
  | .node (.expr .macroCall) [_, call] => vecMembers? call
  | _ => none

def firstEntries? : List Tree → Option Trees
  | [] => none
  | t :: ts => entries? t <|> firstEntries? ts
end

mutual
/-- The first struct literal that calls wrap. -/
def literal? : Tree → Option StructLit
  | .node (.expr .paren) [_, .group _ [e]] => literal? e
  | .node (.expr .reference) [_, _, _, e] => literal? e
  | e@(.node (.expr .structLit) _) => e.structLit?
  | .node (.expr .call) [_, _, .group _ args] => firstLiteral? args
  | .node (.expr .methodCall) [_, receiver, _, _, _, _] => literal? receiver
  | _ => none

def firstLiteral? : List Tree → Option StructLit
  | [] => none
  | t :: ts => literal? t <|> firstLiteral? ts
end

/-- A path without the type that qualifies it. -/
def unqualified : Tree → Tree
  | .node .qualified (_ :: _ :: .leaf (.ident "as") :: rest) => .node .path (rest.filter fun t => !t.isOp ">")
  | .node .qualified (_ :: _ :: rest) => .node .path (rest.filter fun t => !t.isOp ">")
  | t => t

def constructor? (e : Tree) : Option Tree := (e.bare.call?.bind fun c => c.callee.exprPath?).map unqualified

/-- The pairs of a literal tag and the expression that describes it. -/
def tagged (entries : Trees) : List (String × Tree) := entries.filterMap fun e =>
  match e.tuple? with
  | some [key, value] => (Naming.stringText key).map fun tag => (tag, value)
  | _ => none

def blankInfo (tag : String) (expr : Tree) : AttributeInfo := ⟨tag, .string, false, false, false, expr⟩

def isTrue (e : Tree) : Bool := e.bare.isTrueLit

def kindOf? (e : Tree) : Option ValueKind := do
  let path ← e.bare.exprPath?
  ValueKind.ofVariant (← path.lastSegment?)

/-- The attribute without its elements that the fields of a literal describe. -/
def describe (info : AttributeInfo) (fields : List (String × Tree)) : AttributeInfo :=
  fields.foldl (fun info (name, value) =>
    match unraw name with
    | "type" | "type_" | "kind" => { info with kind := (kindOf? value).getD info.kind }
    | "required" => { info with required := isTrue value }
    | "optional" => { info with optional := isTrue value }
    | "computed" => { info with computed := isTrue value }
    | _ => info) info

/-- What the elements of an attribute are: values of a kind, or blocks. -/
inductive Elements
  | unknown
  | values (kind : ValueKind)
  | blocks (fields : List SchemaField)

def Elements.attach (info : AttributeInfo) : Elements → SchemaField
  | .unknown => .plain info none
  | .values kind => .plain info (some kind)
  | .blocks fields => .block info fields

/-- The last `elem` that a literal gives. -/
def elemExpr? (fields : List (String × Tree)) : Option Tree :=
  (fields.reverse.find? fun (name, _) => unraw name == "elem").map (·.2)

/-- An attribute that a call of a known helper stands for; an unknown one is an optional text. -/
def helperField (config : Config) (info : AttributeInfo) (path : Option Tree) : SchemaField :=
  match path.bind fun p => Table.get? config.schemaHelpers p.pathString with
  | some h =>
    .plain { info with kind := h.kind, required := h.required, computed := h.computed,
                       optional := !h.required && !h.computed } h.elem
  | none => .plain { info with optional := true } none

/-- What the elements of an attribute are, given how the attributes of a block are read. -/
def elements (config : Config) (nested : Tree → Option (List SchemaField)) (elem : Tree) : Elements :=
  match literal? elem with
  | none => .unknown
  | some lit =>
    if lit.isNamed config.resourceTypeName then
      match lit.fields.find? fun (name, _) => name == "schema" with
      | some (_, schema) =>
        match nested schema with
        | some fields => .blocks fields
        | none => .unknown
      | none => .unknown
    else if lit.isNamed "Schema" then .values (describe (blankInfo "" elem) lit.fields).kind
    else .unknown

/-- The attribute that an entry describes, given how the attributes of a block are read. -/
def entryField (config : Config) (nested : Tree → Option (List SchemaField)) (tag : String) (value : Tree) : SchemaField :=
  let info := blankInfo tag value
  match value.bare.structLit? with
  | some lit =>
    if lit.isNamed "Schema" then
      let info := describe info lit.fields
      match elemExpr? lit.fields with
      | none => .plain info none
      | some elem => (elements config nested elem).attach info
    else .plain { info with optional := true } none
  | none =>
    match value.bare.call? with
    | some call => helperField config info call.callee.exprPath?
    | none => .plain { info with optional := true } none

/-- The attributes of a block's schema map; `fuel` bounds how deep blocks nest. -/
def fields? (config : Config) : (fuel : Nat) → Tree → Option (List SchemaField)
  | 0, _ => none
  | fuel + 1, e => do
    let entries ← entries? e
    some ((tagged entries).map fun (tag, value) => entryField config (fields? config fuel) tag value)

/-- The attribute that an entry of a schema describes; blocks nest no deeper than its expression does. -/
def attributeOf (config : Config) (tag : String) (value : Tree) : SchemaField :=
  entryField config (fields? config (value.size + 1)) tag value

/-- Reads the value of a `schema` field. -/
def ofExpr? (config : Config) (e : Tree) : Option Map :=
  (entries? e).map fun entries =>
    ⟨(tagged entries).map fun (tag, value) => attributeOf config tag value, constructor? e⟩

def isTaken (models : List Model) (name : String) : Bool := models.any (·.name == name)

def dropModel (name : String) : String :=
  let suffix := "Model".toList
  let s := name.toList
  if suffix.isSuffixOf s then String.ofList (s.take (s.length - suffix.length)) else name

/-- The first free name with a number of at least `n`; among more numbers than models one is free. -/
def numberedName (models : List Model) (stem base : String) : (tries n : Nat) → String
  | 0, _ => stem ++ base ++ "Model"
  | tries + 1, n =>
    let name := stem ++ base ++ toString n ++ "Model"
    if isTaken models name then numberedName models stem base tries (n + 1) else name

/-- The name of the model of a block: after its tag, then with the stem of the parent model in front, then
with a number. -/
def nestedName (models : List Model) (parent tag : String) : String :=
  let base := Text.upperCamel tag
  let plain := base ++ "Model"
  let stem := dropModel parent
  let withStem := stem ++ base ++ "Model"
  if !isTaken models plain then plain
  else if !isTaken models withStem then withStem
  else numberedName models stem base (models.length + 1) 2

/-- The type of an attribute whose elements are no blocks. -/
def plainType (kind : ValueKind) (elem : Option ValueKind) : String :=
  let elemTy := (elem.bind ValueKind.scalarType).getD "String"
  if kind.isSequence then "Vec<" ++ elemTy ++ ">"
  else if kind = .map then "HashMap<String, " ++ elemTy ++ ">"
  else kind.scalarType.getD "String"

def blockType (kind : ValueKind) (name : String) : String :=
  if kind = .map then "HashMap<String, " ++ name ++ ">" else "Vec<" ++ name ++ ">"

def modelField (info : AttributeInfo) (ty : String) : ModelField := ⟨Naming.fieldForTag info.tag, ty, info.tag⟩

mutual
/-- Adds the models of a block's attributes to those there are, and answers the fields of the block's own
model, whose name is in use already. -/
def addFields (name : String) (models : List Model) : List SchemaField → List ModelField × List Model
  | [] => ([], models)
  | f :: rest =>
    let (field, models) := addField name models f
    let (fields, models) := addFields name models rest
    (field :: fields, models)

def addField (name : String) (models : List Model) : SchemaField → ModelField × List Model
  | .plain info elem => (modelField info (plainType info.kind elem), models)
  | .block info nested =>
    let nestedModel := nestedName models name info.tag
    let slot := models.length
    let (fields, models) := addFields nestedModel (models ++ [⟨nestedModel, [], false⟩]) nested
    (modelField info (blockType info.kind nestedModel), models.set slot ⟨nestedModel, fields, false⟩)
end

/-- The models of a schema, the top one first. -/
def models (top : String) (fields : List SchemaField) : List Model :=
  let (own, models) := addFields top [⟨top, [], false⟩] fields
  models.set 0 ⟨top, own, false⟩

end Schema
end Retype
