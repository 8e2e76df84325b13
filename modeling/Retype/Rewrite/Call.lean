import Retype.Rewrite.Context

/-! Calls of helpers.  Some are renamed by a table, the helpers of the resource become methods of the receiver,
and maps with literal keys become literals of the model that has these tags. -/

namespace Retype.Rewrite
open Retype.Code

def functionRename (c : Context) (t : Tree) : Run (Option Tree) :=
  match t with
  | .node (.expr .methodCall) (attrs :: receiver :: dot :: .leaf (.ident m) :: rest) =>
    pure (if m == "is_new_resource" && c.isAccessor receiver then
      some (.node (.expr .methodCall) (attrs :: resourceData c :: dot :: .leaf (.ident m) :: rest)) else none)
  | .node (.expr .call) (attrs :: _ :: rest) =>
    match t.callPath? with
    | some (path, _) => pure ((Table.get? c.renames path).map fun target => .node (.expr .call) (attrs :: target :: rest))
    | none => pure none
  | _ => pure none

def replaceFirstArgument (new : Tree) : Trees → Option Trees
  | [] => none
  | .node (.type _) _ :: rest => some (new :: rest)
  | t :: rest => (replaceFirstArgument new rest).map (t :: ·)

def replaceInLastSegment (new : Tree) : Trees → Option Trees
  | [] => none
  | t :: rest =>
    match replaceInLastSegment new rest with
    | some rest => some (t :: rest)
    | none =>
      if rest.any (·.isSegment) then none
      else
        match t with
        | .node .segment [name, .node .angleArgs args] =>
          (replaceFirstArgument new args).map fun args => .node .segment [name, .node .angleArgs args] :: rest
        | _ => none

/-- A type with the first type argument of its last segment replaced. -/
def setFirstGeneric (new : Tree) : Tree → Option Tree
  | .node (.type .path) [.node k parts] =>
    (replaceInLastSegment new parts).map fun parts => .node (.type .path) [.node k parts]
  | _ => none

/-- The first type argument of a type's last segment. -/
def firstGeneric? (t : Tree) : Option Tree := do
  let path ← t.typePath?
  (← path.angleMembers?).find? (·.isType)

/-- The type of a value that is stored in a field.  Where both are sequences only the element changes. -/
def valueType (current : Option Tree) (fieldTy : String) : Option Tree := do
  let field ← parseType fieldTy
  match current with
  | none => some field
  | some current =>
    match Naming.sequenceElement fieldTy with
    | some element =>
      if Naming.isSequence (Naming.renderType current) then
        let element ← parseType element
        setFirstGeneric element current
      else some field
    | none => some field

/-- The result type of a helper whose result is stored in a field; if the call is followed by `?` the result
type keeps its wrapper. -/
def resultType (current : Option Tree) (fieldTy : String) (propagated : Bool) : Option Tree := do
  if propagated then
    let wrapper ← current
    let success ← firstGeneric? wrapper
    let new ← valueType (some success) fieldTy
    setFirstGeneric new wrapper
  else valueType current fieldTy

def modelFieldType (c : Context) (arg : Tree) : Option Tree := do
  let (inner, reference) := match arg.stripParens with
    | .node (.expr .reference) [_, _, mutable, inner] => (inner, some mutable.isPresent)
    | e => (e, none)
  let names ← fieldChain c.scope.varModel inner
  let field ← c.models.fieldByPath names
  let ty ← parseType field.ty
  some (match reference with
    | some mutable => refType mutable ty
    | none => ty)

/-- An argument as the method takes it: the accessor gives way to the model, unless it is the model. -/
def methodArgument (c : Context) (arg : Tree) : Tree :=
  if c.isAccessor arg && c.scope.accessor != some c.scope.varModel then
    .node (.expr .reference) [noAttrs, op "&", word "mut", varExpr c.scope.varModel]
  else arg

def argumentType (c : Context) (arg : Tree) : Option Tree :=
  if c.isAccessor arg then some (refType true (typeOf (Naming.identifier c.models.top)))
  else modelFieldType c arg

def argumentTypes (c : Context) (index : Nat) : Trees → List (Nat × Tree)
  | [] => []
  | arg :: rest =>
    match argumentType c arg with
    | some ty => (index, ty) :: argumentTypes c (index + 1) rest
    | none => argumentTypes c (index + 1) rest

/-- The result type that a call asks for, recorded as unresolved if there is none.  A call whose helper has
its signature already asks for nothing. -/
def askedOutput (c : Context) (name : String) (signature : HelperSignature) (target : Option (List String))
    (propagated : Bool) : Run (Option Tree) := do
  match target with
  | none => pure none
  | some names =>
    if (← get).isTransformed name then pure none
    else
      match (c.models.fieldByPath names).bind fun f => resultType signature.output f.ty propagated with
      | some output => pure (some output)
      | none =>
        unresolved c (.output name (".".intercalate names))
        pure none

def helperCall? (c : Context) (value : Tree) : Option (String × HelperSignature × Trees) := do
  let call ← value.stripParens.call?
  let name ← call.callee.exprIdent?
  let signature ← Table.get? c.helpers name
  some (name, signature, call.args)

/-- The call under a `?`, if there is one. -/
def untried : Tree → Tree
  | .node (.expr .tried) [_, inner, _] => inner
  | e => e

def isTried : Tree → Bool
  | .node (.expr .tried) _ => true
  | _ => false

/-- Puts a call in the place of the one under a `?`. -/
def retry (call : Tree) : Tree → Tree
  | .node (.expr .tried) [attrs, _, mark] => .node (.expr .tried) [attrs, call, mark]
  | _ => call

/-- A call of a helper becomes a call of a method, and the helper's signature follows. -/
def promoteCall (c : Context) (value : Tree) (target : Option (List String)) : Run (Option Tree) := do
  match helperCall? c (untried value) with
  | none => pure none
  | some (name, signature, args) =>
    let output ← askedOutput c name signature target (isTried value)
    let call := methodCallOf (var "self") (Naming.identifier name) (args.map (methodArgument c))
    let params := argumentTypes c 0 args
    modify fun s => (s.promote name params).recordEdit name ⟨params, output⟩
    pure (some (retry call value))

def inlineFunction (c : Context) : Tree → Run (Option Tree)
  | .node (.stmt .bind) [attrs, w, pat, .node .init [eq, value, other], semi] => do
    if other.isPresent then pure none
    else
      match ← promoteCall c value none with
      | some v => pure (some (.node (.stmt .bind) [attrs, w, pat, .node .init [eq, v, other], semi]))
      | none => pure none
  | .node (.expr .assign) [attrs, left, o, right] => do
    match ← promoteCall c right (fieldChain c.scope.varModel left) with
    | some v => pure (some (.node (.expr .assign) [attrs, left, o, v]))
    | none => pure none
  | _ => pure none

def mapConstructors : List String := ["HashMap::from", "BTreeMap::from"]

def isMapConstructor (path : String) : Bool :=
  mapConstructors.any fun m => path == m || path.endsWith ("::" ++ m)

/-- The pairs whose first member is a literal text. -/
def literalEntries (elems : Trees) : List (String × Tree) := elems.filterMap fun e =>
  match e.tuple? with
  | some [key, value] => (Naming.stringText key).map fun tag => (tag, value)
  | _ => none

def fieldValueOf (name : String) (value : Tree) : Tree := .node .fieldValue [noAttrs, word name, op ":", value]

def literalOf (name : String) (fields : Trees) : Tree :=
  .node (.expr .structLit) [noAttrs, pathOf name, .group .brace (commaList fields)]

def modelLiteral (m : Model) (entries : List (String × Tree)) : Option Tree := do
  let fields ← entries.mapM fun (tag, value) =>
    (m.fieldByTag tag).map fun f => fieldValueOf (Naming.identifier f.name) value
  some (literalOf (Naming.identifier m.name) fields)

def compositeLiteral (c : Context) (t : Tree) : Run (Option Tree) :=
  match t with
  | .node (.expr _) _ =>
    match t.callPath? with
    | some (path, [arg]) =>
      match arg.array? with
      | some elems =>
        if isMapConstructor path then
          let entries := literalEntries elems
          pure ((c.models.findByKeys (entries.map (·.1))).bind fun m => modelLiteral m entries)
        else pure none
      | none => pure none
    | _ => pure none
  | _ => pure none

end Retype.Rewrite
