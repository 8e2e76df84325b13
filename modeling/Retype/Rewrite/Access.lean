import Retype.Rewrite.Context

/-! Reads and writes of state.  A read becomes a field of the model; a write, in whatever statement it stands,
becomes an assignment; the metadata is reached by a field instead of a downcast. -/

namespace Retype.Rewrite
open Retype.Code

/-- A downcast to the client, with `?`, `.unwrap()` or `.expect(…)` after it. -/
def isClientDowncast (client : String) : Tree → Bool
  | .node (.expr .paren) [_, .group _ [e]] => isClientDowncast client e
  | .node (.expr .tried) [_, inner, _] => isClientDowncast client inner
  | .node (.expr .methodCall) [_, receiver, _, .leaf (.ident m), turbofish, _] =>
    if m == "unwrap" || m == "expect" then isClientDowncast client receiver
    else if m == "downcast_ref" then
      match turbofish with
      | .node .angleArgs (_ :: _ :: first :: _) => first.typePath?.any fun p => p.lastSegment? == some client
      | _ => false
    else false
  | _ => false

/-- A field of the downcast client becomes a field of the metadata's client. -/
def metaAccess (c : Context) : Tree → Run (Option Tree)
  | .node (.expr .field) (attrs :: base :: rest) =>
    pure (if isClientDowncast c.config.clientType base then
      some (.node (.expr .field) (attrs :: metaField c "client" :: rest)) else none)
  | _ => pure none

/-- Calls that stay, but on the state that the metadata holds. -/
def stateMethods : List String := ["get_ok", "id", "has_change", "has_changes", "get_change", "get_raw_config"]

/-- The steps of the tag that a key names.  A key that is no text, or names no field, is recorded. -/
def resolveKey (c : Context) (key : Tree) : Run (Option (List PathStep)) := do
  match Naming.stringText key with
  | none =>
    unresolved c (.key key.text)
    pure none
  | some tag =>
    match c.models.resolveTag "" tag with
    | none =>
      unresolved c (.tag tag c.models.top)
      pure none
    | some steps => pure (some steps)

def accessorGet (c : Context) : Tree → Run (Option Tree)
  | .node (.expr .methodCall) [attrs, receiver, dot, .leaf (.ident m), turbofish, .group d args] => do
    if !c.isAccessor receiver then pure none
    else if stateMethods.contains m then
      pure (some (.node (.expr .methodCall)
        [attrs, resourceData c, dot, .leaf (.ident m), turbofish, .group d args]))
    else if m == "get" then
      match Trees.members args with
      | [key] =>
        match ← resolveKey c key with
        | some steps => pure (some (modelAccess c.scope.varModel steps))
        | none => pure none
      | _ => pure none
    else pure none
  | _ => pure none

/-- The arguments of a call of `set` on the accessor, with `?` and `.map_err(…)` around it. -/
def setCall (c : Context) : Tree → Option Trees
  | .node (.expr .paren) [_, .group _ [e]] => setCall c e
  | .node (.expr .tried) [_, inner, _] => setCall c inner
  | .node (.expr .methodCall) [_, receiver, _, .leaf (.ident m), _, .group _ args] =>
    if m == "map_err" then setCall c receiver
    else if m == "set" && c.isAccessor receiver then some (Trees.members args)
    else none
  | _ => none

/-- `if let Err(…) = …` -/
def guardedCall (c : Context) (cond : Tree) : Option Trees :=
  match cond.stripParens with
  | .node (.expr .letCond) [_, _, .node (.pat .tupleStruct) (_ :: path :: _), _, value] =>
    if path.pathIdent? == some "Err" then setCall c value else none
  | _ => none

/-- The arguments of the write that a statement makes: plain, discarded by `let _`, or guarded by an
`if let Err(…)` without `else`. -/
def setStatement (c : Context) : Tree → Option Trees
  | .node (.stmt .expr) [.node (.expr .ifElse) [attrs, w, cond, body, other], semi] =>
    if other.isAbsent then guardedCall c cond
    else if semi.isAbsent then none
    else setCall c (.node (.expr .ifElse) [attrs, w, cond, body, other])
  | .node (.stmt .expr) [e, semi] => if semi.isAbsent then none else setCall c e
  | .node (.stmt .bind) [_, _, .node (.pat .wild) _, .node .init [_, value, other], _] =>
    if other.isAbsent then setCall c value else none
  | _ => none

def Tree.isField : Tree → Bool
  | .node (.expr .field) _ => true
  | _ => false

/-- A field of a value that is no identifier may be missing, so it is made an owned value. -/
def ownedValue (c : Context) (value : Tree) : Tree :=
  let stripped := stripDeref value
  if !Tree.isField stripped then value
  else if (rootIdent stripped).any c.config.isIdentityVar then value
  else
    match c.pointer with
    | some pointer => callOf pointer [stripped]
    | none => value

def assignStmt (target value : Tree) : Tree :=
  .node (.stmt .expr) [.node (.expr .assign) [noAttrs, target, op "=", value], op ";"]

def accessorSet (c : Context) (t : Tree) : Run (Option Tree) := do
  match setStatement c t with
  | some [key, value] =>
    match ← resolveKey c key with
    | some steps => pure (some (assignStmt (modelAccess c.scope.varModel steps) (ownedValue c value)))
    | none => pure none
  | _ => pure none

def importGuard (c : Context) (t : Tree) : Run (Option Tree) :=
  match t with
  | .node (.expr _) _ =>
    match t.callPath? with
    | some (path, [_, id]) =>
      pure (if path == c.config.importGuard then
        some (methodCallOf (varExpr c.config.metaVar) "resource_requires_import"
          [methodCallOf (var "self") "resource_type" [], stripIdCall id])
      else none)
    | _ => pure none
  | _ => pure none

end Retype.Rewrite
