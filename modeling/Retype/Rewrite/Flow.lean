import Retype.Rewrite.Context

/-! Statement lists: timeouts are dropped, identifiers are set and cleared on the metadata, and a read of the
resource at the end becomes success. -/

namespace Retype.Rewrite
open Retype.Code

/-- `let … = timeouts::for_…(…);` -/
def isAcquisition (c : Context) : Tree → Bool
  | .node (.stmt .bind) [_, _, _, .node .init [_, value, _], _] =>
    value.callPath?.any fun (path, _) => path.startsWith (c.config.timeoutModule ++ "::for_")
  | _ => false

def callsMacro (name : String) (call : Tree) : Bool :=
  (macroCall? call).any fun (path, _, _) => path == some name

/-- A call of the macro that releases a timeout. -/
def isRelease (c : Context) : Tree → Bool
  | .node (.stmt .macroCall) [_, call, _] => callsMacro c.config.releaseMacro call
  | .node (.stmt .expr) [.node (.expr .macroCall) [_, call], _] => callsMacro c.config.releaseMacro call
  | _ => false

/-- Drops acquisitions, each with the release right after it. -/
def elideTimeouts (c : Context) : Trees → Trees
  | [] => []
  | [s] => if isAcquisition c s then [] else [s]
  | s :: r :: rest =>
    if isAcquisition c s then
      if isRelease c r then elideTimeouts c rest else elideTimeouts c (r :: rest)
    else s :: elideTimeouts c (r :: rest)

/-- The argument of `d.set_id(…);` -/
def setIdArgument? (accessor : String) : Tree → Option Tree
  | .node (.stmt .expr) [e, semi] =>
    if semi.isAbsent then none
    else
      match e.stripParens.methodCall? with
      | some ⟨receiver, "set_id", _, [arg]⟩ => if receiver.bare.isVar accessor then some arg else none
      | _ => none
  | _ => none

/-- `return Ok(());` or `Ok(())` at the end. -/
def isBareSuccess : Tree → Bool
  | .node (.stmt .expr) [.node (.expr .returnEarly) [_, _, value], _] => value.isOkUnit
  | .node (.stmt .expr) [e, semi] => semi.isAbsent && e.isOkUnit
  | _ => false

/-- Nothing follows but perhaps a bare success. -/
def isTerminal : Trees → Bool
  | [] => true
  | [s] => isBareSuccess s
  | _ => false

def returnOf (e : Tree) : Tree := .node (.expr .returnEarly) [noAttrs, word "return", e]

/-- `return meta.mark_as_gone(id);` -/
def markAsGone (c : Context) : Tree :=
  closedStmt (returnOf (methodCallOf (varExpr c.config.metaVar) "mark_as_gone"
    [varExpr c.config.primaryIdentity]))

/-- `meta.set_id(id);` -/
def setIdentity (c : Context) (id : Tree) : Tree :=
  closedStmt (methodCallOf (varExpr c.config.metaVar) "set_id" [stripIdCall id])

/-- Sets the identifier on the metadata.  Clearing it ends the list if nothing else was to follow. -/
def moveIdentity (c : Context) (accessor : String) : Trees → Trees
  | [] => []
  | s :: rest =>
    match setIdArgument? accessor s with
    | none => s :: moveIdentity c accessor rest
    | some arg =>
      if isTerminal rest && Naming.stringText arg == some "" then [markAsGone c]
      else setIdentity c arg :: moveIdentity c accessor rest

def isReadCall (c : Context) (e : Tree) : Bool :=
  match e.callPath? with
  | some (path, first :: _) => path == c.readFn && c.isAccessor first
  | _ => false

def readToSuccess? (c : Context) : Tree → Option Tree
  | .node (.stmt .expr) [.node (.expr .returnEarly) [attrs, w, value], semi] =>
    if isReadCall c value then
      some (.node (.stmt .expr) [.node (.expr .returnEarly) [attrs, w, okUnit], semi])
    else none
  | .node (.stmt .expr) [e, semi] =>
    if semi.isAbsent && isReadCall c e then some (.node (.stmt .expr) [okUnit, semi]) else none
  | _ => none

def replaceTrailingRead (c : Context) : Trees → Option Trees
  | [] => none
  | [s] => (readToSuccess? c s).map ([·])
  | s :: t :: rest => (replaceTrailingRead c (t :: rest)).map (s :: ·)

def setsIdentity (accessor : Option String) (stmts : Trees) : Bool :=
  match accessor with
  | some a => stmts.any fun s => (setIdArgument? a s).isSome
  | none => false

def moveIdentities (c : Context) (stmts : Trees) : Trees :=
  match c.scope.accessor with
  | some a => moveIdentity c a stmts
  | none => stmts

def controlFlow (c : Context) : Tree → Run (Option Tree)
  | .node .block [.group d stmts] =>
    let elided := elideTimeouts c stmts
    let moved := moveIdentities c elided
    let changed := stmts.any (isAcquisition c) || setsIdentity c.scope.accessor elided
    match replaceTrailingRead c moved with
    | some last => pure (some (.node .block [.group d last]))
    | none => pure (if changed then some (.node .block [.group d moved]) else none)
  | _ => pure none

end Retype.Rewrite
