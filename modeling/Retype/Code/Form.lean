import Retype.Code.Literal
import Retype.Code.Grammar

/-! Shapes of code: what a tree is, and trees of a given shape.  Every reader answers `none` for a tree of
another shape. -/

namespace Retype.Code

/-- An identifier without the mark of raw identifiers. -/
def unraw (name : String) : String :=
  match name.toList with
  | 'r' :: '#' :: r => String.ofList r
  | _ => name

def noAttrs : Tree := .node .attrs []

def Tree.ident? : Tree → Option String
  | .leaf (.ident n) => some n
  | _ => none

def segmentName? : Tree → Option String
  | .node .segment [.leaf (.ident n), _] => some n
  | _ => none

def Tree.segmentNames (path : Tree) : List String := path.segments.filterMap segmentName?

/-- The segments of a path joined by `::`, their arguments left out. -/
def Tree.pathString (path : Tree) : String := "::".intercalate path.segmentNames

def Tree.lastSegment? (path : Tree) : Option String := path.segmentNames.getLast?

def Tree.pathIdent? : Tree → Option String
  | .node .path [.node .segment [.leaf (.ident n), args]] => if args.isAbsent then some n else none
  | _ => none

/-- The type arguments of the last segment, commas left out; none if it has no angle brackets. -/
def Tree.angleMembers? (path : Tree) : Option Trees :=
  match path.segments.getLast? with
  | some (.node .segment [_, .node .angleArgs (_ :: _ :: rest)]) => some (Trees.members rest.dropLast)
  | _ => none

def pathOf (name : String) : Tree := .node .path [.node .segment [word name, Tree.absent]]

@[simp] theorem pathIdent?_pathOf (name : String) : (pathOf name).pathIdent? = some name := rfl

def Tree.stripParens : Tree → Tree
  | .node (.expr .paren) [_, .group _ [e]] => e.stripParens
  | t => t

def Tree.bare : Tree → Tree
  | .node (.expr .paren) [_, .group _ [e]] => e.bare
  | .node (.expr .reference) [_, _, _, e] => e.bare
  | t => t

/-- The path of a path expression without a qualified type. -/
def Tree.plainPath? : Tree → Option Tree
  | .node (.expr .path) [_, .node .path parts] => some (.node .path parts)
  | _ => none

def Tree.exprPath? : Tree → Option Tree
  | .node (.expr .path) [_, path] => some path
  | _ => none

def Tree.exprIdent? (e : Tree) : Option String := e.stripParens.plainPath?.bind (·.pathIdent?)

def Tree.isVar (e : Tree) (name : String) : Bool := e.exprIdent? == some name

structure Call where
  callee : Tree
  args : Trees

def Tree.call? : Tree → Option Call
  | .node (.expr .call) [_, callee, .group _ args] => some ⟨callee, Trees.members args⟩
  | _ => none

structure MethodCall where
  receiver : Tree
  method : String
  turbofish : Tree
  args : Trees

def Tree.methodCall? : Tree → Option MethodCall
  | .node (.expr .methodCall) [_, receiver, _, .leaf (.ident method), turbofish, .group _ args] =>
    some ⟨receiver, method, turbofish, Trees.members args⟩
  | _ => none

def Tree.callPath? (e : Tree) : Option (String × Trees) := do
  let call ← e.stripParens.call?
  let path ← call.callee.exprPath?
  some (path.pathString, call.args)

def Tree.stringLit? : Tree → Option String
  | .node (.expr .lit) [_, .leaf (.literal t)] => Literal.stringValue? t
  | _ => none

def Tree.isTrueLit : Tree → Bool
  | .node (.expr .lit) [_, .leaf (.ident n)] => n == "true"
  | _ => false

def Tree.tuple? : Tree → Option Trees
  | .node (.expr .tuple) [_, .group _ es] => some (Trees.members es)
  | _ => none

def Tree.array? : Tree → Option Trees
  | .node (.expr .array) [_, .group _ es] => some (Trees.members es)
  | _ => none

def exprOf (path : Tree) : Tree := .node (.expr .path) [noAttrs, path]

def var (name : String) : Tree := exprOf (pathOf name)

/-- A field of a struct literal: its name and its value, which is a variable of that name if not given. -/
def fieldValue? : Tree → Option (String × Tree)
  | .node .fieldValue [_, .leaf (.ident n), colon, value] =>
    some (n, if colon.isAbsent then var n else value)
  | _ => none

structure StructLit where
  path : Tree
  fields : List (String × Tree)

def Tree.structLit? : Tree → Option StructLit
  | .node (.expr .structLit) [_, path, .group _ fields] => some ⟨path, fields.filterMap fieldValue?⟩
  | _ => none

def StructLit.isNamed (s : StructLit) (name : String) : Bool := s.path.lastSegment? == some name

def macroCall? : Tree → Option (Option String × Delim × Trees)
  | .node .macroBody [path, _, .group d body] => some (path.pathIdent?, d, body)
  | _ => none

/-- A list of expressions with the commas between them, as the body of a macro call. -/
def parseElements (body : Trees) : Option Trees :=
  parseAll (fun g => Parser.commaSeparated (Grammar.expr g true)) (Trees.raw body)

def fieldAccess (base : Tree) (name : String) : Tree := .node (.expr .field) [noAttrs, base, op ".", word name]

def indexAccess (base : Tree) (index : Nat) : Tree :=
  .node (.expr .index) [noAttrs, base, .group .bracket [.node (.expr .lit) [noAttrs, lit (toString index)]]]

def parenGroup (args : Trees) : Tree := .group .paren (commaList args)

def callOf (callee : Tree) (args : Trees) : Tree := .node (.expr .call) [noAttrs, callee, parenGroup args]

def methodCallOf (receiver : Tree) (method : String) (args : Trees) : Tree :=
  .node (.expr .methodCall) [noAttrs, receiver, op ".", word method, Tree.absent, parenGroup args]

def parenOf (e : Tree) : Tree := .node (.expr .paren) [noAttrs, .group .paren [e]]

def unitTuple : Tree := .node (.expr .tuple) [noAttrs, .group .paren []]

def closedStmt (e : Tree) : Tree := .node (.stmt .expr) [e, op ";"]

/-- `Ok(())` -/
def okUnit : Tree := callOf (var "Ok") [unitTuple]

def Tree.isOkUnit (e : Tree) : Bool :=
  match e.stripParens.call? with
  | some ⟨callee, [arg]⟩ => callee.isVar "Ok" && arg.tuple?.any (·.isEmpty)
  | _ => false

def Tree.typePath? : Tree → Option Tree
  | .node (.type .path) [path] => some path
  | _ => none

def Tree.bareType : Tree → Tree
  | .node (.type .reference) [_, _, _, t] => t.bareType
  | t => t

def Tree.isType : Tree → Bool
  | .node (.type _) _ => true
  | _ => false

def typeOf (name : String) : Tree := .node (.type .path) [pathOf name]

def refType (mutable : Bool) (t : Tree) : Tree :=
  .node (.type .reference) [op "&", Tree.absent, if mutable then word "mut" else Tree.absent, t]

def isUse : Tree → Bool
  | .node (.item .use) _ => true
  | _ => false

/-- The parts of a function. -/
structure Fn where
  attrs : Tree
  vis : Tree
  /-- What stands in the signature before the parameters: the words before the name, the name, generics. -/
  head : Trees
  inputs : Trees
  output : Tree
  preds : Tree
  body : Tree

def Tree.fn? : Tree → Option Fn
  | .node (.item .fn) [attrs, vis, .node .signature [c, a, u, e, f, name, params, .group _ inputs, output, preds], body] =>
    some ⟨attrs, vis, [c, a, u, e, f, name, params], inputs, output, preds, body⟩
  | _ => none

def Fn.toTree (f : Fn) : Tree :=
  .node (.item .fn) [f.attrs, f.vis, .node .signature (f.head ++ [.group .paren f.inputs, f.output, f.preds]), f.body]

def Fn.name (f : Fn) : String := (f.head[5]?.bind (·.ident?)).getD ""

def Fn.outputType? (f : Fn) : Option Tree :=
  match f.output with
  | .node .output [_, t] => some t
  | _ => none

/-- A parameter with a pattern and a type. -/
def param? : Tree → Option (Tree × Tree)
  | .node .param [_, pat, _, t] => some (pat, t)
  | _ => none

def Fn.paramTypes (f : Fn) : Trees := f.inputs.filterMap fun i => (param? i).map (·.2)

def patIdent? : Tree → Option String
  | .node (.pat .ident) [_, _, _, _, .leaf (.ident n), _, _] => some n
  | _ => none

def blockStmts : Tree → Trees
  | .node .block [.group _ stmts] => stmts
  | _ => []

def blockOf (stmts : Trees) : Tree := .node .block [.group .brace stmts]

end Retype.Code
