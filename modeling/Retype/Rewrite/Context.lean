import Retype.Config
import Retype.Model

/-! What a rewriter may consult, and what a run of rewriters records. -/

namespace Retype.Rewrite
open Retype.Code

/-- What a function is for; a helper is called by the others. -/
inductive Role
  | create | read | update | delete | helper
  deriving DecidableEq, Repr

namespace Role

def label : Role → String
  | .create => "create"
  | .read => "read"
  | .update => "update"
  | .delete => "delete"
  | .helper => "helper"

def isCrud : Role → Bool
  | .helper => false
  | _ => true

/-- The roles in the order in which their functions are rewritten. -/
def all : List Role := [.create, .read, .update, .delete, .helper]

end Role

/-- The types of a helper's parameters, a receiver aside, and of its result. -/
structure HelperSignature where
  params : Trees
  output : Option Tree

def HelperSignature.ofFn (f : Fn) : HelperSignature := ⟨f.paramTypes, f.outputType?⟩

/-- New types for parameters, by position, and for the result. -/
structure SignatureEdit where
  params : List (Nat × Tree) := []
  output : Option Tree := none

namespace SignatureEdit

def isEmpty (e : SignatureEdit) : Bool := e.params.isEmpty && e.output.isNone

def param? (e : SignatureEdit) (index : Nat) : Option Tree := (e.params.find? (·.1 == index)).map (·.2)

/-- Gives the parameters from position `index` on their new types. -/
def applyParams (e : SignatureEdit) (index : Nat) : Trees → Trees
  | [] => []
  | .node .param [attrs, pat, colon, ty] :: rest =>
    .node .param [attrs, pat, colon, (e.param? index).getD ty] :: applyParams e (index + 1) rest
  | t :: rest => t :: applyParams e index rest

def apply (e : SignatureEdit) (f : Fn) : Fn :=
  { f with
    inputs := e.applyParams 0 f.inputs
    output := match e.output with
      | some t => .node .output [op "->", t]
      | none => f.output }

end SignatureEdit

/-- The function that is being rewritten. -/
structure Scope where
  name : String
  role : Role
  /-- The variable that holds the model. -/
  varModel : String
  /-- The parameter through which state is read and written. -/
  accessor : Option String

/-- Adds a text to a sorted list without repetition. -/
def insertSorted (s : String) : List String → List String
  | [] => [s]
  | t :: ts => if s = t then t :: ts else if s < t then s :: t :: ts else t :: insertSorted s ts

theorem mem_insertSorted {s x : String} {ts : List String} :
    x ∈ insertSorted s ts ↔ x = s ∨ x ∈ ts := by
  induction ts with
  | nil => simp [insertSorted]
  | cons t ts ih =>
    unfold insertSorted
    split
    · rename_i h
      subst h
      simp
    · split
      · simp
      · simp only [List.mem_cons, ih]
        exact or_left_comm

/-- What the functions of one resource share while they are rewritten. -/
structure State where
  /-- Helpers whose signature has an edit, sorted. -/
  transformed : List String := []
  /-- Edits that are not yet made. -/
  pending : Table SignatureEdit := []
  /-- Helpers that are now called as methods, sorted. -/
  promoted : List String := []
  /-- Look-ups that could not be resolved, in the order they were met. -/
  unresolved : List String := []
  /-- How many types were built for parameters that are no code. -/
  broken : Nat := 0

/-- A sum of bounds, which may not stand behind `&` without parentheses. -/
def isSum : Tree → Bool
  | .node (.type .traitObject) [_, .node .bounds bounds] => bounds.any (·.isOp "+")
  | .node (.type .implTrait) [_, .node .bounds bounds] => bounds.any (·.isOp "+")
  | _ => false

/-- A reference that is no code. -/
def isBroken : Tree → Bool
  | .node (.type .reference) [_, _, _, ty] => isSum ty
  | _ => false

namespace State

def isTransformed (s : State) (helper : String) : Bool := s.transformed.contains helper

/-- Makes a method of a helper, for which parameters have been given types. -/
def promote (s : State) (helper : String) (params : List (Nat × Tree)) : State :=
  { s with
    promoted := insertSorted helper s.promoted
    broken := s.broken + params.countP fun (_, ty) => isBroken ty }

/-- Queues an edit; only the first edit of a helper that is not empty counts. -/
def recordEdit (s : State) (helper : String) (e : SignatureEdit) : State :=
  if e.isEmpty || s.isTransformed helper then s
  else { s with
    transformed := insertSorted helper s.transformed
    pending := Table.insert helper e s.pending }

def addUnresolved (s : State) (message : String) : State :=
  { s with unresolved := s.unresolved ++ [message] }

end State

/-- What a look-up can fail for. -/
inductive Unresolved
  | key (text : String)
  | tag (tag top : String)
  | output (helper field : String)

def Unresolved.message : Unresolved → String
  | .key k => String.join ["state key `", k, "` is not a string literal"]
  | .tag t top => String.join ["tag `", t, "` not found on ", top]
  | .output helper field =>
    String.join ["cannot derive a return type for `", helper, "` from model field `", field, "`"]

/-- What a rewriter may consult. -/
structure Context where
  config : Config
  models : ModelSet
  helpers : Table HelperSignature
  /-- The name of the function that reads the resource. -/
  readFn : String
  scope : Scope
  /-- The paths that calls are renamed to, by the path that is called. -/
  renames : Table Tree
  /-- The path of the function that makes a value an owned one. -/
  pointer : Option Tree

/-- The renames whose target is a path. -/
def renamePaths (t : Table String) : Table Tree :=
  t.filterMap fun (source, target) => (parsePathExpr target).map fun path => (source, path)

def Context.make (config : Config) (models : ModelSet) (helpers : Table HelperSignature) (readFn : String)
    (scope : Scope) : Context where
  config := config
  models := models
  helpers := helpers
  readFn := readFn
  scope := scope
  renames := renamePaths config.functionRenames
  pointer := parsePathExpr config.pointerFrom

namespace Context

/-- Whether an expression is the accessor, references aside. -/
def isAccessor (c : Context) (e : Tree) : Bool :=
  match c.scope.accessor with
  | some a => e.bare.isVar a
  | none => false

end Context

/-- A step that may consult and extend the state. -/
abbrev Run := StateM State

def unresolved (c : Context) (u : Unresolved) : Run Unit :=
  modify fun s => s.addUnresolved (c.scope.name ++ ": " ++ u.message)

def varExpr (name : String) : Tree := var (Naming.identifier name)

def metaField (c : Context) (name : String) : Tree := fieldAccess (varExpr c.config.metaVar) name

/-- The place where untyped state stays within reach. -/
def resourceData (c : Context) : Tree := metaField c "resource_data"

def stepAccess (base : Tree) : PathStep → Tree
  | .field f => fieldAccess base (Naming.identifier f.name)
  | .index i => indexAccess base i

/-- `model.a[0].b` for the steps of a tag.  With a reserved word for a field it is no code, and the process dies of the
stage that builds it. -/
def modelAccess (model : String) (steps : List PathStep) : Tree := steps.foldl stepAccess (varExpr model)

/-- The fields of `root.a.b`, outermost last; none for any other expression. -/
def chainFrom (root : String) : Tree → Option (List String)
  | .node (.expr .paren) [_, .group _ [e]] => chainFrom root e
  | .node (.expr .field) [_, base, _, .leaf (.ident n)] => (chainFrom root base).map (· ++ [unraw n])
  | e => if e.isVar root then some [] else none

/-- The fields of `root.a.b`, at least one. -/
def fieldChain (root : String) (e : Tree) : Option (List String) := (chainFrom root e).filter (!·.isEmpty)

/-- The variable at the left end of a place or of a chain of calls. -/
def rootIdent : Tree → Option String
  | .node (.expr .field) (_ :: base :: _) => rootIdent base
  | .node (.expr .index) (_ :: base :: _) => rootIdent base
  | .node (.expr .methodCall) (_ :: receiver :: _) => rootIdent receiver
  | .node (.expr .tried) (_ :: inner :: _) => rootIdent inner
  | .node (.expr .paren) [_, .group _ [inner]] => rootIdent inner
  | .node (.expr .reference) [_, _, _, inner] => rootIdent inner
  | .node (.expr .unary) [_, _, inner] => rootIdent inner
  | e@(.node (.expr .path) _) => e.exprIdent?
  | _ => none

/-- Drops references around a value and one `.id()` at its end. -/
def stripIdCall : Tree → Tree
  | .node (.expr .paren) [_, .group _ [e]] => stripIdCall e
  | .node (.expr .reference) [_, _, _, e] => stripIdCall e
  | .node (.expr .methodCall) [attrs, receiver, dot, .leaf (.ident m), turbofish, .group d args] =>
    if m == "id" && args.isEmpty then receiver
    else .node (.expr .methodCall) [attrs, receiver, dot, .leaf (.ident m), turbofish, .group d args]
  | e => e

/-- Drops a `*` in front or an `.unwrap()` at the end. -/
def stripDeref (e : Tree) : Tree :=
  match e.stripParens with
  | .node (.expr .unary) [attrs, o, inner] =>
    if o.isOp "*" then inner.stripParens else .node (.expr .unary) [attrs, o, inner]
  | e =>
    match e.methodCall? with
    | some call => if call.method == "unwrap" && call.args.isEmpty then call.receiver.stripParens else e
    | none => e

end Retype.Rewrite
