import Retype.Code.Form

/-! Definitions and registrations.  A definition is a function that returns the resource type and ends in a
literal of it that has a schema and a way to read; a registration is a pair of a resource name and the function
that defines it. -/

namespace Retype
open Retype.Code

namespace Definition

/-- The expression that a statement gives as the value of its block. -/
def result? : Tree → Option Tree
  | .node (.stmt .expr) [.node (.expr .returnEarly) [_, _, value], _] => if value.isAbsent then none else some value
  | .node (.stmt .expr) [e, semi] => if semi.isAbsent then some e else none
  | _ => none

def field? (lit : StructLit) (name : String) : Option Tree := (lit.fields.find? (·.1 == name)).map (·.2)

def describes (typeName : String) (lit : StructLit) : Bool :=
  lit.isNamed typeName && (field? lit "schema").isSome && (field? lit "read").isSome

/-- The return type of a function ends in the name. -/
def returns (typeName : String) (f : Fn) : Bool :=
  (f.outputType?.bind (·.typePath?)).any fun path => path.lastSegment? == some typeName

/-- The literal that a definition evaluates to.  Blocks in a schema are functions too, but their literals
cannot be read. -/
def literal? (typeName : String) (f : Fn) : Option Tree :=
  if returns typeName f then
    ((blockStmts f.body).getLast?.bind result?).filter fun value => value.structLit?.any (describes typeName)
  else none

/-- The fields of the literal that a definition evaluates to. -/
def fields? (typeName : String) (f : Fn) : Option StructLit := (literal? typeName f).bind (·.structLit?)

end Definition

structure Registration where
  name : String
  function : String
  deriving DecidableEq, Repr

namespace Registration

/-- A pair of a string literal and a path. -/
def ofPair? (t : Tree) : Option Registration :=
  match t.tuple? with
  | some [name, function] => do some ⟨← name.stringLit?, ← (← function.exprPath?).lastSegment?⟩
  | _ => none

mutual
/-- The registrations in a tree, in source order. -/
def collect : Tree → List Registration
  | .leaf _ => []
  | .group _ body => collectAll body
  | .node k parts => (ofPair? (.node k parts)).toList ++ collectAll parts

def collectAll : List Tree → List Registration
  | [] => []
  | t :: ts => collect t ++ collectAll ts
end

end Registration
end Retype
