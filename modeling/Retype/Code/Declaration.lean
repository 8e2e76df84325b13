import Retype.Code.Form
import Retype.Text.Quoted

/-! Trees for declarations: attributes, types, structs, methods and implementations. -/

namespace Retype.Code
open Retype.Text (stringLiteral)

def segmentOf (name : String) : Tree := .node .segment [word name, Tree.absent]

/-- Segments with `::` between them. -/
def joinSegments : Trees → Trees
  | [] => []
  | [s] => [s]
  | s :: t :: ts => s :: op "::" :: joinSegments (t :: ts)

def pathOfNames (names : List String) : Tree := .node .path (joinSegments (names.map segmentOf))

def Tree.extendPath (path : Tree) (name : String) : Tree :=
  match path with
  | .node k parts => .node k (parts ++ [op "::", segmentOf name])
  | t => t

def typeOfPath (path : Tree) : Tree := .node (.type .path) [path]

/-- `&'static str` -/
def staticStr : Tree :=
  .node (.type .reference) [op "&", .leaf (.lifetime "'static"), Tree.absent, typeOf "str"]

/-- `Box<dyn …>` for the path of a trait. -/
def boxedTrait (trait : Tree) : Tree :=
  let bound := Tree.node .traitBound [Tree.absent, Tree.absent, trait]
  let object := Tree.node (.type .traitObject) [word "dyn", .node .bounds [bound]]
  typeOfPath (.node .path [.node .segment [word "Box", .node .angleArgs [Tree.absent, op "<", object, op ">"]]])

def stringExpr (s : String) : Tree := .node (.expr .lit) [noAttrs, lit (stringLiteral s)]

def numberExpr (n : Nat) : Tree := .node (.expr .lit) [noAttrs, lit (toString n)]

def tupleOf (members : Trees) : Tree := .node (.expr .tuple) [noAttrs, parenGroup members]

def arrayOf (members : Trees) : Tree := .node (.expr .array) [noAttrs, .group .bracket (commaList members)]

def binaryOf (left : Tree) (operator : String) (right : Tree) : Tree :=
  .node (.expr .binary) [noAttrs, left, op operator, right]

def referenceOf (mutable : Bool) (e : Tree) : Tree :=
  .node (.expr .reference) [noAttrs, op "&", if mutable then word "mut" else Tree.absent, e]

def triedOf (e : Tree) : Tree := .node (.expr .tried) [noAttrs, e, op "?"]

def structLitOf (path : Tree) (fields : List (String × Tree)) : Tree :=
  .node (.expr .structLit) [noAttrs, path, .group .brace (fields.flatMap fun (name, value) =>
    [.node .fieldValue [noAttrs, word name, op ":", value], op ","])]

def identPat (mutable : Bool) (name : String) : Tree :=
  .node (.pat .ident) [noAttrs, Tree.absent, Tree.absent, if mutable then word "mut" else Tree.absent, word name,
    Tree.absent, Tree.absent]

/-- `move |a, b| { … }` -/
def moveClosure (inputs : List String) (body : Trees) : Tree :=
  .node (.expr .closure) [noAttrs, Tree.absent, Tree.absent, Tree.absent, Tree.absent, word "move", op "|",
    .node .inputs (commaList (inputs.map (identPat false))), op "|", Tree.absent,
    .node (.expr .block) [noAttrs, Tree.absent, blockOf body]]

/-- `let mut name = value;` -/
def letMut (name : String) (value : Tree) : Tree :=
  .node (.stmt .bind) [noAttrs, word "let", identPat true name, .node .init [op "=", value, Tree.absent], op ";"]

def tailStmt (e : Tree) : Tree := .node (.stmt .expr) [e, Tree.absent]

/-- `#[name(…)]` -/
def attrOf (name : String) (args : Trees) : Tree :=
  .node .attr [op "#", .group .bracket [.node .metaList [pathOf name, .group .paren args]]]

def deriveAttr (traits : List String) : Tree := attrOf "derive" (commaList (traits.map word))

def pubVis : Tree := .node .visibility [word "pub"]

def pubField (attrs : Trees) (name : String) (ty : Tree) : Tree :=
  .node .field [.node .attrs attrs, pubVis, word name, op ":", ty]

def pubStruct (attrs : Trees) (name : String) (fields : Trees) : Tree :=
  .node (.item .struct) [.node .attrs attrs, pubVis, word "struct", word name, Tree.absent, Tree.absent,
    .group .brace (commaList fields), Tree.absent, Tree.absent]

def pubUnitStruct (attrs : Trees) (name : String) : Tree :=
  .node (.item .struct) [.node .attrs attrs, pubVis, word "struct", word name, Tree.absent, Tree.absent,
    Tree.absent, Tree.absent, op ";"]

/-- `&self` -/
def refSelf : Tree :=
  .node .receiver [noAttrs, op "&", Tree.absent, Tree.absent, word "self", Tree.absent, Tree.absent]

/-- `fn name(&self) -> output { … }` -/
def methodOf (name : String) (output : Tree) (body : Trees) : Tree :=
  .node (.item .method) [noAttrs, Tree.absent, Tree.absent,
    .node .signature [Tree.absent, Tree.absent, Tree.absent, Tree.absent, word "fn", word name, Tree.absent,
      .group .paren [refSelf], .node .output [op "->", output], Tree.absent],
    blockOf body]

/-- `type name = ty;` -/
def assocTypeOf (name : String) (ty : Tree) : Tree :=
  .node (.item .typeAlias) [noAttrs, Tree.absent, Tree.absent, word "type", word name, Tree.absent, Tree.absent,
    Tree.absent, Tree.absent, op "=", ty, Tree.absent, op ";"]

/-- `impl self { … }` -/
def implOf (self : Tree) (members : Trees) : Tree :=
  .node (.item .impl) [noAttrs, Tree.absent, Tree.absent, word "impl", Tree.absent, Tree.absent, self, Tree.absent,
    .group .brace members]

/-- `impl trait for self { … }` -/
def implTraitOf (trait self : Tree) (members : Trees) : Tree :=
  .node (.item .impl) [noAttrs, Tree.absent, Tree.absent, word "impl", Tree.absent,
    .node .implTarget [Tree.absent, trait, word "for"], self, Tree.absent, .group .brace members]

/-- The function as a method that borrows its receiver. -/
def Fn.toMethod (f : Fn) : Tree :=
  let inputs := if f.inputs.isEmpty then [refSelf] else refSelf :: op "," :: f.inputs
  .node (.item .method) [f.attrs, f.vis, Tree.absent,
    .node .signature (f.head ++ [.group .paren inputs, f.output, f.preds]), f.body]

def Fn.hasReceiver (f : Fn) : Bool := f.inputs.any Grammar.isReceiver

/-- The statements of a function, without the attributes that its body begins with. -/
def Fn.stmts (f : Fn) : Trees := (blockStmts f.body).filter fun
  | .node .attr _ => false
  | _ => true

/-- An implementation: the path of its trait, the type that it is for, and its members. -/
structure Impl where
  trait : Option Tree
  self : Tree
  members : Trees

def Tree.impl? : Tree → Option Impl
  | .node (.item .impl) [_, _, _, _, _, .node .implTarget [_, trait, _], self, _, .group _ members] =>
    some ⟨some trait, self, members⟩
  | .node (.item .impl) [_, _, _, _, _, _, self, _, .group _ members] => some ⟨none, self, members⟩
  | _ => none

@[simp] theorem impl?_implTraitOf (trait self : Tree) (members : Trees) :
    (implTraitOf trait self members).impl? = some ⟨some trait, self, members⟩ := rfl

@[simp] theorem impl?_implOf (self : Tree) (members : Trees) :
    (implOf self members).impl? = some ⟨none, self, members⟩ := rfl

/-- The function that a method is, its receiver among the parameters. -/
def Tree.method? : Tree → Option Fn
  | .node (.item .method)
      [attrs, vis, _, .node .signature [c, a, u, e, f, name, params, .group _ inputs, output, preds], body] =>
    some ⟨attrs, vis, [c, a, u, e, f, name, params], inputs, output, preds, body⟩
  | _ => none

def methodName? (t : Tree) : Option String := t.method?.map (·.name)

@[simp] theorem methodName?_methodOf (name : String) (output : Tree) (body : Trees) :
    methodName? (methodOf name output body) = some name := rfl

/-- The method is the function with `&self` in front of its parameters. -/
def BorrowsSelf (f : Fn) (m : Tree) : Prop :=
  ∃ g receiver, m.method? = some g ∧ g = { f with inputs := g.inputs } ∧
    Trees.members g.inputs = receiver :: Trees.members f.inputs ∧ receiver.text = "& self"

theorem borrowsSelf_toMethod {f : Fn} (header : f.head.length = 7) : BorrowsSelf f f.toMethod := by
  obtain ⟨attrs, vis, head, inputs, output, preds, body⟩ := f
  obtain ⟨c, a, u, e, w, name, params, rfl⟩ : ∃ c a u e w name params, head = [c, a, u, e, w, name, params] := by
    match head, header with
    | [c, a, u, e, w, name, params], _ => exact ⟨c, a, u, e, w, name, params, rfl⟩
  refine ⟨_, refSelf, rfl, rfl, ?_, by decide⟩
  cases inputs <;> rfl

def readsBack (item : Tree) : Bool := (parseAll Grammar.item item.raw).isSome

end Retype.Code
