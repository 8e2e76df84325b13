import Retype.Naming

/-! The typed models of a resource, and how a dotted schema tag names a field in them.  In `sku.0.name` the
first segment is a tag of the model, a number after a sequence is an index, and what follows is a tag of the
model that the field refers to. -/

namespace Retype

structure ModelField where
  name : String
  ty : String
  tag : String
  deriving DecidableEq, Repr

structure Model where
  name : String
  fields : List ModelField
  /-- The model is declared in the source and not derived from the schema. -/
  declared : Bool
  deriving DecidableEq, Repr

namespace Model

def fieldByTag (m : Model) (tag : String) : Option ModelField := m.fields.find? (·.tag == tag)

def fieldByName (m : Model) (name : String) : Option ModelField := m.fields.find? (·.name == name)

def tags (m : Model) : List String := m.fields.map (·.tag)

end Model

/-- A step of a resolved tag. -/
inductive PathStep
  | field (f : ModelField)
  | index (i : Nat)
  deriving DecidableEq, Repr

namespace PathStep

def field? : PathStep → Option ModelField
  | .field f => some f
  | .index _ => none

end PathStep

/-- All models of a resource, with the name of the one at the root. -/
structure ModelSet where
  top : String
  models : List Model
  deriving DecidableEq, Repr

namespace ModelSet

def get (s : ModelSet) (name : String) : Option Model := s.models.find? (·.name == name)

def topModel (s : ModelSet) : Option Model := s.get s.top

def topField (s : ModelSet) (name : String) : Option ModelField := s.topModel.bind (·.fieldByName name)

/-- An index: digits, perhaps after a plus sign, that fit a machine word. -/
def index? (segment : String) : Option Nat :=
  let digits := match segment.toList with
    | '+' :: r => r
    | s => s
  if digits.isEmpty || !digits.all Char.isDigit then none
  else
    let n := digits.foldl (fun n c => n * 10 + (c.toNat - '0'.toNat)) 0
    if n < UInt64.size then some n else none

/-- Nothing follows, or only the point that ends the tag. -/
def isSpent : List String → Bool
  | [] => true
  | [s] => s.isEmpty
  | _ => false

/-- Resolves the segments of a tag from a model on; every segment has to resolve. -/
def steps (s : ModelSet) (model : Option Model) : (segments : List String) → Option (List PathStep)
  | [] => none
  | [head] => do
    let f ← (← model).fieldByTag head
    some [.field f]
  | head :: second :: rest => do
    let f ← (← model).fieldByTag head
    if isSpent (second :: rest) then some [.field f]
    else
      match index? second with
      | some i =>
        if Naming.isSequence f.ty then
          if isSpent rest then some [.field f, .index i]
          else do
            let next ← Naming.elementModel f.ty
            let below ← s.steps (s.get next) rest
            some (.field f :: .index i :: below)
        else none
      | none => do
        let next ← Naming.elementModel f.ty
        let below ← s.steps (s.get next) (second :: rest)
        some (.field f :: below)

def segmentsOf (tag : String) : List String := (tag.toList.splitOn '.').map String.ofList

def resolveTag (s : ModelSet) (model tag : String) : Option (List PathStep) :=
  s.steps (if model.isEmpty then s.topModel else s.get model) (segmentsOf tag)

def findByTag (s : ModelSet) (model tag : String) : Option ModelField :=
  (s.resolveTag model tag).bind fun steps => steps.reverse.findSome? PathStep.field?

/-- Follows field names from a field down. -/
def descend (s : ModelSet) (f : ModelField) : List String → Option ModelField
  | [] => some f
  | name :: rest => do
    let next ← Naming.elementModel f.ty
    let g ← (← s.get next).fieldByName name
    s.descend g rest

/-- Follows field names from the top model. -/
def fieldByPath (s : ModelSet) : List String → Option ModelField
  | [] => none
  | name :: rest => (s.topField name).bind fun f => s.descend f rest

/-- Two lists hold the same texts. -/
def sameTags (a b : List String) : Bool := a.all b.contains && b.all a.contains

/-- The first model whose tags are the keys, all of them and no others. -/
def findByKeys (s : ModelSet) (keys : List String) : Option Model :=
  if keys.isEmpty then none else s.models.find? fun m => sameTags m.tags keys

end ModelSet
end Retype
