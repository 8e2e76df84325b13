/-! The kinds of values that a schema attribute can hold. -/

namespace Retype

inductive ValueKind
  | string | integer | float | boolean | list | set | map
  deriving DecidableEq, Repr

namespace ValueKind

/-- The kind that a variant of the schema's value type names. -/
def ofVariant : String → Option ValueKind
  | "String" => some .string
  | "Int" | "Integer" => some .integer
  | "Float" => some .float
  | "Bool" | "Boolean" => some .boolean
  | "List" => some .list
  | "Set" => some .set
  | "Map" => some .map
  | _ => none

def label : ValueKind → String
  | .string => "string"
  | .integer => "integer"
  | .float => "float"
  | .boolean => "boolean"
  | .list => "list"
  | .set => "set"
  | .map => "map"

def all : List ValueKind := [.string, .integer, .float, .boolean, .list, .set, .map]

def ofLabel (s : String) : Option ValueKind := all.find? fun k => k.label == s

def scalarType : ValueKind → Option String
  | .string => some "String"
  | .integer => some "i64"
  | .float => some "f64"
  | .boolean => some "bool"
  | .list | .set | .map => none

def isSequence : ValueKind → Bool
  | .list | .set => true
  | _ => false

end ValueKind
end Retype
