import Retype.Code.Form
import Retype.Text.Camel

/-! Names of fields, variables and types.  Types are carried as text: `renderType` writes a type compactly and
`parseType` reads it back. -/

namespace Retype.Naming
open Retype.Code

/-- The words that an identifier can only be in raw form. -/
def keywords : List String :=
  ["as", "async", "await", "break", "const", "continue", "crate", "dyn", "else", "enum", "extern", "false",
   "fn", "for", "if", "impl", "in", "let", "loop", "match", "mod", "move", "mut", "pub", "ref", "return",
   "static", "struct", "trait", "true", "type", "unsafe", "use", "where", "while", "abstract", "become",
   "box", "do", "final", "macro", "override", "priv", "try", "typeof", "unsized", "virtual", "yield"]

/-- The keywords that cannot be raw identifiers. -/
def scopeWords : List String := ["crate", "self", "super", "Self"]

/-- Puts `_` in front of what is empty or begins with a digit. -/
def guardStart (s : List Char) : List Char :=
  match s with
  | [] => ['_']
  | c :: _ => if c.isDigit then '_' :: s else s

/-- The field for a schema tag: lower case, with `_` for what is neither letter nor digit. -/
def fieldForTag (tag : String) : String :=
  String.ofList (guardStart (tag.toList.map fun c => if c.isAlphanum then c.toLower else '_'))

/-- An identifier for any text: characters that cannot stand in one become `_`, and a keyword is made raw. -/
def identifier (name : String) : String :=
  let cleaned := String.ofList (guardStart ((unraw name).toList.map fun c =>
    if c.isAlphanum || c == '_' then c else '_'))
  if keywords.contains cleaned && !scopeWords.contains cleaned then "r#" ++ cleaned else cleaned

/-- Characters that need no space beside them. -/
def isGlue (c : Char) : Bool :=
  c == '<' || c == '>' || c == ':' || c == '&' || c == ',' || c == '(' || c == ')' || c == '[' || c == ']' ||
    c == ';'

/-- Drops the spaces beside glue and at the ends; `before` is the last character kept. -/
def tighten (before : Option Char) : List Char → List Char
  | [] => []
  | c :: r =>
    if c == ' ' && (before.all isGlue || r.head?.all isGlue) then tighten before r
    else c :: tighten (some c) r

def spaceCommas (s : List Char) : List Char :=
  s.flatMap fun c => if c == ',' then [',', ' '] else [c]

def renderType (t : Tree) : String := String.ofList (spaceCommas (tighten none t.text.toList))

/-- The only argument of a type whose last segment is one of the wrappers. -/
def unwrapGeneric (wrappers : List String) (t : Tree) : Option Tree := do
  let path ← t.typePath?
  let name ← path.lastSegment?
  if wrappers.contains name then
    match ← path.angleMembers? with
    | [arg] => if arg.isType then some arg else none
    | _ => none
  else none

def sequenceTypes : List String := ["Vec", "HashSet", "BTreeSet"]

def peeledTypes : List String := ["Vec", "Option", "Box", "HashSet", "BTreeSet"]

def sequenceElement (ty : String) : Option String :=
  (parseType ty).bind fun t => (unwrapGeneric sequenceTypes t).map renderType

def isSequence (ty : String) : Bool := (sequenceElement ty).isSome

/-- Peels wrappers; each holds a smaller type, so `fuel` may be the size of the type. -/
def peelWrappers : (fuel : Nat) → Tree → Tree
  | 0, t => t
  | fuel + 1, t =>
    match unwrapGeneric peeledTypes t with
    | some inner => peelWrappers fuel inner
    | none => t

def lastPlainSegment? (path : Tree) : Option String :=
  match path.segments.getLast? with
  | some (.node .segment [.leaf (.ident n), args]) => if args.isAbsent then some n else none
  | _ => none

/-- The model that a field type refers to, inside its wrappers. -/
def elementModel (ty : String) : Option String := do
  let t ← parseType ty
  let path ← (peelWrappers t.size t).typePath?
  lastPlainSegment? path

def textMethods : List String := ["to_string", "into", "to_owned"]

mutual
/-- The text of `"x"`, of `"x".to_string()` and its like, and of `String::from("x")`, parentheses and
references aside. -/
def stringText : Tree → Option String
  | .node (.expr .paren) [_, .group _ [e]] => stringText e
  | .node (.expr .reference) [_, _, _, e] => stringText e
  | .node (.expr .lit) [_, .leaf (.literal t)] => Literal.stringValue? t
  | .node (.expr .methodCall) [_, receiver, _, .leaf (.ident m), _, .group _ []] =>
    if textMethods.contains m then stringText receiver else none
  | .node (.expr .call) [_, .node (.expr .path) [_, path], .group _ args] =>
    if path.pathString == "String::from" && (Trees.members args).length == 1 then firstText args else none
  | _ => none

def firstText : List Tree → Option String
  | [] => none
  | t :: _ => stringText t
end

end Retype.Naming
