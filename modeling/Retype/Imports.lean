import Retype.Code.Form
import Retype.Table

/-! Imports of a file.  A name that a path of the code begins with has to be imported or defined; for known
names missing imports are added, and plain imports that nothing refers to are dropped. -/

namespace Retype.Imports
open Retype.Code

/-- The paths to import by the names that they bring. -/
abbrev Known := Table Tree

/-- The entries of a table whose paths parse. -/
def Known.ofTable (t : Table String) : Known :=
  t.filterMap fun (root, path) => (parsePath path).map fun p => (root, p)

/-- The name that a path begins with, unless it begins at the root. -/
def firstName? : Trees → List String
  | t :: _ => (segmentName? t).toList
  | [] => []

def qualifierName? : Trees → List String
  | _ :: _ :: .leaf (.ident "as") :: via => firstName? via
  | _ => []

def isJointColon : Tree → Bool
  | .leaf (.punct ":" joint) => joint
  | _ => false

/-- A word that unparsed code may begin a path with. -/
def bareName? : Tree → List String
  | .leaf (.ident n) => [n]
  | .leaf (.lifetime n) => [String.ofList (n.toList.drop 1)]
  | _ => []

/-- A lifetime hides the colon in front of it. -/
def continuesPath (previous : Option Tree) : Tree → Bool
  | .leaf (.ident _) => previous.any (·.isOp ":")
  | _ => false

mutual
/-- The names that paths in unparsed code begin with. -/
def scan (previous : Option Tree) : List Tree → List String
  | [] => []
  | t :: ts =>
    (if ts.head?.any isJointColon && !continuesPath previous t then bareName? t else []) ++
      scanGroup t ++ scan (some t) ts

def scanGroup : Tree → List String
  | .group _ body => scan none body
  | _ => []
end

def derived (body : Trees) : List String :=
  match parseAll (fun g => Parser.commaSeparated (Grammar.path g false)) body with
  | some paths => (Trees.members paths).flatMap fun p => firstName? p.parts
  | none => []

mutual
/-- The names that paths in a tree begin with, those of imports left out. -/
def references : Tree → List String
  | .leaf _ => []
  | .group _ body => referencesIn body
  | .node (.item .use) _ => []
  | .node .path parts => firstName? parts ++ referencesIn parts
  | .node .qualified parts => qualifierName? parts ++ referencesIn parts
  | .node .metaList [path, .group d body] =>
    references path ++ if path.pathIdent? == some "derive" then derived (Tree.group d body).body else []
  | .node .macroBody (path :: rest) => references path ++ scan none (Trees.raw rest)
  | .node .fieldValue [attrs, .leaf (.ident n), colon, value] =>
    references attrs ++ (if colon.isAbsent then [n] else []) ++ references value
  | .node _ parts => referencesIn parts

def referencesIn : List Tree → List String
  | [] => []
  | t :: ts => references t ++ referencesIn ts
end

mutual
/-- The names that an import brings; `self` stands for the name above it. -/
def bindings (parent : Option String) : Tree → List String
  | .node (.useTree .path) [.leaf (.ident n), _, tree] => bindings (some n) tree
  | .node (.useTree .name) [.leaf (.ident n)] => if n == "self" then parent.toList else [n]
  | .node (.useTree .rename) [_, _, .leaf (.ident n)] => [n]
  | .node (.useTree .group) [.group _ trees] => bindingsIn parent trees
  | _ => []

def bindingsIn (parent : Option String) : List Tree → List String
  | [] => []
  | t :: ts => bindings parent t ++ bindingsIn parent ts
end

/-- The last name of an import of one thing under its own name. -/
def plainLeaf? : Tree → Option String
  | .node (.useTree .path) [_, _, tree] => plainLeaf? tree
  | .node (.useTree .name) [.leaf (.ident n)] => some n
  | _ => none

def useTree? : Tree → Option Tree
  | .node (.item .use) [_, _, _, _, tree, _] => some tree
  | _ => none

def itemName? : Tree → Option String
  | .node (.item .fn) [_, _, .node .signature parts, _] => parts[5]?.bind (·.ident?)
  | .node (.item .const) (_ :: _ :: _ :: name :: _) => name.ident?
  | .node (.item .enum) (_ :: _ :: _ :: name :: _) => name.ident?
  | .node (.item .struct) (_ :: _ :: _ :: name :: _) => name.ident?
  | .node (.item .union) (_ :: _ :: _ :: name :: _) => name.ident?
  | .node (.item .static) (_ :: _ :: _ :: _ :: name :: _) => name.ident?
  | .node (.item .mod) (_ :: _ :: _ :: _ :: name :: _) => name.ident?
  | .node (.item .typeAlias) (_ :: _ :: _ :: _ :: name :: _) => name.ident?
  | .node (.item .trait) (_ :: _ :: _ :: _ :: _ :: name :: _) => name.ident?
  | .node (.item .macroCall) [_, .node .macroBody [_, _, name, _], _] => name.ident?
  | _ => none

/-- `use path;`, which is no code if the path has arguments. -/
def importOf? (path : Tree) : Option Tree := parseAll Grammar.item (word "use" :: path.raw ++ [op ";"])

/-- A plain import of a known name that nothing refers to. -/
def isUnused (known : Known) (referenced : List String) (item : Tree) : Bool :=
  ((useTree? item).bind plainLeaf?).any fun leaf => (known.get? leaf).isSome && !referenced.contains leaf

/-- Puts items after the last import, or at the front if there is none. -/
def insertAfterUses (new items : Trees) : Trees :=
  let after := (items.reverse.takeWhile fun t => !isUse t).length
  if items.any isUse then items.take (items.length - after) ++ new ++ items.drop (items.length - after)
  else new ++ items

structure Fixed where
  /-- The number of imports added and dropped. -/
  changes : Nat
  items : Trees

/-- Adds missing imports of known names and drops those that are not used; `attrs` are the attributes of the
file.  There is no answer if the process dies of an import that is no code. -/
def fix? (known : Known) (attrs items : Trees) : Option Fixed := do
  let referenced := referencesIn (attrs ++ items)
  let bound := (items.filterMap useTree?).flatMap (bindings none)
  let defined := (items.filter fun t => !isUse t).filterMap itemName?
  let kept := items.filter fun t => !isUnused known referenced t
  let missing := known.filter fun (root, _) =>
    referenced.contains root && !bound.contains root && !defined.contains root
  let new ← missing.mapM fun (_, path) => importOf? path
  some ⟨missing.length + (items.length - kept.length), insertAfterUses new kept⟩

end Retype.Imports
