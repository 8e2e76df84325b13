import Retype.Code.Literal
import Retype.Format.Raw

/-! Layout of attributes, paths, types and generic parameters, and the record of layouts that nested code is
laid out by. -/

namespace Retype.Format
open Retype.Code

/-- Where a path stands; in an expression its arguments begin with `::`. -/
inductive PathRole
  | inExpr | inType
  deriving DecidableEq, Repr

/-- The layouts that those of larger code call for what is nested in it. -/
structure Layouts where
  /-- An expression; at the start of a line a call on a short name keeps its first point there. -/
  expr : (atStart : Bool) → Tree → Run
  /-- What stands before a point, call or index. -/
  chain : (atStart : Bool) → Tree → Run
  type : Tree → Run
  /-- The arguments of a segment of a path. -/
  args : PathRole → Tree → Run
  bound : Tree → Run
  pattern : Tree → Run
  stmt : (last : Bool) → Tree → Run
  item : Tree → Run

def Layouts.none : Layouts where
  expr _ _ := []
  chain _ _ := []
  type _ := []
  args _ _ := []
  bound _ := []
  pattern _ := []
  stmt _ _ := []
  item _ := []

/-- The text of an attribute of the given name that has a text for its value. -/
def attrText? (name : String) : Tree → Option String
  | .node .metaValue [path, _, value@(.node (.expr .lit) (.node .attrs [] :: _))] =>
    if path.pathIdent? == some name then value.stringLit? else none
  | _ => none

def trimBlanks (s : List Char) : List Char := (s.reverse.dropWhile (· == ' ')).reverse

def trimLines (s : String) : String :=
  let lines := s.toList.splitOn '\n'
  String.ofList ("\n".toList.intercalate (lines.dropLast.map trimBlanks ++ lines.drop (lines.length - 1)))

/-- Whether comment marks within the text are balanced; `depth` of them are open. -/
def balancedMarks : (depth : Nat) → List Char → Bool
  | depth, '/' :: '*' :: r => balancedMarks (depth + 1) r
  | 0, '*' :: '/' :: _ => false
  | depth + 1, '*' :: '/' :: r => balancedMarks depth r
  | depth, _ :: r => balancedMarks depth r
  | depth, [] => depth == 0

/-- Whether the text can stand between the marks of a block comment. -/
def fitsBlockComment (s : List Char) : Bool := balancedMarks 0 s && s.getLast? != some '/'

def beginsWith (cs : List Char) (s : String) : Bool := s.toList.head?.any cs.contains

/-- A comment with marks for a line and for a block; a text that begins with one of the characters given for
a form does not take that form. -/
def comment? (line block : String) (notLine notBlock : List Char) (s : String) : Option Run :=
  if !s.toList.contains '\n' && !beginsWith notLine s then
    some (text line ++ text (String.ofList (trimBlanks s.toList)) ++ newline)
  else if fitsBlockComment s.toList && !beginsWith notBlock s then
    some (text block ++ text (trimLines s) ++ text "*/" ++ newline)
  else none

def asComment? (isInner : Bool) (meaning : Tree) : Option Run :=
  match attrText? "doc" meaning with
  | some s => if isInner then comment? "//!" "/*!" [] [] s else comment? "///" "/**" ['/'] ['*', '/'] s
  | none => (attrText? "comment" meaning).bind (comment? "//" "/*" [] ['*', '!'])

def attrMeaning (f : Layouts) : Tree → Run
  | .node .metaPath [path] => simplePath path
  | .node .metaList [path, body] => simplePath path ++ argGroup body
  | .node .metaValue [path, _, value] => simplePath path ++ text " = " ++ f.expr false value
  | t => text t.text

def attrLine (f : Layouts) : Tree → Run
  | .node .attr parts =>
    let isInner := parts.length == 3
    let meaning := (parts.getLast?.bind (·.body.head?)).getD Tree.absent
    (asComment? isInner meaning).getD
      (text (if isInner then "#!" else "#") ++ text "[" ++ attrMeaning f meaning ++ text "]" ++ blank)
  | _ => []

def attributes (f : Layouts) (attrs : Tree) : Run := attrs.parts.flatMap (attrLine f)

def isAttribute : Tree → Bool
  | .node .attr _ => true
  | _ => false

/-- The attributes that the members of a body begin with. -/
def innerAttributes (f : Layouts) (members : Trees) : Run := (members.takeWhile isAttribute).flatMap (attrLine f)

def withoutAttributes (members : Trees) : Trees := members.dropWhile isAttribute

def optionalWord (t : Tree) : Run := if t.isPresent then text (t.text ++ " ") else []

def optionalOp (t : Tree) : Run := if t.isPresent then text t.text else []

def segment (f : Layouts) (role : PathRole) : Tree → Run
  | .node .segment [name, args] => text name.text ++ f.args role args
  | t => text t.text

/-- The part of a qualified path up to `>` names types; `closed` says that it has been passed. -/
def qualifiedParts (f : Layouts) (role : PathRole) (closed : Bool) : Trees → Run
  | [] => []
  | t :: ts =>
    if t.isWord "as" then text " as " ++ qualifiedParts f role closed ts
    else if t.isOp ">" then text ">" ++ qualifiedParts f role true ts
    else if t.isType then f.type t ++ qualifiedParts f role closed ts
    else segment f (if closed then role else .inType) t ++ qualifiedParts f role closed ts

def path (f : Layouts) (role : PathRole) : Tree → Run
  | .node .qualified parts => qualifiedParts f role false parts
  | t => t.parts.flatMap (segment f role)

/-- A `+` in front of which the line may end. -/
def breakingPlus : Run := blank ++ text "+ "

def bounds (f : Layouts) (first separator : Run) (bs : Tree) : Run :=
  match bs.parts.filter fun t => !t.isOp "+" with
  | [] => []
  | members => first ++ between separator (members.map f.bound)

def lifetimeParam (f : Layouts) : Tree → Run
  | .node .lifetimeParam [attrs, name, _, limits] =>
    attributes f attrs ++ text name.text ++ bounds f (text ": ") (text " + ") limits
  | t => text t.text

def boundLifetimes (f : Layouts) : Tree → Run
  | .node .boundLifetimes (_ :: _ :: params) =>
    text "for<" ++ between (text ", ") ((Trees.members params.dropLast).map (lifetimeParam f)) ++ text "> "
  | _ => []

/-- A bound: a lifetime, or the path of a trait with its marks. -/
def bound (f : Layouts) : Tree → Run
  | .node .traitBound [.group _ [b]] => text "(" ++ (if b.isType then f.type b else f.bound b) ++ text ")"
  | .node .traitBound (.leaf (.ident "use") :: _ :: params) =>
    text "use<" ++ between (text ", ") ((Trees.members params.dropLast).map fun t => text t.text) ++ text ">"
  | .node .traitBound [mark, lifetimes, p] => optionalOp mark ++ boundLifetimes f lifetimes ++ path f .inType p
  | t => text t.text

def output (f : Layouts) : Tree → Run
  | .node .output [_, t] => text " -> " ++ f.type t
  | _ => []

def genericArgument (f : Layouts) : Tree → Run
  | .node .assocType [name, args, _, t] => text name.text ++ f.args .inType args ++ text " = " ++ f.type t
  | .node .assocConst [name, args, _, value] =>
    text name.text ++ f.args .inType args ++ text " = " ++ f.expr false value
  | .node .constraint [name, args, _, bs] =>
    text name.text ++ f.args .inType args ++ filled indentStep (bounds f (text ": ") breakingPlus bs)
  | t@(.node (.type _) _) => f.type t
  | t@(.node (.expr _) _) => f.expr false t
  | t => text t.text

def pathArguments (f : Layouts) (role : PathRole) : Tree → Run
  | .node .angleArgs (_ :: _ :: rest) =>
    match Trees.members rest.dropLast with
    | [] => []
    | members => (if role = .inExpr then text "::" else []) ++ listed "<" ">" (members.map (genericArgument f))
  | .node .parenArgs [.group _ ts, result] =>
    aligned indentStep (outdent (text "(" ++ zero ++ commas lastComma ((Trees.members ts).map f.type)) ++ text ")" ++
      output f result)
  | _ => []

def abi : Tree → Run
  | .node .abi [_, name] => text "extern " ++ text name.text ++ text " "
  | .node .abi _ => text "extern "
  | _ => []

def bareParam (f : Layouts) : Tree → Run
  | .node .param [attrs, name, _, t] =>
    attributes f attrs ++ (if name.isPresent then text (name.text ++ ": ") else []) ++ f.type t
  | .node .variadic (attrs :: _) => attributes f attrs ++ text "..."
  | _ => []

/-- A list in which one member alone is followed by a comma in any case. -/
def tupleList (members : List Run) : Run :=
  match members with
  | [d] => text "(" ++ indented (zero ++ d ++ text "," ++ zero) ++ text ")"
  | ds => listed "(" ")" ds

def isVariadic : Tree → Bool
  | .node .variadic _ => true
  | _ => false

/-- Parameters; one that stands for any number of them has no comma after it. -/
def params (param : Tree → Run) (ts : Trees) : Run :=
  let ps := Trees.members ts
  commas (if ps.getLast?.any isVariadic then zero else lastComma) (ps.map param)

def type (f : Layouts) : Tree → Run
  | .node (.type .array) [.group _ [elem, _, n]] =>
    text "[" ++ f.type elem ++ text "; " ++ f.expr false n ++ text "]"
  | .node (.type .bareFn) [lifetimes, guarded, foreign, _, .group _ args, result] =>
    boundLifetimes f lifetimes ++ optionalWord guarded ++ abi foreign ++ text "fn(" ++
      indented (zero ++ params (bareParam f) args) ++ text ")" ++ output f result
  | .node (.type .implTrait) [_, bs] => bounds f (text "impl ") (text " + ") bs
  | .node (.type .macroCall) [call] => macroCall false call
  | .node (.type .paren) [.group _ [t]] => text "(" ++ f.type t ++ text ")"
  | .node (.type .path) [p] => path f .inType p
  | .node (.type .ptr) [_, access, t] => text "*" ++ text (access.text ++ " ") ++ f.type t
  | .node (.type .reference) [_, lifetime, mutable, t] =>
    text "&" ++ optionalWord lifetime ++ optionalWord mutable ++ f.type t
  | .node (.type .slice) [.group _ [t]] => text "[" ++ f.type t ++ text "]"
  | .node (.type .traitObject) [_, .node .bounds (lifetimes@(.node .boundLifetimes _) :: bs)] =>
    text "dyn " ++ boundLifetimes f lifetimes ++ bounds f [] (text " + ") (.node .bounds bs)
  | .node (.type .traitObject) [_, .node .bounds bs] =>
    bounds f (text "dyn ") (text " + ") (.node .bounds (bs.filter (·.isPresent)))
  | .node (.type .tuple) [.group _ ts] => tupleList ((Trees.members ts).map f.type)
  | t => text t.text

def genericParam (f : Layouts) : Tree → Run
  | .node .typeParam [attrs, name, _, bs, _, value] =>
    attributes f attrs ++ text name.text ++
      filled indentStep (bounds f (text ": ") breakingPlus bs ++
        (if value.isPresent then blank ++ text "= " ++ f.type value else []))
  | .node .constParam [attrs, _, name, _, t, _, value] =>
    attributes f attrs ++ text "const " ++ text name.text ++ text ": " ++ f.type t ++
      (if value.isPresent then text " = " ++ f.expr false value else [])
  | t => lifetimeParam f t

def generics (f : Layouts) : Tree → Run
  | .node .generics (_ :: ts) =>
    text "<" ++ aligned 0 (outdent (zero ++ commas lastComma ((Trees.members ts.dropLast).map (genericParam f)))) ++
      text ">"
  | _ => []

def predicate (f : Layouts) : Tree → Run
  | .node .typeBound [lifetimes, t, _, bs] =>
    let single := (bs.parts.filter fun t => !t.isOp "+").length == 1
    boundLifetimes f lifetimes ++ f.type t ++ text ":" ++
      filled (if single then 0 else indentStep) (bounds f (text " ") breakingPlus bs)
  | .node .lifetimeBound [name, _, bs] =>
    text name.text ++ text ":" ++ filled indentStep (bounds f (text " ") breakingPlus bs)
  | _ => []

/-- The predicates of a clause, or of the first of several that has some. -/
def predicates (clauses : Trees) : Trees :=
  clauses.flatMap fun
    | .node .whereClause (_ :: ps) => Trees.members ps
    | _ => []

/-- A clause that takes lines of its own, in front of a body; the box it stands in is indented. -/
def whereBeforeBody (f : Layouts) (clauses : Trees) : Run :=
  match predicates clauses with
  | [] => text " "
  | ps =>
    outdent newline ++ text "where" ++ newline ++
      outdent (ps.flatMap fun p => predicate f p ++ text "," ++ newline)

def whereAtEnd (f : Layouts) (clauses : Trees) : Run :=
  match predicates clauses with
  | [] => text ";"
  | ps =>
    outdent newline ++ text "where" ++ newline ++
      between (text "," ++ newline) (ps.map (predicate f)) ++ text ";"

/-- A clause that may stand on one line with what is around it. -/
def whereInline (f : Layouts) (clauses : Trees) : Run :=
  match predicates clauses with
  | [] => text " "
  | ps => outdent blank ++ text "where" ++ blank ++ outdent (commas lastCommaOrBlank (ps.map (predicate f)))

def whereInlineAtEnd (f : Layouts) (clauses : Trees) : Run :=
  match predicates clauses with
  | [] => text ";"
  | ps => outdent blank ++ text "where" ++ blank ++ commas (text ";") (ps.map (predicate f))

end Retype.Format
