import Retype.Format.Type

/-! Layout of blocks and patterns. -/

namespace Retype.Format
open Retype.Code

def statementList (f : Layouts) : Trees → Run
  | [] => []
  | [s] => f.stmt true s
  | s :: t :: ss => f.stmt false s ++ statementList f (t :: ss)

/-- Inner attributes and statements, each on lines of its own. -/
def blockLines (f : Layouts) (members : Trees) : Run :=
  innerAttributes f members ++ statementList f (withoutAttributes members)

def bracedLines (f : Layouts) (members : Trees) : Run :=
  text "\x7b" ++ noBreak ++ indented (innerNewline ++ blockLines f members) ++ text "\x7d"

def soleExpr? : Trees → Option Tree
  | [.node (.stmt .expr) [e, semi]] => if semi.isAbsent then some e else none
  | _ => none

/-- A block that stays on the line if it holds a lone expression that fits; the box it stands in is
indented. -/
def smallBlock (f : Layouts) (members : Trees) : Run :=
  let content :=
    if members.isEmpty then []
    else
      let body := withoutAttributes members
      outdent (blank ++ innerAttributes f members ++ match soleExpr? body with
        | some e => filled 0 (f.expr true e) ++ blank
        | none => statementList f body)
  text "\x7b" ++ content ++ text "\x7d"

def wordBlock (f : Layouts) (words : String) (block : Tree) : Run :=
  text words ++ aligned indentStep (smallBlock f (blockStmts block))

def isPlainAlternative : Tree → Bool
  | .node (.pat .lit) _ => true
  | .node (.pat .wild) _ => true
  | _ => false

/-- The limits of a range and what stands around them. -/
def rangeOf (f : Layouts) (lower mark upper : Tree) : Run :=
  (if lower.isPresent then f.expr false lower else []) ++ text mark.text ++
    (if upper.isPresent then f.expr false upper else [])

def fieldPattern (f : Layouts) : Tree → Run
  | .node .fieldPat [attrs, name, _, pat] =>
    attributes f attrs ++ (if name.isPresent then text name.text ++ text ": " else []) ++ f.pattern pat
  | t => f.pattern t

/-- Nothing but a blank follows `..`. -/
def fieldPatterns (f : Layouts) (ts : Trees) : Run :=
  let ps := Trees.members ts
  commas (if ps.getLast?.any Grammar.isRest then blank else lastCommaOrBlank) (ps.map (fieldPattern f))

def tuplePattern (f : Layouts) (ts : Trees) : Run :=
  match Trees.members ts with
  | [p] =>
    text "(" ++ indented (zero ++ f.pattern p ++ (if 1 < ts.length then text "," else []) ++ zero) ++ text ")"
  | ps => listed "(" ")" (ps.map f.pattern)

def patternParts (f : Layouts) : PatKind → Trees → Run
  | .constBlock, [_, block] => wordBlock f "const " block
  | .ident, [_, byRef, mutable, name, mark, sub] =>
    optionalWord byRef ++ optionalWord mutable ++ text name.text ++
      (if mark.isPresent then text " @ " ++ f.pattern sub else [])
  | .macroCall, [call] => macroCall false call
  | .paren, [.group _ [p]] => text "(" ++ f.pattern p ++ text ")"
  | .path, [p] => path f .inExpr p
  | .range, [lower, mark, upper] => rangeOf f lower mark upper
  | .reference, [_, mutable, p] => text "&" ++ optionalWord mutable ++ f.pattern p
  | .slice, [.group _ ts] => text "[" ++ commas lastComma ((Trees.members ts).map f.pattern) ++ text "]"
  | .structPat, [p, .group _ ts] =>
    indented (path f .inExpr p ++ text " \x7b" ++ innerBlank ++ fieldPatterns f ts) ++ text "\x7d"
  | .tuple, [.group _ ts] => tuplePattern f ts
  | .tupleStruct, [p, .group _ ts] => path f .inExpr p ++ listed "(" ")" ((Trees.members ts).map f.pattern)
  | .typed, [p, _, t] => f.pattern p ++ text ": " ++ f.type t
  | _, ts => text (Trees.text ts)

def pattern (f : Layouts) : Tree → Run
  | .node (.pat .orElse) (_ :: cases) =>
    let ps := cases.filter fun t => !t.isOp "|"
    box (if ps.all isPlainAlternative then .filled else .aligned) 0
      (between (blank ++ text "| ") (ps.map f.pattern))
  | .node (.pat .ident) (attrs :: boxed :: parts) =>
    attributes f attrs ++ optionalWord boxed ++ patternParts f .ident parts
  | .node (.pat k) (attrs :: parts) => attributes f attrs ++ patternParts f k parts
  | t => text t.text

end Retype.Format
