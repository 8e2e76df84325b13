import Retype.Format.Block

/-! Layout of items and of the members of items. -/

namespace Retype.Format
open Retype.Code

def param (f : Layouts) : Tree → Run
  | .node .receiver [attrs, amp, lifetime, mutable, name, colon, t] =>
    attributes f attrs ++ optionalOp amp ++ optionalWord lifetime ++ optionalWord mutable ++ text name.text ++
      (if colon.isPresent then text ": " ++ f.type t else [])
  | .node .param [attrs, pat, _, t] => attributes f attrs ++ f.pattern pat ++ text ": " ++ f.type t
  | .node .variadic [attrs, pat, colon, _] =>
    attributes f attrs ++ (if colon.isPresent then f.pattern pat ++ text ": " else []) ++ text "..."
  | _ => []

/-- A signature up to its `where` clause. -/
def signature (f : Layouts) : Tree → Run
  | .node .signature [constant, async, guarded, foreign, _, name, gs, .group _ inputs, result, _] =>
    optionalWord constant ++ optionalWord async ++ optionalWord guarded ++ abi foreign ++ text "fn " ++
      text name.text ++ generics f gs ++ text "(" ++ noBreak ++
      aligned 0 (outdent (zero ++ params (param f) inputs)) ++ text ")" ++ aligned (-indentStep) (output f result)
  | _ => []

def signatureClause : Tree → Trees
  | .node .signature parts => parts.getLast?.toList
  | _ => []

/-- What stands between braces at the end of an item: lines of their own. -/
def itemBody (content : Run) : Run := text "\x7b" ++ innerNewline ++ content

def closeBrace : Run := text "\x7d" ++ newline

/-- A function; one without a body ends in a semicolon. -/
def function (f : Layouts) (words : Run) (sig body : Tree) : Run :=
  match body with
  | .node .block _ =>
    indented (words ++ signature f sig ++ whereBeforeBody f (signatureClause sig) ++
      itemBody (blockLines f (blockStmts body))) ++ closeBrace
  | _ => aligned indentStep (words ++ signature f sig ++ whereAtEnd f (signatureClause sig)) ++ newline

/-- Paths that a visibility names without `in`. -/
def scopes : List String := ["self", "super", "crate"]

def visibility : Tree → Run
  | .node .visibility [_, .group _ [.node .path parts]] =>
    text "pub(" ++ simplePath (.node .path parts) ++ text ") "
  | .node .visibility [_, .group _ [_, p]] =>
    text (if p.pathIdent?.any scopes.contains then "pub(" else "pub(in ") ++ simplePath p ++ text ") "
  | .node .visibility _ => text "pub "
  | _ => []

def field (f : Layouts) : Tree → Run
  | .node .field [attrs, vis, name, _, t] =>
    attributes f attrs ++ visibility vis ++ (if name.isPresent then text name.text ++ text ": " else []) ++ f.type t
  | _ => []

def fieldLines (f : Layouts) (ts : Trees) : Run :=
  (Trees.members ts).flatMap fun t => field f t ++ text "," ++ newline

def tupleFields (f : Layouts) (ts : Trees) : Run :=
  outdent (text "(" ++ zero ++ commas lastComma ((Trees.members ts).map (field f))) ++ text ")"

def variant (f : Layouts) : Tree → Run
  | .node .variant [attrs, name, fields, value] =>
    attributes f attrs ++ text name.text ++
      (match fields with
        | .group .brace ts =>
          text " " ++ text "\x7b" ++
            indented (blank ++ commas lastCommaOrBlank ((Trees.members ts).map (field f))) ++ text "\x7d"
        | .group _ ts => aligned indentStep (tupleFields f ts)
        | _ => []) ++
      (match value with
        | .node .discriminant [_, e] => text " = " ++ f.expr false e
        | _ => [])
  | _ => []

def dataType (f : Layouts) (word : String) (vis name gs clause : Tree) (lines : Run) : Run :=
  indented (visibility vis ++ text word ++ text name.text ++ generics f gs ++ whereBeforeBody f [clause] ++
    itemBody lines) ++ closeBrace

def isUseGroup : Tree → Bool
  | .node (.useTree .group) _ => true
  | .node (.useTree .path) [_, _, t] => isUseGroup t
  | _ => false

/-- Whether the import names the module that it stands in a group of. -/
def namesSelf : Tree → Bool
  | .node (.useTree .name) [n] => n.isWord "self"
  | .node (.useTree .rename) (n :: _) => n.isWord "self"
  | _ => false

mutual
def useTree : Tree → Run
  | .node (.useTree .path) [name, _, t] => text name.text ++ text "::" ++ useTree t
  | .node (.useTree .rename) [name, _, given] => text name.text ++ text " as " ++ text given.text
  | .node (.useTree .group) [.group _ ts] =>
    if (Trees.members ts).length = 1 ∧ !(Trees.members ts).any namesSelf then useTrees ts
    else
      text "\x7b" ++ indented (zero ++ filled 0 (useTrees ts) ++ lastComma) ++ text "\x7d"
  | t => text t.text

/-- The members of a group; one that ends in a group of its own ends the line. -/
def useTrees : List Tree → Run
  | [] => []
  | t :: ts =>
    if t.isOp "," then useTrees ts
    else useTree t ++ (if Trees.members ts = [] then []
      else text "," ++ if isUseGroup t then newline else blank) ++ useTrees ts
end

def memberLines (f : Layouts) (member : Tree → Run) (ts : Trees) : Run :=
  itemBody (innerAttributes f ts ++ (withoutAttributes ts).flatMap member)

def withMembers (f : Layouts) (head : Run) (member : Tree → Run) (ts : Trees) : Run :=
  indented (head ++ memberLines f member ts) ++ closeBrace

/-- A constant: what stands in front of its name, and its parts. -/
def constant (f : Layouts) (words : Run) (name gs t value : Tree) : Run :=
  aligned 0 (words ++ text "const " ++ text name.text ++ generics f gs ++ text ": " ++ f.type t ++
    (if value.isPresent then text " = " ++ noBreak ++ f.expr false value else []) ++ text ";") ++ newline

def static (f : Layouts) (vis mutable name t value : Tree) : Run :=
  aligned 0 (visibility vis ++ text "static " ++ optionalWord mutable ++ text name.text ++ text ": " ++ f.type t ++
    (if value.isPresent then text " = " ++ noBreak ++ f.expr false value else []) ++ text ";") ++ newline

def macroItem (attrs : Run) (call : Tree) : Run := attrs ++ macroCall true call ++ newline

/-- A member of a trait, an implementation or a foreign module. -/
def member (f : Layouts) : Tree → Run
  | .node (.item .method) [attrs, vis, given, sig, body] =>
    attributes f attrs ++ function f (visibility vis ++ optionalWord given) sig body
  | .node (.item .const) [attrs, vis, given, _, name, gs, _, t, _, value, _] =>
    attributes f attrs ++ constant f (visibility vis ++ optionalWord given) name gs t value
  | .node (.item .static) [attrs, vis, _, _, mutable, name, _, t, _] =>
    attributes f attrs ++ static f vis mutable name t Tree.absent
  | .node (.item .typeAlias) [attrs, vis, given, _, name, gs, _, bs, before, _, t, after, _] =>
    attributes f attrs ++ aligned indentStep (visibility vis ++ optionalWord given ++ text "type " ++ text name.text ++
      generics f gs ++ bounds f (text ": ") breakingPlus bs ++
      (if t.isPresent then text " = " ++ noBreak ++ filled (-indentStep) (f.type t) else []) ++
      whereInlineAtEnd f [before, after]) ++ newline
  | .node (.item .macroCall) [attrs, call, _] => macroItem (attributes f attrs) call
  | t => f.item t

def implHead (f : Layouts) (given guarded gs target self clause : Tree) : Run :=
  filled (-indentStep) (
    aligned indentStep (optionalWord given ++ optionalWord guarded ++ text "impl" ++ generics f gs) ++ text " " ++
      (match target with
        | .node .implTarget [negative, p, _] => optionalOp negative ++ path f .inType p ++ blank ++ text "for "
        | _ => []) ++ f.type self) ++ whereBeforeBody f [clause]

def itemParts (f : Layouts) : ItemKind → Trees → Run
  | .const, [vis, _, name, gs, _, t, _, value, _] => constant f (visibility vis) name gs t value
  | .static, [vis, _, mutable, name, _, t, _, value, _] => static f vis mutable name t value
  | .enum, [vis, _, name, gs, clause, .group _ ts] =>
    dataType f "enum " vis name gs clause ((Trees.members ts).flatMap fun t => variant f t ++ text "," ++ newline)
  | .struct, [vis, _, name, gs, clause, .group .brace ts, _, _] =>
    dataType f "struct " vis name gs clause (fieldLines f ts)
  | .struct, [vis, _, name, gs, before, fields, after, _] =>
    aligned indentStep (visibility vis ++ text "struct " ++ text name.text ++ generics f gs ++
      (match fields with
        | .group _ ts => tupleFields f ts
        | _ => []) ++ whereAtEnd f [before, after]) ++ newline
  | .union, [vis, _, name, gs, clause, .group _ ts] => dataType f "union " vis name gs clause (fieldLines f ts)
  | .externCrate, [vis, _, _, name, given, _] =>
    visibility vis ++ text "extern crate " ++ text name.text ++
      (match given with
        | .node .rename [_, other] => text " as " ++ text other.text
        | _ => []) ++ text ";" ++ newline
  | .fn, [vis, sig, body] => function f (visibility vis) sig body
  | .foreignMod, [guarded, foreign, .group _ ts] => withMembers f (optionalWord guarded ++ abi foreign) (member f) ts
  | .impl, [given, guarded, _, gs, target, self, clause, .group _ ts] =>
    withMembers f (implHead f given guarded gs target self clause) (member f) ts
  | .mod, [vis, guarded, _, name, .group _ ts] =>
    withMembers f (visibility vis ++ optionalWord guarded ++ text "mod " ++ text name.text ++ text " ") f.item ts
  | .mod, [vis, guarded, _, name, _] =>
    aligned indentStep (visibility vis ++ optionalWord guarded ++ text "mod " ++ text name.text ++ text ";") ++ newline
  | .trait, [vis, guarded, auto, _, name, gs, _, supers, clause, .group _ ts] =>
    withMembers f (visibility vis ++ optionalWord guarded ++ optionalWord auto ++ text "trait " ++ text name.text ++
      generics f gs ++ bounds f (text ": ") (text " + ") supers ++ whereBeforeBody f [clause]) (member f) ts
  | .traitAlias, [vis, _, name, gs, _, bs, clause, _] =>
    aligned indentStep (visibility vis ++ text "trait " ++ text name.text ++ generics f gs ++ text " = " ++ noBreak ++
      bounds f [] breakingPlus bs ++ whereAtEnd f [clause]) ++ newline
  | .typeAlias, [vis, _, _, name, gs, _, _, before, _, t, after, _] =>
    aligned indentStep (visibility vis ++ text "type " ++ text name.text ++ generics f gs ++
      whereInline f [before, after] ++ text "= " ++ noBreak ++ filled (-indentStep) (f.type t) ++ text ";") ++ newline
  | .use, [vis, _, root, t, _] =>
    visibility vis ++ text "use " ++ optionalOp root ++ useTree t ++ text ";" ++ newline
  | .macroCall, [call, _] => macroCall true call ++ newline
  | _, ts => text (Trees.text ts) ++ newline

def item (f : Layouts) : Tree → Run
  | .node (.item .verbatim) ts => text (Trees.text ts) ++ newline
  | .node (.item .method) parts => member f (.node (.item .method) parts)
  | .node (.item k) (attrs :: parts) => attributes f attrs ++ itemParts f k parts
  | t => text t.text ++ newline

end Retype.Format
