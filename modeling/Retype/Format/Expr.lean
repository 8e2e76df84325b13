import Retype.Code.Grammar.Expr
import Retype.Format.Block

/-! Layout of expressions and statements. -/

namespace Retype.Format
open Retype.Code
open Retype.Code.Grammar (endsWithBlock precedenceOfOp)

def hasAttributes : Tree → Bool
  | .node _ (.node .attrs (_ :: _) :: _) => true
  | _ => false

def isDelimited : Tree → Bool
  | .node (.expr k) _ =>
    match k with
    | .array | .asyncBlock | .block | .closure | .constBlock | .structLit | .tryBlock | .tuple | .unsafeBlock =>
      true
    | _ => false
  | _ => false

/-- A delimited expression can stand alone between the parentheses of a call. -/
def standsAlone (e : Tree) : Bool := isDelimited e && !hasAttributes e

/-- A name that is no longer than a step of indentation. -/
def isShortName : Tree → Bool
  | .node (.expr .path) [.node .attrs [], p] => p.pathIdent?.any fun n => (n.utf8ByteSize : Int) ≤ indentStep
  | _ => false

/-- Whether a semicolon follows the expression as the last of a block. -/
def takesSemicolon : Tree → Bool
  | .node (.expr .binary) [_, _, o, _] => precedenceOfOp o == some .assign
  | .node (.expr k) _ =>
    match k with
    | .assign | .breakOut | .continueLoop | .returnEarly | .yielded => true
    | _ => false
  | _ => false

def dropsSemicolon : Tree → Bool
  | .node (.expr .forLoop) _ => true
  | .node (.expr .whileLoop) _ => true
  | .node (.expr .ifElse) [_, _, _, _, .node .elseBranch [_, other]] => dropsSemicolon other
  | .node (.expr .ifElse) _ => true
  | _ => false

def endsStatement : Tree → Bool
  | .node (.expr .macroCall) [_, .node .macroBody [_, _, .group d _]] => d = .brace
  | e => endsWithBlock e

/-- Whether the expression can be read as a statement: no statement ends within it. -/
def isStatement : Tree → Bool
  | .node (.expr .assign) (_ :: l :: _) => !endsStatement l && isStatement l
  | .node (.expr .binary) (_ :: l :: _) => !endsStatement l && isStatement l
  | .node (.expr .call) (_ :: l :: _) => !endsStatement l && isStatement l
  | .node (.expr .cast) (_ :: l :: _) => !endsStatement l && isStatement l
  | .node (.expr .index) (_ :: l :: _) => !endsStatement l && isStatement l
  | .node (.expr .range) (_ :: l :: _) => !endsStatement l && isStatement l
  | .node (.expr .await) (_ :: e :: _) => isStatement e
  | .node (.expr .field) (_ :: e :: _) => isStatement e
  | .node (.expr .methodCall) (_ :: e :: _) => isStatement e
  | .node (.expr .tried) (_ :: e :: _) => isStatement e
  | _ => true

/-- Whether the line ends after a condition that takes more than one line. -/
def isWrapping : Tree → Bool
  | .node (.expr .breakOut) [_, _, _, e] => isWrapping e
  | .node (.expr .call) [_, e, _] => isWrapping e
  | .node (.expr .letCond) [_, _, _, _, e] => isWrapping e
  | .node (.expr .paren) [_, .group _ [e]] => isWrapping e
  | .node (.expr .range) [_, _, _, e] => isWrapping e
  | .node (.expr .rawAddr) [_, _, _, _, e] => isWrapping e
  | .node (.expr .reference) [_, _, _, e] => isWrapping e
  | .node (.expr .returnEarly) [_, _, e] => isWrapping e
  | .node (.expr .tried) [_, e, _] => isWrapping e
  | .node (.expr .unary) [_, _, e] => isWrapping e
  | .node (.expr .yielded) [_, _, e] => isWrapping e
  | .node (.expr k) _ =>
    match k with
    | .assign | .await | .binary | .cast | .field | .index | .methodCall => true
    | _ => false
  | _ => false

def isFillingLiteral : Tree → Bool
  | .node (.expr .lit) [_, .leaf (.literal l)] =>
    match Literal.classOf l.toList with
    | some .byte | some .character | some .integer => true
    | _ => false
  | .node (.expr .lit) _ => true
  | _ => false

def callArguments (f : Layouts) (args : Trees) : Run :=
  match Trees.members args with
  | [e] =>
    if standsAlone e then text "(" ++ f.expr false e ++ text ")" else listed "(" ")" [f.expr false e]
  | es => listed "(" ")" (es.map (f.expr false))

/-- What stands before a point, and the place where the line may end there. -/
def beforePoint (f : Layouts) (atStart : Bool) (base : Tree) : Run :=
  f.chain atStart base ++ (if atStart && isShortName base then [] else zero)

def methodLink (f : Layouts) (atStart : Bool) (argsOffset : Int) (base name turbofish : Tree) (args : Trees) : Run :=
  beforePoint f atStart base ++ text "." ++ text name.text ++ f.args .inExpr turbofish ++
    aligned argsOffset (callArguments f args)

/-- An expression that a point, call or index follows: the links of a chain share one box. -/
def chain (f : Layouts) (atStart : Bool) : Tree → Run
  | .node (.expr .await) [_, base, _, _] => beforePoint f atStart base ++ text ".await"
  | .node (.expr .call) [_, callee, .group _ args] => f.chain false callee ++ callArguments f args
  | .node (.expr .field) [_, base, _, name] => beforePoint f atStart base ++ text "." ++ text name.text
  | .node (.expr .index) [_, base, .group _ [i]] =>
    f.chain atStart base ++ text "[" ++ f.expr false i ++ text "]"
  | .node (.expr .methodCall) [_, base, _, name, turbofish, .group _ args] =>
    methodLink f atStart 0 base name turbofish args
  | .node (.expr .tried) [_, e, _] => f.chain atStart e ++ text "?"
  | e => aligned (-indentStep) (f.expr false e)

/-- A body that moves into braces of its own if it does not fit; `comma` stands after one that fits. -/
def wrapped (comma : Bool) (afterParen : String) (body : Tree) (content : Run) : Run :=
  let statement := isStatement body
  aligned indentStep
    (gap { plainGap with before := some (if statement then '\x7b' else '(') } ++ content ++
      gap { plainGap with
        offset := -indentStep
        before := if statement && takesSemicolon body then some ';' else none
        after := if statement then "\x7d" else afterParen
        flat := if comma then some ',' else none })

/-- The condition of a branch or loop, up to the brace. -/
def condition (f : Layouts) (e : Tree) : Run :=
  aligned 0 (f.expr false e ++ (if isWrapping e then blank else text " "))

def elseBranches (f : Layouts) : Tree → Run
  | .node .elseBranch [_, .node (.expr .ifElse) [_, _, cond, body, other]] =>
    text " else " ++ text "if " ++ aligned (-indentStep) (condition f cond) ++ smallBlock f (blockStmts body) ++
      elseBranches f other
  | .node .elseBranch [_, .node (.expr .block) [_, _, body]] => text " else " ++ smallBlock f (blockStmts body)
  | _ => []

def ifExpr (f : Layouts) (cond body other : Tree) : Run :=
  let stmts := blockStmts body
  aligned indentStep (text "if " ++ aligned (-indentStep) (condition f cond) ++
    if other.isPresent then smallBlock f stmts ++ elseBranches f other
    else if stmts.isEmpty then text "\x7b\x7d"
    else text "\x7b" ++ outdent (newline ++ blockLines f stmts) ++ text "\x7d")

/-- The expression of an arm without the braces around it. -/
def armBody : Tree → Tree
  | .node (.expr .block) [.node .attrs [], .node .absent _, .node .block [.group _ [.node (.stmt .expr) [e, .node .absent _]]]] =>
    armBody e
  | .node (.expr .tuple) [.node .attrs [], .group .paren []] =>
    .node (.expr .block) [noAttrs, Tree.absent, blockOf []]
  | e => e

def labelOf (label : Tree) : Run :=
  match label with
  | .node .label [name, _] => text name.text ++ text ": "
  | _ => []

def arm (f : Layouts) : Tree → Run
  | .node .arm [attrs, pat, guarded, _, body, _] =>
    let body := armBody body
    attributes f attrs ++ filled 0 (f.pattern pat ++
      (match guarded with
        | .node .guard [_, e] => text " if " ++ f.expr false e
        | _ => []) ++ text " => " ++
      match body with
      | .node (.expr .block) [attrs, label, block] =>
        attributes f attrs ++ labelOf label ++ bracedLines f (blockStmts block)
      | _ => noBreak ++ wrapped (!endsWithBlock body) ")," body (f.expr true body))
  | _ => []

def matchExpr (f : Layouts) (scrutinee : Tree) (members : Trees) : Run :=
  filled 0 (text "match " ++ condition f scrutinee ++ text "\x7b" ++ noBreak ++
    indented (innerNewline ++ innerAttributes f members ++
      (withoutAttributes members).flatMap fun a => arm f a ++ newline) ++ text "\x7d")

/-- The parameters of a closure up to the second bar. -/
def closureInputs (f : Layouts) (inputs : Trees) : Run :=
  match Trees.members inputs with
  | [] => []
  | ps => zero ++ between (text "," ++ blank) (ps.map f.pattern)

def closure (f : Layouts) (lifetimes : Tree) (words inputs : Trees) (result body : Tree) : Run :=
  filled 0 (boundLifetimes f lifetimes ++ words.flatMap optionalWord ++
    match result with
    | .node .output [_, t] =>
      let params := closureInputs f inputs
      aligned indentStep ((if params.isEmpty then text "|" else outdent (text "|" ++ params ++ lastComma)) ++ text "|") ++
        text " -> " ++ f.type t ++ text " " ++ f.expr false body
    | _ =>
      indented (text "|" ++ closureInputs f inputs ++ text "|" ++ blank) ++ noBreak ++
        if wrapsBody body then wrapped false ")" body (f.expr false body) else f.expr false body)
where
  wrapsBody (body : Tree) : Bool :=
    match body with
    | .node (.expr .matchOn) _ => hasAttributes body
    | .node (.expr .call) _ => hasAttributes body
    | _ => !standsAlone body

def arrayExpr (f : Layouts) (ts : Trees) : Run :=
  match Trees.members ts with
  | [] => text "[]"
  | es =>
    if es.all isFillingLiteral then
      aligned indentStep (outdent (text "[" ++ zero ++
        filled 0 (between (text "," ++ blank) (es.map (f.expr false))) ++ lastComma) ++ text "]")
    else listed "[" "]" (es.map (f.expr false))

def isBase : Tree → Bool
  | .node .fieldValue [_, dots, _, e] => dots.isOp ".." && e.isPresent
  | _ => false

def isOpenEnd : Tree → Bool
  | .node .fieldValue [_, dots, _, e] => dots.isOp ".." && e.isAbsent
  | _ => false

def fieldValue (f : Layouts) : Tree → Run
  | .node .fieldValue [attrs, name, colon, e] =>
    if name.isOp ".." then text ".." ++ f.expr false e
    else attributes f attrs ++ text name.text ++
      (if colon.isPresent then text ": " ++ filled 0 (f.expr false e) else [])
  | _ => []

/-- A struct literal that is wider than this takes several lines. -/
def structWidth : Nat := 34

def structExpr (f : Layouts) (p : Tree) (ts : Trees) : Run :=
  let fields := (Trees.members ts).filter fun t => !isOpenEnd t
  narrow structWidth indentStep (outdent (filled (-indentStep) (path f .inExpr p) ++ text " \x7b" ++ innerBlank ++
    commas (if fields.getLast?.any isBase then blank else lastCommaOrBlank) (fields.map (fieldValue f)))) ++ text "\x7d"

/-- A keyword with what it may carry out of a loop or function. -/
def jump (f : Layouts) (word label value : Tree) : Run :=
  text word.text ++ (if label.isPresent then text " " ++ text label.text else []) ++
    (if value.isPresent then text " " ++ f.expr false value else [])

def operatorRun (left right : Run) (operator : String) : Run :=
  filled indentStep (filled (-indentStep) left ++ blank ++ text operator ++ text " " ++ right)

def exprParts (f : Layouts) (atStart : Bool) (whole : Tree) : ExprKind → Trees → Run
  | .array, [.group _ ts] => arrayExpr f ts
  | .assign, [l, _, r] => filled 0 (f.expr false l ++ text " = " ++ noBreak ++ f.expr false r)
  | .asyncBlock, [_, moved, block] => wordBlock f (if moved.isPresent then "async move " else "async ") block
  | .binary, [l, o, r] => operatorRun (f.expr false l) (f.expr false r) o.text
  | .block, [label, block] => labelOf label ++ wordBlock f "" block
  | .breakOut, [word, label, value] => jump f word label value
  | .call, [callee, .group _ args] => f.expr atStart callee ++ callArguments f args
  | .cast, [e, _, t] => operatorRun (f.expr false e) (f.type t) "as"
  | .closure, [lifetimes, constant, pinned, async, moved, _, .node .inputs inputs, _, result, body] =>
    closure f lifetimes [constant, pinned, async, moved] inputs result body
  | .constBlock, [_, block] => wordBlock f "const " block
  | .continueLoop, [word, label] => jump f word label Tree.absent
  | .forLoop, [label, _, pat, _, items, block] =>
    filled 0 (labelOf label ++ text "for " ++ f.pattern pat ++ text " in " ++ noBreak ++ condition f items ++
      bracedLines f (blockStmts block))
  | .ifElse, [_, cond, body, other] => ifExpr f cond body other
  | .index, [base, .group _ [i]] => f.expr atStart base ++ text "[" ++ f.expr false i ++ text "]"
  | .letCond, [_, pat, _, e] =>
    filled 0 (text "let " ++ filled 0 (f.pattern pat) ++ text " = " ++ noBreak ++ filled 0 (f.expr false e))
  | .loop, [label, _, block] =>
    labelOf label ++ text "loop \x7b" ++ indented (innerNewline ++ blockLines f (blockStmts block)) ++ text "\x7d"
  | .macroCall, [call] => macroCall false call
  | .matchOn, [_, scrutinee, .group _ arms] => matchExpr f scrutinee arms
  | .methodCall, [base, _, name, turbofish, .group _ args] =>
    let offset := if atStart && isShortName base then -indentStep else 0
    aligned indentStep (methodLink f atStart offset base name turbofish args)
  | .await, _ => aligned indentStep (chain f atStart whole)
  | .field, _ => aligned indentStep (chain f atStart whole)
  | .paren, [.group _ [e]] => text "(" ++ f.expr false e ++ text ")"
  | .path, [p] => path f .inExpr p
  | .range, [lower, mark, upper] => rangeOf f lower mark upper
  | .rawAddr, [_, _, access, e] => text "&raw " ++ text access.text ++ text " " ++ f.expr false e
  | .reference, [_, mutable, e] => text "&" ++ optionalWord mutable ++ f.expr false e
  | .repeated, [.group _ [e, _, n]] => text "[" ++ f.expr false e ++ text "; " ++ f.expr false n ++ text "]"
  | .returnEarly, [word, value] => jump f word Tree.absent value
  | .structLit, [p, .group _ fields] => structExpr f p fields
  | .tried, [e, _] => f.expr atStart e ++ text "?"
  | .tryBlock, [_, block] => wordBlock f "try " block
  | .tuple, [.group _ ts] => tupleList ((Trees.members ts).map (f.expr false))
  | .unary, [o, e] => text o.text ++ f.expr false e
  | .unsafeBlock, [_, block] => wordBlock f "unsafe " block
  | .whileLoop, [label, _, cond, block] =>
    labelOf label ++ text "while " ++ condition f cond ++ bracedLines f (blockStmts block)
  | .yielded, [word, value] => jump f word Tree.absent value
  | _, ts => text (Trees.text ts)

def expr (f : Layouts) (atStart : Bool) (e : Tree) : Run :=
  match e with
  | .node (.expr k) (attrs :: parts) => attributes f attrs ++ exprParts f atStart e k parts
  | t => text t.text

def bindValue (f : Layouts) (front : Run) : Tree → Run
  | .node .init [_, e, .node .letElse [_, .node (.expr .block) [_, _, block]]] =>
    filled 0 (front ++ text " = " ++ noBreak ++ f.expr false e ++ blank ++ text "else ") ++ noBreak ++
      wordBlock f "" block
  | .node .init [_, e, _] => filled 0 (front ++ text " = " ++ noBreak ++ f.expr false e)
  | _ => filled 0 front

def stmt (f : Layouts) (last : Bool) : Tree → Run
  | .node (.stmt .bind) [attrs, _, pat, init, _] =>
    attributes f attrs ++ bindValue f (text "let " ++ f.pattern pat) init ++ text ";" ++ newline
  | .node (.stmt .expr) [.node (.expr .verbatim) [], _] => []
  | .node (.stmt .expr) [e, semi] =>
    let ended := if semi.isPresent then !dropsSemicolon e else takesSemicolon e
    filled 0 (f.expr true e ++ (if ended then text ";" else [])) ++ newline
  | .node (.stmt .macroCall) [attrs, call, semi] =>
    attributes f attrs ++ macroCall (semi.isPresent || !last) call ++ newline
  | t => f.item t

end Retype.Format
