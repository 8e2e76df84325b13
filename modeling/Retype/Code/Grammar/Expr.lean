import Retype.Code.Grammar.Pattern

/-! Expressions.  Binary operators are read by precedence climbing; `structs` says whether a struct literal
may stand where the expression ends in front of a brace. -/

namespace Retype.Code.Grammar
open Code.Parser

inductive Precedence
  | jump | assign | range | or | and | comparison | bitOr | bitXor | bitAnd | shift | sum | product | cast
  deriving DecidableEq, Repr

def Precedence.rank : Precedence → Nat
  | .jump => 0
  | .assign => 1
  | .range => 2
  | .or => 3
  | .and => 4
  | .comparison => 5
  | .bitOr => 6
  | .bitXor => 7
  | .bitAnd => 8
  | .shift => 9
  | .sum => 10
  | .product => 11
  | .cast => 12

/-- The binary operators; where one begins another, the longer stands first. -/
def binaryOps : List (String × Precedence) :=
  [("+=", .assign), ("-=", .assign), ("*=", .assign), ("/=", .assign), ("%=", .assign), ("^=", .assign),
   ("&=", .assign), ("|=", .assign), ("<<=", .assign), (">>=", .assign), ("&&", .and), ("||", .or),
   ("<<", .shift), (">>", .shift), ("==", .comparison), ("<=", .comparison), ("!=", .comparison),
   (">=", .comparison), ("+", .sum), ("-", .sum), ("*", .product), ("/", .product), ("%", .product),
   ("^", .bitXor), ("&", .bitAnd), ("|", .bitOr), ("<", .comparison), (">", .comparison)]

def binaryOp? (s : Trees) : Option (String × Precedence) := binaryOps.find? fun o => isOp o.1 s

def isAssign (s : Trees) : Bool := isOp "=" s && !isOp "=>" s

def nextPrecedence (s : Trees) : Precedence :=
  match binaryOp? s with
  | some (_, p) => p
  | none =>
    if isAssign s then .assign
    else if isOp ".." s then .range
    else if isWord "as" s then .cast
    else .jump

def precedenceOfOp (o : Tree) : Option Precedence :=
  match o with
  | .leaf (.punct t _) => (binaryOps.find? fun b => b.1 == t).map (·.2)
  | _ => none

def isRange : Tree → Bool
  | .node (.expr .range) _ => true
  | _ => false

def isComparison : Tree → Bool
  | .node (.expr .binary) [_, _, o, _] => precedenceOfOp o == some .comparison
  | _ => false

def withAttrs (attrs : Tree) : Tree → Tree
  | .node k (.node .attrs own :: parts) => .node k (.node .attrs (attrs.parts ++ own) :: parts)
  | t => t

/-- Where the upper limit of a range is left out. -/
def endsOpenRange (structs : Bool) (s : Trees) : Bool :=
  s.isEmpty || isOp "," s || isOp ";" s || isOp "." s && !isOp ".." s || isOp "?" s || isOp "=>" s ||
    !structs && isGroup .brace s || isOp "=" s || isOp "+" s || isOp "/" s || isOp "%" s || isOp "^" s ||
    isOp ">" s || isOp "<=" s || isOp "!=" s || isOp "-=" s || isOp "*=" s || isOp "&=" s || isOp "|=" s ||
    isOp "<<=" s || isWord "as" s

mutual
/-- Extends `lhs` by operators of precedence `base` and above. -/
def climb (g : Rules) (structs : Bool) : (fuel : Nat) → (lhs : Tree) → (base : Precedence) → Parser Tree
  | 0, lhs, _ => pure lhs
  | fuel + 1, lhs, base => do
    if isRange lhs then pure lhs
    else
      let s ← get
      match binaryOp? s with
      | some (text, p) =>
        if p.rank < base.rank then pure lhs
        else if p = .comparison && isComparison lhs then failure
        else
          let o ← eatOp text
          let right ← rhs g structs fuel p
          climb g structs fuel (.node (.expr .binary) [emptyAttrs, lhs, o, right]) base
      | none =>
        if isAssign s && base.rank ≤ Precedence.assign.rank then
          let o ← eatOp "="
          let right ← rhs g structs fuel .assign
          climb g structs fuel (.node (.expr .assign) [emptyAttrs, lhs, o, right]) base
        else if isOp ".." s && base.rank ≤ Precedence.range.rank then
          let mark ← rangeMark
          let upper ← upperLimit g structs fuel mark
          climb g structs fuel (.node (.expr .range) [emptyAttrs, lhs, mark, upper]) base
        else if isWord "as" s then
          let word ← eatAnyWord
          let ty ← g.type false
          if ← peek fun s => isOp "?" s || isOp "." s && !isOp ".." s || isGroup .bracket s || isGroup .paren s then failure
          else climb g structs fuel (.node (.expr .cast) [emptyAttrs, lhs, word, ty]) base
        else pure lhs

/-- The right operand of an operator of precedence `p`. -/
def rhs (g : Rules) (structs : Bool) : (fuel : Nat) → (p : Precedence) → Parser Tree
  | 0, _ => failure
  | fuel + 1, p => do
    let first ← g.operand structs
    tighter g structs fuel first p

/-- Extends an operand by the operators that bind tighter than `p`. -/
def tighter (g : Rules) (structs : Bool) : (fuel : Nat) → (first : Tree) → (p : Precedence) → Parser Tree
  | 0, first, _ => pure first
  | fuel + 1, first, p => do
    let next := nextPrecedence (← get)
    if p.rank < next.rank || next = p && p = .assign then
      let before := (← get).length
      let extended ← climb g structs fuel first next
      if before = (← get).length then pure extended else tighter g structs fuel extended p
    else pure first

/-- The upper limit of a range; only a half-open one may lack it. -/
def upperLimit (g : Rules) (structs : Bool) : (fuel : Nat) → (mark : Tree) → Parser Tree
  | 0, _ => failure
  | fuel + 1, mark => do
    if mark.isOp ".." && endsOpenRange structs (← get) then pure absent
    else rhs g structs fuel .range
end

def climbFuel (s : Trees) : Nat := 4 * s.length + 4

def operators (g : Rules) (structs : Bool) (lhs : Tree) (base : Precedence) : Parser Tree := fun s =>
  climb g structs (climbFuel s) lhs base s

def isTrailingDot (s : Trees) : Bool := isOp "." s && !isOp ".." s

/-- The parts between the points of a number such as `0.1`. -/
def indexParts (text : String) : List String :=
  ((text.toList.splitOn '.').filter (· ≠ [])).map String.ofList

/-- Fields by number; each but the first brings its own point. -/
def indexFields (base dot : Tree) : List String → Tree
  | [] => base
  | i :: is => indexFields (.node (.expr .field) [emptyAttrs, base, dot, lit i]) (op ".") is

def isFloatText (text : String) : Bool := text.toList.head?.any Char.isDigit && text.toList.any (· == '.')

def isMethodArgs (s : Trees) : Bool := isGroup .paren s

def memberAfterDot (g : Rules) (base dot : Tree) : Parser Tree := do
  if ← peek (isWord "await") then pure (.node (.expr .await) [emptyAttrs, base, dot, ← eatAnyWord])
  else if ← peek isIndex then pure (.node (.expr .field) [emptyAttrs, base, dot, ← take fun _ => true])
  else
    let name ← eatIdent
    let turbofish ← Parser.optional (isOp "::") (angleArguments g)
    if turbofish.isPresent || (← peek isMethodArgs) then
      let args ← within .paren (commaSeparated (g.expr true))
      pure (.node (.expr .methodCall) [emptyAttrs, base, dot, name, turbofish, args])
    else pure (.node (.expr .field) [emptyAttrs, base, dot, name])

/-- A field, method call or `await`; a number with points is several fields, and one that ends in a point
brings the point of what follows. -/
def afterDot (g : Rules) (base dot : Tree) : Parser Tree := do
  match ← get with
  | .leaf (.literal text) :: rest =>
    if isFloatText text then
      set rest
      let fields := indexFields base dot (indexParts text)
      if text.toList.getLast? == some '.' then memberAfterDot g fields (op ".") else pure fields
    else memberAfterDot g base dot
  | _ => memberAfterDot g base dot

/-- Calls, fields, indexing and `?` after an expression. -/
def postfixes (g : Rules) : (fuel : Nat) → Tree → Parser Tree
  | 0, e => pure e
  | fuel + 1, e => do
    if ← peek (isGroup .paren) then
      let args ← within .paren (commaSeparated (g.expr true))
      postfixes g fuel (.node (.expr .call) [emptyAttrs, e, args])
    else if !isRange e && (← peek isTrailingDot) then
      let dot ← eatOp "."
      let e ← afterDot g e dot
      postfixes g fuel e
    else if ← peek (isGroup .bracket) then
      let idx ← within .bracket do pure [← g.expr true]
      postfixes g fuel (.node (.expr .index) [emptyAttrs, e, idx])
    else if !isRange e && (← peek (isOp "?")) then
      let mark ← eatOp "?"
      postfixes g fuel (.node (.expr .tried) [emptyAttrs, e, mark])
    else pure e

def trailers (g : Rules) (e : Tree) : Parser Tree := fun s => postfixes g (s.length + 1) e s

def parenExpr (g : Rules) : Parser Tree := do
  let group ← within .paren (commaSeparated (g.expr true))
  match group with
  | .group _ [_] => pure (.node (.expr .paren) [emptyAttrs, group])
  | _ => pure (.node (.expr .tuple) [emptyAttrs, group])

def bracketExpr (g : Rules) : Parser Tree := do
  let group ← within .bracket do
    if ← atEnd then pure []
    else
      let first ← g.expr true
      if ← peek (isOp ";") then pure [first, ← eatOp ";", ← g.expr true]
      else if ← atEnd then pure [first]
      else
        let comma ← eatOp ","
        pure (first :: comma :: (← commaSeparated (g.expr true)))
  match group with
  | .group _ [_, o, _] =>
    pure (.node (.expr (if o.isOp ";" then .repeated else .array)) [emptyAttrs, group])
  | _ => pure (.node (.expr .array) [emptyAttrs, group])

/-- A field of a struct literal, or the base that gives the others. -/
def fieldValue (g : Rules) : Parser Tree := do
  if ← peek (isOp "..") then
    let dots ← eatOp ".."
    pure (.node .fieldValue [emptyAttrs, dots, absent, ← if ← atEnd then pure absent else g.expr true])
  else
    let attrs ← outerAttributes g
    let member ← take fun t => isMember [t]
    if ← peek fun s => isOp ":" s && !isOp "::" s then
      pure (.node .fieldValue [attrs, member, ← eatOp ":", ← g.expr true])
    else if isIndex [member] then failure
    else pure (.node .fieldValue [attrs, member, absent, absent])

def isBase : Tree → Bool
  | .node .fieldValue (_ :: dots :: _) => dots.isOp ".."
  | _ => false

def structBody (g : Rules) : Parser Tree := within .brace do
  let fields ← commaSeparated (fieldValue g)
  if fields.dropLast.any isBase then failure else pure fields

/-- What a path begins: a macro call, a struct literal, or a plain path. -/
def pathExpr (g : Rules) (structs : Bool) : Parser Tree := do
  let p ← qualifiedPath g true
  if ← peek fun s => isOp "!" s && !isOp "!=" s && isPlainPath p then
    pure (.node (.expr .macroCall) [emptyAttrs, ← macroRest p])
  else if structs && (← peek (isGroup .brace)) then
    pure (.node (.expr .structLit) [emptyAttrs, p, ← structBody g])
  else pure (.node (.expr .path) [emptyAttrs, p])

/-- Whether the expression is a statement without a semicolon, and an arm without a comma. -/
def endsWithBlock : Tree → Bool
  | .node (.expr k) _ =>
    match k with
    | .ifElse | .matchOn | .block | .unsafeBlock | .whileLoop | .loop | .forLoop | .tryBlock | .constBlock =>
      true
    | _ => false
  | _ => false

def blockExpr (g : Rules) (label : Tree) : Parser Tree := do
  pure (.node (.expr .block) [emptyAttrs, label, ← g.block])

/-- The block of an `else` and of a closure with a result type. -/
def branchExpr (g : Rules) : Parser Tree := do
  pure (.node (.expr .block) [emptyAttrs, absent, ← plainBlock g])

def ifExpr (g : Rules) : (fuel : Nat) → Parser Tree
  | 0 => failure
  | fuel + 1 => do
    let word ← eatWord "if"
    let cond ← g.expr false
    let body ← plainBlock g
    let other ← Parser.optional (isWord "else") do
      let word ← eatAnyWord
      if ← peek (isWord "if") then pure (.node .elseBranch [word, ← ifExpr g fuel])
      else pure (.node .elseBranch [word, ← branchExpr g])
    pure (.node (.expr .ifElse) [emptyAttrs, word, cond, body, other])

def ifChain (g : Rules) : Parser Tree := fun s => ifExpr g (s.length + 1) s

def whileExpr (g : Rules) (label : Tree) : Parser Tree := do
  let word ← eatWord "while"
  let cond ← g.expr false
  pure (.node (.expr .whileLoop) [emptyAttrs, label, word, cond, ← g.block])

def forExpr (g : Rules) (label : Tree) : Parser Tree := do
  let word ← eatWord "for"
  let pat ← patterns g
  let inWord ← eatWord "in"
  let items ← g.expr false
  pure (.node (.expr .forLoop) [emptyAttrs, label, word, pat, inWord, items, ← g.block])

def loopExpr (g : Rules) (label : Tree) : Parser Tree := do
  let word ← eatWord "loop"
  pure (.node (.expr .loop) [emptyAttrs, label, word, ← g.block])

def arm (g : Rules) : Parser Tree := do
  let attrs ← outerAttributes g
  let pat ← patterns g
  let guarded ← Parser.optional (isWord "if") do
    let word ← eatAnyWord
    pure (.node .guard [word, ← g.expr true])
  let arrow ← eatOp "=>"
  let body ← g.statement
  let comma ←
    if endsWithBlock body then optOp ","
    else if ← atEnd then pure absent
    else eatOp ","
  pure (.node .arm [attrs, pat, guarded, arrow, body, comma])

def matchExpr (g : Rules) : Parser Tree := do
  let word ← eatWord "match"
  let scrutinee ← g.expr false
  let arms ← within .brace do
    let inner ← innerAttributes g
    pure (inner ++ (← many do pure [← arm g]))
  pure (.node (.expr .matchOn) [emptyAttrs, word, scrutinee, arms])

def wordBlock (kind : ExprKind) (block : Parser Tree) : Parser Tree := do
  let word ← eatAnyWord
  pure (.node (.expr kind) [emptyAttrs, word, ← block])

def beginsForLoop (s : Trees) : Bool :=
  isWord "for" s && !(ahead 1 (isOp "<") s && ahead 2 (either isLifetime (isOp ">")) s)

def isWordBlock (name : String) (s : Trees) : Bool := isWord name s && ahead 1 (isGroup .brace) s

def beginsBlockLike (s : Trees) : Bool :=
  isWord "if" s || isWord "while" s || beginsForLoop s || isWord "loop" s || isWord "match" s ||
    isWordBlock "try" s || isWord "unsafe" s || isWordBlock "const" s || isGroup .brace s

def blockLike (g : Rules) : Parser Tree := do
  if ← peek (isWord "if") then ifChain g
  else if ← peek (isWord "while") then whileExpr g absent
  else if ← peek (isWord "for") then forExpr g absent
  else if ← peek (isWord "loop") then loopExpr g absent
  else if ← peek (isWord "match") then matchExpr g
  else if ← peek (isWord "try") then wordBlock .tryBlock (plainBlock g)
  else if ← peek (isWord "unsafe") then wordBlock .unsafeBlock g.block
  else if ← peek (isWord "const") then wordBlock .constBlock g.block
  else blockExpr g absent

def labeled (g : Rules) : Parser Tree := do
  let name ← eatLifetime
  let label := Tree.node .label [name, ← eatOp ":"]
  if ← peek (isWord "while") then whileExpr g label
  else if ← peek (isWord "for") then forExpr g label
  else if ← peek (isWord "loop") then loopExpr g label
  else blockExpr g label

def closureInput (g : Rules) : Parser Tree := do
  let attrs ← outerAttributes g
  let pat ← g.pattern
  if ← peek (isOp ":") then
    let colon ← eatOp ":"
    pure (.node (.pat .typed) [attrs, pat, colon, ← g.type true])
  else pure (withAttrs attrs pat)

def closure (g : Rules) (structs : Bool) : Parser Tree := do
  let lifetimes ← optLifetimes g
  let constant ← optWord "const"
  let pinned ← optWord "static"
  let async ← optWord "async"
  let moved ← optWord "move"
  let left ← eatOp "|"
  let inputs ← commaSeparatedWhile (fun s => !isOp "|" s) (closureInput g)
  let right ← eatOp "|"
  let result ← output g true
  let body ← if result.isPresent then branchExpr g else g.expr structs
  pure (.node (.expr .closure)
    [emptyAttrs, lifetimes, constant, pinned, async, moved, left, .node .inputs inputs, right, result, body])

def beginsExpr (s : Trees) : Bool :=
  isAnyWord s || isAnyGroup s || isLit s ||
    isOp "!" s && !isOp "!=" s || isOp "-" s && !isOp "-=" s && !isOp "->" s ||
    isOp "*" s && !isOp "*=" s || isOp "|" s && !isOp "|=" s || isOp "&" s && !isOp "&=" s ||
    isOp ".." s || isOp "<" s && !isOp "<=" s && !isOp "<<=" s || isOp "::" s || isLifetime s || isOp "#" s

def beginsValue (structs : Bool) (s : Trees) : Bool :=
  beginsExpr s && (structs || !isGroup .brace s)

/-- Words that end an operand although they look like the start of one. -/
def isConnective (s : Trees) : Bool :=
  isWord "else" s || isWord "as" s || isWord "in" s || isWord "where" s

def breakExpr (g : Rules) (structs : Bool) : Parser Tree := do
  let word ← eatWord "break"
  let label ← Parser.optional isLifetime eatLifetime
  if label.isPresent && (← peek (isOp ":")) then failure
  let value ← Parser.optional (fun s => beginsValue structs s && !isConnective s) (g.expr structs)
  pure (.node (.expr .breakOut) [emptyAttrs, word, label, value])

def returnExpr (g : Rules) (kind : ExprKind) : Parser Tree := do
  let word ← eatAnyWord
  let value ← Parser.optional (fun s => beginsExpr s && !isConnective s) (g.expr true)
  pure (.node (.expr kind) [emptyAttrs, word, value])

/-- The expression that a pattern is tested against binds tighter than `&&`. -/
def letCondition (g : Rules) (structs : Bool) : Parser Tree := do
  let word ← eatWord "let"
  let pat ← patterns g
  let eq ← eatOp "="
  let first ← g.operand structs
  pure (.node (.expr .letCond) [emptyAttrs, word, pat, eq, ← operators g structs first .comparison])

def prefixRange (g : Rules) (structs : Bool) : Parser Tree := fun s =>
  (do
    let mark ← rangeMark
    let upper ← upperLimit g structs (climbFuel s) mark
    pure (.node (.expr .range) [emptyAttrs, absent, mark, upper]) : Parser Tree) s

def beginsAsyncBlock (s : Trees) : Bool :=
  isWord "async" s &&
    (ahead 1 (isGroup .brace) s || ahead 1 (isWord "move") s && ahead 2 (isGroup .brace) s)

def beginsClosure (s : Trees) : Bool :=
  isOp "|" s || isWord "move" s || isWord "for" s && !beginsForLoop s ||
    isWord "const" s && !ahead 1 (isGroup .brace) s || isWord "static" s ||
    isWord "async" s && (ahead 1 (isOp "|") s || ahead 1 (isWord "move") s)

def beginsPathExpr (s : Trees) : Bool :=
  isIdent s || isOp "::" s || isOp "<" s || isWord "self" s || isWord "Self" s || isWord "super" s ||
    isWord "crate" s || isWord "try" s && (ahead 1 (isOp "!") s || ahead 1 (isOp "::") s)

def atom (g : Rules) (structs : Bool) : Parser Tree := do
  if ← peek isLit then pure (.node (.expr .lit) [emptyAttrs, ← eatLit])
  else if ← peek beginsAsyncBlock then
    let word ← eatAnyWord
    let moved ← optWord "move"
    pure (.node (.expr .asyncBlock) [emptyAttrs, word, moved, ← plainBlock g])
  else if ← peek (isWordBlock "try") then wordBlock .tryBlock (plainBlock g)
  else if ← peek beginsClosure then closure g structs
  else if ← peek beginsPathExpr then pathExpr g structs
  else if ← peek (isGroup .paren) then parenExpr g
  else if ← peek (isWord "break") then breakExpr g structs
  else if ← peek (isWord "continue") then
    let word ← eatAnyWord
    pure (.node (.expr .continueLoop) [emptyAttrs, word, ← Parser.optional isLifetime eatLifetime])
  else if ← peek (isWord "return") then returnExpr g .returnEarly
  else if ← peek (isGroup .bracket) then bracketExpr g
  else if ← peek (isWord "let") then letCondition g structs
  else if ← peek (isWord "yield") then returnExpr g .yielded
  else if ← peek beginsBlockLike then blockLike g
  else if ← peek (isOp "..") then prefixRange g structs
  else if ← peek (isWord "_") then pure (.node (.expr .infer) [emptyAttrs, ← eatAnyWord])
  else if ← peek isLifetime then labeled g
  else failure

def beginsRawAddr (s : Trees) : Bool :=
  isWord "raw" s && (ahead 1 (isWord "mut") s || ahead 1 (isWord "const") s)

def operand (g : Rules) (structs : Bool) : Parser Tree := do
  let attrs ← outerAttributes g
  if ← peek (isOp "&") then
    let amp ← eatOp "&"
    if ← peek beginsRawAddr then
      let word ← eatAnyWord
      let mutable ← eatAnyWord
      pure (.node (.expr .rawAddr) [attrs, amp, word, mutable, ← g.operand structs])
    else
      let mutable ← optWord "mut"
      pure (.node (.expr .reference) [attrs, amp, mutable, ← g.operand structs])
  else if ← peek fun s => isOp "*" s || isOp "!" s || isOp "-" s then
    let o ← if ← peek (isOp "*") then eatOp "*" else if ← peek (isOp "!") then eatOp "!" else eatOp "-"
    pure (.node (.expr .unary) [attrs, o, ← g.operand structs])
  else
    let e ← atom g structs
    let e ← trailers g e
    pure (withAttrs attrs e)

def expr (g : Rules) (structs : Bool) : Parser Tree := do
  let first ← operand g structs
  operators g structs first .jump

/-- An expression in the place of a statement or of an arm: one that ends with a block ends there, unless a
point or `?` follows. -/
def statementExpr (g : Rules) : Parser Tree := do
  let attrs ← outerAttributes g
  if ← peek beginsBlockLike then
    let e ← blockLike g
    if ← peek fun s => isTrailingDot s || isOp "?" s then
      let e ← trailers g e
      operators g true (withAttrs attrs e) .jump
    else pure (withAttrs attrs e)
  else
    let e ← operand g true
    operators g true (withAttrs attrs e) .jump

end Retype.Code.Grammar
