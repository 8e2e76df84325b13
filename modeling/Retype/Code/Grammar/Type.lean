import Retype.Code.Grammar.Path

/-! Types and the bounds on them. -/

namespace Retype.Code.Grammar
open Code.Parser

def types (g : Rules) : Parser Trees := commaSeparated (g.type true)

def output (g : Rules) (sums : Bool) : Parser Tree :=
  Parser.optional (isOp "->") do
    let arrow ← eatOp "->"
    pure (.node .output [arrow, ← g.type sums])

/-- `(A, B) -> C` after a path such as `Fn`. -/
def parenArguments (g : Rules) : Parser Tree := do
  let _ ← optOp "::"
  let args ← within .paren (types g)
  pure (.node .parenArgs [args, ← output g false])

def setLastArguments (args : Tree) : Trees → Trees
  | [] => []
  | [.node .segment [name, _]] => [.node .segment [name, args]]
  | t :: ts => t :: setLastArguments args ts

def takesParens (path : Tree) (s : Trees) : Bool :=
  (path.parts.getLast?.all fun t => !hasArguments t) &&
    (isGroup .paren s || isOp "::" s && ahead 2 (isGroup .paren) s)

/-- Adds parenthesised arguments to the path of a bound if they follow. -/
def withParens (g : Rules) (path : Tree) : Parser Tree := do
  if ← peek (takesParens path) then
    let args ← parenArguments g
    match path with
    | .node k ts =>
      let more ← moreSegments g false
      pure (.node k (setLastArguments args ts ++ more))
    | t => pure t
  else pure path

def lifetimeBounds : Parser Tree := do
  if ← peek isLifetime then pure (.node .bounds (← joined "+" isLifetime eatLifetime)) else pure (.node .bounds [])

def lifetimeParam (g : Rules) : Parser Tree := do
  let attrs ← outerAttributes g
  let name ← eatLifetime
  if ← peek fun s => isOp ":" s && !isOp "::" s then
    pure (.node .lifetimeParam [attrs, name, ← eatOp ":", ← lifetimeBounds])
  else pure (.node .lifetimeParam [attrs, name, absent, absent])

/-- `for<'a, 'b>` -/
def boundLifetimes (g : Rules) : Parser Tree := do
  let word ← eatWord "for"
  let opening ← eatOp "<"
  let params ← commaSeparatedWhile (fun s => !isOp ">" s) (lifetimeParam g)
  pure (.node .boundLifetimes (word :: opening :: params ++ [← eatOp ">"]))

def optLifetimes (g : Rules) : Parser Tree := Parser.optional (isWord "for") (boundLifetimes g)

/-- The bound of a trait, without the parentheses that may stand around it. -/
def traitBound (g : Rules) : Parser Tree := do
  let mark ← optOp "?"
  let lifetimes ← optLifetimes g
  let p ← path g false
  pure (.node .traitBound [mark, lifetimes, ← withParens g p])

def bound (g : Rules) : Parser Tree := do
  if ← peek isLifetime then eatLifetime
  else if ← peek (isGroup .paren) then
    pure (.node .traitBound [← within .paren do pure [← traitBound g]])
  else if ← peek fun s => isWord "use" s && ahead 1 (isOp "<") s then
    let word ← eatAnyWord
    let opening ← eatOp "<"
    let params ← commaSeparatedWhile (fun s => !isOp ">" s) (take fun t => isLifetime [t] || isAnyWord [t])
    pure (.node .traitBound (word :: opening :: params ++ [← eatOp ">"]))
  else traitBound g

def abi : Parser Tree := do
  let word ← eatWord "extern"
  if ← peek fun s => isLit s && !isWord "true" s && !isWord "false" s then pure (.node .abi [word, ← eatLit])
  else pure (.node .abi [word])

def optAbi : Parser Tree := Parser.optional (isWord "extern") abi

def bareFnArgument (g : Rules) : Parser Tree := do
  let attrs ← outerAttributes g
  if ← peek (isOp "...") then pure (.node .variadic [attrs, absent, absent, ← eatOp "..."])
  else if ← peek fun s => (isIdent s || isWord "_" s || isWord "self" s) && ahead 1 (isOp ":") s &&
      !ahead 1 (isOp "::") s then
    let name ← eatAnyWord
    pure (.node .param [attrs, name, ← eatOp ":", ← g.type true])
  else pure (.node .param [attrs, absent, absent, ← g.type true])

def bareFn (g : Rules) (lifetimes : Tree) : Parser Tree := do
  let guarded ← optWord "unsafe"
  let foreign ← optAbi
  let word ← eatWord "fn"
  let args ← within .paren (commaSeparated (bareFnArgument g))
  pure (.node (.type .bareFn) [lifetimes, guarded, foreign, word, args, ← output g false])

def traitSum (g : Rules) (lifetimes : Tree) (first : Trees) (sums : Bool) : Parser Tree := do
  let rest ← if sums then manyWhile (isOp "+") do
      let plus ← eatOp "+"
      if ← peek canBeginBound then pure [plus, ← g.bound] else pure [plus]
    else pure []
  pure (.node (.type .traitObject) [absent, .node .bounds (lifetimes :: first ++ rest)])

/-- A path as a type.  It takes no parenthesised arguments: `Fn(A) -> B` is a bound, and no type of its own. -/
def pathType (g : Rules) (lifetimes : Tree) (sums : Bool) : Parser Tree := do
  let p ← qualifiedPath g false
  match p with
  | .node .qualified _ => pure (.node (.type .path) [p])
  | _ =>
    if ← peek fun s => isOp "!" s && !isOp "!=" s && isPlainPath p then
      pure (.node (.type .macroCall) [← macroRest p])
    else if lifetimes.isPresent || sums && (← peek (isOp "+")) then
      traitSum g lifetimes [.node .traitBound [absent, absent, p]] sums
    else pure (.node (.type .path) [p])

/-- The bounds after `dyn` or `impl`. -/
def traitBounds (g : Rules) (sums : Bool) : Parser Tree := do
  if sums then bounds g else pure (.node .bounds [← g.bound])

def parenType (g : Rules) (sums : Bool) : Parser Tree := do
  let group ← within .paren do
    if ← atEnd then pure []
    else if ← peek (either isLifetime (isOp "?")) then pure [← traitSum g absent [← g.bound] true]
    else do
      let first ← g.type true
      if ← atEnd then pure [first]
      else do
        let comma ← eatOp ","
        pure (first :: comma :: (← types g))
  match group with
  | .group _ [first] =>
    if sums && (← peek (isOp "+")) then
      match first with
      | .node (.type .path) [p@(.node .path _)] =>
        traitSum g absent [.node .traitBound [.group .paren [.node .traitBound [absent, absent, p]]]] true
      | .node (.type .traitObject) _ => traitSum g absent [.node .traitBound [group]] true
      | _ => pure (.node (.type .paren) [group])
    else pure (.node (.type .paren) [group])
  | _ => pure (.node (.type .tuple) [group])

def bracketType (g : Rules) : Parser Tree := do
  let group ← within .bracket do
    let elem ← g.type true
    if ← atEnd then pure [elem] else pure [elem, ← eatOp ";", ← g.expr true]
  match group with
  | .group _ [_] => pure (.node (.type .slice) [group])
  | _ => pure (.node (.type .array) [group])

def beginsPath (s : Trees) : Bool :=
  isIdent s || isWord "super" s || isWord "self" s || isWord "Self" s || isWord "crate" s ||
    isOp "::" s || isOp "<" s

/-- A type; `sums` admits bounds joined by `+` without `dyn`. -/
def type (g : Rules) (sums : Bool) : Parser Tree := do
  let lifetimes ← optLifetimes g
  if ← peek fun s => isWord "fn" s || isWord "unsafe" s || isWord "extern" s then bareFn g lifetimes
  else if ← peek fun s => isWord "dyn" s then
    let word ← eatAnyWord
    pure (.node (.type .traitObject) [word, ← traitBounds g sums])
  else if ← peek beginsPath then pathType g lifetimes sums
  else if lifetimes.isPresent then failure
  else if ← peek (isGroup .paren) then parenType g sums
  else if ← peek (isGroup .bracket) then bracketType g
  else if ← peek (isOp "*") then
    let star ← eatOp "*"
    let word ← if ← peek (isWord "const") then eatAnyWord else eatWord "mut"
    pure (.node (.type .ptr) [star, word, ← g.type false])
  else if ← peek (isOp "&") then
    let amp ← eatOp "&"
    let lifetime ← Parser.optional isLifetime eatLifetime
    let mutable ← optWord "mut"
    pure (.node (.type .reference) [amp, lifetime, mutable, ← g.type false])
  else if ← peek fun s => isOp "!" s && !isOp "!=" s then pure (.node (.type .never) [← eatOp "!"])
  else if ← peek (isWord "impl") then
    let word ← eatAnyWord
    pure (.node (.type .implTrait) [word, ← traitBounds g sums])
  else if ← peek (isWord "_") then pure (.node (.type .infer) [← eatAnyWord])
  else if ← peek isLifetime then
    pure (.node (.type .traitObject) [absent, ← traitBounds g sums])
  else failure

end Retype.Code.Grammar
