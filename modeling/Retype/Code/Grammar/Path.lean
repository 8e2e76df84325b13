import Retype.Code.Parser

/-! Paths, attributes and macro calls.  A path is a node whose parts are its segments and the `::` between
them, with a `::` in front if it starts at the root.  A qualified path also holds `<`, the type, perhaps `as`
and the path of a trait, and `>`. -/

namespace Retype.Code.Grammar
open Code.Parser

def absent : Tree := Tree.absent

/-- A member of a list together with the comma after it. -/
abbrev Member := Tree × Bool

def withCommas : Trees → List Member
  | [] => []
  | t :: ts =>
    if t.isOp "," then withCommas ts
    else (t, ts.head?.any (·.isOp ",")) :: withCommas ts

def isLifetimeMember : Tree → Bool
  | .leaf (.lifetime _) => true
  | .node .lifetimeParam _ => true
  | _ => false

def writeMembers (pending : Bool) : List Member → Trees
  | [] => []
  | (t, comma) :: ms =>
    (if pending then [op ","] else []) ++ t :: (if comma then [op ","] else []) ++ writeMembers (!comma) ms

/-- Lifetimes come before types and constants whatever the order they were written in. -/
def lifetimesFirst (ts : Trees) : Trees :=
  let ms := withCommas ts
  writeMembers false (ms.filter (isLifetimeMember ·.1) ++ ms.filter (!isLifetimeMember ·.1))

def constArgument (g : Rules) : Parser Tree := do
  if ← peek isLit then pure (.node (.expr .lit) [.node .attrs [], ← eatLit])
  else pure (.node (.expr .block) [.node .attrs [], absent, ← g.block])

/-- The name and arguments of a type that is a lone segment without parenthesised arguments. -/
def loneSegment? : Tree → Option (Tree × Tree)
  | .node (.type .path) [.node .path [.node .segment [name, args]]] =>
    match args with
    | .node .parenArgs _ => none
    | _ => some (name, args)
  | _ => none

def canBeginBound : Trees → Bool := fun s =>
  isAnyWord s || isOp "::" s || isOp "?" s || isLifetime s || isGroup .paren s || isOp "~" s

def bounds (g : Rules) : Parser Tree := do
  pure (.node .bounds (← joined "+" canBeginBound g.bound))

def genericArgument (g : Rules) : Parser Tree := do
  if ← peek fun s => isLifetime s && !ahead 1 (isOp "+") s then eatLifetime
  else if ← peek (either isLit (isGroup .brace)) then constArgument g
  else do
    let t ← g.type true
    match loneSegment? t with
    | none => pure t
    | some (name, args) =>
      if ← peek fun s => isOp "=" s then
        let eq ← eatOp "="
        if ← peek (either isLit (isGroup .brace)) then
          pure (.node .assocConst [name, args, eq, ← constArgument g])
        else pure (.node .assocType [name, args, eq, ← g.type true])
      else if ← peek fun s => isOp ":" s && !isOp "::" s then
        pure (.node .constraint [name, args, ← eatOp ":", ← bounds g])
      else pure t

/-- `<…>`, with the `::` before it if there is one. -/
def angleArguments (g : Rules) : Parser Tree := do
  let colons ← optOp "::"
  let opening ← eatOp "<"
  let args ← commaSeparatedWhile (fun s => !isOp ">" s) (genericArgument g)
  let closing ← eatOp ">"
  pure (.node .angleArgs (colons :: opening :: lifetimesFirst args ++ [closing]))

def isOuterWord (s : Trees) : Bool :=
  isWord "super" s || isWord "self" s || isWord "crate" s || isWord "try" s

/-- A segment; in an expression its arguments need `::`. -/
def segment (g : Rules) (inExpr : Bool) : Parser Tree := do
  if ← peek isOuterWord then pure (.node .segment [← eatAnyWord, absent])
  else do
    let name ← if ← peek (isWord "Self") then eatAnyWord else eatIdent
    let args ← Parser.optional
      (fun s => !inExpr && isOp "<" s && !isOp "<=" s || isOp "::" s && ahead 2 (isOp "<") s)
      (angleArguments g)
    pure (.node .segment [name, args])

/-- A `::` that continues the path. -/
def continues (s : Trees) : Bool := isOp "::" s && !ahead 2 (isGroup .paren) s

def moreSegments (g : Rules) (inExpr : Bool) : Parser Trees := manyWhile continues do
  let colons ← eatOp "::"
  pure [colons, ← segment g inExpr]

def rootMark : Parser Trees := do
  if ← peek (isOp "::") then pure [← eatOp "::"] else pure []

def path (g : Rules) (inExpr : Bool) : Parser Tree := do
  let root ← rootMark
  let first ← segment g inExpr
  let rest ← moreSegments g inExpr
  pure (.node .path (root ++ first :: rest))

def plainSegment : Parser Tree := do
  let name ← if ← peek (either isOuterWord (isWord "Self")) then eatAnyWord else eatIdent
  pure (.node .segment [name, absent])

def plainPath : Parser Tree := do
  let root ← rootMark
  let first ← plainSegment
  let rest ← manyWhile (isOp "::") do
    let colons ← eatOp "::"
    pure [colons, ← plainSegment]
  pure (.node .path (root ++ first :: rest))

def qualifiedPath (g : Rules) (inExpr : Bool) : Parser Tree := do
  if ← peek (isOp "<") then
    let opening ← eatOp "<"
    let ty ← g.type true
    let via ← if ← peek (isWord "as") then do
        let word ← eatWord "as"
        pure (word :: (← path g false).parts)
      else pure []
    let closing ← eatOp ">"
    let colons ← eatOp "::"
    let first ← segment g inExpr
    let rest ← manyWhile (isOp "::") do
      let colons ← eatOp "::"
      pure [colons, ← segment g inExpr]
    pure (.node .qualified ([opening, ty] ++ via ++ [closing, colons, first] ++ rest))
  else path g inExpr

def hasArguments : Tree → Bool
  | .node .segment [_, args] => args.isPresent
  | _ => false

def isPlainPath : Tree → Bool
  | .node .path ts => ts.all fun t => !hasArguments t
  | _ => false

def macroGroup : Parser Tree := take fun t => isAnyGroup [t]

/-- `!` and the body, after the path of the macro. -/
def macroRest (name : Tree) : Parser Tree := do
  let bang ← eatOp "!"
  pure (.node .macroBody [name, bang, ← macroGroup])

/-- What an attribute says: a path alone, with unparsed arguments, or with a value. -/
def attributeBody (g : Rules) : Parser Trees := do
  let p ← if ← peek (isWord "unsafe") then do
      pure (.node .path [.node .segment [← eatAnyWord, absent]])
    else plainPath
  if ← peek isAnyGroup then pure [.node .metaList [p, ← macroGroup]]
  else if ← peek fun s => isOp "=" s && !isOp "==" s then
    pure [.node .metaValue [p, ← eatOp "=", ← g.expr true]]
  else pure [.node .metaPath [p]]

def outerAttribute (g : Rules) : Parser Tree := do
  let hash ← eatOp "#"
  pure (.node .attr [hash, ← within .bracket (attributeBody g)])

def innerAttribute (g : Rules) : Parser Tree := do
  let hash ← eatOp "#"
  let bang ← eatOp "!"
  pure (.node .attr [hash, bang, ← within .bracket (attributeBody g)])

def outerAttributes (g : Rules) : Parser Tree := do
  pure (.node .attrs (← manyWhile (isOp "#") do pure [← outerAttribute g]))

def innerAttributes (g : Rules) : Parser Trees :=
  manyWhile (fun s => isOp "#" s && ahead 1 (isOp "!") s && !ahead 1 (isOp "!=") s) do
    pure [← innerAttribute g]

def hasInnerAttribute : Trees → Bool
  | .group .brace body :: _ => isOp "#" body && ahead 1 (isOp "!") body
  | _ => false

/-- A block that is part of a construct and admits no attributes inside. -/
def plainBlock (g : Rules) : Parser Tree := do
  if ← peek hasInnerAttribute then failure else g.block

end Retype.Code.Grammar
