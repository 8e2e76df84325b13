import Retype.Code.Grammar.Type

/-! Patterns. -/

namespace Retype.Code.Grammar
open Code.Parser

def emptyAttrs : Tree := .node .attrs []

def beginsAlternative (s : Trees) : Bool := isOp "|" s && !isOp "||" s && !isOp "|=" s

/-- Alternatives joined by `|`, with perhaps one in front. -/
def patterns (g : Rules) : Parser Tree := do
  let leading ← optOp "|"
  let first ← g.pattern
  let rest ← manyWhile beginsAlternative do
    let bar ← eatOp "|"
    pure [bar, ← g.pattern]
  if leading.isAbsent && rest.isEmpty then pure first
  else pure (.node (.pat .orElse) (leading :: first :: rest))

def patternList (g : Rules) : Parser Trees := commaSeparated (patterns g)

def isRest : Tree → Bool
  | .node (.pat .rest) _ => true
  | _ => false

def parenPattern (g : Rules) : Parser Tree := do
  let group ← within .paren (patternList g)
  match group with
  | .group _ [p] => pure (.node (.pat (if isRest p then .tuple else .paren)) [emptyAttrs, group])
  | _ => pure (.node (.pat .tuple) [emptyAttrs, group])

def isMember (s : Trees) : Bool := isIdent s || isIndex s

def fieldPattern (g : Rules) : Parser Tree := do
  let attrs ← outerAttributes g
  if ← peek (isOp "..") then pure (.node (.pat .rest) [attrs, ← eatOp ".."])
  else if ← peek fun s => isMember s && ahead 1 (isOp ":") s then
    let member ← take fun _ => true
    pure (.node .fieldPat [attrs, member, ← eatOp ":", ← patterns g])
  else do
    let boxed ← optWord "box"
    let byRef ← optWord "ref"
    let mutable ← optWord "mut"
    pure (.node .fieldPat [attrs, absent, absent, .node (.pat .ident) [emptyAttrs, boxed, byRef, mutable, ← eatIdent, absent, absent]])

/-- Nothing may follow the `..` for the other fields, not even a comma. -/
def fieldPatterns (g : Rules) : Parser Trees := do
  let fields ← commaSeparated (fieldPattern g)
  if fields.dropLast.any isRest then failure else pure fields

def rangeMark : Parser Tree := do
  if ← peek (isOp "..=") then eatOp "..="
  else if ← peek (isOp "...") then failure
  else eatOp ".."

/-- The limits of a range between two patterns; three points stand for `..=`. -/
def innerRangeMark : Parser Tree := do
  if ← peek (isOp "...") then
    let _ ← eatOp "..."
    pure (op "..=")
  else rangeMark

/-- A literal, path or constant block as a bound of a range pattern. -/
def rangeBound (g : Rules) : Parser Tree := do
  if ← peek isLit then pure (.node (.expr .lit) [emptyAttrs, ← eatLit])
  else if ← peek (isWord "const") then
    let word ← eatAnyWord
    pure (.node (.expr .constBlock) [emptyAttrs, word, ← g.block])
  else pure (.node (.expr .path) [emptyAttrs, ← qualifiedPath g true])

def endsRange (s : Trees) : Bool :=
  s.isEmpty || isOp "|" s || isOp "=" s || isOp ":" s && !isOp "::" s || isOp "," s || isOp ";" s || isWord "if" s

def rangePattern (g : Rules) (lower : Tree) : Parser Tree := do
  let mark ← innerRangeMark
  let upper ←
    if ← peek endsRange then (if mark.isOp ".." then pure absent else failure) else rangeBound g
  pure (.node (.pat .range) [emptyAttrs, lower, mark, upper])

def pathPattern (g : Rules) : Parser Tree := do
  let p ← qualifiedPath g true
  if ← peek fun s => isOp "!" s && !isOp "!=" s && isPlainPath p then
    pure (.node (.pat .macroCall) [emptyAttrs, ← macroRest p])
  else if ← peek (isGroup .brace) then
    pure (.node (.pat .structPat) [emptyAttrs, p, ← within .brace (fieldPatterns g)])
  else if ← peek (isGroup .paren) then
    pure (.node (.pat .tupleStruct) [emptyAttrs, p, ← within .paren (patternList g)])
  else if ← peek (isOp "..") then rangePattern g (.node (.expr .path) [emptyAttrs, p])
  else pure (.node (.pat .path) [emptyAttrs, p])

def identPattern (g : Rules) : Parser Tree := do
  let byRef ← optWord "ref"
  let mutable ← optWord "mut"
  let name ← if ← peek (isWord "self") then eatAnyWord else eatIdent
  if ← peek (isOp "@") then
    pure (.node (.pat .ident) [emptyAttrs, absent, byRef, mutable, name, ← eatOp "@", ← g.pattern])
  else pure (.node (.pat .ident) [emptyAttrs, absent, byRef, mutable, name, absent, absent])

def beginsPathPattern (s : Trees) : Bool :=
  isIdent s && ahead 1 (fun r => isOp "::" r || isOp "!" r || isGroup .brace r || isGroup .paren r || isOp ".." r) s ||
    isWord "self" s && ahead 1 (isOp "::") s || isOp "::" s || isOp "<" s ||
    isWord "Self" s || isWord "super" s || isWord "crate" s

def pattern (g : Rules) : Parser Tree := do
  if ← peek beginsPathPattern then pathPattern g
  else if ← peek (isWord "_") then pure (.node (.pat .wild) [emptyAttrs, ← eatAnyWord])
  else if ← peek (isWord "box") then
    let word ← eatAnyWord
    pure (.node (.pat .boxed) [emptyAttrs, word, ← g.pattern])
  else if ← peek fun s => isLit s || isWord "const" s then
    let lower ← rangeBound g
    if ← peek (isOp "..") then rangePattern g lower
    else match lower with
      | .node (.expr .constBlock) parts => pure (.node (.pat .constBlock) parts)
      | .node _ parts => pure (.node (.pat .lit) parts)
      | t => pure t
  else if ← peek fun s => isWord "ref" s || isWord "mut" s || isWord "self" s || isIdent s then identPattern g
  else if ← peek (isOp "&") then
    let amp ← eatOp "&"
    let mutable ← optWord "mut"
    pure (.node (.pat .reference) [emptyAttrs, amp, mutable, ← g.pattern])
  else if ← peek (isGroup .paren) then parenPattern g
  else if ← peek (isGroup .bracket) then
    pure (.node (.pat .slice) [emptyAttrs, ← within .bracket (patternList g)])
  else if ← peek (isOp "..") then
    let mark ← rangeMark
    if ← peek endsRange then
      if mark.isOp ".." then pure (.node (.pat .rest) [emptyAttrs, mark]) else failure
    else pure (.node (.pat .range) [emptyAttrs, absent, mark, ← rangeBound g])
  else failure

def typedPattern (g : Rules) (pat : Tree) : Parser Tree := do
  let colon ← eatOp ":"
  pure (.node (.pat .typed) [emptyAttrs, pat, colon, ← g.type true])

end Retype.Code.Grammar
