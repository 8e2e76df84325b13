import Retype.Code.Grammar.Expr

/-! Items, generic parameters and signatures.  What the grammar admits and the tree has no form for, such as a
function without a body, is kept as it stands. -/

namespace Retype.Code.Grammar
open Code.Parser

def isScope (s : Trees) : Bool :=
  match s with
  | .group .paren [.leaf (.ident n)] :: _ => n == "crate" || n == "self" || n == "super"
  | .group .paren (.leaf (.ident "in") :: _) :: _ => true
  | _ => false

def visibility : Parser Tree :=
  Parser.optional (isWord "pub") do
    let word ← eatAnyWord
    if ← peek isScope then
      let scope ← within .paren do
        if ← peek (isWord "in") then
          let word ← eatAnyWord
          pure [word, ← plainPath]
        else pure [.node .path [.node .segment [← eatAnyWord, absent]]]
      pure (.node .visibility [word, scope])
    else pure (.node .visibility [word])

def endsBounds (s : Trees) : Bool :=
  s.isEmpty || isOp "," s || isOp ">" s || isOp "=" s || isOp ";" s || isGroup .brace s ||
    isOp ":" s && !isOp "::" s

def beginsBound (s : Trees) : Bool := !endsBounds s && !isWord "where" s

/-- Bounds, which may be none; a `+` may stand last. -/
def boundList (g : Rules) : Parser Tree := do
  if ← peek beginsBound then pure (.node .bounds (← joined "+" beginsBound g.bound)) else pure (.node .bounds [])

def optBounds (g : Rules) : Parser Trees := do
  if ← peek fun s => isOp ":" s && !isOp "::" s then pure [← eatOp ":", ← boundList g]
  else pure [absent, absent]

def genericParam (g : Rules) : Parser Tree := do
  let attrs ← outerAttributes g
  if ← peek isLifetime then
    match ← lifetimeParam g with
    | .node k (_ :: parts) => pure (.node k (attrs :: parts))
    | t => pure t
  else if ← peek (isWord "const") then
    let word ← eatAnyWord
    let name ← eatIdent
    let colon ← eatOp ":"
    let ty ← g.type true
    let value ← if ← peek (isOp "=") then do
        let eq ← eatOp "="
        if ← peek isIdent then pure [eq, .node (.expr .path) [emptyAttrs, ← path g true]]
        else pure [eq, ← constArgument g]
      else pure [absent, absent]
    pure (.node .constParam ([attrs, word, name, colon, ty] ++ value))
  else
    let name ← eatIdent
    let bs ← optBounds g
    let value ← if ← peek (isOp "=") then do pure [← eatOp "=", ← g.type true] else pure [absent, absent]
    pure (.node .typeParam ([attrs, name] ++ bs ++ value))

/-- Generic parameters; an empty list of them is not there. -/
def generics (g : Rules) : Parser Tree :=
  Parser.optional (isOp "<") do
    let opening ← eatOp "<"
    let params ← commaSeparatedWhile (fun s => !isOp ">" s) (genericParam g)
    let closing ← eatOp ">"
    if params.isEmpty then pure absent
    else pure (.node .generics (opening :: lifetimesFirst params ++ [closing]))

def endsWhere (s : Trees) : Bool :=
  s.isEmpty || isGroup .brace s || isOp "," s || isOp ";" s || isOp ":" s && !isOp "::" s || isOp "=" s

def predicate (g : Rules) : Parser Tree := do
  if ← peek fun s => isLifetime s && ahead 1 (isOp ":") s then
    let name ← eatLifetime
    pure (.node .lifetimeBound [name, ← eatOp ":", ← lifetimeBounds])
  else
    let lifetimes ← optLifetimes g
    let ty ← g.type true
    pure (.node .typeBound [lifetimes, ty, ← eatOp ":", ← boundList g])

/-- A `where` clause; one without predicates is not there. -/
def whereClause (g : Rules) : Parser Tree :=
  Parser.optional (isWord "where") do
    let word ← eatAnyWord
    let preds ← manyWhile (fun s => !endsWhere s) do
      let p ← predicate g
      if ← peek (isOp ",") then pure [p, ← eatOp ","] else pure [p]
    if preds.isEmpty then pure absent else pure (.node .whereClause (word :: preds))

/-- `self` as a parameter. -/
def receiver (g : Rules) (attrs : Tree) : Parser Tree := do
  let amp ← optOp "&"
  let lifetime ← if amp.isPresent then Parser.optional isLifetime eatLifetime else pure absent
  let mutable ← optWord "mut"
  let self ← eatWord "self"
  if amp.isAbsent && (← peek fun s => isOp ":" s && !isOp "::" s) then
    pure (.node .receiver [attrs, amp, lifetime, mutable, self, ← eatOp ":", ← g.type true])
  else if ← peek fun s => isOp ":" s then failure
  else pure (.node .receiver [attrs, amp, lifetime, mutable, self, absent, absent])

def parameter (g : Rules) : Parser Tree := do
  let attrs ← outerAttributes g
  if ← peek (isOp "...") then pure (.node .variadic [attrs, absent, absent, ← eatOp "..."])
  else
    receiver g attrs <|> (do
      let pat ← g.pattern
      let colon ← eatOp ":"
      if ← peek (isOp "...") then pure (.node .variadic [attrs, pat, colon, ← eatOp "..."])
      else pure (.node .param [attrs, pat, colon, ← g.type true]))

def isReceiver : Tree → Bool
  | .node .receiver _ => true
  | _ => false

/-- Only the first parameter may be `self`. -/
def parameters (g : Rules) : Parser Trees := do
  let ps ← commaSeparated (parameter g)
  if (Trees.members ps).tail.any isReceiver then failure else pure ps

def signature (g : Rules) : Parser Tree := do
  let constant ← optWord "const"
  let async ← optWord "async"
  let guarded ← optWord "unsafe"
  let foreign ← optAbi
  let word ← eatWord "fn"
  let name ← eatIdent
  let params ← generics g
  let inputs ← within .paren (parameters g)
  let result ← output g true
  let preds ← whereClause g
  pure (.node .signature [constant, async, guarded, foreign, word, name, params, inputs, result, preds])

/-- The words before `fn` in a signature, and `fn`. -/
def beginsSignature (s : Trees) : Bool :=
  let s := if isWord "const" s then s.drop 1 else s
  let s := if isWord "async" s then s.drop 1 else s
  let s := if isWord "unsafe" s then s.drop 1 else s
  let s := if isWord "extern" s then (if ahead 1 isLit s then s.drop 2 else s.drop 1) else s
  isWord "fn" s

def verbatim (kind : ItemKind) (p : Parser Tree) : Parser Tree := fun s =>
  (p.run s).map fun (_, rest) => (.node (.item kind) (s.take (s.length - rest.length)), rest)

def fnItem (g : Rules) (attrs vis : Tree) : Parser Tree := do
  let sig ← signature g
  pure (.node (.item .fn) [attrs, vis, sig, ← g.block])

def namedField (g : Rules) : Parser Tree := do
  let attrs ← outerAttributes g
  let vis ← visibility
  let name ← if ← peek (isWord "_") then eatAnyWord else eatIdent
  let colon ← eatOp ":"
  pure (.node .field [attrs, vis, name, colon, ← g.type true])

def tupleField (g : Rules) : Parser Tree := do
  let attrs ← outerAttributes g
  let vis ← visibility
  pure (.node .field [attrs, vis, absent, absent, ← g.type true])

def namedFields (g : Rules) : Parser Tree := within .brace (commaSeparated (namedField g))
def tupleFields (g : Rules) : Parser Tree := within .paren (commaSeparated (tupleField g))

def structItem (g : Rules) (attrs vis : Tree) : Parser Tree := do
  let word ← eatWord "struct"
  let name ← eatIdent
  let params ← generics g
  let before ← whereClause g
  if ← peek (isGroup .brace) then
    pure (.node (.item .struct) [attrs, vis, word, name, params, before, ← namedFields g, absent, absent])
  else if before.isAbsent && (← peek (isGroup .paren)) then
    let fields ← tupleFields g
    let after ← whereClause g
    pure (.node (.item .struct) [attrs, vis, word, name, params, before, fields, after, ← eatOp ";"])
  else pure (.node (.item .struct) [attrs, vis, word, name, params, before, absent, absent, ← eatOp ";"])

def variant (g : Rules) : Parser Tree := do
  let attrs ← outerAttributes g
  let _ ← visibility
  let name ← eatIdent
  let fields ←
    if ← peek (isGroup .brace) then namedFields g
    else if ← peek (isGroup .paren) then tupleFields g
    else pure absent
  let value ← Parser.optional (isOp "=") do
    let eq ← eatOp "="
    pure (.node .discriminant [eq, ← g.expr true])
  pure (.node .variant [attrs, name, fields, value])

def enumItem (g : Rules) (attrs vis : Tree) : Parser Tree := do
  let word ← eatWord "enum"
  let name ← eatIdent
  let params ← generics g
  let preds ← whereClause g
  let body ← within .brace (commaSeparated (variant g))
  pure (.node (.item .enum) [attrs, vis, word, name, params, preds, body])

def unionItem (g : Rules) (attrs vis : Tree) : Parser Tree := do
  let word ← eatWord "union"
  let name ← eatIdent
  let params ← generics g
  let preds ← whereClause g
  pure (.node (.item .union) [attrs, vis, word, name, params, preds, ← namedFields g])

def constItem (g : Rules) (attrs vis : Tree) : Parser Tree := do
  let word ← eatWord "const"
  let name ← if ← peek (isWord "_") then eatAnyWord else eatIdent
  let params ← generics g
  let colon ← eatOp ":"
  let ty ← g.type true
  let eq ← eatOp "="
  let value ← g.expr true
  pure (.node (.item .const) [attrs, vis, word, name, params, colon, ty, eq, value, ← eatOp ";"])

def staticItem (g : Rules) (attrs vis : Tree) : Parser Tree := do
  let word ← eatWord "static"
  let mutable ← optWord "mut"
  let name ← eatIdent
  let colon ← eatOp ":"
  let ty ← g.type true
  let eq ← eatOp "="
  let value ← g.expr true
  pure (.node (.item .static) [attrs, vis, word, mutable, name, colon, ty, eq, value, ← eatOp ";"])

/-- A type alias or an associated type; the type it stands for may be missing. -/
def typeItem (g : Rules) (attrs vis given : Tree) : Parser Tree := do
  let word ← eatWord "type"
  let name ← eatIdent
  let params ← generics g
  let bs ← optBounds g
  let before ← whereClause g
  let value ← if ← peek (isOp "=") then do pure [← eatOp "=", ← g.type true] else pure [absent, absent]
  let after ← whereClause g
  pure (.node (.item .typeAlias)
    ([attrs, vis, given, word, name, params] ++ bs ++ [before] ++ value ++ [after, ← eatOp ";"]))

def isUseWord (s : Trees) : Bool := isIdent s || isOuterWord s

def useTree : (fuel : Nat) → Parser Tree
  | 0 => failure
  | fuel + 1 => do
    if ← peek isUseWord then
      let name ← eatAnyWord
      if ← peek (isOp "::") then
        let colons ← eatOp "::"
        pure (.node (.useTree .path) [name, colons, ← useTree fuel])
      else if ← peek (isWord "as") then
        let word ← eatAnyWord
        let given ← if ← peek (isWord "_") then eatAnyWord else eatIdent
        pure (.node (.useTree .rename) [name, word, given])
      else pure (.node (.useTree .name) [name])
    else if ← peek (isOp "*") then pure (.node (.useTree .glob) [← eatOp "*"])
    else
      let body ← within .brace (commaSeparated (useTree fuel))
      pure (.node (.useTree .group) [body])

def useItem (attrs vis : Tree) : Parser Tree := do
  let word ← eatWord "use"
  let root ← optOp "::"
  let tree ← fun s => useTree (Trees.size s + 1) s
  pure (.node (.item .use) [attrs, vis, word, root, tree, ← eatOp ";"])

def externCrate (attrs vis : Tree) : Parser Tree := do
  let word ← eatWord "extern"
  let crate ← eatWord "crate"
  let name ← if ← peek (isWord "self") then eatAnyWord else eatIdent
  let given ← Parser.optional (isWord "as") do
    let word ← eatAnyWord
    pure (.node .rename [word, ← if ← peek (isWord "_") then eatAnyWord else eatIdent])
  pure (.node (.item .externCrate) [attrs, vis, word, crate, name, given, ← eatOp ";"])

def memberBody (g : Rules) (member : Parser Tree) : Parser Tree := within .brace do
  let inner ← innerAttributes g
  pure (inner ++ (← many do pure [← member]))

def macroItem (attrs : Tree) : Parser Tree := do
  let p ← plainPath
  let bang ← eatOp "!"
  let name ← Parser.optional (fun s => isIdent s || isWord "try" s) eatAnyWord
  let body ← macroGroup
  let semi ← match body with
    | .group .brace _ => pure absent
    | _ => eatOp ";"
  let parts := if name.isPresent then [p, bang, name, body] else [p, bang, body]
  pure (.node (.item .macroCall) [attrs, .node .macroBody parts, semi])

def methodBody (g : Rules) (attrs vis given : Tree) : Parser Tree := do
  let sig ← signature g
  let body ← if ← peek (isOp ";") then eatOp ";" else g.block
  pure (.node (.item .method) [attrs, vis, given, sig, body])

def assocConst (g : Rules) (attrs vis given : Tree) : Parser Tree := do
  let word ← eatWord "const"
  let name ← if ← peek (isWord "_") then eatAnyWord else eatIdent
  let params ← generics g
  let colon ← eatOp ":"
  let ty ← g.type true
  let value ← if ← peek (isOp "=") then do pure [← eatOp "=", ← g.expr true] else pure [absent, absent]
  pure (.node (.item .const) ([attrs, vis, given, word, name, params, colon, ty] ++ value ++ [← eatOp ";"]))

def assocItem (g : Rules) : Parser Tree := do
  let attrs ← outerAttributes g
  let vis ← visibility
  let given ← Parser.optional (fun s => isWord "default" s && !ahead 1 (isOp "!") s) eatAnyWord
  if ← peek beginsSignature then methodBody g attrs vis given
  else if ← peek (isWord "const") then assocConst g attrs vis given
  else if ← peek (isWord "type") then typeItem g attrs vis given
  else if vis.isAbsent then macroItem attrs
  else failure

def traitPath? : Tree → Option Tree
  | .node (.type .path) [p@(.node .path _)] => some p
  | _ => none

def beginsImplGenerics (s : Trees) : Bool :=
  isOp "<" s && (ahead 1 (isOp ">") s || ahead 1 (isOp "#") s || ahead 1 (isWord "const") s ||
    ahead 1 (either isIdent isLifetime) s && ahead 2 (fun r => isOp ":" r && !isOp "::" r || isOp "," r || isOp ">" r || isOp "=" r) s)

def implItem (g : Rules) (attrs : Tree) : Parser Tree := do
  let given ← optWord "default"
  let guarded ← optWord "unsafe"
  let word ← eatWord "impl"
  let params ← if ← peek beginsImplGenerics then generics g else pure absent
  let negative ← optOp "!"
  let first ← g.type true
  let (target, self) ← if ← peek (isWord "for") then do
      let word ← eatAnyWord
      match traitPath? first with
      | some p => pure (.node .implTarget [negative, p, word], ← g.type true)
      | none => failure
    else if negative.isPresent then failure
    else pure (absent, first)
  let preds ← whereClause g
  pure (.node (.item .impl) [attrs, given, guarded, word, params, target, self, preds, ← memberBody g (assocItem g)])

def traitItem (g : Rules) (attrs vis : Tree) : Parser Tree := do
  let guarded ← optWord "unsafe"
  let auto ← optWord "auto"
  let word ← eatWord "trait"
  let name ← eatIdent
  let params ← generics g
  if ← peek fun s => isOp "=" s then
    let eq ← eatOp "="
    let bs ← boundList g
    let preds ← whereClause g
    pure (.node (.item .traitAlias) [attrs, vis, word, name, params, eq, bs, preds, ← eatOp ";"])
  else
    let supers ← optBounds g
    let preds ← whereClause g
    pure (.node (.item .trait) ([attrs, vis, guarded, auto, word, name, params] ++ supers ++
      [preds, ← memberBody g (assocItem g)]))

def modItem (g : Rules) (attrs vis : Tree) : Parser Tree := do
  let guarded ← optWord "unsafe"
  let word ← eatWord "mod"
  let name ← eatIdent
  if ← peek (isOp ";") then pure (.node (.item .mod) [attrs, vis, guarded, word, name, ← eatOp ";"])
  else pure (.node (.item .mod) [attrs, vis, guarded, word, name, ← memberBody g g.item])

/-- A declaration without a definition, or any other item, in a foreign module. -/
def foreignMember (g : Rules) : Parser Tree := do
  let attrs ← outerAttributes g
  let vis ← visibility
  let safe ← Parser.optional (fun s => isWord "safe" s && ahead 1 (fun r => isWord "fn" r || isWord "static" r) s) eatAnyWord
  if ← peek beginsSignature then methodBody g attrs vis safe
  else if ← peek (isWord "static") then
    let word ← eatAnyWord
    let mutable ← optWord "mut"
    let name ← eatIdent
    let colon ← eatOp ":"
    let ty ← g.type true
    pure (.node (.item .static) [attrs, vis, safe, word, mutable, name, colon, ty, ← eatOp ";"])
  else if ← peek (isWord "type") then typeItem g attrs vis safe
  else macroItem attrs

def foreignMod (g : Rules) (attrs : Tree) : Parser Tree := do
  let guarded ← optWord "unsafe"
  let foreign ← abi
  pure (.node (.item .foreignMod) [attrs, guarded, foreign, ← memberBody g (foreignMember g)])

def beginsForeignMod (s : Trees) : Bool :=
  let s := if isWord "unsafe" s then s.drop 1 else s
  isWord "extern" s && (ahead 1 (isGroup .brace) s || ahead 1 isLit s && ahead 2 (isGroup .brace) s)

def itemRest (g : Rules) (attrs vis : Tree) : Parser Tree := do
  if ← peek beginsSignature then
    fnItem g attrs vis
  else if ← peek beginsForeignMod then foreignMod g attrs
  else if ← peek fun s => isWord "extern" s && ahead 1 (isWord "crate") s then externCrate attrs vis
  else if ← peek (isWord "use") then useItem attrs vis
  else if ← peek (isWord "static") then staticItem g attrs vis
  else if ← peek (isWord "const") then constItem g attrs vis
  else if ← peek fun s => isWord "mod" s || isWord "unsafe" s && ahead 1 (isWord "mod") s then modItem g attrs vis
  else if ← peek (isWord "type") then typeItem g attrs vis absent
  else if ← peek (isWord "struct") then structItem g attrs vis
  else if ← peek (isWord "enum") then enumItem g attrs vis
  else if ← peek fun s => isWord "union" s && ahead 1 isIdent s then unionItem g attrs vis
  else if ← peek fun s => isWord "trait" s || isWord "auto" s && ahead 1 (isWord "trait") s ||
      isWord "unsafe" s && ahead 1 (fun r => isWord "trait" r || isWord "auto" r) s then traitItem g attrs vis
  else if ← peek fun s => isWord "impl" s || isWord "unsafe" s && ahead 1 (isWord "impl") s ||
      isWord "default" s && !ahead 1 (isOp "!") s && !ahead 1 (isOp "::") s then
    if vis.isPresent then failure else implItem g attrs
  else if vis.isAbsent then macroItem attrs
  else failure

def declaredFn (g : Rules) : Parser Tree := verbatim .verbatim do
  let _ ← outerAttributes g
  let _ ← visibility
  let _ ← signature g
  eatOp ";"

def item (g : Rules) : Parser Tree :=
  (do
    let attrs ← outerAttributes g
    let vis ← visibility
    itemRest g attrs vis) <|> declaredFn g

def beginsItem (s : Trees) : Bool :=
  isWord "pub" s || isWord "crate" s && !ahead 1 (isOp "::") s || isWord "extern" s || isWord "use" s ||
    isWord "static" s && (ahead 1 (isWord "mut") s ||
      ahead 1 isIdent s) ||
    isWord "const" s && !(ahead 1 (isGroup .brace) s || ahead 1 (isWord "static") s ||
      ahead 1 (isWord "async") s && !ahead 2 (fun r => isWord "unsafe" r || isWord "extern" r || isWord "fn" r) s ||
      ahead 1 (isWord "move") s || ahead 1 (isOp "|") s) ||
    isWord "unsafe" s && !ahead 1 (isGroup .brace) s ||
    isWord "async" s && ahead 1 (fun r => isWord "unsafe" r || isWord "extern" r || isWord "fn" r) s ||
    isWord "fn" s || isWord "mod" s || isWord "type" s || isWord "struct" s || isWord "enum" s ||
    isWord "union" s && ahead 1 isIdent s || isWord "auto" s && ahead 1 (isWord "trait") s ||
    isWord "trait" s || isWord "default" s && ahead 1 (fun r => isWord "unsafe" r || isWord "impl" r) s ||
    isWord "impl" s || isWord "macro" s

def afterPath (s : Trees) : Option Trees := (plainPath.run s).map (·.2)

def beginsMacroItem (s : Trees) : Bool :=
  (afterPath s).any fun r => isOp "!" r && !isOp "!=" r && ahead 1 (fun r => isIdent r || isWord "try" r) r

/-- A macro call with braces that is a statement of its own. -/
def beginsMacroStmt (s : Trees) : Bool :=
  (afterPath s).any fun r => isOp "!" r && ahead 1 (isGroup .brace) r &&
    !ahead 2 (fun r => isTrailingDot r || isOp "?" r) r

def bindStmt (g : Rules) (attrs : Tree) : Parser Tree := do
  let word ← eatWord "let"
  let pat ← g.pattern
  let pat ← if ← peek (isOp ":") then typedPattern g pat else pure pat
  let init ← Parser.optional (isOp "=") do
    let eq ← eatOp "="
    let value ← g.expr true
    let other ← Parser.optional (isWord "else") do
      let word ← eatAnyWord
      pure (.node .letElse [word, ← branchExpr g])
    pure (.node .init [eq, value, other])
  pure (.node (.stmt .bind) [attrs, word, pat, init, ← eatOp ";"])

/-- The parts of a macro call used as an expression, if it is a statement of its own: one with braces, or
with a semicolon after it. -/
def macroStmt? (e semi : Tree) : Option Tree :=
  match e with
  | .node (.expr .macroCall) [attrs, call@(.node .macroBody [_, _, .group d _])] =>
    if semi.isPresent || d = .brace then some (.node (.stmt .macroCall) [attrs, call, semi]) else none
  | _ => none

def exprStmt (g : Rules) (attrs : Tree) : Parser Tree := do
  let e ← g.statement
  let e := addLeftmost attrs e
  let semi ← optOp ";"
  match macroStmt? e semi with
  | some s => pure s
  | none => pure (.node (.stmt .expr) [e, semi])
where
  addLeftmost (attrs : Tree) : Tree → Tree
    | .node (.expr .binary) (own :: l :: ts) => .node (.expr .binary) (own :: addLeftmost attrs l :: ts)
    | .node (.expr .assign) (own :: l :: ts) => .node (.expr .assign) (own :: addLeftmost attrs l :: ts)
    | .node (.expr .cast) (own :: l :: ts) => .node (.expr .cast) (own :: addLeftmost attrs l :: ts)
    | t => withAttrs attrs t

def statement (g : Rules) : Parser Tree := do
  if ← peek (isOp ";") then
    pure (.node (.stmt .expr) [.node (.expr .verbatim) [], ← eatOp ";"])
  else
    let start ← get
    let attrs ← outerAttributes g
    if ← peek beginsMacroStmt then
      let p ← plainPath
      let call ← macroRest p
      pure (.node (.stmt .macroCall) [attrs, call, ← optOp ";"])
    else if ← peek (isWord "let") then bindStmt g attrs
    else if ← peek (either beginsItem beginsMacroItem) then
      set start
      g.item
    else exprStmt g attrs

/-- Whether only a semicolon or the end of the block may follow. -/
def needsEnd : Tree → Bool
  | .node (.stmt .expr) [e, semi] =>
    semi.isAbsent && match e with
      | .node (.expr .macroCall) [_, .node .macroBody [_, _, .group d _]] => d != .brace
      | e => !endsWithBlock e
  | .node (.stmt .macroCall) [_, .node .macroBody [_, _, .group d _], semi] => semi.isAbsent && d != .brace
  | _ => false

/-- The statements of a block, with its inner attributes in front. -/
def statements (g : Rules) : Parser Trees := do
  let inner ← innerAttributes g
  let stmts ← many do
    let s ← statement g
    if needsEnd s && !(← atEnd) then failure else pure [s]
  pure (inner ++ stmts)

def block (g : Rules) : Parser Tree := do pure (.node .block [← within .brace (statements g)])

/-- The items of a file, with its inner attributes in front. -/
def file (g : Rules) : Parser Trees := do
  let inner ← innerAttributes g
  pure (inner ++ (← many do pure [← item g]))

end Retype.Code.Grammar
