import Retype.Yaml.Scalar

/-! The tokens of a YAML text.  Indentation gives tokens of its own, and so does a key: whether a node is a key
shows only at the colon behind it, so its token is put in at the place where the node began. -/

namespace Retype.Yaml

inductive Style
  | plain | singleQuoted | doubleQuoted | literal | folded
  deriving DecidableEq, Repr

inductive Token
  | version (major minor : Nat)
  | tagPrefix (handle value : List Char)
  | documentStart | documentEnd
  | blockSequence | blockMapping | blockEnd
  | flowSequence | flowSequenceEnd | flowMapping | flowMappingEnd
  | entry | separator | key | value
  | reference (name : List Char)
  | anchor (name : List Char)
  | tag (handle suffix : List Char)
  | scalar (style : Style) (text : List Char)
  deriving DecidableEq, Repr

/-- A node that becomes a key if a colon follows it on its line. -/
structure PossibleKey where
  /-- The number of tokens before the node. -/
  position : Nat
  /-- A colon has to follow. -/
  required : Bool
  index : Nat
  line : Nat
  column : Nat

structure Scanner where
  cursor : Cursor
  tokens : List Token := []
  indent : Int := -1
  /-- The indentations around the current one, innermost first. -/
  outer : List Int := []
  /-- A key may begin here. -/
  keyAllowed : Bool := true
  /-- The possible key of each level of flow collections, innermost first; the last is that of the blocks. -/
  keys : List (Option PossibleKey) := [none]

namespace Scanner

def inFlow (s : Scanner) : Bool := s.keys.length > 1

def push (s : Scanner) (t : Token) : Scanner := { s with tokens := s.tokens ++ [t] }

/-- Passes characters and gives a token for them. -/
def take (s : Scanner) (n : Nat) (t : Token) : Scanner := { s with cursor := s.cursor.skip n, tokens := s.tokens ++ [t] }

def allowKey (s : Scanner) (allowed : Bool) : Scanner := { s with keyAllowed := allowed }

/-- Opens a block collection that is indented further; its token goes to a position. -/
def openBlock (s : Scanner) (column position : Nat) (t : Token) : Scanner :=
  if !s.inFlow && s.indent < column then
    { s with indent := column, outer := s.indent :: s.outer, tokens := s.tokens.insertIdx position t }
  else s

def closeBlocks (column : Int) : (outer : List Int) → Scanner → Scanner
  | [], s => s
  | i :: is, s =>
    if !s.inFlow && column < s.indent then
      closeBlocks column is { s with indent := i, outer := is, tokens := s.tokens ++ [.blockEnd] }
    else s

def unroll (s : Scanner) (column : Int) : Scanner := closeBlocks column s.outer s

/-- A key is written on one line and is not longer than 1024 characters. -/
def isStale (c : Cursor) (k : PossibleKey) : Bool := k.line < c.line || k.index + 1024 < c.index

/-- Forgets keys that have become impossible; a required one is an error. -/
def dropStale (s : Scanner) : Option Scanner :=
  if s.keys.any fun k => k.any fun k => isStale s.cursor k && k.required then none
  else some { s with keys := s.keys.map fun k => k.filter fun k => !isStale s.cursor k }

/-- Forgets the possible key of this level; a required one is an error. -/
def dropKey (s : Scanner) : Option Scanner :=
  match s.keys with
  | some k :: ks => if k.required then none else some { s with keys := none :: ks }
  | _ => some s

def noteKey (s : Scanner) : Option Scanner :=
  if s.keyAllowed then
    (s.dropKey).map fun s =>
      let c := s.cursor
      let k : PossibleKey := ⟨s.tokens.length, !s.inFlow && s.indent == c.column, c.index, c.line, c.column⟩
      { s with keys := some k :: s.keys.drop 1 }
  else some s

/-- Passes white space and comments.  In a block a tab counts only where no key may begin. -/
def toNext : (fuel : Nat) → Scanner → Scanner
  | 0, s => s
  | fuel + 1, s =>
    let tabs := s.inFlow || !s.keyAllowed
    let c := (s.cursor.skipWhile fun ch => ch == ' ' || tabs && ch == '\t').skipComment
    if c.looksAt isBreak 0 then
      toNext fuel { s with cursor := c.skipBreak, keyAllowed := s.keyAllowed || !s.inFlow }
    else { s with cursor := c }

def number? (c : Cursor) : Option (Nat × Cursor) :=
  let (digits, c) := c.span Char.isDigit
  if digits.isEmpty || digits.length > 9 then none
  else some (digits.foldl (fun n d => n * 10 + (d.toNat - '0'.toNat)) 0, c)

/-- Passes the rest of a line that may hold a comment. -/
def endLine (c : Cursor) : Option Cursor :=
  let c := (c.skipWhile isBlank).skipComment
  if c.rest.isEmpty then some c else if c.looksAt isBreak 0 then some c.skipBreak else none

def isTagChar (whole : Bool) (c : Char) : Bool :=
  isNameChar c || ";/?:@&=+$.!~*'()%".toList.contains c || whole && (c == ',' || c == '[' || c == ']')

/-- The bytes that a tag writes as `%` and two digits. -/
def escapedBytes : (fuel : Nat) → List Char → Option (List Nat × List Char)
  | 0, s => some ([], s)
  | fuel + 1, s =>
    match s with
    | '%' :: a :: b :: r => do
      let n ← hexValue? [a, b]
      let (more, r) ← escapedBytes fuel r
      some (n :: more, r)
    | '%' :: _ => none
    | s => some ([], s)

def decodeBytes (bs : List Nat) : Option (List Char) :=
  (String.fromUTF8? (ByteArray.mk (bs.map Nat.toUInt8).toArray)).map (·.toList)

def unescapeTag : (fuel : Nat) → List Char → Option (List Char)
  | 0, _ => none
  | fuel + 1, s =>
    match s with
    | [] => some []
    | '%' :: _ => do
      let (bs, r) ← escapedBytes s.length s
      (← decodeBytes bs) ++ (← unescapeTag fuel r)
    | c :: r => (unescapeTag fuel r).map (c :: ·)

def tagText (whole : Bool) (front : List Char) (c : Cursor) : Option (List Char × Cursor) :=
  let (text, c) := c.span (isTagChar whole)
  if front.isEmpty && text.isEmpty then none
  else (unescapeTag (text.length + 1) text).map fun t => (front.drop 1 ++ t, c)

/-- A handle: `!`, perhaps a name, and perhaps another `!`. -/
def tagHandle (c : Cursor) : Option (List Char × Cursor) :=
  if c.isAt '!' then
    let (name, c) := (c.skip 1).span isNameChar
    if c.isAt '!' then some ('!' :: name ++ ['!'], c.skip 1) else some ('!' :: name, c)
  else none

def directive (c : Cursor) : Option (Token × Cursor) := do
  let (name, c) := (c.skip 1).span isNameChar
  if !c.endsWordAt 0 then failure
  let c := c.skipWhile isBlank
  if name == "YAML".toList then
    let (major, c) ← number? c
    if !c.isAt '.' then failure
    let (minor, c) ← number? (c.skip 1)
    some (.version major minor, ← endLine c)
  else if name == "TAG".toList then
    let (handle, c) ← tagHandle c
    if handle.length > 1 && handle.getLast? != some '!' then failure
    if !c.looksAt isBlank 0 then failure
    let (value, c) ← tagText true [] (c.skipWhile isBlank)
    if !c.endsWordAt 0 then failure
    some (.tagPrefix handle value, ← endLine c)
  else failure

def anchorName (c : Cursor) : Option (List Char × Cursor) :=
  let (name, c) := (c.skip 1).span isNameChar
  let ends := c.endsWordAt 0 || c.looksAt (fun ch => "?:,]\x7d%@`".toList.contains ch) 0
  if name.isEmpty || !ends then none else some (name, c)

/-- A tag: in angle brackets as it stands, or a handle and a suffix. -/
def tag (flow : Bool) (c : Cursor) : Option (Token × Cursor) := do
  let (t, c) ← if c.peek 1 == some '<' then do
      let (text, c) ← tagText true [] (c.skip 2)
      if c.isAt '>' then some (Token.tag [] text, c.skip 1) else none
    else do
      let (handle, rest) ← tagHandle c
      if handle.length > 1 && handle.getLast? == some '!' then
        let (suffix, c) ← tagText false [] rest
        some (Token.tag handle suffix, c)
      else
        let (suffix, c) ← tagText false handle rest
        some (if suffix.isEmpty then Token.tag [] ['!'] else Token.tag ['!'] suffix, c)
  if c.endsWordAt 0 || flow && c.isAt ',' then some (t, c) else none

def isIndicator (c : Char) : Bool := "-?:,[]\x7b\x7d#&*!|>'\"%@`".toList.contains c

def beginsPlain (s : Scanner) : Bool :=
  let c := s.cursor
  !c.endsWordAt 0 && !c.looksAt isIndicator 0 || c.isAt '-' && !c.looksAt isBlank 1 ||
    !s.inFlow && (c.isAt '?' || c.isAt ':') && !c.endsWordAt 1

def documentMark (s : Scanner) (n : Nat) (t : Token) : Option Scanner :=
  ((s.unroll (-1)).dropKey).map fun s => (s.allowKey false).take n t

def openFlow (s : Scanner) (t : Token) : Option Scanner :=
  (s.noteKey).map fun s => { (s.allowKey true).take 1 t with keys := none :: s.keys }

def closeFlow (s : Scanner) (t : Token) : Option Scanner :=
  (s.dropKey).map fun s =>
    let s := (s.allowKey false).take 1 t
    if s.inFlow then { s with keys := s.keys.drop 1 } else s

/-- `-` in front of an entry. -/
def blockEntry (s : Scanner) : Option Scanner :=
  if !s.inFlow && !s.keyAllowed then none
  else ((s.openBlock s.cursor.column s.tokens.length .blockSequence).dropKey).map fun s => (s.allowKey true).take 1 .entry

/-- `?` in front of a key. -/
def keyMark (s : Scanner) : Option Scanner :=
  if !s.inFlow && !s.keyAllowed then none
  else ((s.openBlock s.cursor.column s.tokens.length .blockMapping).dropKey).map fun s =>
    (s.allowKey !s.inFlow).take 1 .key

/-- `:` in front of a value: of the possible key, or of a key that is missing or was marked. -/
def valueMark (s : Scanner) : Option Scanner :=
  match s.keys with
  | some k :: ks =>
    let s := { s with keys := none :: ks, tokens := s.tokens.insertIdx k.position .key }
    some (((s.openBlock k.column k.position .blockMapping).allowKey false).take 1 .value)
  | _ =>
    if !s.inFlow && !s.keyAllowed then none
    else some (((s.openBlock s.cursor.column s.tokens.length .blockMapping).allowKey !s.inFlow).take 1 .value)

def nodeToken (s : Scanner) (read : Scanner → Option (Token × Cursor)) : Option Scanner := do
  let s ← s.noteKey
  let (t, c) ← read s
  some { s.allowKey false with cursor := c, tokens := s.tokens ++ [t] }

def quotedToken (s : Scanner) (single : Bool) : Option Scanner :=
  s.nodeToken fun s => (quoted single s.cursor).map fun (text, c) =>
    (.scalar (if single then .singleQuoted else .doubleQuoted) text, c)

def plainToken (s : Scanner) : Option Scanner := do
  let s ← s.noteKey
  let p ← plain s.inFlow (s.indent + 1) (s.cursor.rest.length + 1) [] {} s.cursor
  some { s.allowKey p.brokeLine with cursor := p.cursor, tokens := s.tokens ++ [.scalar .plain p.text] }

def blockToken (s : Scanner) (folded : Bool) : Option Scanner := do
  let s ← s.dropKey
  let (text, c) ← block folded s.indent (s.cursor.skip 1)
  some { s.allowKey true with cursor := c, tokens := s.tokens ++ [.scalar (if folded then .folded else .literal) text] }

def directiveToken (s : Scanner) : Option Scanner := do
  let s ← (s.unroll (-1)).dropKey
  let (t, c) ← directive s.cursor
  some { s.allowKey false with cursor := c, tokens := s.tokens ++ [t] }

def token (s : Scanner) : Option Scanner :=
  let c := s.cursor
  if c.column == 0 && c.isAt '%' then s.directiveToken
  else if c.startsDocument then s.documentMark 3 .documentStart
  else if c.endsDocument then s.documentMark 3 .documentEnd
  else if c.isAt '[' then s.openFlow .flowSequence
  else if c.isAt '\x7b' then s.openFlow .flowMapping
  else if c.isAt ']' then s.closeFlow .flowSequenceEnd
  else if c.isAt '\x7d' then s.closeFlow .flowMappingEnd
  else if c.isAt ',' then (s.dropKey).map fun s => (s.allowKey true).take 1 .separator
  else if c.isAt '-' && c.endsWordAt 1 then s.blockEntry
  else if c.isAt '?' && (s.inFlow || c.endsWordAt 1) then s.keyMark
  else if c.isAt ':' && (s.inFlow || c.endsWordAt 1) then s.valueMark
  else if c.isAt '*' then s.nodeToken fun s => (anchorName s.cursor).map fun (n, c) => (.reference n, c)
  else if c.isAt '&' then s.nodeToken fun s => (anchorName s.cursor).map fun (n, c) => (.anchor n, c)
  else if c.isAt '!' then s.nodeToken fun s => tag s.inFlow s.cursor
  else if c.isAt '|' && !s.inFlow then s.blockToken false
  else if c.isAt '>' && !s.inFlow then s.blockToken true
  else if c.isAt '\'' then s.quotedToken true
  else if c.isAt '"' then s.quotedToken false
  else if s.beginsPlain then s.plainToken
  else none

/-- Reads tokens to the end of the text; each takes a character. -/
def run : (fuel : Nat) → Scanner → Option (List Token)
  | 0, _ => none
  | fuel + 1, s => do
    let s ← (toNext (s.cursor.rest.length + 1) s).dropStale
    let s := s.unroll s.cursor.column
    if s.cursor.rest.isEmpty then (← (s.unroll (-1)).dropKey).tokens
    else run fuel (← s.token)

end Scanner

/-- The tokens of a text, which a mark of the byte order may precede. -/
def tokens? (text : String) : Option (List Token) :=
  let s := match text.toList with
    | '\ufeff' :: r => r
    | s => s
  if s.all isAllowed then Scanner.run (s.length + 1) { cursor := { rest := s } } else none

end Retype.Yaml
