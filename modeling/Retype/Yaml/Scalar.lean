import Retype.Yaml.Cursor

/-! The texts of scalars: plain, between quotes, and in blocks. -/

namespace Retype.Yaml

/-- White space between two pieces of a scalar: blanks within a line, or line ends. -/
structure Gap where
  blanks : List Char := []
  breaks : List Char := []
  /-- The line end in front was escaped. -/
  escaped : Bool := false

namespace Gap

def hasBreak (g : Gap) : Bool := g.escaped || !g.breaks.isEmpty

/-- A single line end becomes a space; of several the first is dropped. -/
def text (g : Gap) : List Char :=
  if g.escaped then g.breaks
  else
    match g.breaks with
    | [] => g.blanks
    | ['\n'] => [' ']
    | '\n' :: more => more
    | breaks => breaks

/-- Passes white space.  A tab may not stand in the first `indent` columns of a further line. -/
def take (indent : Int) : (fuel : Nat) → Gap → Cursor → Option (Gap × Cursor)
  | 0, g, c => some (g, c)
  | fuel + 1, g, c =>
    match c.rest with
    | [] => some (g, c)
    | ch :: _ =>
      if isBlank ch then
        if g.hasBreak && ch == '\t' && (c.column : Int) < indent then none
        else take indent fuel (if g.hasBreak then g else { g with blanks := g.blanks ++ [ch] }) (c.skip 1)
      else if isBreak ch then take indent fuel { g with blanks := [], breaks := g.breaks ++ [breakText ch] } c.skipBreak
      else some (g, c)

end Gap

def isFlowMark (c : Char) : Bool := c == ',' || c == '[' || c == ']' || c == '\x7b' || c == '\x7d'

def endsPlain (flow : Bool) (c : Cursor) : Bool :=
  c.isAt ':' && c.endsWordAt 1 || flow && c.looksAt isFlowMark 0

/-- A colon that may not stand in a plain scalar in flow. -/
def misplacedColon (flow : Bool) (c : Cursor) : Bool :=
  flow && c.isAt ':' && c.looksAt (fun ch => isFlowMark ch || ch == '?') 1

/-- Characters up to a white space or the end of the scalar. -/
def plainPiece (flow : Bool) : (fuel : Nat) → Cursor → Option (List Char × Cursor)
  | 0, c => some ([], c)
  | fuel + 1, c =>
    match c.rest with
    | [] => some ([], c)
    | ch :: _ =>
      if isBlank ch || isBreak ch then some ([], c)
      else if misplacedColon flow c then none
      else if endsPlain flow c then some ([], c)
      else (plainPiece flow fuel (c.skip 1)).map fun (s, c) => (ch :: s, c)

structure Plain where
  text : List Char
  /-- The scalar ended on a line of its own. -/
  brokeLine : Bool
  cursor : Cursor

/-- A plain scalar; in a block it ends before a line that is not indented beyond `indent`. -/
def plain (flow : Bool) (indent : Int) : (fuel : Nat) → (text : List Char) → Gap → Cursor → Option Plain
  | 0, text, g, c => some ⟨text, g.hasBreak, c⟩
  | fuel + 1, text, g, c =>
    if c.startsDocument || c.endsDocument || c.isAt '#' then some ⟨text, g.hasBreak, c⟩
    else
      match plainPiece flow (c.rest.length + 1) c with
      | none => none
      | some (piece, c) =>
        let (text, g) := if piece.isEmpty then (text, g) else (text ++ g.text ++ piece, {})
        if c.rest.isEmpty || !c.looksAt (fun ch => isBlank ch || isBreak ch) 0 then some ⟨text, g.hasBreak, c⟩
        else
          match Gap.take indent (c.rest.length + 1) g c with
          | none => none
          | some (g, c) =>
            if !flow && (c.column : Int) < indent then some ⟨text, g.hasBreak, c⟩
            else plain flow indent fuel text g c

def hexDigit? (c : Char) : Option Nat :=
  if c.isDigit then some (c.toNat - '0'.toNat)
  else if 'a' ≤ c && c ≤ 'f' then some (c.toNat - 'a'.toNat + 10)
  else if 'A' ≤ c && c ≤ 'F' then some (c.toNat - 'A'.toNat + 10)
  else none

def hexValue? (digits : List Char) : Option Nat :=
  digits.foldl (fun v d => v.bind fun n => (hexDigit? d).map (n * 16 + ·)) (some 0)

def codePoint? (count : Nat) (s : List Char) : Option Char :=
  if s.length < count then none
  else (hexValue? (s.take count)).bind fun n => if n.isValidChar then some (Char.ofNat n) else none

/-- The character of an escape after the backslash, and how many characters the escape takes. -/
def escape? : List Char → Option (Char × Nat)
  | '0' :: _ => some (Char.ofNat 0, 1)
  | 'a' :: _ => some ('\x07', 1)
  | 'b' :: _ => some ('\x08', 1)
  | 't' :: _ => some ('\t', 1)
  | '\t' :: _ => some ('\t', 1)
  | 'n' :: _ => some ('\n', 1)
  | 'v' :: _ => some ('\x0b', 1)
  | 'f' :: _ => some ('\x0c', 1)
  | 'r' :: _ => some ('\r', 1)
  | 'e' :: _ => some ('\x1b', 1)
  | ' ' :: _ => some (' ', 1)
  | '"' :: _ => some ('"', 1)
  | '/' :: _ => some ('/', 1)
  | '\\' :: _ => some ('\\', 1)
  | 'N' :: _ => some ('\u0085', 1)
  | '_' :: _ => some ('\u00a0', 1)
  | 'L' :: _ => some ('\u2028', 1)
  | 'P' :: _ => some ('\u2029', 1)
  | 'x' :: r => (codePoint? 2 r).map (·, 3)
  | 'u' :: r => (codePoint? 4 r).map (·, 5)
  | 'U' :: r => (codePoint? 8 r).map (·, 9)
  | _ => none

/-- Characters up to a white space, the closing quote or an escaped line end, which is told by the last part. -/
def quotedPiece (single : Bool) : (fuel : Nat) → Cursor → Option (List Char × Bool × Cursor)
  | 0, c => some ([], false, c)
  | fuel + 1, c =>
    match c.rest with
    | [] => some ([], false, c)
    | ch :: r =>
      if isBlank ch || isBreak ch then some ([], false, c)
      else if single && ch == '\'' then
        if r.head? == some '\'' then (quotedPiece single fuel (c.skip 2)).map fun (s, e, c) => ('\'' :: s, e, c)
        else some ([], false, c)
      else if !single && ch == '"' then some ([], false, c)
      else if !single && ch == '\\' then
        if r.head?.any isBreak then some ([], true, (c.skip 1).skipBreak)
        else
          match escape? r with
          | some (e, n) => (quotedPiece single fuel (c.skip (n + 1))).map fun (s, b, c) => (e :: s, b, c)
          | none => none
      else (quotedPiece single fuel (c.skip 1)).map fun (s, e, c) => (ch :: s, e, c)

def quotedBody (single : Bool) : (fuel : Nat) → (text : List Char) → Cursor → Option (List Char × Cursor)
  | 0, _, _ => none
  | fuel + 1, text, c =>
    if c.startsDocument || c.endsDocument || c.rest.isEmpty then none
    else
      match quotedPiece single (c.rest.length + 1) c with
      | none => none
      | some (piece, escaped, c) =>
        let text := text ++ piece
        if c.isAt (if single then '\'' else '"') then some (text, c.skip 1)
        else
          match Gap.take 0 (c.rest.length + 1) { escaped := escaped } c with
          | none => none
          | some (g, c) => quotedBody single fuel (text ++ g.text) c

def quoted (single : Bool) (c : Cursor) : Option (List Char × Cursor) :=
  quotedBody single (c.rest.length + 1) [] (c.skip 1)

inductive Chomp
  | strip | clip | keep
  deriving DecidableEq, Repr

def chomp? : Option Char → Option Chomp
  | some '+' => some .keep
  | some '-' => some .strip
  | _ => none

def step? : Option Char → Option Nat
  | some c => if c.isDigit then some (c.toNat - '0'.toNat) else none
  | none => none

/-- The marks after the sign of a block scalar, in either order. -/
def blockHeader (c : Cursor) : Option (Chomp × Option Nat × Cursor) :=
  let (chomp, step, n) := match chomp? (c.peek 0), step? (c.peek 0) with
    | some m, _ =>
      match step? (c.peek 1) with
      | some k => (m, some k, 2)
      | none => (m, none, 1)
    | none, some k =>
      match chomp? (c.peek 1) with
      | some m => (m, some k, 2)
      | none => (.clip, some k, 1)
    | none, none => (.clip, none, 0)
  if step == some 0 then none else some (chomp, step, c.skip n)

/-- Passes empty lines.  While the indentation is not known (zero), the widest line met is answered; then a tab
may not stand where indentation is expected. -/
def emptyLines (indent : Nat) : (fuel : Nat) → (widest : Nat) → (breaks : List Char) → Cursor →
    Option (Nat × List Char × Cursor)
  | 0, widest, breaks, c => some (widest, breaks, c)
  | fuel + 1, widest, breaks, c =>
    let room := c.rest.takeWhile (· == ' ')
    let width := if indent = 0 then room.length else min room.length (indent - c.column)
    let c := c.skip width
    let widest := max widest c.column
    if (indent = 0 || c.column < indent) && c.isAt '\t' then none
    else
      match c.rest with
      | ch :: _ =>
        if isBreak ch then emptyLines indent fuel widest (breaks ++ [breakText ch]) c.skipBreak
        else some (widest, breaks, c)
      | [] => some (widest, breaks, c)

def blockBreaks (indent : Nat) (parent : Int) (c : Cursor) : Option (Nat × List Char × Cursor) :=
  (emptyLines indent (c.rest.length + 1) 0 [] c).map fun (widest, breaks, c) =>
    (if indent = 0 then max (max widest (parent + 1).toNat) 1 else indent, breaks, c)

structure Block where
  text : List Char := []
  /-- The end of the last line. -/
  lineEnd : List Char := []
  /-- The empty lines after it. -/
  trailing : List Char := []
  /-- The last line began with a blank. -/
  spaced : Bool := false

/-- Adds a line.  In a folded scalar one line end between two lines that begin with no blank is a space, and
before empty lines it is dropped. -/
def Block.addLine (folded : Bool) (b : Block) (line : List Char) : Block :=
  let spaced := line.head?.any isBlank
  let joint :=
    if folded && b.lineEnd == ['\n'] && !b.spaced && !spaced then
      if b.trailing.isEmpty then [' '] else []
    else b.lineEnd
  { text := b.text ++ joint ++ b.trailing ++ line, spaced := spaced }

def Block.finish (b : Block) : Chomp → List Char
  | .strip => b.text
  | .clip => b.text ++ b.lineEnd
  | .keep => b.text ++ b.lineEnd ++ b.trailing

def blockLines (folded : Bool) (indent : Nat) (parent : Int) : (fuel : Nat) → Block → Cursor → Option (Block × Cursor)
  | 0, b, c => some (b, c)
  | fuel + 1, b, c =>
    if c.column != indent || c.rest.isEmpty then some (b, c)
    else
      let (line, c) := c.span fun ch => !isBreak ch
      let b := b.addLine folded line
      let lineEnd := ((c.peek 0).map breakText).toList
      match blockBreaks indent parent c.skipBreak with
      | none => none
      | some (_, trailing, c) => blockLines folded indent parent fuel { b with lineEnd := lineEnd, trailing := trailing } c

/-- A block scalar after its sign; `parent` is the indentation around it. -/
def block (folded : Bool) (parent : Int) (c : Cursor) : Option (List Char × Cursor) := do
  let (chomp, step, c) ← blockHeader c
  let c := (c.skipWhile isBlank).skipComment
  if !c.rest.isEmpty && !c.looksAt isBreak 0 then failure
  let given := step.map fun k => ((max parent 0) + (k : Int)).toNat
  let (indent, trailing, c) ← blockBreaks (given.getD 0) parent c.skipBreak
  let (b, c) ← blockLines folded indent parent (c.rest.length + 1) { trailing := trailing } c
  some (b.finish chomp, c)

end Retype.Yaml
