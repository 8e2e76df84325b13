import Retype.Code.Tree
import Retype.Text.Quoted

/-! Reading source text into unparsed trees.  A recogniser looks at the characters that follow and answers how
many of them it takes, so a token is the text it was recognised from.  Comments vanish; a doc comment is the
attribute that it stands for. -/

namespace Retype.Code.Lexer
open Retype.Text

abbrev Chars := List Char

/-- How many characters at the front make up the construct, if it is there. -/
abbrev Recogniser := Chars → Option Nat

def punctuation : Chars :=
  ['~', '!', '@', '#', '$', '%', '^', '&', '*', '-', '=', '+', '|', ';', ':', ',', '<', '.', '>', '/',
   '?', '\'']

def startsWith (mark : String) (s : Chars) : Bool := mark.toList.isPrefixOf s

/-- Runs a recogniser after `n` characters that are already taken. -/
def after (n : Nat) (r : Recogniser) : Recogniser := fun s => (r (s.drop n)).map (n + ·)

def nameLength (s : Chars) : Nat := (s.takeWhile isIdentContinue).length

def plainName : Recogniser
  | [] => none
  | c :: r => if isIdentStart c then some (nameLength r + 1) else none

def unrawable : List String := ["_", "super", "self", "Self", "crate"]

def anyName (s : Chars) : Option Nat :=
  if startsWith "r#" s then do
    let n ← plainName (s.drop 2)
    if unrawable.contains (String.ofList ((s.drop 2).take n)) then none else some (n + 2)
  else plainName s

def literalMarks : List String :=
  ["r\"", "r#\"", "r##", "b\"", "b'", "br\"", "br#", "c\"", "cr\"", "cr#"]

def name (s : Chars) : Option Nat :=
  if literalMarks.any (startsWith · s) then none else anyName s

/-- The suffix of a literal is a name that follows it directly; there may be none. -/
def suffixLength (s : Chars) : Nat := (plainName s).getD 0

def isHexDigit (c : Char) : Bool := c.isDigit || ('a' ≤ c && c ≤ 'f') || ('A' ≤ c && c ≤ 'F')

def hexValue (c : Char) : Nat :=
  if c.isDigit then c.toNat - '0'.toNat
  else if 'a' ≤ c && c ≤ 'f' then c.toNat - 'a'.toNat + 10
  else if 'A' ≤ c && c ≤ 'F' then c.toNat - 'A'.toNat + 10
  else 0

/-- The digits of `\u` up to the closing brace: one to six, underscores aside, and a valid code point. -/
def unicodeEscape? (digits : Chars) : Option Nat :=
  let ds := digits.filter (· != '_')
  let n := ds.foldl (fun n c => n * 16 + hexValue c) 0
  if digits.head? != some '_' && ds.all isHexDigit && 0 < ds.length && ds.length ≤ 6 &&
      (n < 0xd800 || (0xe000 ≤ n && n < 0x110000)) then some n
  else none

structure Escapes where
  /-- `\u` escapes are admitted. -/
  unicode : Bool
  /-- The largest value of a `\x` escape. -/
  hexLimit : Nat
  /-- Characters beyond ASCII may stand unescaped. -/
  wide : Bool
  /-- The value zero may be written. -/
  zero : Bool

def Escapes.text : Escapes := ⟨true, 0x7f, true, true⟩
def Escapes.bytes : Escapes := ⟨false, 0xff, false, true⟩
def Escapes.terminated : Escapes := ⟨true, 0xff, true, false⟩

/-- Whether the characters after a backslash are an escape. -/
def Escapes.admits (e : Escapes) : Chars → Bool
  | 'x' :: a :: b :: _ =>
    let n := hexValue a * 16 + hexValue b
    isHexDigit a && isHexDigit b && n ≤ e.hexLimit && (e.zero || n != 0)
  | 'u' :: '\x7b' :: r =>
    e.unicode && r.contains '\x7d' &&
      (unicodeEscape? (r.takeWhile (· != '\x7d'))).any fun n => e.zero || n != 0
  | 'n' :: _ | 'r' :: _ | 't' :: _ | '\\' :: _ | '\'' :: _ | '"' :: _ => true
  | '0' :: _ => e.zero
  | _ => false

def quotedRest (e : Escapes) : Recogniser
  | [] => none
  | '"' :: _ => some 1
  | '\r' :: '\n' :: r => (quotedRest e r).map (· + 2)
  | '\r' :: _ => none
  | '\\' :: '\n' :: r => (quotedRest e r).map (· + 2)
  | '\\' :: '\r' :: '\n' :: r => (quotedRest e r).map (· + 3)
  | '\\' :: c :: r => if e.admits (c :: r) then (quotedRest e r).map (· + 2) else none
  | c :: r =>
    if (e.wide || isAscii c) && (e.zero || c.toNat != 0) then (quotedRest e r).map (· + 1) else none

/-- The rest of a raw literal after its opening quote, closed by a quote and `hashes` hash signs. -/
def rawRest (e : Escapes) (hashes : Nat) : Recogniser
  | [] => none
  | '"' :: r =>
    if (r.take hashes).length = hashes && (r.take hashes).all (· == '#') then some (hashes + 1)
    else (rawRest e hashes r).map (· + 1)
  | '\r' :: '\n' :: r => (rawRest e hashes r).map (· + 2)
  | '\r' :: _ => none
  | c :: r =>
    if (e.wide || isAscii c) && (e.zero || c.toNat != 0) then (rawRest e hashes r).map (· + 1) else none

def rawLiteral (e : Escapes) (s : Chars) : Option Nat :=
  let hashes := (s.takeWhile (· == '#')).length
  match s.drop hashes with
  | '"' :: r => if hashes ≤ 255 then (rawRest e hashes r).map (hashes + 1 + ·) else none
  | _ => none

def stringLike (mark : String) (e : Escapes) (s : Chars) : Option Nat :=
  if startsWith (mark ++ "\"") s then after (mark.length + 1) (quotedRest e) s
  else if startsWith (mark ++ "r\"") s || startsWith (mark ++ "r#") s then
    after (mark.length + 1) (rawLiteral e) s
  else none

def characterRest (e : Escapes) : Recogniser
  | '\\' :: 'x' :: r => if e.admits ('x' :: r) && r[2]? == some '\'' then some 5 else none
  | '\\' :: 'u' :: r =>
    let n := (r.takeWhile (· != '\x7d')).length
    if e.admits ('u' :: r) && r[n + 1]? == some '\'' then some (n + 4) else none
  | '\\' :: c :: '\'' :: _ => if e.admits [c] then some 3 else none
  | '\\' :: _ => none
  | c :: '\'' :: _ => if e.wide || isAscii c then some 2 else none
  | _ => none

def character : Recogniser
  | '\'' :: r => (characterRest Escapes.text r).map (· + 1)
  | _ => none

def byte : Recogniser
  | 'b' :: '\'' :: r => (characterRest Escapes.bytes r).map (· + 2)
  | _ => none

def isDigitOr (c : Char) : Bool := c.isDigit || c == '_'

/-- The digits of a decimal exponent, underscores and one sign included. -/
def exponent? (s : Chars) : Option Nat :=
  let sign := match s with
    | '+' :: _ | '-' :: _ => 1
    | _ => 0
  let run := (s.drop sign).takeWhile isDigitOr
  if run.any Char.isDigit then some (sign + run.length) else none

def isExponentMark (c : Char) : Bool := c == 'e' || c == 'E'

def floatDigits (s : Chars) : Option Nat :=
  match s with
  | [] => none
  | c :: _ =>
    if !c.isDigit then none
    else
      let whole := (s.takeWhile isDigitOr).length
      let exponentAt (n : Nat) (least : Option Nat) : Option Nat :=
        match s.drop n with
        | e :: r => if isExponentMark e then (exponent? r).map (n + 1 + ·) <|> least else least
        | [] => least
      match s.drop whole with
      | '.' :: r =>
        if r.head?.any fun d => d == '.' || isIdentStart d then none
        else
          let n := whole + 1 + (r.takeWhile isDigitOr).length
          exponentAt n (some n)
      | _ => exponentAt whole none

def wordBreak (s : Chars) (n : Nat) : Option Nat :=
  if (s.drop n).head?.any isIdentContinue then none else some n

def float (s : Chars) : Option Nat := do
  let n ← floatDigits s
  wordBreak s (n + suffixLength (s.drop n))

def digitIn (base : Nat) (c : Char) : Bool := isHexDigit c && hexValue c < base

/-- The digits of a whole number, with the mark of its base. -/
def intDigits (s : Chars) : Option Nat :=
  let based (base : Nat) : Option Nat :=
    let run := (s.drop 2).takeWhile fun c => digitIn (if base = 16 then 16 else 10) c || c == '_'
    if run.any (· != '_') && run.all (fun c => c == '_' || digitIn base c) then some (run.length + 2)
    else none
  match s with
  | '0' :: 'x' :: _ => based 16
  | '0' :: 'o' :: _ => based 8
  | '0' :: 'b' :: _ => based 2
  | c :: _ => if c.isDigit then some (s.takeWhile isDigitOr).length else none
  | [] => none

def int (s : Chars) : Option Nat := do
  let n ← intDigits s
  wordBreak s (n + suffixLength (s.drop n))

def quotedLiteral (s : Chars) : Option Nat := do
  let n ← stringLike "" Escapes.text s <|> stringLike "b" Escapes.bytes s <|>
    stringLike "c" Escapes.terminated s <|> byte s <|> character s
  some (n + suffixLength (s.drop n))

def literal (s : Chars) : Option Nat := quotedLiteral s <|> float s <|> int s

def startsComment (s : Chars) : Bool := startsWith "//" s || startsWith "/*" s

def isPunct (s : Chars) : Bool := !startsComment s && s.head?.any punctuation.contains

/-- A lifetime is a quote and a name, unless a second quote makes it a character. -/
def lifetime : Recogniser
  | '\'' :: r => do
    let n ← anyName r
    match r.drop n with
    | '\'' :: _ => none
    | '#' :: _ => if startsWith "r#" r then some (n + 1) else none
    | _ => some (n + 1)
  | _ => none

/-- The rest of a block comment after its opening; `depth` comments are open around this one. -/
def blockRest (depth : Nat) : Recogniser
  | '*' :: '/' :: r =>
    match depth with
    | 0 => some 2
    | d + 1 => (blockRest d r).map (· + 2)
  | '/' :: '*' :: r => (blockRest (depth + 1) r).map (· + 2)
  | _ :: r => (blockRest depth r).map (· + 1)
  | [] => none

def blockComment (s : Chars) : Option Nat := after 2 (blockRest 0) s

def lineLength (s : Chars) : Nat := (s.takeWhile (· != '\n')).length

def comment (s : Chars) : Option Nat :=
  if startsWith "//" s && (!startsWith "///" s || startsWith "////" s) && !startsWith "//!" s then
    some (lineLength s)
  else if startsWith "/**/" s then some 4
  else if startsWith "/*" s && (!startsWith "/**" s || startsWith "/***" s) && !startsWith "/*!" s then
    blockComment s
  else none

structure Doc where
  inner : Bool
  body : Chars
  length : Nat

def carriageOk : Chars → Bool
  | '\r' :: '\n' :: r => carriageOk r
  | '\r' :: _ => false
  | _ :: r => carriageOk r
  | [] => true

/-- The text of a line, without the carriage return of its end. -/
def lineBody (s : Chars) : Chars :=
  let line := s.takeWhile (· != '\n')
  if line.length < s.length && line.getLast? == some '\r' then line.dropLast else line

def doc? (s : Chars) : Option Doc :=
  let line (inner : Bool) : Option Doc := some ⟨inner, lineBody (s.drop 3), lineLength s⟩
  let block (inner : Bool) : Option Doc := do
    let n ← blockComment s
    some ⟨inner, (s.take (n - 2)).drop 3, n⟩
  let found :=
    if startsWith "//!" s then line true
    else if startsWith "/*!" s then block true
    else if startsWith "///" s && !startsWith "////" s then line false
    else if startsWith "/**" s && !startsWith "/***" s then block false
    else none
  found.filter fun d => carriageOk d.body

def Doc.attribute (d : Doc) : Trees :=
  [op "#"] ++ (if d.inner then [op "!"] else []) ++
    [.group .bracket [word "doc", op "=", lit (stringLiteral (String.ofList d.body))]]

inductive Lexeme
  | trees (ts : Trees)
  | opening (d : Delim)
  | closing (d : Delim)

def isSpace (c : Char) : Bool := isBlank c || c.toNat == 0x200e || c.toNat == 0x200f

/-- What follows blanks and comments; `fuel` may be the length. -/
def skipBlanks : (fuel : Nat) → Chars → Chars
  | _, [] => []
  | 0, s => s
  | fuel + 1, c :: r =>
    if isSpace c then skipBlanks fuel r
    else match comment (c :: r) with
      | some n => skipBlanks fuel ((c :: r).drop n)
      | none => c :: r

def delimiter? : Char → Option Lexeme
  | '(' => some (.opening .paren)
  | '[' => some (.opening .bracket)
  | '\x7b' => some (.opening .brace)
  | ')' => some (.closing .paren)
  | ']' => some (.closing .bracket)
  | '\x7d' => some (.closing .brace)
  | _ => none

def token? (s : Chars) : Option (Token × Nat) :=
  let textOf (n : Nat) := String.ofList (s.take n)
  (literal s).map (fun n => (.literal (textOf n), n)) <|>
  (lifetime s).map (fun n => (.lifetime (textOf n), n)) <|>
  (match s with
    | c :: r => if isPunct s && c != '\'' then some (.punct (String.singleton c) (isPunct r), 1) else none
    | [] => none) <|>
  (name s).map (fun n => (.ident (textOf n), n))

/-- The lexeme at the front and its length; blanks and comments are a lexeme without trees. -/
def lexeme? (s : Chars) : Option (Lexeme × Nat) :=
  match s with
  | [] => none
  | c :: _ =>
    if isSpace c then some (.trees [], 1)
    else match comment s with
      | some n => some (.trees [], n)
      | none => match doc? s with
        | some d => some (.trees d.attribute, d.length)
        | none => match delimiter? c with
          | some l => some (l, 1)
          | none => (token? s).map fun (t, n) => (.trees [.leaf t], n)

/-- Reads lexemes to the end of the text.  Each takes at least one character, so `fuel` may be the length. -/
def lexemes : (fuel : Nat) → Chars → Option (List Lexeme)
  | _, [] => some []
  | 0, _ :: _ => none
  | fuel + 1, s => do
    let (l, n) ← lexeme? s
    let rest ← lexemes fuel (s.drop n)
    some (l :: rest)

/-- An open group: its delimiter and the trees before it, in reverse. -/
abbrev Open := Delim × Trees

/-- Builds groups; `acc` holds the trees of the innermost open group, in reverse. -/
def nest (stack : List Open) (acc : Trees) : List Lexeme → Option Trees
  | [] => if stack.isEmpty then some acc.reverse else none
  | .trees ts :: rest => nest stack (ts.reverse ++ acc) rest
  | .opening d :: rest => nest ((d, acc) :: stack) [] rest
  | .closing d :: rest =>
    match stack with
    | [] => none
    | (e, before) :: outer => if d = e then nest outer (.group d acc.reverse :: before) rest else none

end Lexer

/-- The unparsed trees of a source text; a byte order mark at its front is skipped. -/
def lex (source : String) : Option Trees :=
  let s := match source.toList with
    | '\ufeff' :: r => r
    | s => s
  (Lexer.lexemes s.length s).bind (Lexer.nest [] [])

end Retype.Code
