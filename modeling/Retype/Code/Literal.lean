import Retype.Code.Lexer

/-! The values of literals.  A literal stays in the tree as it was written; here it is read. -/

namespace Retype.Code.Literal
open Retype.Text

inductive Class
  | text | bytes | terminated | byte | character | integer | float
  deriving DecidableEq, Repr

/-- The class of a literal, seen from its first characters. -/
def classOf : List Char → Option Class
  | '"' :: _ => some .text
  | 'r' :: _ => some .text
  | 'b' :: '\'' :: _ => some .byte
  | 'b' :: _ => some .bytes
  | 'c' :: _ => some .terminated
  | '\'' :: _ => some .character
  | '-' :: r => number r
  | s => number s
where
  number (s : List Char) : Option Class :=
    if !s.head?.any Char.isDigit then none
    else if (Lexer.float s).isSome then some .float
    else some .integer

/-- Line breaks in text are read as a line feed. -/
def skipBlank (s : List Char) : List Char :=
  s.dropWhile fun c => c == ' ' || c == '\t' || c == '\n' || c == '\r'

/-- The text of a quoted body up to its closing quote; `fuel` may be the length. -/
def unescape : (fuel : Nat) → List Char → List Char
  | 0, _ => []
  | fuel + 1, s =>
    match s with
    | [] => []
    | '"' :: _ => []
    | '\r' :: '\n' :: r => '\n' :: unescape fuel r
    | '\\' :: 'n' :: r => '\n' :: unescape fuel r
    | '\\' :: 'r' :: r => '\r' :: unescape fuel r
    | '\\' :: 't' :: r => '\t' :: unescape fuel r
    | '\\' :: '0' :: r => Char.ofNat 0 :: unescape fuel r
    | '\\' :: 'x' :: a :: b :: r =>
      Char.ofNat (Lexer.hexValue a * 16 + Lexer.hexValue b) :: unescape fuel r
    | '\\' :: 'u' :: '\x7b' :: r =>
      let digits := r.takeWhile (· != '\x7d')
      Char.ofNat ((Lexer.unicodeEscape? digits).getD 0) :: unescape fuel (r.drop (digits.length + 1))
    | '\\' :: '\n' :: r => unescape fuel (skipBlank r)
    | '\\' :: '\r' :: r => unescape fuel (skipBlank r)
    | '\\' :: c :: r => c :: unescape fuel r
    | c :: r => c :: unescape fuel r

/-- The body of a raw literal: after the hash signs and the quote, up to the quote before as many. -/
def rawBody (s : List Char) : List Char :=
  let hashes := (s.takeWhile (· == '#')).length
  let r := s.drop (hashes + 1)
  match Lexer.rawRest Lexer.Escapes.text hashes r with
  | some n => r.take (n - hashes - 1)
  | none => r

def stringValue? (literal : String) : Option String :=
  match literal.toList with
  | '"' :: r => some (String.ofList (unescape (r.length + 1) r))
  | 'r' :: r => some (String.ofList (rawBody r))
  | _ => none

/-- The magnitude of an integer literal, its suffix aside. -/
def natValue? (literal : List Char) : Option Nat :=
  if classOf literal != some .integer then none
  else do
    let n ← Lexer.intDigits literal
    let digits := (literal.take n).filter (· != '_')
    let (base, ds) := match digits with
      | '0' :: 'x' :: ds => (16, ds)
      | '0' :: 'o' :: ds => (8, ds)
      | '0' :: 'b' :: ds => (2, ds)
      | ds => (10, ds)
    some (ds.foldl (fun v c => v * base + Lexer.hexValue c) 0)

/-- The value of an integer literal, which may carry a minus sign. -/
def intValue? (literal : String) : Option Int :=
  match literal.toList with
  | '-' :: r => (natValue? r).map fun n => -(n : Int)
  | s => (natValue? s).map fun n => (n : Int)

end Retype.Code.Literal
