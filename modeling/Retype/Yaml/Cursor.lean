/-! A place in a text, and the characters that YAML tells apart.  Five characters end a line; a carriage return
and the line feed after it are one end. -/

namespace Retype.Yaml

structure Cursor where
  rest : List Char
  index : Nat := 0
  line : Nat := 0
  column : Nat := 0

def isBlank (c : Char) : Bool := c == ' ' || c == '\t'

def isBreak (c : Char) : Bool :=
  c == '\n' || c == '\r' || c == '\u0085' || c == '\u2028' || c == '\u2029'

def isNameChar (c : Char) : Bool := c.isAlphanum || c == '-' || c == '_'

def isAllowed (c : Char) : Bool :=
  let n := c.toNat
  c == '\t' || c == '\n' || c == '\r' || (0x20 ≤ n && n ≤ 0x7E) || n == 0x85 || (0xA0 ≤ n && n != 0xFEFF && n ≤ 0xFFFD) ||
    0x10000 ≤ n

def breakText (c : Char) : Char := if c == '\u2028' || c == '\u2029' then c else '\n'

namespace Cursor

def peek (c : Cursor) (n : Nat) : Option Char := (c.rest.drop n).head?

def looksAt (c : Cursor) (test : Char → Bool) (n : Nat) : Bool := (c.peek n).any test

def isAt (c : Cursor) (ch : Char) : Bool := c.peek 0 == some ch

/-- A blank, a line end or the end of the text stands `n` characters ahead. -/
def endsWordAt (c : Cursor) (n : Nat) : Bool := (c.peek n).all fun ch => isBlank ch || isBreak ch

def skip (c : Cursor) (n : Nat) : Cursor := ⟨c.rest.drop n, c.index + n, c.line, c.column + n⟩

def skipBreak (c : Cursor) : Cursor :=
  match c.rest with
  | '\r' :: '\n' :: r => ⟨r, c.index + 2, c.line + 1, 0⟩
  | _ :: r => ⟨r, c.index + 1, c.line + 1, 0⟩
  | [] => c

/-- The longest run of characters that pass the test, and the place after it. -/
def span (c : Cursor) (test : Char → Bool) : List Char × Cursor :=
  let run := c.rest.takeWhile test
  (run, c.skip run.length)

def skipWhile (c : Cursor) (test : Char → Bool) : Cursor := (c.span test).2

/-- Three of a character and the end of a word at the start of a line. -/
def isMarker (c : Cursor) (ch : Char) : Bool :=
  c.column == 0 && (c.rest.take 3) == [ch, ch, ch] && c.endsWordAt 3

def startsDocument (c : Cursor) : Bool := c.isMarker '-'

def endsDocument (c : Cursor) : Bool := c.isMarker '.'

/-- Passes a comment, up to the end of its line. -/
def skipComment (c : Cursor) : Cursor := if c.isAt '#' then c.skipWhile fun ch => !isBreak ch else c

end Cursor
end Retype.Yaml
