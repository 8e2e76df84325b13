import Retype.Text.Chars

/-! Text between double quotes with escapes, as it stands in source code and in messages. -/

namespace Retype.Text

def hex (n : Nat) : List Char := Nat.toDigits 16 n

def escapeChar (c : Char) : List Char :=
  match c with
  | '\t' => ['\\', 't']
  | '\r' => ['\\', 'r']
  | '\n' => ['\\', 'n']
  | '"' => ['\\', '"']
  | '\\' => ['\\', '\\']
  | c =>
    if c.toNat = 0 then ['\\', '0']
    else if isPlain c then [c]
    else ['\\', 'u', '\x7b'] ++ hex c.toNat ++ ['\x7d']

def quoted (s : String) : String :=
  String.ofList ('"' :: s.toList.flatMap escapeChar ++ ['"'])

def isOctal (c : Char) : Bool := '0' ≤ c && c ≤ '7'

/-- The body of a string literal.  A zero character before an octal digit is written out in full, so that
the digit is not read as part of the escape. -/
def literalBody : List Char → List Char
  | [] => []
  | c :: r =>
    (if c.toNat = 0 && r.head?.any isOctal then ['\\', 'x', '0', '0'] else escapeChar c) ++ literalBody r

/-- The string literal that denotes `s`. -/
def stringLiteral (s : String) : String :=
  String.ofList ('"' :: literalBody s.toList ++ ['"'])

end Retype.Text
