import Retype.Text.Quoted

/-! JSON as it is written for people: two spaces for each level, and a line for each member. -/

namespace Retype.Text

inductive Json
  | text (s : String)
  | list (items : List Json)
  | record (fields : List (String × Json))

namespace Json

def twoHex (n : Nat) : List Char := if n < 16 then '0' :: hex n else hex n

def escapeChar (c : Char) : List Char :=
  match c with
  | '"' => ['\\', '"']
  | '\\' => ['\\', '\\']
  | '\n' => ['\\', 'n']
  | '\r' => ['\\', 'r']
  | '\t' => ['\\', 't']
  | '\x08' => ['\\', 'b']
  | '\x0c' => ['\\', 'f']
  | c => if c.toNat < 32 then ['\\', 'u', '0', '0'] ++ twoHex c.toNat else [c]

def quote (s : String) : String := "\"" ++ String.ofList (s.toList.flatMap escapeChar) ++ "\""

def newline (level : Nat) : String := "\n" ++ String.ofList (List.replicate (2 * level) ' ')

/-- Members on lines of their own between two marks; without members the marks stand together. -/
def enclose (opening closing : String) (level : Nat) : List String → String
  | [] => opening ++ closing
  | members =>
    opening ++ newline (level + 1) ++ ("," ++ newline (level + 1)).intercalate members ++ newline level ++ closing

mutual
/-- The text of a value that stands at a level. -/
def pretty (level : Nat) : Json → String
  | .text s => quote s
  | .list items => enclose "[" "]" level (prettyItems (level + 1) items)
  | .record fields => enclose "\x7b" "\x7d" level (prettyFields (level + 1) fields)

def prettyItems (level : Nat) : List Json → List String
  | [] => []
  | v :: vs => pretty level v :: prettyItems level vs

def prettyFields (level : Nat) : List (String × Json) → List String
  | [] => []
  | (k, v) :: vs => (quote k ++ ": " ++ pretty level v) :: prettyFields level vs
end

end Json
end Retype.Text
