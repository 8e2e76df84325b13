import Retype.Text.Chars

/-! Upper camel case.  A text is cut into words at every character that is neither letter nor number, and
inside such a piece where the case changes: after a lower-case letter that an upper-case one follows, and
before the last capital of a run of capitals that a lower-case letter follows. -/

namespace Retype.Text

/-- The case of the last letter of the word so far; digits and caseless letters keep it. -/
inductive WordCase
  | start
  | lower
  | upper
  deriving DecidableEq, Repr

def WordCase.next (mode : WordCase) (c : Char) : WordCase :=
  if isLower c then .lower else if isUpper c then .upper else mode

/-- Cuts a piece into words; `acc` is the word so far, in reverse. -/
def caseWordsFrom (acc : List Char) (mode : WordCase) : List Char → List (List Char)
  | [] => if acc.isEmpty then [] else [acc.reverse]
  | [c] => [(c :: acc).reverse]
  | c :: d :: r =>
    if mode.next c = .lower && isUpper d then
      (c :: acc).reverse :: caseWordsFrom [] .start (d :: r)
    else if mode = .upper && isUpper c && isLower d then
      acc.reverse :: caseWordsFrom [c] .start (d :: r)
    else caseWordsFrom (c :: acc) (mode.next c) (d :: r)

def caseWords (piece : List Char) : List (List Char) := caseWordsFrom [] .start piece

/-- A final capital sigma has a lower case of its own. -/
def lowercaseWord : List Char → List Char
  | [] => []
  | ['Σ'] => ['ς']
  | c :: r => toLower c ++ lowercaseWord r

def capitalize : List Char → List Char
  | [] => []
  | c :: r => toUpper c ++ lowercaseWord r

/-- The pieces between characters that are neither letters nor numbers. -/
def pieces (s : List Char) : List (List Char) := s.splitOnP fun c => !isAlphanumeric c

def upperCamel (s : String) : String :=
  String.ofList ((pieces s.toList).flatMap fun piece => (caseWords piece).flatMap capitalize)

end Retype.Text
