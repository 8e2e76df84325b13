import Retype.Code.Tree

/-! Parsers over unparsed trees.  A parser takes trees from the front of its input and answers what it built
and what is left; `failure` leaves the choice to an alternative. -/

namespace Retype.Code

abbrev Parser := StateT Trees Option

def Parser.all {α : Type} (p : Parser α) (input : Trees) : Option α :=
  match p.run input with
  | some (a, []) => some a
  | _ => none

namespace Parser

/-- Tests the input without taking from it. -/
def peek (test : Trees → Bool) : Parser Bool := fun s => some (test s, s)

def atEnd : Parser Bool := peek List.isEmpty

/-- Takes the front tree if it passes the test. -/
def take (test : Tree → Bool) : Parser Tree
  | t :: ts => if test t then some (t, ts) else none
  | [] => none

/-- Parses if the input looks right, and answers `absent` otherwise. -/
def optional (test : Trees → Bool) (p : Parser Tree) : Parser Tree := do
  if ← peek test then p else pure Tree.absent

/-- Runs `step` until the input is used up or `stop` holds before a step; `fuel` bounds the number of steps,
and as each step has to take something the length of the input is enough. -/
def loop (stop : Trees → Bool) (step : Parser Trees) : (fuel : Nat) → Parser Trees
  | 0 => fun s => if s.isEmpty || stop s then some ([], s) else none
  | fuel + 1 => do
    if ← peek fun s => s.isEmpty || stop s then pure []
    else do
      let first ← step
      let rest ← loop stop step fuel
      pure (first ++ rest)

def never : Trees → Bool := fun _ => false

def many (step : Parser Trees) : Parser Trees := fun s => loop never step s.length s

def manyWhile (more : Trees → Bool) (step : Parser Trees) : Parser Trees := fun s =>
  loop (fun s => !more s) step s.length s

/-- The operator stands in front: its characters in a row, all but the last joint. -/
def opIn : List Char → Trees → Bool
  | [], _ => true
  | [c], .leaf (.punct t _) :: _ => t == String.singleton c
  | c :: d :: r, .leaf (.punct t true) :: ts => t == String.singleton c && opIn (d :: r) ts
  | _, _ => false

def isOp (text : String) (s : Trees) : Bool := opIn text.toList s

/-- An operator of one sign is the first token. -/
theorem eq_of_isOp {text : String} {t : Tree} {s : Trees} (one : (text.toList.length == 1) = true)
    (h : isOp text (t :: s) = true) : ∃ joint, t = .leaf (.punct text joint) := by
  obtain ⟨c, single⟩ := List.length_eq_one_iff.mp (beq_iff_eq.mp one)
  have sign : text = String.singleton c := by rw [← String.toList_inj, single, String.toList_singleton]
  rw [isOp, single] at h
  refine Tree.eq_of_isOp ?_
  rw [sign]
  rcases t with (_ | _ | _ | _) | _ | _
  case leaf.punct => exact h
  all_goals cases h

def isWord (name : String) : Trees → Bool
  | .leaf (.ident n) :: _ => n == name
  | _ => false

def isAnyWord : Trees → Bool
  | .leaf (.ident _) :: _ => true
  | _ => false

theorem eq_of_isAnyWord {t : Tree} {s : Trees} (h : isAnyWord (t :: s) = true) : ∃ n, t = .leaf (.ident n) := by
  rcases t with (n | _ | _ | _) | _ | _
  case leaf.ident => exact ⟨n, rfl⟩
  all_goals cases h

theorem isAnyWord_of_isWord {name : String} {t : Tree} {s : Trees} (h : isWord name (t :: s) = true) :
    isAnyWord (t :: s) = true := by
  rcases t with (_ | _ | _ | _) | _ | _
  case leaf.ident => rfl
  all_goals cases h

def keywords : List String :=
  ["_", "abstract", "as", "async", "await", "become", "box", "break", "const", "continue", "crate", "do",
   "dyn", "else", "enum", "extern", "false", "final", "fn", "for", "if", "impl", "in", "let", "loop",
   "macro", "match", "mod", "move", "mut", "override", "priv", "pub", "ref", "return", "Self", "self",
   "static", "struct", "super", "trait", "true", "try", "type", "typeof", "unsafe", "unsized", "use",
   "virtual", "where", "while", "yield"]

def isIdent : Trees → Bool
  | .leaf (.ident n) :: _ => !keywords.contains n
  | _ => false

theorem isAnyWord_of_isIdent {t : Tree} {s : Trees} (h : isIdent (t :: s) = true) : isAnyWord (t :: s) = true := by
  rcases t with (_ | _ | _ | _) | _ | _
  case leaf.ident => rfl
  all_goals cases h

def isLifetime : Trees → Bool
  | .leaf (.lifetime _) :: _ => true
  | _ => false

def isGroup (d : Delim) : Trees → Bool
  | .group e _ :: _ => d == e
  | _ => false

def isAnyGroup : Trees → Bool
  | .group _ _ :: _ => true
  | _ => false

def isNumber (text : String) : Bool := text.toList.head?.any Char.isDigit

/-- A literal stands in front: a literal token, a truth value, or a number after a minus sign. -/
def isLit : Trees → Bool
  | .leaf (.literal _) :: _ => true
  | .leaf (.ident n) :: _ => n == "true" || n == "false"
  | .leaf (.punct "-" _) :: .leaf (.literal t) :: _ => isNumber t
  | _ => false

/-- The test holds after `n` trees. -/
def ahead (n : Nat) (test : Trees → Bool) (s : Trees) : Bool := test (s.drop n)

def either (a b : Trees → Bool) : Trees → Bool := fun s => a s || b s

/-- A whole number as it names a tuple field. -/
def isIndex : Trees → Bool
  | .leaf (.literal t) :: _ => !t.isEmpty && t.toList.all Char.isDigit
  | _ => false

def eatOp (text : String) : Parser Tree := fun s =>
  if isOp text s then some (op text, s.drop text.length) else none

def eatWord (name : String) : Parser Tree := take fun t => isWord name [t]
def eatAnyWord : Parser Tree := take fun t => isAnyWord [t]
def eatIdent : Parser Tree := take fun t => isIdent [t]
def eatLifetime : Parser Tree := take fun t => isLifetime [t]

def optOp (text : String) : Parser Tree := optional (isOp text) (eatOp text)
def optWord (name : String) : Parser Tree := optional (isWord name) (eatWord name)

/-- A literal; a minus sign becomes part of the number. -/
def eatLit : Parser Tree
  | .leaf (.punct "-" _) :: .leaf (.literal t) :: s =>
    if isNumber t then some (lit ("-" ++ t), s) else none
  | t :: s => if isLit [t] then some (t, s) else none
  | [] => none

/-- Parses the body of the group in front. -/
def within (d : Delim) (p : Parser Trees) : Parser Tree
  | .group e body :: s => if d == e then (p.all body).map fun ts => (.group d ts, s) else none
  | _ => none

/-- Members up to the end of the input, with commas between them and possibly after the last. -/
def commaSeparated (member : Parser Tree) : Parser Trees := many do
  let m ← member
  if ← atEnd then pure [m] else pure [m, ← eatOp ","]

/-- Members while `more` holds, with commas between them and possibly after the last. -/
def commaSeparatedWhile (more : Trees → Bool) (member : Parser Tree) : Parser Trees :=
  manyWhile more do
    let m ← member
    if ← peek more then pure [m, ← eatOp ","] else pure [m]

def joined (sep : String) (more : Trees → Bool) (member : Parser Tree) : Parser Trees := do
  let first ← member
  let rest ← manyWhile (isOp sep) do
    let o ← eatOp sep
    if ← peek more then pure [o, ← member] else pure [o]
  pure (first :: rest)

end Parser

/-- The parsers that the rules of the grammar call for what is nested in them. -/
structure Rules where
  /-- An expression; struct literals may be ruled out. -/
  expr : (structs : Bool) → Parser Tree
  /-- An operand with its prefix operators. -/
  operand : (structs : Bool) → Parser Tree
  /-- An expression in the place of a statement or of the body of an arm. -/
  statement : Parser Tree
  /-- A type; a bare sum of bounds may be ruled out. -/
  type : (sums : Bool) → Parser Tree
  /-- One bound of a type. -/
  bound : Parser Tree
  /-- A pattern without alternatives. -/
  pattern : Parser Tree
  /-- A block with its braces. -/
  block : Parser Tree
  /-- An item. -/
  item : Parser Tree

/-- Rules that accept nothing. -/
def Rules.none : Rules where
  expr _ := failure
  operand _ := failure
  statement := failure
  type _ := failure
  bound := failure
  pattern := failure
  block := failure
  item := failure

end Retype.Code
