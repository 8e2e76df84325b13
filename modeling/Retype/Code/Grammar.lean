import Retype.Code.Grammar.Item
import Retype.Code.Lexer

/-! Parsing source text.  The rules of the grammar call one another only for what lies deeper in the code, so
as many levels of rules as the code has tokens are enough for any input. -/

namespace Retype.Code

open Grammar in
/-- Rules that admit `levels` levels of nesting. -/
def rules : (levels : Nat) → Rules
  | 0 => Rules.none
  | levels + 1 =>
    let g := rules levels
    { expr := Grammar.expr g
      operand := Grammar.operand g
      statement := statementExpr g
      type := Grammar.type g
      bound := Grammar.bound g
      pattern := Grammar.pattern g
      block := Grammar.block g
      item := Grammar.item g }

def levelsFor (s : Trees) : Nat := 2 * Trees.size s + 4

/-- Parses all of the trees by a rule of the grammar. -/
def parseAll {α : Type} (rule : Rules → Parser α) (s : Trees) : Option α :=
  (rule (rules (levelsFor s))).all s

def parseText {α : Type} (rule : Rules → Parser α) (source : String) : Option α :=
  (lex source).bind (parseAll rule)

def parseExpr : String → Option Tree := parseText (Grammar.expr · true)
def parseType : String → Option Tree := parseText (Grammar.type · true)
def parsePath : String → Option Tree := parseText (Grammar.path · false)
def parseBlock : String → Option Tree := parseText Grammar.plainBlock
def parseIdent : String → Option Tree := parseText fun _ => Parser.eatIdent

def parsePathExpr : String → Option Tree := parseText fun g => do
  let attrs ← Grammar.outerAttributes g
  pure (.node (.expr .path) [attrs, ← Grammar.qualifiedPath g true])

def parseFn : String → Option Tree := parseText fun g => do
  let attrs ← Grammar.outerAttributes g
  let vis ← Grammar.visibility
  Grammar.fnItem g attrs vis

/-- The line that names the interpreter of a file, and the rest of its text. -/
def splitInterpreter (source : String) : Option String × String :=
  let s := match source.toList with
    | '\ufeff' :: r => r
    | s => s
  match s with
  | '#' :: '!' :: r =>
    if (Lexer.skipBlanks r.length r).head? == some '[' then (none, String.ofList s)
    else (some (String.ofList (s.takeWhile (· != '\n'))), String.ofList (s.dropWhile (· != '\n')))
  | s => (none, String.ofList s)

/-- The items of a file, with the attributes of the file in front. -/
def parseFile (source : String) : Option Trees := parseText Grammar.file (splitInterpreter source).2

end Retype.Code
