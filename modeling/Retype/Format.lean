import Retype.Code.Grammar
import Retype.Format.Expr
import Retype.Format.Item
import Retype.Format.Verbatim

/-! The formatted text of a file.  Layouts call one another only for what is nested in the code that they lay
out, so as many levels of layouts as the code has parts are enough. -/

namespace Retype.Format
open Retype.Code

/-- Layouts for code of so many levels of nesting. -/
def layouts : (levels : Nat) → Layouts
  | 0 => Layouts.none
  | levels + 1 =>
    let f := layouts levels
    { expr := expr f
      chain := chain f
      type := type f
      args := pathArguments f
      bound := bound f
      pattern := pattern f
      stmt := stmt f
      item := item f }

/-- The formatted text of a file: the line that names its interpreter, its attributes and its items. -/
def file (interpreter : Option String) (parts : Trees) : String :=
  let f := layouts (2 * Trees.size parts + 2)
  let first := match interpreter with
    | some line => text line ++ newline
    | none => []
  render (aligned 0 (first ++ innerAttributes f parts ++ (withoutAttributes parts).flatMap (item f)))

/-- The formatted text of a file; there is none if the process dies of laying it out. -/
def unparse? (interpreter : Option String) (parts : Trees) : Option String :=
  if holdVerbatim none parts then none else some (file interpreter parts)

/-- The text that code is written as: formatted if it is the code of a file, and else its token text. -/
def code? (tokens : Trees) : Option String :=
  match parseAll Grammar.file (Trees.raw tokens) with
  | some parts => unparse? none parts
  | none => some (Trees.text tokens)

end Retype.Format
