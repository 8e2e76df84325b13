import Retype.Code.Form
import Retype.Format.Layout

/-! Layout of code that is not parsed: the bodies of macro calls, the rules of macro definitions and the
arguments of attributes.  What stands between two tokens is told from the tokens around it. -/

namespace Retype.Format
open Retype.Code

/-- What the tokens so far say about the blank before the next one. -/
inductive Context
  | start | dollar | dollarName | dollarColon | repetition | separator | pound | poundBang | dot | colon
  | colons | name | nameBang | closed | other
  deriving DecidableEq, Repr

/-- Words that do not stand for a value or a type. -/
def structuralWords : List String :=
  ["as", "async", "await", "box", "break", "const", "continue", "crate", "dyn", "else", "enum", "extern",
   "fn", "for", "if", "impl", "in", "let", "loop", "macro", "match", "mod", "move", "mut", "pub", "ref",
   "return", "static", "struct", "trait", "type", "unsafe", "use", "where", "while", "yield"]

/-- Whether a blank stands before the token, and the context after it; `matcher` holds in the pattern of a
macro rule. -/
def Context.next (matcher : Bool) (c : Context) (t : Tree) : Bool × Context :=
  match c, t with
  | .dollar, .leaf (.ident _) => (false, if matcher then .dollarName else .other)
  | .dollarName, .leaf (.punct ":" false) => (false, .dollarColon)
  | .dollarColon, .leaf (.ident _) => (false, .other)
  | .repetition, .leaf (.punct _ true) => (false, .repetition)
  | .repetition, .leaf (.punct p false) =>
    (false, if p == "+" || p == "*" || p == "?" then .other else .separator)
  | .repetition, .leaf (.ident _) => (false, .separator)
  | .repetition, .leaf (.literal _) => (false, .separator)
  | .separator, .leaf (.punct "+" _) => (false, .other)
  | .separator, .leaf (.punct "*" _) => (false, .other)
  | .pound, .leaf (.punct "!" _) => (false, .poundBang)
  | .dollar, .group .paren _ => (false, .repetition)
  | .pound, .group .bracket _ => (false, .other)
  | .poundBang, .group .bracket _ => (false, .other)
  | .name, .group .paren _ => (false, .closed)
  | .name, .group .bracket _ => (false, .closed)
  | .name, .leaf (.punct "!" false) => (false, .nameBang)
  | .nameBang, .group .paren _ => (false, .other)
  | .nameBang, .group .bracket _ => (false, .other)
  | .colon, .leaf (.punct ":" _) => (false, .colons)
  | _, .group .brace _ => (true, .other)
  | _, .group _ _ => (true, .closed)
  | c, .leaf (.ident n) =>
    if structuralWords.contains n then (true, .other) else (c != .dot && c != .colons, .name)
  | c, .leaf (.literal l) => (c != .dot, if l.toList.getLast? == some '.' then .other else .name)
  | _, .leaf (.punct "," _) => (false, .other)
  | _, .leaf (.punct ";" _) => (false, .other)
  | c, .leaf (.punct p joint) =>
    if p == "." && !matcher then (c != .name && c != .closed, .dot)
    else if p == ":" && joint then (c != .name, .colon)
    else if p == "$" then (true, .dollar)
    else if p == "#" then (true, .pound)
    else (true, .other)
  | _, _ => (true, .other)

def isDot (t : Tree) : Bool := t.isOp "."

def gapBefore (joint spaced : Bool) (t : Tree) : Run :=
  if joint then [] else if spaced then blank else if isDot t then zero else []

def joinsNext : Tree → Bool
  | .leaf (.punct p joint) => joint || p == "$"
  | _ => false

def quoteMark : Tree := .leaf (.punct "'" true)

def opening : Delim → String
  | .paren => "("
  | .bracket => "["
  | .brace => "\x7b"

def closing : Delim → String
  | .paren => ")"
  | .bracket => "]"
  | .brace => "\x7d"

def padding (d : Delim) : Run := if d = .brace then blank else []

mutual
def rawToken (matcher : Bool) : Tree → Run
  | .leaf token => text token.word.text
  | .group d body =>
    text (opening d) ++ (if body.isEmpty then [] else padding d ++ rawFrom matcher .start true body ++ padding d) ++
      text (closing d)
  | t@(.node _ _) => text t.text

/-- Unparsed code after what `c` and `joint` tell. -/
def rawFrom (matcher : Bool) (c : Context) (joint : Bool) : List Tree → Run
  | [] => []
  | .leaf (.lifetime n) :: ts =>
    let (spaced, quoted) := c.next matcher quoteMark
    let named := (quoted.next matcher (word (n.drop 1).toString)).2
    gapBefore joint spaced quoteMark ++ text n ++ rawFrom matcher named false ts
  | t :: ts =>
    let (spaced, after) := c.next matcher t
    gapBefore joint spaced t ++ rawToken matcher t ++ rawFrom matcher after (joinsNext t) ts
end

def raw (matcher : Bool) (ts : Trees) : Run := rawFrom matcher .start true ts

def simplePath (path : Tree) : Run :=
  path.parts.flatMap fun
    | .node .segment (name :: _) => text name.text
    | t => text t.text

def rawBody (edge : Run) (matcher : Bool) (body : Trees) : Run :=
  if body.isEmpty then [] else indented (edge ++ filled 0 (raw matcher body) ++ edge)

def macroArguments (d : Delim) (body : Trees) : Run :=
  match d with
  | .brace => text " \x7b" ++ rawBody newline false body ++ text "\x7d"
  | d => text (opening d) ++ rawBody zero false body ++ text (closing d)

def macroRules : Trees → Run
  | .group d pattern :: eq :: arrow :: .group _ body :: rest =>
    let rule := text (opening d) ++ rawBody zero true pattern ++ text (closing d) ++
      text (" " ++ eq.text) ++ text arrow.text ++ text " \x7b" ++ noBreak ++ rawBody newline false body ++
      text "\x7d;" ++ newline
    match rest with
    | [] => rule
    | _ :: rest => rule ++ macroRules rest
  | _ => []

/-- A macro call, or a definition by rules; `ended` asks for the semicolon that braces do without. -/
def macroCall (ended : Bool) (call : Tree) : Run :=
  match call.parts with
  | [path, _, .group d body] => simplePath path ++ text "!" ++ macroArguments d body ++ semicolon d
  | [path, _, name, .group d body] =>
    if path.pathIdent? == some "macro_rules" then
      text "macro_rules! " ++ text name.text ++ text " \x7b" ++ indented (innerNewline ++ macroRules body) ++ text "\x7d"
    else simplePath path ++ text "! " ++ text name.text ++ macroArguments d body ++ semicolon d
  | _ => text call.text
where
  semicolon (d : Delim) : Run := if ended && d != .brace then text ";" else []

inductive ArgContext
  | word | punct | comma
  deriving DecidableEq, Repr

mutual
def argGroup : Tree → Run
  | .group .paren body =>
    let (inside, last) := argsFrom .punct body
    text "(" ++ indented (zero ++ inside ++ (if last = .comma then [] else zero)) ++ text ")"
  | .group .brace body => text "\x7b" ++ (argsFrom .punct body).1 ++ text "\x7d"
  | .group .bracket body => text "[" ++ (argsFrom .punct body).1 ++ text "]"
  | .leaf token => text token.word.text
  | t@(.node _ _) => text t.text

def argsFrom (c : ArgContext) : List Tree → Run × ArgContext
  | [] => ([], c)
  | t :: ts =>
    match t with
    | .leaf (.punct p _) =>
      let front := if c = .word ∧ p = "=" then text " " else []
      if p = "," ∧ ts.isEmpty then (front ++ lastComma, .comma)
      else
        let back := if p = "=" then text " " else if p = "," then blank else []
        let (rest, last) := argsFrom .punct ts
        (front ++ text p ++ back ++ rest, last)
    | .group _ _ =>
      let (rest, last) := argsFrom .punct ts
      (argGroup t ++ rest, last)
    | .leaf (.lifetime n) =>
      let (rest, last) := argsFrom .word ts
      (text n ++ rest, last)
    | _ =>
      let (rest, last) := argsFrom .word ts
      ((if c = .word then blank else []) ++ argGroup t ++ rest, last)
end

end Retype.Format
