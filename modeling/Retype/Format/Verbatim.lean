import Retype.Code.Form

/-! Code that has no layout.  The parser of the formatter takes some declarations that stand where they may not, or
lack what they need, but keeps no more of them than their tokens, and the process dies of laying such tokens out. -/

namespace Retype.Format
open Retype.Code

/-- Whether a member is kept as its tokens alone, in an item of a kind or in none. -/
def isVerbatim (home : Option ItemKind) : Tree → Bool
  | .node (.item .verbatim) _ => true
  | .node (.item .method) [_, vis, given, _, body] =>
    match home with
    | some .trait => vis.isPresent || given.isPresent
    | some .foreignMod => given.isPresent || !body.isOp ";"
    | _ => body.isOp ";"
  | .node (.item .const) [_, _, _, _, params, _, _, _, _, _] => params.isPresent
  | .node (.item .const) [_, vis, given, _, _, params, _, _, _, value, _] =>
    params.isPresent ||
      match home with
      | some .trait => vis.isPresent || given.isPresent
      | _ => value.isAbsent
  | .node (.item .static) [_, _, given, _, _, _, _, _, _] => given.isPresent
  | .node (.item .typeAlias) [_, vis, given, _, _, _, colon, _, _, eq, _, _, _] =>
    match home with
    | some .trait => vis.isPresent || given.isPresent
    | some .foreignMod => given.isPresent || colon.isPresent || eq.isPresent
    | _ => colon.isPresent || eq.isAbsent
  | .node (.pat .boxed) _ => true
  | .node (.pat .ident) (_ :: boxed :: _) => boxed.isPresent
  | _ => false

/-- The item that the parts of a node stand in. -/
def homeOf : Kind → Option ItemKind
  | .item k => some k
  | _ => none

mutual
def holdsVerbatim (home : Option ItemKind) : Tree → Bool
  | .leaf _ => false
  | .group _ body => holdVerbatim home body
  | .node k parts => isVerbatim home (.node k parts) || holdVerbatim (homeOf k) parts

def holdVerbatim (home : Option ItemKind) : List Tree → Bool
  | [] => false
  | t :: ts => holdsVerbatim home t || holdVerbatim home ts
end

end Retype.Format
