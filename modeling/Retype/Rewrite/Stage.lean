import Retype.Rewrite.Access
import Retype.Rewrite.Flow
import Retype.Rewrite.Call

/-! Stages.  A stage walks a block once, from the outside in: at each block, statement and expression the
first of its rewriters that applies is used, once, and the walk goes on in what it made.  Macro calls stay
closed, except `vec!` with a list of expressions. -/

namespace Retype.Rewrite
open Retype.Code

inductive Rewriter
  | metaAccess | accessorGet | accessorSet | importGuard | controlFlow | functionRename | inlineFunction
  | compositeLiteral
  deriving DecidableEq, Repr

namespace Rewriter

def all : List Rewriter :=
  [.metaAccess, .accessorGet, .accessorSet, .importGuard, .controlFlow, .functionRename, .inlineFunction,
   .compositeLiteral]

def label : Rewriter → String
  | .metaAccess => "meta"
  | .accessorGet => "accessor_get"
  | .accessorSet => "accessor_set"
  | .importGuard => "import_guard"
  | .controlFlow => "control_flow"
  | .functionRename => "function_rename"
  | .inlineFunction => "inline_function"
  | .compositeLiteral => "composite_literal"

def ofLabel (s : String) : Option Rewriter := all.find? fun r => r.label == s

/-- The tree that takes the place of a node, or `none` if the rewriter does not apply to it. -/
def apply (r : Rewriter) (c : Context) (t : Tree) : Run (Option Tree) :=
  match r with
  | .metaAccess => Rewrite.metaAccess c t
  | .accessorGet => Rewrite.accessorGet c t
  | .accessorSet => Rewrite.accessorSet c t
  | .importGuard => Rewrite.importGuard c t
  | .controlFlow => Rewrite.controlFlow c t
  | .functionRename => Rewrite.functionRename c t
  | .inlineFunction => Rewrite.inlineFunction c t
  | .compositeLiteral => Rewrite.compositeLiteral c t

end Rewriter

abbrev Stage := List Rewriter

/-- Blocks, statements and expressions are offered to the rewriters. -/
def isOffered : Tree → Bool
  | .node .block _ => true
  | .node (.stmt _) _ => true
  | .node (.expr _) _ => true
  | _ => false

def Stage.rewriteFirst (c : Context) : Stage → Tree → Run Tree
  | [], t => pure t
  | r :: rs, t => do
    match ← r.apply c t with
    | some t => pure t
    | none => rewriteFirst c rs t

def Stage.offer (stage : Stage) (c : Context) (t : Tree) : Run Tree :=
  if isOffered t then stage.rewriteFirst c t else pure t

mutual
/-- Puts parentheses around the struct literals that stand in no delimiters. -/
def shield : Tree → Tree
  | .node (.expr .structLit) parts => parenOf (.node (.expr .structLit) parts)
  | .node k parts => .node k (shieldAll parts)
  | t => t

def shieldAll : List Tree → List Tree
  | [] => []
  | t :: ts => shield t :: shieldAll ts
end

/-- In front of a block no struct literal may stand open, and a field that is called needs parentheses. -/
def regroup : Kind → Trees → Trees
  | .expr .ifElse, [attrs, w, cond, body, other] => [attrs, w, shield cond, body, other]
  | .expr .whileLoop, [attrs, label, w, cond, body] => [attrs, label, w, shield cond, body]
  | .expr .matchOn, [attrs, w, scrutinee, arms] => [attrs, w, shield scrutinee, arms]
  | .expr .forLoop, [attrs, label, w, pat, inWord, items, body] =>
    [attrs, label, w, pat, inWord, shield items, body]
  | .expr .call, [attrs, .node (.expr .field) [a, base, dot, .leaf (.ident n)], args] =>
    [attrs, parenOf (.node (.expr .field) [a, base, dot, .leaf (.ident n)]), args]
  | _, parts => parts

/-- The elements of a `vec!` call; of any other call, and of a body that is no list of expressions, there are
none.  A body is parsed once: one with expressions in it is a list that was walked before. -/
def vecElements? : Tree → Option Trees
  | .node .macroBody [path, _, .group _ body] =>
    if path.pathIdent? == some "vec" then
      if body.any (·.isNode) then some body else (parseElements body).filter fun elems => elems.any (·.isNode)
    else none
  | _ => none

/-- A macro call that stays closed holds nothing but tokens. -/
def closeMacro : Trees → Tree
  | [path, bang, .group d body] => .node .macroBody [path, bang, .group d (Trees.raw body)]
  | parts => .node .macroBody (Trees.raw parts)

/-- A step that always ends, among steps that may not. -/
def Run.total {α : Type} (r : Run α) : StateT State Option α := fun s => some (r.run s)

@[simp] theorem Run.run_total {α : Type} (r : Run α) (s : State) : r.total.run s = some (r.run s) := rfl

/-- Walks a tree.  There is no answer if the walk goes deeper than `depth`. -/
def Stage.walk (stage : Stage) (c : Context) : (depth : Nat) → Tree → StateT State Option Tree
  | 0, _ => failure
  | depth + 1, t => do
    match ← (stage.offer c t).total with
    | .leaf token => pure (.leaf token)
    | .group d body => return .group d (← body.mapM (stage.walk c depth))
    | .node .macroBody parts =>
      match parts, vecElements? (.node .macroBody parts) with
      | [path, bang, .group d _], some elems =>
        return .node .macroBody [path, bang, .group d (← elems.mapM (stage.walk c depth))]
      | _, _ => pure (closeMacro parts)
    | .node k parts => return .node k (regroup k (← parts.mapM (stage.walk c depth)))

mutual
/-- The number of nodes and of characters in literals and operators. -/
def weight : Tree → Nat
  | .leaf (.literal text) => text.length + 2
  | .leaf (.punct text _) => 2 * max 1 text.length
  | .leaf _ => 2
  | .group _ body => weights body + 2
  | .node _ parts => weights parts + 2

def weights : List Tree → Nat
  | [] => 0
  | t :: ts => weight t + weights ts
end

/-- How deep a walk of the tree may go.  Each rewriter that applies uses up a token of the code and adds at most
its own shape, a path of fields no longer than the literal it read, or a path of the configuration, which the walk
goes into once; a walk that goes deeper has come to a path of the configuration again in that path, and does not
end. -/
def walkDepth (c : Context) (t : Tree) : Nat :=
  32 * (weight t + 1 + weights (c.renames.map (·.2)) + (c.pointer.map weight).getD 0)

/-- Runs a stage over a block; there is no answer if the run does not end. -/
def Stage.run? (stage : Stage) (c : Context) (block : Tree) : StateT State Option Tree :=
  stage.walk c (walkDepth c block) block

def isReserved (name : String) : Bool := name == "_" || Naming.scopeWords.contains name

/-- The field that an access reads or a literal gives. -/
def fieldName? : Tree → Option String
  | .node (.expr .field) [_, _, _, .leaf (.ident n)] => some n
  | .node .fieldValue (_ :: .leaf (.ident n) :: _) => some n
  | _ => none

mutual
/-- Whether what rewriters built of fields is code. -/
def isCode : Tree → Bool
  | .leaf _ => true
  | .group _ body => areCode body
  | .node k parts => !(fieldName? (.node k parts)).any isReserved && areCode parts

def areCode : List Tree → Bool
  | [] => true
  | t :: ts => isCode t && areCode ts
end

/-- Runs a stage over a block.  A process that builds what is no code dies, as one does whose run does not end, so
there is no answer then either. -/
def Stage.survive? (stage : Stage) (c : Context) (block : Tree) : StateT State Option Tree := do
  let before ← get
  let made ← stage.run? c block
  let after ← get
  if isCode made && after.broken == before.broken then pure made else failure

theorem Stage.survive?_run (stage : Stage) (c : Context) (block : Tree) (s : State) :
    (stage.survive? c block).run s =
      ((stage.run? c block).run s).filter fun (made, after) => isCode made && after.broken == s.broken := by
  show ((stage.run? c block).run s).bind _ = _
  rcases (stage.run? c block).run s with _ | ⟨made, after⟩
  · rfl
  · show (ite _ _ _ : StateT State Option Tree).run after = _
    rw [Option.filter_some, apply_ite (StateT.run · after)]
    rfl

theorem Stage.survive?_eq_some {stage : Stage} {c : Context} {block made : Tree} {s after : State} :
    (stage.survive? c block).run s = some (made, after) ↔
      (stage.run? c block).run s = some (made, after) ∧ isCode made = true ∧ after.broken = s.broken := by
  rw [survive?_run, Option.filter_eq_some_iff, Bool.and_eq_true, beq_iff_eq]

/-- Runs stages one after another; there is no answer if the process dies of one of them. -/
def runStages? (c : Context) : List Stage → Tree → StateT State Option Tree
  | [], t => pure t
  | s :: ss, t => do runStages? c ss (← s.survive? c t)

/-- State and metadata are normalised first, on which the promotion of helpers and literals relies. -/
def normalize : Stage :=
  [.metaAccess, .accessorGet, .accessorSet, .importGuard, .controlFlow, .functionRename]

def promote : Stage := [.inlineFunction, .compositeLiteral]

def standardStages : List (String × Stage) := [("normalize", normalize), ("promote", promote)]

def standard : List Stage := standardStages.map (·.2)

end Retype.Rewrite
