import Retype.Rewrite.Flow

/-! How code leaves its function.  Code can have the value that the function returns, and a `return` in it can leave the
function; inside of a closure or of another function neither is so. -/

namespace Retype
open Retype.Code

structure Outlet where
  /-- The value of the code is what its function returns. -/
  value : Bool
  /-- A `return` in the code leaves its function. -/
  returns : Bool
  deriving DecidableEq

namespace Outlet

/-- The body of a function. -/
def body : Outlet := ⟨true, true⟩

/-- Code whose value is used inside of the function, or not at all. -/
def used (u : Outlet) : Outlet := { u with value := false }

/-- The operand of a `return`. -/
def operand (u : Outlet) : Outlet := ⟨u.returns, u.returns⟩

/-- The expression of a statement, which has a value if no semicolon follows. -/
def statement (u : Outlet) (semi : Tree) : Outlet := if semi.isAbsent then u else u.used

def apart : Outlet := ⟨false, false⟩

/-- The statements of a list, which has the value of its last one. -/
def listed (u : Outlet) : (length : Nat) → List Outlet
  | 0 => []
  | 1 => [u]
  | n + 2 => u.used :: u.listed (n + 1)

/-- The parts of a node.  Branches, arms, blocks and what stands in parentheses have the value of the whole. -/
def parts (u : Outlet) (k : Kind) (ts : Trees) : List Outlet :=
  match k, ts with
  | .stmt .expr, [_, semi] => [u.statement semi, u.used]
  | .expr .ifElse, [_, _, _, _, _] => [u.used, u.used, u.used, u, u]
  | .expr .matchOn, [_, _, _, _] => [u.used, u.used, u.used, u]
  | .arm, [_, _, _, _, _, _] => [u.used, u.used, u.used, u.used, u, u.used]
  | .expr .returnEarly, ts => ts.map fun _ => u.operand
  | .expr .closure, ts | .expr .asyncBlock, ts | .expr .constBlock, ts | .item _, ts => ts.map fun _ => apart
  | .expr .paren, ts | .expr .block, ts | .expr .unsafeBlock, ts | .elseBranch, ts => ts.map fun _ => u
  | _, ts => ts.map fun _ => u.used

@[simp] theorem length_parts (u : Outlet) (k : Kind) (ts : Trees) : (u.parts k ts).length = ts.length := by
  unfold parts
  split <;> simp

end Outlet

/-- The value of the expression is that of a part of it, or it has none. -/
def isPassage : ExprKind → Bool
  | .paren | .block | .unsafeBlock | .ifElse | .matchOn | .returnEarly => true
  | _ => false

mutual
/-- The expressions whose values code leaves its function with.  A bare success is taken as a whole. -/
def exits (u : Outlet) : Tree → Trees
  | .leaf _ => []
  | .group _ ts => exitsAll (ts.map fun _ => u) ts
  | .node .macroBody _ => []
  | .node .block [.group _ stmts] => exitsAll (u.listed stmts.length) stmts
  | .node (.stmt .expr) [e, semi] => exits (u.statement semi) e
  | .node (.expr .returnEarly) [_, _, value] => exits u.operand value
  | .node (.expr kind) ts =>
    let e : Tree := .node (.expr kind) ts
    if e.isOkUnit then if u.value then [e] else []
    else (if u.value && !isPassage kind then [e] else []) ++ exitsAll (u.parts (.expr kind) ts) ts
  | .node k ts => exitsAll (u.parts k ts) ts

def exitsAll : List Outlet → List Tree → Trees
  | u :: us, t :: ts => exits u t ++ exitsAll us ts
  | _, _ => []
end

theorem exits_block (u : Outlet) (stmts : Trees) :
    exits u (blockOf stmts) = exitsAll (u.listed stmts.length) stmts := by
  rw [blockOf, exits]

theorem exitsAll_listed (u : Outlet) (stmts : Trees) : exitsAll (u.listed stmts.length) stmts =
    stmts.dropLast.flatMap (exits u.used) ++ stmts.getLast?.toList.flatMap (exits u) := by
  induction stmts with
  | nil => rfl
  | cons s rest ih =>
    cases rest with
    | nil => simp [Outlet.listed, exitsAll]
    | cons t rest =>
      have step : exitsAll (u.listed (s :: t :: rest).length) (s :: t :: rest) =
          exits u.used s ++ exitsAll (u.listed (t :: rest).length) (t :: rest) := by
        rw [List.length_cons, List.length_cons, Outlet.listed, exitsAll]
      rw [step, ih, List.dropLast_cons_cons, List.flatMap_cons, List.getLast?_cons_cons, List.append_assoc]

theorem kind_of_isOkUnit {k : Kind} {ts : Trees} (h : (Code.Tree.node k ts).isOkUnit = true) :
    ∃ kind, k = .expr kind ∧ kind ≠ .returnEarly := by
  cases k with
  | expr kind =>
    refine ⟨kind, rfl, ?_⟩
    rintro rfl
    exact absurd h Bool.false_ne_true
  | _ => exact absurd h Bool.false_ne_true

theorem exits_of_isOkUnit {u : Outlet} {e : Tree} (h : e.isOkUnit = true) :
    exits u e = if u.value then [e] else [] := by
  cases e with
  | leaf t => cases h
  | group d ts => cases h
  | node k ts =>
    obtain ⟨kind, rfl, noReturn⟩ := kind_of_isOkUnit h
    rw [exits]
    · rw [if_pos h]
    · rintro _ _ _ - rfl
      exact noReturn rfl

end Retype
