import Retype.Code.Grammar

/-! Every expression that the grammar reads is a node: a token is an expression only inside of a node that says what it
is, so a list of expressions holds none of the bare tokens that code holds which is not parsed. -/

namespace Retype.Code.Grammar
open Code.Parser

def Builds {α : Type} (p : Parser α) (post : α → Prop) : Prop := ∀ s a s', p s = some (a, s') → post a

namespace Builds
variable {α β : Type} {post : α → Prop} {mid : β → Prop}

theorem pure {a : α} (h : post a) : Builds (Pure.pure a) post := by
  rintro s _ _ ⟨⟩
  exact h

theorem failure : Builds (Alternative.failure : Parser α) post := by
  rintro s _ _ ⟨⟩

theorem bind {p : Parser β} {f : β → Parser α} (first : Builds p mid) (rest : ∀ b, mid b → Builds (f b) post) :
    Builds (p >>= f) post := by
  intro s a s' run
  obtain ⟨⟨b, s₁⟩, ran, run⟩ := Option.bind_eq_some_iff.mp run
  exact rest b (first s b s₁ ran) s₁ a s' run

theorem seq {p : Parser β} {f : β → Parser α} (rest : ∀ b, Builds (f b) post) : Builds (p >>= f) post := by
  have first : Builds p fun _ => True := fun _ _ _ _ => trivial
  exact bind first fun b _ => rest b

theorem ite {cond : Prop} [Decidable cond] {p q : Parser α} (yes : Builds p post) (no : Builds q post) :
    Builds (if cond then p else q) post := by
  split
  · exact yes
  · exact no

end Builds

abbrev BuildsNode (p : Parser Tree) : Prop := Builds p fun t => t.isNode = true

theorem buildsNode_node {k : Kind} {parts : Trees} : BuildsNode (pure (.node k parts)) := .pure rfl

theorem isNode_withAttrs {attrs t : Tree} (node : t.isNode = true) : (withAttrs attrs t).isNode = true := by
  unfold withAttrs
  split
  · rfl
  · exact node

section Rules
variable (g : Rules)

theorem buildsNode_ifExpr (fuel : Nat) : BuildsNode (ifExpr g fuel) := by
  cases fuel with
  | zero => exact .failure
  | succ fuel =>
    rw [ifExpr]
    exact .seq fun _ => .seq fun _ => .seq fun _ => .seq fun _ => buildsNode_node

theorem buildsNode_whileExpr (label : Tree) : BuildsNode (whileExpr g label) :=
  .seq fun _ => .seq fun _ => .seq fun _ => buildsNode_node

theorem buildsNode_forExpr (label : Tree) : BuildsNode (forExpr g label) :=
  .seq fun _ => .seq fun _ => .seq fun _ => .seq fun _ => .seq fun _ => buildsNode_node

theorem buildsNode_loopExpr (label : Tree) : BuildsNode (loopExpr g label) :=
  .seq fun _ => .seq fun _ => buildsNode_node

theorem buildsNode_wordBlock (kind : ExprKind) (block : Parser Tree) : BuildsNode (wordBlock kind block) :=
  .seq fun _ => .seq fun _ => buildsNode_node

theorem buildsNode_blockExpr (label : Tree) : BuildsNode (blockExpr g label) := .seq fun _ => buildsNode_node

theorem buildsNode_matchExpr : BuildsNode (matchExpr g) :=
  .seq fun _ => .seq fun _ => .seq fun _ => buildsNode_node

theorem buildsNode_blockLike : BuildsNode (blockLike g) := by
  refine .seq fun _ => .ite (fun s => buildsNode_ifExpr g (s.length + 1) s) ?_
  refine .seq fun _ => .ite (buildsNode_whileExpr g absent) ?_
  refine .seq fun _ => .ite (buildsNode_forExpr g absent) ?_
  refine .seq fun _ => .ite (buildsNode_loopExpr g absent) ?_
  refine .seq fun _ => .ite (buildsNode_matchExpr g) ?_
  refine .seq fun _ => .ite (buildsNode_wordBlock _ _) ?_
  refine .seq fun _ => .ite (buildsNode_wordBlock _ _) ?_
  exact .seq fun _ => .ite (buildsNode_wordBlock _ _) (buildsNode_blockExpr g absent)

theorem buildsNode_labeled : BuildsNode (labeled g) := by
  refine .seq fun _ => .seq fun _ => ?_
  refine .seq fun _ => .ite (buildsNode_whileExpr g _) ?_
  refine .seq fun _ => .ite (buildsNode_forExpr g _) ?_
  exact .seq fun _ => .ite (buildsNode_loopExpr g _) (buildsNode_blockExpr g _)

theorem buildsNode_parenExpr : BuildsNode (parenExpr g) := by
  refine .seq fun group => ?_
  split <;> exact buildsNode_node

theorem buildsNode_bracketExpr : BuildsNode (bracketExpr g) := by
  refine .seq fun group => ?_
  split <;> exact buildsNode_node

theorem buildsNode_pathExpr (structs : Bool) : BuildsNode (pathExpr g structs) := by
  refine .seq fun p => .seq fun _ => .ite (.seq fun _ => buildsNode_node) ?_
  exact .seq fun _ => .ite (.seq fun _ => buildsNode_node) buildsNode_node

theorem buildsNode_closure (structs : Bool) : BuildsNode (closure g structs) := by
  refine .seq fun _ => .seq fun _ => .seq fun _ => .seq fun _ => .seq fun _ => ?_
  refine .seq fun _ => .seq fun _ => .seq fun _ => .seq fun result => ?_
  exact .ite (.seq fun _ => buildsNode_node) (.seq fun _ => buildsNode_node)

theorem buildsNode_breakExpr (structs : Bool) : BuildsNode (breakExpr g structs) := by
  refine .seq fun _ => .seq fun _ => .seq fun _ => .ite (.seq fun _ => ?_) ?_
  · exact .seq fun _ => buildsNode_node
  · exact .seq fun _ => buildsNode_node

theorem buildsNode_returnExpr (kind : ExprKind) : BuildsNode (returnExpr g kind) :=
  .seq fun _ => .seq fun _ => buildsNode_node

theorem buildsNode_letCondition (structs : Bool) : BuildsNode (letCondition g structs) :=
  .seq fun _ => .seq fun _ => .seq fun _ => .seq fun _ => .seq fun _ => buildsNode_node

theorem buildsNode_prefixRange (structs : Bool) : BuildsNode (prefixRange g structs) := by
  have builds (s : Trees) : BuildsNode (do
      let mark ← rangeMark
      let upper ← upperLimit g structs (climbFuel s) mark
      pure (.node (.expr .range) [emptyAttrs, absent, mark, upper])) := .seq fun _ => .seq fun _ => buildsNode_node
  exact fun s => builds s s

theorem buildsNode_atom (structs : Bool) : BuildsNode (atom g structs) := by
  refine .seq fun _ => .ite (.seq fun _ => buildsNode_node) ?_
  refine .seq fun _ => .ite (.seq fun _ => .seq fun _ => .seq fun _ => buildsNode_node) ?_
  refine .seq fun _ => .ite (buildsNode_wordBlock _ _) ?_
  refine .seq fun _ => .ite (buildsNode_closure g structs) ?_
  refine .seq fun _ => .ite (buildsNode_pathExpr g structs) ?_
  refine .seq fun _ => .ite (buildsNode_parenExpr g) ?_
  refine .seq fun _ => .ite (buildsNode_breakExpr g structs) ?_
  refine .seq fun _ => .ite (.seq fun _ => .seq fun _ => buildsNode_node) ?_
  refine .seq fun _ => .ite (buildsNode_returnExpr g _) ?_
  refine .seq fun _ => .ite (buildsNode_bracketExpr g) ?_
  refine .seq fun _ => .ite (buildsNode_letCondition g structs) ?_
  refine .seq fun _ => .ite (buildsNode_returnExpr g _) ?_
  refine .seq fun _ => .ite (buildsNode_blockLike g) ?_
  refine .seq fun _ => .ite (buildsNode_prefixRange g structs) ?_
  refine .seq fun _ => .ite (.seq fun _ => buildsNode_node) ?_
  exact .seq fun _ => .ite (buildsNode_labeled g) .failure

theorem isNode_indexFields {base dot : Tree} (node : base.isNode = true) (fields : List String) :
    (indexFields base dot fields).isNode = true := by
  induction fields generalizing base dot with
  | nil => exact node
  | cons i fields ih => exact ih rfl

theorem buildsNode_memberAfterDot (base dot : Tree) : BuildsNode (memberAfterDot g base dot) := by
  refine .seq fun _ => .ite (.seq fun _ => buildsNode_node) ?_
  refine .seq fun _ => .ite (.seq fun _ => buildsNode_node) ?_
  refine .seq fun _ => .seq fun _ => .seq fun _ => ?_
  exact .ite (.seq fun _ => buildsNode_node) buildsNode_node

theorem buildsNode_afterDot {base : Tree} (node : base.isNode = true) (dot : Tree) :
    BuildsNode (afterDot g base dot) := by
  refine .seq fun s => ?_
  split
  · refine .ite (.seq fun _ => ?_) (buildsNode_memberAfterDot g base dot)
    exact .ite (buildsNode_memberAfterDot g _ _) (.pure (isNode_indexFields node _))
  · exact buildsNode_memberAfterDot g base dot

theorem buildsNode_postfixes {e : Tree} (node : e.isNode = true) (fuel : Nat) : BuildsNode (postfixes g fuel e) := by
  induction fuel generalizing e with
  | zero => exact .pure node
  | succ fuel ih =>
    rw [postfixes]
    refine .seq fun _ => .ite (.seq fun _ => ih rfl) ?_
    refine .seq fun _ => .ite (.seq fun _ => .bind (buildsNode_afterDot g node _) fun _ node => ih node) ?_
    refine .seq fun _ => .ite (.seq fun _ => ih rfl) ?_
    exact .seq fun _ => .ite (.seq fun _ => ih rfl) (.pure node)

theorem buildsNode_operand (structs : Bool) : BuildsNode (operand g structs) := by
  refine .seq fun attrs => .seq fun _ => .ite ?reference (.seq fun _ => .ite ?unary ?plain)
  case reference =>
    refine .seq fun _ => .seq fun _ => .ite ?_ ?_
    · exact .seq fun _ => .seq fun _ => .seq fun _ => buildsNode_node
    · exact .seq fun _ => .seq fun _ => buildsNode_node
  case unary =>
    have rest (o : Tree) : BuildsNode (do pure (.node (.expr .unary) [attrs, o, ← g.operand structs])) :=
      .seq fun _ => buildsNode_node
    exact .seq fun _ => .seq fun _ => .ite (.seq rest) (.ite (.seq rest) (.seq rest))
  case plain =>
    refine .bind (buildsNode_atom g structs) fun e node => ?_
    refine .bind (fun s => buildsNode_postfixes g node (s.length + 1) s) fun e node => ?_
    exact .pure (isNode_withAttrs node)

theorem buildsNode_climb (structs : Bool) {lhs : Tree} (node : lhs.isNode = true) (fuel : Nat) (base : Precedence) :
    BuildsNode (climb g structs fuel lhs base) := by
  induction fuel generalizing lhs with
  | zero =>
    rw [climb]
    exact .pure node
  | succ fuel ih =>
    rw [climb]
    refine .ite (.pure node) (.seq fun s => ?_)
    split
    · refine .ite (.pure node) (.ite .failure ?_)
      exact .seq fun _ => .seq fun _ => ih rfl
    · refine .ite (.seq fun _ => .seq fun _ => ih rfl) ?_
      refine .ite (.seq fun _ => .seq fun _ => ih rfl) ?_
      refine .ite (.seq fun _ => .seq fun _ => .seq fun _ => .ite .failure (ih rfl)) (.pure node)

theorem buildsNode_expr (structs : Bool) : BuildsNode (expr g structs) :=
  .bind (buildsNode_operand g structs) fun _ node s => buildsNode_climb g structs node (climbFuel s) .jump s

end Rules

end Retype.Code.Grammar
