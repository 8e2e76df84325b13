import Retype.Proofs.Normalize

/-! Writes of state in other words.  Parentheses, `?` and `.map_err(…)` around a write and the statement that drops its
result change nothing of what becomes of it: the statement is rewritten as the plain write is.  Every other statement
stays. -/

namespace Retype.Rewrite
open Retype.Code

/-- A call of `set` with these arguments. -/
inductive SetOn (receiver : Tree) : Trees → Tree → Prop
  | call {attrs dot turbofish : Tree} {d : Delim} {body args : Trees} (members : Trees.members body = args) :
      SetOn receiver args (.node (.expr .methodCall) [attrs, receiver, dot, word "set", turbofish, .group d body])

/-- A nesting of parentheses, `?` and `.map_err(…)` around an expression. -/
inductive WrapsCall (e : Tree) : Tree → Prop
  | bare : WrapsCall e e
  | paren {attrs inner : Tree} {d : Delim} (wraps : WrapsCall e inner) :
      WrapsCall e (.node (.expr .paren) [attrs, .group d [inner]])
  | tried {attrs inner mark : Tree} (wraps : WrapsCall e inner) : WrapsCall e (.node (.expr .tried) [attrs, inner, mark])
  | mapErr {attrs inner dot turbofish : Tree} {d : Delim} {handler : Trees} (wraps : WrapsCall e inner) :
      WrapsCall e (.node (.expr .methodCall) [attrs, inner, dot, word "map_err", turbofish, .group d handler])

/-- A statement that drops the result of an expression: it ends in `;`, binds `_`, or is an `if let Err(…)` without
`else`. -/
inductive DropsResult (e : Tree) : Tree → Prop
  | closed {semi : Tree} (semicolon : semi.isAbsent = false) : DropsResult e (.node (.stmt .expr) [e, semi])
  | discarded {attrs w eq other semi : Tree} {wild : Trees} (noElse : other.isAbsent = true) :
      DropsResult e (.node (.stmt .bind) [attrs, w, .node (.pat .wild) wild, .node .init [eq, e, other], semi])
  | guarded {attrs w cond body other semi attrs' w' head path eq : Tree} {binders : Trees}
      (noElse : other.isAbsent = true)
      (bare : cond.stripParens =
        .node (.expr .letCond) [attrs', w', .node (.pat .tupleStruct) (head :: path :: binders), eq, e])
      (err : path.pathIdent? = some "Err") :
      DropsResult e (.node (.stmt .expr) [.node (.expr .ifElse) [attrs, w, cond, body, other], semi])

/-- A statement that is no form of a write, whatever it holds: it has an `else`, another pattern than `_` or `Err(…)`,
or no semicolon. -/
inductive NoForm : Tree → Prop
  | elseBranch {attrs w cond body other semi : Tree} (branch : other.isAbsent = false) :
      NoForm (.node (.stmt .expr) [.node (.expr .ifElse) [attrs, w, cond, body, other], semi])
  | letElse {attrs w pat eq value other semi : Tree} (branch : other.isAbsent = false) :
      NoForm (.node (.stmt .bind) [attrs, w, pat, .node .init [eq, value, other], semi])
  | binds {attrs w pat init semi : Tree} (named : ∀ wild, pat ≠ .node (.pat .wild) wild) :
      NoForm (.node (.stmt .bind) [attrs, w, pat, init, semi])
  | tests {attrs w cond body other semi attrs' w' pat eq value : Tree}
      (bare : cond.stripParens = .node (.expr .letCond) [attrs', w', pat, eq, value])
      (noErr : ∀ head path binders, pat = .node (.pat .tupleStruct) (head :: path :: binders) →
        path.pathIdent? ≠ some "Err") :
      NoForm (.node (.stmt .expr) [.node (.expr .ifElse) [attrs, w, cond, body, other], semi])
  | tail {e semi : Tree} (noSemicolon : semi.isAbsent = true) (noIf : ∀ parts, e ≠ .node (.expr .ifElse) parts) :
      NoForm (.node (.stmt .expr) [e, semi])

section Forms
variable {c : Context} {receiver call e t : Tree} {args : Trees}

theorem setCall_of_setOn (set : SetOn receiver args call) :
    setCall c call = if c.isAccessor receiver then some args else none := by
  cases set with
  | call members => cases accessor : c.isAccessor receiver <;> simp [setCall, word, accessor, members]

theorem WrapsCall.setCall_eq (wraps : WrapsCall call e) : setCall c e = setCall c call := by
  induction wraps with
  | bare => rfl
  | paren _ ih => rw [setCall, ih]
  | tried _ ih => rw [setCall, ih]
  | mapErr _ ih => simp only [setCall, word, beq_self_eq_true, if_true, ih]

theorem WrapsCall.not_ifElse (set : SetOn receiver args call) (wraps : WrapsCall call e) (parts : Trees) :
    e ≠ .node (.expr .ifElse) parts := by
  cases wraps with
  | bare =>
    cases set
    rintro ⟨⟩
  | _ => rintro ⟨⟩

theorem DropsResult.setStatement_eq (drops : DropsResult e t) (noIf : ∀ parts, e ≠ .node (.expr .ifElse) parts) :
    setStatement c t = setCall c e := by
  cases drops with
  | closed semicolon =>
    rw [setStatement]
    · rw [semicolon, if_neg Bool.false_ne_true]
    · exact fun attrs w cond body other => noIf _
  | discarded noElse => rw [setStatement, if_pos noElse]
  | guarded noElse bare err =>
    rw [setStatement, if_pos noElse, guardedCall, bare]
    simp only [err, beq_self_eq_true, if_true]

theorem NoForm.setStatement_eq (noForm : NoForm t) : setStatement c t = none := by
  refine Option.eq_none_iff_forall_ne_some.mpr fun args found => ?_
  have write := setStatement_eq_some.mp found
  cases noForm with
  | elseBranch branch =>
    cases write with
    | closed semicolon inner => cases inner
    | guarded noElse => cases branch.symm.trans noElse
  | letElse branch =>
    cases write with
    | discarded noElse => cases branch.symm.trans noElse
  | binds named =>
    cases write with
    | discarded => exact named _ rfl
  | tests bare noErr =>
    cases write with
    | closed semicolon inner => cases inner
    | guarded noElse bare' err =>
      cases bare.symm.trans bare'
      exact noErr _ _ _ rfl err
  | tail noSemicolon noIf =>
    cases write with
    | closed semicolon => cases semicolon.symm.trans noSemicolon
    | guarded => exact noIf _ rfl

end Forms

section Runs
variable {c : Context} {t : Tree}

theorem accessorSet_congr {u : Tree} (same : setStatement c t = setStatement c u) : accessorSet c t = accessorSet c u := by
  rw [accessorSet, same]
  rfl

theorem accessorSet_of_none (nothing : setStatement c t = none) (s : State) : (accessorSet c t).run s = (none, s) := by
  rw [accessorSet, nothing]
  rfl

theorem accessorSet_of_write {key value : Tree} (write : setStatement c t = some [key, value]) (s : State) :
    (Stage.rewriteFirst c [.accessorSet] t).run s = (keySteps c key).elim (t, s.addUnresolved (keyMessage c key))
      fun steps => (assignStmt (modelAccess c.scope.varModel steps) (ownedValue c value), s) := by
  have set : (Rewriter.apply .accessorSet c t).run s = (keySteps c key).elim (none, s.addUnresolved (keyMessage c key))
      fun steps => (some (assignStmt (modelAccess c.scope.varModel steps) (ownedValue c value)), s) := by
    simp only [Rewriter.apply, accessorSet, write, StateT.run_bind, resolveKey_run]
    cases keySteps c key <;> rfl
  cases known : keySteps c key with
  | none =>
    rw [known, Option.elim_none] at set
    exact rewriteFirst_passed set
  | some steps =>
    rw [known, Option.elim_some] at set
    exact rewriteFirst_applied set

theorem rewriteFirst_of_untouched {s : State} (untouched : (accessorSet c t).run s = (none, s)) :
    (Stage.rewriteFirst c [.accessorSet] t).run s = (t, s) := rewriteFirst_passed (r := .accessorSet) untouched

end Runs

/-- A call of `set` in any wrapping and in any statement that drops its result is rewritten as the plain `d.set(k, v);`
is.  On the accessor it becomes the same assignment, or adds the same message and the statement stays as it is; on
another receiver nothing is touched, and neither is any statement that is no form of a write. -/
theorem wrapped_writes_as_plain {c : Context} {receiver key value call e t : Tree}
    (set : SetOn receiver [key, value] call) (wraps : WrapsCall call e) (drops : DropsResult e t) (s : State) :
    (accessorSet c t).run s = (accessorSet c (closedStmt call)).run s ∧
      (c.isAccessor receiver = true →
        (Stage.rewriteFirst c [.accessorSet] t).run s = (keySteps c key).elim (t, s.addUnresolved (keyMessage c key))
          fun steps => (assignStmt (modelAccess c.scope.varModel steps) (ownedValue c value), s)) ∧
      (c.isAccessor receiver = false → (Stage.rewriteFirst c [.accessorSet] t).run s = (t, s)) ∧
      ∀ u, NoForm u → (Stage.rewriteFirst c [.accessorSet] u).run s = (u, s) := by
  have plain : setStatement c (closedStmt call) = setCall c call :=
    DropsResult.setStatement_eq (.closed rfl) (WrapsCall.bare.not_ifElse set)
  have found : setStatement c t = setCall c call := by rw [drops.setStatement_eq (wraps.not_ifElse set), wraps.setCall_eq]
  refine ⟨?_, fun accessor => ?_, fun other => ?_, fun u noForm => ?_⟩
  · rw [accessorSet_congr (found.trans plain.symm)]
  · rw [setCall_of_setOn set, accessor, if_pos rfl] at found
    exact accessorSet_of_write found s
  · rw [setCall_of_setOn set, other, if_neg Bool.false_ne_true] at found
    exact rewriteFirst_of_untouched (accessorSet_of_none found s)
  · exact rewriteFirst_of_untouched (accessorSet_of_none noForm.setStatement_eq s)

/-- `if let Err(e) = (d.set("name", props.name)?).map_err(f) { … }` becomes `model.name = pointer::from(props.name);`, and
`let done = d.set("name", props.name);` stays. -/
theorem wrapped_writes_as_plain_name :
    let c := Context.make {} ⟨"WidgetModel", [⟨"WidgetModel", [⟨"name", "String", "name"⟩], true⟩]⟩ [] "widget_read"
      ⟨"widget_read", .read, "model", some "d"⟩
    let call := methodCallOf (var "d") "set" [stringExpr "name", fieldAccess (var "props") "name"]
    let e := methodCallOf (parenOf (triedOf call)) "map_err" [var "f"]
    let guard (cond : Tree) : Tree :=
      .node (.stmt .expr) [.node (.expr .ifElse) [noAttrs, word "if", cond, blockOf [], .absent], .absent]
    let t := guard (.node (.expr .letCond)
      [noAttrs, word "let", .node (.pat .tupleStruct) [noAttrs, pathOf "Err", .group .paren [identPat false "e"]], op "=", e])
    let named := letMut "done" call
    SetOn (var "d") [stringExpr "name", fieldAccess (var "props") "name"] call ∧ WrapsCall call e ∧ DropsResult e t ∧
      NoForm named ∧
      ((Stage.rewriteFirst c [.accessorSet] t).run {}).1.text = "model . name = pointer :: from (props . name) ;" ∧
      (accessorSet c t).run {} = (accessorSet c (closedStmt call)).run {} ∧
      (Stage.rewriteFirst c [.accessorSet] named).run {} = (named, {}) := by
  intro c call e guard t named
  have set : SetOn (var "d") [stringExpr "name", fieldAccess (var "props") "name"] call := .call rfl
  have wraps : WrapsCall call e := .mapErr (.paren (.tried .bare))
  have drops : DropsResult e t := .guarded rfl rfl rfl
  have noForm : NoForm named := .binds fun _ => by rintro ⟨⟩
  obtain ⟨same, -, -, stays⟩ := wrapped_writes_as_plain (c := c) set wraps drops {}
  exact ⟨set, wraps, drops, noForm, by decide +kernel, same, stays named noForm⟩

end Retype.Rewrite
