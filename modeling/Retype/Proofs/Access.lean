import Mathlib.Data.List.Basic
import Retype.Proofs.Rewriters

/-! Reads and writes of state: what a read and a write are, apart from how they are looked for, and that both are
told from the outline of a node. -/

namespace Retype.Rewrite
open Retype.Code

def accessorCall? (c : Context) (t : Tree) : Option (String × Trees) := do
  let call ← t.methodCall?
  if c.isAccessor call.receiver then some (call.method, call.args) else none

theorem accessorCall?_eq_some {c : Context} {t : Tree} {m : String} {args : Trees} :
    accessorCall? c t = some (m, args) ↔ ∃ attrs receiver dot turbofish d body,
      t = .node (.expr .methodCall) [attrs, receiver, dot, word m, turbofish, .group d body] ∧
      c.isAccessor receiver = true ∧ Trees.members body = args := by
  unfold accessorCall? Tree.methodCall?
  constructor
  · intro h
    split at h
    · simp only [Option.bind_eq_bind, Option.bind_some, Option.ite_none_right_eq_some, Option.some.injEq,
        Prod.mk.injEq] at h
      obtain ⟨accessor, rfl, rfl⟩ := h
      exact ⟨_, _, _, _, _, _, rfl, accessor, rfl⟩
    · cases h
  · rintro ⟨attrs, receiver, dot, turbofish, d, body, rfl, accessor, rfl⟩
    simp only [word, Option.bind_eq_bind, Option.bind_some, accessor, if_true]

/-- A call on the accessor that belongs on the state the metadata holds. -/
def isStateCall (c : Context) (t : Tree) : Bool :=
  (accessorCall? c t).any fun (method, _) => stateMethods.contains method || method == "is_new_resource"

/-- A read of one key. -/
def isRead (c : Context) (t : Tree) : Bool :=
  (accessorCall? c t).any fun (method, args) => method == "get" && args.length == 1

/-- An expression that is a call of `set` on the accessor, in parentheses, under `?` and before `.map_err(…)`,
with the arguments of the call. -/
inductive SetCall (c : Context) : Tree → Trees → Prop
  | call {attrs receiver dot turbofish : Tree} {d : Delim} {args : Trees} (accessor : c.isAccessor receiver = true) :
      SetCall c (.node (.expr .methodCall) [attrs, receiver, dot, word "set", turbofish, .group d args])
        (Trees.members args)
  | paren {attrs e : Tree} {d : Delim} {args : Trees} (inner : SetCall c e args) :
      SetCall c (.node (.expr .paren) [attrs, .group d [e]]) args
  | tried {attrs e mark : Tree} {args : Trees} (inner : SetCall c e args) :
      SetCall c (.node (.expr .tried) [attrs, e, mark]) args
  | mapErr {attrs receiver dot turbofish : Tree} {d : Delim} {handler args : Trees}
      (inner : SetCall c receiver args) :
      SetCall c (.node (.expr .methodCall) [attrs, receiver, dot, word "map_err", turbofish, .group d handler]) args

/-- A statement that is a write: closed by `;`, discarded by `let _`, or guarded by an `if let Err(…)` without
`else`. -/
inductive WriteStmt (c : Context) : Tree → Trees → Prop
  | closed {e semi : Tree} {args : Trees} (semicolon : semi.isAbsent = false) (inner : SetCall c e args) :
      WriteStmt c (.node (.stmt .expr) [e, semi]) args
  | discarded {attrs w eq value other semi : Tree} {wild args : Trees} (noElse : other.isAbsent = true)
      (inner : SetCall c value args) :
      WriteStmt c (.node (.stmt .bind) [attrs, w, .node (.pat .wild) wild, .node .init [eq, value, other], semi]) args
  | guarded {attrs w cond body other semi attrs' w' head path eq value : Tree} {binders args : Trees}
      (noElse : other.isAbsent = true)
      (bare : cond.stripParens =
        .node (.expr .letCond) [attrs', w', .node (.pat .tupleStruct) (head :: path :: binders), eq, value])
      (err : path.pathIdent? = some "Err") (inner : SetCall c value args) :
      WriteStmt c (.node (.stmt .expr) [.node (.expr .ifElse) [attrs, w, cond, body, other], semi]) args

theorem setCall_eq_some {c : Context} {e : Tree} {args : Trees} : setCall c e = some args ↔ SetCall c e args := by
  constructor
  · intro h
    fun_induction setCall c e with
    | case1 a d e ih => exact .paren (ih h)
    | case2 a e mark ih => exact .tried (ih h)
    | case3 a receiver dot m turbofish d handler isMapErr ih =>
      rw [beq_iff_eq.mp isMapErr]
      exact .mapErr (ih h)
    | case4 a receiver dot m turbofish d args' _ isSet =>
      cases h
      simp only [Bool.and_eq_true, beq_iff_eq] at isSet
      rw [isSet.1]
      exact .call isSet.2
    | case5 => cases h
    | case6 => cases h
  · intro h
    induction h with
    | call accessor => simp [setCall, word, accessor]
    | paren inner ih => simpa only [setCall] using ih
    | tried inner ih => simpa only [setCall] using ih
    | mapErr inner ih => simpa [setCall, word] using ih

theorem guardedCall_eq_some {c : Context} {cond : Tree} {args : Trees} : guardedCall c cond = some args ↔
    ∃ attrs w head path binders eq value, cond.stripParens =
      .node (.expr .letCond) [attrs, w, .node (.pat .tupleStruct) (head :: path :: binders), eq, value] ∧
      path.pathIdent? = some "Err" ∧ SetCall c value args := by
  unfold guardedCall
  split
  · rename_i bare
    simp only [bare, Option.ite_none_right_eq_some, beq_iff_eq, setCall_eq_some]
    constructor
    · rintro ⟨err, inner⟩
      exact ⟨_, _, _, _, _, _, _, rfl, err, inner⟩
    · rintro ⟨_, _, _, _, _, _, _, h, err, inner⟩
      cases h
      exact ⟨err, inner⟩
  · rename_i other
    constructor
    · intro h
      cases h
    · rintro ⟨_, _, _, _, _, _, _, bare, -, -⟩
      exact (other _ _ _ _ _ _ _ bare).elim

theorem setStatement_eq_some {c : Context} {t : Tree} {args : Trees} :
    setStatement c t = some args ↔ WriteStmt c t args := by
  constructor
  · intro h
    unfold setStatement at h
    split at h
    · split at h
      · rename_i noElse
        obtain ⟨_, _, _, _, _, _, _, bare, err, inner⟩ := guardedCall_eq_some.mp h
        exact .guarded noElse bare err inner
      · split at h
        · cases h
        · cases setCall_eq_some.mp h
    · split at h
      · cases h
      · rename_i semicolon
        exact .closed (Bool.eq_false_iff.mpr semicolon) (setCall_eq_some.mp h)
    · rename_i noElse
      rw [Option.ite_none_right_eq_some] at h
      exact .discarded h.1 (setCall_eq_some.mp h.2)
    · cases h
  · intro h
    cases h with
    | closed semicolon inner =>
      have found := setCall_eq_some.mpr inner
      cases inner <;> simpa only [setStatement, semicolon, Bool.false_eq_true, if_false] using found
    | discarded noElse inner => simp only [setStatement, noElse, if_true, setCall_eq_some, inner]
    | guarded noElse bare err inner =>
      simp only [setStatement, noElse, if_true]
      exact guardedCall_eq_some.mpr ⟨_, _, _, _, _, _, _, bare, err, inner⟩

def isWrite (c : Context) (t : Tree) : Bool := (setStatement c t).any fun args => args.length == 2

theorem isWrite_iff {c : Context} {t : Tree} :
    isWrite c t = true ↔ ∃ key value, WriteStmt c t [key, value] := by
  rw [isWrite, Option.any_eq_true]
  constructor
  · rintro ⟨args, found, two⟩
    obtain ⟨key, value, rfl⟩ := List.length_eq_two.mp (beq_iff_eq.mp two)
    exact ⟨key, value, setStatement_eq_some.mp found⟩
  · rintro ⟨key, value, h⟩
    exact ⟨_, setStatement_eq_some.mpr h, rfl⟩

def WritesState (c : Context) (t : Tree) : Prop := ∃ key value, WriteStmt c t [key, value]

instance (c : Context) : DecidablePred (WritesState c) := fun _ => decidable_of_iff _ isWrite_iff

theorem decide_writesState (c : Context) (t : Tree) : decide (WritesState c t) = isWrite c t := by
  rw [Bool.eq_iff_iff, decide_eq_true_iff, isWrite_iff]
  rfl

namespace Outline
variable (c : Context)

def isAbsent : Outline → Bool
  | .absent => true
  | _ => false

def isAccessor (o : Outline) : Bool :=
  match c.scope.accessor with
  | some a => o.var? == some a
  | none => false

/-- The number of arguments of the call of `set`. -/
def setCount : Outline → Option Nat
  | .tried inner => inner.setCount
  | .call method receiver count =>
    if method == "map_err" then receiver.setCount
    else if method == "set" && receiver.isAccessor c then some count
    else none
  | _ => none

def guardedCount : Outline → Option Nat
  | .errLet value => value.setCount c
  | _ => none

def stmtCount : Kind → List Outline → Option Nat
  | .stmt .expr, [.ifElse cond other, _] =>
    if other.isAbsent then cond.guardedCount c else none
  | .stmt .expr, [e, semi] => if semi.isAbsent then none else e.setCount c
  | .stmt .bind, [_, _, .wild, .init value other, _] => if other.isAbsent then value.setCount c else none
  | _, _ => none

/-- The method that a node calls on the accessor, and the number of arguments. -/
def accessorCount : Kind → List Outline → Option (String × Nat)
  | .expr .methodCall, [_, receiver, _, .leaf (.ident method), _, .group args] =>
    if receiver.isAccessor c then some (method, args.countP fun a => !a.isComma) else none
  | _, _ => none

end Outline

theorem outline_isAccessor (c : Context) (e : Tree) : (outline e).isAccessor c = c.isAccessor e := by
  unfold Outline.isAccessor Context.isAccessor
  rw [outline_var?]
  rfl

@[simp] theorem Outline.setCount_inParens (c : Context) (o : Outline) : o.inParens.setCount c = o.setCount c := by
  cases o <;> rfl

@[simp] theorem Outline.guardedCount_inParens (c : Context) (o : Outline) :
    o.inParens.guardedCount c = o.guardedCount c := by
  cases o <;> rfl

theorem isComma_outline (t : Tree) : (outline t).isComma = t.isOp "," := by
  unfold Outline.isComma
  split
  · rename_i h
    rw [outline_eq_leaf.mp h]
    rfl
  · rename_i other
    unfold Tree.isOp
    split
    · exact (other _ _ rfl).elim
    · rfl

theorem countP_outlines (args : Trees) :
    ((outlines args).countP fun a => !a.isComma) = (Trees.members args).length := by
  rw [outlines_eq_map, List.countP_map, Trees.members, ← List.countP_eq_length_filter]
  congr 1
  funext t
  simp only [Function.comp_apply, isComma_outline]

theorem outline_setCount (c : Context) (e : Tree) : (outline e).setCount c = (setCall c e).map (·.length) := by
  fun_induction setCall c e with
  | case1 a d e ih => simp only [outline, outlines, Outline.ofNode, Outline.setCount_inParens, ih]
  | case2 a e mark ih => simp only [outline, outlines, Outline.ofNode, Outline.setCount, ih]
  | case3 a receiver dot m turbofish d handler isMapErr ih =>
    simp only [outline, outlines, Outline.ofNode, isMapErr, Bool.true_or, if_true, Outline.setCount, ih]
  | case4 a receiver dot m turbofish d args noMapErr isSet =>
    simp only [Bool.and_eq_true] at isSet
    simp only [outline, outlines, Outline.ofNode, isSet, Bool.or_true, if_true, Outline.setCount, noMapErr,
      outline_isAccessor, Bool.and_self, Option.map_some, countP_outlines, Bool.false_eq_true, if_false]
  | case5 a receiver dot m turbofish d args noMapErr noSet =>
    simp only [outline, outlines, Outline.ofNode]
    split
    · simp only [Outline.setCount, noMapErr, outline_isAccessor, noSet, Bool.false_eq_true, if_false, Option.map_none]
    · rfl
  | case6 t plain noTried noCall =>
    cases t with
    | leaf token => rfl
    | group d body => rfl
    | node k parts =>
      unfold Outline.setCount
      split
      · rename_i seen
        obtain ⟨rfl, _, _, os⟩ := outline_direct_of_isPlain plain seen
        simp only [outlines_eq_cons, outlines_eq_nil] at os
        obtain ⟨a, _, rfl, -, e, _, rfl, -, mark, _, rfl, -, rfl⟩ := os
        exact (noTried _ _ _ rfl).elim
      · rename_i seen
        obtain ⟨rfl, -, _, _, _, _, os⟩ := outline_direct_of_isPlain plain seen
        simp only [outlines_eq_cons, outlines_eq_nil, outline_eq_group, outline_eq_leaf] at os
        obtain ⟨a, _, rfl, -, r, _, rfl, -, dot, _, rfl, -, _, _, rfl, rfl, tf, _, rfl, -, _, _, rfl,
          ⟨d, args, rfl, -⟩, rfl⟩ := os
        exact (noCall _ _ _ _ _ _ _ rfl).elim
      · rfl

theorem outline_eq_errLet {t : Tree} (plain : IsPlain t)
    {o : Outline} (h : outline t = .errLet o) : ∃ attrs w head path binders eq value,
      t = .node (.expr .letCond) [attrs, w, .node (.pat .tupleStruct) (head :: path :: binders), eq, value] ∧
      path.pathIdent? = some "Err" ∧ outline value = o := by
  cases t with
  | leaf token => cases h
  | group d body => cases h
  | node k parts =>
    obtain ⟨rfl, _, _, _, os⟩ := outline_direct_of_isPlain plain h
    simp only [outlines_eq_cons, outlines_eq_nil, outline_eq_errPattern] at os
    obtain ⟨a, _, rfl, -, w, _, rfl, -, _, _, rfl, ⟨head, path, binders, rfl, err⟩, eq, _, rfl, -, value, _, rfl,
      seen, rfl⟩ := os
    exact ⟨a, w, head, path, binders, eq, value, rfl, err, seen⟩

theorem guardedCount_of_isPlain {c : Context} {t : Tree}
    (plain : IsPlain t) :
    (outline t).guardedCount c = (guardedCall c t).map (·.length) := by
  by_cases guard : ∃ o, outline t = .errLet o
  · obtain ⟨o, h⟩ := guard
    obtain ⟨_, _, _, _, _, _, value, rfl, err, rfl⟩ := outline_eq_errLet plain h
    simp only [h, Outline.guardedCount, outline_setCount, guardedCall, Tree.stripParens, err, beq_self_eq_true, if_true]
  · have noCount : (outline t).guardedCount c = none := by
      unfold Outline.guardedCount
      split
      · exact (guard ⟨_, ‹_›⟩).elim
      · rfl
    have noCall : guardedCall c t = none := by
      refine Option.eq_none_iff_forall_ne_some.mpr fun args found => ?_
      obtain ⟨_, _, _, _, _, _, _, bare, err, -⟩ := guardedCall_eq_some.mp found
      rw [stripParens_of_isPlain plain] at bare
      subst bare
      exact guard ⟨_, by simp only [outline, outlines, outline_eq_path.mpr err, Outline.ofNode]; rfl⟩
    rw [noCount, noCall, Option.map_none]

theorem outline_guardedCount (c : Context) (cond : Tree) :
    (outline cond).guardedCount c = (guardedCall c cond).map (·.length) := by
  fun_induction Tree.stripParens cond with
  | case1 a d e ih =>
    simp only [outline, outlines, Outline.ofNode, Outline.guardedCount_inParens, ih, guardedCall, Tree.stripParens]
  | case2 t plain => exact guardedCount_of_isPlain plain

theorem outline_isAbsent (t : Tree) : (outline t).isAbsent = t.isAbsent := by
  unfold Outline.isAbsent
  split
  · exact (outline_eq_absent.mp ‹_›).symm
  · rename_i present
    exact (Bool.eq_false_iff.mpr fun absent => present (outline_eq_absent.mpr absent)).symm

theorem stmtCount_outlines (c : Context) (k : Kind) (parts : Trees) :
    Outline.stmtCount c k (outlines parts) = (setStatement c (.node k parts)).map (·.length) := by
  unfold Outline.stmtCount
  split
  · rename_i os
    simp only [outlines_eq_cons, outlines_eq_nil, outline_eq_ifElse] at os
    obtain ⟨_, _, rfl, ⟨attrs, w, cond, body, other, rfl, rfl, rfl⟩, semi, _, rfl, -, rfl⟩ := os
    simp only [setStatement, outline_isAbsent, outline_guardedCount, setCall]
    split
    · rfl
    · split <;> rfl
  · rename_i noIf os
    simp only [outlines_eq_cons, outlines_eq_nil] at os
    obtain ⟨e, _, rfl, rfl, semi, _, rfl, rfl, rfl⟩ := os
    rw [setStatement]
    · simp only [outline_isAbsent, outline_setCount]
      split <;> rfl
    · rintro attrs w cond body other rfl
      exact noIf _ _ rfl
  · rename_i os
    simp only [outlines_eq_cons, outlines_eq_nil, outline_eq_wild, outline_eq_init] at os
    obtain ⟨attrs, _, rfl, -, w, _, rfl, -, _, _, rfl, ⟨wild, rfl⟩, _, _, rfl, ⟨eq, value, other, rfl, rfl, rfl⟩, semi,
      _, rfl, -, rfl⟩ := os
    simp only [setStatement, outline_isAbsent, outline_setCount]
    split <;> rfl
  · rename_i noIf noExpr noBind
    refine (Option.map_eq_none_iff.mpr (Option.eq_none_iff_forall_ne_some.mpr fun args found => ?_)).symm
    cases setStatement_eq_some.mp found with
    | closed => exact noExpr _ _ rfl rfl
    | discarded => exact noBind _ _ _ _ _ rfl rfl
    | guarded => exact noIf _ _ _ rfl rfl

theorem accessorCount_outlines (c : Context) (k : Kind) (parts : Trees) : Outline.accessorCount c k (outlines parts) =
    (accessorCall? c (.node k parts)).map fun (method, args) => (method, args.length) := by
  unfold Outline.accessorCount
  split
  · rename_i os
    simp only [outlines_eq_cons, outlines_eq_nil, outline_eq_leaf, outline_eq_group] at os
    obtain ⟨attrs, _, rfl, -, receiver, _, rfl, rfl, dot, _, rfl, -, _, _, rfl, rfl, turbofish, _, rfl, -, _, _, rfl,
      ⟨d, args, rfl, rfl⟩, rfl⟩ := os
    simp only [outline_isAccessor, accessorCall?, Tree.methodCall?, Option.bind_eq_bind, Option.bind_some,
      countP_outlines]
    split <;> rfl
  · rename_i noCall
    unfold accessorCall? Tree.methodCall?
    split
    · rename_i h
      cases h
      exact (noCall _ _ _ _ _ _ rfl rfl).elim
    · rfl

theorem outlined_isWrite (c : Context) : Outlined (isWrite c) where
  congr {k parts parts'} h := by
    have counts := (stmtCount_outlines c k parts).symm.trans (h ▸ stmtCount_outlines c k parts')
    have any_map : ∀ t, isWrite c t = ((setStatement c t).map (·.length)).any (· == 2) := fun t => by
      rw [isWrite, Option.any_map]
    rw [any_map, any_map, counts]
  paren e := rfl
  attrs := rfl

theorem outlined_of_accessorCall? (c : Context) (p : String × Nat → Bool) :
    Outlined fun t => (accessorCall? c t).any fun (method, args) => p (method, args.length) where
  congr {k parts parts'} h := by
    have counts := (accessorCount_outlines c k parts).symm.trans (h ▸ accessorCount_outlines c k parts')
    have any_map : ∀ t, ((accessorCall? c t).any fun (method, args) => p (method, args.length)) =
        ((accessorCall? c t).map fun (method, args) => (method, args.length)).any p := fun t => by
      rw [Option.any_map]
    rw [any_map, any_map, counts]
  paren e := rfl
  attrs := rfl

theorem outlined_isRead (c : Context) : Outlined (isRead c) :=
  outlined_of_accessorCall? c fun (method, count) => method == "get" && count == 1

theorem outlined_isStateCall (c : Context) : Outlined (isStateCall c) :=
  outlined_of_accessorCall? c fun (method, _) => stateMethods.contains method || method == "is_new_resource"

end Retype.Rewrite
