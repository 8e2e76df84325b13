import Retype.Proofs.Captures
import Retype.Proofs.ItemCosts
import Retype.Proofs.Numbers

/-! A walk goes down.  Whatever a stage makes of a tree, what is inside of it has fewer levels below itself than the tree, if
the paths of the configuration are free: what a rewriter puts around the parts of a node, the node left room for, and the
fields that a key names are no more than its text has characters. -/

namespace Retype.Rewrite
open Retype.Code

section Upper
variable {free : Tree → Bool}

@[simp] theorem descents_nil : descents free [] = 0 := by rw [descents]

@[simp] theorem descents_cons (t : Tree) (ts : Trees) :
    descents free (t :: ts) = max (descent free t + 1) (descents free ts) := by rw [descents]

@[simp] theorem descent_group (d : Delim) (body : Trees) : descent free (.group d body) = descents free body := by rw [descent]

theorem descents_replace (before after : Trees) (t u : Tree) :
    descents free (before ++ u :: after) ≤ max (descents free (before ++ t :: after)) (descent free u + 1) := by
  refine descents_le.mpr fun v mem => ?_
  rcases List.mem_append.mp mem with mem | mem
  · exact Nat.lt_of_lt_of_le (descent_lt_descents (List.mem_append_left _ mem)) (Nat.le_max_left _ _)
  · rcases List.mem_cons.mp mem with rfl | mem
    · exact Nat.lt_of_lt_of_le (Nat.lt_succ_self _) (Nat.le_max_right _ _)
    · refine Nat.lt_of_lt_of_le (descent_lt_descents ?_) (Nat.le_max_left _ _)
      exact List.mem_append_right _ (List.mem_cons_of_mem _ mem)

theorem descents_replace_le (before after : Trees) {t u : Tree} (le : descent free u ≤ descent free t) :
    descents free (before ++ u :: after) ≤ descents free (before ++ t :: after) := by
  refine Nat.le_trans (descents_replace before after t u) (Nat.max_le.mpr ⟨Nat.le_refl _, ?_⟩)
  exact Nat.lt_of_le_of_lt le (descent_lt_descents (List.mem_append_right _ List.mem_cons_self))

theorem descent_le {k : Kind} {parts : Trees} {n : Nat} (opened : k ≠ .macroBody) (le : reserve k + descents free parts ≤ n) :
    descent free (.node k parts) ≤ n := Nat.le_trans (descent_node_le opened parts) le

@[simp] theorem descent_noAttrs : descent free noAttrs = 0 := Nat.le_zero.mp (descent_le (by decide) (Nat.le_refl 0))

@[simp] theorem descent_absent : descent free Tree.absent = 0 := Nat.le_zero.mp (descent_le (by decide) (Nat.le_refl 0))

@[simp] theorem descent_word (name : String) : descent free (word name) = 0 := rfl

@[simp] theorem descent_op (text : String) : descent free (op text) = 0 := rfl

@[simp] theorem descents_commaList (ts : Trees) : descents free (commaList ts) = descents free ts := by
  fun_induction commaList ts with
  | case1 => rfl
  | case2 => rfl
  | case3 t u ts ih =>
    simp only [descents_cons, descent_op] at ih ⊢
    omega

@[simp] theorem descent_parenGroup (args : Trees) : descent free (parenGroup args) = descents free args := by
  rw [parenGroup, descent_group, descents_commaList]

theorem descent_pathOf_le (name : String) : descent free (pathOf name) ≤ 2 := by
  have segment : descent free (.node .segment [word name, Tree.absent]) ≤ 1 := descent_le (by decide) (by simp [reserve])
  exact descent_le (by decide) (by simpa [reserve] using segment)

theorem descents_var_le (name : String) : descents free [noAttrs, pathOf name] ≤ 3 := by
  have path := @descent_pathOf_le free name
  simp only [descents_cons, descents_nil, descent_noAttrs]
  omega

theorem descent_var_le (name : String) : descent free (var name) ≤ 3 :=
  descent_le (by decide) (by simpa [reserve] using descents_var_le name)

theorem descent_fieldAccess_le (base : Tree) (name : String) : descent free (fieldAccess base name) ≤ descent free base + 1 :=
  descent_le (by decide) (by simp [reserve])

theorem descent_metaField_le (c : Context) (name : String) : descent free (metaField c name) ≤ 4 :=
  Nat.le_trans (descent_fieldAccess_le _ _) (Nat.succ_le_succ (descent_var_le _))

theorem descent_methodCallOf_le (receiver : Tree) (m : String) (args : Trees) :
    descent free (methodCallOf receiver m args) ≤ 5 + max (descent free receiver) (descents free args) :=
  descent_le (by decide) (by simp [reserve]; omega)

theorem descent_callOf_le (callee : Tree) (args : Trees) :
    descent free (callOf callee args) ≤ 10 + max (descent free callee) (descents free args) :=
  descent_le (by decide) (by simp [reserve]; omega)

theorem descent_closedStmt_le (e : Tree) : descent free (closedStmt e) ≤ 9 + descent free e :=
  descent_le (by decide) (by simp [reserve]; omega)

theorem descent_markAsGone_le (c : Context) : descent free (markAsGone c) ≤ 19 := by
  have receiver := @descent_var_le free (Naming.identifier c.config.metaVar)
  have id := @descent_var_le free (Naming.identifier c.config.primaryIdentity)
  have call : descent free (methodCallOf (varExpr c.config.metaVar) "mark_as_gone" [varExpr c.config.primaryIdentity]) ≤ 9 :=
    Nat.le_trans (descent_methodCallOf_le _ _ _) (by simp only [descents_cons, descents_nil, varExpr]; omega)
  have answer : descent free (returnOf (methodCallOf (varExpr c.config.metaVar) "mark_as_gone"
      [varExpr c.config.primaryIdentity])) ≤ 10 := descent_le (by decide) (by simp [reserve]; omega)
  exact Nat.le_trans (descent_closedStmt_le _) (by omega)

theorem descent_setIdentity_le (c : Context) (id : Tree) :
    descent free (setIdentity c id) ≤ 17 + descent free (stripIdCall id) := by
  have receiver := @descent_var_le free (Naming.identifier c.config.metaVar)
  have call := @descent_methodCallOf_le free (varExpr c.config.metaVar) "set_id" [stripIdCall id]
  have stmt := @descent_closedStmt_le free (methodCallOf (varExpr c.config.metaVar) "set_id" [stripIdCall id])
  simp only [descents_cons, descents_nil, varExpr] at call stmt receiver
  rw [setIdentity]
  simp only [varExpr]
  omega

theorem descent_okUnit_le : descent free okUnit ≤ 13 := by
  have callee := @descent_var_le free "Ok"
  have unit : descent free unitTuple ≤ 1 := descent_le (by decide) (by simp [reserve])
  exact Nat.le_trans (descent_callOf_le _ _) (by simp only [descents_cons, descents_nil]; omega)

theorem descent_number (i : Nat) : descent free (lit (toString i)) = 0 := by
  obtain ⟨-, digits⟩ := Literal.isDecimal_toString i
  have noText : Literal.stringValue? (toString i) = none := by
    unfold Literal.stringValue?
    split
    · rename_i same
      exact absurd (digits _ (same ▸ List.mem_cons_self)) (by decide)
    · rename_i same
      exact absurd (digits _ (same ▸ List.mem_cons_self)) (by decide)
    · rfl
  rw [lit, descent, noText]
  rfl

theorem descents_index_le (i : Nat) :
    descent free (.group .bracket [.node (.expr .lit) [noAttrs, lit (toString i)]]) ≤ 2 := by
  have number : descent free (.node (.expr .lit) [noAttrs, lit (toString i)]) ≤ 1 :=
    descent_le (by decide) (by simp only [descents_cons, descents_nil, descent_noAttrs, descent_number, reserve]; decide)
  simp only [descent_group, descents_cons, descents_nil]
  omega

theorem descent_stepAccess_le (step : PathStep) {base : Tree} {n : Nat} (three : 3 ≤ n) (whole : descent free base ≤ n) :
    descent free (stepAccess base step) ≤ n + 1 ∧ descents free (inside (stepAccess base step)) ≤ n + 1 := by
  have onward {k : Kind} {parts : Trees} (plain : k ≠ .macroBody) (none : reserve k = 0) (le : descents free parts ≤ n + 1) :
      descent free (.node k parts) ≤ n + 1 ∧ descents free (inside (.node k parts)) ≤ n + 1 :=
    ⟨descent_le plain (by omega), by rwa [inside_of_ne plain]⟩
  cases step with
  | field f => exact onward (by decide) rfl (by simp; omega)
  | index i =>
    have brackets := @descents_index_le free i
    exact onward (by decide) rfl (by simp only [descents_cons, descents_nil, descent_noAttrs]; omega)

theorem descent_steps_le (steps : List PathStep) {base : Tree} {n : Nat} (three : 3 ≤ n) (whole : descent free base ≤ n)
    (inner : descents free (inside base) ≤ n) :
    descent free (steps.foldl stepAccess base) ≤ n + steps.length ∧
      descents free (inside (steps.foldl stepAccess base)) ≤ n + steps.length := by
  induction steps generalizing base n with
  | nil => exact ⟨whole, inner⟩
  | cons step steps ih =>
    rw [List.foldl_cons, List.length_cons, Nat.add_comm steps.length 1, ← Nat.add_assoc]
    obtain ⟨whole, inner⟩ := descent_stepAccess_le step three whole
    exact ih (by omega) whole inner

theorem descent_modelAccess_le (model : String) (steps : List PathStep) :
    descent free (modelAccess model steps) ≤ 3 + steps.length ∧
      descents free (inside (modelAccess model steps)) ≤ 3 + steps.length :=
  descent_steps_le steps (Nat.le_refl _) (descent_var_le _) (descents_var_le _)

end Upper

def OnlyPaths (free : Tree → Bool) : Prop := ∀ t, free t = true → ∃ attrs path, t = .node (.expr .path) [attrs, path]

section Lower
variable {free : Tree → Bool} (shape : OnlyPaths free)
include shape

theorem descent_open {k : Kind} {parts : Trees} (opened : k ≠ .macroBody) (other : k ≠ .expr .path) :
    descent free (.node k parts) = reserve k + descents free parts := by
  refine descent_node opened (Bool.eq_false_iff.mpr fun isFree => ?_)
  obtain ⟨_, _, same⟩ := shape _ isFree
  cases same
  exact other rfl

theorem descent_lt_node {k : Kind} {parts : Trees} {t : Tree} (opened : k ≠ .macroBody) (other : k ≠ .expr .path)
    (mem : t ∈ parts) : descent free t + reserve k < descent free (.node k parts) := by
  have part := @descent_lt_descents free _ _ mem
  rw [descent_open shape opened other]
  omega

theorem descent_replace_le {k : Kind} (opened : k ≠ .macroBody) (other : k ≠ .expr .path) (before after : Trees) (t u : Tree) :
    descent free (.node k (before ++ u :: after)) ≤
      max (descent free (.node k (before ++ t :: after))) (reserve k + descent free u + 1) := by
  have changed := @descents_replace free before after t u
  rw [descent_open shape opened other, descent_open shape opened other]
  omega

theorem descent_of_paren {attrs e : Tree} {d : Delim} :
    descent free e + 2 ≤ descent free (.node (.expr .paren) [attrs, .group d [e]]) := by
  have group : descent free (.group d [e]) + 0 < descent free (.node (.expr .paren) [attrs, .group d [e]]) :=
    descent_lt_node shape (k := .expr .paren) (by decide) (by decide) (.tail _ (.head _))
  simp only [descent_group, descents_cons, descents_nil] at group
  omega

theorem descent_of_tried {attrs e mark : Tree} : descent free e + 1 ≤ descent free (.node (.expr .tried) [attrs, e, mark]) :=
  descent_lt_node shape (k := .expr .tried) (by decide) (by decide) (.tail _ (.head _))

theorem descent_of_reference {attrs amp mutable e : Tree} :
    descent free e + 1 ≤ descent free (.node (.expr .reference) [attrs, amp, mutable, e]) :=
  descent_lt_node shape (k := .expr .reference) (by decide) (by decide) (.tail _ (.tail _ (.tail _ (.head _))))

theorem descent_of_receiver {attrs receiver : Tree} {rest : Trees} :
    descent free receiver + 5 ≤ descent free (.node (.expr .methodCall) (attrs :: receiver :: rest)) :=
  descent_lt_node shape (k := .expr .methodCall) (by decide) (by decide) (.tail _ (.head _))

theorem descents_of_methodCall {attrs receiver dot m turbofish : Tree} {d : Delim} {args : Trees} :
    descents free args + 5 ≤ descent free (.node (.expr .methodCall) [attrs, receiver, dot, m, turbofish, .group d args]) := by
  rw [← descent_group d args]
  exact descent_lt_node shape (k := .expr .methodCall) (by decide) (by decide)
    (.tail _ (.tail _ (.tail _ (.tail _ (.tail _ (.head _))))))

theorem descents_of_call {attrs callee : Tree} {d : Delim} {args : Trees} :
    descents free args + 10 ≤ descent free (.node (.expr .call) [attrs, callee, .group d args]) := by
  rw [← descent_group d args]
  exact descent_lt_node shape (k := .expr .call) (by decide) (by decide) (.tail _ (.tail _ (.head _)))

theorem descent_stripParens_le (t : Tree) : descent free t.stripParens ≤ descent free t := by
  fun_induction Tree.stripParens t with
  | case1 attrs d e ih => exact Nat.le_trans ih (Nat.le_of_add_right_le (descent_of_paren shape))
  | case2 => exact Nat.le_refl _

theorem five_le_descent_of_isClientDowncast {client : String} {t : Tree} (h : isClientDowncast client t = true) :
    5 ≤ descent free t := by
  fun_induction isClientDowncast client t with
  | case1 attrs d e ih => exact Nat.le_trans (ih h) (Nat.le_of_add_right_le (descent_of_paren shape))
  | case2 attrs inner mark ih => exact Nat.le_trans (ih h) (Nat.le_of_add_right_le (descent_of_tried shape))
  | case3 | case4 | case5 | case6 => exact Nat.le_trans (Nat.le_add_left 5 _) (descent_of_receiver shape)
  | case7 => cases h

theorem descent_of_setCall {c : Context} {e arg : Tree} {args : Trees} (h : SetCall c e args) (mem : arg ∈ args) :
    descent free arg + 6 ≤ descent free e := by
  induction h with
  | call =>
    have listed := @descent_lt_descents free _ _ (mem_of_mem_members mem)
    exact Nat.le_trans (Nat.add_le_add_right listed 5) (descents_of_methodCall shape)
  | paren _ ih => exact Nat.le_trans (ih mem) (Nat.le_of_add_right_le (descent_of_paren shape))
  | tried _ ih => exact Nat.le_trans (ih mem) (Nat.le_of_add_right_le (descent_of_tried shape))
  | mapErr _ ih => exact Nat.le_trans (ih mem) (Nat.le_of_add_right_le (descent_of_receiver shape))

theorem descent_of_exprStmt {e semi : Tree} : descent free e + 9 ≤ descent free (.node (.stmt .expr) [e, semi]) :=
  descent_lt_node shape (k := .stmt .expr) (by decide) (by decide) (.head _)

theorem descent_of_writeStmt {c : Context} {t arg : Tree} {args : Trees} (h : WriteStmt c t args) (mem : arg ∈ args) :
    descent free arg + 15 ≤ descent free t := by
  cases h with
  | closed _ call => exact Nat.le_trans (Nat.add_le_add_right (descent_of_setCall shape call mem) 9) (descent_of_exprStmt shape)
  | @discarded attrs w eq value other semi wild _ _ call =>
    have inner := descent_of_setCall shape call mem
    have init : descent free value + 0 < descent free (.node .init [eq, value, other]) :=
      descent_lt_node shape (k := .init) (by decide) (by decide) (.tail _ (.head _))
    have whole : descent free (.node .init [eq, value, other]) + 8 <
        descent free (.node (.stmt .bind) [attrs, w, .node (.pat .wild) wild, .node .init [eq, value, other], semi]) :=
      descent_lt_node shape (k := .stmt .bind) (by decide) (by decide) (.tail _ (.tail _ (.tail _ (.head _))))
    omega
  | @guarded attrs w cond body other semi attrs' w' head path eq value binders _ _ bare _ call =>
    have inner := descent_of_setCall shape call mem
    have tested := descent_stripParens_le shape cond
    have whole := @descent_of_exprStmt free shape (.node (.expr .ifElse) [attrs, w, cond, body, other]) semi
    have condition : descent free cond + 0 < descent free (.node (.expr .ifElse) [attrs, w, cond, body, other]) :=
      descent_lt_node shape (k := .expr .ifElse) (by decide) (by decide) (.tail _ (.tail _ (.head _)))
    have given : descent free value + 0 <
        descent free (.node (.expr .letCond) [attrs', w', .node (.pat .tupleStruct) (head :: path :: binders), eq, value]) :=
      descent_lt_node shape (k := .expr .letCond) (by decide) (by decide) (.tail _ (.tail _ (.tail _ (.tail _ (.head _)))))
    rw [bare] at tested
    omega

theorem descent_stripDeref_le (e : Tree) : descent free (stripDeref e) ≤ descent free e := by
  have bare := descent_stripParens_le shape e
  unfold stripDeref
  split
  · rename_i attrs o inner same
    rw [same] at bare
    split
    · have value : descent free inner + 0 < descent free (.node (.expr .unary) [attrs, o, inner]) :=
        descent_lt_node shape (k := .expr .unary) (by decide) (by decide) (.tail _ (.tail _ (.head _)))
      exact Nat.le_trans (descent_stripParens_le shape inner) (Nat.le_trans (Nat.le_of_lt value) bare)
    · exact bare
  · split
    · rename_i call found
      split
      · obtain ⟨_, _, _, _, same, -⟩ := methodCall?_eq_some.mp found
        rw [same] at bare
        refine Nat.le_trans (descent_stripParens_le shape call.receiver) (Nat.le_trans ?_ bare)
        exact Nat.le_of_add_right_le (descent_of_receiver shape)
      · exact bare
    · exact bare

theorem descent_stripIdCall_le (e : Tree) : descent free (stripIdCall e) ≤ descent free e := by
  fun_induction stripIdCall e with
  | case1 _ _ _ ih => exact Nat.le_trans ih (Nat.le_of_add_right_le (descent_of_paren shape))
  | case2 _ _ _ _ ih => exact Nat.le_trans ih (Nat.le_of_add_right_le (descent_of_reference shape))
  | case3 => exact Nat.le_of_add_right_le (descent_of_receiver shape)
  | case4 | case5 => exact Nat.le_refl _

theorem descent_of_callPath? {t arg : Tree} {path : String} {args : Trees} (called : t.callPath? = some (path, args))
    (mem : arg ∈ args) : descent free arg + 11 ≤ descent free t := by
  obtain ⟨_, _, _, _, body, same, -, rfl⟩ := callPath?_eq_some.mp called
  have bare := descent_stripParens_le shape t
  have listed := @descent_lt_descents free _ _ (mem_of_mem_members mem)
  rw [same] at bare
  exact Nat.le_trans (Nat.add_le_add_right listed 10) (Nat.le_trans (descents_of_call shape) bare)

end Lower

mutual
theorem length_stringText {free : Tree → Bool} (shape : OnlyPaths free) : (t : Tree) → {tag : String} →
    Naming.stringText t = some tag → tag.length + 1 ≤ descent free t
  | t, tag, text => by
    unfold Naming.stringText at text
    split at text
    · rename_i attrs d e
      exact Nat.le_trans (length_stringText shape e text) (Nat.le_of_add_right_le (descent_of_paren shape))
    · rename_i attrs o m e
      exact Nat.le_trans (length_stringText shape e text) (Nat.le_of_add_right_le (descent_of_reference shape))
    · rename_i attrs literal
      have own : descent free (.leaf (.literal literal)) = tag.length := by
        rw [descent, text]
        rfl
      have value : descent free (.leaf (.literal literal)) + 0 <
          descent free (.node (.expr .lit) [attrs, .leaf (.literal literal)]) :=
        descent_lt_node shape (k := .expr .lit) (by decide) (by decide) (.tail _ (.head _))
      rwa [own] at value
    · rename_i attrs receiver dot m turbofish d
      obtain ⟨-, text⟩ := Option.ite_none_right_eq_some.mp text
      exact Nat.le_trans (length_stringText shape receiver text) (Nat.le_of_add_right_le (descent_of_receiver shape))
    · rename_i attrs a path d args
      obtain ⟨-, text⟩ := Option.ite_none_right_eq_some.mp text
      exact Nat.le_trans (length_firstText shape args text) (Nat.le_of_add_right_le (descents_of_call shape))
    · cases text

theorem length_firstText {free : Tree → Bool} (shape : OnlyPaths free) : (ts : List Tree) → {tag : String} →
    Naming.firstText ts = some tag → tag.length + 1 ≤ descents free ts
  | [], _, text => nomatch text
  | t :: _, _, text => by
    have first := length_stringText shape t text
    rw [descents_cons]
    omega
end

theorem length_steps_le (ms : ModelSet) {model : Option Model} {segments : List String} {steps : List PathStep}
    (h : ms.steps model segments = some steps) : steps.length ≤ segments.length := by
  fun_induction ModelSet.steps ms model segments generalizing steps with
  | case1 => cases h
  | case2 model head =>
    simp only [Option.bind_eq_bind, Option.bind_eq_some_iff] at h
    obtain ⟨m, -, f, -, ⟨⟩⟩ := h
    exact Nat.le_refl _
  | case3 model head second rest ihRest ih =>
    simp only [Option.bind_eq_bind, Option.bind_eq_some_iff] at h
    obtain ⟨m, -, f, -, h⟩ := h
    simp only [List.length_cons] at ih ⊢
    split at h
    · cases h
      exact Nat.le_add_left _ _
    · split at h
      · split at h
        · split at h
          · cases h
            exact Nat.le_add_left _ _
          · obtain ⟨next, -, h⟩ := Option.bind_eq_some_iff.mp h
            obtain ⟨below, further, ⟨⟩⟩ := Option.bind_eq_some_iff.mp h
            exact Nat.add_le_add_right (ihRest next further) 2
        · cases h
      · obtain ⟨next, -, h⟩ := Option.bind_eq_some_iff.mp h
        obtain ⟨below, further, ⟨⟩⟩ := Option.bind_eq_some_iff.mp h
        exact Nat.succ_le_succ (ih next further)

theorem length_keySteps {free : Tree → Bool} (shape : OnlyPaths free) {c : Context} {key : Tree} {steps : List PathStep}
    (h : keySteps c key = some steps) : steps.length ≤ descent free key := by
  obtain ⟨tag, text, resolved⟩ := Option.bind_eq_some_iff.mp h
  have named := length_stringText shape key text
  have segments : (ModelSet.segmentsOf tag).length ≤ tag.length + 1 := by
    have number := (Grammar.length_intercalate '.' (tag.toList.splitOn '.')).1
    rwa [List.intercalate_splitOn, String.length_toList, ← List.length_map (f := String.ofList)] at number
  have fields := length_steps_le _ resolved
  omega

theorem exists_of_sublistForall₂ {R : Tree → Tree → Prop} {ts us : Trees} (h : List.SublistForall₂ R ts us) {t : Tree}
    (mem : t ∈ ts) : ∃ u ∈ us, R t u := by
  induction h with
  | nil => cases mem
  | cons own _ ih =>
    rcases List.mem_cons.mp mem with rfl | mem
    · exact ⟨_, List.mem_cons_self, own⟩
    · obtain ⟨u, listed, related⟩ := ih mem
      exact ⟨u, List.mem_cons_of_mem _ listed, related⟩
  | cons_right _ ih =>
    obtain ⟨u, listed, related⟩ := ih mem
    exact ⟨u, List.mem_cons_of_mem _ listed, related⟩

def FreesPaths (c : Context) (free : Tree → Bool) : Prop := ∀ p ∈ c.paths, free p = true

section Made
variable {c : Context} {free : Tree → Bool} (shape : OnlyPaths free) {t u : Tree}
include shape

theorem descent_of_mem_paths (frees : FreesPaths c free) {p : Tree} (mem : p ∈ c.paths) : descent free p = 0 := by
  have isFree := frees p mem
  obtain ⟨_, _, rfl⟩ := shape p isFree
  rw [descent, isFree]
  rfl

theorem descents_metaAccess (made : Rewriter.metaAccess.made? c t = some u) : descents free (inside u) ≤ descent free t := by
  obtain ⟨attrs, base, rest, rfl, downcast, rfl⟩ := (metaAccess_run {}).mp made
  have long := five_le_descent_of_isClientDowncast shape downcast
  have field := @descent_metaField_le free c "client"
  rw [inside_of_ne (by decide), descent_open shape (by decide) (by decide)]
  exact Nat.le_trans (descents_replace_le [attrs] rest (by omega)) (Nat.le_add_left _ _)

theorem descents_state {attrs receiver dot : Tree} {rest : Trees} :
    descents free (inside (.node (.expr .methodCall) (attrs :: resourceData c :: dot :: rest))) ≤
      descent free (.node (.expr .methodCall) (attrs :: receiver :: dot :: rest)) := by
  have field := @descent_metaField_le free c "resource_data"
  have changed := @descents_replace free [attrs] (dot :: rest) receiver (resourceData c)
  have called := @descent_of_receiver free shape attrs receiver (dot :: rest)
  rw [descent_open shape (by decide) (by decide)] at called ⊢
  rw [inside_of_ne (by decide)]
  simp only [reserve, List.singleton_append] at changed called ⊢
  rw [resourceData] at changed ⊢
  omega

theorem descents_accessorGet (made : Rewriter.accessorGet.made? c t = some u) :
    descents free (inside u) ≤ descent free t := by
  cases (accessorGet_run {}).mp made with
  | state => exact descents_state shape
  | @field attrs receiver dot turbofish key d args steps _ one known =>
    have fields := length_keySteps shape known
    have listed := @descent_lt_descents free _ _ (mem_of_mem_members (one ▸ List.mem_singleton_self key))
    have access := (@descent_modelAccess_le free c.scope.varModel steps).2
    refine Nat.le_trans (Nat.le_trans access ?_) (descents_of_methodCall shape)
    omega

theorem descent_ownedValue_le (frees : FreesPaths c free) (value : Tree) :
    descent free (ownedValue c value) ≤ 11 + descent free value := by
  have stripped := descent_stripDeref_le shape value
  unfold ownedValue
  dsimp only
  split
  · omega
  · split
    · omega
    · split
      · rename_i p given
        have call := @descent_callOf_le free p [stripDeref value]
        have path := descent_of_mem_paths shape frees (List.mem_append_right _ (Option.mem_toList.mpr given))
        simp only [descents_cons, descents_nil] at call
        omega
      · omega

theorem descents_accessorSet (frees : FreesPaths c free)
    (made : Rewriter.accessorSet.made? c t = some u) : descents free (inside u) ≤ descent free t := by
  obtain ⟨key, value, steps, found, known, rfl⟩ := (accessorSet_run {}).mp made
  have write := setStatement_eq_some.mp found
  have ofKey := descent_of_writeStmt shape write List.mem_cons_self
  have ofValue := descent_of_writeStmt shape write (List.mem_cons_of_mem key (List.mem_singleton_self value))
  have fields := length_keySteps shape known
  have access := (@descent_modelAccess_le free c.scope.varModel steps).1
  have owned := descent_ownedValue_le shape frees value
  have assigned (target owned : Tree) : descent free (.node (.expr .assign) [noAttrs, target, op "=", owned]) ≤
      1 + max (descent free target) (descent free owned) :=
    descent_le (by decide) (by simp only [descents_cons, descents_nil, descent_noAttrs, descent_op, reserve]; omega)
  have whole := assigned (modelAccess c.scope.varModel steps) (ownedValue c value)
  rw [assignStmt, inside_of_ne (by decide)]
  simp only [descents_cons, descents_nil, descent_op]
  omega

theorem descents_importGuard (made : Rewriter.importGuard.made? c t = some u) : descents free (inside u) ≤ descent free t := by
  obtain ⟨k, parts, first, id, rfl, called, rfl⟩ := (importGuard_run {}).mp made
  have given := descent_of_callPath? shape called (List.mem_cons_of_mem first (List.mem_singleton_self id))
  have stripped := descent_stripIdCall_le shape id
  have receiver := @descent_var_le free (Naming.identifier c.config.metaVar)
  have self := @descent_var_le free "self"
  have type := @descent_methodCallOf_le free (var "self") "resource_type" []
  rw [methodCallOf, inside_of_ne (by decide)]
  simp only [descents_cons, descents_nil, descent_noAttrs, descent_op, descent_word, descent_absent, descent_parenGroup,
    varExpr] at type ⊢
  omega

theorem descent_restates_lt {s' s : Tree} (h : Restates c s' s) {stmts : Trees} (mem : s ∈ stmts) :
    descent free s' < 24 + descents free stmts := by
  have below := @descent_lt_descents free _ _ mem
  cases h with
  | same => omega
  | gone =>
    have new := @descent_markAsGone_le free c
    omega
  | @identity a _ arg found =>
    obtain ⟨e, semi, receiver, turbofish, rfl, -, called, -⟩ := setIdArgument?_eq_some.mp found
    obtain ⟨_, _, _, body, same, args⟩ := methodCall?_eq_some.mp called
    have listed := @descent_lt_descents free _ _ (mem_of_mem_members (args ▸ List.mem_singleton_self arg))
    have bare := descent_stripParens_le shape e
    have new := @descent_setIdentity_le free c arg
    have stripped := descent_stripIdCall_le shape arg
    have own := @descent_of_exprStmt free shape e semi
    rw [same] at bare
    have given := Nat.le_trans (descents_of_methodCall shape) bare
    omega
  | success answer =>
    have unit := @descent_okUnit_le free
    unfold readToSuccess? at answer
    split at answer
    · rename_i attrs w value semi
      obtain ⟨-, ⟨⟩⟩ := Option.ite_none_right_eq_some.mp answer
      have returned := descent_replace_le shape (k := .expr .returnEarly) (by decide) (by decide) [attrs, w] [] value okUnit
      have new := descent_replace_le shape (k := .stmt .expr) (by decide) (by decide) [] [semi]
        (.node (.expr .returnEarly) [attrs, w, value]) (.node (.expr .returnEarly) [attrs, w, okUnit])
      have own := @descent_of_exprStmt free shape (.node (.expr .returnEarly) [attrs, w, value]) semi
      simp only [List.cons_append, List.nil_append, reserve] at returned new
      omega
    · rename_i e semi _
      obtain ⟨-, ⟨⟩⟩ := Option.ite_none_right_eq_some.mp answer
      have new := descent_replace_le shape (k := .stmt .expr) (by decide) (by decide) [] [semi] e okUnit
      simp only [List.nil_append, reserve] at new
      omega
    · cases answer

theorem descents_controlFlow (made : Rewriter.controlFlow.made? c t = some u) : descents free (inside u) ≤ descent free t := by
  obtain ⟨d, stmts, stmts', rfl, rfl, restates⟩ := restates_controlFlow made
  have inner : descents free stmts' ≤ 24 + descents free stmts := by
    refine descents_le.mpr fun s' mem => ?_
    obtain ⟨s, listed, restated⟩ := exists_of_sublistForall₂ restates mem
    exact descent_restates_lt shape restated listed
  rw [inside_of_ne (by decide), descent_open shape (by decide) (by decide)]
  simp only [descents_cons, descents_nil, descent_group, reserve]
  omega

theorem descents_functionRename (frees : FreesPaths c free) (made : Rewriter.functionRename.made? c t = some u) :
    descents free (inside u) ≤ descent free t := by
  obtain ⟨_, _, _, rest, rfl, -, rfl⟩ | ⟨attrs, callee, rest, _, _, target, rfl, -, known, rfl⟩ :=
    (functionRename_run {}).mp made
  · exact descents_state shape
  · have path := descent_of_mem_paths shape frees (List.mem_append_left _ (mem_of_get? known))
    rw [inside_of_ne (by decide), descent_open shape (by decide) (by decide)]
    exact Nat.le_trans (descents_replace_le [attrs] rest (path ▸ Nat.zero_le _)) (Nat.le_add_left _ _)

omit shape in
theorem descent_methodArgument_le (c : Context) (arg : Tree) :
    descent free (methodArgument c arg) ≤ max 4 (descent free arg) := by
  unfold methodArgument
  split
  · have model := @descent_var_le free (Naming.identifier c.scope.varModel)
    exact descent_le (by decide) (by simp [reserve, varExpr]; omega)
  · exact Nat.le_max_right _ _

theorem descent_untried_le (value : Tree) : descent free (untried value) ≤ descent free value := by
  unfold untried
  split
  · exact Nat.le_of_add_right_le (descent_of_tried shape)
  · exact Nat.le_refl _

theorem descent_promoted_le {value v : Tree} (answer : promoted? c value = some v) : descent free v ≤ descent free value := by
  obtain ⟨⟨name, signature, args⟩, called, rfl⟩ := Option.map_eq_some_iff.mp answer
  obtain ⟨call, isCall, called⟩ := Option.bind_eq_some_iff.mp called
  obtain ⟨_, -, called⟩ := Option.bind_eq_some_iff.mp called
  obtain ⟨_, -, ⟨⟩⟩ := Option.bind_eq_some_iff.mp called
  have helper : descents free (call.args.map (methodArgument c)) + 5 ≤ descent free (untried value) ∧
      10 ≤ descent free (untried value) := by
    have bare := descent_stripParens_le shape (untried value)
    unfold Tree.call? at isCall
    split at isCall
    · rename_i attrs callee d body same
      cases isCall
      rw [same] at bare
      have given : descents free ((Trees.members body).map (methodArgument c)) ≤ max 5 (descents free body) := by
        refine descents_le.mpr fun t mem => ?_
        obtain ⟨arg, listed, rfl⟩ := List.mem_map.mp mem
        have own := @descent_methodArgument_le free c arg
        have below := @descent_lt_descents free _ _ (mem_of_mem_members listed)
        omega
      simp (disch := decide) only [descent_open shape, descents_cons, descents_nil, descent_group, reserve] at bare
      dsimp only
      omega
    · cases isCall
  have self := @descent_var_le free "self"
  have method := @descent_methodCallOf_le free (var "self") (Naming.identifier name) (call.args.map (methodArgument c))
  have le : descent free (methodCallOf (var "self") (Naming.identifier name) (call.args.map (methodArgument c))) ≤
      descent free (untried value) := by omega
  dsimp only
  unfold retry
  split
  · rename_i attrs inner mark
    simp only [untried] at le
    rw [descent_open shape (by decide) (by decide), descent_open shape (by decide) (by decide)]
    exact Nat.add_le_add_left (descents_replace_le [attrs] [mark] le) _
  · exact Nat.le_trans le (descent_untried_le shape value)

theorem descents_inlineFunction (made : Rewriter.inlineFunction.made? c t = some u) :
    descents free (inside u) ≤ descent free t := by
  obtain ⟨attrs, w, pat, eq, value, other, semi, v, rfl, -, answer, rfl⟩ | ⟨attrs, left, o, right, v, rfl, answer, rfl⟩ :=
    (inlineFunction_run {}).mp made
  · have init : descent free (.node .init [eq, v, other]) ≤ descent free (.node .init [eq, value, other]) := by
      rw [descent_open shape (by decide) (by decide), descent_open shape (by decide) (by decide)]
      exact Nat.add_le_add_left (descents_replace_le [eq] [other] (descent_promoted_le shape answer)) _
    rw [inside_of_ne (by decide), descent_open shape (by decide) (by decide)]
    exact Nat.le_trans (descents_replace_le [attrs, w, pat] [semi] init) (Nat.le_add_left _ _)
  · rw [inside_of_ne (by decide), descent_open shape (by decide) (by decide)]
    exact Nat.le_trans (descents_replace_le [attrs, left, o] [] (descent_promoted_le shape answer)) (Nat.le_add_left _ _)

theorem descent_of_literalEntries {elems : Trees} {tag : String} {value : Tree} (mem : (tag, value) ∈ literalEntries elems) :
    descent free value + 3 ≤ descents free elems := by
  obtain ⟨e, listed, made⟩ := List.mem_filterMap.mp mem
  have below := @descent_lt_descents free _ _ listed
  split at made
  · rename_i key value' pair
    obtain ⟨_, -, ⟨⟩⟩ := Option.map_eq_some_iff.mp made
    unfold Tree.tuple? at pair
    split at pair
    · rename_i attrs d body
      have members := Option.some.inj pair
      have member : value ∈ Trees.members body := by
        rw [members]
        exact List.mem_cons_of_mem _ List.mem_cons_self
      have inner := @descent_lt_descents free _ _ (mem_of_mem_members member)
      simp (disch := decide) only [descent_open shape, descents_cons, descents_nil, descent_group, reserve] at below
      omega
    · cases pair
  · cases made

theorem descents_compositeLiteral (made : Rewriter.compositeLiteral.made? c t = some u) :
    descents free (inside u) ≤ descent free t := by
  obtain ⟨k, parts, path, arg, elems, rfl, called, -, array, made⟩ := (compositeLiteral_run {}).mp made
  have given := descent_of_callPath? shape called (List.mem_singleton_self arg)
  have listed : descents free elems ≤ descent free arg := by
    unfold Tree.array? at array
    split at array
    · rename_i attrs d body
      cases array
      have below : descents free (Trees.members body) ≤ descents free body :=
        descents_le.mpr fun t mem => descent_lt_descents (mem_of_mem_members mem)
      simp (disch := decide) only [descent_open shape, descents_cons, descents_nil, descent_group, reserve]
      omega
    · cases array
  obtain ⟨m, fields, -, filled, rfl⟩ := literal?_eq_some made
  have values : descents free fields ≤ descents free elems := by
    refine descents_le.mpr fun t mem => ?_
    obtain ⟨⟨tag, value⟩, entry, made⟩ := (mem_of_mapM filled).mp mem
    obtain ⟨f, -, rfl⟩ := Option.map_eq_some_iff.mp made
    have own := descent_of_literalEntries shape entry
    have field : descent free (fieldValueOf (Naming.identifier f.name) value) ≤ descent free value + 1 :=
      descent_le (by decide) (by simp [reserve])
    omega
  have name := @descent_pathOf_le free (Naming.identifier m.name)
  rw [literalOf, inside_of_ne (by decide)]
  simp only [descents_cons, descents_nil, descent_noAttrs, descent_group, descents_commaList]
  omega

theorem descents_made (frees : FreesPaths c free) {r : Rewriter} (made : r.made? c t = some u) :
    descents free (inside u) ≤ descent free t := by
  cases r with
  | metaAccess => exact descents_metaAccess shape made
  | accessorGet => exact descents_accessorGet shape made
  | accessorSet => exact descents_accessorSet shape frees made
  | importGuard => exact descents_importGuard shape made
  | controlFlow => exact descents_controlFlow shape made
  | functionRename => exact descents_functionRename shape frees made
  | inlineFunction => exact descents_inlineFunction shape made
  | compositeLiteral => exact descents_compositeLiteral shape made

omit shape in
theorem descent_of_parseElements {body elems : Trees} (parsed : parseElements body = some elems) :
    descents free elems ≤ 32 * weights body := by
  have list : Grammar.CostsAll 30 (Parser.commaSeparated (Grammar.expr (rules (levelsFor (Trees.raw body))) true)) :=
    Grammar.costsAll_commaSeparated (Grammar.costs_expr (Grammar.frugal_rules _) true)
  have raw := weights_raw body
  refine descents_le.mpr fun t mem => ?_
  have paid : nesting t + 30 ≤ 32 * weights (Trees.raw body) := list.all parsed t mem
  have counted := descent_le_nesting free t
  omega

omit shape in
theorem descents_inside {t : Tree} (counted : free t = false) : descents free (inside t) ≤ descent free t := by
  cases t with
  | leaf token => exact Nat.zero_le _
  | group d body => exact Nat.le_of_eq (descent_group d body).symm
  | node k parts =>
    by_cases closed : k = .macroBody
    · subst closed
      rw [inside]
      cases found : vecElements? (.node .macroBody parts) with
      | none => exact Nat.zero_le _
      | some elems =>
        obtain ⟨path, bang, d, body, rfl⟩ := parts_of_vecElements? found
        obtain ⟨-, found⟩ := vecElements?_eq_some.mp found
        have room : descent free (.node .macroBody [path, bang, .group d body]) = 32 * weights body := by
          rw [descent, counted]
          rfl
        rw [room, Option.getD_some]
        split at found
        · cases found
          exact descents_le_weights _
        · exact descent_of_parseElements (Option.filter_eq_some_iff.mp found).1
    · rw [inside_of_ne closed, descent_node closed counted]
      exact Nat.le_add_left _ _

/-- What a walk goes on to from a tree that is not free has fewer levels than the tree, whatever the stage makes of it. -/
theorem descents_onward (frees : FreesPaths c free) (stage : Stage) (counted : free t = false) :
    descents free (inside (stage.made c t)) ≤ descent free t := by
  rcases stage.made_cases c t with ⟨-, same⟩ | ⟨r, -, made⟩
  · rw [same]
    exact descents_inside counted
  · exact descents_made shape frees made

end Made

end Retype.Rewrite
