import Retype.Proofs.FixedTrees

/-! Both stages, run twice, do no more than once.  The first run leaves trees at which neither stage finds anything to
do, since the second stage makes nothing that the first would rewrite. -/

namespace Retype.Rewrite
open Retype.Code

section Made
variable {c : Context}

theorem Fixed.stripParens {stage : Stage} {t : Tree} (h : Fixed stage c t) : Fixed stage c t.stripParens := by
  fun_induction Tree.stripParens t with
  | case1 a d e ih => exact ih ((h.parts (by decide) (.group d [e]) (by simp)).body e (by simp))
  | case2 t plain => exact h

theorem Fixed.members {stage : Stage} {ts : Trees} (h : ∀ t ∈ ts, Fixed stage c t) :
    ∀ t ∈ Trees.members ts, Fixed stage c t := fun t mem => h t (List.mem_of_mem_filter mem)

theorem Fixed.commaList {stage : Stage} {ts : Trees} (h : ∀ t ∈ ts, Fixed stage c t) :
    ∀ t ∈ commaList ts, Fixed stage c t := by
  fun_induction Code.commaList ts with
  | case1 => simp
  | case2 t => exact h
  | case3 t u ts ih =>
    simp only [List.forall_mem_cons] at h ⊢
    exact ⟨h.1, .leaf _, ih (List.forall_mem_cons.mpr h.2)⟩

theorem fixed_methodArgument {arg : Tree} (h : Fixed normalize c arg) : Fixed normalize c (methodArgument c arg) := by
  unfold methodArgument
  split
  · refine .node (passes_normalize_iff.mpr {}) (by decide) rfl fun t mem => ?_
    simp only [List.mem_cons, List.not_mem_nil, or_false] at mem
    rcases mem with rfl | rfl | rfl | rfl
    · exact .noAttrs
    · exact .leaf _
    · exact .leaf _
    · exact fixed_var _
  · exact h

theorem fixed_methodCallOf (steady : Steady c) (name : String) {args : Trees} (h : ∀ t ∈ args, Fixed normalize c t) :
    Fixed normalize c (methodCallOf (var "self") name args) := by
  refine .node (passes_normalize_iff.mpr (normal_methodCall steady.receiver)) (by decide) rfl fun t mem => ?_
  simp only [List.mem_cons, List.not_mem_nil, or_false] at mem
  rcases mem with rfl | rfl | rfl | rfl | rfl | rfl
  · exact .noAttrs
  · exact fixed_var _
  · exact .leaf _
  · exact .leaf _
  · exact .of_not_offered rfl (by decide) fun _ mem => by cases mem
  · exact .group _ (.commaList h)

theorem fixed_untried {stage : Stage} {value : Tree} (h : Fixed stage c value) : Fixed stage c (untried value) := by
  unfold untried
  split
  · exact h.parts (by decide) _ (by simp)
  · exact h

theorem fixed_promoted (steady : Steady c) {value v : Tree} (h : Fixed normalize c value)
    (answer : promoted? c value = some v) : Fixed normalize c v := by
  obtain ⟨⟨name, signature, args⟩, called, rfl⟩ := Option.map_eq_some_iff.mp answer
  have given : ∀ t ∈ args, Fixed normalize c t := by
    obtain ⟨call, isCall, called⟩ := Option.bind_eq_some_iff.mp called
    obtain ⟨_, -, called⟩ := Option.bind_eq_some_iff.mp called
    obtain ⟨_, -, ⟨⟩⟩ := Option.bind_eq_some_iff.mp called
    have bare := (fixed_untried h).stripParens
    unfold Tree.call? at isCall
    split at isCall
    · rename_i d args same
      cases isCall
      rw [same] at bare
      exact .members (bare.parts (by decide) (.group d args) (by simp)).body
    · cases isCall
  have made := fixed_methodCallOf steady (Naming.identifier name) fun t mem => by
    obtain ⟨arg, inside, rfl⟩ := List.mem_map.mp mem
    exact fixed_methodArgument (given arg inside)
  dsimp only
  unfold retry
  split
  · refine .node (passes_normalize_iff.mpr {}) (by decide) rfl ?_
    have parts := h.parts (by decide)
    simp only [List.forall_mem_cons] at parts ⊢
    exact ⟨parts.1, made, parts.2.2⟩
  · exact made

theorem fixed_bound (steady : Steady c) {attrs w pat eq value other semi v : Tree}
    (h : Fixed normalize c (.node (.stmt .bind) [attrs, w, pat, .node .init [eq, value, other], semi]))
    (answer : promoted? c value = some v) :
    Fixed normalize c (.node (.stmt .bind) [attrs, w, pat, .node .init [eq, v, other], semi]) := by
  have parts := h.parts (by decide)
  simp only [List.forall_mem_cons] at parts
  have init := parts.2.2.2.1.parts (by decide)
  simp only [List.forall_mem_cons] at init
  have normal : Normal c (.node (.stmt .bind) [attrs, w, pat, .node .init [eq, v, other], semi]) := {
    write := fun key value found => by
      have write := setStatement_eq_some.mp found
      cases write with
      | discarded _ inner => exact absurd inner (Walked.not_setCall_promoted steady answer)
    guard := by rintro _ _ _ _ ⟨⟩ }
  refine .node (passes_normalize_iff.mpr normal) (by decide) rfl ?_
  simp only [List.forall_mem_cons]
  refine ⟨parts.1, parts.2.1, parts.2.2.1, .of_not_offered rfl (by decide) ?_, parts.2.2.2.2⟩
  simp only [List.forall_mem_cons]
  exact ⟨init.1, fixed_promoted steady init.2.1 answer, init.2.2⟩

theorem fixed_stored (steady : Steady c) {attrs left o right v : Tree}
    (h : Fixed normalize c (.node (.expr .assign) [attrs, left, o, right])) (answer : promoted? c right = some v) :
    Fixed normalize c (.node (.expr .assign) [attrs, left, o, v]) := by
  have parts := h.parts (by decide)
  simp only [List.forall_mem_cons] at parts
  refine .node (passes_normalize_iff.mpr {}) (by decide) rfl ?_
  simp only [List.forall_mem_cons]
  exact ⟨parts.1, parts.2.1, parts.2.2.1, fixed_promoted steady parts.2.2.2.1 answer, parts.2.2.2.2⟩

theorem fixed_entry {stage : Stage} {elems : Trees} (h : ∀ t ∈ elems, Fixed stage c t) {tag : String} {value : Tree}
    (mem : (tag, value) ∈ literalEntries elems) : Fixed stage c value := by
  obtain ⟨e, inside, made⟩ := List.mem_filterMap.mp mem
  split at made
  · rename_i key value' pair
    obtain ⟨tag', -, same⟩ := Option.map_eq_some_iff.mp made
    cases same
    unfold Tree.tuple? at pair
    split at pair
    · rename_i d body
      have members := Option.some.inj pair
      have fixed := Fixed.members ((h _ inside).parts (by decide) (.group d body) (by simp)).body
      rw [members] at fixed
      exact fixed value (by simp)
    · cases pair
  · cases made

theorem fixed_literalOf (name : String) {fields : Trees} (h : ∀ t ∈ fields, Fixed normalize c t) :
    Fixed normalize c (literalOf name fields) := by
  refine .node (passes_normalize_iff.mpr (normal_structLit _)) (by decide) rfl ?_
  simp only [List.forall_mem_cons]
  exact ⟨.noAttrs, fixed_pathOf name, .group _ (.commaList h), by simp⟩

theorem fixed_literal {t arg u : Tree} {path : String} {elems : Trees} (h : Fixed normalize c t)
    (called : t.callPath? = some (path, [arg])) (array : arg.array? = some elems) (made : literal? c elems = some u) :
    Fixed normalize c u := by
  have given : ∀ t ∈ elems, Fixed normalize c t := by
    obtain ⟨a, attrs, p, d, body, bare, -, one⟩ := callPath?_eq_some.mp called
    have call := h.stripParens
    rw [bare] at call
    have args := Fixed.members (call.parts (by decide) (.group d body) (by simp)).body
    rw [one] at args
    have fixed := args arg (by simp)
    unfold Tree.array? at array
    split at array
    · rename_i d' es
      cases array
      exact .members (fixed.parts (by decide) (.group d' es) (by simp)).body
    · cases array
  obtain ⟨m, fields, -, filled, rfl⟩ := literal?_eq_some made
  refine fixed_literalOf _ fun t mem => ?_
  obtain ⟨⟨tag, value⟩, inside, made⟩ := (mem_of_mapM filled).mp mem
  obtain ⟨f, -, rfl⟩ := Option.map_eq_some_iff.mp made
  refine .of_not_offered rfl (by decide) ?_
  simp only [List.forall_mem_cons]
  exact ⟨.noAttrs, .leaf _, .leaf _, fixed_entry given inside, by simp⟩

theorem fixed_made_promote (steady : Steady c) {t : Tree} (h : Fixed normalize c t) :
    Fixed normalize c (promote.made c t) := by
  obtain ⟨-, same⟩ | ⟨r, mem, made⟩ := promote.made_cases c t
  · rwa [same]
  · generalize promote.made c t = u at made
    simp only [promote, List.mem_cons, List.not_mem_nil, or_false] at mem
    rcases mem with rfl | rfl
    · obtain ⟨_, _, _, _, _, _, _, _, rfl, -, answer, rfl⟩ | ⟨_, _, _, _, _, rfl, answer, rfl⟩ := (inlineFunction_run {}).mp made
      · exact fixed_bound steady h answer
      · exact fixed_stored steady h answer
    · obtain ⟨_, _, _, _, _, -, called, -, array, answer⟩ := (compositeLiteral_run {}).mp made
      exact fixed_literal h called array answer

end Made

theorem WalksAll.fixed_normalize {c : Context} (steady : Steady c) {ts ts' : Trees} {s s' : State}
    (h : WalksAll promote c ts s ts' s') (before : ∀ t ∈ ts, Fixed normalize c t) : ∀ t ∈ ts', Fixed normalize c t := by
  have made : ∀ {t u : Tree} {s s₁ : State}, (promote.offer c t).run s = (u, s₁) → Fixed normalize c t →
      Fixed normalize c u := fun offered fixed => by
    rw [Offered.eq_made ⟨_, _, offered⟩]
    exact fixed_made_promote steady fixed
  induction h with
  | nil => simp
  | leaf _ _ ih => exact List.forall_mem_cons.mpr ⟨.leaf _, ih (List.forall_mem_cons.mp before).2⟩
  | group offered _ _ ihInner ih =>
    obtain ⟨first, rest⟩ := List.forall_mem_cons.mp before
    exact List.forall_mem_cons.mpr ⟨.group _ (ihInner (made offered first).body), ih rest⟩
  | elements offered found inner _ ihInner ih =>
    obtain ⟨first, rest⟩ := List.forall_mem_cons.mp before
    refine List.forall_mem_cons.mpr ⟨.elements (vecElements?_walked found inner.forall₂) (ihInner ?_), ih rest⟩
    cases made offered first with
    | elements list fixed =>
      rw [list] at found
      cases found
      exact fixed
    | closed noList => rw [noList] at found; cases found
    | node _ opened => exact absurd rfl opened
  | closed offered noList _ ih =>
    obtain ⟨first, rest⟩ := List.forall_mem_cons.mp before
    obtain ⟨parts', same, noList', bare⟩ := closed_closeMacro noList
    exact List.forall_mem_cons.mpr ⟨same ▸ .closed noList' bare, ih rest⟩
  | @node t _ parts parts' _ k _ _ _ _ offered opened inner _ ihInner ih =>
    obtain ⟨first, rest⟩ := List.forall_mem_cons.mp before
    have own := made offered first
    have passes : Passes promote c (.node k parts) := by
      rw [Offered.eq_made ⟨_, _, offered⟩]
      exact passes_made_promote c t
    have walked := Walked.of_passes passes opened inner
    have normal := (passes_normalize_iff.mp own.passes).walked steady walked passes
    refine List.forall_mem_cons.mpr ⟨.node (passes_normalize_iff.mpr normal) opened (regroup_regroup k parts') ?_, ih rest⟩
    exact fixed_regroup (settles_normalize steady) k (ihInner (own.parts opened))

theorem weight_lt_walkDepth (c : Context) (t : Tree) : weight t < walkDepth c t := by
  rw [walkDepth]
  omega

theorem runStages?_standard_eq (c : Context) (block : Tree) : runStages? c standard block =
    (do let normal ← normalize.survive? c block; promote.survive? c normal) := by
  simp only [standard, standardStages, List.map_cons, List.map_nil, runStages?, bind_pure]

theorem runStages?_eq_some {c : Context} {block block' : Tree} {s s' : State} :
    (runStages? c standard block).run s = some (block', s') ↔
      ∃ normal s₁, (normalize.survive? c block).run s = some (normal, s₁) ∧
        (promote.survive? c normal).run s₁ = some (block', s') := by
  rw [runStages?_standard_eq, StateT.run_bind, Option.bind_eq_bind, Option.bind_eq_some_iff, Prod.exists]

theorem Fixed.survive? {stage : Stage} {c : Context} {block : Tree} (staged : stage ∈ standard)
    (fixed : Fixed stage c block) (code : isCode block = true) (s : State) :
    ∃ s', (stage.survive? c block).run s = some (block, s') := by
  obtain ⟨s', run, kept⟩ := fixed.walk staged (weight_lt_walkDepth c block) s
  have unbroken : s'.helpersOnly.broken = s.helpersOnly.broken := congrArg State.broken kept
  exact ⟨s', Stage.survive?_eq_some.mpr ⟨run, code, unbroken⟩⟩

theorem runStages?_of_fixed {c : Context} {block : Tree} (first : Fixed normalize c block)
    (second : Fixed promote c block) (code : isCode block = true) (s : State) :
    ∃ s', (runStages? c standard block).run s = some (block, s') := by
  obtain ⟨s₁, normal⟩ := first.survive? (by decide) code s
  obtain ⟨s₂, promoted⟩ := second.survive? (by decide) code s₁
  exact ⟨s₂, runStages?_eq_some.mpr ⟨block, s₁, normal, promoted⟩⟩

theorem runStages?_fixed {c : Context} (steady : Steady c) {block block' : Tree} {s s' : State}
    (h : (runStages? c standard block).run s = some (block', s')) :
    Fixed normalize c block' ∧ Fixed promote c block' ∧ isCode block' = true := by
  obtain ⟨normal, s₁, first, second⟩ := runStages?_eq_some.mp h
  obtain ⟨first, -⟩ := Stage.survive?_eq_some.mp first
  obtain ⟨second, code, -⟩ := Stage.survive?_eq_some.mp second
  have walked := Stage.walksAll_of_run? first
  have walked' := Stage.walksAll_of_run? second
  have fixed := walked.fixed (settles_normalize steady)
  exact ⟨walked'.fixed_normalize steady fixed _ (by simp), walked'.fixed (settles_promote steady) _ (by simp), code⟩

theorem exprPath_of_parsePathExpr {source : String} {e : Tree} (h : parsePathExpr source = some e) :
    ∃ attrs path, e = .node (.expr .path) [attrs, path] := by
  obtain ⟨tokens, -, h⟩ := Option.bind_eq_some_iff.mp h
  unfold parseAll Parser.all at h
  split at h
  · rename_i run
    cases h
    simp only [StateT.run_bind, StateT.run_pure, Option.bind_eq_bind, Option.bind_eq_some_iff, Option.pure_def,
      Option.some.injEq, Prod.mk.injEq, Prod.exists] at run
    obtain ⟨attrs, _, -, path, _, -, rfl, -⟩ := run
    exact ⟨attrs, path, rfl⟩
  · cases h

/-- Renames lead to paths that call nothing else the rewriters know. -/
def RenamesEnd (c : Context) : Prop := ∀ entry ∈ c.config.functionRenames, ∀ e, parsePathExpr entry.2 = some e →
  ∀ path, e.exprPath? = some path → Unknown c path.pathString

theorem steady_make {config : Config} {models : ModelSet} {helpers : Table HelperSignature} {readFn : String}
    {scope : Scope} (renames : RenamesEnd (.make config models helpers readFn scope))
    (accessor : ∀ a, scope.accessor = some a → a ≠ Naming.identifier config.metaVar ∧ a ≠ "self") :
    Steady (.make config models helpers readFn scope) where
  accessor := accessor
  targets target listed := by
    obtain ⟨⟨source, e⟩, mem, rfl⟩ := List.mem_map.mp listed
    obtain ⟨entry, inside, made⟩ := List.mem_filterMap.mp mem
    obtain ⟨e, parsed, same⟩ := Option.map_eq_some_iff.mp made
    cases same
    obtain ⟨attrs, path, rfl⟩ := exprPath_of_parsePathExpr parsed
    exact ⟨attrs, path, rfl, renames entry inside _ parsed path rfl⟩

instance (c : Context) (path : String) : Decidable (Unknown c path) :=
  decidable_of_iff ((Table.get? c.renames path).isNone = true ∧ path ≠ c.config.importGuard ∧
      path.startsWith (c.config.timeoutModule ++ "::for_") = false ∧ path ≠ c.readFn ∧ path ≠ "String::from")
    ⟨fun ⟨rename, guard, timeout, read, text⟩ => ⟨Option.isNone_iff_eq_none.mp rename, guard, timeout, read, text⟩,
      fun h => ⟨Option.isNone_iff_eq_none.mpr h.rename, h.guard, h.timeout, h.read, h.text⟩⟩

theorem renamesEnd_of_all {config : Config} {models : ModelSet} {helpers : Table HelperSignature} {readFn : String}
    {scope : Scope} (h : ((renamePaths config.functionRenames).all fun entry => entry.2.exprPath?.all fun path =>
      decide (Unknown (.make config models helpers readFn scope) path.pathString)) = true) :
    RenamesEnd (.make config models helpers readFn scope) := by
  intro entry mem e parsed path isPath
  have listed : (entry.1, e) ∈ renamePaths config.functionRenames :=
    List.mem_filterMap.mpr ⟨entry, mem, Option.map_eq_some_iff.mpr ⟨e, parsed, rfl⟩⟩
  have known := List.all_eq_true.mp h _ listed
  rw [isPath, Option.all_some] at known
  exact of_decide_eq_true known

theorem renamesEnd_default (metaVar : String) (models : ModelSet) (helpers : Table HelperSignature) (scope : Scope) :
    RenamesEnd (.make { metaVar } models helpers "widget_read" scope) := by
  have ends : RenamesEnd (.make {} ⟨"", []⟩ [] "widget_read" ⟨"", .helper, "", none⟩) :=
    renamesEnd_of_all (by decide +kernel)
  intro entry mem e parsed path isPath
  obtain ⟨rename, guard, timeout, read, text⟩ := ends entry mem e parsed path isPath
  exact ⟨rename, guard, timeout, read, text⟩

/-- The standard stages are idempotent on bodies, whatever the state of either run, if renames lead to nothing that
rewriters know and the accessor is neither the identifier that the metadata is written as nor the receiver that the
methods made of helpers are called on: where a run of them gives a body, a run over this gives it again. -/
theorem standard_stages_idempotent (config : Config) (models : ModelSet) (helpers : Table HelperSignature)
    (readFn : String) (scope : Scope) (renames : RenamesEnd (.make config models helpers readFn scope))
    (accessor : ∀ a, scope.accessor = some a → a ≠ Naming.identifier config.metaVar ∧ a ≠ "self")
    (block once : Tree) (s s' s₂ : State) :
    let c := Context.make config models helpers readFn scope
    (runStages? c standard block).run s = some (once, s') →
      ∃ s₂', (runStages? c standard once).run s₂ = some (once, s₂') := by
  intro c ran
  obtain ⟨first, second, code⟩ := runStages?_fixed (steady_make renames accessor) ran
  exact runStages?_of_fixed first second code s₂

/-- The default renames end, and a run writes the name of a widget to its model. -/
theorem standard_stages_idempotent_widget :
    let models : ModelSet := ⟨"WidgetModel", [⟨"WidgetModel", [⟨"name", "String", "name"⟩], true⟩]⟩
    let scope : Scope := ⟨"widget_create", .create, "model", some "d"⟩
    let c := Context.make {} models [] "widget_read" scope
    let block := blockOf [closedStmt (triedOf (methodCallOf (var "d") "set"
      [stringExpr "name", callOf (exprOf (.node .path [.node .segment [word "tags", Tree.absent], op "::",
        .node .segment [word "flatten", Tree.absent]])) [var "x"]]))]
    ∃ once s' s₂', (runStages? c standard block).run {} = some (once, s') ∧
      once.text = "\x7b model . name = tags :: flatten_typed (x) ; \x7d" ∧
      (runStages? c standard once).run {} = some (once, s₂') := by
  intro models scope c block
  have ends : ((runStages? c standard block).run {}).any
      (·.1.text == "\x7b model . name = tags :: flatten_typed (x) ; \x7d") = true := by
    decide +kernel
  obtain ⟨⟨once, s'⟩, ran, text⟩ := (Option.any_eq_true _ _).mp ends
  obtain ⟨s₂', again⟩ := standard_stages_idempotent {} models [] "widget_read" scope
    (renamesEnd_default "meta" models [] scope) (by rintro a ⟨⟩; decide +kernel) block once {} s' {} ran
  exact ⟨once, s', s₂', ran, eq_of_beq text, again⟩

/-- The second run gives another body than the first. -/
def ChangesTwice (c : Context) (block : Tree) : Prop :=
  ∃ once twice s' s₂', (runStages? c standard block).run {} = some (once, s') ∧
    (runStages? c standard once).run {} = some (twice, s₂') ∧ twice ≠ once

/-- Whether the second run gives a body of another size. -/
def resizesTwice (c : Context) (block : Tree) : Bool :=
  ((runStages? c standard block).run {}).any fun (once, _) =>
    ((runStages? c standard once).run {}).any fun (twice, _) => twice.size != once.size

theorem changesTwice_of_resizesTwice {c : Context} {block : Tree} (h : resizesTwice c block = true) :
    ChangesTwice c block := by
  obtain ⟨⟨once, s'⟩, ran, h⟩ := (Option.any_eq_true _ _).mp h
  obtain ⟨⟨twice, s₂'⟩, again, sizes⟩ := (Option.any_eq_true _ _).mp h
  exact ⟨once, twice, s', s₂', ran, again, fun same => bne_iff_ne.mp sizes (congrArg Tree.size same)⟩

/-- Two accessors that differ from the name of the metadata, each with a body that a second run changes.  Where the
accessor is what that name is written as, each run drops one `.id()`; where it is the receiver, the first run makes a
read of a helper's call. -/
theorem standard_stages_not_idempotent :
    let models : ModelSet := ⟨"WidgetModel", [⟨"WidgetModel", [⟨"name", "String", "name"⟩], true⟩]⟩
    let written := Context.make { metaVar := "r#data" } models [] "widget_read"
      ⟨"widget_create", .create, "model", some "data"⟩
    let received := Context.make {} models [("get", ⟨[], none⟩)] "widget_read"
      ⟨"widget_create", .create, "model", some "self"⟩
    let cleared := blockOf [closedStmt (methodCallOf (var "data") "set_id"
      [methodCallOf (methodCallOf (var "x") "id" []) "id" []])]
    let bound := blockOf [letMut "v" (callOf (var "get") [stringExpr "name"])]
    ("data" ≠ written.config.metaVar ∧ RenamesEnd written ∧ ChangesTwice written cleared) ∧
      "self" ≠ received.config.metaVar ∧ RenamesEnd received ∧ ChangesTwice received bound := by
  intro models written received cleared bound
  refine ⟨⟨by decide, renamesEnd_default _ _ _ _, changesTwice_of_resizesTwice ?_⟩, by decide,
    renamesEnd_default _ _ _ _, changesTwice_of_resizesTwice ?_⟩
  · decide +kernel
  · decide +kernel

end Retype.Rewrite
