import Retype.Proofs.Offers

/-! Trees that a stage leaves as they are.  What a rewriter makes is such a tree, if renames do not lead to calls
that another rewriter knows and the accessor is no name that rewriters write. -/

namespace Retype.Rewrite
open Retype.Code

/-- A path that calls nothing the rewriters know. -/
structure Unknown (c : Context) (path : String) : Prop where
  rename : Table.get? c.renames path = none
  guard : path ≠ c.config.importGuard
  timeout : path.startsWith (c.config.timeoutModule ++ "::for_") = false
  read : path ≠ c.readFn
  text : path ≠ "String::from"

/-- Renames lead to paths that no rewriter knows, and the accessor is no name that rewriters write. -/
structure Steady (c : Context) : Prop where
  targets : ∀ target ∈ c.renames.map (·.2), ∃ attrs path, target = .node (.expr .path) [attrs, path] ∧
    Unknown c path.pathString
  accessor : ∀ a, c.scope.accessor = some a → a ≠ Naming.identifier c.config.metaVar ∧ a ≠ "self"

theorem mem_of_get? {c : Context} {path : String} {target : Tree} (known : Table.get? c.renames path = some target) :
    target ∈ c.renames.map (·.2) := by
  obtain ⟨entry, found, rfl⟩ := Option.map_eq_some_iff.mp known
  exact List.mem_map_of_mem (List.mem_of_find?_eq_some found)

theorem isAccessor_var (c : Context) (name : String) :
    c.isAccessor (var name) = true ↔ c.scope.accessor = some name := by
  unfold Context.isAccessor
  cases c.scope.accessor with
  | none =>
    constructor
    · rintro ⟨⟩
    · rintro ⟨⟩
  | some a =>
    show (some name == some a) = true ↔ some a = some name
    rw [beq_iff_eq]
    exact eq_comm

theorem Steady.metaVar {c : Context} (steady : Steady c) : c.isAccessor (varExpr c.config.metaVar) = false := by
  rw [Bool.eq_false_iff]
  intro isVar
  exact (steady.accessor _ ((isAccessor_var c _).mp isVar)).1 rfl

theorem Steady.receiver {c : Context} (steady : Steady c) : c.isAccessor (var "self") = false := by
  rw [Bool.eq_false_iff]
  intro isVar
  exact (steady.accessor _ ((isAccessor_var c _).mp isVar)).2 rfl

/-- The first stage finds nothing to do at a tree.  What is said of trees of another shape holds of itself. -/
structure Normal (c : Context) (t : Tree) : Prop where
  downcast : ∀ attrs base rest, t = .node (.expr .field) (attrs :: base :: rest) →
    isClientDowncast c.config.clientType base = false := by rintro _ _ _ ⟨⟩
  read : ∀ u, ¬ Reads c t u := by rintro _ ⟨⟩
  write : ∀ key value, setStatement c t = some [key, value] → keySteps c key = none := by rintro _ _ ⟨⟩
  guard : ∀ k parts first id, t = .node (.expr k) parts →
    t.callPath? ≠ some (c.config.importGuard, [first, id]) := by rintro _ _ _ _ _ ⟨⟩
  list : ∀ d stmts, t = .node .block [.group d stmts] → Finished c stmts := by rintro _ _ ⟨⟩
  fresh : ∀ attrs receiver dot rest,
    t = .node (.expr .methodCall) (attrs :: receiver :: dot :: word "is_new_resource" :: rest) →
    c.isAccessor receiver = false := by rintro _ _ _ _ ⟨⟩
  rename : ∀ attrs callee rest path args, t = .node (.expr .call) (attrs :: callee :: rest) →
    t.callPath? = some (path, args) → Table.get? c.renames path = none := by rintro _ _ _ _ _ ⟨⟩

theorem passes_normalize_iff {c : Context} {t : Tree} : Passes normalize c t ↔ Normal c t := by
  constructor
  · intro passes
    have none : ∀ r ∈ normalize, ∀ u, r.made? c t ≠ some u := fun r mem u => by simp [passes r mem]
    refine ⟨fun attrs base rest same => ?_, fun u reads => ?_, fun key value found => ?_, fun k parts first id same called => ?_,
      fun d stmts same => ?_, fun attrs receiver dot rest same => ?_, fun attrs callee rest path args same called => ?_⟩
    · by_contra downcast
      rw [Bool.not_eq_false] at downcast
      exact none .metaAccess (by decide) _ ((metaAccess_run {}).mpr ⟨attrs, base, rest, same, downcast, rfl⟩)
    · exact none .accessorGet (by decide) u ((accessorGet_run {}).mpr reads)
    · cases known : keySteps c key with
      | none => rfl
      | some steps =>
        exact absurd ((accessorSet_run {}).mpr ⟨key, value, steps, found, known, rfl⟩)
          (none .accessorSet (by decide) _)
    · exact none .importGuard (by decide) _ ((importGuard_run {}).mpr ⟨k, parts, first, id, same, called, rfl⟩)
    · subst same
      exact (controlFlow_run_block d stmts {}).mp (passes .controlFlow (by decide))
    · by_contra accessor
      rw [Bool.not_eq_false] at accessor
      exact none .functionRename (by decide) _
        ((functionRename_run {}).mpr (.inl ⟨attrs, receiver, dot, rest, same, accessor, rfl⟩))
    · cases known : Table.get? c.renames path with
      | none => rfl
      | some target =>
        exact absurd ((functionRename_run {}).mpr (.inr ⟨attrs, callee, rest, path, args, target, same, called, known, rfl⟩))
          (none .functionRename (by decide) _)
  · intro normal r mem
    refine Option.eq_none_iff_forall_ne_some.mpr fun u made => ?_
    simp only [normalize, List.mem_cons, List.not_mem_nil, or_false] at mem
    rcases mem with rfl | rfl | rfl | rfl | rfl | rfl
    · obtain ⟨attrs, base, rest, same, downcast, -⟩ := (metaAccess_run {}).mp made
      rw [normal.downcast attrs base rest same] at downcast
      cases downcast
    · exact normal.read u ((accessorGet_run {}).mp made)
    · obtain ⟨key, value, steps, found, known, -⟩ := (accessorSet_run {}).mp made
      rw [normal.write key value found] at known
      cases known
    · obtain ⟨k, parts, first, id, same, called, -⟩ := (importGuard_run {}).mp made
      exact normal.guard k parts first id same called
    · obtain ⟨d, stmts, rfl, -⟩ := controlFlow_run_some made
      have passed := (controlFlow_run_block d stmts {}).mpr (normal.list d stmts rfl)
      exact absurd (passed.symm.trans made) (by simp)
    · obtain ⟨attrs, receiver, dot, rest, same, accessor, -⟩ | ⟨attrs, callee, rest, path, args, target, same, called, known, -⟩ :=
        (functionRename_run {}).mp made
      · rw [normal.fresh attrs receiver dot rest same] at accessor
        cases accessor
      · rw [normal.rename attrs callee rest path args same called] at known
        cases known

section Made
variable {c : Context}

theorem normal_field {attrs base : Tree} {rest : Trees} (h : isClientDowncast c.config.clientType base = false) :
    Normal c (.node (.expr .field) (attrs :: base :: rest)) where
  downcast _ _ _ same := by
    cases same
    exact h

theorem normal_index (parts : Trees) : Normal c (.node (.expr .index) parts) where

theorem normal_structLit (parts : Trees) : Normal c (.node (.expr .structLit) parts) where

theorem normal_methodCall {attrs receiver : Tree} {rest : Trees} (h : c.isAccessor receiver = false) :
    Normal c (.node (.expr .methodCall) (attrs :: receiver :: rest)) where
  read _ reads := by
    cases reads with
    | state accessor => exact absurd accessor (by simp [h])
    | field accessor => exact absurd accessor (by simp [h])
  fresh _ _ _ _ same := by
    cases same
    exact h

theorem normal_assignStmt (target value : Tree) : Normal c (assignStmt target value) where
  guard _ _ _ _ same := by cases same

theorem normal_call {parts args : Trees} {path : String}
    (called : (Code.Tree.node (.expr .call) parts).callPath? = some (path, args)) (unknown : Unknown c path) :
    Normal c (.node (.expr .call) parts) where
  guard _ _ _ _ _ found := by
    rw [called] at found
    cases found
    exact unknown.guard rfl
  rename _ _ _ _ _ _ found := by
    rw [called] at found
    cases found
    exact unknown.rename

theorem normal_block {d : Delim} {stmts : Trees} (finished : Finished c stmts) :
    Normal c (.node .block [.group d stmts]) where
  guard _ _ _ _ same := by cases same
  list _ _ same := by
    cases same
    exact finished

theorem isClientDowncast_modelAccess (client model : String) (steps : List PathStep) :
    isClientDowncast client (modelAccess model steps) = false := by
  obtain rfl | ⟨init, last, rfl⟩ := List.eq_nil_or_concat' steps
  · rfl
  · rw [modelAccess_concat]
    cases last <;> rfl

theorem normal_modelAccess {key : Tree} {steps : List PathStep} (known : keySteps c key = some steps) :
    Normal c (modelAccess c.scope.varModel steps) := by
  obtain rfl | ⟨init, last, rfl⟩ := List.eq_nil_or_concat' steps
  · exact absurd rfl (keySteps_ne_nil known)
  · rw [modelAccess_concat]
    cases last with
    | field f => exact normal_field (isClientDowncast_modelAccess _ _ _)
    | index i => exact normal_index _

/-- A statement that a list keeps wherever it stands. -/
structure Inert (c : Context) (s : Tree) : Prop where
  acquisition : isAcquisition c s = false
  identity : ∀ a, c.scope.accessor = some a → setIdArgument? a s = none

theorem replaceTrailingRead_concat (init : Trees) (last : Tree) :
    replaceTrailingRead c (init ++ [last]) = (readToSuccess? c last).map fun made => init ++ [made] := by
  induction init with
  | nil => rfl
  | cons s init ih =>
    obtain ⟨t, rest, same⟩ : ∃ t rest, init ++ [last] = t :: rest := List.exists_cons_of_ne_nil (by simp)
    rw [List.cons_append, same, replaceTrailingRead, ← same, ih, Option.map_map]
    rfl

theorem setsIdentity_eq_false {stmts : Trees} : setsIdentity c.scope.accessor stmts = false ↔
    ∀ s ∈ stmts, ∀ a, c.scope.accessor = some a → setIdArgument? a s = none := by
  unfold setsIdentity
  cases c.scope.accessor with
  | none => simp
  | some a => simp

theorem finished_iff {stmts : Trees} : Finished c stmts ↔ (∀ s ∈ stmts, Inert c s) ∧
    ∀ s, stmts.getLast? = some s → readToSuccess? c s = none := by
  have trailing : replaceTrailingRead c stmts = none ↔ ∀ s, stmts.getLast? = some s → readToSuccess? c s = none := by
    obtain rfl | ⟨init, last, rfl⟩ := List.eq_nil_or_concat' stmts
    · simp [replaceTrailingRead]
    · simp [replaceTrailingRead_concat]
  constructor
  · rintro ⟨acquisitions, identities, reads⟩
    rw [setsIdentity_eq_false] at identities
    refine ⟨fun s mem => ⟨?_, identities s mem⟩, trailing.mp reads⟩
    simpa using List.any_eq_false.mp acquisitions s mem
  · rintro ⟨inert, last⟩
    refine ⟨?_, setsIdentity_eq_false.mpr fun s mem => (inert s mem).identity, trailing.mpr last⟩
    exact List.any_eq_false.mpr fun s mem => by simp [(inert s mem).acquisition]

theorem acquisition_of_mem_elideTimeouts {stmts : Trees} {s : Tree} (mem : s ∈ elideTimeouts c stmts) :
    isAcquisition c s = false := by
  fun_induction elideTimeouts c stmts <;> simp_all
  rcases mem with rfl | mem <;> simp_all

theorem mem_moveIdentity {a : String} {stmts : Trees} {s : Tree} (mem : s ∈ moveIdentity c a stmts) :
    (s ∈ stmts ∧ setIdArgument? a s = none) ∨ s = markAsGone c ∨ ∃ id, s = setIdentity c id := by
  fun_induction moveIdentity c a stmts with
  | case1 => cases mem
  | case2 s' rest kept ih =>
    rcases List.mem_cons.mp mem with rfl | mem
    · exact .inl ⟨List.mem_cons_self, kept⟩
    · rcases ih mem with ⟨mem, kept⟩ | made
      · exact .inl ⟨List.mem_cons_of_mem _ mem, kept⟩
      · exact .inr made
  | case3 => exact .inr (.inl (List.mem_singleton.mp mem))
  | case4 s' rest arg _ _ ih =>
    rcases List.mem_cons.mp mem with rfl | mem
    · exact .inr (.inr ⟨arg, rfl⟩)
    · rcases ih mem with ⟨mem, kept⟩ | made
      · exact .inl ⟨List.mem_cons_of_mem _ mem, kept⟩
      · exact .inr made

theorem setIdArgument?_eq_some {a : String} {t arg : Tree} : setIdArgument? a t = some arg ↔ ∃ e semi receiver turbofish,
    t = .node (.stmt .expr) [e, semi] ∧ semi.isAbsent = false ∧
      e.stripParens.methodCall? = some ⟨receiver, "set_id", turbofish, [arg]⟩ ∧ receiver.bare.isVar a = true := by
  unfold setIdArgument?
  constructor
  · intro h
    split at h
    · split at h
      · cases h
      · rename_i semicolon
        split at h
        · rename_i called
          split at h
          · rename_i accessor
            cases h
            exact ⟨_, _, _, _, rfl, Bool.eq_false_iff.mpr semicolon, called, accessor⟩
          · cases h
        · cases h
    · cases h
  · rintro ⟨e, semi, receiver, turbofish, rfl, semicolon, called, accessor⟩
    simp only [semicolon, Bool.false_eq_true, if_false, called, accessor, if_true]

theorem setIdArgument?_setIdentity (steady : Steady c) {a : String} (accessor : c.scope.accessor = some a) (id : Tree) :
    setIdArgument? a (setIdentity c id) = none := by
  have other : (varExpr c.config.metaVar).bare.isVar a = false := by
    have different := steady.metaVar
    rwa [Context.isAccessor, accessor] at different
  refine Option.eq_none_iff_forall_ne_some.mpr fun arg found => ?_
  obtain ⟨_, _, receiver, _, ⟨⟩, -, called, isVar⟩ := setIdArgument?_eq_some.mp found
  have same : varExpr c.config.metaVar = receiver := congrArg MethodCall.receiver (Option.some.inj called)
  rw [← same, other] at isVar
  cases isVar

theorem inert_of_mem_moveIdentities (steady : Steady c) {stmts : Trees} {s : Tree}
    (mem : s ∈ moveIdentities c (elideTimeouts c stmts)) : Inert c s := by
  unfold moveIdentities at mem
  split at mem
  · rename_i a accessor
    rcases mem_moveIdentity mem with ⟨mem, kept⟩ | rfl | ⟨id, rfl⟩
    · refine ⟨acquisition_of_mem_elideTimeouts mem, fun a' accessor' => ?_⟩
      rw [accessor] at accessor'
      cases accessor'
      exact kept
    · exact ⟨rfl, fun _ _ => rfl⟩
    · exact ⟨rfl, fun a' accessor' => setIdArgument?_setIdentity steady accessor' id⟩
  · rename_i noAccessor
    refine ⟨acquisition_of_mem_elideTimeouts mem, fun a accessor => ?_⟩
    rw [noAccessor] at accessor
    cases accessor

theorem isReadCall_okUnit : isReadCall c okUnit = false := by
  have noAccessor : c.isAccessor unitTuple = false := by
    unfold Context.isAccessor
    split <;> rfl
  have called : okUnit.callPath? = some ("Ok", [unitTuple]) := by rfl
  simp only [isReadCall, called, noAccessor, Bool.and_false]

theorem inert_of_readToSuccess? {s made : Tree} (h : readToSuccess? c s = some made) :
    Inert c made ∧ readToSuccess? c made = none := by
  unfold readToSuccess? at h
  split at h
  · split at h
    · cases h
      refine ⟨⟨rfl, fun a _ => ?_⟩, ?_⟩
      · simp [setIdArgument?, Tree.stripParens, Tree.methodCall?]
      · simp [readToSuccess?, isReadCall_okUnit]
    · cases h
  · split at h
    · rename_i absent
      cases h
      rw [Bool.and_eq_true] at absent
      refine ⟨⟨rfl, fun a _ => ?_⟩, ?_⟩
      · simp [setIdArgument?, absent.1]
      · rw [readToSuccess?, isReadCall_okUnit, Bool.and_false]
        · rfl
        · rintro _ _ _ ⟨⟩
    · cases h
  · cases h

theorem finished_of_made (steady : Steady c) {d : Delim} {stmts : Trees} {u : Tree}
    (made : Rewriter.controlFlow.made? c (.node .block [.group d stmts]) = some u) :
    ∃ stmts', u = .node .block [.group d stmts'] ∧ Finished c stmts' := by
  have inert : ∀ s ∈ moveIdentities c (elideTimeouts c stmts), Inert c s := fun s => inert_of_mem_moveIdentities steady
  simp only [Rewriter.made?, Rewriter.apply, controlFlow] at made
  generalize moveIdentities c (elideTimeouts c stmts) = moved at made inert
  obtain rfl | ⟨init, last, rfl⟩ := List.eq_nil_or_concat' moved
  · simp only [replaceTrailingRead] at made
    split at made
    · cases made
      exact ⟨[], rfl, finished_iff.mpr ⟨by simp, by simp⟩⟩
    · cases made
  · rw [replaceTrailingRead_concat] at made
    cases ends : readToSuccess? c last with
    | none =>
      simp only [ends, Option.map_none] at made
      split at made
      · cases made
        exact ⟨_, rfl, finished_iff.mpr ⟨inert, by simpa using ends⟩⟩
      · cases made
    | some success =>
      simp only [ends, Option.map_some] at made
      cases made
      obtain ⟨kept, stays⟩ := inert_of_readToSuccess? ends
      refine ⟨_, rfl, finished_iff.mpr ⟨fun s mem => ?_, by simpa using stays⟩⟩
      rcases List.mem_append.mp mem with mem | mem
      · exact inert s (List.mem_append_left _ mem)
      · rw [List.mem_singleton.mp mem]
        exact kept

theorem callPath?_callee {attrs callee target path : Tree} {rest args : Trees} {old : String} (attrs' : Tree)
    (called : (Code.Tree.node (.expr .call) (attrs :: callee :: rest)).callPath? = some (old, args))
    (same : target = .node (.expr .path) [attrs', path]) :
    (Code.Tree.node (.expr .call) (attrs :: target :: rest)).callPath? = some (path.pathString, args) := by
  subst same
  obtain ⟨call, isCall, called⟩ := Option.bind_eq_some_iff.mp called
  obtain ⟨_, -, ⟨⟩⟩ := Option.bind_eq_some_iff.mp called
  simp only [Tree.stripParens] at isCall
  unfold Tree.call? at isCall
  split at isCall
  · rename_i same
    cases same
    cases isCall
    rfl
  · cases isCall

theorem normal_of_made (steady : Steady c) {r : Rewriter} (mem : r ∈ normalize) {t u : Tree}
    (made : r.made? c t = some u) : Normal c u := by
  simp only [normalize, List.mem_cons, List.not_mem_nil, or_false] at mem
  rcases mem with rfl | rfl | rfl | rfl | rfl | rfl
  · obtain ⟨attrs, base, rest, rfl, -, rfl⟩ := (metaAccess_run {}).mp made
    exact normal_field rfl
  · cases (accessorGet_run {}).mp made with
    | state => exact normal_methodCall (isAccessor_resourceData c)
    | field _ _ known => exact normal_modelAccess known
  · obtain ⟨key, value, steps, -, -, rfl⟩ := (accessorSet_run {}).mp made
    exact normal_assignStmt _ _
  · obtain ⟨k, parts, first, id, -, -, rfl⟩ := (importGuard_run {}).mp made
    exact normal_methodCall steady.metaVar
  · obtain ⟨d, stmts, rfl, -⟩ := controlFlow_run_some made
    obtain ⟨stmts', rfl, finished⟩ := finished_of_made steady made
    exact normal_block finished
  · obtain ⟨attrs, receiver, dot, rest, rfl, -, rfl⟩ | ⟨attrs, callee, rest, path, args, target, rfl, called, known, rfl⟩ :=
      (functionRename_run {}).mp made
    · exact normal_methodCall (isAccessor_resourceData c)
    · obtain ⟨attrs', path', same, unknown⟩ := steady.targets target (mem_of_get? known)
      exact normal_call (callPath?_callee attrs' called same) unknown

end Made

theorem passes_made_normalize {c : Context} (steady : Steady c) (t : Tree) : Passes normalize c (normalize.made c t) := by
  obtain ⟨passes, same⟩ | ⟨r, mem, made⟩ := normalize.made_cases c t
  · rwa [same]
  · exact passes_normalize_iff.mpr (normal_of_made steady mem made)

/-- The second stage finds nothing to do at a tree. -/
structure Promoted (c : Context) (t : Tree) : Prop where
  bound : ∀ attrs w pat eq value other semi, t = .node (.stmt .bind) [attrs, w, pat, .node .init [eq, value, other], semi] →
    other.isPresent = false → promoted? c value = none := by rintro _ _ _ _ _ _ _ ⟨⟩
  assigned : ∀ attrs left o right, t = .node (.expr .assign) [attrs, left, o, right] → promoted? c right = none := by
    rintro _ _ _ _ ⟨⟩
  literal : ∀ k parts path arg elems, t = .node (.expr k) parts → t.callPath? = some (path, [arg]) →
    isMapConstructor path = true → arg.array? = some elems → literal? c elems = none := by rintro _ _ _ _ _ ⟨⟩ ⟨⟩

theorem passes_promote_iff {c : Context} {t : Tree} : Passes promote c t ↔ Promoted c t := by
  constructor
  · intro passes
    have none : ∀ r ∈ promote, ∀ u, r.made? c t ≠ some u := fun r mem u => by simp [passes r mem]
    refine ⟨fun attrs w pat eq value other semi same noElse => ?_, fun attrs left o right same => ?_,
      fun k parts path arg elems same called constructor array => ?_⟩
    · cases answer : promoted? c value with
      | none => rfl
      | some v =>
        exact absurd ((inlineFunction_run {}).mpr (.inl ⟨attrs, w, pat, eq, value, other, semi, v, same, noElse, answer, rfl⟩))
          (none .inlineFunction (by decide) _)
    · cases answer : promoted? c right with
      | none => rfl
      | some v =>
        exact absurd ((inlineFunction_run {}).mpr (.inr ⟨attrs, left, o, right, v, same, answer, rfl⟩))
          (none .inlineFunction (by decide) _)
    · cases answer : literal? c elems with
      | none => rfl
      | some u =>
        exact absurd ((compositeLiteral_run {}).mpr ⟨k, parts, path, arg, elems, same, called, constructor, array, answer⟩)
          (none .compositeLiteral (by decide) _)
  · intro promoted r mem
    refine Option.eq_none_iff_forall_ne_some.mpr fun u made => ?_
    simp only [promote, List.mem_cons, List.not_mem_nil, or_false] at mem
    rcases mem with rfl | rfl
    · obtain ⟨attrs, w, pat, eq, value, other, semi, v, same, noElse, answer, -⟩ | ⟨attrs, left, o, right, v, same, answer, -⟩ :=
        (inlineFunction_run {}).mp made
      · rw [promoted.bound _ _ _ _ _ _ _ same noElse] at answer
        cases answer
      · rw [promoted.assigned _ _ _ _ same] at answer
        cases answer
    · obtain ⟨k, parts, path, arg, elems, same, called, constructor, array, answer⟩ := (compositeLiteral_run {}).mp made
      rw [promoted.literal _ _ _ _ _ same called constructor array] at answer
      cases answer

theorem promoted?_eq_none {c : Context} {value : Tree} : promoted? c value = none ↔
    ∀ name, calledName? (untried value) = some name → Table.get? c.helpers name = none := by
  rw [promoted?, Option.map_eq_none_iff, helperCall?_eq_none]

theorem promoted?_of_promoted? {c : Context} {value v : Tree} (answer : promoted? c value = some v) :
    promoted? c v = none := by
  obtain ⟨⟨name, signature, args⟩, -, rfl⟩ := Option.map_eq_some_iff.mp answer
  refine promoted?_eq_none.mpr fun name' called => ?_
  rw [calledName?_retry _ _ (by rintro _ _ _ ⟨⟩)] at called
  cases called

theorem literal?_eq_some {c : Context} {elems : Trees} {u : Tree} (h : literal? c elems = some u) :
    ∃ m fields, c.models.findByKeys ((literalEntries elems).map (·.1)) = some m ∧
      (literalEntries elems).mapM (fun (tag, value) =>
        (m.fieldByTag tag).map fun f => fieldValueOf (Naming.identifier f.name) value) = some fields ∧
      u = literalOf (Naming.identifier m.name) fields := by
  obtain ⟨m, found, made⟩ := Option.bind_eq_some_iff.mp h
  obtain ⟨fields, given, ⟨⟩⟩ := Option.bind_eq_some_iff.mp made
  exact ⟨m, fields, found, given, rfl⟩

theorem passes_made_promote (c : Context) (t : Tree) : Passes promote c (promote.made c t) := by
  obtain ⟨passes, same⟩ | ⟨r, mem, made⟩ := promote.made_cases c t
  · rwa [same]
  · generalize promote.made c t = u at made
    refine passes_promote_iff.mpr ?_
    simp only [promote, List.mem_cons, List.not_mem_nil, or_false] at mem
    rcases mem with rfl | rfl
    · obtain ⟨attrs, w, pat, eq, value, other, semi, v, -, -, answer, rfl⟩ | ⟨attrs, left, o, right, v, -, answer, rfl⟩ :=
        (inlineFunction_run {}).mp made
      · refine { bound := fun _ _ _ _ _ _ _ same _ => ?_ }
        cases same
        exact promoted?_of_promoted? answer
      · refine { assigned := fun _ _ _ _ same => ?_ }
        cases same
        exact promoted?_of_promoted? answer
    · obtain ⟨_, _, _, _, _, -, -, -, -, answer⟩ := (compositeLiteral_run {}).mp made
      obtain ⟨m, fields, -, -, rfl⟩ := literal?_eq_some answer
      exact {}

end Retype.Rewrite
