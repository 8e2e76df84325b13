import Retype.Proofs.TrailingRead

/-! What a stage makes of a tree it is offered.  The state has no part in it: rewriters only record in the state. -/

namespace Retype.Rewrite
open Retype.Code

/-- What a rewriter puts in the place of a tree. -/
def Rewriter.made? (r : Rewriter) (c : Context) (t : Tree) : Option Tree := ((r.apply c t).run {}).1

/-- A value whose call under at most one `?` is of a helper, with the method call in its place. -/
def promoted? (c : Context) (value : Tree) : Option Tree :=
  (helperCall? c (untried value)).map fun (name, _, args) =>
    retry (methodCallOf (var "self") (Naming.identifier name) (args.map (methodArgument c))) value

theorem promoteCall_run (c : Context) (value : Tree) (target : Option (List String)) (s : State) :
    ((promoteCall c value target).run s).1 = promoted? c value := by
  rw [promoteCall, promoted?]
  cases helperCall? c (untried value) with
  | none => rfl
  | some call => rfl

section Equations
variable {c : Context} {t u : Tree}

theorem metaAccess_run (s : State) : ((metaAccess c t).run s).1 = some u ↔ ∃ attrs base rest,
    t = .node (.expr .field) (attrs :: base :: rest) ∧ isClientDowncast c.config.clientType base = true ∧
      u = .node (.expr .field) (attrs :: metaField c "client" :: rest) := by
  unfold metaAccess
  constructor
  · intro made
    split at made
    · split at made
      · rename_i downcast
        cases made
        exact ⟨_, _, _, rfl, downcast, rfl⟩
      · cases made
    · cases made
  · rintro ⟨attrs, base, rest, rfl, downcast, rfl⟩
    simp only [downcast, if_true]
    rfl

/-- What a read becomes: the call on the state in reach of the metadata, or a field of the model. -/
inductive Reads (c : Context) : Tree → Tree → Prop
  | state {attrs receiver dot turbofish : Tree} {m : String} {d : Delim} {args : Trees}
      (accessor : c.isAccessor receiver = true) (listed : stateMethods.contains m = true) :
      Reads c (.node (.expr .methodCall) [attrs, receiver, dot, word m, turbofish, .group d args])
        (.node (.expr .methodCall) [attrs, resourceData c, dot, word m, turbofish, .group d args])
  | field {attrs receiver dot turbofish key : Tree} {d : Delim} {args : Trees} {steps : List PathStep}
      (accessor : c.isAccessor receiver = true) (one : Trees.members args = [key])
      (known : keySteps c key = some steps) :
      Reads c (.node (.expr .methodCall) [attrs, receiver, dot, word "get", turbofish, .group d args])
        (modelAccess c.scope.varModel steps)

theorem accessorGet_run (s : State) : ((accessorGet c t).run s).1 = some u ↔ Reads c t u := by
  unfold accessorGet
  constructor
  · intro made
    split at made
    · split at made
      · cases made
      · rename_i accessor
        rw [Bool.not_eq_true', Bool.not_eq_false] at accessor
        split at made
        · rename_i listed
          cases made
          exact .state accessor listed
        · split at made
          · rename_i isGet
            rw [beq_iff_eq.mp isGet]
            split at made
            · rename_i key one
              rw [StateT.run_bind, resolveKey_run] at made
              cases known : keySteps c key with
              | none =>
                rw [known] at made
                cases made
              | some steps =>
                rw [known] at made
                cases made
                exact .field accessor one known
            · cases made
          · cases made
    · cases made
  · intro reads
    cases reads with
    | state accessor listed =>
      simp only [word, accessor, listed, Bool.not_true, if_true]
      rfl
    | field accessor one known =>
      have unlisted : stateMethods.contains "get" = false := by decide
      simp only [word, accessor, unlisted, one, Bool.not_true, beq_self_eq_true, if_true, Bool.false_eq_true, if_false]
      rw [StateT.run_bind, resolveKey_run, known]
      rfl

theorem accessorSet_run (s : State) : ((accessorSet c t).run s).1 = some u ↔ ∃ key value steps,
    setStatement c t = some [key, value] ∧ keySteps c key = some steps ∧
      u = assignStmt (modelAccess c.scope.varModel steps) (ownedValue c value) := by
  unfold accessorSet
  constructor
  · intro made
    split at made
    · rename_i key value found
      rw [StateT.run_bind, resolveKey_run] at made
      cases known : keySteps c key with
      | none =>
        rw [known] at made
        cases made
      | some steps =>
        rw [known] at made
        cases made
        exact ⟨key, value, steps, found, known, rfl⟩
    · cases made
  · rintro ⟨key, value, steps, found, known, rfl⟩
    simp only [found, StateT.run_bind, resolveKey_run, known]
    rfl

theorem importGuard_run (s : State) : ((importGuard c t).run s).1 = some u ↔ ∃ k parts first id,
    t = .node (.expr k) parts ∧ t.callPath? = some (c.config.importGuard, [first, id]) ∧
      u = methodCallOf (varExpr c.config.metaVar) "resource_requires_import"
        [methodCallOf (var "self") "resource_type" [], stripIdCall id] := by
  unfold importGuard
  constructor
  · intro made
    split at made
    · split at made
      · rename_i path first id called
        split at made
        · rename_i guard
          cases made
          exact ⟨_, _, first, id, rfl, by rw [called, beq_iff_eq.mp guard], rfl⟩
        · cases made
      · cases made
    · cases made
  · rintro ⟨k, parts, first, id, rfl, called, rfl⟩
    simp only [called, beq_self_eq_true, if_true]
    rfl

theorem functionRename_run (s : State) : ((functionRename c t).run s).1 = some u ↔
    (∃ attrs receiver dot rest, t = .node (.expr .methodCall) (attrs :: receiver :: dot :: word "is_new_resource" :: rest) ∧
      c.isAccessor receiver = true ∧
      u = .node (.expr .methodCall) (attrs :: resourceData c :: dot :: word "is_new_resource" :: rest)) ∨
    ∃ attrs callee rest path args target, t = .node (.expr .call) (attrs :: callee :: rest) ∧
      t.callPath? = some (path, args) ∧ Table.get? c.renames path = some target ∧
      u = .node (.expr .call) (attrs :: target :: rest) := by
  unfold functionRename
  constructor
  · intro made
    split at made
    · split at made
      · rename_i isNew
        simp only [Bool.and_eq_true, beq_iff_eq] at isNew
        cases made
        rw [isNew.1]
        exact .inl ⟨_, _, _, _, rfl, isNew.2, rfl⟩
      · cases made
    · split at made
      · rename_i path args called
        obtain ⟨target, known, rfl⟩ := Option.map_eq_some_iff.mp made
        exact .inr ⟨_, _, _, path, args, target, rfl, called, known, rfl⟩
      · cases made
    · cases made
  · rintro (⟨attrs, receiver, dot, rest, rfl, accessor, rfl⟩ | ⟨attrs, callee, rest, path, args, target, rfl, called, known, rfl⟩)
    · simp only [word, accessor, beq_self_eq_true, Bool.and_self, if_true]
      rfl
    · simp only [called, known, Option.map_some]
      rfl

theorem inlineFunction_run (s : State) : ((inlineFunction c t).run s).1 = some u ↔
    (∃ attrs w pat eq value other semi v, t = .node (.stmt .bind) [attrs, w, pat, .node .init [eq, value, other], semi] ∧
      other.isPresent = false ∧ promoted? c value = some v ∧
      u = .node (.stmt .bind) [attrs, w, pat, .node .init [eq, v, other], semi]) ∨
    ∃ attrs left o right v, t = .node (.expr .assign) [attrs, left, o, right] ∧ promoted? c right = some v ∧
      u = .node (.expr .assign) [attrs, left, o, v] := by
  unfold inlineFunction
  constructor
  · intro made
    split at made
    · split at made
      · cases made
      · rename_i value _ _ noElse
        have answer := promoteCall_run c value none s
        rcases run : (promoteCall c value none).run s with ⟨_ | v, s₁⟩
        · rw [StateT.run_bind, run] at made
          cases made
        · rw [run] at answer
          rw [StateT.run_bind, run] at made
          cases made
          exact .inl ⟨_, _, _, _, _, _, _, v, rfl, by simpa using noElse, answer.symm, rfl⟩
    · rename_i left _ right
      have answer := promoteCall_run c right (fieldChain c.scope.varModel left) s
      rcases run : (promoteCall c right (fieldChain c.scope.varModel left)).run s with ⟨_ | v, s₁⟩
      · rw [StateT.run_bind, run] at made
        cases made
      · rw [run] at answer
        rw [StateT.run_bind, run] at made
        cases made
        exact .inr ⟨_, _, _, _, v, rfl, answer.symm, rfl⟩
    · cases made
  · rintro (⟨attrs, w, pat, eq, value, other, semi, v, rfl, noElse, answer, rfl⟩ | ⟨attrs, left, o, right, v, rfl, answer, rfl⟩)
    · have given := (promoteCall_run c value none s).trans answer
      rcases run : (promoteCall c value none).run s with ⟨v?, s₁⟩
      rw [run] at given
      obtain rfl : v? = some v := given
      simp only [noElse, Bool.false_eq_true, if_false]
      rw [StateT.run_bind, run]
      rfl
    · have given := (promoteCall_run c right (fieldChain c.scope.varModel left) s).trans answer
      rcases run : (promoteCall c right (fieldChain c.scope.varModel left)).run s with ⟨v?, s₁⟩
      rw [run] at given
      obtain rfl : v? = some v := given
      dsimp only
      rw [StateT.run_bind, run]
      rfl

/-- The struct literal that a map of literal keys becomes. -/
def literal? (c : Context) (elems : Trees) : Option Tree :=
  (c.models.findByKeys ((literalEntries elems).map (·.1))).bind fun m => modelLiteral m (literalEntries elems)

theorem compositeLiteral_run (s : State) : ((compositeLiteral c t).run s).1 = some u ↔ ∃ k parts path arg elems,
    t = .node (.expr k) parts ∧ t.callPath? = some (path, [arg]) ∧ isMapConstructor path = true ∧
      arg.array? = some elems ∧ literal? c elems = some u := by
  unfold compositeLiteral
  constructor
  · intro made
    split at made
    · split at made
      · rename_i path arg called
        split at made
        · rename_i elems array
          split at made
          · rename_i constructor
            exact ⟨_, _, path, arg, elems, rfl, called, constructor, array, made⟩
          · cases made
        · cases made
      · cases made
    · cases made
  · rintro ⟨k, parts, path, arg, elems, rfl, called, constructor, array, made⟩
    simp only [called, array, constructor, if_true]
    exact made

/-- A list of statements in which nothing is left to be done. -/
structure Finished (c : Context) (stmts : Trees) : Prop where
  acquisitions : stmts.any (isAcquisition c) = false
  identities : setsIdentity c.scope.accessor stmts = false
  reads : replaceTrailingRead c stmts = none

theorem controlFlow_run_block (d : Delim) (stmts : Trees) (s : State) :
    ((controlFlow c (.node .block [.group d stmts])).run s).1 = none ↔ Finished c stmts := by
  simp only [controlFlow]
  constructor
  · intro passed
    split at passed
    · cases passed
    · rename_i noRead
      split at passed
      · cases passed
      · rename_i unchanged
        rw [Bool.or_eq_true, not_or, Bool.not_eq_true, Bool.not_eq_true] at unchanged
        have kept := elideTimeouts_of_none unchanged.1
        rw [kept] at unchanged noRead
        rw [moveIdentities_of_none unchanged.2] at noRead
        exact ⟨unchanged.1, unchanged.2, noRead⟩
  · intro finished
    rw [elideTimeouts_of_none finished.acquisitions, moveIdentities_of_none finished.identities, finished.reads,
      finished.acquisitions, finished.identities]
    rfl

theorem controlFlow_run_some {s : State} (made : ((controlFlow c t).run s).1 = some u) : ∃ d stmts,
    t = .node .block [.group d stmts] ∧ ∃ stmts', u = .node .block [.group d stmts'] := by
  unfold controlFlow at made
  split at made
  · dsimp only at made
    split at made
    · cases made
      exact ⟨_, _, rfl, _, rfl⟩
    · split at made
      · cases made
        exact ⟨_, _, rfl, _, rfl⟩
      · cases made
  · cases made

end Equations

theorem Rewriter.made?_run (r : Rewriter) (c : Context) (t : Tree) (s : State) :
    ((r.apply c t).run s).1 = r.made? c t := by
  cases r with
  | metaAccess => exact Option.ext fun u => (metaAccess_run s).trans (metaAccess_run {}).symm
  | accessorGet => exact Option.ext fun u => (accessorGet_run s).trans (accessorGet_run {}).symm
  | accessorSet => exact Option.ext fun u => (accessorSet_run s).trans (accessorSet_run {}).symm
  | importGuard => exact Option.ext fun u => (importGuard_run s).trans (importGuard_run {}).symm
  | controlFlow =>
    show ((Rewrite.controlFlow c t).run s).1 = ((Rewrite.controlFlow c t).run {}).1
    unfold Rewrite.controlFlow
    split
    · dsimp only
      split <;> rfl
    · rfl
  | functionRename => exact Option.ext fun u => (functionRename_run s).trans (functionRename_run {}).symm
  | inlineFunction => exact Option.ext fun u => (inlineFunction_run s).trans (inlineFunction_run {}).symm
  | compositeLiteral => exact Option.ext fun u => (compositeLiteral_run s).trans (compositeLiteral_run {}).symm

/-- No rewriter of a stage applies to a tree. -/
def Passes (stage : Stage) (c : Context) (t : Tree) : Prop := ∀ r ∈ stage, r.made? c t = none

/-- What the first rewriter that applies makes of a tree. -/
def Stage.made (stage : Stage) (c : Context) (t : Tree) : Tree := (stage.findSome? fun r => r.made? c t).getD t

theorem Stage.made_of_passes {stage : Stage} {c : Context} {t : Tree} (passes : Passes stage c t) :
    stage.made c t = t := by
  rw [Stage.made, List.findSome?_eq_none_iff.mpr passes]
  rfl

theorem Stage.rewriteFirst_run (stage : Stage) (c : Context) (t : Tree) (s : State) :
    ((stage.rewriteFirst c t).run s).1 = stage.made c t := by
  induction stage generalizing s with
  | nil => rfl
  | cons r rs ih =>
    have made := r.made?_run c t s
    rcases run : (r.apply c t).run s with ⟨_ | u, s₁⟩
    · rw [run] at made
      rw [rewriteFirst_passed run, ih, Stage.made, Stage.made, List.findSome?_cons, ← made]
    · rw [run] at made
      rw [rewriteFirst_applied run, Stage.made, List.findSome?_cons, ← made]
      rfl

theorem made?_of_not_offered {c : Context} {t : Tree} (closed : isOffered t = false) (r : Rewriter) :
    r.made? c t = none := by
  refine Option.eq_none_iff_forall_ne_some.mpr fun u made => ?_
  have offered : isOffered t = true := by
    cases r with
    | metaAccess =>
      obtain ⟨_, _, _, rfl, -⟩ := (metaAccess_run {}).mp made
      rfl
    | accessorGet => cases (accessorGet_run {}).mp made <;> rfl
    | accessorSet =>
      obtain ⟨_, _, _, found, -⟩ := (accessorSet_run {}).mp made
      obtain ⟨_, _, rfl⟩ := stmt_of_setStatement found
      rfl
    | importGuard =>
      obtain ⟨_, _, _, _, rfl, -⟩ := (importGuard_run {}).mp made
      rfl
    | controlFlow =>
      obtain ⟨_, _, rfl, -⟩ := controlFlow_run_some made
      rfl
    | functionRename =>
      obtain ⟨_, _, _, _, rfl, -⟩ | ⟨_, _, _, _, _, _, rfl, -⟩ := (functionRename_run {}).mp made <;> rfl
    | inlineFunction =>
      obtain ⟨_, _, _, _, _, _, _, _, rfl, -⟩ | ⟨_, _, _, _, _, rfl, -⟩ := (inlineFunction_run {}).mp made <;> rfl
    | compositeLiteral =>
      obtain ⟨_, _, _, _, _, rfl, -⟩ := (compositeLiteral_run {}).mp made
      rfl
  rw [closed] at offered
  cases offered

theorem Stage.offer_run (stage : Stage) (c : Context) (t : Tree) (s : State) :
    ((stage.offer c t).run s).1 = stage.made c t := by
  unfold Stage.offer
  split
  · exact stage.rewriteFirst_run c t s
  · rename_i closed
    rw [Bool.not_eq_true] at closed
    rw [Stage.made_of_passes fun r _ => made?_of_not_offered closed r]
    rfl

theorem Stage.made_cases (stage : Stage) (c : Context) (t : Tree) :
    (Passes stage c t ∧ stage.made c t = t) ∨ ∃ r ∈ stage, r.made? c t = some (stage.made c t) := by
  cases found : stage.findSome? fun r => r.made? c t with
  | none =>
    have passes : Passes stage c t := List.findSome?_eq_none_iff.mp found
    exact .inl ⟨passes, Stage.made_of_passes passes⟩
  | some u =>
    obtain ⟨before, r, after, split, made, -⟩ := List.findSome?_eq_some_iff.mp found
    refine .inr ⟨r, split ▸ List.mem_append_right _ List.mem_cons_self, ?_⟩
    rw [Stage.made, found, made]
    rfl

theorem Offered.eq_made {stage : Stage} {c : Context} {t u : Tree} (h : Offered stage c t u) : u = stage.made c t := by
  obtain ⟨s, s', run⟩ := h
  rw [← stage.offer_run c t s, run]

end Retype.Rewrite
