import Retype.Proofs.Visits

/-! Calls of helpers that bind their value.  Only such a call asks for a signature, and a visit of one is all that
changes what a run has recorded of helpers. -/

namespace Retype.Rewrite
open Retype.Code

def State.helpersOnly (s : State) : State := { s with unresolved := [] }

@[simp] theorem helpersOnly_addUnresolved (s : State) (message : String) :
    (s.addUnresolved message).helpersOnly = s.helpersOnly := rfl

theorem helpersOnly_recordEdit (s : State) (helper : String) (e : SignatureEdit) :
    (s.recordEdit helper e).helpersOnly = s.helpersOnly.recordEdit helper e := by
  have same : s.helpersOnly.isTransformed helper = s.isTransformed helper := rfl
  rw [State.recordEdit, State.recordEdit, same]
  split <;> rfl

theorem Rewriter.state_run {r : Rewriter} (noRead : r ≠ .accessorGet) (noWrite : r ≠ .accessorSet)
    (other : r ≠ .inlineFunction) (c : Context) (t : Tree) (s : State) : ((r.apply c t).run s).2 = s := by
  cases r with
  | accessorGet => exact (noRead rfl).elim
  | accessorSet => exact (noWrite rfl).elim
  | inlineFunction => exact (other rfl).elim
  | metaAccess =>
    show ((Rewrite.metaAccess c t).run s).2 = _
    unfold Rewrite.metaAccess
    split <;> rfl
  | importGuard =>
    show ((Rewrite.importGuard c t).run s).2 = _
    unfold Rewrite.importGuard
    split
    · split <;> rfl
    · rfl
  | controlFlow =>
    show ((Rewrite.controlFlow c t).run s).2 = _
    unfold Rewrite.controlFlow
    split
    · dsimp only
      split <;> rfl
    · rfl
  | functionRename =>
    show ((Rewrite.functionRename c t).run s).2 = _
    unfold Rewrite.functionRename
    split
    · rfl
    · split <;> rfl
    · rfl
  | compositeLiteral =>
    show ((Rewrite.compositeLiteral c t).run s).2 = _
    unfold Rewrite.compositeLiteral
    split
    · split
      · split
        · split <;> rfl
        · rfl
      · rfl
    · rfl

def RecordsKey (c : Context) (s : State) (answer : Option Tree × State) : Prop :=
  answer.2 = s ∨ ∃ key, keySteps c key = none ∧ answer = (none, s.addUnresolved (keyMessage c key))

theorem recordsKey_accessorGet (c : Context) (t : Tree) (s : State) :
    RecordsKey c s ((Rewrite.accessorGet c t).run s) := by
  unfold Rewrite.accessorGet
  split
  · split
    · exact .inl rfl
    · split
      · exact .inl rfl
      · split
        · split
          · rename_i key _
            rw [StateT.run_bind, resolveKey_run]
            cases known : keySteps c key with
            | some steps => exact .inl rfl
            | none => exact .inr ⟨key, known, rfl⟩
          · exact .inl rfl
        · exact .inl rfl
  · exact .inl rfl

theorem recordsKey_accessorSet (c : Context) (t : Tree) (s : State) :
    RecordsKey c s ((Rewrite.accessorSet c t).run s) := by
  unfold Rewrite.accessorSet
  split
  · rename_i key value _
    rw [StateT.run_bind, resolveKey_run]
    cases known : keySteps c key with
    | some steps => exact .inl rfl
    | none => exact .inr ⟨key, known, rfl⟩
  · exact .inl rfl

theorem Rewriter.recorded {r : Rewriter} (other : r ≠ .inlineFunction) (c : Context) (t : Tree) (s : State) :
    RecordsKey c s ((r.apply c t).run s) := by
  by_cases read : r = .accessorGet
  · subst read
    exact recordsKey_accessorGet c t s
  · by_cases write : r = .accessorSet
    · subst write
      exact recordsKey_accessorSet c t s
    · exact .inl (Rewriter.state_run read write other c t s)

theorem Rewriter.helpersOnly_run {r : Rewriter} (other : r ≠ .inlineFunction) (c : Context) (t : Tree) (s : State) :
    ((r.apply c t).run s).2.helpersOnly = s.helpersOnly := by
  rcases r.recorded other c t s with same | ⟨key, -, run⟩
  · rw [same]
  · rw [run, helpersOnly_addUnresolved]

theorem helpersOnly_rewriteFirst {stage : Stage} (other : .inlineFunction ∉ stage) (c : Context) (t : Tree)
    (s : State) :
    ((stage.rewriteFirst c t).run s).2.helpersOnly = s.helpersOnly := by
  induction stage generalizing s with
  | nil => rfl
  | cons r rs ih =>
    rw [List.mem_cons, not_or] at other
    obtain ⟨first, rest⟩ := other
    have kept := Rewriter.helpersOnly_run (Ne.symm first) c t s
    rcases run : (r.apply c t).run s with ⟨_ | u, s₁⟩
    · rw [run] at kept
      rw [rewriteFirst_passed run, ih rest, kept]
    · rw [run] at kept
      rw [rewriteFirst_applied run, kept]

/-- A call of a helper whose value is bound, and the edit of the helper's signature that it asks for. -/
structure BoundCall where
  context : Context
  name : String
  args : Trees
  edit : SignatureEdit

/-- The fields of the model variable that an assignment writes. -/
def assigned? (c : Context) : Tree → Option (List String)
  | .node (.expr .assign) [_, left, _, _] => fieldChain c.scope.varModel left
  | _ => none

def storedType? (c : Context) (signature : HelperSignature) (target : Option (List String)) (propagated : Bool) :
    Option Tree :=
  target.bind fun names =>
    (c.models.fieldByPath names).bind fun f => resultType signature.output f.ty propagated

def boundCall? (c : Context) (t : Tree) : Option BoundCall :=
  (siteValue? t).bind fun value =>
    (helperCall? c (untried value)).map fun (name, signature, args) =>
      ⟨c, name, args, argumentTypes c 0 args, storedType? c signature (assigned? c t) (isTried value)⟩

theorem helperCall?_eq_some {c : Context} {e : Tree} {name : String} {signature : HelperSignature} {args : Trees} :
    helperCall? c e = some (name, signature, args) ↔ ∃ call, e.stripParens.call? = some call ∧
      call.callee.exprIdent? = some name ∧ Table.get? c.helpers name = some signature ∧ call.args = args := by
  unfold helperCall?
  constructor
  · intro called
    obtain ⟨call, isCall, called⟩ := Option.bind_eq_some_iff.mp called
    obtain ⟨name', named, called⟩ := Option.bind_eq_some_iff.mp called
    obtain ⟨signature', known, same⟩ := Option.bind_eq_some_iff.mp called
    cases same
    exact ⟨call, isCall, named, known, rfl⟩
  · rintro ⟨call, isCall, named, known, rfl⟩
    rw [isCall]
    show call.callee.exprIdent?.bind _ = _
    rw [named]
    show (Table.get? c.helpers name).bind _ = _
    rw [known]
    rfl

theorem boundCall?_eq_some {c : Context} {t : Tree} {call : BoundCall} : boundCall? c t = some call ↔
    ∃ value name signature args, siteValue? t = some value ∧
      helperCall? c (untried value) = some (name, signature, args) ∧
      call = ⟨c, name, args, argumentTypes c 0 args, storedType? c signature (assigned? c t) (isTried value)⟩ := by
  unfold boundCall?
  constructor
  · intro bound
    obtain ⟨value, site, bound⟩ := Option.bind_eq_some_iff.mp bound
    obtain ⟨⟨name, signature, args⟩, called, rfl⟩ := Option.map_eq_some_iff.mp bound
    exact ⟨value, name, signature, args, site, called, rfl⟩
  · rintro ⟨value, name, signature, args, site, called, rfl⟩
    rw [site, Option.bind_some, called]
    rfl

def State.note (s : State) (call : BoundCall) : State :=
  (s.promote call.name call.edit.params).recordEdit call.name call.edit

/-- What is recorded of a result that is stored in fields from which no type for it follows. -/
def outputMessage (c : Context) (name : String) (names : List String) : String :=
  c.scope.name ++ ": " ++ (Unresolved.output name (".".intercalate names)).message

theorem askedOutput_missed {c : Context} {name : String} {signature : HelperSignature} {names : List String}
    {propagated : Bool} {s : State} (fresh : s.isTransformed name = false)
    (untyped : storedType? c signature (some names) propagated = none) :
    (askedOutput c name signature (some names) propagated).run s =
      (none, s.addUnresolved (outputMessage c name names)) := by
  unfold askedOutput
  dsimp only
  rw [StateT.run_bind]
  show (if s.isTransformed name then _ else _ : Run (Option Tree)).run s = _
  rw [fresh, if_neg Bool.false_ne_true]
  rw [storedType?, Option.bind_some] at untyped
  rw [untyped]
  rfl

theorem askedOutput_met {c : Context} {name : String} {signature : HelperSignature} {target : Option (List String)}
    {propagated : Bool} {s : State}
    (met : s.isTransformed name = true ∨ target = none ∨ (storedType? c signature target propagated).isSome) :
    (askedOutput c name signature target propagated).run s =
      (if s.isTransformed name then none else storedType? c signature target propagated, s) := by
  unfold askedOutput
  cases target with
  | none =>
    rw [storedType?, Option.bind_none, ite_self]
    rfl
  | some names =>
    dsimp only
    rw [StateT.run_bind]
    show (if s.isTransformed name then _ else _ : Run (Option Tree)).run s = _
    by_cases settled : s.isTransformed name = true
    · rw [if_pos settled, if_pos settled]
      rfl
    · have typed : (storedType? c signature (some names) propagated).isSome := by simpa [settled] using met
      obtain ⟨output, typed⟩ := Option.isSome_iff_exists.mp typed
      rw [if_neg settled, if_neg settled, typed]
      rw [storedType?, Option.bind_some] at typed
      rw [typed]
      rfl

theorem askedOutput_run (c : Context) (name : String) (signature : HelperSignature) (target : Option (List String))
    (propagated : Bool) (s : State) : ∃ s', s'.helpersOnly = s.helpersOnly ∧
      (askedOutput c name signature target propagated).run s =
        (if s.isTransformed name then none else storedType? c signature target propagated, s') := by
  by_cases met : s.isTransformed name = true ∨ target = none ∨ (storedType? c signature target propagated).isSome
  · exact ⟨s, rfl, askedOutput_met met⟩
  · rw [not_or, not_or, Bool.not_eq_true, Option.not_isSome_iff_eq_none] at met
    obtain ⟨fresh, stored, untyped⟩ := met
    obtain ⟨names, rfl⟩ := Option.ne_none_iff_exists'.mp stored
    refine ⟨s.addUnresolved (outputMessage c name names), helpersOnly_addUnresolved s _, ?_⟩
    rw [askedOutput_missed fresh untyped, untyped, ite_self]

/-- An edit of a helper that has its signature already records nothing, whatever result it asks for. -/
theorem recordEdit_of_settled {s : State} {name : String} (e : SignatureEdit) (settled : s.isTransformed name = true) :
    s.recordEdit name e = s := by
  rw [State.recordEdit, settled, Bool.or_true, if_pos rfl]

/-- A call is promoted whatever result it asks for, and noted after what is recorded of the result. -/
theorem promoteCall_of_some {c : Context} {value : Tree} {target : Option (List String)} {name : String}
    {signature : HelperSignature} {args : Trees} {s s' : State}
    (called : helperCall? c (untried value) = some (name, signature, args))
    (asked : (askedOutput c name signature target (isTried value)).run s =
      (if s.isTransformed name then none else storedType? c signature target (isTried value), s'))
    (kept : s'.isTransformed name = s.isTransformed name) :
    ∃ v, (promoteCall c value target).run s = (some v, s'.note
      ⟨c, name, args, argumentTypes c 0 args, storedType? c signature target (isTried value)⟩) := by
  rw [promoteCall, called]
  dsimp only
  rw [StateT.run_bind, asked]
  refine ⟨_, Prod.ext rfl ?_⟩
  show (s'.promote name (argumentTypes c 0 args)).recordEdit name _ =
    (s'.promote name (argumentTypes c 0 args)).recordEdit name _
  by_cases settled : s.isTransformed name = true
  · have settled' : (s'.promote name (argumentTypes c 0 args)).isTransformed name = true := kept.trans settled
    rw [recordEdit_of_settled _ settled', recordEdit_of_settled _ settled']
  · rw [if_neg settled]

theorem promoteCall_of_none {c : Context} {value : Tree} (noCall : helperCall? c (untried value) = none)
    (target : Option (List String)) (s : State) : (promoteCall c value target).run s = (none, s) := by
  rw [promoteCall, noCall]
  rfl

theorem promoteCall_note (c : Context) (value : Tree) (target : Option (List String)) (s : State) :
    ((promoteCall c value target).run s).2.helpersOnly =
      ((helperCall? c (untried value)).map fun (name, signature, args) =>
        BoundCall.mk c name args ⟨argumentTypes c 0 args, storedType? c signature target (isTried value)⟩).elim
          s.helpersOnly s.helpersOnly.note := by
  rcases called : helperCall? c (untried value) with _ | ⟨name, signature, args⟩
  · rw [promoteCall_of_none called]
    rfl
  · obtain ⟨s', same, asked⟩ := askedOutput_run c name signature target (isTried value) s
    have kept : s'.isTransformed name = s.isTransformed name := congrArg (·.isTransformed name) same
    obtain ⟨v, run⟩ := promoteCall_of_some called asked kept
    rw [run, Option.map_some, Option.elim_some, ← same, State.note, State.note, helpersOnly_recordEdit]
    rfl

theorem inlineFunction_of_site {c : Context} {t value : Tree} (site : siteValue? t = some value) :
    ∃ put : Tree → Tree, ∀ s, (inlineFunction c t).run s =
      (((promoteCall c value (assigned? c t)).run s).1.map put, ((promoteCall c value (assigned? c t)).run s).2) := by
  unfold siteValue? at site
  split at site
  · rename_i attrs w pat eq value other semi
    split at site
    · cases site
    · rename_i noElse
      cases site
      refine ⟨fun v => .node (.stmt .bind) [attrs, w, pat, .node .init [eq, v, other], semi], fun s => ?_⟩
      unfold inlineFunction
      dsimp only
      rw [if_neg noElse, StateT.run_bind]
      show _ = (((promoteCall c _ none).run s).1.map _, ((promoteCall c _ none).run s).2)
      rcases (promoteCall c _ none).run s with ⟨_ | v, s₁⟩ <;> rfl
  · rename_i attrs left o right
    cases site
    refine ⟨fun v => .node (.expr .assign) [attrs, left, o, v], fun s => ?_⟩
    unfold inlineFunction
    dsimp only
    rw [StateT.run_bind]
    show _ = (((promoteCall c value (fieldChain c.scope.varModel left)).run s).1.map _,
      ((promoteCall c value (fieldChain c.scope.varModel left)).run s).2)
    rcases (promoteCall c value (fieldChain c.scope.varModel left)).run s with ⟨_ | v, s₁⟩ <;> rfl
  · cases site

theorem inlineFunction_of_no_site {c : Context} {t : Tree} (noSite : siteValue? t = none) (s : State) :
    (inlineFunction c t).run s = (none, s) := by
  unfold inlineFunction
  split
  · rename_i other _
    rw [siteValue?] at noSite
    split at noSite
    · rename_i hasElse
      rw [if_pos hasElse]
      rfl
    · cases noSite
  · cases noSite
  · rfl

theorem inlineFunction_note (c : Context) (t : Tree) (s : State) :
    ((inlineFunction c t).run s).2.helpersOnly = (boundCall? c t).elim s.helpersOnly s.helpersOnly.note := by
  cases site : siteValue? t with
  | none =>
    rw [inlineFunction_of_no_site site, boundCall?, site]
    rfl
  | some value =>
    obtain ⟨put, run⟩ := inlineFunction_of_site (c := c) site
    rw [run, boundCall?, site, Option.bind_some]
    exact promoteCall_note c value (assigned? c t) s

def Visit.call? (v : Visit) : Option BoundCall :=
  if .inlineFunction ∈ v.stage then boundCall? v.context v.tree else none

theorem Visit.call?_eq_some {v : Visit} {call : BoundCall} : v.call? = some call ↔
    .inlineFunction ∈ v.stage ∧ boundCall? v.context v.tree = some call := by
  unfold Visit.call?
  split
  · rename_i own
    exact (and_iff_right own).symm
  · rename_i other
    constructor
    · rintro ⟨⟩
    · rintro ⟨own, -⟩
      exact (other own).elim

/-- The bound calls that are promoted, in the order they are visited. -/
def calls (visits : List Visit) : List BoundCall := visits.filterMap Visit.call?

theorem calls_append (a b : List Visit) : calls (a ++ b) = calls a ++ calls b := List.filterMap_append

theorem mem_calls {visits : List Visit} {call : BoundCall} : call ∈ calls visits ↔ ∃ v ∈ visits, v.call? = some call :=
  List.mem_filterMap

theorem boundCall?_of_not_offered {c : Context} {t : Tree} (closed : isOffered t = false) : boundCall? c t = none := by
  rw [boundCall?, Option.bind_eq_none_iff]
  intro value site
  rw [isOffered_of_siteValue? site] at closed
  cases closed

theorem Visit.helpersOnly_record {v : Visit} (staged : v.stage ∈ standard) (s : State) :
    (Visit.record s v).helpersOnly = v.call?.elim s.helpersOnly s.helpersOnly.note := by
  obtain ⟨stage, c, t⟩ := v
  show ((stage.offer c t).run s).2.helpersOnly = _
  unfold Stage.offer
  have stages : stage = normalize ∨ stage = promote := by
    simpa only [standard, standardStages, List.map_cons, List.map_nil, List.mem_cons, List.not_mem_nil, or_false]
      using staged
  rcases stages with rfl | rfl
  · have other : .inlineFunction ∉ normalize := by decide
    rw [Visit.call?, if_neg other]
    split
    · exact helpersOnly_rewriteFirst other c t s
    · rfl
  · have own : .inlineFunction ∈ promote := by decide
    rw [Visit.call?, if_pos own]
    split
    · have noted := inlineFunction_note c t s
      rcases run : (inlineFunction c t).run s with ⟨_ | u, s₁⟩
      · rw [run] at noted
        rw [promote, rewriteFirst_passed (r := .inlineFunction) run, helpersOnly_rewriteFirst (by decide), ← noted]
      · rw [run] at noted
        rw [promote, rewriteFirst_applied (r := .inlineFunction) run, ← noted]
    · rename_i closed
      rw [boundCall?_of_not_offered (Bool.eq_false_iff.mpr closed)]
      rfl

theorem boundCall?_of_passed {c : Context} {t : Tree} (passed : Rewriter.inlineFunction.made? c t = none) :
    boundCall? c t = none := by
  cases bound : boundCall? c t with
  | none => rfl
  | some call =>
    obtain ⟨value, name, signature, args, site, called, rfl⟩ := boundCall?_eq_some.mp bound
    obtain ⟨put, run⟩ := inlineFunction_of_site (c := c) site
    have made : Rewriter.inlineFunction.made? c t = (promoted? c value).map put := by
      rw [Rewriter.made?, Rewriter.apply, run, promoteCall_run]
    rw [made, promoted?, called] at passed
    cases passed

theorem helpersOnly_of_passes {stage : Stage} {c : Context} {t : Tree} (staged : stage ∈ standard)
    (passes : Passes stage c t) (s : State) : ((stage.offer c t).run s).2.helpersOnly = s.helpersOnly := by
  have recorded := Visit.helpersOnly_record (v := ⟨stage, c, t⟩) staged s
  have noCall : Visit.call? ⟨stage, c, t⟩ = none := by
    unfold Visit.call?
    split
    · exact boundCall?_of_passed (passes _ ‹_›)
    · rfl
  rw [noCall] at recorded
  exact recorded

theorem helpersOnly_foldl_record {visits : List Visit} (staged : ∀ v ∈ visits, v.stage ∈ standard) (s : State) :
    (visits.foldl Visit.record s).helpersOnly = (calls visits).foldl State.note s.helpersOnly := by
  induction visits generalizing s with
  | nil => rfl
  | cons v visits ih =>
    have first := Visit.helpersOnly_record (staged v List.mem_cons_self) s
    rw [List.foldl_cons, ih (fun v mem => staged v (List.mem_cons_of_mem _ mem)), first, calls, calls,
      List.filterMap_cons]
    cases v.call? <;> rfl

end Retype.Rewrite
