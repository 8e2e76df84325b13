import Retype.Proofs.BoundCalls
import Retype.Proofs.Captures

/-! What is taken for the accessor.  Wherever a rewriter asks whether an expression is the accessor, the name of a
variable alone tells.  A tree in which nothing is taken for it is offered to a stage as if the function had none, and
calls of methods of anything else stay as they are. -/

namespace Retype.Rewrite
open Retype.Code

/-- A tree in which a rewriter takes an expression for the accessor: what state is read from, written to or asked of,
where the identifier is set, what the resource is read again with, or an argument of a helper that becomes a method. -/
inductive Takes (c : Context) : Rewriter → Tree → Prop
  | read {attrs receiver dot turbofish : Tree} {m : String} {d : Delim} {args : Trees}
      (accessor : c.isAccessor receiver = true) (sought : stateMethods.contains m = true ∨ m = "get") :
      Takes c .accessorGet (.node (.expr .methodCall) [attrs, receiver, dot, word m, turbofish, .group d args])
  | write {t : Tree} {args : Trees} (writes : WriteStmt c t args) : Takes c .accessorSet t
  | fresh {attrs receiver dot : Tree} {rest : Trees} (accessor : c.isAccessor receiver = true) :
      Takes c .functionRename (.node (.expr .methodCall) (attrs :: receiver :: dot :: word "is_new_resource" :: rest))
  | identity {d : Delim} {stmts : Trees} {s arg : Tree} {a : String} (accessor : c.scope.accessor = some a)
      (mem : s ∈ stmts) (sets : setIdArgument? a s = some arg) : Takes c .controlFlow (.node .block [.group d stmts])
  | answer {d : Delim} {stmts : Trees} {s s' : Tree} (mem : s ∈ stmts) (answers : readToSuccess? c s = some s') :
      Takes c .controlFlow (.node .block [.group d stmts])
  | bound {attrs w pat eq value other semi arg : Tree} {name : String} {signature : HelperSignature} {args : Trees}
      (called : helperCall? c (untried value) = some (name, signature, args)) (mem : arg ∈ args)
      (accessor : c.isAccessor arg = true) :
      Takes c .inlineFunction (.node (.stmt .bind) [attrs, w, pat, .node .init [eq, value, other], semi])
  | assigned {attrs left o right arg : Tree} {name : String} {signature : HelperSignature} {args : Trees}
      (called : helperCall? c (untried right) = some (name, signature, args)) (mem : arg ∈ args)
      (accessor : c.isAccessor arg = true) :
      Takes c .inlineFunction (.node (.expr .assign) [attrs, left, o, right])

/-- The same function without an accessor. -/
def Context.unbound (c : Context) : Context := { c with scope := { c.scope with accessor := none } }

section Frame
variable {c : Context} {t : Tree}

theorem isAccessor_iff {e : Tree} :
    c.isAccessor e = true ↔ ∃ a, c.scope.accessor = some a ∧ e.bare.isVar a = true := by
  unfold Context.isAccessor
  cases c.scope.accessor <;> simp

theorem isAccessor_unbound (e : Tree) : c.unbound.isAccessor e = false := rfl

theorem not_setCall_unbound {e : Tree} {args : Trees} : ¬ SetCall c.unbound e args := by
  intro call
  induction call with
  | call accessor => cases accessor
  | paren _ ih => exact ih
  | tried _ ih => exact ih
  | mapErr _ ih => exact ih

theorem isReadCall_unbound (e : Tree) : isReadCall c.unbound e = false := by
  unfold isReadCall
  split
  · rw [isAccessor_unbound, Bool.and_false]
  · rfl

theorem readToSuccess?_unbound (s : Tree) : readToSuccess? c.unbound s = none := by
  unfold readToSuccess?
  split
  · rw [isReadCall_unbound, if_neg Bool.false_ne_true]
  · rw [isReadCall_unbound, Bool.and_false, if_neg Bool.false_ne_true]
  · rfl

theorem not_takes_unbound (r : Rewriter) : ¬ Takes c.unbound r t := by
  rintro (⟨accessor, -⟩ | writes | accessor | ⟨accessor, -, -⟩ | ⟨-, answers⟩ | ⟨-, -, accessor⟩ | ⟨-, -, accessor⟩)
  · cases accessor
  · cases writes with
    | closed _ call => exact not_setCall_unbound call
    | discarded _ call => exact not_setCall_unbound call
    | guarded _ _ _ call => exact not_setCall_unbound call
  · cases accessor
  · cases accessor
  · rw [readToSuccess?_unbound] at answers
    cases answers
  · cases accessor
  · cases accessor

theorem accessorGet_of_not_takes (none : ¬ Takes c .accessorGet t) : accessorGet c t = pure Option.none := by
  unfold accessorGet
  split
  · split
    · rfl
    · rename_i accessor
      rw [Bool.not_eq_true', Bool.not_eq_false] at accessor
      rw [if_neg fun listed => none (.read accessor (.inl listed)), if_neg fun get => none (.read accessor (.inr ?_))]
      exact beq_iff_eq.mp get
  · rfl

theorem accessorSet_of_not_takes (none : ¬ Takes c .accessorSet t) : accessorSet c t = pure Option.none := by
  have noWrite : setStatement c t = Option.none :=
    Option.eq_none_iff_forall_ne_some.mpr fun args found => none (.write (setStatement_eq_some.mp found))
  rw [accessorSet, noWrite]

theorem elideTimeouts_unbound (stmts : Trees) : elideTimeouts c.unbound stmts = elideTimeouts c stmts := by
  have acquisition : isAcquisition c.unbound = isAcquisition c := rfl
  have release : isRelease c.unbound = isRelease c := rfl
  fun_induction elideTimeouts c stmts <;> simp_all [elideTimeouts]

theorem replaceTrailingRead_eq_none {stmts : Trees} (none : ∀ s ∈ stmts, readToSuccess? c s = Option.none) :
    replaceTrailingRead c stmts = Option.none := by
  fun_induction replaceTrailingRead c stmts with
  | case1 => rfl
  | case2 s => rw [none s (List.mem_singleton.mpr rfl), Option.map_none]
  | case3 s t rest ih => rw [ih fun u mem => none u (List.mem_cons_of_mem _ mem), Option.map_none]

theorem controlFlow_of_not_takes {d : Delim} {stmts : Trees}
    (none : ¬ Takes c .controlFlow (.node .block [.group d stmts])) : controlFlow c (.node .block [.group d stmts]) =
      pure (if stmts.any (isAcquisition c) then some (.node .block [.group d (elideTimeouts c stmts)])
        else Option.none) := by
  have elided := (elideTimeouts_sublist c stmts).subset
  have noIdentity : setsIdentity c.scope.accessor (elideTimeouts c stmts) = false := by
    unfold setsIdentity
    split
    · rename_i a accessor
      rw [List.any_eq_false]
      intro s mem sets
      obtain ⟨arg, sets⟩ := Option.isSome_iff_exists.mp sets
      exact none (.identity accessor (elided mem) sets)
    · rfl
  have noAnswer : replaceTrailingRead c (elideTimeouts c stmts) = Option.none :=
    replaceTrailingRead_eq_none fun s mem => Option.eq_none_iff_forall_ne_some.mpr fun s' answers =>
      none (.answer (elided mem) answers)
  simp only [controlFlow]
  rw [moveIdentities_of_none noIdentity, noAnswer, noIdentity, Bool.or_false]

theorem argumentTypes_unbound {args : Trees} (none : ∀ arg ∈ args, c.isAccessor arg = false) (index : Nat) :
    argumentTypes c index args = argumentTypes c.unbound index args := by
  induction args generalizing index with
  | nil => rfl
  | cons arg args ih =>
    obtain ⟨first, rest⟩ := List.forall_mem_cons.mp none
    have type : argumentType c arg = argumentType c.unbound arg := by
      rw [argumentType, argumentType, first, isAccessor_unbound]
      rfl
    rw [argumentTypes, argumentTypes, type, ih rest]

theorem promoteCall_unbound {value : Tree} {target : Option (List String)}
    (none : ∀ {name signature args}, helperCall? c (untried value) = some (name, signature, args) →
      ∀ arg ∈ args, c.isAccessor arg = false) : promoteCall c value target = promoteCall c.unbound value target := by
  have call : helperCall? c.unbound (untried value) = helperCall? c (untried value) := rfl
  rw [promoteCall, promoteCall, call]
  cases called : helperCall? c (untried value) with
  | none => rfl
  | some found =>
    obtain ⟨name, signature, args⟩ := found
    have kept : args.map (methodArgument c) = args.map (methodArgument c.unbound) :=
      List.map_congr_left fun arg mem => by
        rw [methodArgument, methodArgument, none called arg mem, isAccessor_unbound]
        rfl
    dsimp only
    rw [kept, argumentTypes_unbound (none called)]
    rfl

theorem apply_unbound (r : Rewriter) (none : ¬ Takes c r t) : r.apply c t = r.apply c.unbound t := by
  -- three of the rewriters ask for no accessor, and without one the others do as where nothing is taken for it
  cases r with
  | metaAccess => rfl
  | accessorGet =>
    exact (accessorGet_of_not_takes none).trans (accessorGet_of_not_takes (not_takes_unbound _)).symm
  | accessorSet =>
    exact (accessorSet_of_not_takes none).trans (accessorSet_of_not_takes (not_takes_unbound _)).symm
  | importGuard => rfl
  | controlFlow =>
    show controlFlow c t = controlFlow c.unbound t
    by_cases block : ∃ d stmts, t = .node .block [.group d stmts]
    · obtain ⟨d, stmts, rfl⟩ := block
      rw [controlFlow_of_not_takes none, controlFlow_of_not_takes (not_takes_unbound _), elideTimeouts_unbound]
      rfl
    · unfold controlFlow
      split
      · exact absurd ⟨_, _, rfl⟩ block
      · rfl
  | functionRename =>
    show functionRename c t = functionRename c.unbound t
    unfold functionRename
    split
    · rename_i attrs receiver dot m rest
      have own : (m == "is_new_resource" && c.isAccessor receiver) = false := by
        rw [Bool.eq_false_iff]
        intro asked
        obtain ⟨isNew, accessor⟩ := Bool.and_eq_true_iff.mp asked
        rw [beq_iff_eq.mp isNew] at none
        exact none (.fresh accessor)
      rw [own, isAccessor_unbound, Bool.and_false]
      rfl
    · rfl
    · rfl
  | inlineFunction =>
    show inlineFunction c t = inlineFunction c.unbound t
    unfold inlineFunction
    split
    · split
      · rfl
      · rw [promoteCall_unbound fun called arg mem => Bool.eq_false_iff.mpr fun accessor =>
          none (.bound called mem accessor)]
    · rw [promoteCall_unbound fun called arg mem => Bool.eq_false_iff.mpr fun accessor =>
        none (.assigned called mem accessor)]
      rfl
    · rfl
  | compositeLiteral => rfl

theorem offer_unbound {stage : Stage} (none : ∀ r ∈ stage, ¬ Takes c r t) :
    stage.offer c t = stage.offer c.unbound t := by
  have first : stage.rewriteFirst c t = stage.rewriteFirst c.unbound t := by
    induction stage with
    | nil => rfl
    | cons r rs ih =>
      obtain ⟨own, rest⟩ := List.forall_mem_cons.mp none
      rw [Stage.rewriteFirst, Stage.rewriteFirst, apply_unbound r own, ih rest]
  rw [Stage.offer, Stage.offer, first]

theorem offer_of_apply {stage : Stage} (none : ∀ r ∈ stage, r.apply c t = pure Option.none) :
    stage.offer c t = pure t := by
  have first : stage.rewriteFirst c t = pure t := by
    induction stage with
    | nil => rfl
    | cons r rs ih =>
      obtain ⟨own, rest⟩ := List.forall_mem_cons.mp none
      rw [Stage.rewriteFirst, own, ih rest]
      rfl
  rw [Stage.offer, first]
  split <;> rfl

/-- A call of a method of anything but the accessor is left exactly as it is. -/
theorem offer_methodCall (stage : Stage) {attrs receiver dot turbofish : Tree} {m : String} {d : Delim} {args : Trees}
    (other : c.isAccessor receiver = false)
    (call : t = .node (.expr .methodCall) [attrs, receiver, dot, word m, turbofish, .group d args]) :
    stage.offer c t = pure t := by
  refine offer_of_apply fun r _ => ?_
  cases r with
  | accessorGet =>
    refine accessorGet_of_not_takes fun takes => ?_
    subst call
    cases takes with
    | read accessor _ =>
      rw [other] at accessor
      cases accessor
  | functionRename =>
    show functionRename c t = _
    subst call
    simp only [word, functionRename, other, Bool.and_false, Bool.false_eq_true, if_false]
  | _ =>
    subst call
    rfl

end Frame

end Retype.Rewrite
