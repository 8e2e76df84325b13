import Retype.Proofs.BoundCalls

/-! Look-ups that fail.  A rewriter that records one leaves its node to the others, with one exception: a helper is
promoted although no result type follows from the fields that its value is stored in. -/

namespace Retype.Rewrite
open Retype.Code

/-- An assignment of a call to fields of the model that give no result type to the helper, whose signature is open. -/
structure StoresUntyped (c : Context) (t : Tree) (s : State) (call : BoundCall) (names : List String) : Prop where
  bound : boundCall? c t = some call
  stored : assigned? c t = some names
  fresh : s.isTransformed call.name = false
  untyped : call.edit.output = none

theorem unresolved_note (s : State) (call : BoundCall) : (s.note call).unresolved = s.unresolved := by
  rw [State.note, State.recordEdit]
  split <;> rfl

theorem inlineFunction_of_unbound {c : Context} {t : Tree} (unbound : boundCall? c t = none) (s : State) :
    (inlineFunction c t).run s = (none, s) := by
  cases site : siteValue? t with
  | none => exact inlineFunction_of_no_site site s
  | some value =>
    obtain ⟨put, run⟩ := inlineFunction_of_site (c := c) site
    rw [boundCall?, site, Option.bind_some, Option.map_eq_none_iff] at unbound
    rw [run, promoteCall_of_none unbound]
    rfl

theorem inlineFunction_of_bound {c : Context} {t : Tree} {call : BoundCall} (bound : boundCall? c t = some call)
    (s : State) : ∃ u,
      (inlineFunction c t).run s = (some u, s.note call) ∧ (∀ names, ¬ StoresUntyped c t s call names) ∨
      ∃ names, StoresUntyped c t s call names ∧
        (inlineFunction c t).run s = (some u, (s.addUnresolved (outputMessage c call.name names)).note call) := by
  obtain ⟨value, name, signature, args, site, called, rfl⟩ := boundCall?_eq_some.mp bound
  obtain ⟨put, run⟩ := inlineFunction_of_site (c := c) site
  by_cases met : s.isTransformed name = true ∨ assigned? c t = none ∨
      (storedType? c signature (assigned? c t) (isTried value)).isSome
  · obtain ⟨v, promoted⟩ := promoteCall_of_some called (askedOutput_met met) rfl
    refine ⟨put v, .inl ⟨by rw [run, promoted]; rfl, fun names stores => ?_⟩⟩
    obtain ⟨-, stored, fresh, untyped⟩ := stores
    rcases met with settled | notStored | typed
    · cases settled.symm.trans fresh
    · cases stored.symm.trans notStored
    · cases typed.symm.trans (congrArg Option.isSome untyped)
  · rw [not_or, not_or, Bool.not_eq_true, Option.not_isSome_iff_eq_none] at met
    obtain ⟨fresh, stored, untyped⟩ := met
    obtain ⟨names, stored⟩ := Option.ne_none_iff_exists'.mp stored
    have asked : (askedOutput c name signature (assigned? c t) (isTried value)).run s =
        (if s.isTransformed name then none else storedType? c signature (assigned? c t) (isTried value),
          s.addUnresolved (outputMessage c name names)) := by
      rw [untyped, ite_self, stored]
      exact askedOutput_missed fresh (stored ▸ untyped)
    obtain ⟨v, promoted⟩ := promoteCall_of_some called asked rfl
    exact ⟨put v, .inr ⟨names, ⟨bound, stored, fresh, untyped⟩, by rw [run, promoted]; rfl⟩⟩

theorem StoresUntyped.answer {c : Context} {t u : Tree} {s : State} {call : BoundCall} {names : List String}
    (stores : StoresUntyped c t s call names) (made : ((inlineFunction c t).run s).1 = some u) :
    ∃ attrs left o right v, t = .node (.expr .assign) [attrs, left, o, right] ∧ promoted? c right = some v ∧
      u = .node (.expr .assign) [attrs, left, o, v] := by
  rcases (inlineFunction_run s).mp made with ⟨_, _, _, _, _, _, _, _, rfl, -⟩ | assignment
  · cases stores.stored
  · exact assignment

/-- The rewriter is about to promote a call for whose result it finds no type. -/
def PromotesUntyped (r : Rewriter) (c : Context) (t : Tree) (s : State) (call : BoundCall) (names : List String) :
    Prop :=
  r = .inlineFunction ∧ StoresUntyped c t s call names

/-- What a rewriter answers and what it adds to the state: nothing, a message for which it leaves the node, the note of
a call that it promotes, or both. -/
inductive Recording (r : Rewriter) (c : Context) (t : Tree) (s : State) : Option Tree → List String → State → Prop
  | still (answer : Option Tree) (typed : ∀ call names, ¬ PromotesUntyped r c t s call names) :
      Recording r c t s answer [] s
  | missed {key : Tree} (unnamed : keySteps c key = none) (typed : ∀ call names, ¬ PromotesUntyped r c t s call names) :
      Recording r c t s none [keyMessage c key] (s.addUnresolved (keyMessage c key))
  | noted (u : Tree) (call : BoundCall) (typed : ∀ call names, ¬ PromotesUntyped r c t s call names) :
      Recording r c t s (some u) [] (s.note call)
  | untyped {call : BoundCall} {names : List String} (u : Tree) (promotes : PromotesUntyped r c t s call names) :
      Recording r c t s (some u) [outputMessage c call.name names]
        ((s.addUnresolved (outputMessage c call.name names)).note call)

theorem Rewriter.recording (r : Rewriter) (c : Context) (t : Tree) (s : State) :
    ∃ answer messages after, (r.apply c t).run s = (answer, after) ∧ Recording r c t s answer messages after := by
  by_cases own : r = .inlineFunction
  · subst own
    cases bound : boundCall? c t with
    | none =>
      refine ⟨none, [], s, inlineFunction_of_unbound bound s, .still none fun call names promotes => ?_⟩
      cases bound.symm.trans promotes.2.bound
    | some call =>
      obtain ⟨u, ⟨run, typed⟩ | ⟨names, stores, run⟩⟩ := inlineFunction_of_bound bound s
      · refine ⟨_, _, _, run, .noted u call fun call' names promotes => ?_⟩
        cases bound.symm.trans promotes.2.bound
        exact typed names promotes.2
      · exact ⟨_, _, _, run, .untyped u ⟨rfl, stores⟩⟩
  · have typed : ∀ call names, ¬ PromotesUntyped r c t s call names := fun _ _ promotes => own promotes.1
    rcases r.recorded own c t s with same | ⟨key, unnamed, run⟩
    · exact ⟨_, [], s, Prod.ext rfl same, .still _ typed⟩
    · exact ⟨_, _, _, run, .missed unnamed typed⟩

/-- A message stands for a node that stays, unless it is of a helper's result.  A rewriter that leaves a node adds
messages and changes nothing else that is recorded.  Where it adds a message it leaves the node, exactly if it is not
about to promote a call for whose result it finds no type; such a call is promoted and noted all the same. -/
theorem message_leaves_node_iff (r : Rewriter) (c : Context) (t : Tree) (s : State) :
    ∃ answer messages after, (r.apply c t).run s = (answer, after) ∧
      after.unresolved = s.unresolved ++ messages ∧
      (answer = none → after = { s with unresolved := s.unresolved ++ messages } ∧
        (Stage.rewriteFirst c [r] t).run s = (t, after)) ∧
      ((messages ≠ [] → answer = none) ↔ ∀ call names, ¬ PromotesUntyped r c t s call names) ∧
      ∀ call names, PromotesUntyped r c t s call names →
        messages = [outputMessage c call.name names] ∧
        after = (s.addUnresolved (outputMessage c call.name names)).note call ∧
        ∃ attrs left o right v, t = .node (.expr .assign) [attrs, left, o, right] ∧ promoted? c right = some v ∧
          answer = some (.node (.expr .assign) [attrs, left, o, v]) := by
  obtain ⟨answer, messages, after, run, recording⟩ := r.recording c t s
  have passed : answer = none → (Stage.rewriteFirst c [r] t).run s = (t, after) := by
    rintro rfl
    exact rewriteFirst_passed run
  refine ⟨answer, messages, after, run, ?_⟩
  cases recording with
  | still _ typed =>
    refine ⟨(List.append_nil _).symm, fun isNone => ⟨?_, passed isNone⟩, ?_, ?_⟩
    · rw [List.append_nil]
    · exact iff_of_true (fun added => (added rfl).elim) typed
    · exact fun call names promotes => (typed call names promotes).elim
  | missed unnamed typed =>
    refine ⟨rfl, fun isNone => ⟨rfl, passed isNone⟩, ?_, ?_⟩
    · exact iff_of_true (fun _ => rfl) typed
    · exact fun call names promotes => (typed call names promotes).elim
  | noted u call typed =>
    refine ⟨?_, ?_, ?_, ?_⟩
    · rw [List.append_nil, unresolved_note]
    · rintro ⟨⟩
    · exact iff_of_true (fun added => (added rfl).elim) typed
    · exact fun call names promotes => (typed call names promotes).elim
  | @untyped call names u promotes =>
    refine ⟨?_, ?_, ?_, ?_⟩
    · rw [unresolved_note]
      rfl
    · rintro ⟨⟩
    · refine iff_of_false (fun left => ?_) fun typed => typed call names promotes
      cases left (List.cons_ne_nil _ _)
    · intro call' names' promotes'
      obtain ⟨rfl, stores⟩ := promotes
      cases Option.some.inj (stores.bound.symm.trans promotes'.2.bound)
      cases Option.some.inj (stores.stored.symm.trans promotes'.2.stored)
      obtain ⟨attrs, left, o, right, v, assigns, made, rfl⟩ := stores.answer (congrArg Prod.fst run)
      exact ⟨rfl, rfl, attrs, left, o, right, v, assigns, made, rfl⟩

/-- The model has no field `size`, and the helper is promoted. -/
example :
    let c : Context := ⟨{}, ⟨"WidgetModel", [⟨"WidgetModel", [⟨"name", "String", "name"⟩], true⟩]⟩,
      [("measure", ⟨[], none⟩)], "widget_read", ⟨"widget_create", .create, "model", some "d"⟩, [], none⟩
    let stored := .node (.expr .assign) [noAttrs, fieldAccess (var "model") "size", op "=", callOf (var "measure") [var "d"]]
    let after := ((Rewriter.inlineFunction.apply c stored).run {}).2
    after.promoted = ["measure"] ∧ after.transformed = ["measure"] ∧
      after.unresolved = ["widget_create: cannot derive a return type for \x60measure\x60 from model field \x60size\x60"] := by
  decide +kernel

end Retype.Rewrite
