import Retype.Proofs.Signatures

/-! Types of the parameters that take the model.  The first call of a helper that asks for an edit gives all of its
parameters the types of that call's arguments; a call that passes the model where this one passes something else meets
the type that the first one left. -/

namespace Retype.Rewrite
open Retype.Code

theorem le_of_mem_argumentTypes {c : Context} {index : Nat} {args : Trees} {entry : Nat × Tree}
    (mem : entry ∈ argumentTypes c index args) : index ≤ entry.1 := by
  fun_induction argumentTypes c index args with
  | case1 => cases mem
  | case2 index arg rest ty _ ih =>
    rcases List.mem_cons.mp mem with rfl | mem
    · exact Nat.le_refl _
    · exact Nat.le_of_succ_le (ih mem)
  | case3 index arg rest _ ih => exact Nat.le_of_succ_le (ih mem)

theorem param?_argumentTypes (c : Context) (index i : Nat) (args : Trees) (output : Option Tree) :
    (SignatureEdit.mk (argumentTypes c index args) output).param? (index + i) = (args[i]?).bind (argumentType c) := by
  fun_induction argumentTypes c index args generalizing i with
  | case1 => rfl
  | case2 index arg rest ty typed ih =>
    rw [SignatureEdit.param?, List.find?_cons]
    cases i with
    | zero =>
      rw [Nat.add_zero, beq_self_eq_true, List.getElem?_cons_zero, Option.bind_some, typed]
      rfl
    | succ i =>
      have other : (index == index + (i + 1)) = false := beq_eq_false_iff_ne.mpr (by omega)
      have shifted : index + (i + 1) = index + 1 + i := by omega
      rw [other, List.getElem?_cons_succ, ← ih i, shifted]
      rfl
  | case3 index arg rest untyped ih =>
    cases i with
    | zero =>
      have nothing : (argumentTypes c (index + 1) rest).find? (·.1 == index + 0) = none := by
        refine List.find?_eq_none.mpr fun entry mem here => ?_
        have later := le_of_mem_argumentTypes mem
        rw [beq_iff_eq.mp here] at later
        omega
      rw [SignatureEdit.param?, nothing, List.getElem?_cons_zero, Option.bind_some, untyped]
      rfl
    | succ i =>
      have shifted : index + (i + 1) = index + 1 + i := by omega
      rw [List.getElem?_cons_succ, ← ih i, shifted]

theorem getElem?_applyParams (e : SignatureEdit) (index i : Nat) (params : Trees) :
    ((e.applyParams index params).filterMap fun p => (param? p).map (·.2))[i]? =
      ((params.filterMap fun p => (param? p).map (·.2))[i]?).map fun ty => (e.param? (index + i)).getD ty := by
  fun_induction SignatureEdit.applyParams e index params generalizing i with
  | case1 => rfl
  | case2 index attrs pat colon ty rest ih =>
    cases i with
    | zero => rfl
    | succ i =>
      have shifted : index + (i + 1) = index + 1 + i := by omega
      rw [shifted]
      exact ih i
  | case3 index t rest noParam ih =>
    have none : param? t = none := by
      unfold param?
      split
      · exact (noParam _ _ _ _ rfl).elim
      · rfl
    rw [List.filterMap_cons, List.filterMap_cons, none]
    exact ih i

/-- The type of the parameter of a function at a position. -/
def typeAt (r : Resource) (name : String) (i : Nat) : Option Tree :=
  (r.function? name).bind fun f => f.code.paramTypes[i]?

theorem typeAt_eq_headings (r : Resource) (name : String) (i : Nat) : typeAt r name i =
    ((r.functions.map heading).find? (·.name == name)).bind fun f => f.code.paramTypes[i]? := by
  rw [List.find?_map, Option.bind_map]
  rfl

theorem paramTypes_edited (e? : Option SignatureEdit) (f : ResourceFn) (i : Nat) :
    (edited e? f).code.paramTypes[i]? =
      (f.code.paramTypes[i]?).map fun ty => (e?.bind fun e => e.param? i).getD ty := by
  cases e? with
  | none => exact Option.map_id'.symm
  | some e =>
    have types := getElem?_applyParams e 0 i f.code.inputs
    rw [Nat.zero_add] at types
    exact types

theorem param?_of_mem_calls {visits : List Visit} {call : BoundCall} (mem : call ∈ calls visits) (i : Nat) :
    call.edit.param? i = (call.args[i]?).bind (argumentType call.context) := by
  obtain ⟨v, -, promoted⟩ := mem_calls.mp mem
  obtain ⟨value, name, signature, args, -, -, rfl⟩ := boundCall?_eq_some.mp (Visit.call?_eq_some.mp promoted).2
  have types := param?_argumentTypes v.context 0 i args
    (storedType? v.context signature (assigned? v.context v.tree) (isTried value))
  rwa [Nat.zero_add] at types

/-- The reference to the model that takes the place of the accessor. -/
def modelType (r : Resource) : Tree := refType true (typeOf (Naming.identifier r.models.top))

/-- The call passes the accessor of the function it stands in. -/
def PassesAccessor (call : BoundCall) (i : Nat) : Prop :=
  ∃ arg, call.args[i]? = some arg ∧ call.context.isAccessor arg = true

theorem RunsUntil.models {config : Config} {r : Resource} {visits : List Visit} {left : List Nat} {fs : List ResourceFn}
    {s : State} (runs : RunsUntil config r visits left fs s) {call : BoundCall} (mem : call ∈ calls visits) :
    call.context.models = r.models := by
  obtain ⟨v, visited, promoted⟩ := mem_calls.mp mem
  obtain ⟨value, name, signature, args, -, -, rfl⟩ := boundCall?_eq_some.mp (Visit.call?_eq_some.mp promoted).2
  obtain ⟨fs, f, own, s, s', -, visited, -, f', -, -, ran⟩ := Runs.of_mem (nodup_order _) runs visited
  rw [(ran.of_mem visited).2]
  rfl

/-- The type that a call gives to a parameter that has the type `ty` in the source. -/
def givenType (call : BoundCall) (i : Nat) (ty : Tree) : Tree :=
  ((call.args[i]?).bind (modelFieldType call.context)).getD ty

theorem typeAt_of_progress {r r' : Resource} {visits : List Visit} {s : State}
    (progress : Progress r.functions {} (calls visits) r'.functions s) {name : String} {i : Nat} {ty : Tree}
    (known : typeAt r name i = some ty) :
    typeAt r' name i = some (((firstEdit name (calls visits)).bind fun e => e.param? i).getD ty) := by
  rw [typeAt_eq_headings] at known ⊢
  rw [progress.headings, Option.bind_map]
  obtain ⟨f, found, known⟩ := Option.bind_eq_some_iff.mp known
  rw [found, Option.bind_some, Function.comp_apply, paramTypes_edited, known]
  rfl

theorem asks_of_passesAccessor {visits : List Visit} {call : BoundCall} (mem : call ∈ calls visits) {i : Nat}
    (passes : PassesAccessor call i) : call.asks call.name = true := by
  obtain ⟨arg, at_i, accessor⟩ := passes
  have asked : call.edit.param? i = some (refType true (typeOf (Naming.identifier call.context.models.top))) := by
    rw [param?_of_mem_calls mem, at_i, Option.bind_some, argumentType, if_pos accessor]
  rw [BoundCall.asks, beq_self_eq_true, Bool.true_and, Bool.not_eq_true', SignatureEdit.isEmpty,
    Bool.and_eq_false_iff, ← Bool.not_eq_true, List.isEmpty_iff]
  refine .inl fun empty => ?_
  rw [SignatureEdit.param?, empty] at asked
  cases asked

/-- A parameter takes the type that the first call that asks for an edit gives it: the model, if that call passes the
accessor there, else the type of a field of the model that it passes, else the one of the source.  Any call that passes
its accessor is of a helper with such a first call. -/
theorem parameter_types_of_first_asking {config : Config} {r r' : Resource} {s : State}
    (rewritten : rewriteResource? config r = some (r', s)) :
    ∃ visits, RunsUntil config r visits [] r'.functions s ∧
      (∀ name i ty, typeAt r name i = some ty →
        (firstAsking name (calls visits) = none → typeAt r' name i = some ty) ∧
        ∀ first, firstAsking name (calls visits) = some first →
          (PassesAccessor first i → typeAt r' name i = some (modelType r)) ∧
          (¬ PassesAccessor first i → typeAt r' name i = some (givenType first i ty))) ∧
      ∀ call ∈ calls visits, ∀ i, PassesAccessor call i →
        ∃ first, firstAsking call.name (calls visits) = some first := by
  obtain ⟨visits, runs⟩ := runsUntil_of_rewriteResource? rewritten
  obtain ⟨-, -, progress⟩ := runs.progress
  refine ⟨visits, runs, fun name i ty known => ?_, fun call mem i passes => ?_⟩
  · have settled := typeAt_of_progress progress known
    refine ⟨fun none => ?_, fun first found => ?_⟩
    · rwa [firstEdit, none] at settled
    · have mem : first ∈ calls visits := List.mem_of_find?_eq_some found
      rw [firstEdit, found, Option.map_some, Option.bind_some, param?_of_mem_calls mem] at settled
      refine ⟨fun passes => ?_, fun other => ?_⟩
      · obtain ⟨arg, at_i, accessor⟩ := passes
        rw [at_i, Option.bind_some, argumentType, if_pos accessor, runs.models mem] at settled
        exact settled
      · rw [settled, givenType]
        cases at_i : first.args[i]? with
        | none => rfl
        | some arg =>
          have noAccessor : ¬ first.context.isAccessor arg = true := fun accessor => other ⟨arg, at_i, accessor⟩
          rw [Option.bind_some, Option.bind_some, argumentType, if_neg noAccessor]
  · have found : (firstAsking call.name (calls visits)).isSome = true :=
      List.find?_isSome.mpr ⟨call, mem, asks_of_passesAccessor mem passes⟩
    exact Option.isSome_iff_exists.mp found

theorem parameter_types_of_first_asking_label : ∃ r' s visits, rewriteResource? {} labelResource = some (r', s) ∧
    RunsUntil {} labelResource visits [] r'.functions s ∧
    ∀ call ∈ calls visits, ∀ i, PassesAccessor call i → ∃ first, firstAsking call.name (calls visits) = some first := by
  obtain ⟨r', s, rewritten, -⟩ := rewriteResource?_labelResource
  obtain ⟨visits, runs, -, passing⟩ := parameter_types_of_first_asking rewritten
  exact ⟨r', s, visits, rewritten, runs, passing⟩

def isFieldOf (name : String) : Tree → Bool
  | .node (.expr .field) (_ :: base :: _) => base.isVar name
  | _ => false

/-- `&mut model` -/
def lendsModel (model : String) : Tree → Bool
  | .node (.expr .reference) [_, _, mutable, e] => mutable.isPresent && e.isVar (Naming.identifier model)
  | _ => false

def paramNames (f : Fn) : List (Option String) :=
  f.inputs.filterMap fun p => (param? p).map fun (pat, _) => patIdent? pat

/-- Each helper in whose body fields of its accessor are brought in takes the model in the accessor's place. -/
def BodiesAgree (r r' : Resource) : Prop :=
  ∀ f ∈ r.functions, f.role = .helper → ∀ a i, f.accessor = some a → (paramNames f.code)[i]? = some (some a) →
    ∀ f' ∈ r'.functions, f'.name = f.name → (nodes f.code.body).any (isFieldOf a) = false →
      (nodes f'.code.body).any (isFieldOf a) = true → typeAt r' f.name i = some (modelType r)

/-- Each method that is called with `&mut model` takes the model there. -/
def CallsAgree (r r' : Resource) : Prop :=
  ∀ f ∈ r'.functions, ∀ t ∈ nodes f.code.body, ∀ call, t.methodCall? = some call → call.receiver.isVar "self" = true →
    ∀ i arg, call.args[i]? = some arg → lendsModel f.varModel arg = true →
      typeAt r' call.method i = some (modelType r)

theorem label_keeps_state_parameter : ∃ r' s, rewriteResource? {} labelResource = some (r', s) ∧
    ¬ BodiesAgree labelResource r' ∧ ¬ CallsAgree labelResource r' := by
  have known : ((rewriteResource? {} labelResource).any fun (r', _) =>
      (typeAt r' "label" 0).map (·.text) == some "& ResourceData" &&
      (r'.functions.any fun f => f.name == "label" && (nodes f.code.body).any (isFieldOf "d")) &&
      r'.functions.any fun f => (nodes f.code.body).any fun t => t.methodCall?.any fun call =>
        call.receiver.isVar "self" && call.method == "label" &&
          (call.args[0]?).any (lendsModel f.varModel)) = true := by
    decide +kernel
  obtain ⟨⟨r', s⟩, rewritten, known⟩ := (Option.any_eq_true _ _).mp known
  simp only [Bool.and_eq_true, beq_iff_eq, List.any_eq_true, Option.any_eq_true] at known
  obtain ⟨⟨type, f, mem, named, brought⟩, g, mem', t, node, call, isCall, ⟨own, method⟩, arg, first, lends⟩ := known
  have other : typeAt r' "label" 0 ≠ some (modelType labelResource) := by
    intro same
    rw [same] at type
    exact absurd type (by decide +kernel)
  refine ⟨r', s, rewritten, fun agree => other ?_, fun agree => other ?_⟩
  · exact agree _ (List.mem_cons_of_mem _ List.mem_cons_self) rfl "d" 0 rfl rfl f mem named (by decide +kernel)
      (List.any_eq_true.mpr brought)
  · rw [← method]
    exact agree g mem' t node call isCall own 0 arg first lends

end Retype.Rewrite
