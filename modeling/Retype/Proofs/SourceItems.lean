import Retype.Proofs.BareCalls
import Retype.Proofs.Visits

/-! The items of a source in its typed file.  Imports and what is neither an import nor a function are carried over as
they are, in their order; a helper is there once, with the body that one run of the two stages makes of its body in the
source, as a method if a call of it was promoted and else as a function. -/

namespace Retype.Rewrite
open Retype.Code

theorem Ran.runStages?_eq {c : Context} {stages : List Stage} {t t' : Tree} {s s' : State} {visits : List Visit}
    (h : Ran c stages t s visits [] t' s') : (runStages? c stages t).run s = some (t', s') := by
  generalize ended : ([] : List Stage) = left at h
  induction h with
  | none =>
    subst ended
    rfl
  | stage _ survived _ ih => exact Option.bind_eq_some_iff.mpr ⟨_, survived, ih ended⟩

/-- The second function has the body that the two stages make of the first one's, whatever the types in the headings
of the functions are by then. -/
def HasRunBody (config : Config) (r : Resource) (f f' : ResourceFn) : Prop :=
  ∃ fs s s', fs.map frame = r.functions.map frame ∧
    (runStages? (contextFor config r fs f) standard f.code.body).run s = some (f'.code.body, s')

theorem HasRunBody.congr {config : Config} {r : Resource} {f g f' : ResourceFn} (scope : scopeOf f = scopeOf g)
    (body : f.code.body = g.code.body) (h : HasRunBody config r f f') : HasRunBody config r g f' := by
  obtain ⟨fs, s, s', framed, run⟩ := h
  rw [contextFor, scope, body] at run
  exact ⟨fs, s, s', framed, run⟩

section Run
variable {config : Config} {r : Resource}

theorem body_rewritten {fs : List ResourceFn} {i j : Nat} {f g g' : ResourceFn} {body : Tree} {s : State}
    (found : fs[i]? = some f) (before : fs[j]? = some g)
    (after : (applyPending s (fs.set i (withBody f body))).1[j]? = some g') :
    scopeOf g' = scopeOf g ∧ g'.code.body = if i = j then body else g.code.body := by
  have kept : KeptByEdits fun h => scopeOf h = scopeOf g ∧ h.code.body = if i = j then body else g.code.body :=
    fun _ _ has => has
  refine kept.applyPending (fun h there => ?_) g' after
  by_cases here : i = j
  · subst here
    rw [found, Option.some.injEq] at before
    rw [List.getElem?_set_self (List.getElem?_eq_some_iff.mp found).1, Option.some.injEq] at there
    subst before there
    exact ⟨rfl, (if_pos rfl).symm⟩
  · rw [List.getElem?_set_ne here, before, Option.some.injEq] at there
    subst there
    exact ⟨rfl, (if_neg here).symm⟩

theorem Runs.bodies {is : List Nat} {fs fs' : List ResourceFn} {s s' : State} {visits : List Visit}
    (h : Runs config r is fs s visits [] fs' s') (distinct : is.Nodup) (framed : fs.map frame = r.functions.map frame)
    {j : Nat} {g g' : ResourceFn} (before : fs[j]? = some g) (after : fs'[j]? = some g') :
    if j ∈ is then HasRunBody config r g g' else g'.code.body = g.code.body := by
  generalize ended : ([] : List Nat) = left at h
  induction h generalizing g with
  | none =>
    subst ended
    rw [before, Option.some.injEq] at after
    rw [if_neg List.not_mem_nil, after]
  | @function i is left fs fs' f body s s₁ s' _ _ found ran _ ih =>
    obtain ⟨here, distinct⟩ := List.nodup_cons.mp distinct
    have inside : j < (applyPending s₁ (fs.set i (withBody f body))).1.length := by
      rw [length_applyPending, List.length_set]
      exact (List.getElem?_eq_some_iff.mp before).1
    obtain ⟨g₁, next⟩ : ∃ g₁, (applyPending s₁ (fs.set i (withBody f body))).1[j]? = some g₁ :=
      ⟨_, List.getElem?_eq_getElem inside⟩
    obtain ⟨scope, own⟩ := body_rewritten found before next
    have later := ih distinct ((frame_rewritten found body s₁).trans framed) next after ended
    by_cases same : i = j
    · subst same
      rw [found, Option.some.injEq] at before
      subst before
      rw [if_neg here, own, if_pos rfl] at later
      rw [if_pos List.mem_cons_self]
      exact ⟨fs, s, s₁, framed, later ▸ ran.runStages?_eq⟩
    · rw [if_neg same] at own
      have listed : j ∈ i :: is ↔ j ∈ is := by
        rw [List.mem_cons]
        exact or_iff_right (Ne.symm same)
      by_cases mem : j ∈ is
      · rw [if_pos mem] at later
        rw [if_pos (listed.mpr mem)]
        exact later.congr scope own
      · rw [if_neg mem, own] at later
        rw [if_neg (listed.not.mpr mem)]
        exact later

theorem hasRunBody_of_rewriteResource? {r' : Resource} {s : State} (h : rewriteResource? config r = some (r', s)) :
    List.Forall₂ (fun g f => frame f = frame g ∧ HasRunBody config r g f) r.functions r'.functions := by
  obtain ⟨visits, runs⟩ := runsUntil_of_rewriteResource? h
  have framed := (rewriteResource?_frame h).2
  have length : r.functions.length = r'.functions.length := by
    simpa only [List.length_map] using congrArg List.length framed.symm
  refine List.forall₂_iff_get.mpr ⟨length, fun i before after => ?_⟩
  have own : r.functions[i]? = some (r.functions.get ⟨i, before⟩) := List.getElem?_eq_getElem before
  have own' : r'.functions[i]? = some (r'.functions.get ⟨i, after⟩) := List.getElem?_eq_getElem after
  constructor
  · have same : (r'.functions.map frame)[i]? = (r.functions.map frame)[i]? := by rw [framed]
    rw [List.getElem?_map, List.getElem?_map, own, own'] at same
    exact Option.some.inj same
  · have done := Runs.bodies runs (nodup_order _) rfl own own'
    rwa [if_pos (mem_order before)] at done

end Run
end Retype.Rewrite

namespace Retype
open Retype.Code
open TypedFile
open Retype.Rewrite (frame HasRunBody)

/-- The functions of a source that are neither the definition nor named by it. -/
def sourceHelpers (entry : RegistryEntry) (r : Resource) : List Fn :=
  (entry.items.filterMap (·.fn?)).filter fun g => isSourceHelper entry r g.name

/-- A function of a source and what a run leaves of it: the types in its heading may be edited, and its body is what the
two stages make of the one in the source. -/
structure RewrittenFrom (config : Config) (r : Resource) (g : Fn) (f : ResourceFn) : Prop where
  name : f.name = g.name
  kept : f.code = { g with inputs := f.code.inputs, output := f.code.output, body := f.code.body }
  body : ∃ fs s s', fs.map frame = r.functions.map frame ∧
    (Rewrite.runStages? (Rewrite.contextFor config r fs f) Rewrite.standard g.body).run s = some (f.code.body, s')

theorem names_of_rewritten {config : Config} {r : Resource} {gs : List Fn} {fs : List ResourceFn}
    (h : List.Forall₂ (RewrittenFrom config r) gs fs) : fs.map (·.name) = gs.map (·.name) := by
  rw [← List.forall₂_eq_eq_eq, List.forall₂_map_left_iff, List.forall₂_map_right_iff]
  exact h.flip.imp fun _ _ made => made.name

section Source
variable {config : Config} {entry : RegistryEntry} {lit : StructLit} {crud : Resource.Crud} {r r' : Resource}

theorem RewrittenFrom.of_frame {roles : String → Rewrite.Role} {timeouts : String → Option Nat} {g : Fn}
    {f : ResourceFn} (framed : frame f = frame (ResourceFn.ofFn config roles timeouts g))
    (ran : HasRunBody config r (ResourceFn.ofFn config roles timeouts g) f) : RewrittenFrom config r g f := by
  have scope : Rewrite.scopeOf (ResourceFn.ofFn config roles timeouts g) = Rewrite.scopeOf f := by
    have own (h : ResourceFn) : Rewrite.scopeOf h = Rewrite.scopeOf (frame h) := rfl
    rw [own, own f, framed]
  refine ⟨congrArg (·.name) framed, ?_, ?_⟩
  · have code := congrArg (·.code) framed
    obtain ⟨name, role, varModel, accessor, timeout, attrs, vis, head, inputs, output, preds, body⟩ := f
    cases code
    rfl
  · obtain ⟨fs, s, s', frames, run⟩ := ran
    rw [Rewrite.contextFor, scope] at run
    exact ⟨fs, s, s', frames, run⟩

theorem Analysed.rewritten_helpers (analysed : Analysed config entry lit crud r) {s : Rewrite.State}
    (rewritten : Rewrite.rewriteResource? config r = some (r', s)) :
    List.Forall₂ (RewrittenFrom config r) (sourceHelpers entry r') (r'.functions.filter fun f => f.role = .helper) := by
  have each := Rewrite.hasRunBody_of_rewriteResource? rewritten
  rw [analysed.functions, List.forall₂_map_left_iff] at each
  have names : r'.crudNames = crud.names := by
    rw [(Rewrite.rewriteResource?_frame rewritten).1, ← analysed.crudNames_eq]
    rfl
  have helpers : sourceHelpers entry r' =
      ((entry.items.filterMap (·.fn?)).filter (·.name != entry.function)).filter
        fun g => crud.role g.name = .helper := by
    rw [sourceHelpers, List.filter_filter]
    refine List.filter_congr fun g mem => ?_
    have listed : (fnNames entry.items).contains g.name = true := List.contains_iff_mem.mpr (List.mem_map_of_mem mem)
    have role : decide (crud.role g.name = .helper) = !(crud.role g.name).isCrud := by
      cases crud.role g.name <;> rfl
    rw [isSourceHelper, listed, names, role, Resource.Crud.isCrud_role, Bool.true_and, Bool.and_comm]
  rw [helpers]
  refine (List.rel_filter ?_ each).imp fun g f made => .of_frame made.1 made.2
  intro g f made
  have role : f.role = crud.role g.name := congrArg (·.role) made.1
  simp only [role]

end Source

/-- The item is neither an import nor a function. -/
def isCarried (t : Tree) : Bool := !isUse t && t.fn?.isNone

/-- One implementation, of no trait, has a method for each function, in their order: the function with `&self` in front of
its parameters. -/
def HoldsMethods (receiver : Tree) (fs : List ResourceFn) (items : Trees) : Prop :=
  (fs = [] ∧ items = []) ∨ ∃ t members, items = [t] ∧ t.impl? = some ⟨none, receiver, members⟩ ∧
    List.Forall₂ (fun f m => BorrowsSelf f.code m) fs members

theorem Assembled.holdsMethods {s : Setting} {promoted : List String} {ts structs : Trees} {main : Tree}
    {further methods : Trees} (h : Assembled s promoted ts structs main further methods)
    (headers : ∀ f ∈ s.resource.functions, f.code.head.length = 7) :
    HoldsMethods s.receiver (methodsOf promoted s.resource.functions) methods := by
  rw [h.ofMethods]
  split
  · exact .inl ⟨List.isEmpty_iff.mp ‹_›, rfl⟩
  · refine .inr ⟨_, _, rfl, impl?_implOf .., ?_⟩
    rw [List.forall₂_map_right_iff, List.forall₂_same]
    intro f mem
    exact borrowsSelf_toMethod (headers f (List.mem_of_mem_filter (List.mem_of_mem_filter mem)))

/-- What a typed file holds of its source, and where.  The structs, the receiver and the implementations are made for
the resource; all else is of the source. -/
structure CarriesSource (config : Config) (entry : RegistryEntry) (file : Typed) (r : Resource) (s : Setting)
    (structs impls methods : Trees) (helpers : List ResourceFn) : Prop where
  analysed : Resource.ofEntry config entry = .ok r
  setting : s.config = config ∧ s.resource = file.resource
  ofStructs : ∀ t ∈ structs, ∃ m ∈ file.resource.models.models, structOf m = .ok t
  ofImpls : ∀ t ∈ impls, ∃ trait members, t.impl? = some ⟨some trait, s.receiver, members⟩
  ofMethods : HoldsMethods s.receiver (helpers.filter fun f => file.state.promoted.contains f.name) methods
  ofHelpers : List.Forall₂ (RewrittenFrom config r) (sourceHelpers entry file.resource) helpers
  /-- No two helpers share a name, so each stands in one place. -/
  distinct : (helpers.map (·.name)).Nodup
  items : file.items = entry.items.filter isUse ++ structs ++ entry.items.filter isCarried ++
    receiverStruct s :: impls ++ methods ++
    (helpers.filter fun f => !file.state.promoted.contains f.name).map (·.code.toTree)
  /-- There is no other import, and no other function. -/
  uses : file.items.filter isUse = entry.items.filter isUse
  fns : file.items.filterMap (·.fn?) = (helpers.filter fun f => !file.state.promoted.contains f.name).map (·.code)

theorem implTraitOf_of_mem {s : Setting} {main : Tree} {further : Trees} (ofMain : resourceImpl s = .ok main)
    (ofFurther : furtherImpls s = .ok further) :
    ∀ t ∈ main :: further, ∃ trait members, t = implTraitOf trait s.receiver members := by
  intro t mem
  rcases List.mem_cons.mp mem with rfl | mem
  · obtain ⟨crud, -, made⟩ := resourceImpl_eq_ok ofMain
    exact ⟨_, _, made⟩
  · obtain ⟨updates, upgrades, rfl, made, upgraded⟩ := furtherImpls_eq_ok ofFurther
    rcases List.mem_append.mp mem with mem | mem
    · obtain ⟨name, -, method, -, made⟩ := exists_of_forall₂_right made mem
      exact ⟨_, _, made⟩
    · obtain ⟨members, made⟩ := upgraded t mem
      exact ⟨_, _, made⟩

/-- The imports of a typed file are those that the resource has. -/
theorem Assembled.uses {s : Setting} {promoted : List String} {ts structs : Trees} {main : Tree}
    {further methods : Trees} (h : Assembled s promoted ts structs main further methods)
    (passthrough : ∀ t ∈ s.resource.passthrough, isUse t = false) :
    ts.filter isUse = s.resource.imports.filter isUse := by
  have none {ts : Trees} (h : ∀ t ∈ ts, isUse t = false) : ts.filter isUse = [] :=
    List.filter_eq_nil_iff.mpr fun t mem => by rw [h t mem]; exact Bool.false_ne_true
  have noStruct : structs.filter isUse = [] := none fun t mem => by
    obtain ⟨m, -, made⟩ := exists_of_forall₂_right h.ofStructs mem
    obtain ⟨fields, -, rfl⟩ := structOf_eq_ok made
    rfl
  have noImpl : (main :: further).filter isUse = [] := none fun t mem => by
    obtain ⟨trait, members, rfl⟩ := implTraitOf_of_mem h.ofMain h.ofFurther t mem
    rfl
  have noReceiver : (receiverStruct s :: main :: further).filter isUse = [] := noImpl
  have noMethod : methods.filter isUse = [] := none fun t mem => by
    rw [h.ofMethods] at mem
    split at mem
    · cases mem
    · cases List.mem_singleton.mp mem
      rfl
  have noFree : ((freeOf promoted s.resource.functions).map (·.code.toTree)).filter isUse = [] :=
    none fun t mem => by
      obtain ⟨f, -, rfl⟩ := List.mem_map.mp mem
      rfl
  rw [h.items]
  simp only [List.filter_append, noStruct, none passthrough, noReceiver, noMethod, noFree, List.append_nil]

theorem of_isCarried {entry : RegistryEntry} {t : Tree} (mem : t ∈ entry.items.filter isCarried) :
    isUse t = false ∧ t.fn? = none := by
  have kept := (List.mem_filter.mp mem).2
  rwa [isCarried, Bool.and_eq_true, Bool.not_eq_true', Option.isNone_iff_eq_none] at kept

/-- A typed file holds every import and every other item of its source that is no function once, as it is and in its
place among them; every helper once, rewritten, as a method if it was promoted and as a function if not; and no other
function. -/
theorem typed_carries_source {config : Config} {entry : RegistryEntry} {file : Typed}
    (built : typed? config entry = some file) (distinct : (fnNames entry.items).Nodup) :
    ∃ r s structs impls methods helpers, CarriesSource config entry file r s structs impls methods helpers := by
  obtain ⟨r, ofEntry, rewritten, items⟩ := typed?_eq_some built
  obtain ⟨lit, crud, analysed⟩ := analysed_of_ofEntry ofEntry
  obtain ⟨same, framed⟩ := Rewrite.rewriteResource?_frame rewritten
  obtain ⟨sdk, structs, main, further, methods, assembled⟩ := assembled_of_items items
  have imports : file.resource.imports = entry.items.filter isUse := by
    rw [same]
    exact analysed.imports
  have carried : file.resource.passthrough = entry.items.filter isCarried := by
    rw [same]
    exact analysed.passthrough
  have ofStructs : ∀ t ∈ structs, ∃ m ∈ file.resource.models.models, structOf m = .ok t := by
    intro t mem
    obtain ⟨m, listed, made⟩ := exists_of_forall₂_right assembled.ofStructs mem
    exact ⟨m, List.mem_of_mem_filter listed, made⟩
  have ofHelpers := analysed.rewritten_helpers rewritten
  have once : ((file.resource.functions.filter fun f => f.role = .helper).map (·.name)).Nodup := by
    rw [names_of_rewritten ofHelpers]
    exact (List.filter_sublist.map _).nodup distinct
  have noUse : ∀ t ∈ file.resource.imports, t.fn? = none := by
    rw [imports]
    exact fun t mem => fn?_of_isUse (List.mem_filter.mp mem).2
  have onlyCarried : ∀ t ∈ file.resource.passthrough, isUse t = false ∧ t.fn? = none := by
    rw [carried]
    exact fun t mem => of_isCarried mem
  have headers := analysed.headers framed
  refine ⟨r, ⟨config, file.resource, sdk⟩, structs, main :: further, methods, _, ofEntry, ⟨rfl, rfl⟩, ofStructs, ?_,
    assembled.holdsMethods headers, ofHelpers, once, ?_, ?_, ?_⟩
  · intro t mem
    obtain ⟨trait, members, rfl⟩ := implTraitOf_of_mem assembled.ofMain assembled.ofFurther t mem
    exact ⟨trait, members, rfl⟩
  · rw [assembled.items, freeOf, imports, carried]
  · rw [assembled.uses fun t mem => (onlyCarried t mem).1, imports, List.filter_filter]
    simp only [Bool.and_self]
  · exact assembled.fns noUse (fun t mem => (onlyCarried t mem).2) headers

/-- The label's definition beside an import, a struct and a function that nothing calls. -/
def spareEntry : RegistryEntry :=
  { labelEntry with items := .node (.item .use) [noAttrs, Tree.absent, word "use", Tree.absent,
      .node (.useTree .name) [word "serde"], op ";"] :: pubUnitStruct [] "Extra" :: labelEntry.items ++
      [plainFn "spare" Tree.absent [letMut "x" (callOf (var "label") [])]] }

/-- The label is there as a method, the spare function as a function. -/
theorem typed_carries_source_spare : (fnNames spareEntry.items).Nodup ∧ ∃ file r s structs impls methods helpers,
    typed? {} spareEntry = some file ∧ CarriesSource {} spareEntry file r s structs impls methods helpers ∧
    helpers.map (·.name) = ["label", "spare"] ∧ file.state.promoted = ["label"] := by
  have distinct : (fnNames spareEntry.items).Nodup := by decide
  have known : ((typed? {} spareEntry).any fun file => file.state.promoted == ["label"] &&
      file.resource.crudNames == ["add", "show", "drop"]) = true := by
    decide +kernel
  obtain ⟨file, built, known⟩ := (Option.any_eq_true _ _).mp known
  rw [Bool.and_eq_true, beq_iff_eq, beq_iff_eq] at known
  obtain ⟨promoted, crud⟩ := known
  obtain ⟨r, s, structs, impls, methods, helpers, carries⟩ := typed_carries_source built distinct
  refine ⟨distinct, file, r, s, structs, impls, methods, helpers, built, carries, ?_, promoted⟩
  rw [names_of_rewritten carries.ofHelpers]
  simp only [sourceHelpers, isSourceHelper, crud]
  decide

end Retype
