import Retype.Proofs.Analysis

/-! A typed file part by part: what each of its items is, whenever it can be assembled. -/

namespace Retype
open Retype.Code
open TypedFile

theorem checked_eq_ok {item t : Tree} (h : checked item = .ok t) : t = item := by
  unfold checked at h
  split at h <;> cases h
  rfl

theorem structOf_eq_ok {m : Model} {t : Tree} (h : structOf m = .ok t) : ∃ fields,
    m.fields.mapM (fieldOf m) = .ok fields ∧
      t = pubStruct [deriveAttr modelTraits] (Naming.identifier m.name) fields := by
  obtain ⟨fields, made, h⟩ := bind_eq_ok.mp h
  split at h
  · cases h
  · exact ⟨fields, made, checked_eq_ok h⟩

def generalMembers (s : Setting) : Trees :=
  let schemaMethod (name : String) (fields : List SchemaField) : Tree :=
    methodOf name (s.sdkType "SchemaMap") [tailStmt (schemaMap s.resource.schemaConstructor fields)]
  [assocTypeOf "Model" (typeOf s.model),
    methodOf "resource_type" staticStr [tailStmt (stringExpr s.resource.type)],
    methodOf "model_object" (boxedTrait (pathOfNames ["std", "any", "Any"]))
      [tailStmt (callOf (exprOf (pathOfNames ["Box", "new"])) [defaultOf s.model])]] ++
    idValidation s ++
    [schemaMethod "arguments" s.resource.arguments, schemaMethod "attributes" s.resource.attributes]

theorem resourceImpl_eq_ok {s : Setting} {t : Tree} (h : resourceImpl s = .ok t) : ∃ crud,
    [s.resource.create, s.resource.read, s.resource.delete].mapM (crudMethodNamed s) = .ok crud ∧
      t = implTraitOf (s.sdk.extendPath "Resource") s.receiver (generalMembers s ++ crud) := by
  obtain ⟨crud, found, h⟩ := bind_eq_ok.mp h
  exact ⟨crud, found, checked_eq_ok h⟩

theorem helperImpl_eq_ok {s : Setting} {helpers : List ResourceFn} {t : Tree} (h : helperImpl s helpers = .ok t) :
    t = implOf s.receiver (helpers.map (·.code.toMethod)) := by
  unfold helperImpl at h
  split at h
  · cases h
  · exact checked_eq_ok h

theorem updateImpl_eq_ok {s : Setting} {name : String} {t : Tree} (h : updateImpl s name = .ok t) :
    ∃ method, crudMethodNamed s name = .ok method ∧
      t = implTraitOf (s.sdk.extendPath "ResourceWithUpdate") s.receiver [method] := by
  obtain ⟨method, found, h⟩ := bind_eq_ok.mp h
  exact ⟨method, found, checked_eq_ok h⟩

theorem upgradeImpl_eq_ok {s : Setting} {t : Tree} (h : upgradeImpl s = .ok t) : ∃ methods,
    t = implTraitOf (s.sdk.extendPath "ResourceWithStateMigration") s.receiver methods :=
  ⟨_, checked_eq_ok h⟩

theorem furtherImpls_eq_ok {s : Setting} {ts : Trees} (h : furtherImpls s = .ok ts) : ∃ updates upgrades,
    ts = updates ++ upgrades ∧
      List.Forall₂ (fun name t => ∃ method, crudMethodNamed s name = .ok method ∧
        t = implTraitOf (s.sdk.extendPath "ResourceWithUpdate") s.receiver [method]) s.resource.update.toList updates ∧
      ∀ t ∈ upgrades, ∃ methods, t = implTraitOf (s.sdk.extendPath "ResourceWithStateMigration") s.receiver methods := by
  obtain ⟨updates, hupdates, h⟩ := bind_eq_ok.mp h
  obtain ⟨upgrades, hupgrades, h⟩ := bind_eq_ok.mp h
  cases h
  refine ⟨updates, upgrades, rfl, (forall₂_of_mapM hupdates).imp fun _ _ made => updateImpl_eq_ok made, ?_⟩
  intro t mem
  obtain ⟨x, listed, made⟩ := exists_of_forall₂_right (forall₂_of_mapM hupgrades) mem
  split at listed
  · cases List.mem_singleton.mp listed
    exact upgradeImpl_eq_ok made
  · cases listed

def methodsOf (promoted : List String) (fs : List ResourceFn) : List ResourceFn :=
  (fs.filter fun f => f.role = .helper).filter fun f => promoted.contains f.name

def freeOf (promoted : List String) (fs : List ResourceFn) : List ResourceFn :=
  (fs.filter fun f => f.role = .helper).filter fun f => !promoted.contains f.name

/-- The items of a typed file, part by part. -/
structure Assembled (s : Setting) (promoted : List String) (ts structs : Trees) (main : Tree)
    (further methods : Trees) : Prop where
  ofStructs : List.Forall₂ (fun m t => structOf m = .ok t) (s.resource.models.models.filter fun m => !m.declared)
    structs
  ofMain : resourceImpl s = .ok main
  ofFurther : furtherImpls s = .ok further
  ofMethods : methods = if (methodsOf promoted s.resource.functions).isEmpty then [] else
    [implOf s.receiver ((methodsOf promoted s.resource.functions).map (·.code.toMethod))]
  items : ts = s.resource.imports ++ structs ++ s.resource.passthrough ++ receiverStruct s :: main :: further ++
    methods ++ (freeOf promoted s.resource.functions).map (·.code.toTree)

theorem assembled_of_items {config : Config} {promoted : List String} {r : Resource} {ts : Trees}
    (h : TypedFile.items config promoted r = .ok ts) : ∃ sdk structs main further methods,
      Assembled ⟨config, r, sdk⟩ promoted ts structs main further methods := by
  unfold TypedFile.items at h
  split at h
  · cases h
  · obtain ⟨sdk, -, h⟩ := bind_eq_ok.mp h
    obtain ⟨structs, hstructs, h⟩ := bind_eq_ok.mp h
    obtain ⟨main, hmain, h⟩ := bind_eq_ok.mp h
    obtain ⟨further, hfurther, h⟩ := bind_eq_ok.mp h
    obtain ⟨methods, hmethods, h⟩ := bind_eq_ok.mp h
    cases h
    refine ⟨sdk, structs, main, further, methods, forall₂_of_mapM hstructs, hmain, hfurther, ?_, ?_⟩
    · rw [methodsOf]
      split at hmethods
      · rename_i none
        cases hmethods
        rw [if_pos none]
        rfl
      · rename_i some
        rw [List.mapM_cons] at hmethods
        obtain ⟨impl, made, rest⟩ := bind_eq_ok.mp hmethods
        cases rest
        rw [if_neg some, helperImpl_eq_ok made]
        rfl
    · simp only [freeOf, List.append_assoc, List.cons_append]

end Retype
