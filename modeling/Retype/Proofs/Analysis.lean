import Retype.TypedFile
import Retype.Proofs.Answers
import Retype.Proofs.Run

/-! What an analysis reads of the functions of a definition. -/

namespace Retype
open Retype.Code
open Retype.Rewrite (Role)

namespace Resource

/-- The names of the functions that the definition names. -/
def Crud.names (c : Crud) : List String := [c.create, c.read, c.delete] ++ c.update.toList

def crudNames (r : Resource) : List String := [r.create, r.read, r.delete] ++ r.update.toList

theorem Crud.isCrud_role (c : Crud) (name : String) : (c.role name).isCrud = c.names.contains name := by
  rw [Bool.eq_iff_iff, List.contains_iff_mem]
  simp only [names, List.cons_append, List.nil_append, List.mem_cons, Option.mem_toList]
  unfold role
  grind [Role.isCrud]

end Resource

/-- What an analysis reads of the functions of a definition. -/
structure Analysed (config : Config) (entry : RegistryEntry) (lit : StructLit) (crud : Resource.Crud) (r : Resource) :
    Prop where
  defined : Resource.definitionOf config entry = some lit
  named : Resource.crud entry.name lit = .ok crud
  functions : r.functions = ((entry.items.filterMap (·.fn?)).filter (·.name != entry.function)).map
    (ResourceFn.ofFn config crud.role (Table.get? (((Definition.field? lit "timeouts").map Definition.timeouts).getD [])))
  fields : r.create = crud.create ∧ r.read = crud.read ∧ r.update = crud.update ∧ r.delete = crud.delete
  found : ∀ role name, (role, name) ∈ crud.named → ∃ f ∈ r.functions, f.name = name
  imports : r.imports = entry.items.filter isUse
  passthrough : r.passthrough = entry.items.filter fun t => !isUse t && t.fn?.isNone

theorem analysed_of_ofEntry {config : Config} {entry : RegistryEntry} {r : Resource}
    (h : Resource.ofEntry config entry = .ok r) : ∃ lit crud, Analysed config entry lit crud r := by
  unfold Resource.ofEntry at h
  split at h
  · rename_i lit defined
    split at h
    · obtain ⟨crud, named, h⟩ := bind_eq_ok.mp h
      dsimp only at h
      split at h
      · cases h
      · rename_i complete
        cases h
        refine ⟨lit, crud, defined, named, rfl, ⟨rfl, rfl, rfl, rfl⟩, ?_, rfl, rfl⟩
        intro role name mem
        have known := List.find?_eq_none.mp complete (role, name) mem
        rw [Bool.not_eq_true, Bool.not_eq_false', List.any_eq_true] at known
        obtain ⟨f, mem, same⟩ := known
        exact ⟨f, mem, beq_iff_eq.mp same⟩
    · cases h
  · cases h

/-- What an analysis reads of the schema of a definition. -/
structure SchemaRead (config : Config) (entry : RegistryEntry) (schema : Schema.Map) (r : Resource) : Prop where
  read : (Resource.definitionOf config entry).bind (Resource.schemaOf config) = some schema
  named : r.name = Text.upperCamel (Registry.dropStart config.namePrefix entry.name)
  models : r.models = ⟨r.name ++ "Model", Definition.withDeclared (Schema.models (r.name ++ "Model") schema.fields)
    (entry.items.filterMap Definition.declaredModel?)⟩
  arguments : r.arguments = schema.fields.filter (!·.isAttribute)
  attributes : r.attributes = schema.fields.filter (·.isAttribute)
  wrapper : r.schemaConstructor = schema.constructor

theorem schemaRead_of_ofEntry {config : Config} {entry : RegistryEntry} {r : Resource}
    (h : Resource.ofEntry config entry = .ok r) : ∃ schema, SchemaRead config entry schema r := by
  unfold Resource.ofEntry at h
  split at h
  · rename_i lit defined
    split at h
    · rename_i schema read
      obtain ⟨crud, -, h⟩ := bind_eq_ok.mp h
      dsimp only at h
      split at h
      · cases h
      · cases h
        exact ⟨schema, by rw [defined, Option.bind_some, read], rfl, rfl, rfl, rfl, rfl⟩
    · cases h
  · cases h

theorem Analysed.crudNames_eq {config : Config} {entry : RegistryEntry} {lit : StructLit} {crud : Resource.Crud}
    {r : Resource} (analysed : Analysed config entry lit crud r) : r.crudNames = crud.names := by
  obtain ⟨create, read, update, delete⟩ := analysed.fields
  rw [Resource.crudNames, Resource.Crud.names, create, read, update, delete]

theorem crud_eq_ok {resource : String} {lit : StructLit} {c : Resource.Crud} (h : Resource.crud resource lit = .ok c) :
    ((Definition.field? lit "create").bind Definition.function? = some c.create) ∧
    ((Definition.field? lit "read").bind Definition.function? = some c.read) ∧
    ((Definition.field? lit "delete").bind Definition.function? = some c.delete) ∧
    ((Definition.field? lit "update").bind Definition.function? = c.update) := by
  unfold Resource.crud at h
  obtain ⟨create, hc, h⟩ := bind_eq_ok.mp h
  obtain ⟨read, hr, h⟩ := bind_eq_ok.mp h
  obtain ⟨delete, hd, h⟩ := bind_eq_ok.mp h
  cases h
  refine ⟨?_, ?_, ?_, rfl⟩
  · dsimp only at hc
    split at hc
    · rename_i found
      cases hc
      exact found
    · cases hc
  · dsimp only at hr
    split at hr
    · rename_i found
      cases hr
      exact found
    · cases hr
  · dsimp only at hd
    split at hd
    · rename_i found
      cases hd
      exact found
    · cases hd

end Retype
