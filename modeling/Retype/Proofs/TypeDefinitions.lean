import Retype.Proofs.ModelNames
import Retype.Proofs.Variables

/-! The types that a typed file defines: a struct for each derived model, what the source defines, and the receiver.
The names of derived models are told apart from one another before they are written as identifiers, and from no type
of the source that is no model. -/

namespace Retype
open Retype.Code Retype.Naming

/-- The name of the type that an item defines: a struct, an enum, a union or an alias. -/
def definedType? : Tree → Option String
  | .node (.item .struct) (_ :: _ :: _ :: name :: _) => name.ident?.map unraw
  | .node (.item .enum) (_ :: _ :: _ :: name :: _) => name.ident?.map unraw
  | .node (.item .union) (_ :: _ :: _ :: name :: _) => name.ident?.map unraw
  | .node (.item .typeAlias) (_ :: _ :: _ :: _ :: name :: _) => name.ident?.map unraw
  | _ => none

/-- The names of the types that items define, in their order. -/
def typeNames (items : Trees) : List String := items.filterMap definedType?

theorem typeNames_append (ts us : Trees) : typeNames (ts ++ us) = typeNames ts ++ typeNames us :=
  List.filterMap_append

theorem typeNames_eq_nil {ts : Trees} (none : ∀ t ∈ ts, definedType? t = none) : typeNames ts = [] :=
  List.filterMap_eq_nil_iff.mpr none

theorem definedType?_toTree (f : Fn) : definedType? f.toTree = none := rfl

theorem definedType?_pubStruct (attrs : Trees) (name : String) (fields : Trees) :
    definedType? (pubStruct attrs name fields) = some (unraw name) := rfl

theorem definedType?_of_isUse {t : Tree} (h : isUse t = true) : definedType? t = none := by
  unfold isUse at h
  split at h
  · rfl
  · cases h

theorem definedType?_of_fn? {t : Tree} {f : Fn} (h : t.fn? = some f) : definedType? t = none := by
  unfold Tree.fn? at h
  split at h
  · rfl
  · cases h

/-- Imports and functions define no types, so what is carried over defines all that the source does. -/
theorem typeNames_carried (items : Trees) :
    typeNames (items.filter fun t => !isUse t && t.fn?.isNone) = typeNames items := by
  rw [typeNames, typeNames, List.filterMap_filter]
  refine List.filterMap_congr fun t _ => ?_
  by_cases isUse : isUse t = true
  · rw [definedType?_of_isUse isUse, ite_self]
  · cases fn : t.fn? with
    | some f => rw [definedType?_of_fn? fn, ite_self]
    | none =>
      rw [Bool.not_eq_true] at isUse
      rw [isUse]
      rfl

/-- The models that get a struct. -/
def derivedModels (r : Resource) : List Model := r.models.models.filter fun m => !m.declared

theorem typeNames_structs {ms : List Model} {ts : Trees} (made : List.Forall₂ (fun m t => TypedFile.structOf m = .ok t) ms ts) :
    typeNames ts = ms.map fun m => cleaned m.name := by
  induction made with
  | nil => rfl
  | @cons m t ms ts first _ ih =>
    obtain ⟨fields, -, rfl⟩ := structOf_eq_ok first
    rw [typeNames, List.filterMap_cons_some (definedType?_pubStruct _ _ _), unraw_identifier_eq_cleaned, List.map_cons]
    exact congrArg _ ih

theorem Assembled.typeNames {s : TypedFile.Setting} {promoted : List String} {ts structs : Trees} {main : Tree}
    {further methods : Trees} (h : Assembled s promoted ts structs main further methods)
    (imports : ∀ t ∈ s.resource.imports, definedType? t = none) :
    typeNames ts = (derivedModels s.resource).map (fun m => cleaned m.name) ++ typeNames s.resource.passthrough ++
      [cleaned s.resource.receiver] := by
  have main' : definedType? main = none := by
    obtain ⟨crud, -, rfl⟩ := resourceImpl_eq_ok h.ofMain
    rfl
  have further' : ∀ t ∈ further, definedType? t = none := by
    obtain ⟨updates, upgrades, rfl, updated, upgraded⟩ := furtherImpls_eq_ok h.ofFurther
    intro t mem
    rcases List.mem_append.mp mem with mem | mem
    · obtain ⟨name, -, method, -, rfl⟩ := exists_of_forall₂_right updated mem
      rfl
    · obtain ⟨methods, rfl⟩ := upgraded t mem
      rfl
  have methods' : ∀ t ∈ methods, definedType? t = none := by
    rw [h.ofMethods]
    intro t mem
    split at mem
    · cases mem
    · rw [List.mem_singleton.mp mem]
      rfl
  have free : ∀ t ∈ (freeOf promoted s.resource.functions).map (·.code.toTree), definedType? t = none := by
    intro t mem
    obtain ⟨f, -, rfl⟩ := List.mem_map.mp mem
    exact definedType?_toTree _
  have receiver : Retype.typeNames [TypedFile.receiverStruct s] = [cleaned s.resource.receiver] := by
    rw [← unraw_identifier_eq_cleaned]
    rfl
  have tail : Retype.typeNames (TypedFile.receiverStruct s :: main :: further) = [cleaned s.resource.receiver] := by
    rw [← List.singleton_append, typeNames_append, receiver,
      typeNames_eq_nil (List.forall_mem_cons.mpr ⟨main', further'⟩), List.append_nil]
  rw [h.items]
  simp only [typeNames_append, tail, typeNames_structs h.ofStructs, typeNames_eq_nil imports, typeNames_eq_nil methods',
    typeNames_eq_nil free, List.nil_append, List.append_nil]
  rfl

theorem getLast?_cleaned {name : String} {c : Char} (last : name.toList.getLast? = some c) (letter : c.isAlphanum = true) :
    (cleaned name).toList.getLast? = some c := by
  have bare : (unraw name).toList.getLast? = some c := by
    unfold unraw
    split
    · rename_i r same
      rw [same] at last
      rw [String.toList_ofList]
      cases r with
      | nil =>
        cases last
        exact absurd letter (by decide)
      | cons d r => rwa [List.getLast?_cons_cons, List.getLast?_cons_cons] at last
    · exact last
  have guarded (s : List Char) (last : s.getLast? = some c) : (guardStart s).getLast? = some c := by
    cases s with
    | nil => cases last
    | cons d s =>
      rw [guardStart]
      split
      · rwa [List.getLast?_cons_cons]
      · exact last
  rw [cleaned, String.toList_ofList]
  refine guarded _ ?_
  rw [List.getLast?_map, bare, Option.map_some, if_pos (Bool.or_eq_true_iff.mpr (.inl letter))]

theorem getLast?_append {front back : String} {c : Char} (last : back.toList.getLast? = some c) :
    (front ++ back).toList.getLast? = some c := by
  rw [String.toList_append, List.getLast?_append, last]
  rfl

theorem Schema.getLast?_models {top : String} (ends : top.toList.getLast? = some 'l') (fields : List SchemaField) :
    ∀ m ∈ models top fields, m.declared = false ∧ m.name.toList.getLast? = some 'l' := by
  have kept : Keeps (fun name => name.toList.getLast? = some 'l') (fun _ => True) := by
    intro parent tag k _ _
    match k with
    | 0 | 1 | k + 2 => exact getLast?_append (by decide)
  obtain ⟨own, added, -, -, derived, -⟩ := models_derived kept top fields ends fun _ _ => trivial
  exact fun m mem => ⟨(derived m mem).derived, (derived m mem).named⟩

theorem declared_of_declaredModel? {t : Tree} {m : Model} (h : Definition.declaredModel? t = some m) :
    m.declared = true := by
  unfold Definition.declaredModel? at h
  split at h
  · split at h
    · cases h
    · cases h
      rfl
  · cases h

section Entry
variable {config : Config} {entry : RegistryEntry} {r : Resource}

/-- The models of blocks get a struct each, but for those whose names a struct of the source has that is a model. -/
theorem mem_derivedModels_iff (read : Resource.ofEntry config entry = .ok r) : ∃ schema,
    (Resource.definitionOf config entry).bind (Resource.schemaOf config) = some schema ∧
    ∀ m, m ∈ derivedModels r ↔
      m ∈ Schema.models r.modelName schema.fields ∧ m.name ∉ (declaredModels entry).map (·.name) := by
  obtain ⟨-, top, -, -, -, ⟨schema, given, members⟩, -⟩ := models_of_entry read
  have ends : r.modelName.toList.getLast? = some 'l' := top ▸ getLast?_append (by decide)
  refine ⟨schema, given, fun m => ?_⟩
  rw [derivedModels, List.mem_filter, members, Bool.not_eq_true']
  constructor
  · rintro ⟨⟨before, after, split, -⟩ | derived, plain⟩
    · have listed : m ∈ declaredModels entry := split ▸ List.mem_append_right _ List.mem_cons_self
      obtain ⟨t, -, declared⟩ := List.mem_filterMap.mp listed
      cases plain.symm.trans (declared_of_declaredModel? declared)
    · exact derived
  · exact fun derived => ⟨.inr derived, (Schema.getLast?_models ends schema.fields m derived.1).1⟩

theorem receiver_ne_derived (read : Resource.ofEntry config entry = .ok r) {m : Model} (mem : m ∈ derivedModels r) :
    cleaned r.receiver ≠ cleaned m.name := by
  obtain ⟨schema, -, derived⟩ := mem_derivedModels_iff read
  have top : r.modelName = r.name ++ "Model" := (models_of_entry read).2.1
  have ends : r.modelName.toList.getLast? = some 'l' := top ▸ getLast?_append (by decide)
  have own := getLast?_cleaned (Schema.getLast?_models ends schema.fields m ((derived m).mp mem).1).2 (by decide)
  have other : (cleaned r.receiver).toList.getLast? = some 'e' := getLast?_cleaned (getLast?_append (by decide)) (by decide)
  intro same
  rw [same, own] at other
  cases other

end Entry

theorem nodup_names_iff {ms : List Model} {source : List String} {receiver : String}
    (apart : ∀ m ∈ ms, receiver ≠ cleaned m.name) :
    ((ms.map fun m => cleaned m.name) ++ source ++ [receiver]).Nodup ↔
      source.Nodup ∧ ms.Pairwise (fun a b => cleaned a.name ≠ cleaned b.name) ∧
        (∀ m ∈ ms, cleaned m.name ∉ source) ∧ receiver ∉ source := by
  rw [List.nodup_append, List.nodup_append]
  constructor
  · rintro ⟨⟨models, source, between⟩, -, last⟩
    refine ⟨source, List.pairwise_map.mp models, fun m mem listed => ?_, fun listed => ?_⟩
    · exact between _ (List.mem_map_of_mem mem) _ listed rfl
    · exact last _ (List.mem_append_right _ listed) _ (List.mem_singleton_self _) rfl
  · rintro ⟨source, models, between, own⟩
    refine ⟨⟨List.pairwise_map.mpr models, source, ?_⟩, List.nodup_singleton _, ?_⟩
    · rintro name listed _ given rfl
      obtain ⟨m, mem, rfl⟩ := List.mem_map.mp listed
      exact between m mem given
    · rintro name listed _ last rfl
      obtain rfl := List.mem_singleton.mp last
      rcases List.mem_append.mp listed with listed | listed
      · obtain ⟨m, mem, same⟩ := List.mem_map.mp listed
        exact apart m mem same.symm
      · exact own listed

/-- A typed file defines a struct for each derived model, the types that its source defines, and the receiver.  The
derived models have names of their own, none of a model that is declared, and no identifier of them is that of the
receiver.  So the names of the types are pairwise distinct exactly if those of the source are, names of derived models
are apart after what cannot stand in an identifier is replaced, as they are where nothing is, and the source defines no
type of the name of a derived model or of the receiver. -/
theorem type_names_distinct_iff {config : Config} {entry : RegistryEntry} {file : Typed}
    (built : typed? config entry = some file) :
    typeNames file.items = (derivedModels file.resource).map (fun m => cleaned m.name) ++ typeNames entry.items ++
      [cleaned file.resource.receiver] ∧
    (∃ schema, (Resource.definitionOf config entry).bind (Resource.schemaOf config) = some schema ∧
      ∀ m, m ∈ derivedModels file.resource ↔
        m ∈ Schema.models file.resource.modelName schema.fields ∧ m.name ∉ (declaredModels entry).map (·.name)) ∧
    ((derivedModels file.resource).map (·.name)).Nodup ∧
    ((∀ m ∈ derivedModels file.resource, Lexer.IsAsciiName m.name.toList) →
      (derivedModels file.resource).Pairwise fun a b => cleaned a.name ≠ cleaned b.name) ∧
    (∀ m ∈ derivedModels file.resource, cleaned file.resource.receiver ≠ cleaned m.name) ∧
    ((typeNames file.items).Nodup ↔ (typeNames entry.items).Nodup ∧
      ((derivedModels file.resource).Pairwise fun a b => cleaned a.name ≠ cleaned b.name) ∧
      (∀ m ∈ derivedModels file.resource, cleaned m.name ∉ typeNames entry.items) ∧
      cleaned file.resource.receiver ∉ typeNames entry.items) := by
  obtain ⟨r, read, rewritten, items⟩ := typed?_eq_some built
  obtain ⟨lit, crud, analysed⟩ := analysed_of_ofEntry read
  obtain ⟨same, -⟩ := Rewrite.rewriteResource?_frame rewritten
  obtain ⟨sdk, structs, main, further, methods, assembled⟩ := assembled_of_items items
  have kept : derivedModels file.resource = derivedModels r ∧ file.resource.receiver = r.receiver ∧
      file.resource.modelName = r.modelName := by
    rw [same]
    exact ⟨rfl, rfl, rfl⟩
  have imports : ∀ t ∈ file.resource.imports, definedType? t = none := by
    rw [same]
    change ∀ t ∈ r.imports, _
    rw [analysed.imports]
    exact fun t mem => definedType?_of_isUse (List.mem_filter.mp mem).2
  have carried : typeNames file.resource.passthrough = typeNames entry.items := by
    rw [same]
    change typeNames r.passthrough = _
    rw [analysed.passthrough, typeNames_carried]
  have names := assembled.typeNames imports
  rw [carried] at names
  have apart : ∀ m ∈ derivedModels file.resource, cleaned file.resource.receiver ≠ cleaned m.name := by
    rw [kept.1, kept.2.1]
    exact fun m => receiver_ne_derived read
  have derived : ((derivedModels file.resource).map (·.name)).Nodup := by
    rw [kept.1]
    exact (models_of_entry read).1.sublist (List.filter_sublist.map _)
  refine ⟨names, ?_, derived, fun clean => ?_, apart, ?_⟩
  · rw [kept.1, kept.2.2]
    exact mem_derivedModels_iff read
  · refine (List.pairwise_map.mp derived).imp_of_mem fun {a b} memA memB differ => ?_
    rwa [cleaned_of_isAsciiName (clean a memA), cleaned_of_isAsciiName (clean b memB)]
  · rw [names]
    exact nodup_names_iff apart

/-- A block that is called as a struct of the source is that is no model. -/
def namesakeEntry : RegistryEntry :=
  ⟨"tag", "tag", "tag.rs",
    [definitionFn "tag" [("create", var "add"), ("read", var "show"), ("delete", var "drop"),
        ("schema", arrayOf [tupleOf [stringExpr "sku", emptyBlock]])],
      plainFn "add" Tree.absent [], plainFn "show" Tree.absent [], plainFn "drop" Tree.absent [],
      pubStruct [] "SkuModel" [pubField [] "size" (typeOf "i64")]]⟩

/-- Its types have names of their own, and the typed file defines two of one name. -/
theorem type_names_distinct_iff_namesake : ∃ file, typed? {} namesakeEntry = some file ∧
    (typeNames namesakeEntry.items).Nodup ∧ ¬(typeNames file.items).Nodup := by
  have known : ((typed? {} namesakeEntry).any fun file =>
      (derivedModels file.resource).any fun m => cleaned m.name == "SkuModel") = true := by decide +kernel
  obtain ⟨file, built, known⟩ := (Option.any_eq_true _ _).mp known
  obtain ⟨m, mem, named⟩ := List.any_eq_true.mp known
  obtain ⟨-, -, -, -, -, distinct⟩ := type_names_distinct_iff built
  refine ⟨file, built, by decide, fun nodup => ?_⟩
  have apart := (distinct.mp nodup).2.2.1 m mem
  rw [beq_iff_eq.mp named] at apart
  exact apart (by decide)

end Retype
