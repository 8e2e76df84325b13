import Retype.Proofs.Literals
import Retype.Proofs.RoleMethods

/-! Schemas that are written read back.  The typed interface gives the arguments and the attributes as schema maps of the
expressions that the source describes them by, so reading these again gives what was read at first. -/

namespace Retype
open Retype.Code
open Retype.Rewrite (Role)
open TypedFile

namespace Schema

theorem describe_info (info : AttributeInfo) (fields : List (String × Tree)) :
    (describe info fields).tag = info.tag ∧ (describe info fields).expr = info.expr := by
  induction fields generalizing info with
  | nil => exact ⟨rfl, rfl⟩
  | cons field fields ih =>
    obtain ⟨name, value⟩ := field
    rw [describe, List.foldl_cons]
    refine ⟨(ih _).1.trans ?_, (ih _).2.trans ?_⟩
    · dsimp only
      split <;> rfl
    · dsimp only
      split <;> rfl

theorem info_attach (info : AttributeInfo) (e : Elements) : (e.attach info).info = info := by
  cases e <;> rfl

theorem info_helperField (config : Config) (info : AttributeInfo) (path : Option Tree) :
    (helperField config info path).info.tag = info.tag ∧ (helperField config info path).info.expr = info.expr := by
  unfold helperField
  split <;> exact ⟨rfl, rfl⟩

theorem info_attributeOf (config : Config) (tag : String) (value : Tree) :
    (attributeOf config tag value).info.tag = tag ∧ (attributeOf config tag value).info.expr = value := by
  unfold attributeOf entryField
  dsimp only
  split
  · split
    · split
      · exact describe_info _ _
      · rw [info_attach]
        exact describe_info _ _
    · exact ⟨rfl, rfl⟩
  · split
    · exact info_helperField config _ _
    · exact ⟨rfl, rfl⟩

/-- An attribute is what its own tag and expression are read as. -/
structure IsRead (config : Config) (f : SchemaField) : Prop where
  read : attributeOf config f.info.tag f.info.expr = f
  noComma : f.info.expr.isOp "," = false

def entryOf (f : SchemaField) : Tree := tupleOf [stringExpr f.info.tag, f.info.expr]

theorem tuple?_entryOf {f : SchemaField} (noComma : f.info.expr.isOp "," = false) :
    (entryOf f).tuple? = some [stringExpr f.info.tag, f.info.expr] := by
  have noCommas : ∀ t ∈ [stringExpr f.info.tag, f.info.expr], t.isOp "," = false := by
    rintro t mem
    rcases List.mem_cons.mp mem with rfl | mem
    · rfl
    · rwa [List.mem_singleton.mp mem]
  exact congrArg some (members_commaList noCommas)

theorem stringText_stringExpr (s : String) : Naming.stringText (stringExpr s) = some s := by
  rw [stringExpr, lit, Naming.stringText]
  exact Literal.stringValue?_stringLiteral s

theorem tagged_entries {fields : List SchemaField} (noCommas : ∀ f ∈ fields, f.info.expr.isOp "," = false) :
    tagged (fields.map entryOf) = fields.map fun f => (f.info.tag, f.info.expr) := by
  induction fields with
  | nil => rfl
  | cons f fields ih =>
    rw [List.forall_mem_cons] at noCommas
    have rest := ih noCommas.2
    rw [tagged] at rest ⊢
    rw [List.map_cons, List.map_cons, List.filterMap_cons, tuple?_entryOf noCommas.1, rest]
    dsimp only
    rw [stringText_stringExpr]
    rfl

theorem unqualified_idem (path : Tree) : unqualified (unqualified path) = unqualified path := by
  have cases : (∃ parts, unqualified path = .node .path parts) ∨ unqualified path = path := by
    unfold unqualified
    split
    · exact .inl ⟨_, rfl⟩
    · exact .inl ⟨_, rfl⟩
    · exact .inr rfl
  rcases cases with ⟨parts, plain⟩ | same
  · rw [plain]
    rfl
  · rw [same, same]

/-- A constructor is named without the type that qualifies it. -/
def IsWrapper (wrapper : Option Tree) : Prop := ∀ path, wrapper = some path → unqualified path = path

theorem isWrapper_constructor? (e : Tree) : IsWrapper (constructor? e) := by
  intro path found
  obtain ⟨written, -, rfl⟩ := Option.map_eq_some_iff.mp found
  exact unqualified_idem written

theorem entries?_schemaMap (wrapper : Option Tree) (fields : List SchemaField) :
    entries? (schemaMap wrapper fields) = some (fields.map entryOf) := by
  have members : Trees.members (commaList (fields.map entryOf)) = fields.map entryOf := by
    refine members_commaList fun t mem => ?_
    obtain ⟨f, -, rfl⟩ := List.mem_map.mp mem
    rfl
  have array : entries? (arrayOf (fields.map entryOf)) = some (fields.map entryOf) := by
    rw [arrayOf, entries?, members]
  cases wrapper with
  | some path =>
    show firstEntries? [arrayOf (fields.map entryOf)] = _
    rw [firstEntries?, array]
    rfl
  | none =>
    show ((entries? (arrayOf (fields.map entryOf)) <|> firstEntries? []) <|> firstEntries? []) = _
    rw [array]
    rfl

theorem constructor?_schemaMap {wrapper : Option Tree} (plain : IsWrapper wrapper) (fields : List SchemaField) :
    constructor? (schemaMap wrapper fields) = wrapper := by
  cases wrapper with
  | some path => exact congrArg some (plain path rfl)
  | none => rfl

theorem ofExpr?_schemaMap {config : Config} {wrapper : Option Tree} {fields : List SchemaField} (plain : IsWrapper wrapper)
    (isRead : ∀ f ∈ fields, IsRead config f) : ofExpr? config (schemaMap wrapper fields) = some ⟨fields, wrapper⟩ := by
  rw [ofExpr?, entries?_schemaMap, Option.map_some, tagged_entries fun f mem => (isRead f mem).noComma, List.map_map]
  have same := (List.map_congr_left fun f mem => (isRead f mem).read).trans (List.map_id fields)
  exact congrArg some (congrArg₂ Map.mk same (constructor?_schemaMap plain fields))

theorem noComma_of_tagged {entries : Trees} {tag : String} {value : Tree} (mem : (tag, value) ∈ tagged entries) :
    value.isOp "," = false := by
  obtain ⟨entry, -, found⟩ := List.mem_filterMap.mp mem
  split at found
  · rename_i key value' pair
    obtain ⟨tag', -, same⟩ := Option.map_eq_some_iff.mp found
    cases same
    unfold Tree.tuple? at pair
    split at pair
    · have member : value ∈ [key, value] := List.mem_cons_of_mem _ (List.mem_singleton_self _)
      rw [← Option.some.inj pair] at member
      exact Bool.not_eq_true' _ |>.mp (List.mem_filter.mp member).2
    · cases pair
  · cases found

theorem isRead_of_ofExpr? {config : Config} {e : Tree} {schema : Map} (read : ofExpr? config e = some schema) :
    (∀ f ∈ schema.fields, IsRead config f) ∧ IsWrapper schema.constructor := by
  obtain ⟨entries, -, rfl⟩ := Option.map_eq_some_iff.mp read
  refine ⟨fun f mem => ?_, isWrapper_constructor? e⟩
  obtain ⟨⟨tag, value⟩, inside, rfl⟩ := List.mem_map.mp mem
  obtain ⟨sameTag, sameExpr⟩ := info_attributeOf config tag value
  exact ⟨by rw [sameTag, sameExpr], by rw [sameExpr]; exact noComma_of_tagged inside⟩

end Schema

def methodExpr? : Tree → Option Tree
  | .node (.item .method) [_, _, _, _, body] =>
    match blockStmts body with
    | [s] => Definition.result? s
    | _ => none
  | _ => none

def schemaMethod (s : Setting) (name : String) (fields : List SchemaField) : Tree :=
  methodOf name (s.sdkType "SchemaMap") [tailStmt (schemaMap s.resource.schemaConstructor fields)]

theorem methodExpr?_schemaMethod (s : Setting) (name : String) (fields : List SchemaField) :
    methodExpr? (schemaMethod s name fields) = some (schemaMap s.resource.schemaConstructor fields) := by
  unfold schemaMethod schemaMap
  cases s.resource.schemaConstructor <;> rfl

/-- The members of an implementation give a schema map in one method of the name. -/
def GivesMap (config : Config) (members : Trees) (name : String) (schema : Schema.Map) : Prop :=
  ∃ method e, methodsNamed name members = [method] ∧ methodExpr? method = some e ∧ Schema.ofExpr? config e = some schema

theorem methodsNamed_crud {s : Setting} {names : List String} {methods : Trees}
    (made : names.mapM (crudMethodNamed s) = .ok methods) {name : String} (other : ∀ role : Role, name ≠ role.label) :
    methodsNamed name methods = [] := by
  rw [methodsNamed, List.filter_eq_nil_iff]
  intro t mem
  obtain ⟨named, -, made⟩ := exists_of_forall₂_right (forall₂_of_mapM made) mem
  obtain ⟨f, -, rfl⟩ := crudMethodNamed_eq_ok made
  rw [methodName?_methodFor, beq_iff_eq, Option.some_inj]
  exact fun same => other f.role same.symm

theorem methodsNamed_schema {s : Setting} {main : Tree} (made : resourceImpl s = .ok main) : ∃ members,
    main = implTraitOf (s.sdk.extendPath "Resource") s.receiver members ∧
      methodsNamed "arguments" members = [schemaMethod s "arguments" s.resource.arguments] ∧
      methodsNamed "attributes" members = [schemaMethod s "attributes" s.resource.attributes] := by
  obtain ⟨crud, found, rfl⟩ := resourceImpl_eq_ok made
  have otherArguments : ∀ role : Role, "arguments" ≠ role.label := by
    intro role
    cases role <;> decide
  have otherAttributes : ∀ role : Role, "attributes" ≠ role.label := by
    intro role
    cases role <;> decide
  refine ⟨_, rfl, ?_, ?_⟩
  · rw [methodsNamed_append, methodsNamed_crud found otherArguments, List.append_nil, generalMembers, idValidation]
    cases s.resource.idValidator <;> rfl
  · rw [methodsNamed_append, methodsNamed_crud found otherAttributes, List.append_nil, generalMembers, idValidation]
    cases s.resource.idValidator <;> rfl

/-- The schema of a resource is divided into arguments and attributes, in its order, and the typed interface gives each
part in a method whose schema map reads back as that part, with the constructor of the source. -/
theorem schema_reads_back {config : Config} {entry : RegistryEntry} {r : Resource}
    (read : Resource.ofEntry config entry = .ok r) (fs : List ResourceFn) {promoted : List String} {ts : Trees}
    (built : TypedFile.items config promoted { r with functions := fs } = .ok ts) :
    ∃ schema sdk structs main members further methods,
      (Resource.definitionOf config entry).bind (Resource.schemaOf config) = some schema ∧
      let s : Setting := ⟨config, { r with functions := fs }, sdk⟩
      Assembled s promoted ts structs main further methods ∧
      main.impl? = some ⟨some (sdk.extendPath "Resource"), s.receiver, members⟩ ∧
      GivesMap config members "arguments" ⟨r.arguments, r.schemaConstructor⟩ ∧
      GivesMap config members "attributes" ⟨r.attributes, r.schemaConstructor⟩ ∧
      r.schemaConstructor = schema.constructor ∧
      r.arguments = schema.fields.filter (!·.isAttribute) ∧ r.attributes = schema.fields.filter (·.isAttribute) ∧
      (r.arguments ++ r.attributes).Perm schema.fields ∧ r.arguments.Disjoint r.attributes := by
  obtain ⟨schema, schemaRead⟩ := schemaRead_of_ofEntry read
  obtain ⟨lit, -, found⟩ := Option.bind_eq_some_iff.mp schemaRead.read
  obtain ⟨e, -, parsed⟩ := Option.bind_eq_some_iff.mp found
  obtain ⟨isRead, isWrapper⟩ := Schema.isRead_of_ofExpr? parsed
  obtain ⟨sdk, structs, main, further, methods, assembled⟩ := assembled_of_items built
  obtain ⟨members, rfl, arguments, attributes⟩ := methodsNamed_schema assembled.ofMain
  have isRead : ∀ p : SchemaField → Bool, ∀ f ∈ schema.fields.filter p, Schema.IsRead config f :=
    fun p f mem => isRead f (List.mem_filter.mp mem).1
  refine ⟨schema, sdk, structs, _, members, further, methods, schemaRead.read, assembled, rfl, ?_, ?_,
    schemaRead.wrapper, schemaRead.arguments, schemaRead.attributes, ?_, ?_⟩
  · refine ⟨_, _, arguments, methodExpr?_schemaMethod _ _ _, Schema.ofExpr?_schemaMap ?_ ?_⟩
    · exact schemaRead.wrapper ▸ isWrapper
    · exact schemaRead.arguments ▸ isRead _
  · refine ⟨_, _, attributes, methodExpr?_schemaMethod _ _ _, Schema.ofExpr?_schemaMap ?_ ?_⟩
    · exact schemaRead.wrapper ▸ isWrapper
    · exact schemaRead.attributes ▸ isRead _
  · rw [schemaRead.arguments, schemaRead.attributes]
    exact List.perm_append_comm.trans (List.filter_append_perm _ _)
  · rw [schemaRead.arguments, schemaRead.attributes]
    intro f settable computed
    have other := (List.mem_filter.mp settable).2
    rw [(List.mem_filter.mp computed).2] at other
    cases other

/-- A name that has to be set and an identifier that is computed, in a map that a function makes. -/
def nameEntry : RegistryEntry :=
  let schema (flag : String) : Tree :=
    structLitOf (pathOf "Schema") [("type_", exprOf (pathOfNames ["ValueType", "String"])),
      (flag, .node (.expr .lit) [noAttrs, word "true"])]
  let entries := arrayOf [tupleOf [stringExpr "name", schema "required"], tupleOf [stringExpr "id", schema "computed"]]
  ⟨"tag", "tag", "tag.rs",
    [definitionFn "tag" [("create", var "add"), ("read", var "show"), ("delete", var "drop"),
        ("schema", callOf (exprOf (pathOfNames ["pluginsdk", "schema_map"])) [entries])],
      plainFn "add" Tree.absent [], plainFn "show" Tree.absent [], plainFn "drop" Tree.absent []]⟩

theorem schema_reads_back_name : ∃ r ts members, Resource.ofEntry {} nameEntry = .ok r ∧
    TypedFile.items {} [] { r with functions := r.functions } = .ok ts ∧
    r.arguments.map (·.info.tag) = ["name"] ∧ r.attributes.map (·.info.tag) = ["id"] ∧
    GivesMap {} members "arguments" ⟨r.arguments, r.schemaConstructor⟩ ∧
    GivesMap {} members "attributes" ⟨r.attributes, r.schemaConstructor⟩ := by
  have known : ((Resource.ofEntry {} nameEntry).toOption.any fun r =>
      (TypedFile.items {} [] { r with functions := r.functions }).toOption.isSome &&
        (r.arguments.map (·.info.tag) == ["name"] && r.attributes.map (·.info.tag) == ["id"])) = true := by
    decide +kernel
  obtain ⟨r, read, known⟩ := (Option.any_eq_true _ _).mp known
  obtain ⟨built, tags⟩ := Bool.and_eq_true_iff.mp known
  obtain ⟨settable, computed⟩ := Bool.and_eq_true_iff.mp tags
  obtain ⟨ts, built⟩ := Option.isSome_iff_exists.mp built
  have read := toOption_eq_some.mp read
  have built := toOption_eq_some.mp built
  obtain ⟨schema, sdk, structs, main, members, further, methods, -, -, -, arguments, attributes, -⟩ :=
    schema_reads_back read r.functions built
  exact ⟨r, ts, members, read, built, beq_iff_eq.mp settable, beq_iff_eq.mp computed, arguments, attributes⟩

end Retype
