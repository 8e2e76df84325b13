import Retype.Proofs.Assembly
import Retype.Proofs.Identifiers
import Retype.Proofs.Literals
import Retype.Proofs.ModelNames
import Retype.Proofs.TypeNames

/-! The structs of derived models.  Read as a declaration, the struct of a model gives its fields back, and its name if
that is an identifier; types of fields refer to the model by its name as it is. -/

namespace Retype
open Retype.Code Retype.Naming
open Retype.Code.Lexer (IsAsciiName)

theorem modelField?_pubField (tag name : String) (ty : Tree) :
    Definition.modelField? (pubField [attrOf "tfschema" [lit (Text.stringLiteral tag)]] name ty) =
      some ⟨unraw name, renderType ty, tag⟩ := by
  have found : Definition.tagOf? (.node .attrs [attrOf "tfschema" [lit (Text.stringLiteral tag)]]) = some tag :=
    Literal.stringValue?_stringLiteral tag
  exact congrArg (Option.map fun tag => (⟨unraw name, renderType ty, tag⟩ : ModelField)) found

namespace TypedFile

theorem modelField?_of_fieldOf {ms : List Model} {m : Model} {f : ModelField} {t : Tree}
    (named : ∀ m ∈ ms, Schema.IsStructName m.name) (derived : Schema.IsDerivedField ms f) (made : fieldOf m f = .ok t) :
    Definition.modelField? t = some f := by
  unfold fieldOf at made
  split at made
  · rename_i ty parsed
    cases made
    rw [modelField?_pubField, derived.renderType named parsed]
    have name : unraw (identifier f.name) = f.name := by
      rw [derived.name]
      exact unraw_identifier (isAsciiName_fieldForTag _)
    rw [name]
  · cases made

theorem filterMap_of_mapM {ms : List Model} {m : Model} {fs : List ModelField} {ts : Trees}
    (named : ∀ m ∈ ms, Schema.IsStructName m.name) (derived : ∀ f ∈ fs, Schema.IsDerivedField ms f)
    (made : fs.mapM (fieldOf m) = .ok ts) : ts.filterMap Definition.modelField? = fs := by
  have each := forall₂_of_mapM made
  clear made
  induction each with
  | nil => rfl
  | @cons f t fs ts first _ ih =>
    rw [List.filterMap_cons, modelField?_of_fieldOf named (derived f List.mem_cons_self) first,
      ih fun f mem => derived f (List.mem_cons_of_mem _ mem)]

end TypedFile

/-- The struct of a model, and what it reads as. -/
structure IsStructOf (m : Model) (t : Tree) : Prop where
  named : ∃ attrs fields, t = pubStruct attrs (identifier m.name) fields
  read : Definition.declaredModel? t = if m.fields = [] then none else some ⟨identifier m.name, m.fields, true⟩

theorem declaredModel?_pubStruct (attrs : Trees) (name : String) (fields : Trees) :
    Definition.declaredModel? (pubStruct attrs name fields) =
      if fields.filterMap Definition.modelField? = [] then none
      else some ⟨name, fields.filterMap Definition.modelField?, true⟩ := by
  have listed : (commaList fields).filterMap Definition.modelField? = fields.filterMap Definition.modelField? :=
    filterMap_commaList rfl fields
  unfold Definition.declaredModel? pubStruct word
  dsimp only
  rw [listed]
  split
  · rename_i none
    rw [if_pos none]
  · rename_i some
    rw [if_neg some]

theorem isStructOf_of_structOf {ms : List Model} {m : Model} {t : Tree} (named : ∀ m ∈ ms, Schema.IsStructName m.name)
    (derived : ∀ f ∈ m.fields, Schema.IsDerivedField ms f) (made : TypedFile.structOf m = .ok t) : IsStructOf m t := by
  obtain ⟨fields, each, rfl⟩ := structOf_eq_ok made
  refine ⟨⟨_, _, rfl⟩, ?_⟩
  rw [declaredModel?_pubStruct, TypedFile.filterMap_of_mapM named derived each]

theorem declaredModel?_eq_some {t : Tree} {m : Model} (h : Definition.declaredModel? t = some m) :
    m.declared = true ∧ isUse t = false ∧ t.fn? = none := by
  unfold Definition.declaredModel? at h
  split at h
  · split at h
    · cases h
    · cases h
      exact ⟨rfl, rfl, rfl⟩
  · cases h

theorem exists_of_isLast {entry : RegistryEntry} {m : Model} (last : Definition.IsLast (declaredModels entry) m) :
    ∃ t ∈ entry.items, Definition.declaredModel? t = some m := by
  obtain ⟨before, after, split, -⟩ := last
  have mem : m ∈ declaredModels entry := split ▸ List.mem_append_right _ List.mem_cons_self
  exact List.mem_filterMap.mp mem

theorem Schema.IsStructName.identifier_eq_iff {name : String} (named : Schema.IsStructName name) :
    identifier name = name ↔ IsAsciiName name.toList := by
  refine identifier_eq_self_iff (fun mem => ?_) fun key => ?_
  · exact absurd (named.word.chars '#' mem) (by decide)
  · have none : ∀ k ∈ keywords, ¬"Model".toList <:+ k.toList := by decide
    exact none name key named.ends

/-- The models of a schema: words name them, and their fields are derived. -/
structure AreDerived (ms : List Model) : Prop where
  derived : ∀ m ∈ ms, m.declared = false
  named : ∀ m ∈ ms, Schema.IsStructName m.name
  fields : ∀ m ∈ ms, ∀ f ∈ m.fields, Schema.IsDerivedField ms f

theorem areDerived_of_ofEntry {config : Config} {entry : RegistryEntry} {r : Resource}
    (read : Resource.ofEntry config entry = .ok r) :
    ∃ ms, AreDerived ms ∧ r.models.models = Definition.withDeclared ms (declaredModels entry) := by
  obtain ⟨schema, schemaRead⟩ := schemaRead_of_ofEntry read
  have top : Schema.IsStructName (r.name ++ "Model") :=
    Schema.isStructName_append (schemaRead.named ▸ Text.isWordy_upperCamel _)
  have kept : Schema.Keeps Schema.IsStructName (fun _ => True) :=
    fun _ tag k name _ => Schema.isStructName_candidate name tag k
  obtain ⟨own, added, -, -, derived, -⟩ := Schema.models_derived kept _ schema.fields top fun _ _ => trivial
  refine ⟨Schema.models (r.name ++ "Model") schema.fields,
    ⟨fun m mem => (derived m mem).derived, fun m mem => (derived m mem).named, fun m mem => ?_⟩, ?_⟩
  · obtain ⟨fs, fields⟩ := (derived m mem).fields
    exact Schema.isDerivedField_of_areFieldsOf fields
  · rw [schemaRead.models]
    rfl

section Models
variable {entry : RegistryEntry} {ms : List Model} {m : Model}

theorem mem_of_not_declared (mem : m ∈ Definition.withDeclared ms (declaredModels entry))
    (derived : m.declared = false) : m ∈ ms := by
  rcases Definition.mem_withDeclared.mp mem with last | ⟨mem, -⟩
  · obtain ⟨t, -, declared⟩ := exists_of_isLast last
    rw [(declaredModel?_eq_some declared).1] at derived
    cases derived
  · exact mem

theorem exists_of_declared (areDerived : AreDerived ms) (mem : m ∈ Definition.withDeclared ms (declaredModels entry))
    (declared : m.declared = true) : ∃ t ∈ entry.items, Definition.declaredModel? t = some m := by
  rcases Definition.mem_withDeclared.mp mem with last | ⟨mem, -⟩
  · exact exists_of_isLast last
  · rw [areDerived.derived m mem] at declared
    cases declared

end Models

/-- A file has the struct of a model: the one that is built for it, or the one that declares it. -/
def HasStruct (ts : Trees) (m : Model) : Prop :=
  ∃ t ∈ ts, if m.declared then Definition.declaredModel? t = some m else IsStructOf m t

/-- The struct that is built for a model reads back as the model with all its fields, under the identifier for its
name; that is its name exactly if the name is an ASCII identifier.  A field of such a model has a type of values, or
one that refers to a model by its name, whose struct is in the file. -/
theorem structs_read_back {config config' : Config} {entry : RegistryEntry} {r : Resource} {promoted : List String}
    {fs : List ResourceFn} {ts : Trees} (read : Resource.ofEntry config entry = .ok r)
    (built : TypedFile.items config' promoted { r with functions := fs } = .ok ts) :
    (∃ structs rest, ts = r.imports ++ structs ++ r.passthrough ++ rest ∧
      List.Forall₂ IsStructOf (r.models.models.filter fun m => !m.declared) structs) ∧
    (∀ m ∈ r.models.models, m.declared = false → (identifier m.name = m.name ↔ IsAsciiName m.name.toList)) ∧
    ∀ m ∈ r.models.models, m.declared = false → ∀ f ∈ m.fields, (∃ kind elem, f.ty = Schema.plainType kind elem) ∨
      ∃ kind, ∃ n ∈ r.models.models, f.ty = Schema.blockType kind n.name ∧ HasStruct ts n := by
  obtain ⟨ms, areDerived, models⟩ := areDerived_of_ofEntry read
  obtain ⟨lit, crud, analysed⟩ := analysed_of_ofEntry read
  obtain ⟨sdk, structs, main, further, methods, assembled⟩ := assembled_of_items built
  have inSchema : ∀ m ∈ r.models.models, m.declared = false → m ∈ ms :=
    fun m mem => mem_of_not_declared (models ▸ mem)
  have each : List.Forall₂ IsStructOf (r.models.models.filter fun m => !m.declared) structs := by
    have known : ∀ m ∈ r.models.models.filter (fun m => !m.declared), m ∈ ms := fun m mem => by
      obtain ⟨mem, derived⟩ := List.mem_filter.mp mem
      exact inSchema m mem ((Bool.not_eq_true' _).mp derived)
    exact ((List.forall₂_and_left _ _).mpr ⟨known, assembled.ofStructs⟩).imp fun m t ⟨mem, made⟩ =>
      isStructOf_of_structOf areDerived.named (areDerived.fields m mem) made
  obtain ⟨rest, items⟩ : ∃ rest, ts = r.imports ++ structs ++ r.passthrough ++ rest :=
    ⟨_, assembled.items.trans (by rw [List.append_assoc, List.append_assoc])⟩
  have hasStruct : ∀ n ∈ r.models.models, HasStruct ts n := by
    intro n mem
    by_cases declared : n.declared = true
    · obtain ⟨t, inside, isDeclared⟩ := exists_of_declared areDerived (models ▸ mem) declared
      obtain ⟨-, noUse, noFn⟩ := declaredModel?_eq_some isDeclared
      have passed : t ∈ r.passthrough := by
        rw [analysed.passthrough, List.mem_filter, noUse, noFn]
        exact ⟨inside, rfl⟩
      refine ⟨t, ?_, by rw [if_pos declared, isDeclared]⟩
      rw [items]
      exact List.mem_append_left _ (List.mem_append_right _ passed)
    · have derived : n ∈ r.models.models.filter fun m => !m.declared :=
        List.mem_filter.mpr ⟨mem, by rw [Bool.eq_false_iff.mpr declared]; rfl⟩
      obtain ⟨t, inside, isStruct⟩ := exists_of_forall₂_right each.flip derived
      refine ⟨t, ?_, by rw [if_neg declared]; exact isStruct⟩
      rw [items]
      exact List.mem_append_left _ (List.mem_append_left _ (List.mem_append_right _ inside))
  refine ⟨⟨structs, rest, items, each⟩, fun m mem derived => ?_, fun m mem derived f inside => ?_⟩
  · exact (areDerived.named m (inSchema m mem derived)).identifier_eq_iff
  · rcases (areDerived.fields m (inSchema m mem derived) f inside).ty with value | ⟨kind, n, known, ty⟩
    · exact .inl value
    · obtain ⟨n', mem', same⟩ := Definition.exists_mem_withDeclared known (declaredModels entry)
      rw [← models] at mem'
      exact .inr ⟨kind, n', mem', by rw [same, ty], hasStruct n' mem'⟩

def sizeBlock : Tree :=
  structLitOf (pathOf "Schema") [("type_", exprOf (pathOfNames ["ValueType", "List"])),
    ("elem", structLitOf (pathOf "Resource") [("schema", arrayOf [tupleOf [stringExpr "size",
      structLitOf (pathOf "Schema") [("type_", exprOf (pathOfNames ["ValueType", "String"]))]]])])]

/-- The tag of the block holds letters beyond ASCII. -/
def wideEntry : RegistryEntry :=
  ⟨"tag", "tag", "tag.rs",
    [definitionFn "tag" [("create", var "add"), ("read", var "show"), ("delete", var "drop"),
        ("schema", arrayOf [tupleOf [stringExpr "größe", sizeBlock]])],
      plainFn "add" Tree.absent [], plainFn "show" Tree.absent [], plainFn "drop" Tree.absent []]⟩

def wideModels : List Model :=
  [⟨"TagModel", [⟨"gr__e", "Vec<GrößeModel>", "größe"⟩], false⟩, ⟨"GrößeModel", [⟨"size", "String", "size"⟩], false⟩]

theorem structs_of_wideEntry : ∃ r ts, Resource.ofEntry {} wideEntry = .ok r ∧ TypedFile.items {} [] r = .ok ts ∧
    r.models.models = wideModels ∧ (∃ structs, structs ⊆ ts ∧ List.Forall₂ IsStructOf wideModels structs) ∧
    identifier "GrößeModel" ≠ "GrößeModel" := by
  have known : ((Resource.ofEntry {} wideEntry).toOption.any fun r =>
      r.models.models == wideModels && (TypedFile.items {} [] r).toOption.isSome) = true := by decide +kernel
  obtain ⟨r, read, known⟩ := (Option.any_eq_true _ _).mp known
  obtain ⟨models, built⟩ := Bool.and_eq_true_iff.mp known
  obtain ⟨ts, built⟩ := Option.isSome_iff_exists.mp built
  have read := toOption_eq_some.mp read
  have built : TypedFile.items {} [] { r with functions := r.functions } = .ok ts := toOption_eq_some.mp built
  have models : r.models.models = wideModels := beq_iff_eq.mp models
  obtain ⟨⟨structs, rest, items, each⟩, names, -⟩ := structs_read_back read built
  have derived : wideModels.filter (fun m => !m.declared) = wideModels := rfl
  rw [models] at each names
  rw [derived] at each
  refine ⟨r, ts, read, built, models, ⟨structs, ?_, each⟩, ?_⟩
  · rw [items]
    intro t mem
    exact List.mem_append_left _ (List.mem_append_left _ (List.mem_append_right _ mem))
  · have wide := names ⟨"GrößeModel", [⟨"size", "String", "size"⟩], false⟩ (List.mem_cons_of_mem _ List.mem_cons_self) rfl
    rw [ne_eq, wide]
    decide

end Retype
