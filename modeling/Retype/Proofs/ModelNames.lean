import Retype.Proofs.SchemaModels
import Retype.Proofs.BareCalls

/-! The names of the models of a resource.  Models that are declared in the source take the places of derived ones, so
names stay distinct and the name of the top model stays in use. -/

namespace Retype
open Retype.Code

namespace Definition

/-- The last of the models with its name. -/
def IsLast (declared : List Model) (m : Model) : Prop :=
  ∃ before after, declared = before ++ m :: after ∧ m.name ∉ after.map (·.name)

theorem not_isLast_nil (m : Model) : ¬ IsLast [] m := by
  rintro ⟨before, after, split, -⟩
  exact List.append_ne_nil_of_right_ne_nil before (List.cons_ne_nil m after) split.symm

theorem isLast_cons {d m : Model} {ds : List Model} :
    IsLast (d :: ds) m ↔ m = d ∧ m.name ∉ ds.map (·.name) ∨ IsLast ds m := by
  constructor
  · rintro ⟨before, after, split, last⟩
    cases before with
    | nil =>
      cases split
      exact .inl ⟨rfl, last⟩
    | cons b before =>
      cases split
      exact .inr ⟨before, after, rfl, last⟩
  · rintro (⟨rfl, last⟩ | ⟨before, after, rfl, last⟩)
    · exact ⟨[], ds, rfl, last⟩
    · exact ⟨d :: before, after, rfl, last⟩

theorem withDeclared_cons (models : List Model) (d : Model) (ds : List Model) :
    withDeclared models (d :: ds) = withDeclared (models.filter (·.name != d.name) ++ [d]) ds := rfl

theorem mem_withDeclared {models declared : List Model} {m : Model} :
    m ∈ withDeclared models declared ↔ IsLast declared m ∨ m ∈ models ∧ m.name ∉ declared.map (·.name) := by
  induction declared generalizing models with
  | nil => simp [withDeclared, not_isLast_nil]
  | cons d ds ih =>
    rw [withDeclared_cons, ih, isLast_cons, List.mem_append, List.mem_filter, List.mem_singleton, bne_iff_ne,
      List.map_cons, List.mem_cons, not_or]
    constructor
    · rintro (last | ⟨⟨derived, other⟩ | rfl, free⟩)
      · exact .inl (.inr last)
      · exact .inr ⟨derived, other, free⟩
      · exact .inl (.inl ⟨rfl, free⟩)
    · rintro ((⟨rfl, free⟩ | last) | ⟨derived, other, free⟩)
      · exact .inr ⟨.inr rfl, free⟩
      · exact .inl last
      · exact .inr ⟨.inl ⟨derived, other⟩, free⟩

theorem nodup_withDeclared {models : List Model} (nodup : (models.map (·.name)).Nodup) (declared : List Model) :
    ((withDeclared models declared).map (·.name)).Nodup := by
  induction declared generalizing models with
  | nil => exact nodup
  | cons d ds ih =>
    rw [withDeclared_cons]
    refine ih (Schema.nodup_concat (nodup.sublist (List.filter_sublist.map _)) fun mem => ?_)
    obtain ⟨m, kept, same⟩ := List.mem_map.mp mem
    exact bne_iff_ne.mp (List.mem_filter.mp kept).2 same

theorem exists_isLast {declared : List Model} {name : String} (mem : name ∈ declared.map (·.name)) :
    ∃ m, IsLast declared m ∧ m.name = name := by
  induction declared with
  | nil => cases mem
  | cons d ds ih =>
    by_cases later : name ∈ ds.map (·.name)
    · obtain ⟨m, last, same⟩ := ih later
      exact ⟨m, isLast_cons.mpr (.inr last), same⟩
    · rw [List.map_cons, List.mem_cons] at mem
      obtain rfl := mem.resolve_right later
      exact ⟨d, isLast_cons.mpr (.inl ⟨rfl, later⟩), rfl⟩

theorem exists_mem_withDeclared {models : List Model} {m : Model} (mem : m ∈ models) (declared : List Model) :
    ∃ m' ∈ withDeclared models declared, m'.name = m.name := by
  by_cases replaced : m.name ∈ declared.map (·.name)
  · obtain ⟨m', last, same⟩ := exists_isLast replaced
    exact ⟨m', mem_withDeclared.mpr (.inl last), same⟩
  · exact ⟨m, mem_withDeclared.mpr (.inr ⟨mem, replaced⟩), rfl⟩

end Definition

namespace TypedFile

/-- Whatever goes wrong, it is not the top model that is missing. -/
def FindsTop {α : Type} (b : Build α) : Prop := ∀ resource model, b ≠ .error (.noTopModel resource model)

theorem FindsTop.ok {α : Type} (a : α) : FindsTop (.ok a : Build α) := by
  rintro _ _ ⟨⟩

theorem FindsTop.bind {α β : Type} {b : Build α} {f : α → Build β} (first : FindsTop b) (later : ∀ a, FindsTop (f a)) :
    FindsTop (b >>= f) := by
  intro resource model failed
  rcases bind_eq_error.mp failed with failed | ⟨a, -, failed⟩
  · exact first resource model failed
  · exact later a resource model failed

theorem FindsTop.mapM {α β : Type} {f : α → Build β} {xs : List α} (each : ∀ x ∈ xs, FindsTop (f x)) :
    FindsTop (xs.mapM f) := by
  induction xs with
  | nil => exact .ok []
  | cons x xs ih =>
    rw [List.mapM_cons]
    refine (each x List.mem_cons_self).bind fun y => ?_
    exact (ih fun x mem => each x (List.mem_cons_of_mem _ mem)).bind fun ys => .ok _

theorem findsTop_checked (item : Tree) : FindsTop (checked item) := by
  unfold checked
  split <;> rintro _ _ ⟨⟩

theorem findsTop_structOf (m : Model) : FindsTop (structOf m) := by
  refine .bind (.mapM fun f _ => ?_) fun fields => ?_
  · unfold fieldOf
    split <;> rintro _ _ ⟨⟩
  · split
    · rintro _ _ ⟨⟩
    · exact findsTop_checked _

theorem findsTop_crudMethodNamed (s : Setting) (name : String) : FindsTop (crudMethodNamed s name) := by
  unfold crudMethodNamed
  split
  · unfold crudMethod
    split <;> rintro _ _ ⟨⟩
  · rintro _ _ ⟨⟩

theorem findsTop_furtherImpls (s : Setting) : FindsTop (furtherImpls s) := by
  refine .bind (.mapM fun name _ => ?_) fun update => .bind (.mapM fun impl mem => ?_) fun upgrade => .ok _
  · exact (findsTop_crudMethodNamed s name).bind fun method => findsTop_checked _
  · split at mem
    · rw [List.mem_singleton.mp mem]
      exact findsTop_checked _
    · cases mem

theorem findsTop_helperImpl (s : Setting) (helpers : List ResourceFn) : FindsTop (helperImpl s helpers) := by
  unfold helperImpl
  split
  · rintro _ _ ⟨⟩
  · exact findsTop_checked _

theorem items_eq_noTopModel {config : Config} {promoted : List String} {r : Resource} {resource model : String} :
    items config promoted r = .error (.noTopModel resource model) ↔
      r.models.topModel = none ∧ resource = r.type ∧ model = r.modelName := by
  unfold items
  constructor
  · intro failed
    split at failed
    · rename_i none
      cases failed
      exact ⟨Option.isNone_iff_eq_none.mp none, rfl, rfl⟩
    · refine (?_ : FindsTop _) resource model failed |>.elim
      refine .bind ?_ fun sdk => .bind (.mapM fun m _ => findsTop_structOf m) fun structs => .bind ?_ fun main =>
        .bind (findsTop_furtherImpls _) fun further => .bind (.mapM fun impl mem => ?_) fun methods => .ok _
      · unfold sdkPath
        split <;> rintro _ _ ⟨⟩
      · exact .bind (.mapM fun name _ => findsTop_crudMethodNamed _ name) fun crud => findsTop_checked _
      · split at mem
        · cases mem
        · rw [List.mem_singleton.mp mem]
          exact findsTop_helperImpl _ _
  · rintro ⟨none, rfl, rfl⟩
    rw [none]
    rfl

end TypedFile

/-- The models that the file of a definition declares. -/
def declaredModels (entry : RegistryEntry) : List Model := entry.items.filterMap Definition.declaredModel?

theorem Schema.nodup_models (top : String) (fields : List SchemaField) :
    ((Schema.models top fields).map (·.name)).Nodup := by
  have kept : Schema.Keeps (fun _ => True) (fun _ => True) := fun _ _ _ _ _ => trivial
  obtain ⟨own, added, -, nodup, -⟩ := Schema.models_derived kept top fields trivial fun _ _ => trivial
  exact nodup

theorem Schema.top_mem_models (top : String) (fields : List SchemaField) :
    ∃ own, (⟨top, own, false⟩ : Model) ∈ Schema.models top fields := by
  have kept : Schema.Keeps (fun _ => True) (fun _ => True) := fun _ _ _ _ _ => trivial
  obtain ⟨own, added, all, -⟩ := Schema.models_derived kept top fields trivial fun _ _ => trivial
  exact ⟨own, all ▸ List.mem_cons_self⟩

/-- The models of a resource that is read have names of their own, and one of them is the top model, so no typed file
is missing it.  A model that the file declares, the last of its name, is among them, and those of the schema are whose
names no declared model has; the model of a block has the first free one of its names. -/
theorem models_of_entry {config : Config} {entry : RegistryEntry} {r : Resource}
    (read : Resource.ofEntry config entry = .ok r) :
    (r.models.models.map (·.name)).Nodup ∧
    r.modelName = r.name ++ "Model" ∧
    (r.models.models.map (·.name)).count r.modelName = 1 ∧
    (∃ m, r.models.topModel = some m ∧ m.name = r.modelName) ∧
    (∀ (config' : Config) (promoted : List String) (r' : Resource), r'.models = r.models →
      ∀ resource model, TypedFile.items config' promoted r' ≠ .error (.noTopModel resource model)) ∧
    (∃ schema, (Resource.definitionOf config entry).bind (Resource.schemaOf config) = some schema ∧
      ∀ m, m ∈ r.models.models ↔ Definition.IsLast (declaredModels entry) m ∨
        m ∈ Schema.models r.modelName schema.fields ∧ m.name ∉ (declaredModels entry).map (·.name)) ∧
    (∀ top fields, ((Schema.models top fields).map (·.name)).Nodup) ∧
    ∀ models parent tag, ∃ k, Schema.nestedName models parent tag = Schema.candidate parent tag k ∧
      Schema.candidate parent tag k ∉ models.map (·.name) ∧
      ∀ j < k, Schema.candidate parent tag j ∈ models.map (·.name) := by
  obtain ⟨schema, schemaRead⟩ := schemaRead_of_ofEntry read
  have models : r.models.models = Definition.withDeclared (Schema.models r.modelName schema.fields)
      (declaredModels entry) := by
    rw [Resource.modelName, schemaRead.models]
    rfl
  have nodup : (r.models.models.map (·.name)).Nodup :=
    models ▸ Definition.nodup_withDeclared (Schema.nodup_models _ _) _
  obtain ⟨own, topDerived⟩ := Schema.top_mem_models r.modelName schema.fields
  obtain ⟨m, mem, isTop⟩ := Definition.exists_mem_withDeclared topDerived (declaredModels entry)
  rw [← models] at mem
  have isTop : m.name = r.modelName := isTop
  have inUse : r.modelName ∈ r.models.models.map (·.name) := isTop ▸ List.mem_map_of_mem mem
  have found : r.models.topModel = some m := by
    have found := Schema.get_of_mem nodup mem
    rwa [isTop] at found
  refine ⟨nodup, ?_, ?_, ⟨m, found, isTop⟩, ?_, ⟨schema, schemaRead.read, fun m => ?_⟩, Schema.nodup_models,
    Schema.nestedName_eq_candidate⟩
  · rw [Resource.modelName, schemaRead.models]
  · exact List.count_eq_one_of_mem nodup inUse
  · intro config' promoted r' same resource model failed
    have missing := (TypedFile.items_eq_noTopModel.mp failed).1
    rw [same, found] at missing
    cases missing
  · rw [models, Definition.mem_withDeclared]

/-- A block of values without a schema of its own. -/
def emptyBlock : Tree :=
  structLitOf (pathOf "Schema") [("type_", exprOf (pathOfNames ["ValueType", "List"])),
    ("elem", structLitOf (pathOf "Resource") [("schema", arrayOf [])])]

/-- Three blocks of one tag, and a model that has the second name for it. -/
def skuEntry : RegistryEntry :=
  ⟨"tag", "tag", "tag.rs",
    [definitionFn "tag" [("create", var "add"), ("read", var "show"), ("delete", var "drop"),
        ("schema", arrayOf (List.replicate 3 (tupleOf [stringExpr "sku", emptyBlock])))],
      plainFn "add" Tree.absent [], plainFn "show" Tree.absent [], plainFn "drop" Tree.absent [],
      pubStruct [] "TagSkuModel" [pubField [attrOf "tfschema" [lit (Text.stringLiteral "size")]] "size" (typeOf "String")]]⟩

theorem models_of_skuEntry : ∃ r, Resource.ofEntry {} skuEntry = .ok r ∧
    r.models.models.map (·.name) = ["TagModel", "SkuModel", "TagSku2Model", "TagSkuModel"] ∧
    (∃ m, r.models.topModel = some m ∧ m.name = "TagModel") ∧
    Definition.IsLast (declaredModels skuEntry) ⟨"TagSkuModel", [⟨"size", "String", "size"⟩], true⟩ ∧
    (⟨"TagSkuModel", [⟨"size", "String", "size"⟩], true⟩ : Model) ∈ r.models.models := by
  have known : ((Resource.ofEntry {} skuEntry).toOption.any fun r =>
      r.models.models.map (·.name) == ["TagModel", "SkuModel", "TagSku2Model", "TagSkuModel"] &&
        r.modelName == "TagModel") = true := by
    decide +kernel
  obtain ⟨r, read, known⟩ := (Option.any_eq_true _ _).mp known
  obtain ⟨names, top⟩ := Bool.and_eq_true_iff.mp known
  have read := toOption_eq_some.mp read
  have last : Definition.IsLast (declaredModels skuEntry) ⟨"TagSkuModel", [⟨"size", "String", "size"⟩], true⟩ :=
    ⟨[], [], by decide +kernel, List.not_mem_nil⟩
  obtain ⟨-, -, -, ⟨m, found, isTop⟩, -, ⟨schema, -, members⟩, -⟩ := models_of_entry read
  exact ⟨r, read, beq_iff_eq.mp names, ⟨m, found, isTop.trans (beq_iff_eq.mp top)⟩, last, (members _).mpr (.inl last)⟩

end Retype
