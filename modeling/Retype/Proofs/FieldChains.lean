import Retype.Proofs.Identifiers
import Retype.Proofs.Lookups
import Retype.Proofs.TagPaths
import Retype.Rewrite.Context

/-! Fields of the model in code.  A read of state becomes a chain of fields, and the promotion of helpers reads such
chains again.  Both find the same fields, the first by their tags and the second by their names; a chain with an index
is read as no chain of fields. -/

namespace Retype

namespace ModelSet

/-- Fields one below another: each is a field of the model that the one before refers to. -/
inductive Nested (s : ModelSet) : Model → List ModelField → Prop
  | last {m : Model} {f : ModelField} (own : f ∈ m.fields) : Nested s m [f]
  | deeper {m n : Model} {f : ModelField} {fs : List ModelField} (own : f ∈ m.fields) (refers : s.below f = some n)
      (later : Nested s n fs) : Nested s m (f :: fs)

section Nested
variable {s : ModelSet} {m n : Model} {f : ModelField} {fs : List ModelField}

theorem mem_of_below (refers : s.below f = some n) : n ∈ s.models := by
  obtain ⟨name, -, got⟩ := Option.bind_eq_some_iff.mp refers
  exact List.mem_of_find?_eq_some got

theorem Nested.of_mem (h : s.Nested m fs) (member : m ∈ s.models) (mem : f ∈ fs) : ∃ m ∈ s.models, f ∈ m.fields := by
  induction h with
  | last own =>
    obtain rfl := List.mem_singleton.mp mem
    exact ⟨_, member, own⟩
  | deeper own refers later ih =>
    rcases List.mem_cons.mp mem with rfl | mem
    · exact ⟨_, member, own⟩
    · exact ih (mem_of_below refers) mem

theorem Nested.ne_nil (h : s.Nested m fs) : fs ≠ [] := by
  cases h <;> exact List.cons_ne_nil _ _

theorem nested_of_steps {segments : List String} {steps : List PathStep}
    (resolved : s.steps (some m) segments = some steps) (noIndex : ∀ i, .index i ∉ steps) :
    ∃ fs, steps = fs.map .field ∧ s.Nested m fs := by
  induction segments generalizing m steps with
  | nil => cases resolved
  | cons segment rest ih =>
    cases found : m.fieldByTag segment with
    | none =>
      rw [Schema.steps_missing rest found] at resolved
      cases resolved
    | some f =>
      have own : f ∈ m.fields := List.mem_of_find?_eq_some found
      by_cases spent : isSpent rest = true
      · rw [Schema.steps_spent found spent] at resolved
        cases resolved
        exact ⟨[f], rfl, .last own⟩
      rw [Bool.not_eq_true] at spent
      cases rest with
      | nil => cases spent
      | cons second rest =>
        cases number : index? second with
        | some i =>
          -- The second step is the index, whatever comes after it.
          have indexed : .index i ∈ steps := by
            rw [Schema.steps_index found spent number] at resolved
            split at resolved
            · split at resolved
              · cases resolved
                exact List.mem_cons_of_mem _ List.mem_cons_self
              · obtain ⟨later, -, rfl⟩ := Option.map_eq_some_iff.mp resolved
                exact List.mem_cons_of_mem _ List.mem_cons_self
            · cases resolved
          exact (noIndex i indexed).elim
        | none =>
          rw [Schema.steps_below found spent number, ← below] at resolved
          obtain ⟨later, went, rfl⟩ := Option.map_eq_some_iff.mp resolved
          cases refers : s.below f with
          | none =>
            rw [refers, Schema.steps_none] at went
            cases went
          | some n =>
            rw [refers] at went
            obtain ⟨fs, rfl, nested⟩ := ih went fun i mem => noIndex i (List.mem_cons_of_mem _ mem)
            exact ⟨f :: fs, rfl, .deeper own refers nested⟩

theorem descend_cons (name : String) (rest : List String) :
    s.descend f (name :: rest) = ((s.below f).bind (·.fieldByName name)).bind fun g => s.descend g rest := by
  rw [descend, below]
  cases Naming.elementModel f.ty with
  | none => rfl
  | some next =>
    rw [Option.bind_some]
    show ((s.get next).bind fun m => (m.fieldByName name).bind fun g => s.descend g rest) = _
    rw [Option.bind_assoc]

theorem Nested.fieldByName_descend (distinct : ∀ m ∈ s.models, (m.fields.map (·.name)).Nodup) (h : s.Nested m fs)
    (member : m ∈ s.models) : ∃ f rest, fs = f :: rest ∧ m.fieldByName f.name = some f ∧
      s.descend f (rest.map (·.name)) = fs.getLast? := by
  induction h with
  | last own => exact ⟨_, [], rfl, find?_key_of_mem (distinct _ member) own, rfl⟩
  | deeper own refers later ih =>
    obtain ⟨g, rest, rfl, found, ended⟩ := ih (mem_of_below refers)
    refine ⟨_, g :: rest, rfl, find?_key_of_mem (distinct _ member) own, ?_⟩
    rw [List.map_cons, descend_cons, refers, Option.bind_some, found, Option.bind_some, ended]
    rfl

theorem Nested.fieldByPath_eq (distinct : ∀ m ∈ s.models, (m.fields.map (·.name)).Nodup) (h : s.Nested m fs)
    (top : s.topModel = some m) : s.fieldByPath (fs.map (·.name)) = fs.getLast? := by
  obtain ⟨f, rest, rfl, found, ended⟩ := h.fieldByName_descend distinct (List.mem_of_find?_eq_some top)
  rw [List.map_cons, fieldByPath, topField, top, Option.bind_some, found, Option.bind_some, ended]

theorem filterMap_field? (fs : List ModelField) : (fs.map PathStep.field).filterMap PathStep.field? = fs := by
  rw [List.filterMap_map]
  exact List.filterMap_some

theorem nested_of_resolveTag {tag : String} {steps : List PathStep} (resolved : s.resolveTag "" tag = some steps)
    (noIndex : ∀ i, .index i ∉ steps) : ∃ m fs, s.topModel = some m ∧ steps = fs.map .field ∧ s.Nested m fs ∧
      s.findByTag "" tag = fs.getLast? := by
  have went : s.steps s.topModel (segmentsOf tag) = some steps := resolved
  cases top : s.topModel with
  | none =>
    rw [top, Schema.steps_none] at went
    cases went
  | some m =>
    rw [top] at went
    obtain ⟨fs, rfl, nested⟩ := nested_of_steps went noIndex
    refine ⟨m, fs, rfl, rfl, nested, ?_⟩
    rw [findByTag, resolved, Option.bind_some, ← List.head?_filterMap, List.filterMap_reverse, filterMap_field?,
      List.head?_reverse]

end Nested
end ModelSet

namespace Rewrite
open Retype.Code Retype.Naming
open Retype.Code.Lexer (IsAsciiName)

/-- The name of a field as a model has it, without the mark of raw identifiers: an ASCII identifier, which may be a
keyword that can be raw. -/
def IsFieldName (name : String) : Prop := IsAsciiName name.toList ∧ name ∉ "_" :: scopeWords

/-- The name of a variable: an ASCII identifier that is no keyword. -/
def IsVariable (name : String) : Prop := IsFieldName name ∧ name ∉ keywords

instance (name : String) : Decidable (IsFieldName name) := inferInstanceAs (Decidable (_ ∧ _))

instance (name : String) : Decidable (IsVariable name) := inferInstanceAs (Decidable (_ ∧ _))

theorem IsVariable.identifier_eq {v : String} (plain : IsVariable v) : identifier v = v :=
  (identifier_eq_self_iff (not_mem_of_isAsciiName plain.1.1) plain.2).mpr plain.1.1

theorem chainFrom_var (v : String) : chainFrom v (var v) = some [] := by
  have same : (var v).isVar v = true := beq_self_eq_true (some v)
  exact if_pos same

theorem chainFrom_stepAccess {v : String} {base : Tree} {f : ModelField} (named : IsFieldName f.name) :
    chainFrom v (stepAccess base (.field f)) = (chainFrom v base).map (· ++ [f.name]) := by
  have chained : chainFrom v (stepAccess base (.field f)) =
      (chainFrom v base).map (· ++ [unraw (identifier f.name)]) := by
    rw [stepAccess, fieldAccess, word, chainFrom]
  rw [chained, unraw_identifier named.1]

theorem chainFrom_foldl {v : String} {fs : List ModelField} (named : ∀ f ∈ fs, IsFieldName f.name) (base : Tree) :
    chainFrom v ((fs.map PathStep.field).foldl stepAccess base) =
      (chainFrom v base).map (· ++ fs.map (·.name)) := by
  induction fs generalizing base with
  | nil => simp only [List.map_nil, List.foldl_nil, List.append_nil, Option.map_id']
  | cons f fs ih =>
    obtain ⟨own, named⟩ := List.forall_mem_cons.mp named
    rw [List.map_cons, List.foldl_cons, ih named, chainFrom_stepAccess own, Option.map_map]
    congr 1
    funext names
    exact List.append_assoc _ _ _

theorem chainFrom_foldl_none {v : String} {base : Tree} (none : chainFrom v base = none) (steps : List PathStep) :
    chainFrom v (steps.foldl stepAccess base) = Option.none := by
  induction steps generalizing base with
  | nil => exact none
  | cons step steps ih =>
    refine ih ?_
    cases step with
    | field f => rw [stepAccess, fieldAccess, word, chainFrom, none, Option.map_none]
    | index i => rfl

/-- The names of the fields among steps. -/
def fieldNames (steps : List PathStep) : List String := (steps.filterMap PathStep.field?).map (·.name)

/-- The fields that a tag resolves to are read off the code that accesses them, and their names lead to the field that
the tag names; of code with an index nothing is read. -/
theorem accesses_read_back (s : ModelSet)
    (named : ∀ m ∈ s.models, (m.fields.map (·.name)).Nodup ∧ ∀ f ∈ m.fields, IsFieldName f.name) {v : String}
    (plain : IsVariable v) {tag : String} {steps : List PathStep} (resolved : s.resolveTag "" tag = some steps) :
    ((∀ i, .index i ∉ steps) → fieldChain v (modelAccess v steps) = some (fieldNames steps) ∧
      ∃ f, s.findByTag "" tag = some f ∧ s.fieldByPath (fieldNames steps) = some f) ∧
    ((∃ i, .index i ∈ steps) → fieldChain v (modelAccess v steps) = none) := by
  constructor
  · intro noIndex
    obtain ⟨m, fs, top, rfl, nested, ended⟩ := ModelSet.nested_of_resolveTag resolved noIndex
    have member : m ∈ s.models := List.mem_of_find?_eq_some top
    have names : fieldNames (fs.map .field) = fs.map (·.name) := by rw [fieldNames, ModelSet.filterMap_field?]
    have chained : chainFrom v (modelAccess v (fs.map .field)) = some (fs.map (·.name)) := by
      rw [modelAccess, chainFrom_foldl (fun f mem => ?_), varExpr, plain.identifier_eq, chainFrom_var, Option.map_some,
        List.nil_append]
      obtain ⟨m, member, own⟩ := nested.of_mem member mem
      exact (named m member).2 f own
    have found := nested.fieldByPath_eq (fun m member => (named m member).1) top
    obtain ⟨f, last⟩ : ∃ f, fs.getLast? = some f := ⟨_, List.getLast?_eq_some_getLast nested.ne_nil⟩
    refine ⟨?_, f, ended.trans last, ?_⟩
    · rw [fieldChain, chained, names, Option.filter_some, if_pos]
      rw [Bool.not_eq_true', List.isEmpty_eq_false_iff]
      exact List.map_eq_nil_iff.not.mpr nested.ne_nil
    · rw [names, found, last]
  · rintro ⟨i, mem⟩
    obtain ⟨front, back, rfl⟩ := List.append_of_mem mem
    rw [fieldChain, modelAccess, List.foldl_append, List.foldl_cons, chainFrom_foldl_none rfl, Option.filter_none]

/-- A model with a block and a list of blocks, which have a field named by a keyword. -/
def patchModels : ModelSet where
  top := "CacheModel"
  models :=
    [⟨"CacheModel", [⟨"patch", "PatchModel", "patch_schedule"⟩, ⟨"slots", "Vec<PatchModel>", "slots"⟩], false⟩,
      ⟨"PatchModel", [⟨"type", "String", "kind"⟩], false⟩]

theorem accesses_read_back_patch :
    (∀ m ∈ patchModels.models, (m.fields.map (·.name)).Nodup ∧ ∀ f ∈ m.fields, IsFieldName f.name) ∧
    IsVariable "model" ∧ fieldChain "model"
        (modelAccess "model" [.field ⟨"patch", "PatchModel", "patch_schedule"⟩, .field ⟨"type", "String", "kind"⟩]) =
      some ["patch", "type"] ∧
    patchModels.findByTag "" "patch_schedule.kind" = some ⟨"type", "String", "kind"⟩ ∧
    patchModels.fieldByPath ["patch", "type"] = some ⟨"type", "String", "kind"⟩ ∧
    fieldChain "model" (modelAccess "model"
      [.field ⟨"slots", "Vec<PatchModel>", "slots"⟩, .index 3, .field ⟨"type", "String", "kind"⟩]) = none := by
  have typeName : IsTypeName "PatchModel" := ⟨by decide, by decide⟩
  have type : "Vec<PatchModel>" = "Vec<" ++ "PatchModel" ++ ">" := by decide
  have row : isSequence "Vec<PatchModel>" = true := by rw [type, vec_isSequence typeName]
  have inner : (elementModel "PatchModel").bind patchModels.get = some patchModels.models[1] := by
    rw [name_elementModel typeName]
    rfl
  have innerRow : (elementModel "Vec<PatchModel>").bind patchModels.get = some patchModels.models[1] := by
    rw [type, vec_elementModel typeName]
    rfl
  have patch : patchModels.models[0].fieldByTag "patch_schedule" = some ⟨"patch", "PatchModel", "patch_schedule"⟩ := rfl
  have slots : patchModels.models[0].fieldByTag "slots" = some ⟨"slots", "Vec<PatchModel>", "slots"⟩ := rfl
  have kind : patchModels.models[1].fieldByTag "kind" = some ⟨"type", "String", "kind"⟩ := rfl
  have three : ModelSet.index? "3" = some 3 := Schema.index?_toString (i := 3) (by decide)
  have straight : patchModels.resolveTag "" "patch_schedule.kind" =
      some [.field ⟨"patch", "PatchModel", "patch_schedule"⟩, .field ⟨"type", "String", "kind"⟩] := by
    have segments : ModelSet.segmentsOf "patch_schedule.kind" = ["patch_schedule", "kind"] := by decide
    have went := Schema.steps_below (s := patchModels) patch (show ModelSet.isSpent ["kind"] = false from rfl) (by decide)
    rw [inner, Schema.steps_spent kind rfl] at went
    rw [ModelSet.resolveTag, segments]
    exact went
  have indexed : patchModels.resolveTag "" "slots.3.kind" =
      some [.field ⟨"slots", "Vec<PatchModel>", "slots"⟩, .index 3, .field ⟨"type", "String", "kind"⟩] := by
    have segments : ModelSet.segmentsOf "slots.3.kind" = ["slots", "3", "kind"] := by decide
    have went := Schema.steps_index (s := patchModels) slots (show ModelSet.isSpent ["3", "kind"] = false from rfl) three
    rw [innerRow, Schema.steps_spent kind rfl, if_pos row] at went
    rw [ModelSet.resolveTag, segments]
    exact went
  have named : ∀ m ∈ patchModels.models, (m.fields.map (·.name)).Nodup ∧ ∀ f ∈ m.fields, IsFieldName f.name := by
    decide
  have plain : IsVariable "model" := by decide
  have tagged : patchModels.findByTag "" "patch_schedule.kind" = some ⟨"type", "String", "kind"⟩ := by
    rw [ModelSet.findByTag, straight]
    rfl
  obtain ⟨chain, f, found, path⟩ := (accesses_read_back patchModels named plain straight).1 (by simp)
  obtain rfl : _ = f := Option.some.inj (tagged.symm.trans found)
  exact ⟨named, plain, chain, tagged, path, (accesses_read_back patchModels named plain indexed).2 ⟨3, by decide⟩⟩

end Rewrite
end Retype
