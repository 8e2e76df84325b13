import Retype.Proofs.SchemaModels

/-! Walks through a schema.  They go down through the blocks, with an index after a sequence or without, and a tag
spells one of them segment by segment. -/

namespace Retype.Schema
open Retype.Code Retype.Code.Lexer Retype.Text Retype.Naming

/-- The attributes of the blocks that an attribute holds, unless it maps texts to them. -/
def nested? : SchemaField → Option (List SchemaField)
  | .plain _ _ => none
  | .block info nested => if info.kind = .map then none else some nested

/-- The attribute holds several values or blocks in a row. -/
def isSequenceField : SchemaField → Bool
  | .plain info _ => info.kind.isSequence
  | .block info _ => info.kind != .map

inductive SchemaStep
  | field (f : SchemaField)
  | index (i : Nat)

/-- A walk from a block down through blocks, with an index after a sequence or without. -/
inductive Walk : List SchemaField → List SchemaStep → Prop
  | last {fields : List SchemaField} {f : SchemaField} (mem : f ∈ fields) : Walk fields [.field f]
  | lastIndex {fields : List SchemaField} {f : SchemaField} {i : Nat} (mem : f ∈ fields) (row : isSequenceField f = true) :
      Walk fields [.field f, .index i]
  | deeper {fields inner : List SchemaField} {f : SchemaField} {rest : List SchemaStep} (mem : f ∈ fields)
      (block : nested? f = some inner) (later : Walk inner rest) : Walk fields (.field f :: rest)
  | deeperIndex {fields inner : List SchemaField} {f : SchemaField} {i : Nat} {rest : List SchemaStep} (mem : f ∈ fields)
      (row : isSequenceField f = true) (block : nested? f = some inner) (later : Walk inner rest) :
      Walk fields (.field f :: .index i :: rest)

/-- A segment of a tag stands for a step. -/
def Spells : SchemaStep → String → Prop
  | .field f, segment => segment = f.info.tag
  | .index i, segment => ModelSet.index? segment = some i

/-- A step in the models stands for a step in the schema. -/
def StepOf (ms : List Model) : SchemaStep → PathStep → Prop
  | .field f, .field mf => IsFieldOf ms f mf
  | .index i, .index j => i = j
  | _, _ => False

/-- Distinct tags at every level, each one that schemas write. -/
structure WellFormed (fields : List SchemaField) : Prop where
  nodup : (fields.map (·.info.tag)).Nodup
  tagged : EachWellTagged fields

theorem EachWellTagged.of_mem {f : SchemaField} : {fields : List SchemaField} → EachWellTagged fields → f ∈ fields →
    WellTagged f
  | g :: fields, h, mem => by
    rcases List.mem_cons.mp mem with rfl | mem
    · exact h.1
    · exact EachWellTagged.of_mem h.2 mem

theorem WellTagged.isTag {f : SchemaField} (h : WellTagged f) : IsTag f.info.tag := by
  cases f with
  | plain info elem => exact h
  | block info nested => exact h.1

theorem wellFormed_of_nested? {f : SchemaField} {inner : List SchemaField} (h : WellTagged f)
    (block : nested? f = some inner) : WellFormed inner := by
  cases f with
  | plain info elem => cases block
  | block info nested =>
    by_cases map : info.kind = .map
    · rw [nested?, if_pos map] at block
      cases block
    · rw [nested?, if_neg map] at block
      cases block
      exact ⟨h.2.1, h.2.2⟩

theorem IsFieldOf.tag {ms : List Model} {f : SchemaField} {mf : ModelField} (h : IsFieldOf ms f mf) :
    mf.tag = f.info.tag := by
  cases f with
  | plain info elem =>
    cases h
    rfl
  | block info nested =>
    obtain ⟨m, -, rfl, -⟩ := h
    rfl

theorem AreFieldsOf.find?_eq_some {ms : List Model} {tag : String} {mf : ModelField} :
    {fields : List SchemaField} → {mfs : List ModelField} → AreFieldsOf ms fields mfs →
      mfs.find? (·.tag == tag) = some mf → ∃ f ∈ fields, f.info.tag = tag ∧ IsFieldOf ms f mf
  | [], mfs, h, found => by
    cases h
    cases found
  | f :: fields, mfs, h, found => by
    obtain ⟨first, rest, rfl, isField, later⟩ := h
    rw [List.find?_cons] at found
    split at found
    · rename_i same
      cases found
      exact ⟨f, List.mem_cons_self, isField.tag ▸ beq_iff_eq.mp same, isField⟩
    · obtain ⟨g, mem, same, isField⟩ := AreFieldsOf.find?_eq_some later found
      exact ⟨g, List.mem_cons_of_mem _ mem, same, isField⟩

theorem AreFieldsOf.find?_of_mem {ms : List Model} {f : SchemaField} :
    {fields : List SchemaField} → {mfs : List ModelField} → AreFieldsOf ms fields mfs →
      (fields.map (·.info.tag)).Nodup → f ∈ fields →
      ∃ mf, mfs.find? (·.tag == f.info.tag) = some mf ∧ IsFieldOf ms f mf
  | g :: fields, mfs, h, nodup, mem => by
    obtain ⟨first, rest, rfl, isField, later⟩ := h
    rw [List.map_cons, List.nodup_cons] at nodup
    rcases List.mem_cons.mp mem with rfl | mem
    · exact ⟨first, List.find?_cons_of_pos (beq_iff_eq.mpr isField.tag), isField⟩
    · obtain ⟨mf, found, isField'⟩ := AreFieldsOf.find?_of_mem later nodup.2 mem
      refine ⟨mf, ?_, isField'⟩
      rw [List.find?_cons_of_neg, found]
      intro same
      refine nodup.1 (List.mem_map.mpr ⟨f, mem, ?_⟩)
      rw [← isField.tag, beq_iff_eq.mp same]

section Types
variable {s : ModelSet} {f : SchemaField} {mf : ModelField}

theorem isSequence_plainType (kind : ValueKind) (elem : Option ValueKind) :
    isSequence (plainType kind elem) = kind.isSequence := by
  obtain ⟨n, name, -, ⟨row, type⟩ | ⟨row, type | type⟩⟩ := plainType_cases kind elem
  · rw [type, row, vec_isSequence name]
  · rw [type, row, map_isSequence name]
  · rw [type, row, name_isSequence name]

theorem IsFieldOf.isSequence_ty (distinct : Distinct s.models) (h : IsFieldOf s.models f mf) :
    isSequence mf.ty = isSequenceField f := by
  cases f with
  | plain info elem =>
    cases h
    exact isSequence_plainType info.kind elem
  | block info nested =>
    obtain ⟨m, mem, rfl, -⟩ := h
    have name := (distinct.named m mem).isTypeName
    change isSequence (blockType info.kind m.name) = (info.kind != .map)
    by_cases map : info.kind = .map
    · rw [blockType, if_pos map, map_isSequence name, map]
      rfl
    · rw [blockType, if_neg map, vec_isSequence name, bne_iff_ne.mpr map]

theorem elementModel_plainType (distinct : Distinct s.models) (kind : ValueKind) (elem : Option ValueKind) :
    (elementModel (plainType kind elem)).bind s.get = none := by
  obtain ⟨n, name, noModel, ⟨-, type⟩ | ⟨-, type | type⟩⟩ := plainType_cases kind elem
  · rw [type, vec_elementModel name, Option.bind_some, get_eq_none distinct noModel]
  · rw [type, map_elementModel name, Option.bind_none]
  · rw [type, name_elementModel name, Option.bind_some, get_eq_none distinct noModel]

/-- The type of a block names the model of its attributes; any other type names no model. -/
theorem IsFieldOf.elementModel_ty (distinct : Distinct s.models) (h : IsFieldOf s.models f mf) :
    match nested? f with
    | none => (elementModel mf.ty).bind s.get = none
    | some inner => ∃ m ∈ s.models, (elementModel mf.ty).bind s.get = some m ∧ AreFieldsOf s.models inner m.fields := by
  cases f with
  | plain info elem =>
    cases h
    exact elementModel_plainType distinct info.kind elem
  | block info nested =>
    obtain ⟨m, mem, rfl, fields⟩ := h
    have name := (distinct.named m mem).isTypeName
    by_cases map : info.kind = .map
    · rw [nested?, if_pos map]
      change (elementModel (blockType info.kind m.name)).bind s.get = none
      rw [blockType, if_pos map, map_elementModel name, Option.bind_none]
    · rw [nested?, if_neg map]
      refine ⟨m, mem, ?_, fields⟩
      change (elementModel (blockType info.kind m.name)).bind s.get = some m
      rw [blockType, if_neg map, vec_elementModel name, Option.bind_some, distinct.get mem]

end Types

/-- The segments of a tag without the point at its end. -/
def core : List String → List String
  | [] => []
  | segment :: rest => if ModelSet.isSpent rest then [segment] else segment :: core rest

theorem isSpent_eq_true {segments : List String} :
    ModelSet.isSpent segments = true ↔ segments = [] ∨ segments = [""] := by
  unfold ModelSet.isSpent
  split
  · simp
  · rw [String.isEmpty_iff]
    simp
  · rename_i notNil notOne
    constructor
    · rintro ⟨⟩
    · rintro (rfl | rfl)
      · exact (notNil rfl).elim
      · exact (notOne _ rfl).elim

theorem core_cons_ne_nil (segment : String) (rest : List String) : core (segment :: rest) ≠ [] := by
  unfold core
  split <;> exact List.cons_ne_nil _ _

theorem core_eq_cons {segments later : List String} {segment : String} (h : core segments = segment :: later) :
    ∃ rest, segments = segment :: rest ∧
      ((ModelSet.isSpent rest = true ∧ later = []) ∨ (ModelSet.isSpent rest = false ∧ later = core rest ∧ later ≠ [])) := by
  cases segments with
  | nil => cases h
  | cons a rest =>
    by_cases spent : ModelSet.isSpent rest = true
    · rw [core, if_pos spent] at h
      cases h
      exact ⟨rest, rfl, .inl ⟨spent, rfl⟩⟩
    · rw [core, if_neg spent] at h
      cases h
      refine ⟨rest, rfl, .inr ⟨Bool.eq_false_iff.mpr spent, rfl, ?_⟩⟩
      cases rest with
      | nil => exact (spent rfl).elim
      | cons b rest => exact core_cons_ne_nil b rest

theorem core_cases (segments : List String) :
    core segments = segments ∨ ∃ front, segments = front ++ [""] ∧ core segments = front := by
  induction segments with
  | nil => exact .inl rfl
  | cons a rest ih =>
    by_cases spent : ModelSet.isSpent rest = true
    · rw [core, if_pos spent]
      rcases isSpent_eq_true.mp spent with rfl | rfl
      · exact .inl rfl
      · exact .inr ⟨[a], rfl, rfl⟩
    · rw [core, if_neg spent]
      rcases ih with same | ⟨front, rfl, same⟩
      · rw [same]
        exact .inl rfl
      · rw [same]
        exact .inr ⟨a :: front, rfl, rfl⟩

theorem core_concat {front : List String} (nonempty : front ≠ []) : core (front ++ [""]) = front := by
  induction front with
  | nil => exact (nonempty rfl).elim
  | cons a front ih =>
    cases front with
    | nil => rfl
    | cons b front =>
      have notSpent : ¬ModelSet.isSpent (b :: front ++ [""]) = true := by
        rw [isSpent_eq_true]
        rintro (absurd | absurd)
        · cases absurd
        · have length := congrArg List.length absurd
          simp at length
      rw [List.cons_append, core, if_neg notSpent, ih (List.cons_ne_nil _ _)]

theorem index?_tag {tag : String} (h : IsTag tag) : ModelSet.index? tag = none := by
  obtain ⟨c, r, text, lower, -⟩ := h
  have first : (c.isLower || c.isDigit || c == '_') = true := by
    rw [lower]
    rfl
  obtain ⟨notPlus, notDigit⟩ : c ≠ '+' ∧ c.isDigit = false :=
    of_isAscii (p := fun c => c.isLower = true → c ≠ '+' ∧ c.isDigit = false) (by decide +kernel) (isAscii_of_tag first)
      lower
  unfold ModelSet.index?
  rw [text]
  have noNumber : (!(c :: r).all Char.isDigit) = true := by
    rw [List.all_cons, notDigit]
    rfl
  split
  · rename_i same
    exact (notPlus (List.cons.inj same).1).elim
  · dsimp only
    rw [noNumber, Bool.or_true, if_pos rfl]

theorem index?_empty : ModelSet.index? "" = none := by decide

theorem Walk.spelled {fields : List SchemaField} {walk : List SchemaStep} (h : Walk fields walk)
    (wellFormed : WellFormed fields) {segments : List String} (spells : List.Forall₂ Spells walk segments) :
    segments ≠ [] ∧ "" ∉ segments := by
  have tag {fields : List SchemaField} {f : SchemaField} (wellFormed : WellFormed fields) (mem : f ∈ fields) :
      "" ≠ f.info.tag := (wellFormed.tagged.of_mem mem).isTag.ne_empty.symm
  have number {i : Nat} {segment : String} (spelled : ModelSet.index? segment = some i) : "" ≠ segment := by
    rintro rfl
    rw [index?_empty] at spelled
    cases spelled
  induction h generalizing segments with
  | last mem =>
    cases spells with
    | cons first rest =>
      cases rest
      cases first
      refine ⟨List.cons_ne_nil _ _, fun inside => ?_⟩
      exact tag wellFormed mem (List.mem_singleton.mp inside)
  | lastIndex mem row =>
    cases spells with
    | cons first rest =>
      cases first
      cases rest with
      | cons second rest =>
        cases rest
        refine ⟨List.cons_ne_nil _ _, fun inside => ?_⟩
        rcases List.mem_cons.mp inside with same | inside
        · exact tag wellFormed mem same
        · exact number second (List.mem_singleton.mp inside)
  | deeper mem block later ih =>
    cases spells with
    | cons first rest =>
      cases first
      refine ⟨List.cons_ne_nil _ _, fun inside => ?_⟩
      rcases List.mem_cons.mp inside with same | inside
      · exact tag wellFormed mem same
      · exact (ih (wellFormed_of_nested? (wellFormed.tagged.of_mem mem) block) rest).2 inside
  | deeperIndex mem row block later ih =>
    cases spells with
    | cons first rest =>
      cases first
      cases rest with
      | cons second rest =>
        refine ⟨List.cons_ne_nil _ _, fun inside => ?_⟩
        rcases List.mem_cons.mp inside with same | inside
        · exact tag wellFormed mem same
        · rcases List.mem_cons.mp inside with same | inside
          · exact number second same
          · exact (ih (wellFormed_of_nested? (wellFormed.tagged.of_mem mem) block) rest).2 inside

end Retype.Schema
