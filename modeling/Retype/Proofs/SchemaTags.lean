import Retype.Proofs.Numbers
import Retype.Proofs.SchemaWalks

/-! Tags in the models of a schema.  A dotted tag resolves to the steps of the walk that it spells, and to nothing if it
spells none; a point at its end is passed over. -/

namespace Retype.Schema
open Retype.Code Retype.Text Retype.Naming

section Steps
variable {s : ModelSet}

theorem steps_none (segments : List String) : s.steps none segments = none := by
  cases segments with
  | nil => rfl
  | cons a rest =>
    cases rest with
    | nil => rfl
    | cons b rest => rfl

theorem steps_next (ty : String) (segments : List String) :
    ((elementModel ty).bind fun next => s.steps (s.get next) segments) = s.steps ((elementModel ty).bind s.get) segments := by
  cases elementModel ty with
  | none => rw [Option.bind_none, Option.bind_none, steps_none]
  | some next => rfl

theorem steps_spent {m : Model} {tag : String} {rest : List String} {mf : ModelField}
    (found : m.fieldByTag tag = some mf) (spent : ModelSet.isSpent rest = true) :
    s.steps (some m) (tag :: rest) = some [.field mf] := by
  cases rest with
  | nil =>
    rw [ModelSet.steps, Option.bind_eq_bind, Option.bind_some, found]
    rfl
  | cons second rest =>
    rw [ModelSet.steps, Option.bind_eq_bind, Option.bind_some, found, Option.bind_eq_bind, Option.bind_some, if_pos spent]

theorem steps_missing {m : Model} {tag : String} (rest : List String) (missing : m.fieldByTag tag = none) :
    s.steps (some m) (tag :: rest) = none := by
  cases rest with
  | nil =>
    rw [ModelSet.steps, Option.bind_eq_bind, Option.bind_some, missing]
    rfl
  | cons second rest =>
    rw [ModelSet.steps, Option.bind_eq_bind, Option.bind_some, missing]
    rfl

theorem steps_below {m : Model} {tag second : String} {rest : List String} {mf : ModelField}
    (found : m.fieldByTag tag = some mf) (more : ModelSet.isSpent (second :: rest) = false)
    (noIndex : ModelSet.index? second = none) : s.steps (some m) (tag :: second :: rest) =
      (s.steps ((elementModel mf.ty).bind s.get) (second :: rest)).map (.field mf :: ·) := by
  rw [ModelSet.steps, Option.bind_eq_bind, Option.bind_some, found, Option.bind_eq_bind, Option.bind_some,
    if_neg (by rw [more]; exact Bool.false_ne_true), noIndex]
  dsimp only
  rw [← steps_next, Option.map_eq_bind]
  cases elementModel mf.ty with
  | none => rfl
  | some next => rfl

theorem steps_index {m : Model} {tag second : String} {rest : List String} {mf : ModelField} {i : Nat}
    (found : m.fieldByTag tag = some mf) (more : ModelSet.isSpent (second :: rest) = false)
    (index : ModelSet.index? second = some i) : s.steps (some m) (tag :: second :: rest) =
      if isSequence mf.ty then
        if ModelSet.isSpent rest then some [.field mf, .index i]
        else (s.steps ((elementModel mf.ty).bind s.get) rest).map (.field mf :: .index i :: ·)
      else none := by
  rw [ModelSet.steps, Option.bind_eq_bind, Option.bind_some, found, Option.bind_eq_bind, Option.bind_some,
    if_neg (by rw [more]; exact Bool.false_ne_true), index]
  dsimp only
  rw [← steps_next, Option.map_eq_bind]
  cases elementModel mf.ty with
  | none => rfl
  | some next => rfl

theorem index?_of_spells {fields : List SchemaField} {walk : List SchemaStep} (wellFormed : WellFormed fields)
    (h : Walk fields walk) {segment : String} {rest : List String}
    (spells : List.Forall₂ Spells walk (core (segment :: rest))) : ModelSet.index? segment = none := by
  obtain ⟨f, later, mem, rfl⟩ : ∃ f later, f ∈ fields ∧ walk = .field f :: later := by
    cases h with
    | last mem => exact ⟨_, _, mem, rfl⟩
    | lastIndex mem row => exact ⟨_, _, mem, rfl⟩
    | deeper mem block later => exact ⟨_, _, mem, rfl⟩
    | deeperIndex mem row block later => exact ⟨_, _, mem, rfl⟩
  have head : ∃ tail, core (segment :: rest) = segment :: tail := by
    unfold core
    split
    · exact ⟨[], rfl⟩
    · exact ⟨_, rfl⟩
  obtain ⟨tail, same⟩ := head
  rw [same] at spells
  cases spells with
  | cons first rest =>
    cases first
    exact index?_tag (wellFormed.tagged.of_mem mem).isTag

/-- What spells a step and others begins with a segment for the step; it is the last one, or the others are behind it. -/
theorem spells_core_cons {step : SchemaStep} {walk : List SchemaStep} {segments : List String}
    (spells : List.Forall₂ Spells (step :: walk) (core segments)) :
    ∃ segment rest, segments = segment :: rest ∧ Spells step segment ∧
      ((walk = [] ∧ ModelSet.isSpent rest = true) ∨
        (walk ≠ [] ∧ ModelSet.isSpent rest = false ∧ List.Forall₂ Spells walk (core rest))) := by
  generalize spelled : core segments = spelling at spells
  cases spells with
  | @cons _ segment _ _ first later =>
    obtain ⟨rest, rfl, ⟨spent, rfl⟩ | ⟨more, rfl, nonempty⟩⟩ := core_eq_cons spelled
    · exact ⟨segment, rest, rfl, first, .inl ⟨List.forall₂_nil_right_iff.mp later, spent⟩⟩
    · refine ⟨segment, rest, rfl, first, .inr ⟨?_, more, later⟩⟩
      rintro rfl
      exact nonempty (List.forall₂_nil_left_iff.mp later)

theorem IsFieldOf.below (distinct : Distinct s.models) {f : SchemaField} {mf : ModelField} {inner : List SchemaField}
    (isField : IsFieldOf s.models f mf) (block : nested? f = some inner) :
    ∃ m, (elementModel mf.ty).bind s.get = some m ∧ AreFieldsOf s.models inner m.fields := by
  have type := isField.elementModel_ty distinct
  rw [block] at type
  obtain ⟨m, -, next, own⟩ := type
  exact ⟨m, next, own⟩

theorem steps_of_walk (distinct : Distinct s.models) {fields : List SchemaField} {walk : List SchemaStep}
    (h : Walk fields walk) (wellFormed : WellFormed fields) {m : Model} (own : AreFieldsOf s.models fields m.fields)
    {segments : List String} (spells : List.Forall₂ Spells walk (core segments)) :
    ∃ steps, s.steps (some m) segments = some steps ∧ List.Forall₂ (StepOf s.models) walk steps := by
  induction h generalizing m segments with
  | last mem =>
    obtain ⟨mf, found, isField⟩ := own.find?_of_mem wellFormed.nodup mem
    obtain ⟨_, rest, rfl, rfl, ⟨-, spent⟩ | ⟨nonempty, -⟩⟩ := spells_core_cons spells
    · exact ⟨_, steps_spent found spent, .cons isField .nil⟩
    · exact (nonempty rfl).elim
  | lastIndex mem row =>
    obtain ⟨mf, found, isField⟩ := own.find?_of_mem wellFormed.nodup mem
    obtain ⟨_, rest, rfl, rfl, ⟨⟨⟩, -⟩ | ⟨-, more, spells⟩⟩ := spells_core_cons spells
    obtain ⟨second, rest, rfl, number, ⟨-, spent⟩ | ⟨nonempty, -⟩⟩ := spells_core_cons spells
    · have indexed : isSequence mf.ty = true := by rw [isField.isSequence_ty distinct, row]
      refine ⟨[.field mf, .index _], ?_, .cons isField (.cons rfl .nil)⟩
      rw [steps_index found more number, if_pos indexed, if_pos spent]
    · exact (nonempty rfl).elim
  | deeper mem block later ih =>
    obtain ⟨mf, found, isField⟩ := own.find?_of_mem wellFormed.nodup mem
    have inner := wellFormed_of_nested? (wellFormed.tagged.of_mem mem) block
    obtain ⟨m', next, own'⟩ := isField.below distinct block
    obtain ⟨_, rest, rfl, rfl, ⟨rfl, -⟩ | ⟨-, more, spells⟩⟩ := spells_core_cons spells
    · cases later
    · obtain ⟨steps, went, stands⟩ := ih inner own' spells
      cases rest with
      | nil => cases more
      | cons second rest =>
        have noIndex : ModelSet.index? second = none := index?_of_spells inner later spells
        refine ⟨.field mf :: steps, ?_, .cons isField stands⟩
        rw [steps_below found more noIndex, next, went]
        rfl
  | deeperIndex mem row block later ih =>
    obtain ⟨mf, found, isField⟩ := own.find?_of_mem wellFormed.nodup mem
    have inner := wellFormed_of_nested? (wellFormed.tagged.of_mem mem) block
    obtain ⟨m', next, own'⟩ := isField.below distinct block
    have indexed : isSequence mf.ty = true := by rw [isField.isSequence_ty distinct, row]
    obtain ⟨_, rest, rfl, rfl, ⟨⟨⟩, -⟩ | ⟨-, more, spells⟩⟩ := spells_core_cons spells
    obtain ⟨second, rest, rfl, number, ⟨rfl, -⟩ | ⟨-, more', spells⟩⟩ := spells_core_cons spells
    · cases later
    · obtain ⟨steps, went, stands⟩ := ih inner own' spells
      refine ⟨.field mf :: .index _ :: steps, ?_, .cons isField (.cons rfl stands)⟩
      rw [steps_index found more number, if_pos indexed, if_neg (Bool.eq_false_iff.mp more'), next, went]
      rfl

/-- The segments spell a walk, and the steps are those of the walk. -/
def IsTrace (s : ModelSet) (fields : List SchemaField) (segments : List String) (steps : List PathStep) : Prop :=
  ∃ walk, Walk fields walk ∧ List.Forall₂ Spells walk (core segments) ∧ List.Forall₂ (StepOf s.models) walk steps

/-- What is found for the segments is a walk that they spell. -/
def Traced (s : ModelSet) (segments : List String) : Prop :=
  ∀ (fields : List SchemaField) (m : Model) (steps : List PathStep), WellFormed fields →
    AreFieldsOf s.models fields m.fields → s.steps (some m) segments = some steps → IsTrace s fields segments steps

theorem Traced.below (distinct : Distinct s.models) {segments : List String} (traced : Traced s segments)
    {f : SchemaField} {mf : ModelField} (tagged : WellTagged f) (isField : IsFieldOf s.models f mf)
    {steps : List PathStep} (h : s.steps ((elementModel mf.ty).bind s.get) segments = some steps) :
    ∃ inner, nested? f = some inner ∧ IsTrace s inner segments steps := by
  cases block : nested? f with
  | none =>
    have type := isField.elementModel_ty distinct
    rw [block] at type
    rw [type, steps_none] at h
    cases h
  | some inner =>
    obtain ⟨m, next, own⟩ := isField.below distinct block
    rw [next] at h
    exact ⟨inner, rfl, traced inner m steps (wellFormed_of_nested? tagged block) own h⟩

theorem traced_of_found {tag : String} {rest : List String} (step : ∀ fields f m mf steps, f ∈ fields → WellTagged f →
    f.info.tag = tag → m.fieldByTag tag = some mf → IsFieldOf s.models f mf →
    s.steps (some m) (tag :: rest) = some steps → IsTrace s fields (tag :: rest) steps) : Traced s (tag :: rest) := by
  intro fields m steps wellFormed own h
  cases found : m.fieldByTag tag with
  | none =>
    rw [steps_missing rest found] at h
    cases h
  | some mf =>
    obtain ⟨f, mem, named, isField⟩ := own.find?_eq_some found
    exact step fields f m mf steps mem (wellFormed.tagged.of_mem mem) named found isField h

section Found
variable {fields : List SchemaField} {f : SchemaField} {m : Model} {mf : ModelField} {second : String}
  {rest : List String} {steps : List PathStep}

theorem isTrace_last (mem : f ∈ fields) (found : m.fieldByTag f.info.tag = some mf)
    (isField : IsFieldOf s.models f mf) (spent : ModelSet.isSpent rest = true)
    (h : s.steps (some m) (f.info.tag :: rest) = some steps) : IsTrace s fields (f.info.tag :: rest) steps := by
  rw [steps_spent found spent] at h
  cases h
  refine ⟨[.field f], .last mem, ?_, .cons isField .nil⟩
  rw [core, if_pos spent]
  exact .cons rfl .nil

theorem Traced.tag (distinct : Distinct s.models) (deeper : Traced s (second :: rest)) (mem : f ∈ fields)
    (tagged : WellTagged f) (found : m.fieldByTag f.info.tag = some mf) (isField : IsFieldOf s.models f mf)
    (more : ModelSet.isSpent (second :: rest) = false) (noIndex : ModelSet.index? second = none)
    (h : s.steps (some m) (f.info.tag :: second :: rest) = some steps) :
    IsTrace s fields (f.info.tag :: second :: rest) steps := by
  rw [steps_below found more noIndex] at h
  obtain ⟨below, went, rfl⟩ := Option.map_eq_some_iff.mp h
  obtain ⟨inner, block, walk, later, spells, stands⟩ := deeper.below distinct tagged isField went
  refine ⟨.field f :: walk, .deeper mem block later, ?_, .cons isField stands⟩
  rw [core, if_neg (Bool.eq_false_iff.mp more)]
  exact .cons rfl spells

theorem Traced.index {i : Nat} (distinct : Distinct s.models) (deeper : Traced s rest) (mem : f ∈ fields)
    (tagged : WellTagged f) (found : m.fieldByTag f.info.tag = some mf) (isField : IsFieldOf s.models f mf)
    (more : ModelSet.isSpent (second :: rest) = false) (number : ModelSet.index? second = some i)
    (h : s.steps (some m) (f.info.tag :: second :: rest) = some steps) :
    IsTrace s fields (f.info.tag :: second :: rest) steps := by
  rw [steps_index found more number] at h
  rw [IsTrace, core, if_neg (Bool.eq_false_iff.mp more)]
  by_cases row : isSequence mf.ty = true
  · rw [if_pos row] at h
    rw [isField.isSequence_ty distinct] at row
    by_cases spent : ModelSet.isSpent rest = true
    · rw [if_pos spent] at h
      cases h
      refine ⟨[.field f, .index i], .lastIndex mem row, ?_, .cons isField (.cons rfl .nil)⟩
      rw [core, if_pos spent]
      exact .cons rfl (.cons number .nil)
    · rw [if_neg spent] at h
      obtain ⟨below, went, rfl⟩ := Option.map_eq_some_iff.mp h
      obtain ⟨inner, block, walk, later, spells, stands⟩ := deeper.below distinct tagged isField went
      refine ⟨.field f :: .index i :: walk, .deeperIndex mem row block later, ?_, .cons isField (.cons rfl stands)⟩
      rw [core, if_neg spent]
      exact .cons rfl (.cons number spells)
  · rw [if_neg row] at h
    cases h

end Found

theorem traced (distinct : Distinct s.models) (segments : List String) : Traced s segments := by
  induction segments using List.twoStepInduction with
  | nil =>
    intro fields m steps wellFormed own h
    cases h
  | singleton tag =>
    refine traced_of_found fun fields f m mf steps mem tagged named found isField h => ?_
    subst named
    exact isTrace_last mem found isField rfl h
  | cons_cons tag second rest afterIndex afterTag =>
    refine traced_of_found fun fields f m mf steps mem tagged named found isField h => ?_
    subst named
    cases more : ModelSet.isSpent (second :: rest) with
    | true => exact isTrace_last mem found isField more h
    | false =>
      cases number : ModelSet.index? second with
      | none => exact (afterTag second).tag distinct mem tagged found isField more number h
      | some i => exact afterIndex.index distinct mem tagged found isField more number h

end Steps

/-- The segments of a tag spell a walk. -/
def Names (walk : List SchemaStep) (tag : String) : Prop := List.Forall₂ Spells walk (ModelSet.segmentsOf tag)

/-- The segments of a tag spell a walk but for a point at its end. -/
def NamesPointed (walk : List SchemaStep) (tag : String) : Prop :=
  ∃ front, ModelSet.segmentsOf tag = front ++ [""] ∧ List.Forall₂ Spells walk front

theorem spells_core_iff {fields : List SchemaField} {walk : List SchemaStep} (h : Walk fields walk)
    (wellFormed : WellFormed fields) (tag : String) :
    List.Forall₂ Spells walk (core (ModelSet.segmentsOf tag)) ↔ Names walk tag ∨ NamesPointed walk tag := by
  unfold Names NamesPointed
  generalize ModelSet.segmentsOf tag = segments
  constructor
  · intro spells
    rcases core_cases segments with same | ⟨front, rfl, same⟩
    · exact .inl (same ▸ spells)
    · exact .inr ⟨front, rfl, same ▸ spells⟩
  · rintro (spells | ⟨front, rfl, spells⟩)
    · rcases core_cases segments with same | ⟨front, rfl, -⟩
      · rwa [same]
      · exact absurd (List.mem_append_right front (List.mem_singleton_self "")) (h.spelled wellFormed spells).2
    · rwa [core_concat (h.spelled wellFormed spells).1]

/-- The segment that stands for a step as it is written. -/
def stepText : SchemaStep → String
  | .field f => f.info.tag
  | .index i => toString i

/-- The tag of a walk. -/
def dotted (walk : List SchemaStep) : String := ".".intercalate (walk.map stepText)

theorem index?_toString {i : Nat} (fits : i < UInt64.size) : ModelSet.index? (toString i) = some i := by
  have decimal := Literal.isDecimal_toString i
  have filled : (toString i).toList.isEmpty = false := List.isEmpty_eq_false_iff.mpr decimal.nonempty
  unfold ModelSet.index?
  split
  · rename_i r same
    have plus := decimal.digits '+' (same ▸ List.mem_cons_self)
    exact absurd plus (by decide)
  · dsimp only
    rw [filled, List.all_eq_true.mpr decimal.digits, Literal.foldl_toString, if_pos fits]
    rfl

theorem not_names_of_pointed {fields : List SchemaField} {walk other : List SchemaStep} {tag : String} (h : Walk fields walk)
    (wellFormed : WellFormed fields) (pointed : NamesPointed other tag) : ¬Names walk tag := by
  intro named
  obtain ⟨front, segments, -⟩ := pointed
  rw [Names, segments] at named
  exact (h.spelled wellFormed named).2 (List.mem_append_right front (List.mem_singleton_self ""))

theorem Walk.isTag {fields : List SchemaField} {walk : List SchemaStep} (h : Walk fields walk)
    (wellFormed : WellFormed fields) {f : SchemaField} (mem : .field f ∈ walk) : IsTag f.info.tag := by
  induction h with
  | last inside =>
    cases List.mem_singleton.mp mem
    exact (wellFormed.tagged.of_mem inside).isTag
  | lastIndex inside row =>
    rcases List.mem_cons.mp mem with same | mem
    · cases same
      exact (wellFormed.tagged.of_mem inside).isTag
    · cases List.mem_singleton.mp mem
  | deeper inside block later ih =>
    rcases List.mem_cons.mp mem with same | mem
    · cases same
      exact (wellFormed.tagged.of_mem inside).isTag
    · exact ih (wellFormed_of_nested? (wellFormed.tagged.of_mem inside) block) mem
  | deeperIndex inside row block later ih =>
    rcases List.mem_cons.mp mem with same | mem
    · cases same
      exact (wellFormed.tagged.of_mem inside).isTag
    · rcases List.mem_cons.mp mem with same | mem
      · cases same
      · exact ih (wellFormed_of_nested? (wellFormed.tagged.of_mem inside) block) mem

theorem no_point_tag {tag : String} (h : IsTag tag) : '.' ∉ tag.toList := by
  intro mem
  have absurd := h.chars '.' mem
  revert absurd
  decide

theorem no_point_toString (i : Nat) : '.' ∉ (toString i).toList := by
  intro mem
  rw [Nat.toString_eq_repr, Nat.toList_repr] at mem
  have digit : '.'.isDigit = true := Nat.isDigit_of_mem_toDigits (by decide) (by decide) mem
  revert digit
  decide

theorem names_dotted {fields : List SchemaField} {walk : List SchemaStep} (h : Walk fields walk)
    (wellFormed : WellFormed fields) (fits : ∀ i, .index i ∈ walk → i < UInt64.size) : Names walk (dotted walk) := by
  have noPoint : ∀ segment ∈ walk.map (String.toList ∘ stepText), '.' ∉ segment := by
    intro segment mem
    obtain ⟨step, inside, rfl⟩ := List.mem_map.mp mem
    cases step with
    | field f => exact no_point_tag (h.isTag wellFormed inside)
    | index i => exact no_point_toString i
  have nonempty : walk.map (String.toList ∘ stepText) ≠ [] := by
    cases h <;> exact List.cons_ne_nil _ _
  have segments : ModelSet.segmentsOf (dotted walk) = walk.map stepText := by
    unfold ModelSet.segmentsOf dotted
    have split := List.splitOn_intercalate '.' noPoint nonempty
    rw [String.toList_intercalate, List.map_map]
    change List.map String.ofList (List.splitOn '.' (['.'].intercalate _)) = _
    rw [split, List.map_map]
    exact List.map_congr_left fun step _ => String.ofList_toList
  rw [Names, segments, List.forall₂_map_right_iff, List.forall₂_same]
  intro step inside
  cases step with
  | field f => exact rfl
  | index i => exact index?_toString (fits i inside)

/-- A tag is resolved to the steps of a walk. -/
def ResolvesTo (s : ModelSet) (tag : String) (walk : List SchemaStep) : Prop :=
  ∃ steps, s.resolveTag "" tag = some steps ∧ List.Forall₂ (StepOf s.models) walk steps

/-- A tag that names no walk resolves to nothing. -/
def OnlyNamed (s : ModelSet) (fields : List SchemaField) (tag : String) : Prop :=
  (∀ walk, Walk fields walk → ¬Names walk tag) → s.resolveTag "" tag = none

section Models
variable {top : String} {fields : List SchemaField}

theorem resolveTag_iff (isName : IsModelName top) (wellFormed : WellFormed fields) (tag : String) :
    (∀ walk, Walk fields walk → Names walk tag ∨ NamesPointed walk tag → ResolvesTo ⟨top, models top fields⟩ tag walk) ∧
      ∀ steps, (ModelSet.mk top (models top fields)).resolveTag "" tag = some steps →
        ∃ walk, Walk fields walk ∧ (Names walk tag ∨ NamesPointed walk tag) := by
  obtain ⟨own, added, all, distinct, areFields⟩ := models_spec isName wellFormed.tagged
  generalize models top fields = ms at all distinct areFields
  have mem : (⟨top, own, false⟩ : Model) ∈ ms := by
    rw [all]
    exact List.mem_cons_self
  have start : (ModelSet.mk top ms).topModel = some ⟨top, own, false⟩ := Distinct.get (s := ⟨top, ms⟩) distinct mem
  have resolve : (ModelSet.mk top ms).resolveTag "" tag =
      (ModelSet.mk top ms).steps (some ⟨top, own, false⟩) (ModelSet.segmentsOf tag) := by
    rw [← start]
    rfl
  constructor
  · intro walk h named
    have spells := (spells_core_iff h wellFormed tag).mpr named
    obtain ⟨steps, found, stands⟩ := steps_of_walk (s := ⟨top, ms⟩) (m := ⟨top, own, false⟩) distinct h wellFormed
      areFields spells
    exact ⟨steps, resolve.trans found, stands⟩
  · intro steps found
    rw [resolve] at found
    obtain ⟨walk, h, spells, -⟩ := traced (s := ⟨top, ms⟩) distinct _ fields ⟨top, own, false⟩ steps wellFormed
      areFields found
    exact ⟨walk, h, (spells_core_iff h wellFormed tag).mp spells⟩

/-- A walk is resolved from its tag and from every other tag that names it.  A tag that names no walk resolves to
nothing exactly if it names none even without a point at its end. -/
theorem resolveTag_models (isName : IsModelName top) (wellFormed : WellFormed fields) :
    (∀ walk, Walk fields walk → (∀ i, .index i ∈ walk → i < UInt64.size) →
        ResolvesTo ⟨top, models top fields⟩ (dotted walk) walk) ∧
      (∀ walk tag, Walk fields walk → Names walk tag ∨ NamesPointed walk tag →
        ResolvesTo ⟨top, models top fields⟩ tag walk) ∧
      ∀ tag, OnlyNamed ⟨top, models top fields⟩ fields tag ↔ ∀ walk, Walk fields walk → ¬NamesPointed walk tag := by
  refine ⟨fun walk h fits => ?_, fun walk tag h => (resolveTag_iff isName wellFormed tag).1 walk h, fun tag => ?_⟩
  · exact (resolveTag_iff isName wellFormed _).1 walk h (.inl (names_dotted h wellFormed fits))
  obtain ⟨found, only⟩ := resolveTag_iff isName wellFormed tag
  constructor
  · intro onlyNamed walk h pointed
    have unnamed : ∀ other, Walk fields other → ¬Names other tag := by
      intro other h' named
      exact not_names_of_pointed h' wellFormed pointed named
    obtain ⟨steps, resolved, -⟩ := found walk h (.inr pointed)
    rw [onlyNamed unnamed] at resolved
    cases resolved
  · intro notPointed unnamed
    cases resolved : (ModelSet.mk top (models top fields)).resolveTag "" tag with
    | none => rfl
    | some steps =>
      obtain ⟨walk, h, named | pointed⟩ := only steps resolved
      · exact absurd named (unnamed walk h)
      · exact absurd pointed (notPointed walk h)

end Models

/-- A name and a list of blocks with a name. -/
def skuFields : List SchemaField :=
  let name : SchemaField := .plain (blankInfo "name" Tree.absent) none
  [name, .block { blankInfo "sku" Tree.absent with kind := .list } [name]]

theorem resolveTag_models_sku : IsModelName "TagModel" ∧ WellFormed skuFields ∧
    (∃ steps, (ModelSet.mk "TagModel" (models "TagModel" skuFields)).resolveTag "" "sku.3.name" = some steps) ∧
    ¬OnlyNamed ⟨"TagModel", models "TagModel" skuFields⟩ skuFields "name." := by
  have isName : IsModelName "TagModel" := ⟨by decide, by decide⟩
  have name : IsTag "name" := ⟨'n', ['a', 'm', 'e'], rfl, by decide, List.all_eq_true.mp (by decide)⟩
  have sku : IsTag "sku" := ⟨'s', ['k', 'u'], rfl, by decide, List.all_eq_true.mp (by decide)⟩
  have wellFormed : WellFormed skuFields := by
    refine ⟨by decide, name, ⟨sku, ?_, name, trivial⟩, trivial⟩
    decide
  obtain ⟨ofWalk, -, only⟩ := resolveTag_models isName wellFormed
  refine ⟨isName, wellFormed, ?_, ?_⟩
  · have walk : Walk skuFields [.field _, .index 3, .field _] :=
      .deeperIndex (List.mem_cons_of_mem _ List.mem_cons_self) rfl rfl (.last List.mem_cons_self)
    obtain ⟨steps, resolved, -⟩ := ofWalk _ walk fun i mem => by
      simp only [List.mem_cons, SchemaStep.index.injEq, reduceCtorEq, List.not_mem_nil, or_false, false_or] at mem
      rw [mem]
      decide
    exact ⟨steps, resolved⟩
  · rw [only]
    intro unnamed
    exact unnamed [.field _] (.last List.mem_cons_self) ⟨["name"], rfl, .cons rfl .nil⟩

end Retype.Schema
