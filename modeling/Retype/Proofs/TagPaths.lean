import Retype.Proofs.SchemaTags

/-! Tags in any set of models.  The segments of a tag are resolved one after another: a segment is a tag of the model
reached so far, or a number directly after a field that holds a sequence.  A number directly after a field is always
read as an index, so it is no tag there even if the model below has that tag. -/

namespace Retype.ModelSet
open Retype.Naming

/-- The model where a tag starts. -/
def start (s : ModelSet) (name : String) : Option Model := if name.isEmpty then s.topModel else s.get name

/-- The model that a field refers to, if the set has it. -/
def below (s : ModelSet) (f : ModelField) : Option Model := (elementModel f.ty).bind s.get

/-- The segments resolve one after another from the model reached so far, each to one step.  `last` is the field that
the segment before has named, and `mayTag` tells which segments can be tags after it. -/
inductive Resolves (s : ModelSet) (mayTag : Option ModelField → String → Prop) :
    Option Model → Option ModelField → List String → List PathStep → Prop
  | done {model : Option Model} {last : Option ModelField} : Resolves s mayTag model last [] []
  | field {m : Model} {last : Option ModelField} {segment : String} {f : ModelField} {rest : List String}
      {steps : List PathStep} (allowed : mayTag last segment) (found : m.fieldByTag segment = some f)
      (later : Resolves s mayTag (s.below f) (some f) rest steps) :
      Resolves s mayTag (some m) last (segment :: rest) (.field f :: steps)
  | index {model : Option Model} {f : ModelField} {segment : String} {i : Nat} {rest : List String}
      {steps : List PathStep} (row : isSequence f.ty = true) (number : index? segment = some i)
      (later : Resolves s mayTag model none rest steps) :
      Resolves s mayTag model (some f) (segment :: rest) (.index i :: steps)

/-- Any segment can be a tag. -/
def Anywhere (_last : Option ModelField) (_segment : String) : Prop := True

/-- A segment directly after a field is no tag if it reads as a number. -/
def UnlessNumber (last : Option ModelField) (segment : String) : Prop := last.isSome = true → index? segment = none

section Segments
variable {s : ModelSet} {mayTag : Option ModelField → String → Prop}

theorem Resolves.length_eq {model : Option Model} {last : Option ModelField} {segments : List String}
    {steps : List PathStep} (h : Resolves s mayTag model last segments steps) : steps.length = segments.length := by
  induction h with
  | done => rfl
  | field allowed found later ih => rw [List.length_cons, List.length_cons, ih]
  | index row number later ih => rw [List.length_cons, List.length_cons, ih]

theorem Resolves.of_mem {model : Option Model} {last : Option ModelField} {segments : List String}
    {steps : List PathStep} (h : Resolves s mayTag model last segments steps)
    (inside : ∀ m, model = some m → m ∈ s.models) {segment : String} (mem : segment ∈ segments) :
    (∃ m ∈ s.models, ∃ f ∈ m.fields, f.tag = segment) ∨ ∃ i, index? segment = some i := by
  induction h with
  | done => cases mem
  | field allowed found later ih =>
    rcases List.mem_cons.mp mem with rfl | mem
    · have tagged : _ = segment := beq_iff_eq.mp (List.find?_some (p := fun f : ModelField => f.tag == segment) found)
      exact .inl ⟨_, inside _ rfl, _, List.mem_of_find?_eq_some found, tagged⟩
    · refine ih (fun m reached => ?_) mem
      obtain ⟨name, -, got⟩ := Option.bind_eq_some_iff.mp reached
      exact List.mem_of_find?_eq_some got
  | index row number later ih =>
    rcases List.mem_cons.mp mem with rfl | mem
    · exact .inr ⟨_, number⟩
    · exact ih inside mem

theorem resolves_nil {model : Option Model} {last : Option ModelField} {steps : List PathStep} :
    Resolves s mayTag model last [] steps ↔ steps = [] := by
  constructor
  · rintro ⟨⟩
    rfl
  · rintro rfl
    exact .done

theorem resolves_first {model : Option Model} {segment : String} {rest : List String} {steps : List PathStep} :
    Resolves s UnlessNumber model none (segment :: rest) steps ↔ ∃ m f later, model = some m ∧
      m.fieldByTag segment = some f ∧ steps = .field f :: later ∧
      Resolves s UnlessNumber (s.below f) (some f) rest later := by
  constructor
  · rintro (_ | ⟨-, found, later⟩)
    exact ⟨_, _, _, rfl, found, rfl, later⟩
  · rintro ⟨m, f, later, rfl, found, rfl, rest⟩
    exact .field (fun absurd => nomatch absurd) found rest

theorem resolves_tag {model : Option Model} {f : ModelField} {segment : String} {rest : List String}
    {steps : List PathStep} (noIndex : index? segment = none) :
    Resolves s UnlessNumber model (some f) (segment :: rest) steps ↔
      Resolves s UnlessNumber model none (segment :: rest) steps := by
  rw [resolves_first]
  constructor
  · rintro (_ | ⟨-, found, later⟩ | ⟨-, number, -⟩)
    · exact ⟨_, _, _, rfl, found, rfl, later⟩
    · rw [noIndex] at number
      cases number
  · rintro ⟨m, g, later, rfl, found, rfl, rest⟩
    exact .field (fun _ => noIndex) found rest

theorem resolves_number {model : Option Model} {f : ModelField} {segment : String} {rest : List String} {i : Nat}
    {steps : List PathStep} (number : index? segment = some i) :
    Resolves s UnlessNumber model (some f) (segment :: rest) steps ↔ isSequence f.ty = true ∧
      ∃ later, steps = .index i :: later ∧ Resolves s UnlessNumber model none rest later := by
  constructor
  · rintro (_ | ⟨allowed, -, -⟩ | ⟨row, number', later⟩)
    · have noIndex : index? segment = none := allowed rfl
      rw [noIndex] at number
      cases number
    · cases number.symm.trans number'
      exact ⟨row, _, rfl, later⟩
  · rintro ⟨row, later, rfl, rest⟩
    exact .index row number rest

end Segments

/-- No empty segment stands at the end, behind another one. -/
def Unpointed (segments : List String) : Prop := ∀ front, front ≠ [] → segments ≠ front ++ [""]

theorem Unpointed.tail {segment : String} {rest : List String} (h : Unpointed (segment :: rest)) : Unpointed rest := by
  rintro front - rfl
  exact h (segment :: front) (List.cons_ne_nil _ _) rfl

theorem Unpointed.more {first second : String} {rest : List String} (h : Unpointed (first :: second :: rest)) :
    isSpent (second :: rest) = false := by
  rw [Bool.eq_false_iff]
  intro spent
  rcases Schema.isSpent_eq_true.mp spent with nil | one
  · cases nil
  · exact h [first] (List.cons_ne_nil _ _) (congrArg (first :: ·) one)

/-- The steps found for the segments, from whatever model, are those that they resolve to. -/
def StepsResolve (s : ModelSet) (segments : List String) : Prop :=
  ∀ (model : Option Model) (steps : List PathStep),
    s.steps model segments = some steps ↔ Resolves s UnlessNumber model none segments steps

section Found
variable {s : ModelSet} {m : Model} {f : ModelField} {segment second : String} {rest : List String}
  {steps : List PathStep}

theorem stepsResolve_of_found (step : ∀ m f steps, m.fieldByTag segment = some f →
    (s.steps (some m) (segment :: rest) = some steps ↔
      ∃ later, Resolves s UnlessNumber (s.below f) (some f) rest later ∧ .field f :: later = steps)) :
    StepsResolve s (segment :: rest) := by
  intro model steps
  rw [resolves_first]
  cases model with
  | none =>
    rw [Schema.steps_none]
    constructor
    · rintro ⟨⟩
    · rintro ⟨m, f, later, ⟨⟩, -⟩
  | some m =>
    cases found : m.fieldByTag segment with
    | none =>
      rw [Schema.steps_missing rest found]
      constructor
      · rintro ⟨⟩
      · rintro ⟨m', f, later, ⟨⟩, found', -⟩
        rw [found] at found'
        cases found'
    | some f =>
      rw [step m f steps found]
      constructor
      · rintro ⟨later, resolved, rfl⟩
        exact ⟨m, f, later, rfl, found, rfl, resolved⟩
      · rintro ⟨m', f', later, ⟨⟩, found', rfl, resolved⟩
        cases found.symm.trans found'
        exact ⟨later, resolved, rfl⟩

theorem StepsResolve.tag (deeper : StepsResolve s (second :: rest)) (found : m.fieldByTag segment = some f)
    (more : isSpent (second :: rest) = false) (noIndex : index? second = none) :
    s.steps (some m) (segment :: second :: rest) = some steps ↔
      ∃ later, Resolves s UnlessNumber (s.below f) (some f) (second :: rest) later ∧ .field f :: later = steps := by
  rw [Schema.steps_below found more noIndex, Option.map_eq_some_iff]
  simp only [resolves_tag noIndex]
  exact exists_congr fun later => and_congr_left' (deeper _ later)

theorem StepsResolve.index {i : Nat} (deeper : rest ≠ [] → isSpent rest = false ∧ StepsResolve s rest)
    (found : m.fieldByTag segment = some f) (more : isSpent (second :: rest) = false) (number : index? second = some i) :
    s.steps (some m) (segment :: second :: rest) = some steps ↔
      ∃ later, Resolves s UnlessNumber (s.below f) (some f) (second :: rest) later ∧ .field f :: later = steps := by
  rw [Schema.steps_index found more number]
  simp only [resolves_number number]
  by_cases row : isSequence f.ty = true
  · rw [if_pos row]
    cases rest with
    | nil =>
      have spent : isSpent [] = true := rfl
      rw [if_pos spent]
      simp only [resolves_nil, row, true_and, exists_eq_right, exists_eq_left, Option.some.injEq]
    | cons third rest =>
      obtain ⟨more', below⟩ := deeper (List.cons_ne_nil _ _)
      rw [if_neg (Bool.eq_false_iff.mp more'), Option.map_eq_some_iff]
      constructor
      · rintro ⟨later, went, rfl⟩
        exact ⟨.index i :: later, ⟨row, later, rfl, (below _ later).mp went⟩, rfl⟩
      · rintro ⟨-, ⟨-, later, rfl, resolved⟩, rfl⟩
        exact ⟨later, (below _ later).mpr resolved, rfl⟩
  · rw [if_neg row]
    constructor
    · rintro ⟨⟩
    · rintro ⟨later, ⟨row', -⟩, -⟩
      exact absurd row' row

end Found

theorem stepsResolve (s : ModelSet) (segments : List String) (nonempty : segments ≠ []) (unpointed : Unpointed segments) :
    StepsResolve s segments := by
  induction segments using List.twoStepInduction with
  | nil => exact (nonempty rfl).elim
  | singleton segment =>
    refine stepsResolve_of_found fun m f steps found => ?_
    rw [Schema.steps_spent found rfl]
    simp only [resolves_nil, exists_eq_left, Option.some.injEq]
  | cons_cons segment second rest afterIndex afterTag =>
    refine stepsResolve_of_found fun m f steps found => ?_
    have more : isSpent (second :: rest) = false := unpointed.more
    have tail : Unpointed (second :: rest) := unpointed.tail
    cases number : index? second with
    | none => exact (afterTag second (List.cons_ne_nil _ _) tail).tag found more number
    | some i =>
      refine StepsResolve.index (fun nonempty => ⟨?_, afterIndex nonempty tail.tail⟩) found more number
      obtain ⟨third, rest, rfl⟩ := List.exists_cons_of_ne_nil nonempty
      exact tail.more

theorem segmentsOf_ne_nil (tag : String) : segmentsOf tag ≠ [] := by
  unfold segmentsOf
  rw [Ne, List.map_eq_nil_iff]
  exact List.splitOn_ne_nil _ _

theorem getLast?_intercalate_empty {point : Char} {front : List (List Char)} (nonempty : front ≠ []) :
    ([point].intercalate (front ++ [[]])).getLast? = some point := by
  induction front with
  | nil => exact (nonempty rfl).elim
  | cons a front ih =>
    rw [List.cons_append, List.intercalate_cons_of_ne_nil (List.append_ne_nil_of_right_ne_nil front (List.cons_ne_nil _ _))]
    cases front with
    | nil => simp
    | cons b front => rw [List.getLast?_append, ih (List.cons_ne_nil _ _), Option.some_or]

theorem unpointed_segmentsOf {tag : String} (h : tag.toList.getLast? ≠ some '.') : Unpointed (segmentsOf tag) := by
  intro front nonempty same
  apply h
  have split : tag.toList.splitOn '.' = front.map String.toList ++ [[]] := by
    have read := congrArg (List.map String.toList) same
    rw [segmentsOf, List.map_map, List.map_append, List.map_singleton, String.toList_empty] at read
    simpa only [Function.comp_def, String.toList_ofList, List.map_id'] using read
  have whole : ['.'].intercalate (front.map String.toList ++ [[]]) = tag.toList := by
    rw [← split, List.intercalate_splitOn]
  have filled : front.map String.toList ≠ [] := fun nil => nonempty (List.map_eq_nil_iff.mp nil)
  rw [← whole, getLast?_intercalate_empty filled]

theorem start_mem {s : ModelSet} {name : String} {m : Model} (h : s.start name = some m) : m ∈ s.models := by
  unfold start at h
  split at h
  · exact List.mem_of_find?_eq_some h
  · exact List.mem_of_find?_eq_some h

/-- A tag that does not end in a point resolves exactly if its segments do, one after another and each to one step; an
empty segment that no field is tagged with resolves to nothing. -/
theorem resolveTag_iff_resolves (s : ModelSet) (name tag : String) (unpointed : tag.toList.getLast? ≠ some '.') :
    (∀ steps, s.resolveTag name tag = some steps ↔
        Resolves s UnlessNumber (s.start name) none (segmentsOf tag) steps) ∧
      (∀ steps, s.resolveTag name tag = some steps → steps.length = (segmentsOf tag).length) ∧
      ((∀ m ∈ s.models, ∀ f ∈ m.fields, f.tag ≠ "") → "" ∈ segmentsOf tag → s.resolveTag name tag = none) := by
  have resolved := stepsResolve s (segmentsOf tag) (segmentsOf_ne_nil tag) (unpointed_segmentsOf unpointed) (s.start name)
  refine ⟨resolved, fun steps found => ((resolved steps).mp found).length_eq, fun noEmpty mem => ?_⟩
  cases found : s.resolveTag name tag with
  | none => rfl
  | some steps =>
    have each := ((resolved steps).mp found).of_mem (fun m reached => start_mem reached) mem
    rcases each with ⟨m, inside, f, field, empty⟩ | ⟨i, number⟩
    · exact absurd empty (noEmpty m inside f field)
    · rw [Schema.index?_empty] at number
      cases number

/-- A model with a block and a list of blocks, which have a field tagged `0`. -/
def slotModels : ModelSet where
  top := "CacheModel"
  models :=
    [⟨"CacheModel", [⟨"patch", "SlotModel", "patch"⟩, ⟨"slots", "Vec<SlotModel>", "slots"⟩], false⟩,
      ⟨"SlotModel", [⟨"zero", "String", "0"⟩], false⟩]

theorem isTypeName_slotModel : IsTypeName "SlotModel" := ⟨by decide, by decide⟩

theorem resolveTag_iff_resolves_slots : "slots.3.0".toList.getLast? ≠ some '.' ∧
    slotModels.resolveTag "" "slots.3.0" =
      some [.field ⟨"slots", "Vec<SlotModel>", "slots"⟩, .index 3, .field ⟨"zero", "String", "0"⟩] ∧
    slotModels.resolveTag "" "slots..0" = none := by
  have type : "Vec<SlotModel>" = "Vec<" ++ "SlotModel" ++ ">" := by decide
  have row : isSequence "Vec<SlotModel>" = true := by rw [type, vec_isSequence isTypeName_slotModel]
  have inner : elementModel "Vec<SlotModel>" = some "SlotModel" := by rw [type, vec_elementModel isTypeName_slotModel]
  have three : index? "3" = some 3 := Schema.index?_toString (i := 3) (by decide)
  have slot : slotModels.below ⟨"slots", "Vec<SlotModel>", "slots"⟩ =
      some ⟨"SlotModel", [⟨"zero", "String", "0"⟩], false⟩ := by
    rw [below, inner]
    rfl
  have segments : segmentsOf "slots.3.0" = ["slots", "3", "0"] := by decide
  have unpointed : "slots.3.0".toList.getLast? ≠ some '.' := by decide
  refine ⟨unpointed, ?_, ?_⟩
  · rw [(resolveTag_iff_resolves slotModels "" "slots.3.0" unpointed).1, segments]
    refine .field (fun absurd => nomatch absurd) rfl (.index row three ?_)
    rw [slot]
    exact .field (fun absurd => nomatch absurd) rfl .done
  · refine (resolveTag_iff_resolves slotModels "" "slots..0" (by decide)).2.2 ?_ (by decide)
    decide

/-- A number below a field that holds no sequence resolves to nothing, even where the model below has that tag. -/
theorem not_resolves_anywhere : ¬((∃ steps, slotModels.resolveTag "" "patch.0" = some steps) ↔
    ∃ steps, Resolves slotModels Anywhere (slotModels.start "") none (segmentsOf "patch.0") steps) := by
  have inner : elementModel "SlotModel" = some "SlotModel" := name_elementModel isTypeName_slotModel
  have slot : slotModels.below ⟨"patch", "SlotModel", "patch"⟩ =
      some ⟨"SlotModel", [⟨"zero", "String", "0"⟩], false⟩ := by
    rw [below, inner]
    rfl
  have segments : segmentsOf "patch.0" = ["patch", "0"] := by decide
  have spelled : Resolves slotModels Anywhere (slotModels.start "") none (segmentsOf "patch.0")
      [.field ⟨"patch", "SlotModel", "patch"⟩, .field ⟨"zero", "String", "0"⟩] := by
    rw [segments]
    refine .field trivial rfl ?_
    rw [slot]
    exact .field trivial rfl .done
  have zero : index? "0" = some 0 := Schema.index?_toString (i := 0) (by decide)
  have noSequence : isSequence "SlotModel" = false := name_isSequence isTypeName_slotModel
  have none : slotModels.resolveTag "" "patch.0" = none := by
    have patch : slotModels.models[0].fieldByTag "patch" = some ⟨"patch", "SlotModel", "patch"⟩ := rfl
    have step := Schema.steps_index (s := slotModels) patch (show isSpent ["0"] = false from rfl) zero
    rw [noSequence, if_neg Bool.false_ne_true] at step
    rw [resolveTag, segments]
    exact step
  intro same
  obtain ⟨steps, found⟩ := same.mpr ⟨_, spelled⟩
  rw [none] at found
  cases found

end Retype.ModelSet
