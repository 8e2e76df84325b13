import Mathlib.Data.List.Nodup
import Mathlib.Data.List.Perm.Subperm
import Retype.Schema
import Retype.Proofs.Lookups
import Retype.Proofs.TypeText

/-! The models that are derived from a schema.  Each block of the schema has a model of its own; names are told apart by
the stem of the parent model or by a number, so a name leads back to the model of one block. -/

namespace Retype.Schema
open Retype.Code Retype.Code.Lexer Retype.Text Retype.Naming

/-- An ASCII identifier that ends in `Model`. -/
structure IsModelName (name : String) : Prop where
  ascii : IsAsciiName name.toList
  ends : "Model".toList <:+ name.toList

theorem not_mem_keywords {name : String} (ends : "Model".toList <:+ name.toList) : name ∉ Parser.keywords := by
  intro key
  have none : ∀ k ∈ Parser.keywords, ¬"Model".toList <:+ k.toList := by decide
  exact none name key ends

theorem IsModelName.isTypeName {name : String} (h : IsModelName name) : IsTypeName name :=
  ⟨h.ascii, not_mem_keywords h.ends⟩

theorem isAsciiName_upperCamel {tag : String} (h : IsTag tag) : IsAsciiName (upperCamel tag).toList := by
  obtain ⟨c, r, text, upper, plain⟩ := h.upperCamel
  rw [text]
  constructor
  · have ascii := (Bool.and_eq_true_iff.mp (plain c List.mem_cons_self)).1
    have alpha : c.isAlpha = true := Bool.or_eq_true_iff.mpr (.inl upper)
    rw [List.head?_cons, Option.any_some, ascii, isIdentStart, if_pos ascii, alpha]
    rfl
  · intro d mem
    obtain ⟨ascii, letter⟩ := Bool.and_eq_true_iff.mp (plain d mem)
    rw [ascii, isIdentContinue, if_pos ascii, letter]
    rfl

theorem modelSuffix_chars : ∀ d ∈ "Model".toList, (isAscii d && isIdentContinue d) = true :=
  List.all_eq_true.mp (by decide)

theorem number_chars (n : Nat) : ∀ d ∈ (toString n).toList, (isAscii d && isIdentContinue d) = true := by
  intro d mem
  have digit : d.isDigit = true := by
    rw [Nat.toString_eq_repr, Nat.toList_repr] at mem
    exact Nat.isDigit_of_mem_toDigits (by decide) (by decide) mem
  have tagged : (d.isLower || d.isDigit || d == '_') = true := by
    rw [digit, Bool.or_true, Bool.true_or]
  have ascii := isAscii_of_tag tagged
  rw [ascii, isIdentContinue, if_pos ascii, Char.isAlphanum, digit, Bool.or_true]
  rfl

theorem dropModel_eq {name : String} (h : IsModelName name) : (dropModel name).toList ++ "Model".toList = name.toList := by
  obtain ⟨stem, whole⟩ := h.ends
  unfold dropModel
  dsimp only
  rw [if_pos (List.isSuffixOf_iff_suffix.mpr h.ends), String.toList_ofList, ← whole]
  simp

theorem isModelName_append {parent : String} {x y : Chars} (h : IsModelName parent) (name : IsAsciiName x)
    (rest : ∀ d ∈ y, (isAscii d && isIdentContinue d) = true) {n : String}
    (text : n.toList = (dropModel parent).toList ++ x ++ y ++ "Model".toList) : IsModelName n := by
  have whole := h.ascii
  rw [← dropModel_eq h] at whole
  constructor
  · rw [text]
    exact ((name.insert whole).append rest).append modelSuffix_chars
  · rw [text]
    exact List.suffix_append _ _

theorem isTaken_eq_true {models : List Model} {name : String} :
    isTaken models name = true ↔ name ∈ models.map (·.name) := by
  rw [isTaken, List.any_eq_true, List.mem_map]
  exact exists_congr fun m => and_congr_right fun _ => beq_iff_eq

theorem numbered_inj {front : String} {m n : Nat} (h : front ++ toString m ++ "Model" = front ++ toString n ++ "Model") :
    m = n := by
  have chars := congrArg String.toList h
  simp only [String.toList_append, List.append_left_inj, List.append_right_inj] at chars
  rw [Nat.toString_eq_repr, Nat.toString_eq_repr, Nat.toList_repr, Nat.toList_repr] at chars
  rw [← Nat.ofDigitChars_ten_toDigits (n := m), chars, Nat.ofDigitChars_ten_toDigits]

theorem numberedName_cases (models : List Model) (stem base : String) (tries n : Nat) :
    (∃ k : Nat, n ≤ k ∧ numberedName models stem base tries n = stem ++ base ++ toString k ++ "Model" ∧
      isTaken models (stem ++ base ++ toString k ++ "Model") = false ∧
      ∀ j, n ≤ j → j < k → isTaken models (stem ++ base ++ toString j ++ "Model") = true) ∨
      ∀ k ∈ List.range' n tries, isTaken models (stem ++ base ++ toString k ++ "Model") = true := by
  induction tries generalizing n with
  | zero =>
    right
    intro k mem
    cases mem
  | succ tries ih =>
    unfold numberedName
    dsimp only
    by_cases taken : isTaken models (stem ++ base ++ toString n ++ "Model") = true
    · rw [if_pos taken]
      rcases ih (n + 1) with ⟨k, later, named, free, before⟩ | all
      · refine .inl ⟨k, Nat.le_of_succ_le later, named, free, fun j atLeast below => ?_⟩
        rcases Nat.eq_or_lt_of_le atLeast with rfl | after
        · exact taken
        · exact before j after below
      · right
        intro k mem
        rw [List.range'_succ] at mem
        rcases List.mem_cons.mp mem with rfl | mem
        · exact taken
        · exact all k mem
    · rw [if_neg taken]
      refine .inl ⟨n, Nat.le_refl n, rfl, Bool.eq_false_iff.mpr taken, fun j atLeast below => ?_⟩
      exact (Nat.lt_irrefl _ (Nat.lt_of_le_of_lt atLeast below)).elim

theorem numberedName_free {models : List Model} (stem base : String) {tries : Nat} (enough : models.length < tries)
    (n : Nat) : ∃ k : Nat, n ≤ k ∧ numberedName models stem base tries n = stem ++ base ++ toString k ++ "Model" ∧
      isTaken models (stem ++ base ++ toString k ++ "Model") = false ∧
      ∀ j, n ≤ j → j < k → isTaken models (stem ++ base ++ toString j ++ "Model") = true := by
  rcases numberedName_cases models stem base tries n with found | all
  · exact found
  · exfalso
    have distinct : ((List.range' n tries).map fun k => stem ++ base ++ toString k ++ "Model").Nodup :=
      List.Nodup.map (fun _ _ => numbered_inj) List.nodup_range'
    have within : ((List.range' n tries).map fun k => stem ++ base ++ toString k ++ "Model") ⊆ models.map (·.name) := by
      intro name mem
      obtain ⟨k, inside, rfl⟩ := List.mem_map.mp mem
      exact isTaken_eq_true.mp (all k inside)
    have bound := (List.subperm_of_subset distinct within).length_le
    rw [List.length_map, List.length_range', List.length_map] at bound
    omega

/-- The names that the model of a block may have, in the order they are tried. -/
def candidate (parent tag : String) : Nat → String
  | 0 => upperCamel tag ++ "Model"
  | 1 => dropModel parent ++ upperCamel tag ++ "Model"
  | k + 2 => dropModel parent ++ upperCamel tag ++ toString (k + 2) ++ "Model"

theorem nestedName_eq_candidate (models : List Model) (parent tag : String) :
    ∃ k, nestedName models parent tag = candidate parent tag k ∧
      candidate parent tag k ∉ models.map (·.name) ∧ ∀ j < k, candidate parent tag j ∈ models.map (·.name) := by
  simp only [← isTaken_eq_true, Bool.not_eq_true]
  unfold nestedName
  dsimp only
  by_cases plain : isTaken models (upperCamel tag ++ "Model") = true
  · rw [if_neg (by rw [plain]; decide)]
    by_cases withStem : isTaken models (dropModel parent ++ upperCamel tag ++ "Model") = true
    · rw [if_neg (by rw [withStem]; decide)]
      obtain ⟨k, atLeast, named, free, before⟩ :=
        numberedName_free (dropModel parent) (upperCamel tag) (Nat.lt_succ_self models.length) 2
      obtain ⟨k, rfl⟩ := Nat.exists_eq_add_of_le' atLeast
      refine ⟨k + 2, named, free, fun j below => ?_⟩
      match j with
      | 0 => exact plain
      | 1 => exact withStem
      | j + 2 => exact before (j + 2) (Nat.le_add_left 2 j) below
    · rw [if_pos (by rw [Bool.eq_false_iff.mpr withStem]; rfl)]
      refine ⟨1, rfl, Bool.eq_false_iff.mpr withStem, fun j below => ?_⟩
      obtain rfl := Nat.lt_one_iff.mp below
      exact plain
  · rw [if_pos (by rw [Bool.eq_false_iff.mpr plain]; rfl)]
    exact ⟨0, rfl, Bool.eq_false_iff.mpr plain, fun j below => (Nat.not_lt_zero j below).elim⟩

theorem isModelName_candidate {parent tag : String} (name : IsModelName parent) (tagged : IsTag tag) (k : Nat) :
    IsModelName (candidate parent tag k) := by
  have base := isAsciiName_upperCamel tagged
  have noChars : ∀ d ∈ ([] : Chars), (isAscii d && isIdentContinue d) = true := by
    intro d mem
    cases mem
  match k with
  | 0 =>
    constructor
    · rw [candidate, String.toList_append]
      exact base.append modelSuffix_chars
    · rw [candidate, String.toList_append]
      exact List.suffix_append _ _
  | 1 =>
    refine isModelName_append name base noChars ?_
    simp only [candidate, String.toList_append, List.append_nil]
  | k + 2 =>
    refine isModelName_append name base (number_chars (k + 2)) ?_
    simp only [candidate, String.toList_append]

theorem scalarType_isTypeName (kind : Option ValueKind) : IsTypeName ((kind.bind ValueKind.scalarType).getD "String") ∧
    ¬"Model".toList <:+ ((kind.bind ValueKind.scalarType).getD "String").toList := by
  have name {n : String} (known : n ∈ ["String", "i64", "f64", "bool"]) :
      IsTypeName n ∧ ¬"Model".toList <:+ n.toList := by
    simp only [List.mem_cons, List.not_mem_nil, or_false] at known
    rcases known with rfl | rfl | rfl | rfl <;> exact ⟨⟨by decide, by decide⟩, by decide⟩
  refine name ?_
  rcases kind with _ | kind
  · decide
  · cases kind <;> decide

theorem plainType_cases (kind : ValueKind) (elem : Option ValueKind) :
    ∃ n, IsTypeName n ∧ ¬"Model".toList <:+ n.toList ∧
      ((kind.isSequence = true ∧ plainType kind elem = "Vec<" ++ n ++ ">") ∨
        (kind.isSequence = false ∧
          (plainType kind elem = "HashMap<String, " ++ n ++ ">" ∨ plainType kind elem = n))) := by
  obtain ⟨inner, noModel⟩ := scalarType_isTypeName elem
  obtain ⟨own, noModel'⟩ := scalarType_isTypeName (some kind)
  unfold plainType
  dsimp only
  by_cases row : kind.isSequence = true
  · rw [if_pos row]
    exact ⟨_, inner, noModel, .inl ⟨row, rfl⟩⟩
  · rw [if_neg row]
    by_cases map : kind = .map
    · rw [if_pos map]
      exact ⟨_, inner, noModel, .inr ⟨Bool.eq_false_iff.mpr row, .inl rfl⟩⟩
    · rw [if_neg map]
      exact ⟨_, own, noModel', .inr ⟨Bool.eq_false_iff.mpr row, .inr rfl⟩⟩

mutual
/-- Every tag of the attribute and below is one that schemas write, and no two in one block are the same. -/
def WellTagged : SchemaField → Prop
  | .plain info _ => IsTag info.tag
  | .block info nested => IsTag info.tag ∧ (nested.map (·.info.tag)).Nodup ∧ EachWellTagged nested

def EachWellTagged : List SchemaField → Prop
  | [] => True
  | f :: fs => WellTagged f ∧ EachWellTagged fs
end

mutual
/-- A field of a model stands for an attribute: a block has a model of its own among the models. -/
def IsFieldOf (ms : List Model) : SchemaField → ModelField → Prop
  | .plain info elem, mf => mf = modelField info (plainType info.kind elem)
  | .block info nested, mf => ∃ m ∈ ms, mf = modelField info (blockType info.kind m.name) ∧ AreFieldsOf ms nested m.fields

def AreFieldsOf (ms : List Model) : List SchemaField → List ModelField → Prop
  | [], mfs => mfs = []
  | f :: fs, mfs => ∃ mf rest, mfs = mf :: rest ∧ IsFieldOf ms f mf ∧ AreFieldsOf ms fs rest
end

mutual
theorem IsFieldOf.mono {ms ms' : List Model} (more : ms ⊆ ms') :
    (f : SchemaField) → {mf : ModelField} → IsFieldOf ms f mf → IsFieldOf ms' f mf
  | .plain _ _, _, h => h
  | .block _ nested, _, h => by
    obtain ⟨m, mem, same, fields⟩ := h
    exact ⟨m, more mem, same, AreFieldsOf.mono more nested fields⟩

theorem AreFieldsOf.mono {ms ms' : List Model} (more : ms ⊆ ms') :
    (fs : List SchemaField) → {mfs : List ModelField} → AreFieldsOf ms fs mfs → AreFieldsOf ms' fs mfs
  | [], _, h => h
  | f :: fs, _, h => by
    obtain ⟨mf, rest, same, first, later⟩ := h
    exact ⟨mf, rest, same, IsFieldOf.mono more f first, AreFieldsOf.mono more fs later⟩
end

mutual
/-- The tags of an attribute and of all that its blocks hold. -/
def tagsOf : SchemaField → List String
  | .plain info _ => [info.tag]
  | .block info nested => info.tag :: allTags nested

def allTags : List SchemaField → List String
  | [] => []
  | f :: fs => tagsOf f ++ allTags fs
end

mutual
theorem WellTagged.isTag_of_mem {tag : String} : (f : SchemaField) → WellTagged f → tag ∈ tagsOf f → IsTag tag
  | .plain info elem, h, mem => by
    rw [tagsOf, List.mem_singleton] at mem
    subst mem
    exact h
  | .block info nested, h, mem => by
    rw [tagsOf] at mem
    rcases List.mem_cons.mp mem with rfl | mem
    · exact h.1
    · exact EachWellTagged.isTag_of_mem nested h.2.2 mem

theorem EachWellTagged.isTag_of_mem {tag : String} : (fs : List SchemaField) → EachWellTagged fs → tag ∈ allTags fs →
    IsTag tag
  | f :: fs, h, mem => by
    rw [allTags] at mem
    rcases List.mem_append.mp mem with mem | mem
    · exact WellTagged.isTag_of_mem f h.1 mem
    · exact EachWellTagged.isTag_of_mem fs h.2 mem
end

/-- Models with names of their own. -/
structure Distinct (ms : List Model) : Prop where
  nodup : (ms.map (·.name)).Nodup
  named : ∀ m ∈ ms, IsModelName m.name

/-- A model that holds the fields of a block, with a name of a kind. -/
structure IsDerived (named : String → Prop) (ms : List Model) (m : Model) : Prop where
  named : named m.name
  derived : m.declared = false
  fields : ∃ fs, AreFieldsOf ms fs m.fields

theorem IsDerived.mono {named : String → Prop} {ms ms' : List Model} (more : ms ⊆ ms') {m : Model}
    (h : IsDerived named ms m) : IsDerived named ms' m := by
  obtain ⟨fs, fields⟩ := h.fields
  exact ⟨h.named, h.derived, fs, fields.mono more fs⟩

/-- What is added to the models: the models of blocks, which the fields that are answered lead to. -/
structure Adds (named : String → Prop) {α β : Type} (spec : List Model → α → β → Prop) (models : List Model) (a : α)
    (answer : β × List Model) (added : List Model) : Prop where
  extends_ : answer.2 = models ++ added
  nodup : ((models ++ added).map (·.name)).Nodup
  derived : ∀ m ∈ added, IsDerived named added m
  fields : spec added a answer.1

theorem Adds.nothing {named : String → Prop} {α β : Type} {spec : List Model → α → β → Prop} {models : List Model} {a : α}
    {answer : β} (nodup : (models.map (·.name)).Nodup) (fields : spec [] a answer) :
    Adds named spec models a (answer, models) [] where
  extends_ := (List.append_nil _).symm
  nodup := by rwa [List.append_nil]
  derived m mem := by cases mem
  fields := fields

theorem nodup_concat {ms : List Model} (h : (ms.map (·.name)).Nodup) {m : Model} (free : m.name ∉ ms.map (·.name)) :
    ((ms ++ [m]).map (·.name)).Nodup := by
  rw [List.map_append, List.nodup_append]
  refine ⟨h, List.nodup_singleton _, ?_⟩
  rintro x mem y last rfl
  obtain rfl : x = m.name := List.mem_singleton.mp last
  exact free mem

theorem addFields_cons (name : String) (models : List Model) (f : SchemaField) (fs : List SchemaField) :
    addFields name models (f :: fs) =
      ((addField name models f).1 :: (addFields name (addField name models f).2 fs).1,
        (addFields name (addField name models f).2 fs).2) := rfl

theorem addField_block {name n : String} {models : List Model} {info : AttributeInfo} (nested : List SchemaField)
    (named : nestedName models name info.tag = n) : addField name models (.block info nested) =
      (modelField info (blockType info.kind n), (addFields n (models ++ [⟨n, [], false⟩]) nested).2.set models.length
        ⟨n, (addFields n (models ++ [⟨n, [], false⟩]) nested).1, false⟩) := by
  subst named
  rfl

/-- Blocks with tags of a kind take over what is told of the name of the model above. -/
def Keeps (named tagged : String → Prop) : Prop :=
  ∀ parent tag k, named parent → tagged tag → named (candidate parent tag k)

mutual
theorem addFields_adds {named tagged : String → Prop} (kept : Keeps named tagged) (name : String) (isNamed : named name) :
    (fs : List SchemaField) → (∀ tag ∈ allTags fs, tagged tag) → (models : List Model) → (models.map (·.name)).Nodup →
      ∃ added, Adds named AreFieldsOf models fs (addFields name models fs) added
  | [], _, models, nodup => ⟨[], .nothing nodup rfl⟩
  | f :: fs, tags, models, nodup => by
    rw [allTags, List.forall_mem_append] at tags
    obtain ⟨added, first⟩ := addField_adds kept name isNamed f tags.1 models nodup
    obtain ⟨added', later⟩ := addFields_adds kept name isNamed fs tags.2 (models ++ added) first.nodup
    have left : added ⊆ added ++ added' := List.subset_append_left _ _
    have right : added' ⊆ added ++ added' := List.subset_append_right _ _
    refine ⟨added ++ added', ?_, ?_, ?_, ?_⟩
    · rw [addFields_cons, first.extends_, later.extends_, List.append_assoc]
    · rw [← List.append_assoc]
      exact later.nodup
    · exact List.forall_mem_append.mpr
        ⟨fun m mem => (first.derived m mem).mono left, fun m mem => (later.derived m mem).mono right⟩
    · rw [addFields_cons, first.extends_]
      exact ⟨_, _, rfl, first.fields.mono left f, later.fields.mono right fs⟩

theorem addField_adds {named tagged : String → Prop} (kept : Keeps named tagged) (name : String) (isNamed : named name) :
    (f : SchemaField) → (∀ tag ∈ tagsOf f, tagged tag) → (models : List Model) → (models.map (·.name)).Nodup →
      ∃ added, Adds named IsFieldOf models f (addField name models f) added
  | .plain info elem, _, models, nodup => ⟨[], .nothing nodup rfl⟩
  | .block info nested, tags, models, nodup => by
    rw [tagsOf, List.forall_mem_cons] at tags
    obtain ⟨k, chosen, free, -⟩ := nestedName_eq_candidate models name info.tag
    have nestedNamed := kept name info.tag k isNamed tags.1
    generalize candidate name info.tag k = n at chosen free nestedNamed
    obtain ⟨added, inner⟩ := addFields_adds kept n nestedNamed nested tags.2 (models ++ [⟨n, [], false⟩])
      (nodup_concat nodup free)
    rw [addField_block nested chosen]
    generalize addFields n (models ++ [⟨n, [], false⟩]) nested = answer at inner
    obtain ⟨fields, after⟩ := answer
    obtain rfl : after = models ++ [(⟨n, [], false⟩ : Model)] ++ added := inner.extends_
    have filled : (models ++ [(⟨n, [], false⟩ : Model)] ++ added).set models.length ⟨n, fields, false⟩ =
        models ++ (⟨n, fields, false⟩ : Model) :: added := by
      rw [List.append_assoc, List.set_append_right _ _ (Nat.le_refl _), Nat.sub_self]
      rfl
    have more : added ⊆ (⟨n, fields, false⟩ : Model) :: added := List.subset_cons_self _ _
    refine ⟨(⟨n, fields, false⟩ : Model) :: added, filled, ?_, ?_, ?_⟩
    · have nodup := inner.nodup
      simp only [List.map_append, List.map_cons, List.append_assoc, List.cons_append, List.nil_append] at nodup ⊢
      exact nodup
    · exact List.forall_mem_cons.mpr
        ⟨⟨nestedNamed, rfl, nested, inner.fields.mono more nested⟩, fun m mem => (inner.derived m mem).mono more⟩
    · exact ⟨_, List.mem_cons_self, rfl, inner.fields.mono more nested⟩
end

/-- The models of a schema have names of their own.  The top one holds the fields of the schema, the others those of
its blocks. -/
theorem models_derived {named tagged : String → Prop} (kept : Keeps named tagged) (top : String)
    (fields : List SchemaField) (isNamed : named top) (tags : ∀ tag ∈ allTags fields, tagged tag) :
    ∃ own added, models top fields = ⟨top, own, false⟩ :: added ∧ ((models top fields).map (·.name)).Nodup ∧
      (∀ m ∈ models top fields, IsDerived named (models top fields) m) ∧
        AreFieldsOf (models top fields) fields own := by
  obtain ⟨added, adds⟩ := addFields_adds kept top isNamed fields tags [⟨top, [], false⟩] (List.nodup_singleton _)
  generalize built : addFields top [⟨top, [], false⟩] fields = answer at adds
  obtain ⟨own, after⟩ := answer
  obtain rfl : after = [(⟨top, [], false⟩ : Model)] ++ added := adds.extends_
  have all : models top fields = ⟨top, own, false⟩ :: added := by
    rw [models, built]
    rfl
  have more : added ⊆ (⟨top, own, false⟩ : Model) :: added := List.subset_cons_self _ _
  have areFields := adds.fields.mono more fields
  rw [all]
  refine ⟨own, added, rfl, adds.nodup, ?_, areFields⟩
  exact List.forall_mem_cons.mpr
    ⟨⟨isNamed, rfl, fields, areFields⟩, fun m mem => (adds.derived m mem).mono more⟩

theorem models_spec {top : String} {fields : List SchemaField} (isName : IsModelName top)
    (tagged : EachWellTagged fields) : ∃ own added, models top fields = ⟨top, own, false⟩ :: added ∧
      Distinct (models top fields) ∧ AreFieldsOf (models top fields) fields own := by
  have kept : Keeps IsModelName IsTag := fun _ _ k name isTag => isModelName_candidate name isTag k
  obtain ⟨own, added, all, nodup, derived, areFields⟩ :=
    models_derived kept top fields isName fun _ mem => EachWellTagged.isTag_of_mem fields tagged mem
  exact ⟨own, added, all, ⟨nodup, fun m mem => (derived m mem).named⟩, areFields⟩

theorem get_of_mem {s : ModelSet} (nodup : (s.models.map (·.name)).Nodup) {m : Model} (mem : m ∈ s.models) :
    s.get m.name = some m :=
  find?_key_of_mem nodup mem

theorem Distinct.get {s : ModelSet} (distinct : Distinct s.models) {m : Model} (mem : m ∈ s.models) :
    s.get m.name = some m := get_of_mem distinct.nodup mem

theorem get_eq_none {s : ModelSet} (distinct : Distinct s.models) {name : String}
    (other : ¬"Model".toList <:+ name.toList) : s.get name = none := by
  unfold ModelSet.get
  rw [List.find?_eq_none]
  intro m mem same
  have named := beq_iff_eq.mp same
  exact other (named ▸ (distinct.named m mem).ends)

end Retype.Schema
