import Mathlib.Data.List.Perm.Subperm
import Retype.Proofs.Lookups
import Retype.Proofs.Persistence

/-! Maps that become literals of a model.  The model is found by the set of the keys, and its literal is made from the
pairs one by one: it names every field once, each with the value that the map has for its tag, only if no key stands
twice. -/

namespace Retype

/-- The tags of the model are the keys, all of them and no others. -/
def Model.TaggedBy (m : Model) (keys : List String) : Prop := ∀ key, key ∈ m.tags ↔ key ∈ keys

namespace ModelSet

theorem sameTags_iff {m : Model} {keys : List String} : sameTags m.tags keys = true ↔ m.TaggedBy keys := by
  rw [sameTags, Bool.and_eq_true, List.all_eq_true, List.all_eq_true]
  simp only [List.contains_iff_mem]
  exact ⟨fun h key => ⟨h.1 key, h.2 key⟩, fun h => ⟨fun key => (h key).mp, fun key => (h key).mpr⟩⟩

theorem mem_of_findByKeys {s : ModelSet} {keys : List String} {m : Model} (found : s.findByKeys keys = some m) :
    m ∈ s.models ∧ m.TaggedBy keys := by
  unfold findByKeys at found
  split at found
  · cases found
  · exact ⟨List.mem_of_find?_eq_some found, sameTags_iff.mp
      (List.find?_some (p := fun m : Model => sameTags m.tags keys) found)⟩

theorem findByKeys_of_mem {s : ModelSet} {keys : List String} (filled : keys ≠ []) {m : Model} (member : m ∈ s.models)
    (tagged : m.TaggedBy keys) : ∃ m, s.findByKeys keys = some m := by
  have some : (s.models.find? fun m => sameTags m.tags keys).isSome = true := by
    rw [List.find?_isSome]
    exact ⟨m, member, sameTags_iff.mpr tagged⟩
  rw [findByKeys, if_neg (List.isEmpty_iff.not.mpr filled)]
  exact Option.isSome_iff_exists.mp some

end ModelSet

namespace Rewrite
open Retype.Code Retype.Naming

/-- The key and the value of a pair whose first member is a text, parentheses around it aside. -/
def pair? (e : Tree) : Option (String × Tree) :=
  match e.stripParens.tuple? with
  | some [key, value] => (stringText key).map fun tag => (tag, value)
  | _ => none

/-- The value that a map made of pairs has for a key: of several the last. -/
def boundTo (pairs : List (String × Tree)) (key : String) : Option Tree :=
  (pairs.reverse.find? (·.1 == key)).map (·.2)

theorem isSome_boundTo {pairs : List (String × Tree)} {key : String} :
    (boundTo pairs key).isSome = true ↔ key ∈ pairs.map (·.1) := by
  rw [boundTo, Option.isSome_map, List.find?_isSome, List.mem_map]
  simp only [List.mem_reverse, beq_iff_eq]

theorem boundTo_of_mem {pairs : List (String × Tree)} (once : (pairs.map (·.1)).Nodup) {e : String × Tree}
    (mem : e ∈ pairs) : boundTo pairs e.1 = some e.2 := by
  have once' : (pairs.reverse.map (·.1)).Nodup := by
    rw [List.map_reverse]
    exact List.nodup_reverse.mpr once
  rw [boundTo, find?_key_of_mem once' (List.mem_reverse.mpr mem), Option.map_some]

/-- A literal of the model stands for a map of pairs: the keys are the tags of the model, and the literal names every
field once, with the value that the map has for its tag. -/
structure StandsFor (m : Model) (pairs : List (String × Tree)) (lit : Tree) : Prop where
  keys : m.TaggedBy (pairs.map (·.1))
  fields : ∃ fields, lit.structLit? = some ⟨pathOf (identifier m.name), fields⟩ ∧ (fields.map (·.1)).Nodup ∧
    (fields.map fun e => (e.1, some e.2)).Perm (m.fields.map fun f => (identifier f.name, boundTo pairs f.tag))

/-- The identifier of the field with a tag. -/
def memberFor (m : Model) (tag : String) : String := ((m.fieldByTag tag).map fun f => identifier f.name).getD ""

section Members
variable {m : Model} {entries pairs : List (String × Tree)}

theorem memberFor_of_mem (distinct : m.tags.Nodup) {f : ModelField} (own : f ∈ m.fields) :
    memberFor m f.tag = identifier f.name := by
  have found : m.fieldByTag f.tag = some f := find?_key_of_mem distinct own
  rw [memberFor, found, Option.map_some, Option.getD_some]

theorem structLit?_literalOf (name : String) (fields : List (String × Tree)) :
    (literalOf name (fields.map fun e => fieldValueOf e.1 e.2)).structLit? = some ⟨pathOf name, fields⟩ := by
  have read : (commaList (fields.map fun e => fieldValueOf e.1 e.2)).filterMap fieldValue? = fields := by
    rw [filterMap_commaList rfl, List.filterMap_map]
    exact List.filterMap_some
  rw [literalOf, Tree.structLit?, read]

theorem structLit?_of_mapM {fields : Trees} (made : entries.mapM (fun (tag, value) =>
      (m.fieldByTag tag).map fun f => fieldValueOf (identifier f.name) value) = some fields) (name : String) :
    (literalOf name fields).structLit? = some ⟨pathOf name, entries.map fun e => (memberFor m e.1, e.2)⟩ := by
  have each : fields = (entries.map fun e => (memberFor m e.1, e.2)).map fun e => fieldValueOf e.1 e.2 := by
    induction entries generalizing fields with
    | nil =>
      cases made
      rfl
    | cons e entries ih =>
      obtain ⟨tag, value⟩ := e
      rw [List.mapM_cons] at made
      obtain ⟨first, own, made⟩ := Option.bind_eq_some_iff.mp made
      obtain ⟨rest, later, made⟩ := Option.bind_eq_some_iff.mp made
      cases made
      obtain ⟨f, found, rfl⟩ := Option.map_eq_some_iff.mp own
      rw [List.map_cons, List.map_cons, ← ih later, memberFor, found, Option.map_some, Option.getD_some]
  rw [each, structLit?_literalOf]

theorem perm_members (distinct : m.tags.Nodup) (tagged : m.TaggedBy (entries.map (·.1)))
    (once : (entries.map (·.1)).Nodup) : (entries.map fun e => (memberFor m e.1, some e.2)).Perm
      (m.fields.map fun f => (identifier f.name, boundTo entries f.tag)) := by
  let member (tag : String) : String × Option Tree := (memberFor m tag, boundTo entries tag)
  have keys : (entries.map (·.1)).Perm m.tags :=
    (List.perm_ext_iff_of_nodup once distinct).mpr fun key => (tagged key).symm
  have ofEntries : (entries.map fun e => (memberFor m e.1, some e.2)) = (entries.map (·.1)).map member := by
    rw [List.map_map]
    refine List.map_congr_left fun e mem => ?_
    exact congrArg (Prod.mk _) (boundTo_of_mem once mem).symm
  have ofFields : (m.fields.map fun f => (identifier f.name, boundTo entries f.tag)) = m.tags.map member := by
    rw [Model.tags, List.map_map]
    refine List.map_congr_left fun f own => ?_
    show _ = (memberFor m f.tag, boundTo entries f.tag)
    rw [memberFor_of_mem distinct own]
  rw [ofEntries, ofFields]
  exact keys.map member

theorem nodup_keys_of_length (distinct : m.tags.Nodup) (tagged : m.TaggedBy (entries.map (·.1)))
    (length : entries.length = m.fields.length) : (entries.map (·.1)).Nodup := by
  have subset : m.tags ⊆ entries.map (·.1) := fun key mem => (tagged key).mp mem
  have few : (entries.map (·.1)).length ≤ m.tags.length := by
    rw [List.length_map, Model.tags, List.length_map]
    exact Nat.le_of_eq length
  exact ((List.subperm_of_subset distinct subset).perm_of_length_le few).nodup_iff.mp distinct

/-- What is made of the pairs of a map that a model has the keys of stands for a map exactly if no key stands twice, the
fields have different identifiers, and the pairs bind what the map does. -/
theorem standsFor_iff {fields : Trees} (distinct : m.tags.Nodup) (tagged : m.TaggedBy (entries.map (·.1)))
    (made : entries.mapM (fun (tag, value) =>
      (m.fieldByTag tag).map fun f => fieldValueOf (identifier f.name) value) = some fields) :
    StandsFor m pairs (literalOf (identifier m.name) fields) ↔ (entries.map (·.1)).Nodup ∧
      (m.fields.map fun f => identifier f.name).Nodup ∧ ∀ key, boundTo pairs key = boundTo entries key := by
  have read := structLit?_of_mapM made (identifier m.name)
  constructor
  · rintro ⟨keys, given, read', named, perm⟩
    rw [read] at read'
    cases read'
    rw [List.map_map] at perm
    have once : (entries.map (·.1)).Nodup := by
      refine nodup_keys_of_length distinct tagged ?_
      simpa only [List.length_map] using perm.length_eq
    have names : (m.fields.map fun f => identifier f.name).Nodup := by
      have same := perm.map Prod.fst
      simp only [List.map_map, Function.comp_def] at same named
      exact same.nodup_iff.mp named
    refine ⟨once, names, fun key => ?_⟩
    by_cases own : key ∈ m.tags
    · obtain ⟨f, member, rfl⟩ := List.mem_map.mp own
      have both := perm.symm.trans (perm_members distinct tagged once)
      have mem := both.mem_iff.mp (List.mem_map_of_mem member)
      obtain ⟨g, member', same⟩ := List.mem_map.mp mem
      obtain ⟨sameName, sameValue⟩ := Prod.mk.inj same
      obtain rfl := List.inj_on_of_nodup_map names member' member sameName
      exact sameValue.symm
    · have free : ∀ {ps : List (String × Tree)}, m.TaggedBy (ps.map (·.1)) → boundTo ps key = none := by
        intro ps tagged
        rw [← Option.not_isSome_iff_eq_none, isSome_boundTo, ← tagged key]
        exact own
      rw [free keys, free tagged]
  · rintro ⟨once, names, same⟩
    have perm := perm_members distinct tagged once
    refine ⟨fun key => ?_, _, read, ?_, ?_⟩
    · rw [tagged key, ← isSome_boundTo, ← isSome_boundTo, same]
    · have firsts := perm.map Prod.fst
      simp only [List.map_map, Function.comp_def] at firsts ⊢
      exact firsts.nodup_iff.mpr names
    · rw [List.map_map]
      simp only [same]
      exact perm

end Members

/-- A call of a map constructor with the elements of an array. -/
def MapCall (t : Tree) (elems : Trees) : Prop :=
  ∃ path arg, t.callPath? = some (path, [arg]) ∧ isMapConstructor path = true ∧ arg.array? = some elems

section Calls
variable {c : Context} {t : Tree} {elems : Trees}

theorem MapCall.run_eq (call : MapCall t elems) (s : State) :
    (compositeLiteral c t).run s = (literal? c elems, s) := by
  obtain ⟨path, arg, called, constructor, array⟩ := call
  obtain ⟨k, parts, rfl⟩ : ∃ k parts, t = .node (.expr k) parts := by
    cases t with
    | leaf token => cases called
    | group d body => cases called
    | node k parts =>
      cases k with
      | expr k => exact ⟨k, parts, rfl⟩
      | _ => cases called
  unfold compositeLiteral
  simp only [called, array, constructor, if_true]
  rfl

theorem modelLiteral_of_taggedBy {m : Model} {entries : List (String × Tree)}
    (tagged : m.TaggedBy (entries.map (·.1))) : ∃ u, modelLiteral m entries = some u := by
  rw [← Option.isSome_iff_exists, modelLiteral_isSome, List.all_eq_true]
  intro tag mem
  obtain ⟨f, own, rfl⟩ := List.mem_map.mp ((tagged tag).mpr mem)
  exact List.find?_isSome.mpr ⟨f, own, beq_self_eq_true f.tag⟩

/-- A map becomes a literal exactly if it has keys and some model has them for its tags; it is a literal of such a
model. -/
theorem literal?_cases (c : Context) (elems : Trees) :
    (literal? c elems = none ∧ ((literalEntries elems).map (·.1) = [] ∨
      ∀ m ∈ c.models.models, ¬m.TaggedBy ((literalEntries elems).map (·.1)))) ∨
    ∃ m ∈ c.models.models, m.TaggedBy ((literalEntries elems).map (·.1)) ∧ ∃ fields,
      (literalEntries elems).mapM (fun (tag, value) =>
        (m.fieldByTag tag).map fun f => fieldValueOf (identifier f.name) value) = some fields ∧
      literal? c elems = some (literalOf (identifier m.name) fields) := by
  cases found : c.models.findByKeys ((literalEntries elems).map (·.1)) with
  | none =>
    refine .inl ⟨by rw [literal?, found, Option.bind_none], ?_⟩
    refine or_iff_not_imp_left.mpr fun filled m member tagged => ?_
    obtain ⟨m, found'⟩ := ModelSet.findByKeys_of_mem filled member tagged
    rw [found] at found'
    cases found'
  | some m =>
    obtain ⟨member, tagged⟩ := ModelSet.mem_of_findByKeys found
    obtain ⟨u, made⟩ := modelLiteral_of_taggedBy tagged
    have becomes : literal? c elems = some u := by rw [literal?, found, Option.bind_some, made]
    obtain ⟨m', fields, found', each, rfl⟩ := literal?_eq_some becomes
    obtain rfl : m = m' := Option.some.inj (found.symm.trans found')
    exact .inr ⟨m, member, tagged, fields, each, becomes⟩

/-- A call that makes a map is left as it is if no model has its keys for tags; otherwise it becomes a literal of such a
model, which names a field for each pair.  This stands for the map exactly if no key stands twice, the fields have
different identifiers, and no pair in parentheses binds anything else. -/
theorem literals_stand_for_maps_iff (distinct : ∀ m ∈ c.models.models, m.tags.Nodup) (call : MapCall t elems)
    (s : State) :
    ((∀ m ∈ c.models.models, ¬m.TaggedBy ((literalEntries elems).map (·.1))) →
      (compositeLiteral c t).run s = (none, s)) ∧
    ((∃ m ∈ c.models.models, m.TaggedBy ((literalEntries elems).map (·.1))) → literalEntries elems ≠ [] →
      ∃ u, (compositeLiteral c t).run s = (some u, s)) ∧
    ∀ u s', (compositeLiteral c t).run s = (some u, s') → s' = s ∧
      ∃ m ∈ c.models.models, m.TaggedBy ((literalEntries elems).map (·.1)) ∧
        u.structLit? = some ⟨pathOf (identifier m.name), (literalEntries elems).map fun e => (memberFor m e.1, e.2)⟩ ∧
        (StandsFor m (elems.filterMap pair?) u ↔ ((literalEntries elems).map (·.1)).Nodup ∧
          (m.fields.map fun f => identifier f.name).Nodup ∧
          ∀ key, boundTo (elems.filterMap pair?) key = boundTo (literalEntries elems) key) := by
  rw [call.run_eq]
  rcases literal?_cases c elems with ⟨none, nothing⟩ | ⟨m, member, tagged, fields, made, becomes⟩
  · rw [none]
    refine ⟨fun _ => rfl, fun ⟨m, member, tagged⟩ filled => ?_, fun u s' made => ?_⟩
    · rcases nothing with empty | free
      · exact (filled (List.map_eq_nil_iff.mp empty)).elim
      · exact (free m member tagged).elim
    · cases made
  · rw [becomes]
    refine ⟨fun free => (free m member tagged).elim, fun _ _ => ⟨_, rfl⟩, fun u s' same => ?_⟩
    cases same
    exact ⟨rfl, m, member, tagged, structLit?_of_mapM made _, standsFor_iff (distinct m member) tagged made⟩

end Calls

def skuModel : Model := ⟨"SkuModel", [⟨"name", "String", "name"⟩, ⟨"capacity", "i64", "capacity"⟩], false⟩

def skuContext : Context := Context.make {} ⟨"SkuModel", [skuModel]⟩ [] "" ⟨"expand", .helper, "model", none⟩

/-- `HashMap::from([…])` -/
def mapFrom (elems : Trees) : Tree := callOf (exprOf (pathOfNames ["HashMap", "from"])) [arrayOf elems]

theorem mapCall_mapFrom {elems : Trees} (noCommas : ∀ e ∈ elems, e.isOp "," = false) : MapCall (mapFrom elems) elems :=
  ⟨"HashMap::from", arrayOf elems, by rfl, by decide, congrArg some (members_commaList noCommas)⟩

def skuPairs : Trees := [tupleOf [stringExpr "name", var "a"], tupleOf [stringExpr "capacity", var "b"]]

/-- With another value for the name. -/
def skuPairsTwice : Trees := skuPairs ++ [tupleOf [stringExpr "name", var "c"]]

theorem literals_stand_for_maps_iff_sku : (∀ m ∈ skuContext.models.models, m.tags.Nodup) ∧
    MapCall (mapFrom skuPairs) skuPairs ∧ MapCall (mapFrom skuPairsTwice) skuPairsTwice ∧
    (∃ u, (compositeLiteral skuContext (mapFrom skuPairs)).run {} = (some u, {}) ∧
      StandsFor skuModel (skuPairs.filterMap pair?) u) ∧
    ∃ u, (compositeLiteral skuContext (mapFrom skuPairsTwice)).run {} = (some u, {}) ∧
      ¬StandsFor skuModel (skuPairsTwice.filterMap pair?) u := by
  have distinct : ∀ m ∈ skuContext.models.models, m.tags.Nodup := by decide
  have call : MapCall (mapFrom skuPairs) skuPairs := mapCall_mapFrom (by decide)
  have call' : MapCall (mapFrom skuPairsTwice) skuPairsTwice := mapCall_mapFrom (by decide)
  have keys : (literalEntries skuPairs).map (·.1) = ["name", "capacity"] := by decide +kernel
  have keys' : (literalEntries skuPairsTwice).map (·.1) = ["name", "capacity", "name"] := by decide +kernel
  have filled : literalEntries skuPairs ≠ [] := fun empty => by
    rw [empty] at keys
    cases keys
  have filled' : literalEntries skuPairsTwice ≠ [] := fun empty => by
    rw [empty] at keys'
    cases keys'
  obtain ⟨-, become, right⟩ := literals_stand_for_maps_iff distinct call {}
  obtain ⟨-, become', right'⟩ := literals_stand_for_maps_iff distinct call' {}
  rw [keys] at become right
  rw [keys'] at become' right'
  obtain ⟨u, made⟩ := become ⟨skuModel, List.mem_singleton_self _, ModelSet.sameTags_iff.mp (by decide)⟩ filled
  obtain ⟨u', made'⟩ := become' ⟨skuModel, List.mem_singleton_self _, ModelSet.sameTags_iff.mp (by decide)⟩ filled'
  obtain ⟨-, m, member, -, -, stands⟩ := right u {} made
  obtain ⟨-, m', member', -, -, stands'⟩ := right' u' {} made'
  obtain rfl := List.mem_singleton.mp member
  obtain rfl := List.mem_singleton.mp member'
  have bare : skuPairs.filterMap pair? = literalEntries skuPairs := rfl
  refine ⟨distinct, call, call', ⟨u, made, stands.mpr ⟨by decide, by decide, fun key => by rw [bare]⟩⟩, u', made', ?_⟩
  exact fun stands => absurd (stands'.mp stands).1 (by decide)

end Rewrite
end Retype
