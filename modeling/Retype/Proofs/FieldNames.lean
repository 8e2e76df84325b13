import Retype.Proofs.Assembly
import Retype.Proofs.SchemaModels
import Retype.Proofs.Variables

/-! The fields of derived models.  A field is called after its tag, in lower case and with `_` for what is neither a
letter nor a digit.  So the tags of a block give distinct fields exactly if no two of them are alike in that, and a
field has a name that fields can have exactly if its tag does not come to one of four words. -/

namespace Retype.Naming
open Retype.Code Retype.Text
open Retype.Code.Lexer (IsAsciiName)

/-- The character that stands for one of a tag. -/
def folded (c : Char) : Char := if c.isAlphanum then c.toLower else '_'

/-- Both are the same letter or digit, case aside, or neither is a letter or a digit. -/
def AlikeChar (c d : Char) : Prop :=
  if c.isAlphanum then d.isAlphanum = true ∧ c.toLower = d.toLower else d.isAlphanum = false

/-- Tags that differ in case and in signs only, once a `_` stands in front of one that is empty or begins with a
digit. -/
def AlikeTags (a b : String) : Prop := List.Forall₂ AlikeChar (guardStart a.toList) (guardStart b.toList)

theorem toLower_of_isAlphanum {c : Char} (letter : c.isAlphanum = true) :
    c.toLower ≠ '_' ∧ c.toLower.isDigit = c.isDigit := by
  have low : ∀ n < 128, (Char.ofNat n).isAlphanum = true →
      (Char.ofNat n).toLower ≠ '_' ∧ (Char.ofNat n).toLower.isDigit = (Char.ofNat n).isDigit := by decide +kernel
  exact of_isAscii (p := fun c => c.isAlphanum = true → c.toLower ≠ '_' ∧ c.toLower.isDigit = c.isDigit) low
    (isAscii_of_isAlphanum letter) letter

theorem folded_eq_iff {c d : Char} : folded c = folded d ↔ AlikeChar c d := by
  unfold folded AlikeChar
  by_cases left : c.isAlphanum = true
  · rw [if_pos left, if_pos left]
    by_cases right : d.isAlphanum = true
    · rw [if_pos right, right]
      exact (and_iff_right rfl).symm
    · rw [if_neg right]
      exact iff_of_false (toLower_of_isAlphanum left).1 fun same => right same.1
  · rw [if_neg left, if_neg left]
    by_cases right : d.isAlphanum = true
    · rw [if_pos right, right]
      exact iff_of_false (toLower_of_isAlphanum right).1.symm Bool.true_eq_false_eq_False
    · rw [if_neg right]
      exact iff_of_true rfl (Bool.eq_false_iff.mpr right)

theorem isDigit_folded (c : Char) : (folded c).isDigit = c.isDigit := by
  unfold folded
  by_cases letter : c.isAlphanum = true
  · rw [if_pos letter, (toLower_of_isAlphanum letter).2]
  · have noDigit : c.isDigit = false := by
      rw [Bool.eq_false_iff]
      exact fun digit => letter (Bool.or_eq_true_iff.mpr (.inr digit))
    rw [if_neg letter, noDigit]
    rfl

theorem guardStart_map_folded (s : List Char) : guardStart (s.map folded) = (guardStart s).map folded := by
  cases s with
  | nil => rfl
  | cons c s =>
    rw [List.map_cons, guardStart, guardStart, isDigit_folded]
    split <;> rfl

theorem toList_fieldForTag (tag : String) : (fieldForTag tag).toList = (guardStart tag.toList).map folded := by
  rw [← guardStart_map_folded, fieldForTag, String.toList_ofList]
  rfl

theorem fieldForTag_eq_iff {a b : String} : fieldForTag a = fieldForTag b ↔ AlikeTags a b := by
  rw [← String.toList_inj, toList_fieldForTag, toList_fieldForTag, ← List.forall₂_eq_eq_eq, List.forall₂_map_left_iff,
    List.forall₂_map_right_iff]
  exact ⟨fun same => same.imp fun _ _ => folded_eq_iff.mp, fun alike => alike.imp fun _ _ => folded_eq_iff.mpr⟩

theorem identifier_fieldForTag_eq_iff {a b : String} :
    identifier (fieldForTag a) = identifier (fieldForTag b) ↔ AlikeTags a b := by
  rw [identifier_eq_iff, cleaned_of_isAsciiName (isAsciiName_fieldForTag a),
    cleaned_of_isAsciiName (isAsciiName_fieldForTag b), fieldForTag_eq_iff]

/-- A name that is no keyword, or a keyword in raw form if it has one. -/
inductive IsFieldName : String → Prop
  | plain {n : String} (name : IsAsciiName n.toList) (free : n ∉ Parser.keywords) : IsFieldName n
  | raw {k : String} (key : k ∈ keywords) (has : k ∉ scopeWords) : IsFieldName ("r#" ++ k)

/-- The names that a tag may come to and no field can have. -/
def unfitNames : List String := ["_", "crate", "self", "super"]

theorem fieldForTag_ne_Self (tag : String) : fieldForTag tag ≠ "Self" := by
  intro same
  have upper : 'S' ∈ (guardStart tag.toList).map folded := by
    rw [← toList_fieldForTag, same]
    decide
  obtain ⟨c, -, made⟩ := List.mem_map.mp upper
  unfold folded at made
  by_cases letter : c.isAlphanum = true
  · have low : ∀ n < 128, (Char.ofNat n).isAlphanum = true → (Char.ofNat n).toLower ≠ 'S' := by decide +kernel
    rw [if_pos letter] at made
    exact of_isAscii (p := fun c => c.isAlphanum = true → c.toLower ≠ 'S') low (isAscii_of_isAlphanum letter) letter made
  · rw [if_neg letter] at made
    exact absurd made (by decide)

theorem not_isFieldName_of_mem {n : String} (unfit : n ∈ unfitNames) : ¬IsFieldName n := by
  rintro (⟨-, free⟩ | ⟨key, -⟩)
  · have known : ∀ n ∈ unfitNames, n ∈ Parser.keywords := by decide
    exact free (known n unfit)
  · have unmarked : ∀ n ∈ unfitNames, '#' ∉ n.toList := by decide
    refine unmarked _ unfit ?_
    rw [String.toList_append]
    exact List.mem_append_left _ (by decide)

theorem isFieldName_identifier_iff (tag : String) :
    IsFieldName (identifier (fieldForTag tag)) ↔ fieldForTag tag ∉ unfitNames := by
  have name := isAsciiName_fieldForTag tag
  have noSelf := fieldForTag_ne_Self tag
  generalize fieldForTag tag = n at name noSelf
  rw [identifier_eq, cleaned_of_isAsciiName name]
  split
  · rename_i raw
    obtain ⟨key, has⟩ := Bool.and_eq_true_iff.mp raw
    have key : n ∈ keywords := List.contains_iff_mem.mp key
    have has : n ∉ scopeWords := fun mem => by
      rw [List.contains_iff_mem.mpr mem] at has
      cases has
    have fits : ∀ n ∈ keywords, n ∉ scopeWords → n ∉ unfitNames := by decide
    exact iff_of_true (.raw key has) (fits n key has)
  · rename_i plain
    constructor
    · exact fun isName unfit => not_isFieldName_of_mem unfit isName
    · refine fun fits => .plain name fun key => ?_
      have words : ∀ n ∈ Parser.keywords, n ≠ "Self" → n ∉ unfitNames →
          (keywords.contains n && !scopeWords.contains n) = true := by decide
      exact plain (words n key noSelf fits)

theorem isSome_parseIdent {n : String} (h : IsFieldName n) : (parseIdent n).isSome = true := by
  cases h with
  | plain name free =>
    rw [parseIdent, parseText, Lexer.lex_name name]
    change (Parser.eatIdent.all [word n]).isSome = true
    rw [Parser.all, Grammar.run_eatIdent free]
    rfl
  | raw key has =>
    have raw : ∀ k ∈ keywords, k ∉ scopeWords → (parseIdent ("r#" ++ k)).isSome = true := by decide +kernel
    exact raw _ key has

theorem parseIdent_identifier_iff (tag : String) :
    (parseIdent (identifier (fieldForTag tag))).isSome = true ↔ IsFieldName (identifier (fieldForTag tag)) := by
  constructor
  · intro read
    rw [isFieldName_identifier_iff]
    intro unfit
    have unread : ∀ n ∈ unfitNames, (parseIdent (identifier n)).isSome = false := by decide +kernel
    rw [unread _ unfit] at read
    cases read
  · exact isSome_parseIdent

end Retype.Naming

namespace Retype.Schema
open Retype.Code Retype.Naming

mutual
/-- The blocks of an attribute, each as its attributes, outer ones first. -/
def blocksOf : SchemaField → List (List SchemaField)
  | .plain _ _ => []
  | .block _ nested => nested :: blocksIn nested

def blocksIn : List SchemaField → List (List SchemaField)
  | [] => []
  | f :: fs => blocksOf f ++ blocksIn fs
end

/-- A field for each attribute of a block, in order, which keeps the tag and is called after it. -/
def CalledAfter (block : List SchemaField) (fs : List ModelField) : Prop :=
  fs.map (fun f => (f.name, f.tag)) = block.map fun a => (fieldForTag a.info.tag, a.info.tag)

mutual
theorem addFields_blocks (name : String) : (fs : List SchemaField) → (models : List Model) →
    CalledAfter fs (addFields name models fs).1 ∧ ∃ added, (addFields name models fs).2 = models ++ added ∧
      List.Forall₂ (fun block m => CalledAfter block m.fields) (blocksIn fs) added
  | [], models => ⟨rfl, [], (List.append_nil _).symm, .nil⟩
  | f :: fs, models => by
    obtain ⟨own, added, after, first⟩ := addField_blocks name f models
    obtain ⟨rest, added', after', later⟩ := addFields_blocks name fs (addField name models f).2
    rw [addFields_cons]
    refine ⟨?_, added ++ added', ?_, List.rel_append first later⟩
    · rw [CalledAfter, List.map_cons, List.map_cons, own, rest]
    · rw [after', after, List.append_assoc]

theorem addField_blocks (name : String) : (f : SchemaField) → (models : List Model) →
    ((addField name models f).1.name, (addField name models f).1.tag) = (fieldForTag f.info.tag, f.info.tag) ∧
      ∃ added, (addField name models f).2 = models ++ added ∧
        List.Forall₂ (fun block m => CalledAfter block m.fields) (blocksOf f) added
  | .plain info elem, models => ⟨rfl, [], (List.append_nil _).symm, .nil⟩
  | .block info nested, models => by
    obtain ⟨own, added, after, below⟩ := addFields_blocks (nestedName models name info.tag) nested
      (models ++ [⟨nestedName models name info.tag, [], false⟩])
    rw [addField_block nested rfl]
    refine ⟨rfl, ⟨nestedName models name info.tag, _, false⟩ :: added, ?_, .cons own below⟩
    -- the slot that was kept for the model is the one after those there were
    rw [after, List.append_assoc, List.set_append_right _ _ (Nat.le_refl _), Nat.sub_self]
    rfl
end

theorem models_blocks (top : String) (fields : List SchemaField) :
    List.Forall₂ (fun block m => CalledAfter block m.fields) (fields :: blocksIn fields) (models top fields) := by
  obtain ⟨own, added, after, below⟩ := addFields_blocks top fields [⟨top, [], false⟩]
  have all : models top fields = ⟨top, (addFields top [⟨top, [], false⟩] fields).1, false⟩ :: added := by
    change (addFields top [⟨top, [], false⟩] fields).2.set 0 _ = _
    rw [after]
    rfl
  rw [all]
  exact .cons own below

section Fields
variable {block : List SchemaField} {fs : List ModelField}

theorem CalledAfter.tags (called : CalledAfter block fs) : fs.map (·.tag) = block.map (·.info.tag) := by
  have tags := congrArg (List.map Prod.snd) called
  rwa [List.map_map, List.map_map] at tags

theorem CalledAfter.name (called : CalledAfter block fs) : ∀ f ∈ fs, f.name = fieldForTag f.tag := by
  intro f mem
  have pair : (f.name, f.tag) ∈ block.map fun a => (fieldForTag a.info.tag, a.info.tag) := by
    rw [← called]
    exact List.mem_map_of_mem mem
  obtain ⟨a, -, same⟩ := List.mem_map.mp pair
  obtain ⟨name, tag⟩ := Prod.mk.inj same
  rw [← name, tag]

theorem CalledAfter.identifiers (called : CalledAfter block fs) :
    fs.map (fun f => identifier f.name) = (block.map (·.info.tag)).map fun tag => identifier (fieldForTag tag) := by
  have names := congrArg (List.map fun p : String × String => identifier p.1) called
  simpa only [List.map_map, Function.comp_def] using names

theorem CalledAfter.nodup_iff (called : CalledAfter block fs) :
    (fs.map fun f => identifier f.name).Nodup ↔ (block.map (·.info.tag)).Pairwise fun a b => ¬AlikeTags a b := by
  rw [called.identifiers, List.Nodup, List.pairwise_map]
  have apart (a b : String) :
      identifier (fieldForTag a) ≠ identifier (fieldForTag b) ↔ ¬AlikeTags a b := identifier_fieldForTag_eq_iff.not
  exact ⟨fun h => h.imp fun ne => (apart _ _).mp ne, fun h => h.imp fun alike => (apart _ _).mpr alike⟩

end Fields

end Retype.Schema

namespace Retype
open Retype.Code Retype.Naming

theorem not_mem_scopeWords_of_structOf {m : Model} {t : Tree} (made : TypedFile.structOf m = .ok t) :
    ∀ f ∈ m.fields, identifier f.name ∉ scopeWords := by
  obtain ⟨fields, -, made⟩ := bind_eq_ok.mp made
  split at made
  · cases made
  · rename_i none
    intro f mem word
    have clear := List.find?_eq_none.mp none (identifier f.name) (List.mem_map_of_mem mem)
    exact clear (List.contains_iff_mem.mpr word)

/-- Each block of a schema has a model, with a field for each of its tags.  The fields have identifiers of their own
exactly if no two tags are alike, and an identifier is a name that fields can have, and is read as an identifier,
exactly if what its tag comes to is none of four words; with one of them that is a keyword no struct is built at all.
So all is well with the fields of a block exactly if its tags are apart and come to no such word. -/
theorem fields_named_apart_iff (top : String) (fields : List SchemaField) :
    List.Forall₂ (fun block m =>
      m.fields.map (·.tag) = block.map (·.info.tag) ∧
      ((m.fields.map fun f => identifier f.name).Nodup ↔
        (block.map (·.info.tag)).Pairwise fun a b => ¬AlikeTags a b) ∧
      (∀ f ∈ m.fields, (IsFieldName (identifier f.name) ↔ fieldForTag f.tag ∉ unfitNames) ∧
        ((parseIdent (identifier f.name)).isSome = true ↔ IsFieldName (identifier f.name))) ∧
      ((∃ t, TypedFile.structOf m = .ok t) → ∀ f ∈ m.fields, fieldForTag f.tag ∉ scopeWords) ∧
      (((m.fields.map fun f => identifier f.name).Nodup ∧ ∀ f ∈ m.fields, IsFieldName (identifier f.name)) ↔
        (block.map (·.info.tag)).Pairwise (fun a b => ¬AlikeTags a b) ∧
          ∀ a ∈ block, fieldForTag a.info.tag ∉ unfitNames))
      (fields :: Schema.blocksIn fields) (Schema.models top fields) := by
  refine (Schema.models_blocks top fields).imp fun block m called => ?_
  have fits : ∀ f ∈ m.fields, (IsFieldName (identifier f.name) ↔ fieldForTag f.tag ∉ unfitNames) := by
    intro f mem
    rw [called.name f mem]
    exact isFieldName_identifier_iff f.tag
  refine ⟨called.tags, called.nodup_iff, fun f mem => ⟨fits f mem, ?_⟩, ?_, and_congr called.nodup_iff ?_⟩
  · rw [called.name f mem]
    exact parseIdent_identifier_iff f.tag
  · rintro ⟨t, made⟩ f mem word
    have clear := not_mem_scopeWords_of_structOf made f mem
    have kept : ∀ n ∈ scopeWords, identifier n ∈ scopeWords := by decide
    rw [called.name f mem] at clear
    exact clear (kept _ word)
  · have tags : (∀ f ∈ m.fields, fieldForTag f.tag ∉ unfitNames) ↔ ∀ a ∈ block, fieldForTag a.info.tag ∉ unfitNames := by
      have same := called.tags
      constructor
      · intro each a mem
        have listed : a.info.tag ∈ m.fields.map (·.tag) := same ▸ List.mem_map_of_mem mem
        obtain ⟨f, inside, tag⟩ := List.mem_map.mp listed
        exact tag ▸ each f inside
      · intro each f mem
        have listed : f.tag ∈ block.map (·.info.tag) := same ▸ List.mem_map_of_mem mem
        obtain ⟨a, inside, tag⟩ := List.mem_map.mp listed
        exact tag ▸ each a inside
    rw [← tags]
    exact forall₂_congr fits

/-- Two tags that differ in a sign only, and a tag that is a keyword without a raw form. -/
def clashingBlock : List SchemaField :=
  ["sku-name", "sku_name", "self"].map fun tag => .plain (Schema.blankInfo tag (var tag)) none

/-- Its first two fields have one identifier, and its last one has none that fields can have, so no struct is built. -/
theorem fields_named_apart_iff_clashing : ∃ m ∈ Schema.models "TagModel" clashingBlock,
    (clashingBlock.map (·.info.tag)).Nodup ∧ ¬(m.fields.map fun f => identifier f.name).Nodup ∧
    (∃ f ∈ m.fields, ¬IsFieldName (identifier f.name)) ∧ ∀ t, TypedFile.structOf m ≠ .ok t := by
  have all := fields_named_apart_iff "TagModel" clashingBlock
  generalize Schema.models "TagModel" clashingBlock = ms at all
  cases all with
  | @cons _ m _ ms first rest =>
    obtain ⟨tags, distinct, each, built, -⟩ := first
    have listed : "self" ∈ m.fields.map (·.tag) := by
      rw [tags]
      decide
    obtain ⟨f, mem, tag⟩ := List.mem_map.mp listed
    refine ⟨m, List.mem_cons_self, by decide, ?_, ⟨f, mem, ?_⟩, fun t made => ?_⟩
    · rw [distinct]
      intro apart
      have alike : AlikeTags "sku-name" "sku_name" := fieldForTag_eq_iff.mp (by decide)
      exact (List.pairwise_cons.mp apart).1 "sku_name" (by decide) alike
    · rw [(each f mem).1, tag]
      decide
    · have noWord := built ⟨t, made⟩ f mem
      rw [tag] at noWord
      exact noWord (by decide)

end Retype
