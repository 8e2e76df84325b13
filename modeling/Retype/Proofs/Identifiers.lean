import Retype.Naming
import Retype.Proofs.Words

/-! Identifiers for texts.  What cannot stand in an identifier is replaced and a keyword is made raw, so the identifier
of a text is the text itself exactly if the text is one already. -/

namespace Retype.Naming
open Retype.Code Retype.Text
open Retype.Code.Lexer (IsAsciiName)

theorem isKept_eq (c : Char) : (c.isAlphanum || c == '_') = (isAscii c && isIdentContinue c) := by
  by_cases ascii : isAscii c = true
  · rw [isIdentContinue, if_pos ascii, ascii, Bool.true_and]
  · have noLetter : c.isAlphanum = false := Bool.eq_false_iff.mpr fun letter => ascii (isAscii_of_isAlphanum letter)
    have noMark : (c == '_') = false := by
      rw [beq_eq_false_iff_ne]
      rintro rfl
      exact ascii (by decide)
    rw [noLetter, noMark, Bool.eq_false_iff.mpr ascii]
    rfl

theorem guardStart_of_isAsciiName {x : List Char} (name : IsAsciiName x) : guardStart x = x := by
  cases x with
  | nil => cases name.start
  | cons c x =>
    have digit : c.isDigit = false :=
      of_isAscii (p := fun c => isIdentStart c = true → c.isDigit = false) (by decide +kernel) name.first.1 name.first.2
    rw [guardStart, digit, if_neg Bool.false_ne_true]

theorem isAsciiName_guardStart {x : List Char} (chars : ∀ d ∈ x, (d.isAlphanum || d == '_') = true) :
    IsAsciiName (guardStart x) := by
  have kept : ∀ d ∈ x, (isAscii d && isIdentContinue d) = true := fun d mem => isKept_eq d ▸ chars d mem
  have mark : (isAscii '_' && isIdentContinue '_') = true := by decide
  cases x with
  | nil => decide
  | cons c x =>
    by_cases digit : c.isDigit = true
    · rw [guardStart, if_pos digit]
      exact ⟨rfl, List.forall_mem_cons.mpr ⟨mark, kept⟩⟩
    · rw [guardStart, if_neg digit]
      have begins : ∀ n < 128, isIdentContinue (Char.ofNat n) = true → ¬(Char.ofNat n).isDigit = true →
          isIdentStart (Char.ofNat n) = true := by decide +kernel
      obtain ⟨ascii, continues⟩ := Bool.and_eq_true_iff.mp (kept c List.mem_cons_self)
      have start : isIdentStart c = true :=
        of_isAscii (p := fun c => isIdentContinue c = true → ¬c.isDigit = true → isIdentStart c = true) begins
          ascii continues digit
      refine ⟨?_, kept⟩
      rw [List.head?_cons, Option.any_some, ascii, start]
      rfl

/-- A text with what cannot stand in an identifier replaced. -/
def cleaned (name : String) : String :=
  String.ofList (guardStart ((unraw name).toList.map fun c => if c.isAlphanum || c == '_' then c else '_'))

theorem identifier_eq (name : String) : identifier name =
    if keywords.contains (cleaned name) && !scopeWords.contains (cleaned name) then "r#" ++ cleaned name
    else cleaned name := rfl

theorem isAsciiName_cleaned (name : String) : IsAsciiName (cleaned name).toList := by
  rw [cleaned, String.toList_ofList]
  refine isAsciiName_guardStart fun d mem => ?_
  obtain ⟨c, -, rfl⟩ := List.mem_map.mp mem
  by_cases kept : (c.isAlphanum || c == '_') = true
  · rw [if_pos kept, kept]
  · rw [if_neg kept]
    rfl

theorem unraw_of_not_mem {name : String} (noMark : '#' ∉ name.toList) : unraw name = name := by
  unfold unraw
  split
  · rename_i r same
    rw [same] at noMark
    exact (noMark (List.mem_cons_of_mem _ List.mem_cons_self)).elim
  · rfl

theorem not_mem_of_isAsciiName {x : List Char} (name : IsAsciiName x) : '#' ∉ x :=
  fun mem => absurd (name.chars '#' mem) (by decide)

theorem cleaned_of_isAsciiName {name : String} (isName : IsAsciiName name.toList) : cleaned name = name := by
  have kept : (name.toList.map fun c => if c.isAlphanum || c == '_' then c else '_') = name.toList := by
    have same : ∀ c ∈ name.toList, (if c.isAlphanum || c == '_' then c else '_') = id c :=
      fun c mem => if_pos ((isKept_eq c).trans (isName.chars c mem))
    rw [List.map_congr_left same, List.map_id]
  rw [cleaned, unraw_of_not_mem (not_mem_of_isAsciiName isName), kept, guardStart_of_isAsciiName isName,
    String.ofList_toList]

theorem unraw_identifier {name : String} (isName : IsAsciiName name.toList) : unraw (identifier name) = name := by
  rw [identifier_eq, cleaned_of_isAsciiName isName]
  split
  · unfold unraw
    rw [String.toList_append]
    exact String.ofList_toList
  · exact unraw_of_not_mem (not_mem_of_isAsciiName isName)

theorem identifier_eq_self_iff {name : String} (noMark : '#' ∉ name.toList) (plain : name ∉ keywords) :
    identifier name = name ↔ IsAsciiName name.toList := by
  constructor
  · intro same
    rw [identifier_eq] at same
    split at same
    · rw [← same, String.toList_append] at noMark
      exact (noMark (List.mem_append_left _ (by decide))).elim
    · exact same ▸ isAsciiName_cleaned name
  · intro isName
    have free : keywords.contains name = false := by
      rw [Bool.eq_false_iff]
      exact fun key => plain (List.contains_iff_mem.mp key)
    rw [identifier_eq, cleaned_of_isAsciiName isName, free, Bool.false_and, if_neg Bool.false_ne_true]

theorem isAsciiName_fieldForTag (tag : String) : IsAsciiName (fieldForTag tag).toList := by
  rw [fieldForTag, String.toList_ofList]
  refine isAsciiName_guardStart fun d mem => ?_
  obtain ⟨c, -, rfl⟩ := List.mem_map.mp mem
  by_cases kept : c.isAlphanum = true
  · have low : ∀ n < 128, (Char.ofNat n).isAlphanum = true → (Char.ofNat n).toLower.isAlphanum = true := by
      decide +kernel
    rw [if_pos kept, of_isAscii (p := fun c => c.isAlphanum = true → c.toLower.isAlphanum = true) low
      (isAscii_of_isAlphanum kept) kept, Bool.true_or]
  · rw [if_neg kept]
    rfl

end Retype.Naming
