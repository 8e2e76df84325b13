import Retype.Proofs.SchemaModels

/-! The names that types of fields refer to.  Whatever letters a tag holds, the name of the model of its block is a
word, so a type with that name for its elements is written as the text it is read from. -/

namespace Retype.Text
open Retype.Code.Lexer

/-- The code points that a text is read past. -/
def blankPoints : List Nat :=
  List.range' 0x9 5 ++ [0x20, 0x85, 0xa0, 0x1680] ++ List.range' 0x2000 16 ++ [0x2028, 0x2029, 0x202f, 0x205f, 0x3000]

theorem mem_blankPoints {c : Char} (space : isSpace c = true) : c.toNat ∈ blankPoints := by
  have range {first count n : Nat} (above : first ≤ n) (below : n < first + count) : n ∈ List.range' first count :=
    List.mem_range'_1.mpr ⟨above, below⟩
  have listed {l : List Nat} {n : Nat} (same : c.toNat = n) (mem : n ∈ l) : c.toNat ∈ l := by rwa [same]
  simp only [isSpace, isBlank, Bool.or_eq_true, Bool.and_eq_true, decide_eq_true_eq, beq_iff_eq] at space
  rcases space with ((((((((((((⟨above, below⟩ | h) | h) | h) | h) | ⟨above, below⟩) | h) | h) | h) | h) | h) | h) | h)
  case inl.inl.inl.inl.inl.inl.inl.inl.inl.inl.inl.inl =>
    exact List.mem_append_left _ (List.mem_append_left _ (List.mem_append_left _ (range above (Nat.lt_succ_of_le below))))
  case inl.inl.inl.inl.inl.inl.inl.inr =>
    exact List.mem_append_left _ (List.mem_append_right _ (range above (by omega)))
  all_goals exact listed h (by decide)

theorem isWordy_of_isAlphanumeric {c : Char} (h : isAlphanumeric c = true) : isWordy c = true := by
  by_cases ascii : isAscii c = true
  · exact of_isAscii (p := fun c => isAlphanumeric c = true → isWordy c = true) (by decide +kernel) ascii h
  · rw [isAlphanumeric, if_neg ascii] at h
    rw [isWordy, if_neg ascii, Bool.not_eq_true', Bool.eq_false_iff]
    intro space
    have apart : ∀ n ∈ blankPoints, (Tables.alphanumeric.all fun row => n.blt row.1 || row.2.1.blt n) = true := by
      decide +kernel
    obtain ⟨⟨first, last, step⟩, mem, within⟩ := List.any_eq_true.mp h
    have outside := List.all_eq_true.mp (apart c.toNat (mem_blankPoints space)) _ mem
    simp only [Bool.and_eq_true, decide_eq_true_eq, Bool.or_eq_true, Nat.blt_eq] at within outside
    omega

/-- Every character of a row is shifted to one that a word may hold. -/
def ShiftsToWords (rows : List (Nat × Nat × Nat × Int)) : Prop :=
  (rows.all fun (first, last, _, d) =>
    (List.range' first (last + 1 - first)).all fun n => isWordy (Char.ofNat (Int.toNat (n + d)))) = true

theorem ShiftsToWords.isWordy {rows : List (Nat × Nat × Nat × Int)} (h : ShiftsToWords rows) {c d : Char}
    (shifted : shifted? rows c = some d) : isWordy d = true := by
  obtain ⟨⟨first, last, step, by_⟩, found, rfl⟩ := Option.map_eq_some_iff.mp shifted
  have mem := List.mem_of_find?_eq_some found
  have within := List.find?_some found
  simp only [Bool.and_eq_true, decide_eq_true_eq] at within
  refine List.all_eq_true.mp (List.all_eq_true.mp h _ mem) c.toNat ?_
  rw [List.mem_range'_1]
  dsimp only
  omega

theorem isWordy_of_case {many : List (Nat × List Nat)} {rows : List (Nat × Nat × Nat × Int)}
    (spread : ∀ row ∈ many, ∀ n ∈ row.2, isWordy (Char.ofNat n) = true) (shift : ShiftsToWords rows) {c : Char}
    (letter : isWordy c = true) : ∀ d ∈ (spread? many c).getD [(shifted? rows c).getD c], isWordy d = true := by
  intro d mem
  cases several : spread? many c with
  | some cs =>
    obtain ⟨row, found, rfl⟩ := Option.map_eq_some_iff.mp several
    rw [several, Option.getD_some] at mem
    obtain ⟨n, inside, rfl⟩ := List.mem_map.mp mem
    exact spread row (List.mem_of_find?_eq_some found) n inside
  | none =>
    rw [several, Option.getD_none, List.mem_singleton] at mem
    subst mem
    cases one : shifted? rows c with
    | some d => exact shift.isWordy one
    | none => exact letter

theorem wordy_casesAre : CasesAre (fun c => isAlphanumeric c = true) (fun c => isWordy c = true) := by
  refine ⟨fun c letter => ?_, fun c letter => ?_, fun _ => by decide +kernel⟩
  · by_cases ascii : isAscii c = true
    · rw [toUpper, if_pos ascii, List.forall_mem_singleton]
      exact of_isAscii (p := fun c => isAlphanumeric c = true → isWordy c.toUpper = true) (by decide +kernel)
        ascii letter
    · rw [toUpper, if_neg ascii]
      have shift : ShiftsToWords Tables.toUpper := by
        unfold ShiftsToWords
        decide +kernel
      exact isWordy_of_case (by decide +kernel) shift (isWordy_of_isAlphanumeric letter)
  · by_cases ascii : isAscii c = true
    · rw [toLower, if_pos ascii, List.forall_mem_singleton]
      exact of_isAscii (p := fun c => isAlphanumeric c = true → isWordy c.toLower = true) (by decide +kernel)
        ascii letter
    · rw [toLower, if_neg ascii]
      have shift : ShiftsToWords Tables.toLower := by
        unfold ShiftsToWords
        decide +kernel
      exact isWordy_of_case (by decide +kernel) shift (isWordy_of_isAlphanumeric letter)

theorem isWordy_upperCamel (s : String) : ∀ d ∈ (upperCamel s).toList, isWordy d = true := by
  rw [upperCamel_eq, String.toList_ofList]
  refine wordy_casesAre.flatMap fun c mem => ?_
  rw [flatten_words] at mem
  exact (List.mem_filter.mp mem).2

end Retype.Text

namespace Retype.Schema
open Retype.Code Retype.Code.Lexer Retype.Text Retype.Naming

/-- A word that ends in `Model`. -/
structure IsStructName (name : String) : Prop where
  word : IsWord name.toList
  ends : "Model".toList <:+ name.toList

theorem isStructName_append {front : String} (chars : ∀ d ∈ front.toList, isWordy d = true) :
    IsStructName (front ++ "Model") := by
  constructor
  · rw [String.toList_append]
    refine ⟨List.append_ne_nil_of_right_ne_nil _ (by decide), List.forall_mem_append.mpr ⟨chars, ?_⟩⟩
    exact fun d mem => isWordy_of_ascii (modelSuffix_chars d mem)
  · rw [String.toList_append]
    exact List.suffix_append _ _

theorem mem_of_mem_dropModel {name : String} {d : Char} (mem : d ∈ (dropModel name).toList) : d ∈ name.toList := by
  unfold dropModel at mem
  dsimp only at mem
  split at mem
  · rw [String.toList_ofList] at mem
    exact List.mem_of_mem_take mem
  · exact mem

theorem isStructName_candidate {parent : String} (name : IsStructName parent) (tag : String) (k : Nat) :
    IsStructName (candidate parent tag k) := by
  have stem : ∀ d ∈ (dropModel parent).toList, isWordy d = true :=
    fun d mem => name.word.chars d (mem_of_mem_dropModel mem)
  have base := isWordy_upperCamel tag
  match k with
  | 0 => exact isStructName_append base
  | 1 =>
    refine isStructName_append ?_
    rw [String.toList_append]
    exact List.forall_mem_append.mpr ⟨stem, base⟩
  | k + 2 =>
    refine isStructName_append ?_
    rw [String.toList_append, String.toList_append]
    refine List.forall_mem_append.mpr ⟨List.forall_mem_append.mpr ⟨stem, base⟩, ?_⟩
    exact fun d mem => isWordy_of_ascii (number_chars (k + 2) d mem)

/-- A field that is derived from an attribute: its type is one of values, or it refers to a model. -/
structure IsDerivedField (ms : List Model) (f : ModelField) : Prop where
  name : f.name = fieldForTag f.tag
  ty : (∃ kind elem, f.ty = plainType kind elem) ∨ ∃ kind, ∃ m ∈ ms, f.ty = blockType kind m.name

theorem isDerivedField_of_areFieldsOf {ms : List Model} {fs : List SchemaField} {mfs : List ModelField}
    (h : AreFieldsOf ms fs mfs) : ∀ f ∈ mfs, IsDerivedField ms f := by
  induction fs generalizing mfs with
  | nil =>
    rw [AreFieldsOf] at h
    subst h
    intro f mem
    cases mem
  | cons a fs ih =>
    obtain ⟨mf, rest, rfl, first, later⟩ := h
    refine List.forall_mem_cons.mpr ⟨?_, ih later⟩
    cases a with
    | plain info elem =>
      rw [IsFieldOf] at first
      subst first
      exact ⟨rfl, .inl ⟨info.kind, elem, rfl⟩⟩
    | block info nested =>
      obtain ⟨m, mem, rfl, -⟩ := first
      exact ⟨rfl, .inr ⟨info.kind, m, mem, rfl⟩⟩

section Written
variable {t : Tree} {kind : ValueKind}

theorem renderType_of_plainType {elem : Option ValueKind} (parsed : parseType (plainType kind elem) = some t) :
    renderType t = plainType kind elem := by
  obtain ⟨n, name, -, ⟨-, type⟩ | ⟨-, type | type⟩⟩ := plainType_cases kind elem
  · rw [type] at parsed ⊢
    exact renderType_of_parseType_vec name.ascii.isWord name.plain parsed
  · rw [type] at parsed ⊢
    exact renderType_of_parseType_map name.ascii.isWord name.plain parsed
  · rw [type, parseType_name name] at parsed
    rw [type, ← Option.some.inj parsed, renderType_typeOf name.ascii.isWord]

theorem renderType_of_blockType {n : String} (name : IsStructName n) (parsed : parseType (blockType kind n) = some t) :
    renderType t = blockType kind n := by
  have plain := not_mem_keywords name.ends
  revert parsed
  unfold blockType
  split
  · exact renderType_of_parseType_map name.word plain
  · exact renderType_of_parseType_vec name.word plain

theorem IsDerivedField.renderType {ms : List Model} {f : ModelField} (derived : IsDerivedField ms f)
    (named : ∀ m ∈ ms, IsStructName m.name) (parsed : parseType f.ty = some t) : renderType t = f.ty := by
  rcases derived.ty with ⟨kind, elem, ty⟩ | ⟨kind, m, mem, ty⟩
  · rw [ty] at parsed ⊢
    exact renderType_of_plainType parsed
  · rw [ty] at parsed ⊢
    exact renderType_of_blockType (named m mem) parsed

end Written

end Retype.Schema
