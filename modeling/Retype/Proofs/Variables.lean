import Retype.Config
import Retype.Proofs.Identifiers
import Retype.Proofs.Lexing

/-! The variables of a configuration.  A check reads them as code is read, which admits letters beyond ASCII, raw
names, and blanks and comments around a name; what is written is the identifier for the text, which has none of these.
So a variable is written as it is configured exactly if it is spelled as identifiers are written. -/

namespace Retype.Naming
open Retype.Code Retype.Text
open Retype.Code.Lexer (IsAsciiName IsWord)

/-- An identifier is that of the cleaned name, so it tells this name and no more of the text. -/
theorem unraw_identifier_eq_cleaned (name : String) : unraw (identifier name) = cleaned name := by
  have clean : IsAsciiName (cleaned name).toList := isAsciiName_cleaned name
  have same : identifier (cleaned name) = identifier name := by
    rw [identifier_eq, cleaned_of_isAsciiName clean, ← identifier_eq]
  rw [← same, unraw_identifier clean]

theorem identifier_eq_iff {a b : String} : identifier a = identifier b ↔ cleaned a = cleaned b := by
  constructor
  · intro same
    rw [← unraw_identifier_eq_cleaned, same, unraw_identifier_eq_cleaned]
  · intro same
    rw [identifier_eq, same, ← identifier_eq]

theorem all_take_eq_some {test : Tree → Bool} {ts : Trees} {t : Tree} (h : (Parser.take test).all ts = some t) :
    ts = [t] ∧ test t = true := by
  cases ts with
  | nil => cases h
  | cons u ts =>
    have run : (Parser.take test).run (u :: ts) = if test u = true then some (u, ts) else none := rfl
    rw [Parser.all, run] at h
    by_cases passes : test u = true
    · rw [if_pos passes] at h
      cases ts with
      | nil =>
        cases h
        exact ⟨rfl, passes⟩
      | cons v ts => cases h
    · rw [if_neg passes] at h
      cases h

theorem lex_of_parseIdent {v : String} (read : (parseIdent v).isSome = true) :
    ∃ n, lex v = some [word n] ∧ n ∉ Parser.keywords := by
  obtain ⟨t, found⟩ := Option.isSome_iff_exists.mp read
  obtain ⟨ts, lexed, parsed⟩ := Option.bind_eq_some_iff.mp found
  obtain ⟨rfl, isIdent⟩ := all_take_eq_some parsed
  obtain ⟨n, rfl⟩ := Parser.eq_of_isAnyWord (Parser.isAnyWord_of_isIdent isIdent)
  refine ⟨n, lexed, fun key => ?_⟩
  have other : Parser.keywords.contains n = false := (Bool.not_eq_true' _).mp isIdent
  rw [List.contains_iff_mem.mpr key] at other
  cases other

theorem start_of_lexeme? {x rest : Lexer.Chars} {n : String} {k : Nat} (isWord : IsWord x)
    (ends : Lexer.EndsName rest) (first : Lexer.lexeme? (x ++ rest) = some (.trees [word n], k)) :
    ∀ c ∈ x.head?, isIdentStart c = true := by
  intro c head
  rw [Lexer.lexeme?_word isWord ends, Lexer.token?_word isWord ends] at first
  obtain ⟨⟨t, m⟩, token, same⟩ := Option.map_eq_some_iff.mp first
  cases same
  rw [Option.orElse_eq_orElse, Option.orElse_eq_or] at token
  rcases Option.or_eq_some_iff.mp token with number | ⟨-, name⟩
  · obtain ⟨m, -, same⟩ := Option.map_eq_some_iff.mp number
    cases same
  · obtain ⟨m, found, -⟩ := Option.map_eq_some_iff.mp name
    cases x with
    | nil => cases head
    | cons d x =>
      cases head
      exact (Option.ite_none_right_eq_some.mp found).1

theorem isAsciiName_of_parseIdent {v : String} (read : (parseIdent v).isSome = true)
    (chars : ∀ c ∈ v.toList, (c.isAlphanum || c == '_') = true) : IsAsciiName v.toList ∧ v ∉ keywords := by
  have plain : ∀ c ∈ v.toList, (isAscii c && isIdentContinue c) = true := fun c mem => isKept_eq c ▸ chars c mem
  obtain ⟨n, lexed, noKey⟩ := lex_of_parseIdent read
  have nonempty : v.toList ≠ [] := by
    intro empty
    obtain rfl : v = "" := String.toList_inj.mp empty
    cases lexed
  have isWord : IsWord v.toList := ⟨nonempty, fun c mem => Lexer.isWordy_of_ascii (plain c mem)⟩
  have mark : v.toList.head? ≠ some '\ufeff' := fun found =>
    absurd (plain '\ufeff' (List.mem_of_mem_head? found)) (by decide)
  have whole : v.toList ++ [] = v.toList := List.append_nil _
  rw [Lexer.lex_eq mark] at lexed
  rcases Lexer.lexemes_word isWord Lexer.endsName_nil with ⟨t, isToken, first⟩ | unread
  · have lexemes := Lexer.lexemes_cons nonempty first
    rw [whole] at lexemes
    rw [lexemes] at lexed
    obtain rfl : t = .ident n := by
      cases lexed
      rfl
    have named : n = v := by
      rcases isToken with same | same <;> cases same
      exact String.ofList_toList
    have start := start_of_lexeme? isWord Lexer.endsName_nil first
    constructor
    · refine ⟨?_, plain⟩
      cases same : v.toList with
      | nil => exact (nonempty same).elim
      | cons c r =>
        have ascii := (Bool.and_eq_true_iff.mp (plain c (same ▸ List.mem_cons_self))).1
        rw [List.head?_cons, Option.any_some, ascii, start c (same ▸ rfl)]
        rfl
    · have all : ∀ k ∈ keywords, k ∈ Parser.keywords := by decide +kernel
      exact fun key => noKey (named ▸ all v key)
  · rw [whole] at unread
    rw [unread] at lexed
    cases lexed

/-- Only letters, digits and `_` of ASCII, or a keyword in raw form. -/
def IsSpelling (v : String) : Prop :=
  (∀ c ∈ v.toList, (c.isAlphanum || c == '_') = true) ∨ ∃ k ∈ keywords, v = "r#" ++ k

instance (v : String) : Decidable (IsSpelling v) :=
  -- along the text: another instance at hand may go through all characters there are
  @instDecidableOr _ _ (List.decidableBAll _ _) inferInstance

theorem isSpelling_identifier (name : String) : IsSpelling (identifier name) := by
  rw [identifier_eq]
  split
  · rename_i raw
    exact .inr ⟨cleaned name, List.contains_iff_mem.mp (Bool.and_eq_true_iff.mp raw).1, rfl⟩
  · refine .inl fun c mem => ?_
    rw [isKept_eq]
    exact (isAsciiName_cleaned name).chars c mem

theorem identifier_eq_self_iff_isSpelling {v : String} (read : (parseIdent v).isSome = true) :
    identifier v = v ↔ IsSpelling v := by
  constructor
  · exact fun same => same ▸ isSpelling_identifier v
  · rintro (chars | ⟨k, key, rfl⟩)
    · obtain ⟨name, plain⟩ := isAsciiName_of_parseIdent read chars
      exact (identifier_eq_self_iff (not_mem_of_isAsciiName name) plain).mpr name
    · -- the one keyword that has no raw form is not read at all
      have raw : ∀ k ∈ keywords, (parseIdent ("r#" ++ k)).isSome = true → identifier ("r#" ++ k) = "r#" ++ k := by
        decide +kernel
      exact raw k key read

end Retype.Naming

namespace Retype
open Retype.Naming

theorem fault?_eq_none_iff {c : Config} : c.fault? = none ↔
    (∀ p ∈ c.required, Config.isBlankText p.2 = false) ∧
      (∀ p ∈ c.variableNames, (Code.parseIdent p.2).isSome = true) ∧ c.modelVar ≠ c.metaVar := by
  have blank : (c.required.find? fun p => Config.isBlankText p.2) = none ↔
      ∀ p ∈ c.required, Config.isBlankText p.2 = false := by
    simp only [List.find?_eq_none, Bool.not_eq_true]
  have unread : (c.variableNames.find? fun p => (Code.parseIdent p.2).isNone) = none ↔
      ∀ p ∈ c.variableNames, (Code.parseIdent p.2).isSome = true := by
    simp only [List.find?_eq_none, Bool.not_eq_true, Option.isNone_eq_false_iff]
  rw [← blank, ← unread]
  unfold Config.fault?
  split
  · rename_i found
    simp only [found, reduceCtorEq, false_and]
  · rename_i noBlank
    split
    · rename_i found
      simp only [found, reduceCtorEq, false_and, and_false]
    · rename_i noFault
      simp only [noBlank, noFault, true_and, ite_eq_right_iff, reduceCtorEq, imp_false, ne_eq]

/-- Each variable of an accepted configuration is written as it is configured exactly if it is spelled as identifiers
are written, and the two main ones are told apart exactly if what is left of them is different.  So all of them
are written as they are configured, the main ones differing, exactly if all are spelled that way. -/
theorem variables_as_configured_iff {c : Config} (accepted : c.fault? = none) :
    (∀ p ∈ c.variableNames, (identifier p.2 = p.2 ↔ IsSpelling p.2)) ∧
    (identifier c.modelVar = identifier c.metaVar ↔ cleaned c.modelVar = cleaned c.metaVar) ∧
    (((∀ p ∈ c.variableNames, identifier p.2 = p.2) ∧ identifier c.modelVar ≠ identifier c.metaVar) ↔
      ∀ p ∈ c.variableNames, IsSpelling p.2) := by
  obtain ⟨-, read, differ⟩ := fault?_eq_none_iff.mp accepted
  have spelled : ∀ p ∈ c.variableNames, (identifier p.2 = p.2 ↔ IsSpelling p.2) :=
    fun p mem => identifier_eq_self_iff_isSpelling (read p mem)
  refine ⟨spelled, identifier_eq_iff, fun same p mem => (spelled p mem).mp (same.1 p mem), fun all => ?_⟩
  have same : ∀ p ∈ c.variableNames, identifier p.2 = p.2 := fun p mem => (spelled p mem).mpr (all p mem)
  have model : identifier c.modelVar = c.modelVar := same ("model_var", _) List.mem_cons_self
  have metadata : identifier c.metaVar = c.metaVar := same ("meta_var", _) (List.mem_cons_of_mem _ List.mem_cons_self)
  refine ⟨same, ?_⟩
  rw [model, metadata]
  exact differ

/-- Two variables with letters that no identifier is written with. -/
def wideVariables : Config := { modelVar := "größe", metaVar := "grüße" }

theorem variables_as_configured_iff_wide : wideVariables.fault? = none ∧
    identifier wideVariables.modelVar = identifier wideVariables.metaVar ∧
    ¬(identifier wideVariables.modelVar = wideVariables.modelVar) := by
  have accepted : wideVariables.fault? = none := by decide +kernel
  obtain ⟨each, clash, -⟩ := variables_as_configured_iff accepted
  refine ⟨accepted, clash.mpr (by decide +kernel), ?_⟩
  rw [each ("model_var", _) List.mem_cons_self]
  decide +kernel

end Retype
