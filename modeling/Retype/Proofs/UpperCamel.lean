import Retype.Text.Camel

/-! Upper camel case of the tags of a schema.  Words hold the letters and digits of a text in their order, so a tag that
begins with a letter becomes a name that begins with a capital. -/

namespace Retype.Text

theorem of_isAscii {p : Char → Prop} [DecidablePred p] (cases : ∀ n < 128, p (Char.ofNat n)) {c : Char}
    (ascii : isAscii c = true) : p c := by
  have found := cases c.toNat (of_decide_eq_true ascii)
  rwa [Char.ofNat_toNat] at found

theorem isAscii_of_isAlphanum {c : Char} (letter : c.isAlphanum = true) : isAscii c = true := by
  have below {n : Nat} (le : c.toNat ≤ n) (small : n < 0x80) : isAscii c = true :=
    decide_eq_true (Nat.lt_of_le_of_lt le small)
  rcases Bool.or_eq_true_iff.mp letter with alpha | digit
  · rcases Bool.or_eq_true_iff.mp alpha with upper | lower
    · exact below (of_decide_eq_true upper).2 (by decide)
    · exact below (of_decide_eq_true (Bool.and_eq_true_iff.mp lower).2) (by decide)
  · exact below (of_decide_eq_true (Bool.and_eq_true_iff.mp digit).2) (by decide)

theorem flatten_caseWordsFrom (acc : List Char) (mode : WordCase) (s : List Char) :
    (caseWordsFrom acc mode s).flatten = acc.reverse ++ s := by
  fun_induction caseWordsFrom acc mode s with
  | case1 acc mode empty =>
    rw [List.isEmpty_iff.mp empty]
    rfl
  | case2 acc mode some => simp
  | case3 acc mode c => simp
  | case4 acc mode c d r low ih => simp [ih]
  | case5 acc mode c d r _ up ih => simp [ih]
  | case6 acc mode c d r _ _ ih => simp [ih]

theorem flatten_splitOnP (p : Char → Bool) (s : List Char) : (s.splitOnP p).flatten = s.filter fun c => !p c := by
  induction s with
  | nil => rfl
  | cons c s ih =>
    rw [List.splitOnP_cons_eq_if_modifyHead, List.filter_cons, ← ih]
    cases p c with
    | true => rfl
    | false =>
      cases rest : s.splitOnP p with
      | nil => exact (List.splitOnP_ne_nil p s rest).elim
      | cons piece pieces => rfl

def words (s : List Char) : List (List Char) := (pieces s).flatMap caseWords

theorem flatten_words (s : List Char) : (words s).flatten = s.filter isAlphanumeric := by
  have through : ∀ ps : List (List Char), (ps.flatMap caseWords).flatten = ps.flatten := by
    intro ps
    induction ps with
    | nil => rfl
    | cons piece ps ih =>
      rw [List.flatMap_cons, List.flatten_append, ih, List.flatten_cons, caseWords, flatten_caseWordsFrom]
      rfl
  rw [words, through, pieces, flatten_splitOnP]
  refine List.filter_congr fun c _ => ?_
  rw [Bool.not_not]

theorem upperCamel_eq (s : String) : upperCamel s = String.ofList ((words s.toList).flatMap capitalize) := by
  rw [upperCamel, words, List.flatMap_assoc]

/-- Where characters are of one kind, those of their upper and lower cases are of another. -/
structure CasesAre (p q : Char → Prop) : Prop where
  upper : ∀ c, p c → ∀ d ∈ toUpper c, q d
  lower : ∀ c, p c → ∀ d ∈ toLower c, q d
  final : p 'Σ' → q 'ς'

section Cases
variable {p q : Char → Prop}

theorem CasesAre.lowercaseWord (cases : CasesAre p q) {w : List Char} (h : ∀ c ∈ w, p c) : ∀ d ∈ lowercaseWord w, q d := by
  fun_induction Text.lowercaseWord w with
  | case1 =>
    intro d mem
    cases mem
  | case2 =>
    intro d mem
    rw [List.mem_singleton.mp mem]
    exact cases.final (h _ List.mem_cons_self)
  | case3 c r other ih =>
    exact List.forall_mem_append.mpr
      ⟨cases.lower c (h c List.mem_cons_self), ih fun d mem => h d (List.mem_cons_of_mem _ mem)⟩

theorem CasesAre.capitalize (cases : CasesAre p q) {w : List Char} (h : ∀ c ∈ w, p c) : ∀ d ∈ capitalize w, q d := by
  cases w with
  | nil =>
    intro d mem
    cases mem
  | cons c r =>
    exact List.forall_mem_append.mpr
      ⟨cases.upper c (h c List.mem_cons_self), cases.lowercaseWord fun d mem => h d (List.mem_cons_of_mem _ mem)⟩

theorem CasesAre.flatMap (cases : CasesAre p q) {ws : List (List Char)} (h : ∀ c ∈ ws.flatten, p c) :
    ∀ d ∈ ws.flatMap Text.capitalize, q d := by
  intro d mem
  obtain ⟨w, inside, mem⟩ := List.mem_flatMap.mp mem
  exact cases.capitalize (fun c mem => h c (List.mem_flatten.mpr ⟨w, inside, mem⟩)) d mem

end Cases

def IsPlainWord (w : List Char) : Prop := ∀ c ∈ w, (isAscii c && c.isAlphanum) = true

theorem plain_casesAre :
    CasesAre (fun c => (isAscii c && c.isAlphanum) = true) (fun c => (isAscii c && c.isAlphanum) = true) := by
  constructor
  · intro c plain d mem
    have ascii := (Bool.and_eq_true_iff.mp plain).1
    rw [toUpper, if_pos ascii] at mem
    rw [List.mem_singleton.mp mem]
    exact of_isAscii
      (p := fun c => (isAscii c && c.isAlphanum) = true → (isAscii c.toUpper && c.toUpper.isAlphanum) = true)
      (by decide +kernel) ascii plain
  · intro c plain d mem
    have ascii := (Bool.and_eq_true_iff.mp plain).1
    rw [toLower, if_pos ascii] at mem
    rw [List.mem_singleton.mp mem]
    exact of_isAscii
      (p := fun c => (isAscii c && c.isAlphanum) = true → (isAscii c.toLower && c.toLower.isAlphanum) = true)
      (by decide +kernel) ascii plain
  · intro plain
    exact absurd plain (by decide)

theorem capitalize_cons {c : Char} {r : List Char} (ascii : isAscii c = true) :
    capitalize (c :: r) = c.toUpper :: lowercaseWord r := by
  rw [capitalize, toUpper, if_pos ascii]
  rfl

theorem head?_flatMap_capitalize {ws : List (List Char)} {c : Char} {r : List Char} (letters : ws.flatten = c :: r)
    (ascii : isAscii c = true) : (ws.flatMap capitalize).head? = some c.toUpper := by
  induction ws with
  | nil => cases letters
  | cons w ws ih =>
    cases w with
    | nil => exact ih letters
    | cons d w =>
      cases letters
      rw [List.flatMap_cons, capitalize_cons ascii]
      rfl

/-- A tag as schemas write them: `[a-z][a-z0-9_]*`. -/
def IsTag (tag : String) : Prop :=
  ∃ c r, tag.toList = c :: r ∧ c.isLower = true ∧ ∀ d ∈ r, (d.isLower || d.isDigit || d == '_') = true

theorem isAscii_of_tag {d : Char} (h : (d.isLower || d.isDigit || d == '_') = true) : isAscii d = true := by
  rw [Bool.or_eq_true, Bool.or_eq_true, beq_iff_eq] at h
  rcases h with (lower | digit) | rfl
  · exact isAscii_of_isAlphanum (Bool.or_eq_true_iff.mpr (.inl (Bool.or_eq_true_iff.mpr (.inr lower))))
  · exact isAscii_of_isAlphanum (Bool.or_eq_true_iff.mpr (.inr digit))
  · decide

theorem IsTag.chars {tag : String} (h : IsTag tag) :
    ∀ d ∈ tag.toList, (d.isLower || d.isDigit || d == '_') = true := by
  obtain ⟨c, r, text, lower, rest⟩ := h
  rw [text]
  intro d mem
  rcases List.mem_cons.mp mem with rfl | mem
  · rw [lower]
    rfl
  · exact rest d mem

theorem IsTag.ne_empty {tag : String} (h : IsTag tag) : tag ≠ "" := by
  rintro rfl
  obtain ⟨c, r, text, -⟩ := h
  cases text

theorem IsTag.upperCamel {tag : String} (h : IsTag tag) :
    ∃ c r, (Text.upperCamel tag).toList = c :: r ∧ c.isUpper = true ∧ IsPlainWord (c :: r) := by
  have plain : IsPlainWord (words tag.toList).flatten := by
    rw [flatten_words]
    intro c mem
    obtain ⟨inside, letter⟩ := List.mem_filter.mp mem
    have ascii := isAscii_of_tag (h.chars c inside)
    rw [isAlphanumeric, if_pos ascii] at letter
    rw [ascii, letter]
    rfl
  have named : (Text.upperCamel tag).toList = (words tag.toList).flatMap capitalize := by
    rw [upperCamel_eq, String.toList_ofList]
  obtain ⟨c, r, text, lower, -⟩ := h
  have first : (c.isLower || c.isDigit || c == '_') = true := by
    rw [lower]
    rfl
  have ascii := isAscii_of_tag first
  have letters : (words tag.toList).flatten = c :: r.filter isAlphanumeric := by
    have letter : isAlphanumeric c = true := by
      have alpha : c.isAlpha = true := Bool.or_eq_true_iff.mpr (.inr lower)
      rw [isAlphanumeric, if_pos ascii, Char.isAlphanum, alpha, Bool.true_or]
    rw [flatten_words, text, List.filter_cons_of_pos letter]
  obtain ⟨r', same⟩ := List.head?_eq_some_iff.mp (head?_flatMap_capitalize letters ascii)
  refine ⟨c.toUpper, r', named.trans same, ?_, ?_⟩
  · exact of_isAscii (p := fun c => c.isLower = true → c.toUpper.isUpper = true) (by decide +kernel) ascii lower
  · rw [← same]
    exact plain_casesAre.flatMap plain

end Retype.Text
