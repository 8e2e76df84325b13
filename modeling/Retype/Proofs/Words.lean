import Retype.Code.Lexer
import Retype.Proofs.UpperCamel

/-! Tokens at the front of a text.  A run of letters and digits that ends where a sign of a type stands begins with a
number or with a name, and what is read of it stops where neither goes on. -/

namespace Retype.Code.Lexer
open Retype.Text

/-- An identifier of ASCII characters. -/
structure IsAsciiName (x : Chars) : Prop where
  start : (x.head?.any fun c => isAscii c && isIdentStart c) = true
  chars : ∀ d ∈ x, (isAscii d && isIdentContinue d) = true

instance (x : Chars) : Decidable (IsAsciiName x) :=
  decidable_of_iff ((x.head?.any fun c => isAscii c && isIdentStart c) = true ∧
      (x.all fun d => isAscii d && isIdentContinue d) = true)
    ⟨fun h => ⟨h.1, List.all_eq_true.mp h.2⟩, fun h => ⟨h.start, List.all_eq_true.mpr h.chars⟩⟩

/-- A character that ends a word and begins no mark. -/
def EndsName (rest : Chars) : Prop := ∀ d ∈ rest.head?, d = '<' ∨ d = '>' ∨ d = ','

theorem EndsName.not_continue {rest : Chars} (h : EndsName rest) : ∀ d ∈ rest.head?, isIdentContinue d = false := by
  intro d mem
  rcases h d mem with rfl | rfl | rfl <;> decide

namespace IsAsciiName
variable {x y : Chars}

theorem first {c : Char} (h : IsAsciiName (c :: x)) : isAscii c = true ∧ isIdentStart c = true :=
  Bool.and_eq_true_iff.mp h.start

theorem continues (h : IsAsciiName x) : ∀ c ∈ x, isIdentContinue c = true :=
  fun c mem => (Bool.and_eq_true_iff.mp (h.chars c mem)).2

theorem append (first : IsAsciiName x) (rest : ∀ d ∈ y, (isAscii d && isIdentContinue d) = true) :
    IsAsciiName (x ++ y) := by
  constructor
  · cases x with
    | nil => cases first.start
    | cons c x => exact first.start
  · intro d mem
    rcases List.mem_append.mp mem with mem | mem
    · exact first.chars d mem
    · exact rest d mem

theorem insert {stem : Chars} (name : IsAsciiName x) (whole : IsAsciiName (stem ++ y)) : IsAsciiName (stem ++ x) := by
  cases stem with
  | nil => exact name
  | cons c stem =>
    have front : IsAsciiName (c :: stem) := ⟨whole.start, fun d mem => whole.chars d (List.mem_append_left _ mem)⟩
    exact front.append name.chars

end IsAsciiName

/-- A character that a run of letters and digits may hold: beyond ASCII, any that is no blank. -/
def isWordy (c : Char) : Bool := if isAscii c then isIdentContinue c else !isSpace c

/-- Such characters, at least one. -/
structure IsWord (x : Chars) : Prop where
  nonempty : x ≠ []
  chars : ∀ d ∈ x, isWordy d = true

theorem isWordy_of_ascii {d : Char} (h : (isAscii d && isIdentContinue d) = true) : isWordy d = true := by
  obtain ⟨ascii, continues⟩ := Bool.and_eq_true_iff.mp h
  rw [isWordy, if_pos ascii, continues]

theorem IsAsciiName.isWord {x : Chars} (name : IsAsciiName x) : IsWord x := by
  constructor
  · rintro rfl
    cases name.start
  · exact fun d mem => isWordy_of_ascii (name.chars d mem)

theorem startsWith_word {mark : String} {x rest : Chars} (chars : ∀ c ∈ x, isWordy c = true)
    (odd : ∃ c ∈ mark.toList, isWordy c = false) (ends : ∀ d ∈ rest.head?, d ∉ mark.toList) :
    startsWith mark (x ++ rest) = false := by
  unfold startsWith
  generalize mark.toList = m at odd ends
  induction x generalizing m with
  | nil =>
    cases m with
    | nil =>
      obtain ⟨c, mem, -⟩ := odd
      cases mem
    | cons c m =>
      cases rest with
      | nil => rfl
      | cons d rest =>
        have other : (c == d) = false := beq_eq_false_iff_ne.mpr fun same => ends d rfl (same ▸ List.mem_cons_self)
        rw [List.nil_append, List.isPrefixOf_cons_cons, other, Bool.false_and]
  | cons e x ih =>
    cases m with
    | nil =>
      obtain ⟨c, mem, -⟩ := odd
      cases mem
    | cons c m =>
      rw [List.cons_append, List.isPrefixOf_cons_cons]
      by_cases same : c = e
      · subst same
        have later : ∃ d ∈ m, isWordy d = false := by
          obtain ⟨d, mem, isOdd⟩ := odd
          rcases List.mem_cons.mp mem with rfl | mem
          · rw [chars d List.mem_cons_self] at isOdd
            cases isOdd
          · exact ⟨d, mem, isOdd⟩
        rw [ih (fun d mem => chars d (List.mem_cons_of_mem _ mem)) m later
          (fun d found mem => ends d found (List.mem_cons_of_mem _ mem)), Bool.and_false]
      · rw [beq_eq_false_iff_ne.mpr same, Bool.false_and]

/-- A mark with a character that no word holds and none that ends a word. -/
def IsMark (mark : String) : Prop :=
  (mark.toList.any fun c => !isWordy c) = true ∧ (mark.toList.all fun c => c != '<' && c != '>' && c != ',') = true

instance (mark : String) : Decidable (IsMark mark) := inferInstanceAs (Decidable (_ ∧ _))

theorem startsWith_mark {x rest : Chars} (word : IsWord x) (ends : EndsName rest) {mark : String}
    (isMark : IsMark mark) : startsWith mark (x ++ rest) = false := by
  obtain ⟨c, mem, isOdd⟩ := List.any_eq_true.mp isMark.1
  refine startsWith_word word.chars ⟨c, mem, (Bool.not_eq_true' _).mp isOdd⟩ fun d found mem => ?_
  have plain := List.all_eq_true.mp isMark.2 d mem
  rcases ends d found with rfl | rfl | rfl <;> cases plain

theorem begins_nothing_else {c : Char} (wordy : isWordy c = true) :
    c ≠ '\'' ∧ isSpace c = false ∧ punctuation.contains c = false ∧ delimiter? c = none := by
  by_cases ascii : isAscii c = true
  · rw [isWordy, if_pos ascii] at wordy
    have cases : ∀ n < 128, isIdentContinue (Char.ofNat n) = true → Char.ofNat n ≠ '\'' ∧
        isSpace (Char.ofNat n) = false ∧ punctuation.contains (Char.ofNat n) = false ∧
        (delimiter? (Char.ofNat n)).isNone = true := by decide +kernel
    have found := of_isAscii (p := fun c => isIdentContinue c = true → c ≠ '\'' ∧ isSpace c = false ∧
      punctuation.contains c = false ∧ (delimiter? c).isNone = true) cases ascii wordy
    rwa [Option.isNone_iff_eq_none] at found
  · rw [isWordy, if_neg ascii, Bool.not_eq_true'] at wordy
    have other {d : Char} (plain : isAscii d = true) : c ≠ d := fun same => ascii (same ▸ plain)
    refine ⟨other (by decide), wordy, ?_, ?_⟩
    · rw [Bool.eq_false_iff]
      intro mem
      have plain : ∀ d ∈ punctuation, isAscii d = true := List.all_eq_true.mp (by decide)
      exact ascii (plain c (List.contains_iff_mem.mp mem))
    · unfold delimiter?
      split
      all_goals first
        | rfl
        | exact (other (by decide) rfl).elim

/-- That many characters are in front, each of a kind. -/
def Takes (p : Char → Bool) (s : Chars) (n : Nat) : Prop := n ≤ s.length ∧ ∀ d ∈ s.take n, p d = true

section Takes
variable {p q : Char → Bool} {s : Chars} {k m n : Nat}

theorem Takes.add (first : Takes p s k) (later : Takes p (s.drop k) m) : Takes p s (k + m) := by
  have length := later.1
  rw [List.length_drop] at length
  refine ⟨by have := first.1; omega, ?_⟩
  rw [List.take_add]
  exact List.forall_mem_append.mpr ⟨first.2, later.2⟩

theorem takes_zero : Takes p s 0 := ⟨Nat.zero_le _, fun d mem => by cases mem⟩

theorem takes_one {c : Char} {r : Chars} (kind : p c = true) : Takes p (c :: r) 1 := by
  refine ⟨Nat.succ_le_succ (Nat.zero_le _), fun d mem => ?_⟩
  rw [List.mem_singleton.mp mem]
  exact kind

theorem takes_takeWhile (within : ∀ d, q d = true → p d = true) : Takes p s (s.takeWhile q).length := by
  refine ⟨(List.takeWhile_prefix q).length_le, fun d mem => within d ?_⟩
  rw [← List.prefix_iff_eq_take.mp (List.takeWhile_prefix q)] at mem
  exact List.all_eq_true.mp List.all_takeWhile d mem

theorem Takes.le_length {x rest : Chars} (taken : Takes p (x ++ rest) n) (ends : ∀ d ∈ rest.head?, p d = false) :
    n ≤ x.length := by
  refine Nat.le_of_not_lt fun more => ?_
  obtain ⟨m, rfl⟩ : ∃ m, n = x.length + (m + 1) := ⟨n - x.length - 1, by omega⟩
  cases rest with
  | nil =>
    have := taken.1
    rw [List.append_nil] at this
    omega
  | cons d rest =>
    have kind := taken.2 d (by rw [List.take_length_add_append]; exact List.mem_append_right _ List.mem_cons_self)
    rw [ends d rfl] at kind
    cases kind

end Takes

/-- A character of a number and of the name that may follow it. -/
def isNumeral (c : Char) : Bool := isIdentContinue c || c == '.' || c == '+' || c == '-'

theorem isIdentContinue_of_isDigit {c : Char} (digit : c.isDigit = true) : isIdentContinue c = true := by
  have letter : c.isAlphanum = true := Bool.or_eq_true_iff.mpr (.inr digit)
  rw [isIdentContinue, if_pos (isAscii_of_isAlphanum letter), letter, Bool.true_or]

theorem isNumeral_of_isIdentContinue {c : Char} (continues : isIdentContinue c = true) : isNumeral c = true := by
  rw [isNumeral, continues]
  rfl

theorem isNumeral_of_isDigitOr {c : Char} (h : isDigitOr c = true) : isNumeral c = true := by
  refine isNumeral_of_isIdentContinue ?_
  rcases Bool.or_eq_true_iff.mp h with digit | mark
  · exact isIdentContinue_of_isDigit digit
  · rw [beq_iff_eq.mp mark]
    decide

theorem isIdentContinue_of_isHexDigit {c : Char} (h : isHexDigit c = true) : isIdentContinue c = true := by
  have ascii : isAscii c = true := by
    simp only [isHexDigit, Bool.or_eq_true, Bool.and_eq_true, decide_eq_true_eq] at h
    refine decide_eq_true ?_
    rcases h with (digit | ⟨-, below⟩) | ⟨-, below⟩
    · exact Nat.lt_of_le_of_lt (of_decide_eq_true (Bool.and_eq_true_iff.mp digit).2) (by decide)
    · exact Nat.lt_of_le_of_lt below (by decide)
    · exact Nat.lt_of_le_of_lt below (by decide)
  exact of_isAscii (p := fun c => isHexDigit c = true → isIdentContinue c = true) (by decide +kernel) ascii h

section Number
variable {s : Chars} {m n : Nat}

theorem takes_plainName (h : plainName s = some n) :
    Takes isNumeral s n ∧ ∀ d ∈ (s.drop n).head?, isIdentContinue d = false := by
  unfold plainName at h
  split at h
  · cases h
  · rename_i c r
    obtain ⟨start, same⟩ := Option.ite_none_right_eq_some.mp h
    obtain rfl := Option.some.inj same
    have later : Takes isNumeral r (nameLength r) := takes_takeWhile fun _ => isNumeral_of_isIdentContinue
    have first : isNumeral c = true := isNumeral_of_isIdentContinue (isIdentContinue_of_isIdentStart start)
    have left : r.drop (nameLength r) = r.dropWhile isIdentContinue := by
      have dropped : (r.takeWhile isIdentContinue ++ r.dropWhile isIdentContinue).drop (nameLength r) =
          r.dropWhile isIdentContinue := List.drop_left' rfl
      rwa [List.takeWhile_append_dropWhile] at dropped
    constructor
    · rw [Nat.add_comm]
      exact (takes_one first).add later
    · intro d found
      have stops := List.head?_dropWhile_not isIdentContinue r
      rw [List.drop_succ_cons, left] at found
      rw [found] at stops
      exact stops

theorem takes_suffix : Takes isNumeral s (suffixLength s) := by
  unfold suffixLength
  cases found : plainName s with
  | none => exact takes_zero
  | some n => exact (takes_plainName found).1

theorem takes_exponent (h : exponent? s = some n) : Takes isNumeral s n := by
  obtain ⟨-, same⟩ := Option.ite_none_right_eq_some.mp h
  rw [← Option.some.inj same]
  refine Takes.add ?_ (takes_takeWhile fun _ => isNumeral_of_isDigitOr)
  split
  · exact takes_one (by decide)
  · exact takes_one (by decide)
  · exact takes_zero

theorem takes_exponentAt {k : Nat} {least : Option Nat} {e : Char} {r : Chars} (front : Takes isNumeral s k)
    (later : s.drop k = e :: r)
    (h : (if isExponentMark e then (exponent? r).map (k + 1 + ·) <|> least else least) = some n)
    (otherwise : least = some n → Takes isNumeral s n) : Takes isNumeral s n := by
  split at h
  · rename_i mark
    rw [Option.orElse_eq_orElse, Option.orElse_eq_or] at h
    rcases Option.or_eq_some_iff.mp h with found | ⟨-, found⟩
    · obtain ⟨m, digits, rfl⟩ := Option.map_eq_some_iff.mp found
      have kind : isNumeral e = true := by
        rcases Bool.or_eq_true_iff.mp mark with mark | mark <;> rw [beq_iff_eq.mp mark] <;> decide
      rw [Nat.add_assoc]
      exact front.add (later ▸ (takes_one kind).add (takes_exponent digits))
    · exact otherwise found
  · exact otherwise h

theorem takes_floatDigits (h : floatDigits s = some n) : Takes isNumeral s n := by
  unfold floatDigits at h
  split at h
  · cases h
  · rename_i c r
    split at h
    · cases h
    · have whole : Takes isNumeral (c :: r) ((c :: r).takeWhile isDigitOr).length :=
        takes_takeWhile fun _ => isNumeral_of_isDigitOr
      dsimp only at h
      split at h
      · rename_i r later
        split at h
        · cases h
        · have point : Takes isNumeral ('.' :: r) (1 + (r.takeWhile isDigitOr).length) :=
            (takes_one (by decide)).add (takes_takeWhile fun _ => isNumeral_of_isDigitOr)
          have front := whole.add (later ▸ point)
          rw [← Nat.add_assoc] at front
          split at h
          · rename_i e r later
            exact takes_exponentAt front later h fun same => Option.some.inj same ▸ front
          · exact Option.some.inj h ▸ front
      · split at h
        · rename_i e r later
          exact takes_exponentAt whole later h fun same => by cases same
        · cases h

theorem takes_based {base : Nat} {a b : Char} {r : Chars} (first : isNumeral a = true) (second : isNumeral b = true) :
    Takes isNumeral (a :: b :: r) ((r.takeWhile fun c => digitIn base c || c == '_').length + 2) := by
  have digits : Takes isNumeral r (r.takeWhile fun c => digitIn base c || c == '_').length := by
    refine takes_takeWhile fun d kind => isNumeral_of_isIdentContinue ?_
    rcases Bool.or_eq_true_iff.mp kind with digit | mark
    · exact isIdentContinue_of_isHexDigit (Bool.and_eq_true_iff.mp digit).1
    · rw [beq_iff_eq.mp mark]
      decide
  have marks : Takes isNumeral (a :: b :: r) 2 := (takes_one first).add (takes_one second)
  rw [Nat.add_comm]
  exact marks.add digits

theorem takes_intDigits (h : intDigits s = some n) : Takes isNumeral s n := by
  unfold intDigits at h
  dsimp only at h
  split at h
  · obtain ⟨-, same⟩ := Option.ite_none_right_eq_some.mp h
    rw [← Option.some.inj same]
    exact takes_based (by decide) (by decide)
  · obtain ⟨-, same⟩ := Option.ite_none_right_eq_some.mp h
    rw [← Option.some.inj same]
    exact takes_based (by decide) (by decide)
  · obtain ⟨-, same⟩ := Option.ite_none_right_eq_some.mp h
    rw [← Option.some.inj same]
    exact takes_based (by decide) (by decide)
  · obtain ⟨-, same⟩ := Option.ite_none_right_eq_some.mp h
    rw [← Option.some.inj same]
    exact takes_takeWhile fun _ => isNumeral_of_isDigitOr
  · cases h

theorem takes_wordBreak (front : Takes isNumeral s m) (h : wordBreak s (m + suffixLength (s.drop m)) = some n) :
    Takes isNumeral s n ∧ ∀ d ∈ (s.drop n).head?, isIdentContinue d = false := by
  obtain ⟨stops, same⟩ := Option.ite_none_left_eq_some.mp h
  obtain rfl := Option.some.inj same
  refine ⟨front.add takes_suffix, fun d found => ?_⟩
  rw [found, Option.any_some, Bool.not_eq_true] at stops
  exact stops

theorem takes_number (h : (float s <|> int s) = some n) :
    Takes isNumeral s n ∧ ∀ d ∈ (s.drop n).head?, isIdentContinue d = false := by
  rw [Option.orElse_eq_orElse, Option.orElse_eq_or] at h
  rcases Option.or_eq_some_iff.mp h with found | ⟨-, found⟩
  · obtain ⟨m, digits, found⟩ := Option.bind_eq_some_iff.mp found
    exact takes_wordBreak (takes_floatDigits digits) found
  · obtain ⟨m, digits, found⟩ := Option.bind_eq_some_iff.mp found
    exact takes_wordBreak (takes_intDigits digits) found

theorem number_eq_none {c : Char} {r : Chars} (digit : c.isDigit = false) :
    float (c :: r) = none ∧ int (c :: r) = none := by
  have noFloat : floatDigits (c :: r) = none := by
    rw [floatDigits, digit]
    rfl
  have noInt : intDigits (c :: r) = none := by
    unfold intDigits
    dsimp only
    split
    · rename_i same
      obtain ⟨rfl, -⟩ := List.cons.inj same
      cases digit
    · rename_i same
      obtain ⟨rfl, -⟩ := List.cons.inj same
      cases digit
    · rename_i same
      obtain ⟨rfl, -⟩ := List.cons.inj same
      cases digit
    · rename_i same
      obtain ⟨rfl, -⟩ := List.cons.inj same
      rw [digit]
      rfl
    · rfl
  rw [float, noFloat, int, noInt]
  exact ⟨rfl, rfl⟩

end Number

theorem comment_eq_none {s : Chars} (noComment : startsComment s = false) : comment s = none ∧ doc? s = none := by
  have mark {m : String} (longer : "//".toList <+: m.toList ∨ "/*".toList <+: m.toList) : startsWith m s = false := by
    rw [Bool.eq_false_iff]
    intro starts
    obtain ⟨noLine, noBlock⟩ := Bool.or_eq_false_iff.mp noComment
    rw [Bool.eq_false_iff] at noLine noBlock
    rcases longer with longer | longer
    · exact noLine (List.isPrefixOf_iff_prefix.mpr (longer.trans (List.isPrefixOf_iff_prefix.mp starts)))
    · exact noBlock (List.isPrefixOf_iff_prefix.mpr (longer.trans (List.isPrefixOf_iff_prefix.mp starts)))
  constructor
  · rw [comment, mark (m := "//") (by decide), mark (m := "/**/") (by decide), mark (m := "/*") (by decide)]
    rfl
  · unfold doc?
    rw [mark (m := "//!") (by decide), mark (m := "/*!") (by decide), mark (m := "///") (by decide),
      mark (m := "/**") (by decide)]
    rfl

section Token
variable {x rest : Chars}

theorem nameLength_append (chars : ∀ d ∈ x, isIdentContinue d = true) (ends : EndsName rest) :
    nameLength (x ++ rest) = x.length := by
  unfold nameLength
  have stops : rest.takeWhile isIdentContinue = [] := by
    cases rest with
    | nil => rfl
    | cons d rest => rw [List.takeWhile_cons, ends.not_continue d rfl, if_neg Bool.false_ne_true]
  rw [List.takeWhile_append_of_pos chars, stops, List.append_nil]

theorem ne_quote_word (word : IsWord x) (ends : EndsName rest) (s : Chars) : x ++ rest ≠ '\'' :: s := by
  intro same
  have starts : startsWith "'" (x ++ rest) = false := startsWith_mark word ends (by decide)
  rw [same] at starts
  cases starts

theorem quotedLiteral_word (word : IsWord x) (ends : EndsName rest) : quotedLiteral (x ++ rest) = none := by
  have mark {m : String} (isMark : IsMark m) : startsWith m (x ++ rest) = false := startsWith_mark word ends isMark
  have strings : ∀ m ∈ ["", "b", "c"], ∀ e, stringLike m e (x ++ rest) = none := by
    intro m mem e
    have marks : IsMark (m ++ "\"") ∧ IsMark (m ++ "r\"") ∧ IsMark (m ++ "r#") := by
      revert m
      decide
    rw [stringLike, mark marks.1, mark marks.2.1, mark marks.2.2]
    rfl
  have noByte : byte (x ++ rest) = none := by
    unfold byte
    split
    · rename_i same
      have starts := mark (m := "b'") (by decide)
      rw [same] at starts
      cases starts
    · rfl
  have noCharacter : character (x ++ rest) = none := by
    unfold character
    split
    · exact absurd ‹_› (ne_quote_word word ends _)
    · rfl
  rw [quotedLiteral, strings "" (by decide), strings "b" (by decide), strings "c" (by decide), noByte, noCharacter]
  rfl

theorem startsComment_word (word : IsWord x) (ends : EndsName rest) : startsComment (x ++ rest) = false := by
  have noLine : startsWith "//" (x ++ rest) = false := startsWith_mark word ends (by decide)
  have noBlock : startsWith "/*" (x ++ rest) = false := startsWith_mark word ends (by decide)
  rw [startsComment, noLine, noBlock]
  rfl

theorem isPunct_word (word : IsWord x) : isPunct (x ++ rest) = false := by
  cases x with
  | nil => exact (word.nonempty rfl).elim
  | cons c x =>
    obtain ⟨-, -, punct, -⟩ := begins_nothing_else (word.chars c List.mem_cons_self)
    rw [isPunct, List.cons_append, List.head?_cons, Option.any_some, punct, Bool.and_false]

theorem token?_word (word : IsWord x) (ends : EndsName rest) : token? (x ++ rest) =
    ((float (x ++ rest) <|> int (x ++ rest)).map (fun n => (.literal (String.ofList ((x ++ rest).take n)), n)) <|>
      (plainName (x ++ rest)).map fun n => (.ident (String.ofList ((x ++ rest).take n)), n)) := by
  have mark {m : String} (isMark : IsMark m) : startsWith m (x ++ rest) = false := startsWith_mark word ends isMark
  have number : literal (x ++ rest) = (float (x ++ rest) <|> int (x ++ rest)) := by
    rw [literal, quotedLiteral_word word ends]
    rfl
  have noLifetime : lifetime (x ++ rest) = none := by
    unfold lifetime
    split
    · exact absurd ‹_› (ne_quote_word word ends _)
    · rfl
  have plain : Lexer.name (x ++ rest) = plainName (x ++ rest) := by
    have marks : literalMarks.any (startsWith · (x ++ rest)) = false := by
      rw [List.any_eq_false]
      intro m mem
      have isMark : IsMark m := by
        revert m
        decide
      rw [mark isMark]
      exact Bool.false_ne_true
    rw [Lexer.name, marks, if_neg Bool.false_ne_true, anyName, mark (by decide), if_neg Bool.false_ne_true]
  unfold token?
  dsimp only
  rw [number, noLifetime, plain]
  split
  · rw [isPunct_word word]
    rfl
  · rfl

theorem lexeme?_word (word : IsWord x) (ends : EndsName rest) :
    lexeme? (x ++ rest) = (token? (x ++ rest)).map fun (t, n) => (.trees [.leaf t], n) := by
  obtain ⟨noComment, noDoc⟩ := comment_eq_none (startsComment_word word ends)
  cases x with
  | nil => exact (word.nonempty rfl).elim
  | cons c x =>
    obtain ⟨-, space, -, delimiter⟩ := begins_nothing_else (word.chars c List.mem_cons_self)
    rw [List.cons_append] at noComment noDoc ⊢
    rw [lexeme?, space, noComment, noDoc, delimiter]
    rfl

theorem lexeme?_name (name : IsAsciiName x) (ends : EndsName rest) :
    lexeme? (x ++ rest) = some (.trees [word (String.ofList x)], x.length) := by
  cases x with
  | nil => cases name.start
  | cons c r =>
    have digit : c.isDigit = false :=
      of_isAscii (p := fun c => isIdentStart c = true → c.isDigit = false) (by decide +kernel) name.first.1 name.first.2
    obtain ⟨noFloat, noInt⟩ := number_eq_none (r := r ++ rest) digit
    have plain : plainName (c :: r ++ rest) = some (c :: r).length := by
      rw [List.cons_append, plainName, if_pos name.first.2,
        nameLength_append (fun d mem => name.continues d (List.mem_cons_of_mem _ mem)) ends, List.length_cons]
    have text : (c :: r ++ rest).take (c :: r).length = c :: r := List.take_left' rfl
    rw [lexeme?_word name.isWord ends, token?_word name.isWord ends, plain, List.cons_append, noFloat, noInt]
    rw [← List.cons_append, Option.map_some, text]
    rfl

/-- A token that is read from a word: its name, or a number with the name that follows. -/
def IsTokenOf (x : Chars) (t : Token) : Prop := t = .ident (String.ofList x) ∨ t = .literal (String.ofList x)

theorem lexeme?_eq_some {l : Lexeme} {n : Nat} (word : IsWord x) (ends : EndsName rest)
    (h : lexeme? (x ++ rest) = some (l, n)) : n ≤ x.length ∧ (∀ d ∈ (x.drop n).head?, isIdentContinue d = false) ∧
      ∃ t, IsTokenOf (x.take n) t ∧ l = .trees [.leaf t] := by
  have within {k : Nat} (taken : Takes isNumeral (x ++ rest) k ∧
      ∀ d ∈ ((x ++ rest).drop k).head?, isIdentContinue d = false) : k ≤ x.length ∧
        (∀ d ∈ (x.drop k).head?, isIdentContinue d = false) ∧ (x ++ rest).take k = x.take k := by
    have few : k ≤ x.length := taken.1.le_length fun d found => by
      rcases ends d found with rfl | rfl | rfl <;> decide
    refine ⟨few, fun d found => taken.2 d ?_, List.take_append_of_le_length few⟩
    rw [List.drop_append_of_le_length few, List.head?_append, found]
    rfl
  rw [lexeme?_word word ends, token?_word word ends] at h
  obtain ⟨⟨t, k⟩, found, same⟩ := Option.map_eq_some_iff.mp h
  cases same
  rw [Option.orElse_eq_orElse, Option.orElse_eq_or] at found
  rcases Option.or_eq_some_iff.mp found with found | ⟨-, found⟩
  · obtain ⟨k, number, same⟩ := Option.map_eq_some_iff.mp found
    cases same
    obtain ⟨few, stops, text⟩ := within (takes_number number)
    exact ⟨few, stops, _, .inr (congrArg _ (congrArg _ text)), rfl⟩
  · obtain ⟨k, name, same⟩ := Option.map_eq_some_iff.mp found
    cases same
    obtain ⟨few, stops, text⟩ := within (takes_plainName name)
    exact ⟨few, stops, _, .inl (congrArg _ (congrArg _ text)), rfl⟩

theorem lexeme?_eq_none {c : Char} (word : IsWord (c :: x)) (ends : EndsName rest) (odd : isIdentContinue c = false) :
    lexeme? (c :: x ++ rest) = none := by
  have digit : c.isDigit = false := by
    rw [Bool.eq_false_iff] at odd ⊢
    exact fun digit => odd (isIdentContinue_of_isDigit digit)
  have start : ¬isIdentStart c = true := by
    rw [Bool.eq_false_iff] at odd
    exact fun start => odd (isIdentContinue_of_isIdentStart start)
  obtain ⟨noFloat, noInt⟩ := number_eq_none (r := x ++ rest) digit
  rw [lexeme?_word word ends, token?_word word ends, List.cons_append, noFloat, noInt, plainName, if_neg start]
  rfl

end Token

end Retype.Code.Lexer
