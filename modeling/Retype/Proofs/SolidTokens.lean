import Retype.Naming
import Retype.Proofs.Words

/-! Tokens in the text of a type.  A token that reads as itself where it stands alone does so in front of a blank and
of the signs that need no blank beside them: none of these goes on with a name, a number or a quoted text. -/

namespace Retype.Code.Lexer
open Retype.Text Retype.Naming

/-- A blank, or a sign that needs none beside it. -/
def endsToken (c : Char) : Bool := c == ' ' || isGlue c

def Ends (rest : Chars) : Prop := ∀ d ∈ rest.head?, endsToken d = true

theorem cases_of_endsToken {c : Char} (h : endsToken c = true) :
    c ∈ [' ', '<', '>', ':', '&', ',', '(', ')', '[', ']', ';'] := by
  simp only [endsToken, isGlue, Bool.or_eq_true, beq_iff_eq, or_assoc] at h
  simpa only [List.mem_cons, List.not_mem_nil, or_false] using h

theorem Ends.head {rest : Chars} (ends : Ends rest) {p : Char → Bool}
    (none : ([' ', '<', '>', ':', '&', ',', '(', ')', '[', ']', ';'].all fun c => !p c) = true) :
    ∀ d ∈ rest.head?, p d = false := by
  intro d found
  have listed := List.all_eq_true.mp none d (cases_of_endsToken (ends d found))
  rwa [Bool.not_eq_true'] at listed

section Ends
variable {x rest : Chars} (ends : Ends rest)
include ends

theorem startsWith_append {mark : String} (odd : (mark.toList.all fun c => !endsToken c) = true) :
    startsWith mark (x ++ rest) = startsWith mark x := by
  unfold startsWith
  generalize mark.toList = m at odd
  induction m generalizing x with
  | nil => rw [List.isPrefixOf_nil_left, List.isPrefixOf_nil_left]
  | cons c m ih =>
    rw [List.all_cons, Bool.and_eq_true, Bool.not_eq_true'] at odd
    cases x with
    | nil =>
      cases rest with
      | nil => rfl
      | cons d rest =>
        have other : (c == d) = false := by
          rw [beq_eq_false_iff_ne]
          rintro rfl
          rw [ends c rfl] at odd
          cases odd.1
        rw [List.nil_append, List.isPrefixOf_cons_cons, other]
        rfl
    | cons d x => rw [List.cons_append, List.isPrefixOf_cons_cons, List.isPrefixOf_cons_cons, ih odd.2]

omit ends in
theorem takeWhile_append {p : Char → Bool} (stops : ∀ d ∈ rest.head?, p d = false) :
    (x ++ rest).takeWhile p = x.takeWhile p := by
  induction x with
  | nil =>
    cases rest with
    | nil => rfl
    | cons d rest =>
      rw [List.nil_append, List.takeWhile_cons_of_neg (by rw [stops d rfl]; exact Bool.false_ne_true)]
      rfl
  | cons c x ih =>
    rw [List.cons_append, List.takeWhile_cons, List.takeWhile_cons, ih]

omit ends in
theorem drop_append {n : Nat} (few : n ≤ x.length) : (x ++ rest).drop n = x.drop n ++ rest :=
  List.drop_append_of_le_length few

theorem anyHead_of_ends {p : Char → Bool}
    (none : ([' ', '<', '>', ':', '&', ',', '(', ')', '[', ']', ';'].all fun c => !p c) = true) :
    (x ++ rest).head?.any p = x.head?.any p := by
  cases x with
  | nil =>
    cases rest with
    | nil => rfl
    | cons d rest => exact ends.head none d rfl
  | cons c x => rfl

theorem nameLength_of_ends : nameLength (x ++ rest) = nameLength x := by
  rw [nameLength, takeWhile_append (ends.head (by decide)), ← nameLength]

theorem plainName_of_ends : plainName (x ++ rest) = plainName x := by
  cases x with
  | nil =>
    cases rest with
    | nil => rfl
    | cons d rest =>
      have start : isIdentStart d = false := ends.head (by decide) d rfl
      change (if isIdentStart d = true then _ else none) = none
      rw [start]
      rfl
  | cons c x => rw [List.cons_append, plainName, plainName, nameLength_of_ends ends]

theorem suffixLength_of_ends : suffixLength (x ++ rest) = suffixLength x := by
  rw [suffixLength, plainName_of_ends ends, ← suffixLength]

omit ends in
theorem le_length_of_plainName {n : Nat} (h : plainName x = some n) : n ≤ x.length := (takes_plainName h).1.1

theorem anyName_of_ends : anyName (x ++ rest) = anyName x := by
  rw [anyName, anyName, startsWith_append ends (by decide)]
  by_cases raw : startsWith "r#" x = true
  · rw [if_pos raw, if_pos raw]
    have long : 2 ≤ x.length := (List.isPrefixOf_iff_prefix.mp raw).length_le
    rw [drop_append long, plainName_of_ends ends]
    cases found : plainName (x.drop 2) with
    | none => rfl
    | some n =>
      change (if unrawable.contains _ = true then _ else _) = if unrawable.contains _ = true then _ else _
      rw [List.take_append_of_le_length (le_length_of_plainName found)]
  · rw [if_neg raw, if_neg raw, plainName_of_ends ends]

theorem name_of_ends : name (x ++ rest) = name x := by
  have marks : (literalMarks.any fun m => startsWith m (x ++ rest)) = literalMarks.any fun m => startsWith m x := by
    have odd : ∀ m ∈ literalMarks, (m.toList.all fun c => !endsToken c) = true := by decide
    rw [Bool.eq_iff_iff, List.any_eq_true, List.any_eq_true]
    exact exists_congr fun m => and_congr_right fun mem => by rw [startsWith_append ends (odd m mem)]
  rw [name, name, marks, anyName_of_ends ends]

/-- How many characters the sign of an exponent takes. -/
def signLength (s : Chars) : Nat := if s.head?.any fun c => c == '+' || c == '-' then 1 else 0

omit ends in
theorem exponent?_eq : exponent? x = if ((x.drop (signLength x)).takeWhile isDigitOr).any Char.isDigit then
    some (signLength x + ((x.drop (signLength x)).takeWhile isDigitOr).length) else none := by
  unfold exponent?
  split
  · rfl
  · rfl
  · rename_i plus minus
    have unsigned : signLength x = 0 := by
      cases x with
      | nil => rfl
      | cons c x =>
        refine if_neg fun signed => ?_
        rcases Bool.or_eq_true_iff.mp signed with same | same
        · exact plus x (by rw [beq_iff_eq.mp same])
        · exact minus x (by rw [beq_iff_eq.mp same])
    rw [unsigned]

theorem exponent?_of_ends : exponent? (x ++ rest) = exponent? x := by
  have sign : signLength (x ++ rest) = signLength x := by
    rw [signLength, anyHead_of_ends ends (by decide), ← signLength]
  have within : signLength x ≤ x.length := by
    cases x with
    | nil => exact Nat.le_refl 0
    | cons c x =>
      refine Nat.le_trans (m := 1) ?_ (Nat.succ_le_succ (Nat.zero_le _))
      unfold signLength
      split <;> decide
  rw [exponent?_eq, sign, drop_append within, takeWhile_append (ends.head (by decide)), ← exponent?_eq]

/-- An exponent that may follow `n` characters of a number. -/
def exponentAt (s : Chars) (n : Nat) (least : Option Nat) : Option Nat :=
  match s.drop n with
  | e :: r => if isExponentMark e then (exponent? r).map (n + 1 + ·) <|> least else least
  | [] => least

theorem exponentAt_of_ends {n : Nat} (few : n ≤ x.length) (least : Option Nat) :
    exponentAt (x ++ rest) n least = exponentAt x n least := by
  rw [exponentAt, exponentAt, drop_append few]
  cases x.drop n with
  | nil =>
    cases rest with
    | nil => rfl
    | cons d rest =>
      have unmarked : isExponentMark d = false := ends.head (by decide) d rfl
      rw [List.nil_append]
      dsimp only
      rw [unmarked]
      rfl
  | cons e y =>
    rw [List.cons_append]
    dsimp only
    rw [exponent?_of_ends ends]

omit ends in
theorem floatDigits_cons {c : Char} (digit : c.isDigit = true) : floatDigits (c :: x) =
    match (c :: x).drop ((c :: x).takeWhile isDigitOr).length with
    | '.' :: r =>
      if r.head?.any fun d => d == '.' || isIdentStart d then none
      else exponentAt (c :: x) (((c :: x).takeWhile isDigitOr).length + 1 + (r.takeWhile isDigitOr).length)
        (some (((c :: x).takeWhile isDigitOr).length + 1 + (r.takeWhile isDigitOr).length))
    | _ => exponentAt (c :: x) ((c :: x).takeWhile isDigitOr).length none := by
  unfold floatDigits
  dsimp only
  rw [if_neg (by rw [digit]; exact Bool.false_ne_true)]
  rfl

theorem floatDigits_of_isDigit {c : Char} (digit : c.isDigit = true) :
    floatDigits (c :: x ++ rest) = floatDigits (c :: x) := by
  have run (y : Chars) : (y ++ rest).takeWhile isDigitOr = y.takeWhile isDigitOr :=
    takeWhile_append (ends.head (by decide))
  have within : ((c :: x).takeWhile isDigitOr).length ≤ (c :: x).length := (List.takeWhile_prefix _).length_le
  have exponent {n : Nat} (few : n ≤ (c :: x).length) (least : Option Nat) :=
    exponentAt_of_ends ends few least
  rw [List.cons_append, floatDigits_cons digit, floatDigits_cons digit, ← List.cons_append, run, drop_append within]
  generalize ((c :: x).takeWhile isDigitOr).length = n at within
  cases left : (c :: x).drop n with
  | nil =>
    cases rest with
    | nil => exact exponent within none
    | cons d rest =>
      have plain : d ≠ '.' := by
        rintro rfl
        cases ends '.' rfl
      rw [List.nil_append]
      split
      · rename_i same
        exact (plain (List.cons.inj same).1).elim
      · exact exponent within none
  | cons d y =>
    rw [List.cons_append]
    by_cases point : d = '.'
    · subst point
      have after : ((y ++ rest).head?.any fun d => d == '.' || isIdentStart d) =
          y.head?.any fun d => d == '.' || isIdentStart d := anyHead_of_ends ends (by decide)
      have enough : n + 1 + (y.takeWhile isDigitOr).length ≤ (c :: x).length := by
        have taken : (y.takeWhile isDigitOr).length ≤ y.length := (List.takeWhile_prefix _).length_le
        have length := congrArg List.length left
        rw [List.length_drop] at length
        change (c :: x).length - n = y.length + 1 at length
        omega
      change (if _ then none else _) = if _ then none else _
      rw [after, run, exponent enough]
    · split
      · rename_i same
        exact (point (List.cons.inj same).1).elim
      · rw [exponent within none]
        split
        · rename_i same
          exact (point (List.cons.inj same).1).elim
        · rfl

theorem floatDigits_of_ends : floatDigits (x ++ rest) = floatDigits x := by
  cases x with
  | nil =>
    cases rest with
    | nil => rfl
    | cons d rest =>
      have digit : d.isDigit = false := ends.head (by decide) d rfl
      have none : floatDigits [] = none := rfl
      rw [List.nil_append, none, floatDigits, digit]
      rfl
  | cons c x =>
    by_cases digit : c.isDigit = true
    · exact floatDigits_of_isDigit ends digit
    · rw [Bool.not_eq_true] at digit
      rw [List.cons_append, floatDigits, floatDigits, digit]
      rfl

def basedDigits (base : Nat) (s : Chars) : Option Nat :=
  let run := s.takeWhile fun c => digitIn (if base = 16 then 16 else 10) c || c == '_'
  if run.any (· != '_') && run.all (fun c => c == '_' || digitIn base c) then some (run.length + 2) else none

omit ends in
theorem intDigits_eq : intDigits x =
    if startsWith "0x" x then basedDigits 16 (x.drop 2)
    else if startsWith "0o" x then basedDigits 8 (x.drop 2)
    else if startsWith "0b" x then basedDigits 2 (x.drop 2)
    else if x.head?.any Char.isDigit then some (x.takeWhile isDigitOr).length
    else none := by
  unfold intDigits
  dsimp only
  split
  · rfl
  · rfl
  · rfl
  · rename_i c r hex octal binary
    have other {mark : String} {a : Char} (text : mark.toList = ['0', a])
        (unlike : ∀ r', c = '0' → r = a :: r' → False) : ¬startsWith mark (c :: r) = true := by
      intro starts
      obtain ⟨r', whole⟩ := List.isPrefixOf_iff_prefix.mp starts
      rw [text] at whole
      obtain ⟨first, second⟩ := List.cons.inj whole
      exact unlike r' first.symm second.symm
    rw [if_neg (other rfl hex), if_neg (other rfl octal), if_neg (other rfl binary)]
    rfl
  · rfl

theorem intDigits_of_ends : intDigits (x ++ rest) = intDigits x := by
  have based (base : Nat) (few : 2 ≤ x.length) : basedDigits base ((x ++ rest).drop 2) = basedDigits base (x.drop 2) := by
    have stops : ∀ d ∈ rest.head?, (digitIn (if base = 16 then 16 else 10) d || d == '_') = false := by
      split <;> exact ends.head (p := fun d => digitIn _ d || d == '_') (by decide)
    rw [drop_append few, basedDigits, takeWhile_append stops, ← basedDigits]
  have marked {mark : String} (starts : startsWith mark x = true) : mark.toList.length ≤ x.length :=
    (List.isPrefixOf_iff_prefix.mp starts).length_le
  have digit : (x ++ rest).head?.any Char.isDigit = x.head?.any Char.isDigit := anyHead_of_ends ends (by decide)
  rw [intDigits_eq, intDigits_eq, startsWith_append ends (by decide), startsWith_append ends (by decide),
    startsWith_append ends (by decide), digit, takeWhile_append (ends.head (by decide))]
  by_cases hex : startsWith "0x" x = true
  · rw [if_pos hex, if_pos hex, based 16 (marked hex)]
  rw [if_neg hex, if_neg hex]
  by_cases octal : startsWith "0o" x = true
  · rw [if_pos octal, if_pos octal, based 8 (marked octal)]
  rw [if_neg octal, if_neg octal]
  by_cases binary : startsWith "0b" x = true
  · rw [if_pos binary, if_pos binary, based 2 (marked binary)]
  rw [if_neg binary, if_neg binary]

theorem wordBreak_of_ends {n : Nat} (few : n ≤ x.length) : wordBreak (x ++ rest) n = wordBreak x n := by
  rw [wordBreak, drop_append few, anyHead_of_ends ends (by decide), ← wordBreak]

theorem number_of_ends : float (x ++ rest) = float x ∧ int (x ++ rest) = int x := by
  have suffix {n : Nat} (few : n ≤ x.length) : wordBreak (x ++ rest) (n + suffixLength ((x ++ rest).drop n)) =
      wordBreak x (n + suffixLength (x.drop n)) := by
    have within : n + suffixLength (x.drop n) ≤ x.length := by
      have length := (takes_suffix (s := x.drop n)).1
      rw [List.length_drop] at length
      omega
    rw [drop_append few, suffixLength_of_ends ends, wordBreak_of_ends ends within]
  constructor
  · rw [float, float, floatDigits_of_ends ends]
    cases digits : floatDigits x with
    | none => rfl
    | some n => exact suffix (takes_floatDigits digits).1
  · rw [int, int, intDigits_of_ends ends]
    cases digits : intDigits x with
    | none => rfl
    | some n => exact suffix (takes_intDigits digits).1

end Ends

/-- What is read alone is read whatever follows. -/
def Settled (r : Recogniser) : Prop := ∀ {x : Chars} {n : Nat}, r x = some n → ∀ y, r (x ++ y) = some n ∧ n ≤ x.length

section Quoted
variable {e : Escapes}

theorem takeWhile_append_of_mem {p : Char → Bool} {x : Chars} (stops : ∃ c ∈ x, p c = false) (y : Chars) :
    (x ++ y).takeWhile p = x.takeWhile p := by
  obtain ⟨c, mem, odd⟩ := stops
  have short : (x.takeWhile p).length ≠ x.length := by
    intro whole
    have same := (List.takeWhile_prefix p).eq_of_length whole
    have kind := List.all_eq_true.mp (List.all_takeWhile (l := x)) c (by rw [same]; exact mem)
    rw [odd] at kind
    cases kind
  rw [List.takeWhile_append, if_neg short]

theorem admits_append {x : Chars} (h : e.admits x = true) (y : Chars) : e.admits (x ++ y) = true := by
  revert h
  fun_cases Escapes.admits e x with
  | case2 r =>
    intro h
    rw [Bool.and_eq_true, Bool.and_eq_true] at h
    obtain ⟨⟨unicode, closed⟩, valid⟩ := h
    have mem := List.contains_iff_mem.mp closed
    have closes : ∃ c ∈ r, (c != '\x7d') = false := ⟨'\x7d', mem, by decide⟩
    rw [List.cons_append, List.cons_append, Escapes.admits, takeWhile_append_of_mem closes, unicode, valid,
      List.contains_iff_mem.mpr (List.mem_append_left _ mem)]
    rfl
  | case10 =>
    intro h
    cases h
  | _ => exact id

theorem settled_add {r : Recogniser} {x y : Chars} {k n : Nat}
    (settled : ∀ {m : Nat}, r x = some m → r (x ++ y) = some m ∧ m ≤ x.length) (h : (r x).map (· + k) = some n) :
    (r (x ++ y)).map (· + k) = some n ∧ n ≤ x.length + k := by
  obtain ⟨m, later, rfl⟩ := Option.map_eq_some_iff.mp h
  obtain ⟨same, few⟩ := settled later
  refine ⟨?_, Nat.add_le_add_right few k⟩
  rw [same]
  rfl

theorem settled_quotedRest : Settled (quotedRest e) := by
  intro x n h y
  fun_induction quotedRest e x generalizing n with
  | case2 r =>
    cases h
    exact ⟨rfl, Nat.succ_le_succ (Nat.zero_le _)⟩
  | case3 r ih => exact settled_add ih h
  | case5 r ih => exact settled_add ih h
  | case6 r ih => exact settled_add ih h
  | case7 c r line lines escape ih =>
    -- a line break that begins at the end of `x` would be read otherwise, but no escape begins as one
    have carriage : c ≠ '\r' := by
      rintro rfl
      cases escape
    have admitted : e.admits (c :: (r ++ y)) = true := admits_append escape y
    rw [List.cons_append, List.cons_append, quotedRest, if_pos admitted]
    · exact settled_add ih h
    · exact line
    · exact fun _ same _ => carriage same
  | case9 c r quote returns carriage line lines escape plain ih =>
    -- a lone backslash ends `x` only where nothing is read
    have backslash : c ≠ '\\' := by
      intro isBackslash
      cases r with
      | nil => cases h
      | cons d r => exact escape d r isBackslash rfl
    rw [List.cons_append, quotedRest, if_pos plain]
    · exact settled_add ih h
    · exact quote
    · exact fun _ same _ => carriage same
    · exact carriage
    · exact fun _ same _ => backslash same
    · exact fun _ same _ => backslash same
    · exact fun _ _ same _ => backslash same
  | _ => cases h

theorem lt_of_rawRest {hashes : Nat} {x : Chars} {n : Nat} (h : rawRest e hashes x = some n) : hashes < n := by
  fun_induction rawRest e hashes x generalizing n with
  | case2 r closed =>
    cases h
    exact Nat.lt_succ_self _
  | case3 r opened ih | case4 r ih | case6 c r quote returns carriage plain ih =>
    obtain ⟨m, later, rfl⟩ := Option.map_eq_some_iff.mp h
    exact Nat.lt_add_right _ (ih later)
  | _ => cases h

theorem settled_rawRest (hashes : Nat) : Settled (rawRest e hashes) := by
  intro x n h y
  fun_induction rawRest e hashes x generalizing n with
  | case2 r closed =>
    cases h
    have closes := Bool.and_eq_true_iff.mp closed
    have enough : hashes ≤ r.length := by
      have length := of_decide_eq_true closes.1
      rw [List.length_take] at length
      omega
    refine ⟨?_, Nat.succ_le_succ enough⟩
    rw [List.cons_append, rawRest, List.take_append_of_le_length enough, if_pos closed]
  | case3 r opened ih =>
    -- the quote that closes the text is in `r`, so `y` adds no hash signs to this one
    obtain ⟨m, later, -⟩ := Option.map_eq_some_iff.mp h
    have enough : hashes ≤ r.length := Nat.le_trans (Nat.le_of_lt (lt_of_rawRest later)) (ih later).2
    rw [List.cons_append, rawRest, List.take_append_of_le_length enough, if_neg opened]
    exact settled_add ih h
  | case4 r ih => exact settled_add ih h
  | case6 c r quote returns carriage plain ih =>
    rw [List.cons_append, rawRest, if_pos plain]
    · exact settled_add ih h
    · exact quote
    · exact fun _ same _ => carriage same
    · exact carriage
  | _ => cases h

theorem settled_rawLiteral : Settled (rawLiteral e) := by
  intro x n h y
  unfold rawLiteral at h
  dsimp only at h
  split at h
  · rename_i r opened
    obtain ⟨small, h⟩ := Option.ite_none_right_eq_some.mp h
    obtain ⟨k, later, rfl⟩ := Option.map_eq_some_iff.mp h
    obtain ⟨same, few⟩ := settled_rawRest _ later y
    have quote : '"' ∈ x := List.mem_of_mem_drop (by rw [opened]; exact List.mem_cons_self)
    have hashes := takeWhile_append_of_mem (p := (· == '#')) ⟨'"', quote, rfl⟩ y
    have within : (x.takeWhile (· == '#')).length ≤ x.length := (List.takeWhile_prefix _).length_le
    constructor
    · rw [rawLiteral, hashes]
      rw [List.drop_append_of_le_length within, opened, List.cons_append]
      change (if _ then Option.map _ (rawRest e _ (r ++ y)) else none) = _
      rw [if_pos small, same]
      rfl
    · have length := congrArg List.length opened
      rw [List.length_drop, List.length_cons] at length
      omega
  · cases h

theorem settled_characterRest : Settled (characterRest e) := by
  intro x n h y
  revert h
  fun_cases characterRest e x with
  | case1 r closed =>
    intro h
    cases h
    obtain ⟨admitted, close⟩ := Bool.and_eq_true_iff.mp closed
    have close := beq_iff_eq.mp close
    obtain ⟨within, -⟩ := List.getElem?_eq_some_iff.mp close
    have admits : e.admits ('x' :: (r ++ y)) = true := admits_append admitted y
    refine ⟨?_, Nat.add_le_add_right within 2⟩
    rw [List.cons_append, List.cons_append, characterRest, admits, List.getElem?_append_left within, close]
    rfl
  | case3 r length closed =>
    intro h
    cases h
    obtain ⟨admitted, close⟩ := Bool.and_eq_true_iff.mp closed
    have close := beq_iff_eq.mp close
    obtain ⟨within, -⟩ := List.getElem?_eq_some_iff.mp close
    have admits : e.admits ('u' :: (r ++ y)) = true := admits_append admitted y
    have run : (r ++ y).takeWhile (· != '\x7d') = r.takeWhile (· != '\x7d') := by
      rw [List.takeWhile_append, if_neg (Nat.ne_of_lt (Nat.lt_of_succ_lt within))]
    refine ⟨?_, by rw [List.length_cons, List.length_cons]; omega⟩
    rw [List.cons_append, List.cons_append, characterRest, run, admits, List.getElem?_append_left within, close]
    rfl
  | case5 c r hex unicode admitted =>
    intro h
    cases h
    refine ⟨?_, Nat.le_add_left 3 r.length⟩
    rw [List.cons_append, List.cons_append, List.cons_append, characterRest, if_pos admitted]
    · exact hex
    · exact unicode
  | case8 c r _ backslash plain =>
    intro h
    cases h
    refine ⟨?_, Nat.le_add_left 2 r.length⟩
    rw [List.cons_append, List.cons_append, characterRest, if_pos plain]
    · exact fun _ same _ => backslash same
    · exact backslash
  | _ =>
    intro h
    cases h

/-- The marks that a text with quotes begins with. -/
def stringMarks (mark : String) : List String := [mark ++ "\"", mark ++ "r\"", mark ++ "r#"]

/-- The recognisers of literals with quotes, and the marks that each looks for. -/
def quoted : List (List String × Recogniser) :=
  [(stringMarks "", stringLike "" Escapes.text), (stringMarks "b", stringLike "b" Escapes.bytes),
    (stringMarks "c", stringLike "c" Escapes.terminated), (["b'"], byte), (["'"], character)]

theorem quotedLiteral_eq (s : Chars) :
    quotedLiteral s = (quoted.findSome? fun q => q.2 s).map fun n => n + suffixLength (s.drop n) := by
  have first (q : List String × Recogniser) (more : List (List String × Recogniser)) :
      ((q :: more).findSome? fun q => q.2 s) = (q.2 s <|> more.findSome? fun q => q.2 s) := by
    rw [List.findSome?_cons]
    cases q.2 s <;> rfl
  have last : (character s <|> ([] : List (List String × Recogniser)).findSome? fun q => q.2 s) = character s := by
    cases character s <;> rfl
  rw [quoted, first, first, first, first, first, last, quotedLiteral, Option.map_eq_bind]
  rfl

theorem quoted_apart : quoted.Pairwise fun q r => ∀ m ∈ q.1, ∀ m' ∈ r.1,
    ¬m.toList <+: m'.toList ∧ ¬m'.toList <+: m.toList := by
  have apart : (quoted.map (·.1)).Pairwise fun q r => ∀ m ∈ q, ∀ m' ∈ r,
      ¬m.toList <+: m'.toList ∧ ¬m'.toList <+: m.toList := by decide
  exact List.pairwise_map.mp apart

theorem marked_of_stringLike {mark : String} {s : Chars} {n : Nat} (h : stringLike mark e s = some n) :
    ∃ m ∈ stringMarks mark, startsWith m s = true := by
  unfold stringLike at h
  split at h
  · exact ⟨_, List.mem_cons_self, ‹_›⟩
  · split at h
    · rename_i raw
      rcases Bool.or_eq_true_iff.mp raw with raw | raw
      · exact ⟨_, List.mem_cons_of_mem _ List.mem_cons_self, raw⟩
      · exact ⟨_, List.mem_cons_of_mem _ (List.mem_cons_of_mem _ List.mem_cons_self), raw⟩
    · cases h

theorem marked {q : List String × Recogniser} (mem : q ∈ quoted) {s : Chars} {n : Nat} (h : q.2 s = some n) :
    ∃ m ∈ q.1, startsWith m s = true := by
  simp only [quoted, List.mem_cons, List.not_mem_nil, or_false] at mem
  rcases mem with rfl | rfl | rfl | rfl | rfl
  · exact marked_of_stringLike h
  · exact marked_of_stringLike h
  · exact marked_of_stringLike h
  · refine ⟨_, List.mem_cons_self, ?_⟩
    change byte s = some n at h
    unfold byte at h
    split at h
    · rfl
    · cases h
  · refine ⟨_, List.mem_cons_self, ?_⟩
    change character s = some n at h
    unfold character at h
    split at h
    · rfl
    · cases h

theorem quoted_exclusive {before after : List (List String × Recogniser)} {q r : List String × Recogniser}
    (split : quoted = before ++ r :: after) (mem : q ∈ before) {s : Chars} {m m' : String} (first : m ∈ q.1)
    (second : m' ∈ r.1) (starts : startsWith m s = true) (starts' : startsWith m' s = true) : False := by
  have apart := quoted_apart
  rw [split] at apart
  have none := (List.pairwise_append.mp apart).2.2 q mem r List.mem_cons_self m first m' second
  rcases List.prefix_or_prefix_of_prefix (List.isPrefixOf_iff_prefix.mp starts)
    (List.isPrefixOf_iff_prefix.mp starts') with inside | inside
  · exact none.1 inside
  · exact none.2 inside

theorem settled_after {r : Recogniser} (settled : Settled r) {k n : Nat} {x : Chars} (few : k ≤ x.length)
    (h : after k r x = some n) (y : Chars) : after k r (x ++ y) = some n ∧ n ≤ x.length := by
  obtain ⟨m, later, rfl⟩ := Option.map_eq_some_iff.mp h
  obtain ⟨same, within⟩ := settled later y
  rw [List.length_drop] at within
  refine ⟨?_, by omega⟩
  rw [after, List.drop_append_of_le_length few, same]
  rfl

theorem settled_byte : Settled byte := by
  intro x n h y
  unfold byte at h
  split at h
  · exact settled_add (fun later => settled_characterRest later y) h
  · cases h

theorem settled_character : Settled character := by
  intro x n h y
  unfold character at h
  split at h
  · exact settled_add (fun later => settled_characterRest later y) h
  · cases h

end Quoted

section Ends
variable {x rest : Chars} (ends : Ends rest)
include ends

theorem stringLike_of_ends {mark : String} {e : Escapes} {n : Nat}
    (odd : ∀ m ∈ stringMarks mark, (m.toList.all fun c => !endsToken c) = true) (h : stringLike mark e x = some n) :
    stringLike mark e (x ++ rest) = some n ∧ n ≤ x.length := by
  have mark' {m : String} (mem : m ∈ stringMarks mark) : startsWith m (x ++ rest) = startsWith m x :=
    startsWith_append ends (odd m mem)
  have long {m : String} (mem : m ∈ stringMarks mark) (starts : startsWith m x = true) : mark.length + 1 ≤ x.length := by
    have within : m.toList.length ≤ x.length := (List.isPrefixOf_iff_prefix.mp starts).length_le
    simp only [stringMarks, List.mem_cons, List.not_mem_nil, or_false] at mem
    rcases mem with rfl | rfl | rfl <;>
    · rw [String.toList_append, List.length_append, String.length_toList] at within
      exact Nat.le_trans (Nat.add_le_add_left (by decide) _) within
  unfold stringLike at h ⊢
  rw [mark' (List.mem_cons_self), mark' (List.mem_cons_of_mem _ List.mem_cons_self),
    mark' (List.mem_cons_of_mem _ (List.mem_cons_of_mem _ List.mem_cons_self))]
  split at h
  · rename_i plain
    rw [if_pos plain]
    exact settled_after settled_quotedRest (long List.mem_cons_self plain) h rest
  · rename_i plain
    rw [if_neg plain]
    split at h
    · rename_i raw
      rw [if_pos raw]
      have few : mark.length + 1 ≤ x.length := by
        rcases Bool.or_eq_true_iff.mp raw with raw | raw
        · exact long (List.mem_cons_of_mem _ List.mem_cons_self) raw
        · exact long (List.mem_cons_of_mem _ (List.mem_cons_of_mem _ List.mem_cons_self)) raw
      exact settled_after settled_rawLiteral few h rest
    · cases h

theorem quoted_of_ends {q : List String × Recogniser} (mem : q ∈ quoted) {n : Nat} (h : q.2 x = some n) :
    q.2 (x ++ rest) = some n ∧ n ≤ x.length := by
  simp only [quoted, List.mem_cons, List.not_mem_nil, or_false] at mem
  rcases mem with rfl | rfl | rfl | rfl | rfl
  · exact stringLike_of_ends ends (by decide) h
  · exact stringLike_of_ends ends (by decide) h
  · exact stringLike_of_ends ends (by decide) h
  · exact settled_byte h rest
  · exact settled_character h rest

theorem quotedLiteral_of_ends {n : Nat} (h : quotedLiteral x = some n) : quotedLiteral (x ++ rest) = some n := by
  rw [quotedLiteral_eq] at h ⊢
  obtain ⟨k, found, rfl⟩ := Option.map_eq_some_iff.mp h
  obtain ⟨before, r, after, split, read, -⟩ := List.findSome?_eq_some_iff.mp found
  have mem : r ∈ quoted := by
    rw [split]
    exact List.mem_append_right _ List.mem_cons_self
  obtain ⟨same, few⟩ := quoted_of_ends ends mem read
  obtain ⟨m', second, starts'⟩ := marked mem same
  have found' : (quoted.findSome? fun q => q.2 (x ++ rest)) = some k := by
    refine List.findSome?_eq_some_iff.mpr ⟨before, r, after, split, same, fun q earlier => ?_⟩
    cases unread : q.2 (x ++ rest) with
    | none => rfl
    | some k =>
      have kind : q ∈ quoted := by
        rw [split]
        exact List.mem_append_left _ earlier
      obtain ⟨m, first, starts⟩ := marked kind unread
      exact (quoted_exclusive split earlier first second starts starts').elim
  rw [found', Option.map_some, drop_append few, suffixLength_of_ends ends]

omit ends in
theorem le_length_of_anyName {n : Nat} (h : anyName x = some n) : n ≤ x.length := by
  unfold anyName at h
  split at h
  · obtain ⟨m, found, h⟩ := Option.bind_eq_some_iff.mp h
    obtain ⟨-, same⟩ := Option.ite_none_left_eq_some.mp h
    have within := le_length_of_plainName found
    have long : 2 ≤ x.length := (List.isPrefixOf_iff_prefix.mp ‹startsWith "r#" x = true›).length_le
    rw [List.length_drop] at within
    have := Option.some.inj same
    omega
  · exact le_length_of_plainName h

omit ends in
theorem lifetime_cons {c : Char} (plain : c ≠ '\'') (s : Chars) : lifetime (c :: s) = none := by
  unfold lifetime
  split
  · exact (plain (List.cons.inj ‹_›).1).elim
  · rfl

theorem lifetime_of_ends : lifetime (x ++ rest) = lifetime x := by
  cases x with
  | nil =>
    cases rest with
    | nil => rfl
    | cons d rest =>
      refine lifetime_cons ?_ rest
      rintro rfl
      cases ends '\'' rfl
  | cons c x =>
    rw [List.cons_append]
    by_cases quote : c = '\''
    · subst quote
      rw [lifetime, lifetime, anyName_of_ends ends, startsWith_append ends (by decide)]
      cases found : anyName x with
      | none => rfl
      | some n =>
        rw [Option.bind_eq_bind, Option.bind_some, Option.bind_some, drop_append (le_length_of_anyName found)]
        cases x.drop n with
        | nil =>
          rw [List.nil_append]
          split
          · cases ends '\'' rfl
          · cases ends '#' rfl
          · rfl
        | cons d y =>
          rw [List.cons_append]
          split
          · obtain ⟨rfl, -⟩ := List.cons.inj ‹d :: (y ++ rest) = _›
            rfl
          · obtain ⟨rfl, -⟩ := List.cons.inj ‹d :: (y ++ rest) = _›
            rfl
          · rename_i quote hash
            split
            · obtain ⟨rfl, -⟩ := List.cons.inj ‹d :: y = _›
              exact (quote _ rfl).elim
            · obtain ⟨rfl, -⟩ := List.cons.inj ‹d :: y = _›
              exact (hash _ rfl).elim
            · rfl
    · rw [lifetime_cons quote, lifetime_cons quote]

end Ends

def isSign : Token → Bool
  | .punct _ _ => true
  | _ => false

/-- A token that is no sign, read from its text where it stands alone. -/
structure Solid (t : Token) (x : Chars) : Prop where
  alone : token? x = some (t, x.length)
  word : isSign t = false
  visible : x.head?.any isSpace = false

instance (t : Token) (x : Chars) : Decidable (Solid t x) :=
  decidable_of_iff (token? x = some (t, x.length) ∧ isSign t = false ∧ x.head?.any isSpace = false)
    ⟨fun h => ⟨h.1, h.2.1, h.2.2⟩, fun h => ⟨h.alone, h.word, h.visible⟩⟩

theorem quotedLiteral_eq_none {s : Chars} (unread : ∀ q ∈ quoted, q.2 s = none) : quotedLiteral s = none := by
  rw [quotedLiteral_eq, List.findSome?_eq_none_iff.mpr unread]
  rfl

theorem head_of_startsWith {m : String} {c d : Char} {s : Chars} (starts : startsWith m (c :: s) = true)
    (found : m.toList.head? = some d) : d = c := by
  obtain ⟨more, same⟩ := List.isPrefixOf_iff_prefix.mp starts
  have heads := congrArg List.head? same
  rw [List.head?_append, found] at heads
  exact Option.some.inj heads

theorem literal_eq (s : Chars) : literal s = (quotedLiteral s).or (float s <|> int s) := Option.orElse_eq_or

def signToken? : Chars → Option (Token × Nat)
  | c :: r => if isPunct (c :: r) && c != '\'' then some (.punct (String.singleton c) (isPunct r), 1) else none
  | [] => none

theorem token?_eq (s : Chars) : token? s =
    ((literal s).map fun n => (.literal (String.ofList (s.take n)), n)).or
      (((lifetime s).map fun n => (.lifetime (String.ofList (s.take n)), n)).or
        ((signToken? s).or ((Lexer.name s).map fun n => (.ident (String.ofList (s.take n)), n)))) := by
  unfold token?
  simp only [Option.orElse_eq_orElse, Option.orElse_eq_or]
  cases s <;> rfl

theorem unread_of_marks {q : List String × Recogniser} (mem : q ∈ quoted) {s : Chars}
    (unmarked : ∀ m ∈ q.1, startsWith m s = false) : q.2 s = none := by
  cases read : q.2 s with
  | none => rfl
  | some n =>
    obtain ⟨m, kind, starts⟩ := marked mem read
    rw [unmarked m kind] at starts
    cases starts

theorem unread_of_head {q : List String × Recogniser} (mem : q ∈ quoted) {c : Char}
    (other : ∀ m ∈ q.1, m.toList.head?.any (· != c) = true) (s : Chars) : q.2 (c :: s) = none := by
  refine unread_of_marks mem fun m kind => ?_
  obtain ⟨d, found, unlike⟩ := (Option.any_eq_true _ _).mp (other m kind)
  rw [Bool.eq_false_iff]
  exact fun starts => bne_iff_ne.mp unlike (head_of_startsWith starts found)

theorem quotedLiteral_cons {p : Char → Bool} (marks : ∀ q ∈ quoted.map (·.1), ∀ m ∈ q, m.toList.head?.any p = true)
    {c : Char} (other : p c = false) (s : Chars) : quotedLiteral (c :: s) = none := by
  refine quotedLiteral_eq_none fun q mem => unread_of_head mem (fun m kind => ?_) s
  obtain ⟨d, found, isMark⟩ := (Option.any_eq_true _ _).mp (marks q.1 (List.mem_map_of_mem mem) m kind)
  refine (Option.any_eq_true _ _).mpr ⟨d, found, bne_iff_ne.mpr ?_⟩
  rintro rfl
  rw [other] at isMark
  cases isMark

theorem characterRest_cons {e : Escapes} {c : Char} (plain : c ≠ '\\') (s : Chars) : characterRest e (c :: s) =
    if s.head?.any (· == '\'') && (e.wide || isAscii c) then some 2 else none := by
  have other {s : Chars} (unclosed : ∀ r, s ≠ '\'' :: r) : characterRest e (c :: s) = none := by
    unfold characterRest
    split
    · exact (plain (List.cons.inj ‹_›).1).elim
    · exact (plain (List.cons.inj ‹_›).1).elim
    · exact (plain (List.cons.inj ‹_›).1).elim
    · exact (plain (List.cons.inj ‹_›).1).elim
    · exact (unclosed _ (List.cons.inj ‹_›).2).elim
    · rfl
  cases s with
  | nil => exact other fun _ same => by cases same
  | cons d s =>
    by_cases quote : d = '\''
    · subst quote
      rw [characterRest]
      · rfl
      · exact fun _ same _ => plain same
      · exact plain
    · rw [other fun _ same => quote (List.cons.inj same).1, List.head?_cons, Option.any_some,
        beq_eq_false_iff_ne.mpr quote]
      rfl

theorem ne_of_isIdentStart {c d : Char} (start : isIdentStart c = true) (odd : isIdentStart d = false) : c ≠ d := by
  rintro rfl
  rw [start] at odd
  cases odd

theorem isIdentStart_of_plainName {s : Chars} {n : Nat} (h : plainName s = some n) :
    s.head?.any isIdentStart = true := by
  cases s with
  | nil => cases h
  | cons c s => exact (Option.ite_none_right_eq_some.mp h).1

theorem rawLiteral_name {e : Escapes} {z : Chars} {n : Nat} (h : plainName z = some n) (rest : Chars) :
    rawLiteral e ('#' :: (z ++ rest)) = none := by
  have start := isIdentStart_of_plainName h
  cases z with
  | nil => cases start
  | cons d z =>
    have other {c : Char} (odd : isIdentStart c = false) : d ≠ c := ne_of_isIdentStart start odd
    have hashes : ('#' :: (d :: z ++ rest)).takeWhile (· == '#') = ['#'] := by
      rw [List.takeWhile_cons_of_pos rfl, List.cons_append, List.takeWhile_cons,
        beq_eq_false_iff_ne.mpr (other (by decide))]
      rfl
    rw [rawLiteral, hashes]
    dsimp only [List.length_singleton, List.drop_succ_cons, List.drop_zero, List.cons_append]
    split
    · exact (other (c := '"') (by decide) (List.cons.inj ‹_›).1).elim
    · rfl

theorem isIdentStart_of_anyName {s : Chars} {n : Nat} (h : anyName s = some n) : s.head?.any isIdentStart = true := by
  unfold anyName at h
  split at h
  · obtain ⟨more, rfl⟩ := List.isPrefixOf_iff_prefix.mp ‹startsWith "r#" s = true›
    change isIdentStart 'r' = true
    decide
  · exact isIdentStart_of_plainName h

theorem not_isIdentStart_of_isDigit {c : Char} (digit : c.isDigit = true) : isIdentStart c = false := by
  have letter : c.isAlphanum = true := Bool.or_eq_true_iff.mpr (.inr digit)
  exact of_isAscii (p := fun c => c.isDigit = true → isIdentStart c = false) (by decide +kernel)
    (isAscii_of_isAlphanum letter) digit

theorem isWordy_of_isIdentStart {c : Char} (start : isIdentStart c = true) (visible : isSpace c = false) :
    isWordy c = true := by
  unfold isWordy
  split
  · exact isIdentContinue_of_isIdentStart start
  · rw [visible]
    rfl

theorem isWordy_of_isDigit {c : Char} (digit : c.isDigit = true) : isWordy c = true := by
  have letter : c.isAlphanum = true := Bool.or_eq_true_iff.mpr (.inr digit)
  rw [isWordy, if_pos (isAscii_of_isAlphanum letter), isIdentContinue_of_isDigit digit]

theorem isDigit_of_number {s : Chars} {n : Nat} (h : (float s <|> int s) = some n) : s.head?.any Char.isDigit = true := by
  cases s with
  | nil => cases h
  | cons c s =>
    by_cases digit : c.isDigit = true
    · exact digit
    · rw [Bool.not_eq_true] at digit
      rw [(number_eq_none digit).1, (number_eq_none digit).2] at h
      cases h

theorem isSign_of_signToken? {s : Chars} {t : Token} {n : Nat} (h : signToken? s = some (t, n)) : isSign t = true := by
  unfold signToken? at h
  split at h
  · obtain ⟨-, same⟩ := Option.ite_none_right_eq_some.mp h
    rw [← (Prod.mk.inj (Option.some.inj same)).1]
    rfl
  · cases h

theorem begins_of_solid {t : Token} {c : Char} {x : Chars} (solid : Solid t (c :: x)) :
    c = '"' ∨ c = '\'' ∨ isWordy c = true ∧ isIdentContinue c = true := by
  have alone := solid.alone
  rw [token?_eq] at alone
  rcases Option.or_eq_some_iff.mp alone with found | ⟨-, alone⟩
  · obtain ⟨n, read, -⟩ := Option.map_eq_some_iff.mp found
    rw [literal_eq] at read
    rcases Option.or_eq_some_iff.mp read with read | ⟨-, read⟩
    · by_cases mark : (c == '"' || c == '\'' || isWordy c && isIdentContinue c) = true
      · simpa only [Bool.or_eq_true, Bool.and_eq_true, beq_iff_eq, or_assoc] using mark
      · rw [Bool.not_eq_true] at mark
        have unread := quotedLiteral_cons (p := fun c => c == '"' || c == '\'' || isWordy c && isIdentContinue c)
          (by decide) mark x
        rw [unread] at read
        cases read
    · have digit : c.isDigit = true := isDigit_of_number read
      exact .inr (.inr ⟨isWordy_of_isDigit digit, isIdentContinue_of_isDigit digit⟩)
  rcases Option.or_eq_some_iff.mp alone with found | ⟨-, alone⟩
  · obtain ⟨n, read, -⟩ := Option.map_eq_some_iff.mp found
    unfold lifetime at read
    split at read
    · exact .inr (.inl (List.cons.inj ‹_›).1)
    · cases read
  rcases Option.or_eq_some_iff.mp alone with found | ⟨-, found⟩
  · have sign := isSign_of_signToken? found
    rw [solid.word] at sign
    cases sign
  · obtain ⟨n, read, -⟩ := Option.map_eq_some_iff.mp found
    have start : isIdentStart c = true := isIdentStart_of_anyName (Option.ite_none_left_eq_some.mp read).2
    exact .inr (.inr ⟨isWordy_of_isIdentStart start solid.visible, isIdentContinue_of_isIdentStart start⟩)

theorem startsComment_cons {c : Char} (plain : c ≠ '/') (s : Chars) : startsComment (c :: s) = false := by
  have mark {m : String} (slash : m.toList.head? = some '/') : startsWith m (c :: s) = false := by
    rw [Bool.eq_false_iff]
    exact fun starts => plain (head_of_startsWith starts slash).symm
  rw [startsComment, mark rfl, mark rfl]
  rfl

theorem lexeme?_sign {c : Char} {s : Chars} (sign : c ∈ punctuation) (quote : c ≠ '\'')
    (noComment : startsComment (c :: s) = false) :
    lexeme? (c :: s) = some (.trees [.leaf (.punct (String.singleton c) (isPunct s))], 1) := by
  have kinds : (punctuation.all fun c => !isSpace c && !c.isDigit && (delimiter? c).isNone) = true := by decide
  have kind := List.all_eq_true.mp kinds c sign
  rw [Bool.and_eq_true, Bool.and_eq_true, Bool.not_eq_true', Bool.not_eq_true', Option.isNone_iff_eq_none] at kind
  obtain ⟨⟨space, digit⟩, delimiter⟩ := kind
  obtain ⟨noPlain, noDoc⟩ := comment_eq_none noComment
  have noQuote : quotedLiteral (c :: s) = none := by
    refine quotedLiteral_cons (p := fun c => c == '\'' || !punctuation.contains c) (by decide) ?_ s
    rw [beq_eq_false_iff_ne.mpr quote, List.contains_iff_mem.mpr sign]
    rfl
  have noLiteral : literal (c :: s) = none := by
    rw [literal_eq, noQuote, (number_eq_none digit).1, (number_eq_none digit).2]
    rfl
  have isSign : (isPunct (c :: s) && c != '\'') = true := by
    rw [isPunct, noComment, List.head?_cons, Option.any_some, List.contains_iff_mem.mpr sign, bne_iff_ne.mpr quote]
    rfl
  have token : token? (c :: s) = some (.punct (String.singleton c) (isPunct s), 1) := by
    rw [token?_eq, noLiteral, lifetime_cons quote, signToken?, if_pos isSign]
    rfl
  rw [lexeme?, space, noPlain, noDoc, delimiter, token]
  rfl

section Ends
variable {x rest : Chars} (ends : Ends rest)
include ends

theorem literal_of_ends {n : Nat} (h : literal x = some n) : literal (x ++ rest) = some n := by
  have sameNumber : (float (x ++ rest) <|> int (x ++ rest)) = (float x <|> int x) := by
    rw [(number_of_ends (x := x) ends).1, (number_of_ends (x := x) ends).2]
  rw [literal_eq] at h ⊢
  rcases Option.or_eq_some_iff.mp h with found | ⟨-, found⟩
  · rw [quotedLiteral_of_ends ends found]
    rfl
  · have digit := isDigit_of_number found
    rw [sameNumber, found]
    cases x with
    | nil => cases digit
    | cons c x =>
      have unquoted : quotedLiteral (c :: (x ++ rest)) = none := by
        refine quotedLiteral_cons (p := fun c => !c.isDigit) (by decide) ?_ _
        rw [Bool.not_eq_false']
        exact digit
      rw [List.cons_append, unquoted]
      rfl

theorem literal_of_lifetime {n : Nat} (unread : literal x = none) (h : lifetime x = some n) :
    literal (x ++ rest) = none := by
  unfold lifetime at h
  split at h
  case h_2 => cases h
  rename_i r
  obtain ⟨m, found, -⟩ := Option.bind_eq_some_iff.mp h
  have start := isIdentStart_of_anyName found
  cases r with
  | nil => cases start
  | cons c r =>
    have plain : c ≠ '\\' := ne_of_isIdentStart start (by decide)
    have unquoted : quotedLiteral ('\'' :: c :: r) = none := (Option.or_eq_none_iff.mp (literal_eq _ ▸ unread)).1
    have noCharacter : character ('\'' :: c :: r ++ rest) = none := by
      rw [quotedLiteral_eq, Option.map_eq_none_iff, List.findSome?_eq_none_iff] at unquoted
      have alone : character ('\'' :: c :: r) = none := unquoted (["'"], character) (by simp [quoted])
      rw [character, characterRest_cons plain] at alone
      rw [List.cons_append, List.cons_append, character, characterRest_cons plain, anyHead_of_ends ends (by decide),
        alone]
    have noQuote : quotedLiteral ('\'' :: c :: r ++ rest) = none := by
      refine quotedLiteral_eq_none fun q mem => ?_
      have mem' := mem
      simp only [quoted, List.mem_cons, List.not_mem_nil, or_false] at mem'
      rcases mem' with rfl | rfl | rfl | rfl | rfl
      · exact unread_of_head mem (by decide) _
      · exact unread_of_head mem (by decide) _
      · exact unread_of_head mem (by decide) _
      · exact unread_of_head mem (by decide) _
      · exact noCharacter
    obtain ⟨noFloat, noInt⟩ := number_eq_none (c := '\'') (r := c :: r ++ rest) (by decide)
    rw [literal_eq, noQuote]
    rw [List.cons_append, noFloat, noInt]
    rfl

omit ends in
theorem isIdentStart_of_name {n : Nat} (h : Lexer.name x = some n) : x.head?.any isIdentStart = true :=
  isIdentStart_of_anyName (Option.ite_none_left_eq_some.mp h).2

theorem startsWith_of_name {n : Nat} {m : String} (h : Lexer.name x = some n) (mem : m ∈ literalMarks) :
    startsWith m (x ++ rest) = false := by
  obtain ⟨unmarked, -⟩ := Option.ite_none_left_eq_some.mp h
  have odd : ∀ m ∈ literalMarks, (m.toList.all fun c => !endsToken c) = true := by decide
  rw [startsWith_append ends (odd m mem), Bool.eq_false_iff]
  exact fun starts => unmarked (List.any_eq_true.mpr ⟨m, mem, starts⟩)

theorem text_of_name {n : Nat} (h : Lexer.name x = some n) : stringLike "" Escapes.text (x ++ rest) = none := by
  have quote : startsWith ("" ++ "\"") (x ++ rest) = false := by
    rw [Bool.eq_false_iff]
    intro starts
    cases x with
    | nil => cases isIdentStart_of_name h
    | cons c x => exact ne_of_isIdentStart (isIdentStart_of_name h) (by decide) (head_of_startsWith starts rfl).symm
  rw [stringLike, quote, startsWith_of_name ends h (by decide), Bool.false_or, if_neg Bool.false_ne_true]
  split
  · rename_i raw
    rw [startsWith_append ends (by decide)] at raw
    obtain ⟨z, rfl⟩ := List.isPrefixOf_iff_prefix.mp raw
    obtain ⟨-, h⟩ := Option.ite_none_left_eq_some.mp h
    have named : plainName z ≠ none := by
      intro none
      have whole : anyName ('r' :: '#' :: z) = (plainName z).bind _ := if_pos raw
      rw [none] at whole
      cases h.symm.trans whole
    obtain ⟨k, named⟩ := Option.ne_none_iff_exists'.mp named
    exact Option.map_eq_none_iff.mpr (rawLiteral_name named rest)
  · rfl

theorem quotedLiteral_of_name {n : Nat} (h : Lexer.name x = some n) : quotedLiteral (x ++ rest) = none := by
  refine quotedLiteral_eq_none fun q mem => ?_
  have listed := mem
  simp only [quoted, List.mem_cons, List.not_mem_nil, or_false] at listed
  rcases listed with rfl | rfl | rfl | rfl | rfl
  case inl => exact text_of_name ends h
  case inr.inr.inr.inr =>
    cases x with
    | nil => cases isIdentStart_of_name h
    | cons c x =>
      refine unread_of_head mem (fun m kind => ?_) _
      rw [List.mem_singleton.mp kind]
      exact bne_iff_ne.mpr (ne_of_isIdentStart (isIdentStart_of_name h) (by decide)).symm
  all_goals
    refine unread_of_marks mem fun m kind => startsWith_of_name ends h ?_
    revert m
    decide

theorem literal_of_name {n : Nat} (h : Lexer.name x = some n) : literal (x ++ rest) = none := by
  have noQuote := quotedLiteral_of_name ends h
  have start := isIdentStart_of_name h
  cases x with
  | nil => cases start
  | cons c x =>
    have digit : c.isDigit = false := by
      rw [Bool.eq_false_iff]
      intro digit
      have none : isIdentStart c = false := not_isIdentStart_of_isDigit digit
      rw [List.head?_cons, Option.any_some, none] at start
      cases start
    obtain ⟨noFloat, noInt⟩ := number_eq_none (r := x ++ rest) digit
    rw [literal_eq, noQuote, List.cons_append, noFloat, noInt]
    rfl

theorem token?_of_ends {t : Token} (solid : Solid t x) : token? (x ++ rest) = some (t, x.length) := by
  have alone := solid.alone
  have whole : (x ++ rest).take x.length = x := List.take_left' rfl
  rw [token?_eq] at alone ⊢
  rcases Option.or_eq_some_iff.mp alone with found | ⟨noLiteral, alone⟩
  · obtain ⟨n, read, same⟩ := Option.map_eq_some_iff.mp found
    cases same
    rw [literal_of_ends ends read, Option.map_some, whole, List.take_length, Option.some_or]
  rcases Option.or_eq_some_iff.mp alone with found | ⟨noLifetime, alone⟩
  · obtain ⟨n, read, same⟩ := Option.map_eq_some_iff.mp found
    cases same
    rw [literal_of_lifetime ends (Option.map_eq_none_iff.mp noLiteral) read, lifetime_of_ends ends, read,
      Option.map_none, Option.none_or, Option.map_some, whole, List.take_length, Option.some_or]
  rcases Option.or_eq_some_iff.mp alone with found | ⟨noSign, found⟩
  · have sign := isSign_of_signToken? found
    rw [solid.word] at sign
    cases sign
  · obtain ⟨n, read, same⟩ := Option.map_eq_some_iff.mp found
    cases same
    have sign : signToken? (x ++ rest) = none := by
      have start := isIdentStart_of_anyName (Option.ite_none_left_eq_some.mp read).2
      cases x with
      | nil => cases start
      | cons c x =>
        obtain ⟨-, -, punct, -⟩ := begins_nothing_else (isWordy_of_isIdentStart start solid.visible)
        rw [List.cons_append, signToken?, isPunct, List.head?_cons, Option.any_some, punct, Bool.and_false]
        rfl
    rw [literal_of_name ends read, lifetime_of_ends ends, Option.map_eq_none_iff.mp noLifetime, sign,
      name_of_ends ends, read, Option.map_none, Option.map_none, Option.none_or, Option.none_or, Option.none_or,
      Option.map_some, whole, List.take_length]

theorem lexeme?_of_ends {t : Token} (solid : Solid t x) : lexeme? (x ++ rest) = some (.trees [.leaf t], x.length) := by
  have token := token?_of_ends ends solid
  cases x with
  | nil => cases solid.alone
  | cons c x =>
    obtain ⟨slash, delimiter⟩ : c ≠ '/' ∧ delimiter? c = none := by
      rcases begins_of_solid solid with rfl | rfl | ⟨wordy, -⟩
      · decide
      · decide
      · obtain ⟨-, -, -, none⟩ := begins_nothing_else wordy
        refine ⟨?_, none⟩
        rintro rfl
        cases wordy
    have space : isSpace c = false := solid.visible
    obtain ⟨noComment, noDoc⟩ := comment_eq_none (startsComment_cons slash (x ++ rest))
    rw [List.cons_append] at token ⊢
    rw [lexeme?, space, noComment, noDoc, delimiter, token]
    rfl

end Ends

end Retype.Code.Lexer
