import Retype.Text.Quoted
import Retype.Code.Literal
import Mathlib.Data.Nat.Digits.Defs
import Mathlib.Tactic.IntervalCases

/-! String literals read back.  Every text has a literal, with escapes where characters cannot stand for themselves, and
the literal denotes the text. -/

namespace Retype.Code.Literal
open Retype.Text Retype.Code.Lexer

theorem hexDigit_digitChar {d : Nat} (small : d < 16) :
    isHexDigit d.digitChar = true ∧ d.digitChar ≠ '_' ∧ d.digitChar ≠ '\x7d' ∧ hexValue d.digitChar = d := by
  interval_cases d <;> decide

theorem isHexDigit_of_mem {n : Nat} : ∀ c ∈ hex n, isHexDigit c = true ∧ c ≠ '_' ∧ c ≠ '\x7d' := by
  induction n using Nat.strongRecOn with
  | ind n ih =>
    intro c mem
    by_cases small : n < 16
    · rw [hex, Nat.toDigits_of_lt_base small, List.mem_singleton] at mem
      obtain ⟨digit, noMark, noBrace, -⟩ := hexDigit_digitChar small
      exact mem ▸ ⟨digit, noMark, noBrace⟩
    · rw [hex, Nat.toDigits_of_base_le (by decide) (Nat.le_of_not_lt small), List.mem_append, List.mem_singleton] at mem
      rcases mem with mem | rfl
      · exact ih (n / 16) (by omega) c mem
      · obtain ⟨digit, noMark, noBrace, -⟩ := hexDigit_digitChar (Nat.mod_lt n (by decide : 16 > 0))
        exact ⟨digit, noMark, noBrace⟩

theorem foldl_hex (n : Nat) : (hex n).foldl (fun n c => n * 16 + hexValue c) 0 = n := by
  induction n using Nat.strongRecOn with
  | ind n ih =>
    by_cases small : n < 16
    · rw [hex, Nat.toDigits_of_lt_base small, List.foldl_cons, List.foldl_nil, (hexDigit_digitChar small).2.2.2]
      omega
    · have last := (hexDigit_digitChar (Nat.mod_lt n (by decide : 16 > 0))).2.2.2
      rw [hex, Nat.toDigits_of_base_le (by decide) (Nat.le_of_not_lt small), List.foldl_append, List.foldl_cons,
        List.foldl_nil, last]
      have front := ih (n / 16) (by omega)
      rw [hex] at front
      rw [front]
      omega

theorem unicodeEscape?_hex (c : Char) : unicodeEscape? (hex c.toNat) = some c.toNat := by
  have digits := @isHexDigit_of_mem c.toNat
  have noMarks : (hex c.toNat).filter (· != '_') = hex c.toNat :=
    List.filter_eq_self.mpr fun d mem => bne_iff_ne.mpr (digits d mem).2.1
  have start : (hex c.toNat).head? ≠ some '_' := by
    intro head
    exact (digits '_' (List.mem_of_mem_head? head)).2.1 rfl
  have allHex : (hex c.toNat).all isHexDigit = true := List.all_eq_true.mpr fun d mem => (digits d mem).1
  have some_ : 0 < (hex c.toNat).length := Nat.length_toDigits_pos
  have valid : c.toNat < 0xd800 ∨ 0xe000 ≤ c.toNat ∧ c.toNat < 0x110000 := by
    rcases c.valid with low | ⟨above, below⟩
    · exact .inl low
    · exact .inr ⟨above, below⟩
  have few : (hex c.toNat).length ≤ 6 := (Nat.length_toDigits_le_iff (by decide) (by decide)).mpr (by omega)
  unfold unicodeEscape?
  dsimp only
  rw [noMarks, foldl_hex, if_pos]
  simp only [Bool.and_eq_true, bne_iff_ne, decide_eq_true_eq, Bool.or_eq_true]
  exact ⟨⟨⟨⟨start, allHex⟩, some_⟩, few⟩, valid⟩

theorem unescape_unicode (fuel : Nat) (c : Char) (rest : List Char) :
    unescape (fuel + 1) ('\\' :: 'u' :: '\x7b' :: (hex c.toNat ++ '\x7d' :: rest)) = c :: unescape fuel rest := by
  have digits : (hex c.toNat ++ '\x7d' :: rest).takeWhile (· != '\x7d') = hex c.toNat := by
    rw [List.takeWhile_append_of_pos fun d mem => bne_iff_ne.mpr (isHexDigit_of_mem d mem).2.2,
      List.takeWhile_cons_of_neg (by decide), List.append_nil]
  have after : (hex c.toNat ++ '\x7d' :: rest).drop ((hex c.toNat).length + 1) = rest := by
    rw [List.drop_append, List.drop_eq_nil_of_le (Nat.le_succ _), Nat.add_sub_cancel_left]
    rfl
  rw [unescape, digits, after, unicodeEscape?_hex, Option.getD_some, Char.ofNat_toNat]

theorem unescape_plain (fuel : Nat) {c : Char} (ret : c ≠ '\r') (quote : c ≠ '"') (slash : c ≠ '\\') (rest : List Char) :
    unescape (fuel + 1) (c :: rest) = c :: unescape fuel rest := by
  conv_lhs => unfold unescape
  split <;> simp_all

theorem unescape_escapeChar (fuel : Nat) (c : Char) (rest : List Char) :
    unescape (fuel + 1) (escapeChar c ++ rest) = c :: unescape fuel rest := by
  unfold escapeChar
  split
  · rfl
  · rfl
  · rfl
  · rfl
  · rfl
  · rename_i tab ret feed quote slash
    split
    · rename_i zero
      have isZero : c = Char.ofNat 0 := by rw [← zero, Char.ofNat_toNat]
      rw [isZero]
      rfl
    · split
      · exact unescape_plain fuel ret quote slash rest
      · have shape : ['\\', 'u', '\x7b'] ++ hex c.toNat ++ ['\x7d'] ++ rest =
            '\\' :: 'u' :: '\x7b' :: (hex c.toNat ++ '\x7d' :: rest) := by
          rw [List.append_assoc, List.append_assoc]
          rfl
        rw [shape, unescape_unicode]

theorem unescape_literalBody (s rest : List Char) {fuel : Nat} (enough : s.length < fuel) :
    unescape fuel (literalBody s ++ '"' :: rest) = s := by
  induction s generalizing fuel with
  | nil =>
    obtain ⟨fuel, rfl⟩ := Nat.exists_eq_succ_of_ne_zero (Nat.ne_of_gt enough)
    rfl
  | cons c s ih =>
    obtain ⟨fuel, rfl⟩ := Nat.exists_eq_succ_of_ne_zero (Nat.ne_of_gt (Nat.lt_of_le_of_lt (Nat.zero_le _) enough))
    have later := ih (Nat.lt_of_succ_lt_succ enough)
    rw [literalBody, List.append_assoc]
    split
    · rename_i zero
      have isZero : c = Char.ofNat 0 := by
        rw [← of_decide_eq_true (Bool.and_eq_true_iff.mp zero).1, Char.ofNat_toNat]
      rw [isZero]
      exact congrArg (_ :: ·) later
    · rw [unescape_escapeChar, later]

theorem length_escapeChar_pos (c : Char) : 0 < (escapeChar c).length := by
  unfold escapeChar
  split
  case h_6 =>
    split
    · exact Nat.succ_pos _
    · split
      · exact Nat.succ_pos _
      · exact Nat.succ_pos _
  all_goals exact Nat.succ_pos _

theorem length_le_literalBody (s : List Char) : s.length ≤ (literalBody s).length := by
  induction s with
  | nil => exact Nat.le_refl _
  | cons c s ih =>
    rw [literalBody, List.length_append, List.length_cons, Nat.add_comm]
    refine Nat.add_le_add ?_ ih
    split
    · decide
    · exact length_escapeChar_pos c

theorem stringValue?_stringLiteral (s : String) : stringValue? (stringLiteral s) = some s := by
  have enough : s.toList.length < (literalBody s.toList ++ ['"']).length + 1 := by
    have body := length_le_literalBody s.toList
    rw [List.length_append]
    omega
  have read := unescape_literalBody s.toList [] enough
  unfold stringValue? stringLiteral
  rw [String.toList_ofList]
  exact congrArg some ((congrArg String.ofList read).trans String.ofList_toList)

end Retype.Code.Literal
