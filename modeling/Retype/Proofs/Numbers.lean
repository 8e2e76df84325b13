import Retype.Code.Literal
import Mathlib.Data.List.Basic
import Mathlib.Data.Nat.Digits.Defs

/-! Numbers read back.  A number is written in decimal digits, and the literal of these digits denotes it. -/

namespace Retype.Code.Literal
open Retype.Text

/-- Digits in base ten, and nothing else. -/
structure IsDecimal (s : List Char) : Prop where
  nonempty : s ≠ []
  digits : ∀ c ∈ s, c.isDigit = true

theorem isDecimal_toString (n : Nat) : IsDecimal (toString n).toList := by
  have text : (toString n).toList = Nat.toDigits 10 n := by rw [Nat.toString_eq_repr, Nat.toList_repr]
  rw [text]
  exact ⟨Nat.toDigits_ne_nil, fun c mem => Nat.isDigit_of_mem_toDigits (by decide) (by decide) mem⟩

theorem foldl_toString (n : Nat) :
    (toString n).toList.foldl (fun n c => n * 10 + (c.toNat - '0'.toNat)) 0 = n := by
  have text : (toString n).toList = Nat.toDigits 10 n := by rw [Nat.toString_eq_repr, Nat.toList_repr]
  have read := Nat.ofDigitChars_ten_toDigits (n := n)
  rw [Nat.ofDigitChars_eq_foldl] at read
  simpa only [text, Nat.mul_comm 10] using read

section Decimal
variable {s : List Char}

theorem IsDecimal.head (h : IsDecimal s) : ∃ c r, s = c :: r ∧ c.isDigit = true := by
  cases s with
  | nil => exact (h.nonempty rfl).elim
  | cons c r => exact ⟨c, r, rfl, h.digits c List.mem_cons_self⟩

theorem IsDecimal.takeWhile_digits (h : IsDecimal s) : s.takeWhile Lexer.isDigitOr = s := by
  rw [← List.append_nil s, List.takeWhile_append_of_pos]
  · rw [List.takeWhile_nil]
  · intro c mem
    rw [Lexer.isDigitOr, h.digits c mem, Bool.true_or]

theorem float_decimal (h : IsDecimal s) : Lexer.float s = none := by
  have none : Lexer.floatDigits s = none := by
    obtain ⟨c, r, rfl, digit⟩ := h.head
    rw [Lexer.floatDigits, h.takeWhile_digits, digit]
    dsimp only
    rw [List.drop_length]
    rfl
  rw [Lexer.float, none]
  rfl

theorem classOf_decimal (h : IsDecimal s) : classOf s = some .integer := by
  have number : classOf.number s = some .integer := by
    rw [classOf.number, float_decimal h]
    obtain ⟨c, r, rfl, digit⟩ := h.head
    rw [List.head?_cons, Option.any_some, digit]
    rfl
  obtain ⟨c, r, rfl, digit⟩ := h.head
  unfold classOf
  split
  all_goals first | exact number | (rename_i same; cases same; exact absurd digit (by decide))

theorem intDigits_decimal (h : IsDecimal s) : Lexer.intDigits s = some s.length := by
  unfold Lexer.intDigits
  split
  · exact absurd (h.digits 'x' (by simp)) (by decide)
  · exact absurd (h.digits 'o' (by simp)) (by decide)
  · exact absurd (h.digits 'b' (by simp)) (by decide)
  · rw [if_pos (h.digits _ List.mem_cons_self), h.takeWhile_digits]
  · exact (h.nonempty rfl).elim

theorem natValue?_decimal (h : IsDecimal s) :
    natValue? s = some (s.foldl (fun n c => n * 10 + (c.toNat - '0'.toNat)) 0) := by
  have plain : (s.take s.length).filter (· != '_') = s := by
    rw [List.take_length, List.filter_eq_self]
    intro c mem
    rw [bne_iff_ne]
    rintro rfl
    exact absurd (h.digits '_' mem) (by decide)
  have value : s.foldl (fun n c => n * 10 + Lexer.hexValue c) 0 =
      s.foldl (fun n c => n * 10 + (c.toNat - '0'.toNat)) 0 := by
    refine List.foldl_ext _ _ _ fun n c mem => ?_
    rw [Lexer.hexValue, if_pos (h.digits c mem)]
  unfold natValue?
  rw [if_neg (by simp [classOf_decimal h]), intDigits_decimal h]
  dsimp only [Option.bind_eq_bind, Option.bind_some]
  rw [plain, ← value]
  split
  · exact absurd (h.digits 'x' (by simp)) (by decide)
  · exact absurd (h.digits 'o' (by simp)) (by decide)
  · exact absurd (h.digits 'b' (by simp)) (by decide)
  · rfl

end Decimal

theorem intValue?_toString (n : Nat) : intValue? (toString n) = some (n : Int) := by
  have decimal := isDecimal_toString n
  unfold intValue?
  split
  · rename_i r minus
    exact absurd (decimal.digits '-' (minus ▸ List.mem_cons_self)) (by decide)
  · rw [natValue?_decimal decimal, foldl_toString]
    rfl

end Retype.Code.Literal
