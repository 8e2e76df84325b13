import Retype.Rewrite.Stage

/-! How far a walk may go down in a tree.  The descent of a tree counts its levels, and leaves room at calls, statements and
blocks for what a rewriter puts in their place; a literal has as many as the text it stands for, which may name that many
fields, and the body of a macro call as many as its expressions can have when it is parsed. -/

namespace Retype.Rewrite
open Retype.Code

theorem length_skipBlank_le (s : List Char) : (Literal.skipBlank s).length ≤ s.length := (List.dropWhile_sublist _).length_le

theorem length_unescape_le (fuel : Nat) (s : List Char) : (Literal.unescape fuel s).length ≤ s.length := by
  fun_induction Literal.unescape fuel s with
  | case1 | case3 => exact Nat.zero_le _
  | case2 => exact Nat.le_refl _
  | case11 _ r ih | case12 _ r ih =>
    have skipped := length_skipBlank_le r
    simp only [List.length_cons]
    omega
  | case10 _ r digits ih =>
    have dropped : (r.drop (digits.length + 1)).length ≤ r.length := (List.drop_sublist _ _).length_le
    simp only [List.length_cons]
    omega
  | case4 | case5 | case6 | case7 | case8 | case9 | case13 | case14 =>
    simp only [List.length_cons]
    omega

theorem length_rawBody_le (s : List Char) : (Literal.rawBody s).length ≤ s.length := by
  have dropped (n : Nat) : (s.drop n).length ≤ s.length := (List.drop_sublist _ _).length_le
  unfold Literal.rawBody
  dsimp only
  split
  · exact Nat.le_trans (List.take_sublist _ _).length_le (dropped _)
  · exact dropped _

theorem length_stringValue?_le {literal value : String} (h : Literal.stringValue? literal = some value) :
    value.length ≤ literal.length := by
  unfold Literal.stringValue? at h
  rw [← String.length_toList (s := literal)]
  split at h
  · rename_i same
    cases h
    rw [same, String.length_ofList, List.length_cons]
    exact Nat.le_succ_of_le (length_unescape_le _ _)
  · rename_i same
    cases h
    rw [same, String.length_ofList, List.length_cons]
    exact Nat.le_succ_of_le (length_rawBody_le _)
  · cases h

theorem weights_append (ts us : Trees) : weights (ts ++ us) = weights ts + weights us := by
  induction ts with
  | nil => rw [List.nil_append, weights, Nat.zero_add]
  | cons t ts ih => rw [List.cons_append, weights, weights, ih, Nat.add_assoc]

theorem two_le_weight (t : Tree) : 2 ≤ weight t := by
  unfold weight
  split <;> omega

theorem weights_splitPunct (joint : Bool) (s : List Char) : weights ((splitPunct joint s).map .leaf) = 2 * s.length := by
  have sign (c : Char) (joint : Bool) : weight (.leaf (.punct (String.singleton c) joint)) = 2 := by
    rw [weight, String.length_singleton]
    rfl
  fun_induction splitPunct joint s with
  | case1 => rfl
  | case2 c => rw [List.map_singleton, weights, weights, sign, List.length_singleton]
  | case3 c d r ih =>
    rw [List.map_cons, weights, sign, ih]
    simp only [List.length_cons]
    omega

mutual
theorem weights_raw_tree : (t : Tree) → weights t.raw ≤ weight t
  | .leaf (.punct text joint) => by
    rw [Tree.raw, Token.split, weights_splitPunct, String.length_toList, weight]
    omega
  | .leaf (.ident _) | .leaf (.lifetime _) | .leaf (.literal _) => Nat.le_refl _
  | .group _ body => by
    have inner := weights_raw body
    rw [Tree.raw, weights, weights, weight, weight]
    omega
  | .node _ parts => by
    have inner := weights_raw parts
    rw [Tree.raw, weight]
    omega

theorem weights_raw : (ts : List Tree) → weights (Trees.raw ts) ≤ weights ts
  | [] => Nat.le_refl _
  | t :: ts => by
    have first := weights_raw_tree t
    have rest := weights_raw ts
    rw [Trees.raw, weights_append, weights]
    omega
end

/-- Levels for what a rewriter puts around the parts of a node. -/
def reserve : Kind → Nat
  | .expr .methodCall => 4
  | .expr .call => 9
  | .stmt _ => 8
  | .block => 24
  | _ => 0

/-- The levels of a macro call, by the weight of its body. -/
def macroDescent? : Kind → Trees → Option Nat
  | .macroBody, [_, _, .group _ body] => some (32 * weights body)
  | .macroBody, _ => some 0
  | _, _ => none

section
variable (free : Tree → Bool)

mutual
/-- How many levels a tree has below itself; the trees that are free have none. -/
def descent : Tree → Nat
  | .leaf (.literal text) => ((Literal.stringValue? text).map String.length).getD 0
  | .leaf _ => 0
  | .group _ body => descents body
  | .node k parts => if free (.node k parts) then 0 else (macroDescent? k parts).getD (reserve k + descents parts)

def descents : List Tree → Nat
  | [] => 0
  | t :: ts => max (descent t + 1) (descents ts)
end

end

section Bounds
variable {free : Tree → Bool}

theorem descents_le {ts : Trees} {n : Nat} : descents free ts ≤ n ↔ ∀ t ∈ ts, descent free t < n := by
  induction ts with
  | nil => simp [descents]
  | cons t ts ih => rw [descents, Nat.max_le, ih, List.forall_mem_cons, Nat.succ_le_iff]

theorem descent_lt_descents {t : Tree} {ts : Trees} (mem : t ∈ ts) : descent free t < descents free ts :=
  descents_le.mp (Nat.le_refl _) t mem

theorem macroDescent?_of_ne {k : Kind} (opened : k ≠ .macroBody) (parts : Trees) : macroDescent? k parts = none := by
  unfold macroDescent?
  split
  · exact absurd rfl opened
  · exact absurd rfl opened
  · rfl

theorem descent_node {k : Kind} {parts : Trees} (opened : k ≠ .macroBody) (counted : free (.node k parts) = false) :
    descent free (.node k parts) = reserve k + descents free parts := by
  rw [descent, counted, macroDescent?_of_ne opened]
  rfl

theorem descent_node_le {k : Kind} (opened : k ≠ .macroBody) (parts : Trees) :
    descent free (.node k parts) ≤ reserve k + descents free parts := by
  rw [descent, macroDescent?_of_ne opened]
  split
  · exact Nat.zero_le _
  · exact Nat.le_refl _

theorem reserve_le (k : Kind) : reserve k ≤ 24 := by
  unfold reserve
  split <;> decide

mutual
theorem descent_le_weight : (t : Tree) → descent free t + 32 ≤ 32 * weight t
  | .leaf (.literal text) => by
    rw [descent, weight]
    cases value : Literal.stringValue? text with
    | none =>
      rw [Option.map_none, Option.getD_none]
      omega
    | some value =>
      have shorter := length_stringValue?_le ‹_›
      rw [Option.map_some, Option.getD_some]
      omega
  | .leaf (.punct text _) => by
    have one : 0 + 32 ≤ 32 * (2 * max 1 text.length) := by omega
    exact one
  | .leaf (.ident _) | .leaf (.lifetime _) => (by decide : 0 + 32 ≤ 32 * 2)
  | .group _ body => by
    have inner := descents_le_weights body
    rw [descent, weight]
    omega
  | .node k parts => by
    have inner := descents_le_weights parts
    have room := reserve_le k
    rw [descent, weight]
    split
    · omega
    · unfold macroDescent?
      split
      · rw [Option.getD_some, weights, weights, weights, weights, weight]
        omega
      · rw [Option.getD_some]
        omega
      · rw [Option.getD_none]
        omega

theorem descents_le_weights : (ts : List Tree) → descents free ts ≤ 32 * weights ts
  | [] => Nat.le_refl _
  | t :: ts => by
    have first := descent_le_weight t
    have rest := descents_le_weights ts
    rw [descents, weights]
    omega
end

end Bounds

/-- The levels of a tree when all of them count. -/
def nesting : Tree → Nat := descent fun _ => false

mutual
theorem descent_le_nesting (free : Tree → Bool) : (t : Tree) → descent free t ≤ nesting t
  | .leaf (.literal _) | .leaf (.punct _ _) | .leaf (.ident _) | .leaf (.lifetime _) => Nat.le_refl _
  | .group _ body => by
    rw [descent, nesting, descent]
    exact descents_le_nestings free body
  | .node k parts => by
    have inner := descents_le_nestings free parts
    rw [descent, nesting, descent, if_neg Bool.false_ne_true]
    split
    · exact Nat.zero_le _
    · cases macroDescent? k parts with
      | none => exact Nat.add_le_add_left inner _
      | some n => exact Nat.le_refl _

theorem descents_le_nestings (free : Tree → Bool) : (ts : List Tree) → descents free ts ≤ descents (fun _ => false) ts
  | [] => Nat.le_refl _
  | t :: ts => by
    have first := Nat.succ_le_succ (descent_le_nesting free t)
    have rest := descents_le_nestings free ts
    rw [descents, descents]
    exact Nat.max_le.mpr ⟨Nat.le_trans first (Nat.le_max_left _ _), Nat.le_trans rest (Nat.le_max_right _ _)⟩
end

end Retype.Rewrite
