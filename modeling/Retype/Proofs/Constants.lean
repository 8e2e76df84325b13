import Retype.Proofs.Timeouts

/-! Constants in definitions.  An integer is folded exactly or not at all: the value is that of the same expression over
integers without bounds, and there is none if a literal or a step leaves the range of signed 64-bit integers.  A duration
is such an integer of some unit, and there is none if the integer is negative or its seconds are too many. -/

namespace Retype.Definition
open Retype.Code

/-- An expression of integer literals, parentheses, sums, differences and products, with the values of its literals and of
all steps, and its own value, all without bounds. -/
inductive Computes : Tree → List Int → Int → Prop
  | literal {attrs : Tree} {text : String} {n : Int} (value : Literal.intValue? text = some n) :
      Computes (.node (.expr .lit) [attrs, .leaf (.literal text)]) [n] n
  | paren {attrs e : Tree} {d : Delim} {steps : List Int} {n : Int} (inner : Computes e steps n) :
      Computes (.node (.expr .paren) [attrs, .group d [e]]) steps n
  | sum {attrs l r : Tree} {joint : Bool} {ls rs : List Int} {a b : Int} (left : Computes l ls a)
      (right : Computes r rs b) :
      Computes (.node (.expr .binary) [attrs, l, .leaf (.punct "+" joint), r]) (ls ++ rs ++ [a + b]) (a + b)
  | difference {attrs l r : Tree} {joint : Bool} {ls rs : List Int} {a b : Int} (left : Computes l ls a)
      (right : Computes r rs b) :
      Computes (.node (.expr .binary) [attrs, l, .leaf (.punct "-" joint), r]) (ls ++ rs ++ [a - b]) (a - b)
  | product {attrs l r : Tree} {joint : Bool} {ls rs : List Int} {a b : Int} (left : Computes l ls a)
      (right : Computes r rs b) :
      Computes (.node (.expr .binary) [attrs, l, .leaf (.punct "*" joint), r]) (ls ++ rs ++ [a * b]) (a * b)

def IsSigned64 (n : Int) : Prop := -2 ^ 63 ≤ n ∧ n < 2 ^ 63

theorem signed64_eq_some {n m : Int} : signed64 n = some m ↔ m = n ∧ IsSigned64 n := by
  have least : Int64.minValue.toInt = -2 ^ 63 := by decide
  have greatest : Int64.maxValue.toInt = 2 ^ 63 - 1 := by decide
  unfold signed64 IsSigned64
  rw [Option.ite_none_right_eq_some, Bool.and_eq_true, decide_eq_true_iff, decide_eq_true_iff, least, greatest,
    Option.some.injEq]
  omega

theorem computes_of_integer? {e : Tree} {n : Int} (h : integer? e = some n) :
    ∃ steps, Computes e steps n ∧ ∀ step ∈ steps, IsSigned64 step := by
  fun_induction integer? e generalizing n with
  | case1 attrs text =>
    obtain ⟨m, value, inside⟩ := Option.bind_eq_some_iff.mp h
    obtain ⟨rfl, range⟩ := signed64_eq_some.mp inside
    exact ⟨_, .literal value, List.forall_mem_singleton.mpr range⟩
  | case2 attrs d e ih =>
    obtain ⟨steps, computed, inside⟩ := ih h
    exact ⟨steps, .paren computed, inside⟩
  | case3 attrs l o r a b right left ihLeft ihRight =>
    obtain ⟨ls, computedLeft, insideLeft⟩ := ihLeft left
    obtain ⟨rs, computedRight, insideRight⟩ := ihRight right
    have joined {m : Int} (range : IsSigned64 m) : ∀ step ∈ ls ++ rs ++ [m], IsSigned64 step :=
      List.forall_mem_append.mpr
        ⟨List.forall_mem_append.mpr ⟨insideLeft, insideRight⟩, List.forall_mem_singleton.mpr range⟩
    unfold arithmetic at h
    split at h
    · obtain ⟨rfl, range⟩ := signed64_eq_some.mp h
      exact ⟨_, .product computedLeft computedRight, joined range⟩
    · obtain ⟨rfl, range⟩ := signed64_eq_some.mp h
      exact ⟨_, .sum computedLeft computedRight, joined range⟩
    · obtain ⟨rfl, range⟩ := signed64_eq_some.mp h
      exact ⟨_, .difference computedLeft computedRight, joined range⟩
    · cases h
  | case4 => cases h
  | case5 => cases h

theorem Computes.integer? {e : Tree} {steps : List Int} {n : Int} (h : Computes e steps n)
    (inside : ∀ step ∈ steps, IsSigned64 step) : integer? e = some n := by
  induction h with
  | literal value =>
    rw [Definition.integer?, value]
    exact signed64_eq_some.mpr ⟨rfl, inside _ List.mem_cons_self⟩
  | paren _ ih =>
    rw [Definition.integer?]
    exact ih inside
  | sum _ _ ihLeft ihRight | difference _ _ ihLeft ihRight | product _ _ ihLeft ihRight =>
    rw [List.forall_mem_append, List.forall_mem_append] at inside
    obtain ⟨⟨left, right⟩, last⟩ := inside
    rw [Definition.integer?, ihLeft left, ihRight right]
    exact signed64_eq_some.mpr ⟨rfl, last _ List.mem_cons_self⟩

/-- The functions that make a duration of a number of units, and the unit in milliseconds. -/
def unit? : String → Option Nat
  | "from_secs" => some 1000
  | "from_mins" => some 60000
  | "from_hours" => some 3600000
  | "from_millis" => some 1
  | _ => none

theorem unit?_eq_none {name : String} (noSecs : name ≠ "from_secs") (noMins : name ≠ "from_mins")
    (noHours : name ≠ "from_hours") (noMillis : name ≠ "from_millis") : unit? name = none := by
  rw [unit?]
  all_goals assumption

/-- A call of a path with one argument: the name at the end of the path, and the argument. -/
def CallsOn (e : Tree) (name : String) (arg : Tree) : Prop := ∃ attrs attrs' path d rest,
  e = .node (.expr .call) [attrs, .node (.expr .path) [attrs', path], .group d (arg :: rest)] ∧
    path.lastSegment? = some name ∧ (Trees.members (arg :: rest)).length = 1

/-- An expression is a number of units, perhaps in parentheses and in calls of one argument of functions that make no
duration themselves. -/
inductive Makes : Tree → Nat → Tree → Prop
  | unit {e number : Tree} {name : String} {unit : Nat} (call : CallsOn e name number) (makes : unit? name = some unit) :
      Makes e unit number
  | wrapper {e inner number : Tree} {name : String} {unit : Nat} (call : CallsOn e name inner) (other : unit? name = none)
      (made : Makes inner unit number) : Makes e unit number
  | paren {attrs e number : Tree} {d : Delim} {unit : Nat} (made : Makes e unit number) :
      Makes (.node (.expr .paren) [attrs, .group d [e]]) unit number

/-- So many units in milliseconds, unless they are fewer than none or their whole seconds leave the range of unsigned
64-bit integers. -/
def units? (millis : Nat) (n : Int) : Option Nat :=
  if 0 ≤ n ∧ n.toNat * millis / 1000 < UInt64.size then some (n.toNat * millis) else none

theorem units?_eq_some {millis t : Nat} {n : Int} :
    units? millis n = some t ↔ 0 ≤ n ∧ n.toNat * millis / 1000 < UInt64.size ∧ t = n.toNat * millis := by
  rw [units?, Option.ite_none_right_eq_some, Option.some.injEq, and_assoc, eq_comm (a := t)]

theorem unsigned64_eq_some {n : Int} {m : Nat} :
    unsigned64 n = some m ↔ 0 ≤ n ∧ n.toNat < UInt64.size ∧ m = n.toNat := by
  rw [unsigned64, Option.ite_none_right_eq_some, Bool.and_eq_true, decide_eq_true_iff, decide_eq_true_iff,
    Option.some.injEq]
  omega

theorem seconds_eq (scale : Nat) (positive : 0 < scale) (e : Tree) :
    seconds scale e = (integer? e).bind (units? (scale * 1000)) := by
  cases value : integer? e with
  | none => rw [seconds, value]; rfl
  | some n =>
    refine Option.ext fun t => ?_
    have whole : n.toNat * (scale * 1000) / 1000 = n.toNat * scale := by
      rw [← Nat.mul_assoc, Nat.mul_div_cancel _ (by decide)]
    have larger : n.toNat ≤ n.toNat * scale := Nat.le_mul_of_pos_right _ positive
    rw [seconds, value, Option.bind_some, units?_eq_some, whole, ← Nat.mul_assoc, Option.bind_eq_bind, Option.bind_some]
    constructor
    · intro given
      obtain ⟨m, inRange, given⟩ := Option.bind_eq_some_iff.mp given
      obtain ⟨total, product, rfl⟩ := Option.map_eq_some_iff.mp given
      obtain ⟨positive, -, rfl⟩ := unsigned64_eq_some.mp inRange
      obtain ⟨-, fits, rfl⟩ := unsigned64_eq_some.mp product
      rw [Int.toNat_natCast] at fits ⊢
      exact ⟨positive, fits, rfl⟩
    · rintro ⟨positive, fits, rfl⟩
      refine Option.bind_eq_some_iff.mpr ⟨n.toNat, unsigned64_eq_some.mpr ⟨positive, by omega, rfl⟩, ?_⟩
      rw [unsigned64_of_lt fits, Option.map_some]

theorem Computes.value_mem {e : Tree} {steps : List Int} {n : Int} (h : Computes e steps n) : n ∈ steps := by
  induction h with
  | literal => exact List.mem_singleton_self _
  | paren _ ih => exact ih
  | sum | difference | product => exact List.mem_append_right _ (List.mem_singleton_self _)

theorem millis_eq (e : Tree) : ((integer? e).bind fun n => unsigned64 n) = (integer? e).bind (units? 1) := by
  refine Option.bind_congr fun n value => Option.ext fun t => ?_
  obtain ⟨steps, computed, range⟩ := computes_of_integer? value
  have below : n < 2 ^ 63 := (range n computed.value_mem).2
  have size : UInt64.size = 2 ^ 64 := rfl
  rw [unsigned64_eq_some, units?_eq_some, Nat.mul_one, size]
  omega

theorem duration?_of_callsOn {e arg : Tree} {name : String} (call : CallsOn e name arg) :
    duration? e = match unit? name with
      | some millis => (integer? arg).bind (units? millis)
      | none => duration? arg := by
  obtain ⟨attrs, attrs', path, d, rest, rfl, named, one⟩ := call
  have single : ¬(Trees.members (arg :: rest)).length != 1 := by
    rw [one]
    decide
  rw [duration?, if_neg single, named]
  split
  case h_1 absurd => cases absurd
  case h_2 same =>
    cases same
    exact seconds_eq 1 (by decide) arg
  case h_3 same =>
    cases same
    exact seconds_eq 60 (by decide) arg
  case h_4 same =>
    cases same
    exact seconds_eq 3600 (by decide) arg
  case h_5 same =>
    cases same
    exact millis_eq arg
  case h_6 other noSecs noMins noHours noMillis same =>
    cases same
    rw [unit?_eq_none noSecs noMins noHours noMillis]
    rfl

theorem Makes.duration? {e number : Tree} {unit : Nat} (h : Makes e unit number) :
    duration? e = (integer? number).bind (units? unit) := by
  induction h with
  | unit call makes => rw [duration?_of_callsOn call, makes]
  | wrapper call other _ ih => rw [duration?_of_callsOn call, other, ih]
  | paren _ ih => rw [Definition.duration?, ih]

theorem Makes.integer? {e number : Tree} {unit : Nat} (h : Makes e unit number) : integer? e = none := by
  induction h with
  | unit call | wrapper call =>
    obtain ⟨attrs, attrs', path, d, rest, rfl, -⟩ := call
    rfl
  | paren _ ih => rw [Definition.integer?, ih]

theorem makes_of_duration? (e : Tree) : ∀ t, duration? e = some t → ∃ unit number, Makes e unit number := by
  have called {attrs attrs' path : Tree} {d : Delim} {args : Trees} {name : String} {millis t : Nat} {read : Tree → Option Nat}
      (one : ¬(Trees.members args).length != 1) (named : path.lastSegment? = some name) (unit : unit? name = some millis)
      (given : args.head?.bind read = some t) : ∃ unit number,
        Makes (.node (.expr .call) [attrs, .node (.expr .path) [attrs', path], .group d args]) unit number := by
    obtain ⟨number, first, -⟩ := Option.bind_eq_some_iff.mp given
    obtain ⟨rest, rfl⟩ := List.head?_eq_some_iff.mp first
    exact ⟨millis, number, .unit ⟨attrs, attrs', path, d, rest, rfl, named, by simpa using one⟩ unit⟩
  refine Definition.duration?.induct (fun e => ∀ t, duration? e = some t → ∃ unit number, Makes e unit number)
    (fun args => ∀ t, firstDuration? args = some t → ∃ arg rest unit number, args = arg :: rest ∧ Makes arg unit number)
    ?paren ?several ?noName ?secs ?mins ?hours ?millis ?wrapped ?other ?nil ?cons e
  case paren =>
    intro attrs d e ih t h
    rw [duration?] at h
    obtain ⟨unit, number, made⟩ := ih t h
    exact ⟨unit, number, .paren made⟩
  case several =>
    intro attrs attrs' path d args several t h
    rw [duration?, if_pos several] at h
    cases h
  case noName =>
    intro attrs attrs' path d args one name t h
    rw [duration?, if_neg one, name] at h
    cases h
  case secs | mins | hours | millis =>
    intro attrs attrs' path d args one name t h
    rw [duration?, if_neg one, name] at h
    exact called one name rfl h
  case wrapped =>
    intro attrs attrs' path d args one name noSecs noMins noHours noMillis named ih t h
    rw [duration?, if_neg one, named] at h
    split at h
    · cases ‹some name = none›
    · exact absurd (Option.some.inj ‹some name = some "from_secs"›) noSecs
    · exact absurd (Option.some.inj ‹some name = some "from_mins"›) noMins
    · exact absurd (Option.some.inj ‹some name = some "from_hours"›) noHours
    · exact absurd (Option.some.inj ‹some name = some "from_millis"›) noMillis
    · obtain ⟨arg, rest, unit, number, rfl, made⟩ := ih t h
      exact ⟨unit, number, .wrapper ⟨attrs, attrs', path, d, rest, rfl, named, by simpa using one⟩
        (unit?_eq_none noSecs noMins noHours noMillis) made⟩
  case other =>
    intro e noParen noCall t h
    rw [duration?] at h
    · cases h
    · exact noParen
    · exact noCall
  case nil =>
    rintro t ⟨⟩
  case cons =>
    intro e args ih t h
    rw [firstDuration?] at h
    obtain ⟨unit, number, made⟩ := ih t h
    exact ⟨e, args, unit, number, rfl, made⟩

/-- Constants are folded exactly.  An integer is folded if and only if it is made of integer literals, parentheses, sums,
differences and products and no literal and no step leaves the range of signed 64-bit integers, and it is what the same
expression comes to without bounds.  A duration is so many of the units of the innermost call that makes one, and there is
none if their number is negative or cannot be folded, or if the seconds leave the range of unsigned 64-bit integers. -/
theorem constants_fold_exactly (e : Tree) :
    (∀ v, integer? e = some v ↔ ∃ steps, Computes e steps v ∧ ∀ n ∈ steps, IsSigned64 n) ∧
    (∀ t, duration? e = some t ↔ ∃ unit number n, Makes e unit number ∧ (∀ unit' number', ¬Makes number unit' number') ∧
      integer? number = some n ∧ 0 ≤ n ∧ n.toNat * unit / 1000 < UInt64.size ∧ (t : Int) = n * unit) ∧
    ∀ unit number, Makes e unit number →
      (∀ n, integer? number = some n → n < 0 ∨ UInt64.size ≤ n.toNat * unit / 1000) → duration? e = none := by
  have exactly {n : Int} {unit t : Nat} (positive : 0 ≤ n) : (t : Int) = n * unit ↔ t = n.toNat * unit := by
    rw [← Int.natCast_inj, Int.natCast_mul, Int.toNat_of_nonneg positive]
  refine ⟨fun v => ⟨computes_of_integer?, fun ⟨steps, computed, inside⟩ => computed.integer? inside⟩, fun t => ⟨?_, ?_⟩, ?_⟩
  · intro given
    obtain ⟨unit, number, made⟩ := makes_of_duration? e t given
    rw [made.duration?] at given
    obtain ⟨n, folded, scaled⟩ := Option.bind_eq_some_iff.mp given
    obtain ⟨positive, fits, total⟩ := units?_eq_some.mp scaled
    refine ⟨unit, number, n, made, fun _ _ inner => ?_, folded, positive, fits, (exactly positive).mpr total⟩
    rw [inner.integer?] at folded
    cases folded
  · rintro ⟨unit, number, n, made, -, folded, positive, fits, total⟩
    rw [made.duration?, folded, Option.bind_some]
    exact units?_eq_some.mpr ⟨positive, fits, (exactly positive).mp total⟩
  · intro unit number made unfit
    refine Option.eq_none_iff_forall_ne_some.mpr fun t given => ?_
    rw [made.duration?] at given
    obtain ⟨n, folded, scaled⟩ := Option.bind_eq_some_iff.mp given
    obtain ⟨positive, fits, -⟩ := units?_eq_some.mp scaled
    rcases unfit n folded with negative | large
    · exact absurd positive (Int.not_le.mpr negative)
    · exact absurd fits (Nat.not_lt.mpr large)

end Retype.Definition
