import Retype.Proofs.TypeCosts

/-! Expressions cost no more than their tokens pay for.  A binary operator and a postfix operator put a node around what was
read before them and pay for its level with the tokens that they bring; the fields that one number names are paid for by its
characters. -/

namespace Retype.Code.Grammar
open Code.Parser
open Rewrite (weights weight nesting descents)

theorem binaryOp?_ne {s : Trees} {text : String} {p : Precedence} (h : binaryOp? s = some (text, p)) : text ≠ "" :=
  (by decide : ∀ o ∈ binaryOps, o.1 ≠ "") _ (List.mem_of_find?_eq_some h)

mutual
theorem spends_climb {g : Rules} (frugal : Frugal g) (structs : Bool) : (fuel m : Nat) → (lhs : Tree) → (base : Precedence) →
    nesting lhs + 30 ≤ 32 * m → Spends (climb g structs fuel lhs base) fun n t => nesting t + 30 ≤ 32 * (m + n)
  | 0, m, lhs, base, read => .pure read
  | fuel + 1, m, lhs, base, read => by
    have goesOn (n₁ n₂ : Nat) {t : Tree} (paid : nesting t + 30 ≤ 32 * (m + (n₁ + n₂))) :
        Spends (climb g structs fuel t base) fun n u => nesting u + 30 ≤ 32 * (m + (n₁ + (n₂ + n))) :=
      (spends_climb frugal structs fuel _ t base paid).mono fun _ _ _ => by omega
    unfold climb
    refine .ite (.pure read) (.see fun s => ?_)
    split
    · rename_i text p known
      refine .ite (.pure read) (.ite .failure ?_)
      refine .bind (costs_eatOp (binaryOp?_ne known)) fun n₁ _ o => .bind (costs_rhs frugal structs fuel p) fun n₂ _ right => ?_
      exact goesOn n₁ n₂ ((Paid.free rfl <| .cons read <| .cons o <| .one right).node rfl (by decide))
    · refine .ite ?assign (.ite ?range (.ite ?cast (.pure read)))
      case assign =>
        refine .bind (costs_eatOp (by decide)) fun n₁ _ o => .bind (costs_rhs frugal structs fuel _) fun n₂ _ right => ?_
        exact goesOn n₁ n₂ ((Paid.free rfl <| .cons read <| .cons o <| .one right).node rfl (by decide))
      case range =>
        refine .bind costs_rangeMark fun n₁ _ mark => .bind (costs_upperLimit frugal structs fuel _) fun n₂ _ upper => ?_
        exact goesOn n₁ n₂ ((Paid.free rfl <| .cons read <| .cons mark <| .one upper).node rfl (by decide))
      case cast =>
        refine .bind costs_eatAnyWord fun n₁ _ word => .bind (frugal.type false) fun n₂ _ ty => .look fun _ => .ite .failure ?_
        exact goesOn n₁ n₂ ((Paid.free rfl <| .cons read <| .cons word <| .one ty).node rfl (by decide))

theorem costs_rhs {g : Rules} (frugal : Frugal g) (structs : Bool) : (fuel : Nat) → (p : Precedence) →
    Costs 30 (rhs g structs fuel p)
  | 0, _ => .failure
  | fuel + 1, p => .bind (frugal.operand structs) fun n first read => spends_tighter frugal structs fuel n first p read

theorem spends_tighter {g : Rules} (frugal : Frugal g) (structs : Bool) : (fuel m : Nat) → (first : Tree) → (p : Precedence) →
    nesting first + 30 ≤ 32 * m → Spends (tighter g structs fuel first p) fun n t => nesting t + 30 ≤ 32 * (m + n)
  | 0, m, first, p, read => .pure read
  | fuel + 1, m, first, p, read => by
    unfold tighter
    refine .see fun s => .ite (.see fun s₁ => ?_) (.pure read)
    refine .bind (spends_climb frugal structs fuel m first _ read) fun n extended paid => .see fun s₂ => .ite (.pure paid) ?_
    exact (spends_tighter frugal structs fuel (m + n) extended p paid).mono fun _ _ _ => by omega

theorem costs_upperLimit {g : Rules} (frugal : Frugal g) (structs : Bool) : (fuel : Nat) → (mark : Tree) →
    Costs 0 (upperLimit g structs fuel mark)
  | 0, _ => .failure
  | fuel + 1, _ => .see fun _ => .ite (.pure (Nat.le_refl _)) ((costs_rhs frugal structs fuel _).less (Nat.zero_le _))
end

section Rules
variable {g : Rules} (frugal : Frugal g)
include frugal

theorem spends_operators {m : Nat} {lhs : Tree} (read : nesting lhs + 30 ≤ 32 * m) (structs : Bool) (base : Precedence) :
    Spends (operators g structs lhs base) fun n t => nesting t + 30 ≤ 32 * (m + n) :=
  fun s => spends_climb frugal structs (climbFuel s) m lhs base read s

omit frugal in
theorem length_intercalate (c : Char) (ls : List (List Char)) :
    ls.length ≤ ([c].intercalate ls).length + 1 ∧ ∀ l ∈ ls, l.length ≤ ([c].intercalate ls).length := by
  induction ls with
  | nil => exact ⟨Nat.zero_le _, fun l mem => (List.not_mem_nil mem).elim⟩
  | cons a ls ih =>
    cases ls with
    | nil => simp
    | cons b ls =>
      obtain ⟨number, lengths⟩ := ih
      have whole : ([c].intercalate (a :: b :: ls)).length = a.length + (1 + ([c].intercalate (b :: ls)).length) := by
        rw [List.intercalate_cons_cons, List.length_append, List.length_append, List.length_singleton]
        omega
      refine ⟨by simp only [List.length_cons] at number ⊢; omega, fun l mem => ?_⟩
      rcases List.mem_cons.mp mem with rfl | mem
      · omega
      · have := lengths l mem
        omega

omit frugal in
theorem length_indexParts (text : String) :
    (indexParts text).length ≤ text.length + 1 ∧ ∀ i ∈ indexParts text, i.length ≤ text.length := by
  obtain ⟨number, lengths⟩ := length_intercalate '.' (text.toList.splitOn '.')
  rw [List.intercalate_splitOn, String.length_toList] at number lengths
  refine ⟨?_, fun i mem => ?_⟩
  · rw [indexParts, List.length_map]
    exact Nat.le_trans (List.length_filter_le _ _) number
  · obtain ⟨l, kept, rfl⟩ := List.mem_map.mp mem
    rw [String.length_ofList]
    exact lengths l (List.mem_filter.mp kept).1

omit frugal in
theorem nesting_indexFields {m : Nat} {base dot : Tree} {parts : List String} (ofBase : nesting base ≤ m)
    (ofDot : nesting dot ≤ m) (lengths : ∀ i ∈ parts, i.length ≤ m) :
    nesting (indexFields base dot parts) ≤ m + parts.length := by
  induction parts generalizing m base dot with
  | nil => exact ofBase
  | cons i is ih =>
    have number : nesting (lit i) ≤ m := Nat.le_trans (nesting_literal_le i) (lengths i List.mem_cons_self)
    have field : nesting (.node (.expr .field) [emptyAttrs, base, dot, lit i]) + 0 ≤ m + 1 := by
      refine nesting_node rfl ⟨Nat.zero_le _, ?_⟩
      simp only [fit_cons, fit_nil, and_true]
      exact ⟨Nat.succ_le_succ (Nat.zero_le m), Nat.succ_le_succ ofBase, Nat.succ_le_succ ofDot, Nat.succ_le_succ number⟩
    have dotted : nesting (op ".") ≤ m + 1 := Nat.zero_le _
    have more := ih field dotted fun j mem => Nat.le_succ_of_le (lengths j (List.mem_cons_of_mem i mem))
    rw [List.length_cons, indexFields]
    omega

theorem spends_memberAfterDot {m : Nat} {base dot : Tree} (read : Paid 35 m [base, dot]) :
    Spends (memberAfterDot g base dot) fun n t => nesting t + 30 ≤ 32 * (m + n) := by
  refine .look fun _ => .ite ?awaited <| .look fun _ => .ite ?numbered <| .bind costs_eatIdent fun n₁ _ name =>
    .bind (costs_optional (costs_angleArguments frugal)) fun n₂ _ turbofish => ?named
  case awaited =>
    exact .bind costs_eatAnyWord fun _ _ word => .pure ((Paid.free rfl <| read.append <| .one word).node rfl (by decide))
  case numbered =>
    exact .bind (costs_take _) fun _ _ number => .pure ((Paid.free rfl <| read.append <| .one number).node rfl (by decide))
  case named =>
    refine .look fun _ => .ite ?_ (.pure ((Paid.free rfl <| read.append <| .cons name <| .skip .nil).node rfl (by decide)))
    refine .bind (costs_within _ (costsAll_commaSeparated (frugal.expr true))) fun _ _ args => .pure ?_
    exact (Paid.free rfl <| read.append <| .cons name <| .cons turbofish <| .one args).room nofun (by decide)

theorem spends_afterDot {m : Nat} {base dot : Tree} (read : Paid 35 m [base, dot]) :
    Spends (afterDot g base dot) fun n t => nesting t + 30 ≤ 32 * (m + n) := by
  intro s t s' run
  have member := spends_memberAfterDot frugal read
  rcases s with _ | ⟨(_ | _ | text | _) | _ | _, rest⟩
  case cons.leaf.literal =>
    have run : (if isFloatText text then _ else memberAfterDot g base dot) (.leaf (.literal text) :: rest) = some (t, s') := run
    rcases Decidable.em (isFloatText text) with float | whole
    · obtain ⟨number, lengths⟩ := length_indexParts text
      obtain ⟨credit, paid⟩ := read
      simp only [fit_cons, fit_nil, and_true] at paid
      have levels : nesting (indexFields base dot (indexParts text)) ≤ (32 * m - 35 + text.length) + (indexParts text).length :=
        nesting_indexFields (by omega) (by omega) fun i mem => Nat.le_add_left_of_le (lengths i mem)
      have fields : nesting (indexFields base dot (indexParts text)) + 35 ≤ 32 * (m + (text.length + 2)) := by omega
      have goesOn : Spends (if text.toList.getLast? == some '.' then
          memberAfterDot g (indexFields base dot (indexParts text)) (op ".") else pure (indexFields base dot (indexParts text)))
          fun n t => nesting t + 30 ≤ 32 * ((m + (text.length + 2)) + n) :=
        .ite (spends_memberAfterDot frugal (.cons fields <| .free (nesting_op _) .nil)) (.pure (by omega))
      rw [if_pos float] at run
      obtain ⟨front, rfl, paid⟩ := goesOn rest t s' run
      refine ⟨.leaf (.literal text) :: front, rfl, ?_⟩
      rw [Rewrite.weights, Rewrite.weight]
      omega
    · rw [if_neg whole] at run
      exact member _ t s' run
  all_goals exact member _ t s' run

theorem spends_postfixes (fuel : Nat) {m : Nat} {e : Tree} (read : nesting e + 30 ≤ 32 * m) :
    Spends (postfixes g fuel e) fun n t => nesting t + 30 ≤ 32 * (m + n) := by
  induction fuel generalizing m e with
  | zero => exact .pure read
  | succ fuel ih =>
    have goesOn {n : Nat} {t : Tree} (paid : nesting t + 30 ≤ 32 * (m + n)) :
        Spends (postfixes g fuel t) fun k u => nesting u + 30 ≤ 32 * (m + (n + k)) := (ih paid).mono fun _ _ _ => by omega
    refine .look fun _ => .ite ?call <| .look fun _ => .ite ?dot <| .look fun _ => .ite ?index <|
      .look fun _ => .ite ?tried (.pure read)
    case call =>
      refine .bind (costs_within _ (costsAll_commaSeparated (frugal.expr true))) fun _ _ args => goesOn ?_
      exact (Paid.free rfl <| .cons read <| .one args).room nofun (by decide)
    case dot =>
      refine .bind (costs_eatOp (by decide)) fun n₁ _ dot => ?_
      refine .bind (spends_afterDot frugal ((Paid.cons read <| .one dot).less (by decide))) fun n₂ t more => ?_
      exact (ih more).mono fun _ _ _ => by omega
    case index =>
      refine .bind (costs_within _ (costsAll_single (frugal.expr true))) fun _ _ idx => goesOn ?_
      exact (Paid.free rfl <| .cons read <| .one idx).node rfl (by decide)
    case tried =>
      exact .bind (costs_eatOp (by decide)) fun _ _ mark =>
        goesOn ((Paid.free rfl <| .cons read <| .one mark).node rfl (by decide))

theorem spends_trailers {m : Nat} {e : Tree} (read : nesting e + 30 ≤ 32 * m) :
    Spends (trailers g e) fun n t => nesting t + 30 ≤ 32 * (m + n) := fun s => spends_postfixes frugal (s.length + 1) read s

theorem costs_parenExpr : Costs 61 (parenExpr g) := by
  refine .bind (costs_within _ (costsAll_commaSeparated (frugal.expr true))) fun _ _ group => ?_
  split
  · exact .pure ((Paid.free rfl <| .one group).node rfl (by decide))
  · exact .pure ((Paid.free rfl <| .one group).node rfl (by decide))

theorem costs_bracketExpr : Costs 61 (bracketExpr g) := by
  have body : CostsAll 30 (do
      if ← atEnd then pure []
      else
        let first ← g.expr true
        if ← peek (isOp ";") then pure [first, ← eatOp ";", ← g.expr true]
        else if ← atEnd then pure [first]
        else
          let comma ← eatOp ","
          pure (first :: comma :: (← commaSeparated (g.expr true)))) := by
    refine .look fun _ => .ite (.pure (fit_nil _ _)) (.bind (frugal.expr true) fun _ _ first => .look fun _ => .ite ?_ ?_)
    · exact .bind (costs_eatOp (by decide)) fun _ _ semi => .bind (frugal.expr true) fun _ _ size =>
        .pure ((Paid.cons first <| .cons semi <| .one size).fit (by decide))
    · refine .look fun _ => .ite (.pure ((Paid.one first).fit (by decide))) (.bind (costs_eatOp (by decide)) fun _ _ comma => ?_)
      refine .bind (costsAll_commaSeparated (frugal.expr true)) fun _ _ rest => .pure ?_
      exact (Paid.cons first <| .cons comma <| .list rest).fit (by decide)
  refine .bind (costs_within _ body) fun _ _ group => ?_
  split
  · exact .pure ((Paid.free rfl <| .one group).node (by split <;> rfl) (by decide))
  · exact .pure ((Paid.free rfl <| .one group).node rfl (by decide))

theorem costs_fieldValue : Costs 30 (fieldValue g) := by
  refine .look fun _ => .ite ?base <| .bind (costs_outerAttributes frugal) fun _ _ attrs =>
    .bind (costs_take _) fun _ _ member => ?field
  case base =>
    refine .bind (costs_eatOp (by decide)) fun _ _ dots => .look fun _ => ?_
    refine .pick (show Costs 0 _ from .pure (Nat.le_refl _)) ((frugal.expr true).less (Nat.zero_le _)) ?_
    exact fun _ _ base => .pure ((Paid.free rfl <| .cons dots <| .free rfl <| .one base).node rfl (by decide))
  case field =>
    refine .look fun _ => .ite ?_ (.ite .failure (.pure ?_))
    · refine .bind (costs_eatOp (by decide)) fun _ _ colon => .bind (frugal.expr true) fun _ _ value => .pure ?_
      exact (Paid.cons attrs <| .cons member <| .cons colon <| .one value).node rfl (by decide)
    · exact (Paid.cons attrs <| .cons member <| .free rfl <| .free rfl .nil).node rfl (by decide)

theorem costs_structBody : Costs 63 (structBody g) := costs_within _ <|
  .bind (costsAll_commaSeparated (costs_fieldValue frugal)) fun _ _ paid => .ite .failure (.pure paid)

theorem costs_pathExpr (structs : Bool) : Costs 61 (pathExpr g structs) := by
  refine .bind (costs_qualifiedPath frugal true) fun n p paid => .look fun _ => .ite ?call <| .look fun _ => .ite ?fields ?path
  case call =>
    exact .bind (costs_macroRest p) fun _ _ call => .pure ((Paid.free rfl <| .skip <| .one call).node rfl (by decide))
  case fields =>
    exact .bind (costs_structBody frugal) fun _ _ fields =>
      .pure ((Paid.free rfl <| .cons paid <| .one fields).node rfl (by decide))
  case path => exact .pure ((Paid.free rfl <| .one paid).node rfl (by decide))

section Labels
variable {m : Nat} {label : Tree} (read : nesting label + 0 ≤ 32 * m)
include read

theorem spends_blockExpr : Spends (blockExpr g label) fun n t => nesting t + 30 ≤ 32 * (m + n) :=
  .bind frugal.block fun _ _ body => .pure ((Paid.free rfl <| .cons read <| .one body).node rfl (by decide))

theorem spends_whileExpr : Spends (whileExpr g label) fun n t => nesting t + 30 ≤ 32 * (m + n) :=
  .bind (costs_eatWord _) fun _ _ word => .bind (frugal.expr false) fun _ _ cond => .bind frugal.block fun _ _ body =>
    .pure ((Paid.free rfl <| .cons read <| .cons word <| .cons cond <| .one body).node rfl (by decide))

theorem spends_forExpr : Spends (forExpr g label) fun n t => nesting t + 30 ≤ 32 * (m + n) := by
  refine .bind (costs_eatWord _) fun _ _ word => .bind (costs_patterns frugal) fun _ _ pat => ?_
  refine .bind (costs_eatWord _) fun _ _ inWord => .bind (frugal.expr false) fun _ _ items => ?_
  refine .bind frugal.block fun _ _ body => .pure ?_
  exact (Paid.free rfl <| .cons read <| .cons word <| .cons pat <| .cons inWord <| .cons items <| .one body).node rfl (by decide)

theorem spends_loopExpr : Spends (loopExpr g label) fun n t => nesting t + 30 ≤ 32 * (m + n) :=
  .bind (costs_eatWord _) fun _ _ word => .bind frugal.block fun _ _ body =>
    .pure ((Paid.free rfl <| .cons read <| .cons word <| .one body).node rfl (by decide))

end Labels

theorem costs_branchExpr : Costs 35 (branchExpr g) :=
  .bind (costs_plainBlock frugal) fun _ _ body => .pure ((Paid.free rfl <| .free rfl <| .one body).node rfl (by decide))

theorem costs_ifExpr (fuel : Nat) : Costs 30 (ifExpr g fuel) := by
  induction fuel with
  | zero => exact .failure
  | succ fuel ih =>
    have other : Costs 0 (Parser.optional (isWord "else") do
        let word ← eatAnyWord
        if ← peek (isWord "if") then pure (.node .elseBranch [word, ← ifExpr g fuel])
        else pure (.node .elseBranch [word, ← branchExpr g])) := by
      refine costs_optional (c := 0) (.bind costs_eatAnyWord fun _ _ word => .look fun _ => .ite ?_ ?_)
      · exact .bind ih fun _ _ more => .pure ((Paid.cons word <| .one more).node rfl (by decide))
      · exact .bind (costs_branchExpr frugal) fun _ _ body => .pure ((Paid.cons word <| .one body).node rfl (by decide))
    refine .bind (costs_eatWord _) fun _ _ word => .bind (frugal.expr false) fun _ _ cond => ?_
    refine .bind (costs_plainBlock frugal) fun _ _ body => .bind other fun _ _ otherwise => .pure ?_
    exact (Paid.free rfl <| .cons word <| .cons cond <| .cons body <| .one otherwise).node rfl (by decide)

theorem costs_ifChain : Costs 30 (ifChain g) := fun s => costs_ifExpr frugal (s.length + 1) s

theorem costs_arm : Costs 30 (arm g) := by
  have guarded : Costs 0 (Parser.optional (isWord "if") do
      let word ← eatAnyWord
      pure (.node .guard [word, ← g.expr true])) := costs_optional (c := 0) <|
    .bind costs_eatAnyWord fun _ _ word => .bind (frugal.expr true) fun _ _ cond =>
      .pure ((Paid.cons word <| .one cond).node rfl (by decide))
  refine .bind (costs_outerAttributes frugal) fun n₁ _ attrs => .bind (costs_patterns frugal) fun n₂ _ pat => ?_
  refine .bind guarded fun n₃ _ guard => .bind (costs_eatOp (by decide)) fun n₄ _ arrow => ?_
  refine .bind frugal.statement fun n₅ _ body => .look fun _ => ?_
  extract_lets rest
  have goesOn (n : Nat) (comma : Tree) (paid : nesting comma + 0 ≤ 32 * n) :
      Spends (rest comma) fun m t => nesting t + 30 ≤ 32 * (n₁ + (n₂ + (n₃ + (n₄ + (n₅ + (n + m)))))) :=
    .pure ((Paid.cons attrs <| .cons pat <| .cons guard <| .cons arrow <| .cons body <| .one paid).node rfl (by decide))
  refine .ite (.bind (costs_optOp (by decide)) goesOn) (.ite (.given ?_) ?_)
  · exact (goesOn 0 absent (Nat.le_refl _)).mono fun _ _ _ => by omega
  · exact .bind ((costs_eatOp (by decide)).less (Nat.zero_le _)) goesOn

theorem costs_matchExpr : Costs 30 (matchExpr g) := by
  have arms := costsAll_afterInner frugal (by decide) (costsAll_many (costsAll_single (costs_arm frugal)))
  refine .bind (costs_eatWord _) fun _ _ word => .bind (frugal.expr false) fun _ _ scrutinee => ?_
  exact .bind (costs_within _ arms) fun _ _ arms =>
    .pure ((Paid.free rfl <| .cons word <| .cons scrutinee <| .one arms).node rfl (by decide))

omit frugal in
theorem costs_wordBlock {k : ExprKind} (plain : isPlain (.expr k) = true) {block : Parser Tree} (body : Costs 30 block) :
    Costs 30 (wordBlock k block) :=
  .bind costs_eatAnyWord fun _ _ word => .bind body fun _ _ body =>
    .pure ((Paid.free rfl <| .cons word <| .one body).node plain (by decide))

theorem costs_blockLike : Costs 30 (blockLike g) := by
  have unlabeled {p : Parser Tree} (h : Spends p fun n t => nesting t + 30 ≤ 32 * (0 + n)) : Costs 30 p :=
    h.mono fun _ _ _ => by omega
  have none : nesting absent + 0 ≤ 32 * 0 := Nat.le_refl _
  refine .look fun _ => .ite (costs_ifChain frugal) <| .look fun _ => .ite (unlabeled (spends_whileExpr frugal none)) <|
    .look fun _ => .ite (unlabeled (spends_forExpr frugal none)) <|
    .look fun _ => .ite (unlabeled (spends_loopExpr frugal none)) <| .look fun _ => .ite (costs_matchExpr frugal) <|
    .look fun _ => .ite (costs_wordBlock rfl ((costs_plainBlock frugal).less (by decide))) <|
    .look fun _ => .ite (costs_wordBlock rfl (frugal.block.less (by decide))) <|
    .look fun _ => .ite (costs_wordBlock rfl (frugal.block.less (by decide))) (unlabeled (spends_blockExpr frugal none))

theorem costs_labeled : Costs 30 (labeled g) := by
  refine .bind costs_eatLifetime fun n₁ name first => .bind (costs_eatOp (by decide)) fun n₂ colon second => ?_
  have label : nesting (.node .label [name, colon]) + 0 ≤ 32 * (n₁ + n₂) :=
    (Paid.cons first <| .one second).node rfl (by decide)
  have named {p : Parser Tree} (h : Spends p fun n t => nesting t + 30 ≤ 32 * (n₁ + n₂ + n)) :
      Spends p fun n t => nesting t + 30 ≤ 32 * (n₁ + (n₂ + n)) := h.mono fun _ _ _ => by omega
  refine .look fun _ => .ite (named (spends_whileExpr frugal label)) <|
    .look fun _ => .ite (named (spends_forExpr frugal label)) <|
    .look fun _ => .ite (named (spends_loopExpr frugal label)) (named (spends_blockExpr frugal label))

theorem costs_closureInput : Costs 30 (closureInput g) := by
  refine .bind (spends_outerAttributes frugal) fun n _ ⟨attrs, put⟩ => .bind frugal.pattern fun m pat read => ?_
  refine .look fun _ => .ite ?_ (.pure ?_)
  · refine .bind (costs_eatOp (by decide)) fun _ _ colon => .bind (frugal.type true) fun _ _ ty => .pure ?_
    exact (Paid.cons attrs <| .cons read <| .cons colon <| .one ty).node rfl (by decide)
  · have moved := put pat
    omega

theorem costs_closure (structs : Bool) : Costs 30 (closure g structs) := by
  refine .bind (costs_optLifetimes frugal) fun _ _ lifetimes => .bind (costs_optWord _) fun _ _ constant => ?_
  refine .bind (costs_optWord _) fun _ _ pinned => .bind (costs_optWord _) fun _ _ async => ?_
  refine .bind (costs_optWord _) fun _ _ moved => .bind (costs_eatOp (by decide)) fun _ _ left => ?_
  refine .bind (costsAll_commaSeparatedWhile (costs_closureInput frugal) _) fun _ _ inputs => ?_
  refine .bind (costs_eatOp (by decide)) fun _ _ right => .bind (costs_output frugal true) fun _ _ result => ?_
  refine .pick ((costs_branchExpr frugal).less (by decide)) (frugal.expr structs) fun _ _ body => .pure ?_
  exact (Paid.free rfl <| .cons lifetimes <| .cons constant <| .cons pinned <| .cons async <| .cons moved <| .cons left <|
    .cons (inputs.node rfl (by decide)) <| .cons right <| .cons result <| .one body).node rfl (by decide)

theorem costs_breakExpr (structs : Bool) : Costs 30 (breakExpr g structs) := by
  refine .bind (costs_eatWord _) fun n₁ _ word => .bind (costs_optional costs_eatLifetime) fun n₂ _ label => .look fun _ => ?_
  extract_lets rest
  have goesOn : Spends (rest ()) fun n t => nesting t + 30 ≤ 32 * (n₁ + (n₂ + n)) :=
    .bind (costs_optional (frugal.expr structs)) fun _ _ value =>
      .pure ((Paid.free rfl <| .cons word <| .cons label <| .one value).node rfl (by decide))
  exact .ite .failed goesOn

theorem costs_returnExpr {k : ExprKind} (plain : isPlain (.expr k) = true) : Costs 30 (returnExpr g k) :=
  .bind costs_eatAnyWord fun _ _ word => .bind (costs_optional (frugal.expr true)) fun _ _ value =>
    .pure ((Paid.free rfl <| .cons word <| .one value).node plain (by decide))

theorem costs_letCondition (structs : Bool) : Costs 30 (letCondition g structs) := by
  refine .bind (costs_eatWord _) fun _ _ word => .bind (costs_patterns frugal) fun _ _ pat => ?_
  refine .bind (costs_eatOp (by decide)) fun _ _ eq => .bind (frugal.operand structs) fun n first read => ?_
  refine .bind (spends_operators frugal read structs _) fun _ _ value => .pure ?_
  exact (Paid.free rfl <| .cons word <| .cons pat <| .cons eq <| .one value).node rfl (by decide)

theorem costs_prefixRange (structs : Bool) : Costs 30 (prefixRange g structs) := by
  have range (fuel : Nat) : Costs 30 (do
      let mark ← rangeMark
      let upper ← upperLimit g structs fuel mark
      pure (.node (.expr .range) [emptyAttrs, absent, mark, upper])) :=
    .bind costs_rangeMark fun _ _ mark => .bind (costs_upperLimit frugal structs fuel _) fun _ _ upper =>
      .pure ((Paid.free rfl <| .free rfl <| .cons mark <| .one upper).node rfl (by decide))
  exact fun s => range (climbFuel s) s

theorem costs_atom (structs : Bool) : Costs 30 (atom g structs) := by
  refine .look fun _ => .ite ?literal <| .look fun _ => .ite ?async <|
    .look fun _ => .ite (costs_wordBlock rfl ((costs_plainBlock frugal).less (by decide))) <|
    .look fun _ => .ite (costs_closure frugal structs) <|
    .look fun _ => .ite ((costs_pathExpr frugal structs).less (by decide)) <|
    .look fun _ => .ite ((costs_parenExpr frugal).less (by decide)) <|
    .look fun _ => .ite (costs_breakExpr frugal structs) <| .look fun _ => .ite ?next <|
    .look fun _ => .ite (costs_returnExpr frugal rfl) <|
    .look fun _ => .ite ((costs_bracketExpr frugal).less (by decide)) <|
    .look fun _ => .ite (costs_letCondition frugal structs) <|
    .look fun _ => .ite (costs_returnExpr frugal rfl) <| .look fun _ => .ite (costs_blockLike frugal) <|
    .look fun _ => .ite (costs_prefixRange frugal structs) <| .look fun _ => .ite ?infer <|
    .look fun _ => .ite (costs_labeled frugal) .failure
  case literal => exact .bind costs_eatLit fun _ _ value => .pure ((Paid.free rfl <| .one value).node rfl (by decide))
  case async =>
    refine .bind costs_eatAnyWord fun _ _ word => .bind (costs_optWord _) fun _ _ moved => ?_
    exact .bind (costs_plainBlock frugal) fun _ _ body =>
      .pure ((Paid.free rfl <| .cons word <| .cons moved <| .one body).node rfl (by decide))
  case next =>
    refine .bind costs_eatAnyWord fun _ _ word => .bind (costs_optional costs_eatLifetime) fun _ _ label => ?_
    exact .pure ((Paid.free rfl <| .cons word <| .one label).node rfl (by decide))
  case infer => exact .bind costs_eatAnyWord fun _ _ word => .pure ((Paid.free rfl <| .one word).node rfl (by decide))

theorem costs_operand (structs : Bool) : Costs 30 (operand g structs) := by
  refine .bind (spends_outerAttributes frugal) fun n₁ _ ⟨attrs, put⟩ => ?_
  refine .look fun _ => .ite ?reference <| .look fun _ => .ite ?unary ?plain
  case reference =>
    refine .bind (costs_eatOp (by decide)) fun _ _ amp => .look fun _ => .ite ?_ ?_
    · refine .bind costs_eatAnyWord fun _ _ word => .bind costs_eatAnyWord fun _ _ mutable => ?_
      exact .bind (frugal.operand structs) fun _ _ e =>
        .pure ((Paid.cons attrs <| .cons amp <| .cons word <| .cons mutable <| .one e).node rfl (by decide))
    · refine .bind (costs_optWord _) fun _ _ mutable => .bind (frugal.operand structs) fun _ _ e => ?_
      exact .pure ((Paid.cons attrs <| .cons amp <| .cons mutable <| .one e).node rfl (by decide))
  case unary =>
    refine .look fun _ => .look fun _ => ?_
    extract_lets rest
    have goesOn (n : Nat) (o : Tree) (paid : nesting o + 64 ≤ 32 * n) :
        Spends (rest o) fun m t => nesting t + 30 ≤ 32 * (n₁ + (n + m)) :=
      .bind (frugal.operand structs) fun _ _ e => .pure ((Paid.cons attrs <| .cons paid <| .one e).node rfl (by decide))
    refine .ite (.bind (costs_eatOp (by decide)) goesOn) (.ite (.bind (costs_eatOp (by decide)) goesOn) ?_)
    exact .bind (costs_eatOp (by decide)) goesOn
  case plain =>
    refine .bind (costs_atom frugal structs) fun n₂ e paid => .bind (spends_trailers frugal paid) fun m t more => .pure ?_
    have moved := put t
    omega

theorem costs_expr (structs : Bool) : Costs 30 (expr g structs) :=
  .bind (costs_operand frugal structs) fun _ _ read => spends_operators frugal read structs _

theorem costs_statementExpr : Costs 30 (statementExpr g) := by
  refine .bind (spends_outerAttributes frugal) fun n₁ attrs ⟨read, put⟩ => .look fun _ => .ite ?_ ?_
  · refine .bind (costs_blockLike frugal) fun n₂ e paid => .look fun _ => .ite ?_ (.pure ?_)
    · refine .bind (spends_trailers frugal paid) fun n₃ t more => ?_
      have moved := put t
      exact (spends_operators frugal (m := n₁ + (n₂ + n₃)) (by omega) true _).mono fun _ _ _ => by omega
    · have moved := put e
      omega
  · refine .bind (costs_operand frugal true) fun n₂ e paid => ?_
    have moved := put e
    exact (spends_operators frugal (m := n₁ + n₂) (by omega) true _).mono fun _ _ _ => by omega

end Rules

end Retype.Code.Grammar
