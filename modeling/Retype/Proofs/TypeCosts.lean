import Retype.Proofs.CodeCosts

/-! Paths, attributes, types and patterns cost no more than their tokens pay for, if the rules that they call for what is nested
in them cost no more. -/

namespace Retype.Code.Grammar
open Code.Parser
open Rewrite (weights weight nesting descents)

/-- The credit of the rules that others call. -/
structure Frugal (g : Rules) : Prop where
  expr : ∀ structs, Costs 30 (g.expr structs)
  operand : ∀ structs, Costs 30 (g.operand structs)
  statement : Costs 30 g.statement
  type : ∀ sums, Costs 30 (g.type sums)
  bound : Costs 50 g.bound
  pattern : Costs 30 g.pattern
  block : Costs 36 g.block
  item : Costs 30 g.item

section Rules
variable {g : Rules} (frugal : Frugal g)
include frugal

theorem costs_constArgument : Costs 30 (constArgument g) := by
  refine .look fun _ => .ite ?_ ?_
  · exact .bind costs_eatLit fun _ _ value => .pure ((Paid.free rfl <| .one value).node rfl (by decide))
  · exact .bind frugal.block fun _ _ body => .pure ((Paid.free rfl <| .free rfl <| .one body).node rfl (by decide))

theorem costs_bounds : Costs 40 (bounds g) :=
  .bind (costsAll_joined frugal.bound (by decide) (by decide) _) fun _ _ members => .pure (members.node rfl (by decide))

omit frugal in
theorem paid_loneSegment {t name args : Tree} {n : Nat} (lone : loneSegment? t = some (name, args))
    (paid : nesting t + 30 ≤ 32 * n) : Paid 30 n [name, args] := by
  obtain ⟨ofName, ofArgs⟩ := nesting_loneSegment? lone
  refine ⟨by omega, fit_cons.mpr ⟨by omega, fit_cons.mpr ⟨by omega, fit_nil _ _⟩⟩⟩

theorem costs_genericArgument : Costs 30 (genericArgument g) := by
  refine .look fun _ => .ite (costs_eatLifetime.less (by decide)) (.look fun _ => .ite (costs_constArgument frugal) ?_)
  refine .bind (frugal.type true) fun n t paid => ?_
  split
  · exact .pure paid
  · rename_i name args lone
    have parts := paid_loneSegment lone paid
    refine .look fun _ => .ite ?_ (.look fun _ => .ite ?_ (.pure paid))
    · refine .bind (costs_eatOp (by decide)) fun _ _ eq => .look fun _ => .ite ?_ ?_
      · exact .bind (costs_constArgument frugal) fun _ _ value =>
          .pure ((parts.append <| .cons eq <| .one value).node rfl (by decide))
      · exact .bind (frugal.type true) fun _ _ value =>
          .pure ((parts.append <| .cons eq <| .one value).node rfl (by decide))
    · refine .bind (costs_eatOp (by decide)) fun _ _ colon => .bind (costs_bounds frugal) fun _ _ members => ?_
      exact .pure ((parts.append <| .cons colon <| .one members).node rfl (by decide))

theorem costs_angleArguments : Costs 60 (angleArguments g) := by
  refine .bind (costs_optOp (by decide)) fun _ _ colons => .bind (costs_eatOp (by decide)) fun _ _ opening => ?_
  refine .bind (costsAll_commaSeparatedWhile (costs_genericArgument frugal) _) fun _ _ args => ?_
  refine .bind (costs_eatOp (by decide)) fun _ _ closing => .pure ?_
  exact (Paid.cons colons <| .cons opening <| (Paid.lifetimesFirst args).append <| .one closing).node rfl (by decide)

theorem costs_segment (inExpr : Bool) : Costs 63 (segment g inExpr) := by
  refine .look fun _ => .ite ?_ (.look fun _ => .pick costs_eatAnyWord costs_eatIdent fun _ _ name => ?_)
  · exact .bind costs_eatAnyWord fun _ _ name => .pure ((Paid.cons name <| .free rfl .nil).node rfl (by decide))
  · refine .bind (costs_optional (costs_angleArguments frugal)) fun _ _ args => ?_
    exact .pure ((Paid.cons name <| .one args).node rfl (by decide))

omit frugal in
theorem costsAll_rootMark : CostsAll 63 rootMark :=
  .look fun _ => .ite (costsAll_single ((costs_eatOp (by decide)).less (by decide))) (.pure (fit_nil _ _))

theorem costsAll_moreSegments (inExpr : Bool) : CostsAll 63 (moreSegments g inExpr) :=
  costsAll_manyWhile (costsAll_withOp (by decide) (costs_segment frugal inExpr))

theorem spends_path (inExpr : Bool) : Spends (path g inExpr) fun n t => ∃ parts, t = .node .path parts ∧ Paid 63 n parts := by
  refine .bind costsAll_rootMark fun _ _ root => .bind (costs_segment frugal inExpr) fun _ _ first => ?_
  refine .bind (costsAll_moreSegments frugal inExpr) fun _ _ rest => .pure ⟨_, rfl, ?_⟩
  exact (Paid.list root).append <| .cons first <| .list rest

theorem costs_path (inExpr : Bool) : Costs 62 (path g inExpr) := (spends_path frugal inExpr).mono fun n t paid => by
  obtain ⟨parts, rfl, paid⟩ := paid
  exact paid.node rfl (by decide)

omit frugal in
theorem costs_plainSegment : Costs 63 plainSegment := .look fun _ => .pick costs_eatAnyWord costs_eatIdent fun _ _ name =>
  .pure ((Paid.cons name <| .free rfl .nil).node rfl (by decide))

omit frugal in
theorem costs_plainPath : Costs 62 plainPath := by
  refine .bind costsAll_rootMark fun _ _ root => .bind costs_plainSegment fun _ _ first => ?_
  refine .bind (costsAll_manyWhile (costsAll_withOp (by decide) costs_plainSegment)) fun _ _ rest => .pure ?_
  exact ((Paid.list root).append <| .cons first <| .list rest).node rfl (by decide)

theorem costs_qualifiedPath (inExpr : Bool) : Costs 62 (qualifiedPath g inExpr) := by
  refine .look fun _ => .ite ?_ (costs_path frugal inExpr)
  refine .bind (costs_eatOp (by decide)) fun n₁ _ opening => .bind (frugal.type true) fun n₂ _ ty => .look fun _ => ?_
  extract_lets rest
  have goesOn (n : Nat) (via : Trees) (paid : Paid 0 n via) :
      Spends (rest via) fun m t => nesting t + 62 ≤ 32 * (n₁ + (n₂ + (n + m))) := by
    refine .bind (costs_eatOp (by decide)) fun _ _ closing => .bind (costs_eatOp (by decide)) fun _ _ colons => ?_
    refine .bind (costs_segment frugal inExpr) fun _ _ first => ?_
    refine .bind (costsAll_manyWhile (costsAll_withOp (by decide) (costs_segment frugal inExpr))) fun _ _ more => .pure ?_
    simp only [List.cons_append, List.nil_append, List.append_assoc]
    exact (Paid.cons opening <| .cons ty <| paid.append <| .cons closing <| .cons colons <| .cons first <| .list more).node rfl
      (by decide)
  refine .ite (.bind (costs_eatWord _) fun n₃ _ word => ?_) (.given ?_)
  · refine .bind (spends_path frugal false) fun n₄ p paid => .given ?_
    obtain ⟨parts, rfl, paid⟩ := paid
    exact (goesOn (n₃ + n₄) _ (.list ((Paid.cons word paid).fit (Nat.zero_le _)))).mono fun _ _ _ => by omega
  · exact (goesOn 0 [] .nil).mono fun _ _ _ => by omega

omit frugal in
theorem costs_macroRest (name : Tree) : Costs 64 (macroRest name) := by
  refine .bind (costs_eatOp (by decide)) fun _ _ _ => .bind (spends_take _) fun _ group taken => .pure ?_
  obtain ⟨isGroup, rfl⟩ := taken
  rcases group with _ | ⟨d, body⟩ | _
  · cases isGroup
  · show 32 * weights body + 64 ≤ 32 * (_ + ((weights body + 2) + 0))
    omega
  · cases isGroup

omit frugal in
theorem costs_macroGroup : Costs 32 macroGroup := costs_take _

theorem costsAll_attributeBody : CostsAll 0 (attributeBody g) := by
  refine .look fun _ => ?_
  extract_lets rest
  have goesOn (n : Nat) (p : Tree) (paid : nesting p + 62 ≤ 32 * n) : Spends (rest p) fun m ts => Fit 0 (32 * (n + m)) ts := by
    have single {m : Nat} {t : Tree} (paid : nesting t + 0 ≤ 32 * m) : Fit 0 (32 * m) [t] := (Paid.one paid).fit (Nat.le_refl 0)
    refine .look fun _ => .ite ?_ (.look fun _ => .ite ?_ ?_)
    · exact .bind costs_macroGroup fun _ _ body => .pure (single ((Paid.cons paid <| .one body).node rfl (by decide)))
    · refine .bind (costs_eatOp (by decide)) fun _ _ eq => .bind (frugal.expr true) fun _ _ value => ?_
      exact .pure (single ((Paid.cons paid <| .cons eq <| .one value).node rfl (by decide)))
    · exact .pure (single ((Paid.one paid).node rfl (by decide)))
  refine .ite (.bind costs_eatAnyWord fun n₁ word paid => .given (goesOn n₁ _ ?_)) (.bind costs_plainPath goesOn)
  have segment : nesting (.node .segment [word, absent]) + 63 ≤ 32 * n₁ :=
    (Paid.cons paid <| .free rfl .nil).node rfl (by decide)
  exact (Paid.one segment).node rfl (by decide)

theorem costs_outerAttribute : Costs 62 (outerAttribute g) :=
  .bind (costs_eatOp (by decide)) fun _ _ hash => .bind (costs_within _ (costsAll_attributeBody frugal)) fun _ _ body =>
    .pure ((Paid.cons hash <| .one body).node rfl (by decide))

theorem costs_innerAttribute : Costs 62 (innerAttribute g) :=
  .bind (costs_eatOp (by decide)) fun _ _ hash => .bind (costs_eatOp (by decide)) fun _ _ bang =>
    .bind (costs_within _ (costsAll_attributeBody frugal)) fun _ _ body =>
      .pure ((Paid.cons hash <| .cons bang <| .one body).node rfl (by decide))

theorem costsAll_innerAttributes : CostsAll 62 (innerAttributes g) :=
  costsAll_manyWhile (costsAll_single (costs_innerAttribute frugal))

theorem costsAll_afterInner {credit : Nat} (le : credit ≤ 62) {p : Parser Trees} (h : CostsAll credit p) : CostsAll credit (do
    let inner ← innerAttributes g
    pure (inner ++ (← p))) :=
  .bind (costsAll_innerAttributes frugal) fun _ _ inner => .bind h fun _ _ rest =>
    .pure (fit_append.mpr ⟨inner.mono (by omega), rest.mono (by omega)⟩)

theorem spends_outerAttributes : Spends (outerAttributes g) fun n a =>
    nesting a + 0 ≤ 32 * n ∧ ∀ t, nesting (withAttrs a t) ≤ nesting t + 32 * n := by
  refine .bind (costsAll_manyWhile (costsAll_single (costs_outerAttribute frugal))) fun n attrs paid => .pure ?_
  have levels : nesting (.node .attrs attrs) + 0 ≤ 32 * n := paid.node rfl (by decide)
  exact ⟨levels, fun t => Nat.le_trans (nesting_withAttrs_le attrs t) (Nat.add_le_add_left levels _)⟩

theorem costs_outerAttributes : Costs 0 (outerAttributes g) := (spends_outerAttributes frugal).mono fun _ _ paid => paid.1

theorem costs_plainBlock : Costs 36 (plainBlock g) := .look fun _ => .ite .failure frugal.block

theorem costsAll_types : CostsAll 30 (types g) := costsAll_commaSeparated (frugal.type true)

theorem costs_output (sums : Bool) : Costs 0 (output g sums) := costs_optional (c := 0) <|
  .bind (costs_eatOp (by decide)) fun _ _ arrow => .bind (frugal.type sums) fun _ _ ty =>
    .pure ((Paid.cons arrow <| .one ty).node rfl (by decide))

theorem costs_parenArguments : Costs 62 (parenArguments g) :=
  .bind (costs_optOp (by decide)) fun _ _ _ => .bind (costs_within _ (costsAll_types frugal)) fun _ _ args =>
    .bind (costs_output frugal false) fun _ _ result => .pure ((Paid.skip <| .cons args <| .one result).node rfl (by decide))

theorem spends_withParens {m : Nat} {parts : Trees} (paid : Paid 63 m parts) :
    Spends (withParens g (.node .path parts)) fun n t => nesting t + 61 ≤ 32 * (m + n) := by
  refine .look fun _ => .ite ?_ (.pure (paid.node rfl (by decide)))
  refine .bind (costs_parenArguments frugal) fun k args given => ?_
  refine .bind (costsAll_moreSegments frugal false) fun _ more continued => .pure ?_
  have own := paid.1
  have replaced : Fit 62 (32 * (m + k)) (setLastArguments args parts) :=
    (paid.2.mono (by omega)).setLastArguments (by omega)
  have whole : Paid 62 (m + k) (setLastArguments args parts) := ⟨by omega, replaced⟩
  rw [← Nat.add_assoc]
  exact (whole.append <| .list continued).node rfl (by decide)

omit frugal in
theorem costs_lifetimeBounds : Costs 0 lifetimeBounds := by
  refine .look fun _ => .ite ?_ (.pure (Nat.le_refl _))
  exact .bind (costsAll_joined costs_eatLifetime (by decide) (by decide) _) fun _ _ names => .pure (names.node rfl (by decide))

theorem spends_lifetimeParam : Spends (lifetimeParam g) fun n t =>
    ∃ attrs parts, t = .node .lifetimeParam (attrs :: parts) ∧ Paid 31 n (attrs :: parts) := by
  refine .bind (costs_outerAttributes frugal) fun _ _ attrs => .bind costs_eatLifetime fun _ _ name => ?_
  refine .look fun _ => .ite ?_ ?_
  · refine .bind (costs_eatOp (by decide)) fun _ _ colon => .bind costs_lifetimeBounds fun _ _ names => ?_
    exact .pure ⟨_, _, rfl, (Paid.cons attrs <| .cons name <| .cons colon <| .one names).less (by decide)⟩
  · exact .pure ⟨_, _, rfl, (Paid.cons attrs <| .cons name <| .free rfl <| .free rfl .nil).less (by decide)⟩

theorem costs_lifetimeParam : Costs 30 (lifetimeParam g) := (spends_lifetimeParam frugal).mono fun n t paid => by
  obtain ⟨attrs, parts, rfl, paid⟩ := paid
  exact paid.node rfl (by decide)

theorem costs_boundLifetimes : Costs 60 (boundLifetimes g) := by
  refine .bind (costs_eatWord _) fun _ _ word => .bind (costs_eatOp (by decide)) fun _ _ opening => ?_
  refine .bind (costsAll_commaSeparatedWhile (costs_lifetimeParam frugal) _) fun _ _ params => ?_
  refine .bind (costs_eatOp (by decide)) fun _ _ closing => .pure ?_
  exact (Paid.cons word <| .cons opening <| (Paid.list params).append <| .one closing).node rfl (by decide)

theorem costs_optLifetimes : Costs 0 (optLifetimes g) := costs_optional (costs_boundLifetimes frugal)

theorem costs_traitBound : Costs 58 (traitBound g) := by
  refine .bind (costs_optOp (by decide)) fun _ _ mark => .bind (costs_optLifetimes frugal) fun _ _ lifetimes => ?_
  refine .bind (spends_path frugal false) fun n p paid => ?_
  obtain ⟨parts, rfl, paid⟩ := paid
  exact .bind (spends_withParens frugal paid) fun _ _ p =>
    .pure ((Paid.cons mark <| .cons lifetimes <| .one p).node rfl (by decide))

theorem costs_bound : Costs 50 (bound g) := by
  refine .look fun _ => .ite (costs_eatLifetime.less (by decide)) <| .look fun _ => .ite ?inParens <|
    .look fun _ => .ite ?used ((costs_traitBound frugal).less (by decide))
  case inParens =>
    refine .bind (costs_within _ (costsAll_single (costs_traitBound frugal))) fun _ _ bound => ?_
    exact .pure ((Paid.one bound).node rfl (by decide))
  case used =>
    refine .bind costs_eatAnyWord fun _ _ word => .bind (costs_eatOp (by decide)) fun _ _ opening => ?_
    refine .bind (costsAll_commaSeparatedWhile (costs_take _) _) fun _ _ params => ?_
    refine .bind (costs_eatOp (by decide)) fun _ _ closing => .pure ?_
    exact (Paid.cons word <| .cons opening <| (Paid.list params).append <| .one closing).node rfl (by decide)

omit frugal in
theorem costs_abi : Costs 62 abi := by
  refine .bind (costs_eatWord _) fun _ _ word => .look fun _ => .ite ?_ (.pure ((Paid.one word).node rfl (by decide)))
  exact .bind costs_eatLit fun _ _ name => .pure ((Paid.cons word <| .one name).node rfl (by decide))

omit frugal in
theorem costs_optAbi : Costs 0 optAbi := costs_optional costs_abi

theorem costs_bareFnArgument : Costs 29 (bareFnArgument g) := by
  refine .bind (costs_outerAttributes frugal) fun _ _ attrs => .look fun _ => .ite ?_ (.look fun _ => .ite ?_ ?_)
  · exact .bind (costs_eatOp (by decide)) fun _ _ dots =>
      .pure ((Paid.cons attrs <| .free rfl <| .free rfl <| .one dots).node rfl (by decide))
  · refine .bind costs_eatAnyWord fun _ _ name => .bind (costs_eatOp (by decide)) fun _ _ colon => ?_
    exact .bind (frugal.type true) fun _ _ ty =>
      .pure ((Paid.cons attrs <| .cons name <| .cons colon <| .one ty).node rfl (by decide))
  · exact .bind (frugal.type true) fun _ _ ty =>
      .pure ((Paid.cons attrs <| .free rfl <| .free rfl <| .one ty).node rfl (by decide))

section Lifetimes
variable {m : Nat} {lifetimes : Tree} (read : nesting lifetimes + 0 ≤ 32 * m)
include read

theorem spends_bareFn : Spends (bareFn g lifetimes) fun n t => nesting t + 30 ≤ 32 * (m + n) := by
  refine .bind (costs_optWord _) fun _ _ guarded => .bind costs_optAbi fun _ _ foreign => ?_
  refine .bind (costs_eatWord _) fun _ _ word => ?_
  refine .bind (costs_within _ (costsAll_commaSeparated (costs_bareFnArgument frugal))) fun _ _ args => ?_
  refine .bind (costs_output frugal false) fun _ _ result => .pure ?_
  exact (Paid.cons read <| .cons guarded <| .cons foreign <| .cons word <| .cons args <| .one result).node rfl (by decide)

theorem spends_traitSum {k : Nat} {first : Trees} (paid : Paid 40 k first) (sums : Bool) :
    Spends (traitSum g lifetimes first sums) fun n t => nesting t + 30 ≤ 32 * (m + (k + n)) := by
  have more : CostsAll 50 (manyWhile (isOp "+") do
      let plus ← eatOp "+"
      if ← peek canBeginBound then pure [plus, ← g.bound] else pure [plus]) := by
    refine costsAll_manyWhile (.bind (costs_eatOp (by decide)) fun _ _ plus => .look fun _ => .ite ?_ ?_)
    · exact .bind frugal.bound fun _ _ bound => .pure ((Paid.cons plus <| .one bound).fit (by decide))
    · exact .pure ((Paid.one plus).fit (by decide))
  refine .pick more (.pure (fit_nil _ _)) fun n rest members => .pure ?_
  have sum : nesting (.node .bounds (lifetimes :: first ++ rest)) + 39 ≤ 32 * (m + (k + n)) :=
    (Paid.cons read <| paid.append <| .list members).node rfl (by decide)
  exact (Paid.free rfl <| .one sum).node rfl (by decide)

theorem spends_pathType (sums : Bool) : Spends (pathType g lifetimes sums) fun n t => nesting t + 30 ≤ 32 * (m + n) := by
  refine .bind (costs_qualifiedPath frugal false) fun k p paid => ?_
  split
  · exact .pure ((Paid.skip <| .one paid).node rfl (by decide))
  · refine .look fun _ => .ite ?_ (.look fun _ => .ite ?_ ?_)
    · exact .bind (costs_macroRest p) fun _ _ call => .pure ((Paid.skip <| .skip <| .one call).node rfl (by decide))
    · have bound : nesting (.node .traitBound [absent, absent, p]) + 61 ≤ 32 * k :=
        (Paid.free rfl <| .free rfl <| .one paid).node rfl (by decide)
      exact spends_traitSum frugal read ((Paid.one bound).less (by decide)) sums
    · exact .pure ((Paid.skip <| .one paid).node rfl (by decide))

end Lifetimes

theorem costs_traitBounds (sums : Bool) : Costs 40 (traitBounds g sums) :=
  .ite (costs_bounds frugal) (.bind frugal.bound fun _ _ bound => .pure ((Paid.one bound).node rfl (by decide)))

theorem costs_parenType (sums : Bool) : Costs 30 (parenType g sums) := by
  have sum {n : Nat} {b : Tree} {credit : Nat} (paid : nesting b + credit ≤ 32 * n) (le : 40 ≤ credit) :
      Spends (traitSum g absent [b] true) fun m t => nesting t + 30 ≤ 32 * (0 + (n + m)) :=
    spends_traitSum frugal (show nesting absent + 0 ≤ 32 * 0 from Nat.le_refl _) ((Paid.one paid).less le) true
  have body : CostsAll 0 (do
      if ← atEnd then pure []
      else if ← peek (either isLifetime (isOp "?")) then pure [← traitSum g absent [← g.bound] true]
      else do
        let first ← g.type true
        if ← atEnd then pure [first]
        else do
          let comma ← eatOp ","
          pure (first :: comma :: (← types g))) := by
    refine .look fun _ => .ite (.pure (fit_nil _ _)) (.look fun _ => .ite ?_ ?_)
    · exact .bind frugal.bound fun k b bound => .bind (sum bound (by decide)) fun _ _ t => .pure (by
        rw [Nat.zero_add] at t
        exact (Paid.one t).fit (by decide))
    · refine .bind (frugal.type true) fun _ _ first => .look fun _ => .ite (.pure ((Paid.one first).fit (by decide))) ?_
      refine .bind (costs_eatOp (by decide)) fun _ _ comma => .bind (costsAll_types frugal) fun _ _ rest => .pure ?_
      exact (Paid.cons first <| .cons comma <| .list rest).fit (by decide)
  refine .bind (costs_within _ body) fun n group paid => ?_
  split
  · rename_i d first
    have inside := nesting_lt_group (d := d) (List.mem_singleton_self first)
    have whole {b : Tree} (bound : nesting b + 62 ≤ 32 * n) :
        Spends (traitSum g absent [b] true) fun m t => nesting t + 30 ≤ 32 * (n + m) :=
      (sum bound (by decide)).mono fun _ _ _ => by omega
    refine .look fun _ => .ite ?_ (.pure ((Paid.one paid).node rfl (by decide)))
    split
    · rename_i parts
      have path := nesting_lt_node (k := .type .path) nofun (List.mem_singleton_self (.node .path parts))
      have read : nesting (.node .path parts) + 65 ≤ 32 * n := by omega
      have bound : nesting (.node .traitBound [absent, absent, .node .path parts]) + 64 ≤ 32 * n :=
        (Paid.free rfl <| .free rfl <| .one read).node rfl (by decide)
      have inParens : nesting (.group .paren [.node .traitBound [absent, absent, .node .path parts]]) + 63 ≤ 32 * n :=
        nesting_group ⟨by omega, (Paid.one bound).fit (by decide)⟩
      exact whole ((Paid.one inParens).node rfl (by decide))
    · exact whole ((Paid.one paid).node rfl (by decide))
    · exact .pure ((Paid.one paid).node rfl (by decide))
  · exact .pure ((Paid.one paid).node rfl (by decide))

theorem costs_bracketType : Costs 30 (bracketType g) := by
  have body : CostsAll 0 (do
      let elem ← g.type true
      if ← atEnd then pure [elem] else pure [elem, ← eatOp ";", ← g.expr true]) := by
    refine .bind (frugal.type true) fun _ _ elem => .look fun _ => .ite (.pure ((Paid.one elem).fit (by decide))) ?_
    exact .bind (costs_eatOp (by decide)) fun _ _ semi => .bind (frugal.expr true) fun _ _ size =>
      .pure ((Paid.cons elem <| .cons semi <| .one size).fit (by decide))
  refine .bind (costs_within _ body) fun n group paid => ?_
  split
  · exact .pure ((Paid.one paid).node rfl (by decide))
  · exact .pure ((Paid.one paid).node rfl (by decide))

theorem costs_type (sums : Bool) : Costs 30 (type g sums) := by
  refine .bind (costs_optLifetimes frugal) fun n lifetimes read => .look fun _ => .ite (spends_bareFn frugal read) <|
    .look fun _ => .ite ?dyn <| .look fun _ => .ite (spends_pathType frugal read sums) <| .ite .failure <|
    .look fun _ => .ite ((costs_parenType frugal sums).after n) <| .look fun _ => .ite ((costs_bracketType frugal).after n) <|
    .look fun _ => .ite ?pointer <| .look fun _ => .ite ?reference <| .look fun _ => .ite ?never <|
    .look fun _ => .ite ?impl <| .look fun _ => .ite ?infer <| .look fun _ => .ite ?lifetime .failure
  case dyn | impl =>
    refine .bind costs_eatAnyWord fun _ _ word => .bind (costs_traitBounds frugal sums) fun _ _ members => ?_
    exact .pure ((Paid.skip <| .cons word <| .one members).node rfl (by decide))
  case pointer =>
    refine .bind (costs_eatOp (by decide)) fun _ _ star => .look fun _ => ?_
    refine .pick costs_eatAnyWord (costs_eatWord _) fun _ _ word => .bind (frugal.type false) fun _ _ ty => .pure ?_
    exact (Paid.skip <| .cons star <| .cons word <| .one ty).node rfl (by decide)
  case reference =>
    refine .bind (costs_eatOp (by decide)) fun _ _ amp => .bind (costs_optional costs_eatLifetime) fun _ _ lifetime => ?_
    refine .bind (costs_optWord _) fun _ _ mutable => .bind (frugal.type false) fun _ _ ty => .pure ?_
    exact (Paid.skip <| .cons amp <| .cons lifetime <| .cons mutable <| .one ty).node rfl (by decide)
  case never =>
    exact .bind (costs_eatOp (by decide)) fun _ _ bang => .pure ((Paid.skip <| .one bang).node rfl (by decide))
  case infer => exact .bind costs_eatAnyWord fun _ _ word => .pure ((Paid.skip <| .one word).node rfl (by decide))
  case lifetime =>
    exact .bind (costs_traitBounds frugal sums) fun _ _ members =>
      .pure ((Paid.skip <| .free rfl <| .one members).node rfl (by decide))

theorem costs_patterns : Costs 29 (patterns g) := by
  refine .bind (costs_optOp (by decide)) fun k _ leading => .bind frugal.pattern fun _ _ first => ?_
  refine .bind (costsAll_manyWhile (costsAll_withOp (by decide) frugal.pattern)) fun _ _ rest => .ite (.pure ?_) (.pure ?_)
  · omega
  · exact (Paid.cons leading <| .cons first <| .list rest).node rfl (by decide)

theorem costsAll_patternList : CostsAll 29 (patternList g) := costsAll_commaSeparated (costs_patterns frugal)

theorem costs_parenPattern : Costs 30 (parenPattern g) := by
  refine .bind (costs_within _ (costsAll_patternList frugal)) fun _ _ group => ?_
  split
  · exact .pure ((Paid.free rfl <| .one group).node rfl (by decide))
  · exact .pure ((Paid.free rfl <| .one group).node rfl (by decide))

theorem costs_fieldPattern : Costs 30 (fieldPattern g) := by
  refine .bind (costs_outerAttributes frugal) fun _ _ attrs => .look fun _ => .ite ?_ (.look fun _ => .ite ?_ ?_)
  · exact .bind (costs_eatOp (by decide)) fun _ _ dots => .pure ((Paid.cons attrs <| .one dots).node rfl (by decide))
  · refine .bind (costs_take _) fun _ _ member => .bind (costs_eatOp (by decide)) fun _ _ colon => ?_
    exact .bind (costs_patterns frugal) fun _ _ pat =>
      .pure ((Paid.cons attrs <| .cons member <| .cons colon <| .one pat).node rfl (by decide))
  · refine .bind (costs_optWord _) fun n₁ _ boxed => .bind (costs_optWord _) fun n₂ _ byRef => ?_
    refine .bind (costs_optWord _) fun n₃ _ mutable => .bind costs_eatIdent fun n₄ name paid => .pure ?_
    have ident : nesting (.node (.pat .ident) [emptyAttrs, _, _, _, name, absent, absent]) + 63 ≤ 32 * (n₁ + (n₂ + (n₃ + n₄))) :=
      (Paid.free rfl <| .cons boxed <| .cons byRef <| .cons mutable <| .cons paid <| .free rfl <| .free rfl .nil).node rfl
        (by decide)
    exact (Paid.cons attrs <| .free rfl <| .free rfl <| .one ident).node rfl (by decide)

theorem costsAll_fieldPatterns : CostsAll 30 (fieldPatterns g) :=
  .bind (costsAll_commaSeparated (costs_fieldPattern frugal)) fun _ _ paid => .ite .failure (.pure paid)

omit frugal in
theorem costs_rangeMark : Costs 64 rangeMark :=
  .look fun _ => .ite (costs_eatOp (by decide)) (.look fun _ => .ite .failure (costs_eatOp (by decide)))

omit frugal in
theorem costs_innerRangeMark : Costs 64 innerRangeMark := by
  refine .look fun _ => .ite (.bind (costs_eatOp (by decide)) fun _ _ _ => .pure ?_) costs_rangeMark
  rw [nesting_op]
  omega

theorem spends_rangeBound : Spends (rangeBound g) fun n t =>
    ∃ k parts, t = .node k parts ∧ isPlain k = true ∧ Paid 31 n parts := by
  refine .look fun _ => .ite ?_ (.look fun _ => .ite ?_ ?_)
  · exact .bind costs_eatLit fun _ _ value => .pure ⟨_, _, rfl, rfl, (Paid.free rfl <| .one value).less (by decide)⟩
  · exact .bind costs_eatAnyWord fun _ _ word => .bind frugal.block fun _ _ body =>
      .pure ⟨_, _, rfl, rfl, (Paid.free rfl <| .cons word <| .one body).less (by decide)⟩
  · exact .bind (costs_qualifiedPath frugal true) fun _ _ p =>
      .pure ⟨_, _, rfl, rfl, (Paid.free rfl <| .one p).less (by decide)⟩

theorem costs_rangeBound : Costs 30 (rangeBound g) := (spends_rangeBound frugal).mono fun n t paid => by
  obtain ⟨k, parts, rfl, plain, paid⟩ := paid
  exact paid.node plain (by decide)

theorem spends_rangePattern {m : Nat} {lower : Tree} (read : nesting lower + 30 ≤ 32 * m) :
    Spends (rangePattern g lower) fun n t => nesting t + 30 ≤ 32 * (m + n) := by
  refine .bind costs_innerRangeMark fun _ _ mark => .look fun _ => ?_
  refine .pick (show Costs 0 _ from .ite (.pure (Nat.le_refl _)) .failure)
    ((costs_rangeBound frugal).less (Nat.zero_le _)) fun _ _ upper => .pure ?_
  exact (Paid.free rfl <| .cons read <| .cons mark <| .one upper).node rfl (by decide)

theorem costs_pathPattern : Costs 30 (pathPattern g) := by
  refine .bind (costs_qualifiedPath frugal true) fun n p paid => .look fun _ => .ite ?call <|
    .look fun _ => .ite ?fields <| .look fun _ => .ite ?members <| .look fun _ => .ite ?range ?path
  case call =>
    exact .bind (costs_macroRest p) fun _ _ call => .pure ((Paid.free rfl <| .skip <| .one call).node rfl (by decide))
  case fields =>
    exact .bind (costs_within _ (costsAll_fieldPatterns frugal)) fun _ _ fields =>
      .pure ((Paid.free rfl <| .cons paid <| .one fields).node rfl (by decide))
  case members =>
    exact .bind (costs_within _ (costsAll_patternList frugal)) fun _ _ members =>
      .pure ((Paid.free rfl <| .cons paid <| .one members).node rfl (by decide))
  case range => exact spends_rangePattern frugal ((Paid.free rfl <| .one paid).node rfl (by decide))
  case path => exact .pure ((Paid.free rfl <| .one paid).node rfl (by decide))

theorem costs_identPattern : Costs 30 (identPattern g) := by
  refine .bind (costs_optWord _) fun _ _ byRef => .bind (costs_optWord _) fun _ _ mutable => .look fun _ => ?_
  refine .pick costs_eatAnyWord costs_eatIdent fun _ _ name => .look fun _ => .ite ?_ (.pure ?_)
  · refine .bind (costs_eatOp (by decide)) fun _ _ mark => .bind frugal.pattern fun _ _ pat => .pure ?_
    exact (Paid.free rfl <| .free rfl <| .cons byRef <| .cons mutable <| .cons name <| .cons mark <| .one pat).node rfl
      (by decide)
  · exact (Paid.free rfl <| .free rfl <| .cons byRef <| .cons mutable <| .cons name <| .free rfl <| .free rfl .nil).node rfl
      (by decide)

theorem costs_pattern : Costs 30 (pattern g) := by
  refine .look fun _ => .ite (costs_pathPattern frugal) <| .look fun _ => .ite ?wild <| .look fun _ => .ite ?boxed <|
    .look fun _ => .ite ?limit <| .look fun _ => .ite (costs_identPattern frugal) <| .look fun _ => .ite ?reference <|
    .look fun _ => .ite (costs_parenPattern frugal) <| .look fun _ => .ite ?slice <| .look fun _ => .ite ?rest .failure
  case wild => exact .bind costs_eatAnyWord fun _ _ word => .pure ((Paid.free rfl <| .one word).node rfl (by decide))
  case boxed =>
    exact .bind costs_eatAnyWord fun _ _ word => .bind frugal.pattern fun _ _ pat =>
      .pure ((Paid.free rfl <| .cons word <| .one pat).node rfl (by decide))
  case limit =>
    refine .bind (spends_rangeBound frugal) fun n lower paid => ?_
    obtain ⟨k, parts, rfl, plain, paid⟩ := paid
    refine .look fun _ => .ite (spends_rangePattern frugal (paid.node plain (by decide))) ?_
    split
    · rename_i same
      cases same
      exact .pure (paid.node rfl (by decide))
    · rename_i same
      cases same
      exact .pure (paid.node rfl (by decide))
    · exact .pure (paid.node plain (by decide))
  case reference =>
    refine .bind (costs_eatOp (by decide)) fun _ _ amp => .bind (costs_optWord _) fun _ _ mutable => ?_
    exact .bind frugal.pattern fun _ _ pat =>
      .pure ((Paid.free rfl <| .cons amp <| .cons mutable <| .one pat).node rfl (by decide))
  case slice =>
    exact .bind (costs_within _ (costsAll_patternList frugal)) fun _ _ members =>
      .pure ((Paid.free rfl <| .one members).node rfl (by decide))
  case rest =>
    refine .bind costs_rangeMark fun _ _ mark => .look fun _ => .ite (.ite (.pure ?_) .failure) ?_
    · exact (Paid.free rfl <| .one mark).node rfl (by decide)
    · exact .bind (costs_rangeBound frugal) fun _ _ upper =>
        .pure ((Paid.free rfl <| .free rfl <| .cons mark <| .one upper).node rfl (by decide))

theorem spends_typedPattern {m : Nat} {pat : Tree} (read : nesting pat + 30 ≤ 32 * m) :
    Spends (typedPattern g pat) fun n t => nesting t + 30 ≤ 32 * (m + n) :=
  .bind (costs_eatOp (by decide)) fun _ _ colon => .bind (frugal.type true) fun _ _ ty =>
    .pure ((Paid.free rfl <| .cons read <| .cons colon <| .one ty).node rfl (by decide))

end Rules

end Retype.Code.Grammar
