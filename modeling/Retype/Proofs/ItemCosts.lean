import Retype.Proofs.ExprCosts

/-! Items, statements and blocks cost no more than their tokens pay for, and so does all that the grammar builds. -/

namespace Retype.Code.Grammar
open Code.Parser
open Rewrite (weights weight nesting descents)

section Rules
variable {g : Rules} (frugal : Frugal g)
include frugal

omit frugal in
theorem costs_visibility : Costs 0 visibility := by
  have scope : CostsAll 0 (do
      if ← peek (isWord "in") then
        let word ← eatAnyWord
        pure [word, ← plainPath]
      else pure [.node .path [.node .segment [← eatAnyWord, absent]]]) := by
    refine .look fun _ => .ite ?_ ?_
    · exact .bind costs_eatAnyWord fun _ _ word => .bind costs_plainPath fun _ _ p =>
        .pure ((Paid.cons word <| .one p).fit (by decide))
    · refine .bind costs_eatAnyWord fun n word paid => .pure ?_
      have segment : nesting (.node .segment [word, absent]) + 63 ≤ 32 * n :=
        (Paid.cons paid <| .free rfl .nil).node rfl (by decide)
      exact (Paid.one (c := 62) ((Paid.one segment).node rfl (by decide))).fit (by decide)
  refine costs_optional (c := 0) (.bind costs_eatAnyWord fun _ _ word => .look fun _ => .ite ?_ ?_)
  · exact .bind (costs_within _ scope) fun _ _ scope => .pure ((Paid.cons word <| .one scope).node rfl (by decide))
  · exact .pure ((Paid.one word).node rfl (by decide))

theorem costs_boundList : Costs 0 (boundList g) := by
  refine .look fun _ => .ite ?_ (.pure (Nat.le_refl _))
  exact .bind (costsAll_joined frugal.bound (by decide) (by decide) _) fun _ _ members => .pure (members.node rfl (by decide))

theorem costsAll_optBounds : CostsAll 0 (optBounds g) :=
  .look fun _ => .ite (costsAll_withOp (by decide) (costs_boundList frugal))
    (.pure ((Paid.free rfl <| .free rfl .nil).fit (by decide)))

omit frugal in
theorem spends_signed {text : String} (sign : text ≠ "") {p : Parser Tree} {credit : Nat} (one : Costs credit p) {α : Type}
    {rest : Trees → Parser α} {post : Nat → α → Prop}
    (goesOn : ∀ n ts, Paid 0 n ts → Spends (rest ts) fun m a => post (n + m) a) (test : Trees → Bool) :
    Spends (do
      if ← peek test then
        let o ← eatOp text
        let t ← p
        let ts ← pure [o, t]
        rest ts
      else
        let ts ← pure [absent, absent]
        rest ts) post := by
  refine .look fun _ => .ite (.bind (costs_eatOp sign) fun n₁ _ o => .bind one fun n₂ _ t => .given ?_) (.given ?_)
  · have both := (Paid.cons o <| .one t).less (Nat.zero_le _)
    exact (goesOn (n₁ + n₂) _ both).mono fun n a built => by rwa [Nat.add_assoc] at built
  · exact (goesOn 0 _ (Paid.free rfl <| .free rfl .nil)).mono fun n a built => by rwa [Nat.zero_add] at built

theorem costs_genericParam : Costs 30 (genericParam g) := by
  refine .bind (costs_outerAttributes frugal) fun n₁ _ attrs => .look fun _ => .ite ?lifetime <|
    .look fun _ => .ite ?const ?type
  case lifetime =>
    refine .bind (spends_lifetimeParam frugal) fun _ _ paid => ?_
    obtain ⟨own, parts, rfl, paid⟩ := paid
    exact .pure ((Paid.cons attrs paid.tail).node rfl (by decide))
  case const =>
    refine .bind costs_eatAnyWord fun n₂ _ word => .bind costs_eatIdent fun n₃ _ name => ?_
    refine .bind (costs_eatOp (by decide)) fun n₄ _ colon => .bind (frugal.type true) fun n₅ _ ty => .look fun _ => ?_
    extract_lets rest
    have goesOn (n : Nat) (value : Trees) (paid : Paid 0 n value) :
        Spends (rest value) fun m t => nesting t + 30 ≤ 32 * (n₁ + (n₂ + (n₃ + (n₄ + (n₅ + (n + m)))))) :=
      .pure ((Paid.cons attrs <| .cons word <| .cons name <| .cons colon <| .cons ty paid).node rfl (by decide))
    refine .ite (.bind (costs_eatOp (by decide)) fun n₆ eq sign => .look fun _ => .ite ?_ ?_) (.given ?_)
    · refine .bind (costs_path frugal true) fun n₇ p paid => .given ?_
      have value : nesting (.node (.expr .path) [emptyAttrs, p]) + 61 ≤ 32 * n₇ :=
        (Paid.free rfl <| .one paid).node rfl (by decide)
      exact (goesOn (n₆ + n₇) _ ((Paid.cons sign <| .one value).less (Nat.zero_le _))).mono fun _ _ _ => by omega
    · refine .bind (costs_constArgument frugal) fun n₇ _ value => .given ?_
      exact (goesOn (n₆ + n₇) _ ((Paid.cons sign <| .one value).less (Nat.zero_le _))).mono fun _ _ _ => by omega
    · exact (goesOn 0 _ (.free rfl <| .free rfl .nil)).mono fun _ _ _ => by omega
  case type =>
    refine .bind costs_eatIdent fun _ _ name => .bind (costsAll_optBounds frugal) fun _ _ bounds => ?_
    refine spends_signed (by decide) (frugal.type true) (fun _ _ value => .pure ?_) _
    rw [List.append_assoc]
    exact (Paid.cons attrs <| .cons name <| (Paid.list bounds).append value).node rfl (by decide)

theorem costs_generics : Costs 0 (generics g) := by
  refine costs_optional (c := 0) (.bind (costs_eatOp (by decide)) fun _ _ opening => ?_)
  refine .bind (costsAll_commaSeparatedWhile (costs_genericParam frugal) _) fun _ _ params => ?_
  refine .bind (costs_eatOp (by decide)) fun _ _ closing => .ite (.pure (Nat.zero_le _)) (.pure ?_)
  exact (Paid.cons opening <| (Paid.lifetimesFirst params).append <| .one closing).node rfl (by decide)

theorem costs_predicate : Costs 28 (predicate g) := by
  refine .look fun _ => .ite ?_ ?_
  · refine .bind costs_eatLifetime fun _ _ name => .bind (costs_eatOp (by decide)) fun _ _ colon => ?_
    exact .bind costs_lifetimeBounds fun _ _ bounds =>
      .pure ((Paid.cons name <| .cons colon <| .one bounds).node rfl (by decide))
  · refine .bind (costs_optLifetimes frugal) fun _ _ lifetimes => .bind (frugal.type true) fun _ _ ty => ?_
    refine .bind (costs_eatOp (by decide)) fun _ _ colon => .bind (costs_boundList frugal) fun _ _ bounds => ?_
    exact .pure ((Paid.cons lifetimes <| .cons ty <| .cons colon <| .one bounds).node rfl (by decide))

theorem costs_whereClause : Costs 0 (whereClause g) := by
  have preds : CostsAll 28 (manyWhile (fun s => !endsWhere s) do
      let p ← predicate g
      if ← peek (isOp ",") then pure [p, ← eatOp ","] else pure [p]) := by
    refine costsAll_manyWhile (.bind (costs_predicate frugal) fun _ _ p => .look fun _ => .ite ?_ ?_)
    · exact .bind (costs_eatOp (by decide)) fun _ _ comma => .pure ((Paid.cons p <| .one comma).fit (by decide))
    · exact .pure ((Paid.one p).fit (by decide))
  refine costs_optional (c := 0) (.bind costs_eatAnyWord fun _ _ word => .bind preds fun _ _ preds => ?_)
  exact .ite (.pure (Nat.zero_le _)) (.pure ((Paid.cons word <| .list preds).node rfl (by decide)))

theorem spends_receiver {m : Nat} {attrs : Tree} (read : nesting attrs + 0 ≤ 32 * m) :
    Spends (receiver g attrs) fun n t => nesting t + 30 ≤ 32 * (m + n) := by
  refine .bind (costs_optOp (by decide)) fun _ _ amp => ?_
  refine .pick (costs_optional costs_eatLifetime) (.pure (Nat.le_refl _)) fun _ _ lifetime => ?_
  refine .bind (costs_optWord _) fun _ _ mutable => .bind (costs_eatWord _) fun _ _ self => .look fun _ => .ite ?_ ?_
  · refine .bind (costs_eatOp (by decide)) fun _ _ colon => .bind (frugal.type true) fun _ _ ty => .pure ?_
    exact (Paid.cons read <| .cons amp <| .cons lifetime <| .cons mutable <| .cons self <| .cons colon <| .one ty).node rfl
      (by decide)
  · refine .look fun _ => .ite .failure (.pure ?_)
    exact (Paid.cons read <| .cons amp <| .cons lifetime <| .cons mutable <| .cons self <| .free rfl <| .free rfl .nil).node rfl
      (by decide)

theorem costs_parameter : Costs 30 (parameter g) := by
  refine .bind (costs_outerAttributes frugal) fun _ _ attrs => ?_
  refine .look fun _ => .ite ?_ (.orElse (spends_receiver frugal attrs) ?_)
  · exact .bind (costs_eatOp (by decide)) fun _ _ dots =>
      .pure ((Paid.cons attrs <| .free rfl <| .free rfl <| .one dots).node rfl (by decide))
  · refine .bind frugal.pattern fun _ _ pat => .bind (costs_eatOp (by decide)) fun _ _ colon => .look fun _ => .ite ?_ ?_
    · exact .bind (costs_eatOp (by decide)) fun _ _ dots =>
        .pure ((Paid.cons attrs <| .cons pat <| .cons colon <| .one dots).node rfl (by decide))
    · exact .bind (frugal.type true) fun _ _ ty =>
        .pure ((Paid.cons attrs <| .cons pat <| .cons colon <| .one ty).node rfl (by decide))

theorem costsAll_parameters : CostsAll 30 (parameters g) :=
  .bind (costsAll_commaSeparated (costs_parameter frugal)) fun _ _ paid => .ite .failure (.pure paid)

theorem costs_signature : Costs 60 (signature g) := by
  refine .bind (costs_optWord _) fun _ _ constant => .bind (costs_optWord _) fun _ _ async => ?_
  refine .bind (costs_optWord _) fun _ _ guarded => .bind costs_optAbi fun _ _ foreign => ?_
  refine .bind (costs_eatWord _) fun _ _ word => .bind costs_eatIdent fun _ _ name => ?_
  refine .bind (costs_generics frugal) fun _ _ params => ?_
  refine .bind (costs_within _ (costsAll_parameters frugal)) fun _ _ inputs => ?_
  refine .bind (costs_output frugal true) fun _ _ result => .bind (costs_whereClause frugal) fun _ _ preds => .pure ?_
  exact (Paid.cons constant <| .cons async <| .cons guarded <| .cons foreign <| .cons word <| .cons name <| .cons params <|
    .cons inputs <| .cons result <| .one preds).node rfl (by decide)

omit frugal in
theorem costs_verbatim (k : ItemKind) {p : Parser Tree} (some : Spends p fun n _ => 30 ≤ 32 * n) : Costs 30 (verbatim k p) := by
  intro s t s' run
  obtain ⟨⟨u, rest⟩, ran, same⟩ := Option.map_eq_some_iff.mp run
  cases same
  obtain ⟨front, rfl, nonempty⟩ := some s u s' ran
  refine ⟨front, rfl, ?_⟩
  have taken : (front ++ s').take ((front ++ s').length - s'.length) = front := by
    rw [List.length_append, Nat.add_sub_cancel, List.take_left]
  dsimp only
  rw [taken]
  refine nesting_node rfl ⟨nonempty, fun t mem => ?_⟩
  obtain ⟨before, after, rfl⟩ := List.append_of_mem mem
  have own : nesting t + 32 ≤ 32 * weight t := Rewrite.descent_le_weight t
  rw [Rewrite.weights_append, Rewrite.weights]
  omega

theorem costs_declaredFn : Costs 30 (declaredFn g) := by
  refine costs_verbatim _ (.bind (costs_outerAttributes frugal) fun _ _ _ => .bind costs_visibility fun _ _ _ => ?_)
  refine .bind (costs_signature frugal) fun _ _ _ => (costs_eatOp (by decide)).mono fun _ _ _ => by omega

omit frugal in
theorem costs_name {α : Type} {rest : Tree → Parser α} {post : Nat → α → Prop}
    (goesOn : ∀ n name, nesting name + 64 ≤ 32 * n → Spends (rest name) fun m a => post (n + m) a) (name : String) :
    Spends (do
      if ← peek (isWord name) then
        let t ← eatAnyWord
        rest t
      else
        let t ← eatIdent
        rest t) post := .look fun _ => .pick costs_eatAnyWord costs_eatIdent goesOn

theorem costs_namedField : Costs 30 (namedField g) := by
  refine .bind (costs_outerAttributes frugal) fun _ _ attrs => .bind costs_visibility fun _ _ vis => ?_
  refine costs_name (fun _ _ name => ?_) _
  refine .bind (costs_eatOp (by decide)) fun _ _ colon => .bind (frugal.type true) fun _ _ ty => .pure ?_
  exact (Paid.cons attrs <| .cons vis <| .cons name <| .cons colon <| .one ty).node rfl (by decide)

theorem costs_tupleField : Costs 29 (tupleField g) :=
  .bind (costs_outerAttributes frugal) fun _ _ attrs => .bind costs_visibility fun _ _ vis =>
    .bind (frugal.type true) fun _ _ ty =>
      .pure ((Paid.cons attrs <| .cons vis <| .free rfl <| .free rfl <| .one ty).node rfl (by decide))

theorem costs_namedFields : Costs 63 (namedFields g) := costs_within _ (costsAll_commaSeparated (costs_namedField frugal))

theorem costs_tupleFields : Costs 63 (tupleFields g) := costs_within _ (costsAll_commaSeparated (costs_tupleField frugal))

theorem costs_variant : Costs 30 (variant g) := by
  refine .bind (costs_outerAttributes frugal) fun n₁ _ attrs => .bind costs_visibility fun n₂ _ _ => ?_
  refine .bind costs_eatIdent fun n₃ _ name => .look fun _ => ?_
  extract_lets rest
  have value : Costs 0 (Parser.optional (isOp "=") do
      let eq ← eatOp "="
      pure (.node .discriminant [eq, ← g.expr true])) := costs_optional (c := 0) <|
    .bind (costs_eatOp (by decide)) fun _ _ eq => .bind (frugal.expr true) fun _ _ value =>
      .pure ((Paid.cons eq <| .one value).node rfl (by decide))
  have goesOn (n : Nat) (fields : Tree) (paid : nesting fields + 0 ≤ 32 * n) :
      Spends (rest fields) fun m t => nesting t + 30 ≤ 32 * (n₁ + (n₂ + (n₃ + (n + m)))) :=
    .bind value fun _ _ value => .pure ((Paid.cons attrs <| .skip <| .cons name <| .cons paid <| .one value).node rfl (by decide))
  refine .look fun _ => .ite (.bind ((costs_namedFields frugal).less (Nat.zero_le _)) goesOn) (.ite ?_ (.given ?_))
  · exact .bind ((costs_tupleFields frugal).less (Nat.zero_le _)) goesOn
  · exact (goesOn 0 absent (Nat.le_refl _)).mono fun _ _ _ => by omega

omit frugal in
theorem costs_useTree (fuel : Nat) : Costs 31 (useTree fuel) := by
  induction fuel with
  | zero => exact .failure
  | succ fuel ih =>
    refine .look fun _ => .ite (.bind costs_eatAnyWord fun _ _ name => .look fun _ => .ite ?path <|
      .look fun _ => .ite ?rename ?name) <| .look fun _ => .ite ?glob ?group
    case path =>
      refine .bind (costs_eatOp (by decide)) fun _ _ colons => .bind ih fun _ _ more => .pure ?_
      exact (Paid.cons name <| .cons colons <| .one more).node rfl (by decide)
    case rename =>
      refine .bind costs_eatAnyWord fun _ _ word => costs_name (fun _ _ given => .pure ?_) _
      exact (Paid.cons name <| .cons word <| .one given).node rfl (by decide)
    case name => exact .pure ((Paid.one name).node rfl (by decide))
    case glob => exact .bind (costs_eatOp (by decide)) fun _ _ star => .pure ((Paid.one star).node rfl (by decide))
    case group =>
      exact .bind (costs_within _ (costsAll_commaSeparated ih)) fun _ _ body => .pure ((Paid.one body).node rfl (by decide))

theorem costs_memberBody {member : Parser Tree} (one : Costs 30 member) : Costs 63 (memberBody g member) :=
  costs_within _ (costsAll_afterInner frugal (by decide) (costsAll_many (costsAll_single one)))

omit frugal in
theorem nesting_macroItem_le (p bang name : Tree) (d : Delim) (body : Trees) :
    nesting (.node .macroBody (if name.isPresent then [p, bang, name, .group d body] else [p, bang, .group d body])) ≤
      32 * weights body := by
  split
  · cases name <;> exact Nat.zero_le _
  · exact Nat.le_refl _

section Front
variable {m : Nat} {attrs vis given : Tree} (ofAttrs : nesting attrs + 0 ≤ 32 * m) (front : Paid 0 m [attrs, vis])
  (whole : Paid 0 m [attrs, vis, given])

omit frugal in
include ofAttrs in
theorem spends_macroItem : Spends (macroItem attrs) fun n t => nesting t + 30 ≤ 32 * (m + n) := by
  refine .bind costs_plainPath fun n₁ p _ => .bind (costs_eatOp (by decide)) fun n₂ bang _ => ?_
  refine .bind (costs_optional costs_eatAnyWord) fun n₃ name _ => .bind (spends_take _) fun n₄ body taken => ?_
  obtain ⟨isGroup, rfl⟩ := taken
  rcases body with _ | ⟨d, body⟩ | _
  · cases isGroup
  · extract_lets parts rest
    have levels : nesting (.node .macroBody parts) ≤ 32 * weights body := nesting_macroItem_le p bang name d body
    have call : nesting (.node .macroBody parts) + 64 ≤ 32 * weight (.group d body) := by
      rw [weight]
      omega
    have goesOn (n : Nat) (semi : Tree) (paid : nesting semi + 0 ≤ 32 * n) : Spends (rest semi) fun k t =>
        nesting t + 30 ≤ 32 * (m + (n₁ + (n₂ + (n₃ + (weight (.group d body) + (n + k)))))) :=
      .pure ((Paid.cons ofAttrs <| .skip <| .skip <| .skip <| .cons call <| .one paid).node rfl (by decide))
    split
    · exact .given ((goesOn 0 absent (Nat.le_refl _)).mono fun _ _ _ => by omega)
    · exact .bind ((costs_eatOp (by decide)).less (Nat.zero_le _)) goesOn
  · cases isGroup

section Visible
include front

omit frugal in
theorem spends_externCrate : Spends (externCrate attrs vis) fun n t => nesting t + 30 ≤ 32 * (m + n) := by
  have given : Costs 0 (Parser.optional (isWord "as") do
      let word ← eatAnyWord
      pure (.node .rename [word, ← if ← peek (isWord "_") then eatAnyWord else eatIdent])) := by
    refine costs_optional (c := 0) (.bind costs_eatAnyWord fun _ _ word => costs_name (fun _ _ name => .pure ?_) _)
    exact (Paid.cons word <| .one name).node rfl (by decide)
  refine .bind (costs_eatWord _) fun _ _ word => .bind (costs_eatWord _) fun _ _ crate => costs_name (fun _ _ name => ?_) _
  refine .bind given fun _ _ given => .bind (costs_eatOp (by decide)) fun _ _ semi => .pure ?_
  exact (front.append <| .cons word <| .cons crate <| .cons name <| .cons given <| .one semi).node rfl (by decide)

theorem spends_fnItem : Spends (fnItem g attrs vis) fun n t => nesting t + 30 ≤ 32 * (m + n) :=
  .bind (costs_signature frugal) fun _ _ sig => .bind frugal.block fun _ _ body =>
    .pure ((front.append <| .cons sig <| .one body).node rfl (by decide))

theorem spends_structItem : Spends (structItem g attrs vis) fun n t => nesting t + 30 ≤ 32 * (m + n) := by
  refine .bind (costs_eatWord _) fun _ _ word => .bind costs_eatIdent fun _ _ name => ?_
  refine .bind (costs_generics frugal) fun _ _ params => .bind (costs_whereClause frugal) fun _ _ before => ?_
  refine .look fun _ => .ite ?_ (.look fun _ => .ite ?_ ?_)
  · refine .bind (costs_namedFields frugal) fun _ _ fields => .pure ?_
    exact (front.append <| .cons word <| .cons name <| .cons params <| .cons before <| .cons fields <| .free rfl <|
      .free rfl .nil).node rfl (by decide)
  · refine .bind (costs_tupleFields frugal) fun _ _ fields => .bind (costs_whereClause frugal) fun _ _ after => ?_
    refine .bind (costs_eatOp (by decide)) fun _ _ semi => .pure ?_
    exact (front.append <| .cons word <| .cons name <| .cons params <| .cons before <| .cons fields <| .cons after <|
      .one semi).node rfl (by decide)
  · refine .bind (costs_eatOp (by decide)) fun _ _ semi => .pure ?_
    exact (front.append <| .cons word <| .cons name <| .cons params <| .cons before <| .free rfl <| .free rfl <|
      .one semi).node rfl (by decide)

theorem spends_enumItem : Spends (enumItem g attrs vis) fun n t => nesting t + 30 ≤ 32 * (m + n) := by
  refine .bind (costs_eatWord _) fun _ _ word => .bind costs_eatIdent fun _ _ name => ?_
  refine .bind (costs_generics frugal) fun _ _ params => .bind (costs_whereClause frugal) fun _ _ preds => ?_
  refine .bind (costs_within _ (costsAll_commaSeparated (costs_variant frugal))) fun _ _ body => .pure ?_
  exact (front.append <| .cons word <| .cons name <| .cons params <| .cons preds <| .one body).node rfl (by decide)

theorem spends_unionItem : Spends (unionItem g attrs vis) fun n t => nesting t + 30 ≤ 32 * (m + n) := by
  refine .bind (costs_eatWord _) fun _ _ word => .bind costs_eatIdent fun _ _ name => ?_
  refine .bind (costs_generics frugal) fun _ _ params => .bind (costs_whereClause frugal) fun _ _ preds => ?_
  refine .bind (costs_namedFields frugal) fun _ _ fields => .pure ?_
  exact (front.append <| .cons word <| .cons name <| .cons params <| .cons preds <| .one fields).node rfl (by decide)

theorem spends_constItem : Spends (constItem g attrs vis) fun n t => nesting t + 30 ≤ 32 * (m + n) := by
  refine .bind (costs_eatWord _) fun _ _ word => costs_name (fun _ _ name => ?_) _
  refine .bind (costs_generics frugal) fun _ _ params => .bind (costs_eatOp (by decide)) fun _ _ colon => ?_
  refine .bind (frugal.type true) fun _ _ ty => .bind (costs_eatOp (by decide)) fun _ _ eq => ?_
  refine .bind (frugal.expr true) fun _ _ value => .bind (costs_eatOp (by decide)) fun _ _ semi => .pure ?_
  exact (front.append <| .cons word <| .cons name <| .cons params <| .cons colon <| .cons ty <| .cons eq <| .cons value <|
    .one semi).node rfl (by decide)

theorem spends_staticItem : Spends (staticItem g attrs vis) fun n t => nesting t + 30 ≤ 32 * (m + n) := by
  refine .bind (costs_eatWord _) fun _ _ word => .bind (costs_optWord _) fun _ _ mutable => ?_
  refine .bind costs_eatIdent fun _ _ name => .bind (costs_eatOp (by decide)) fun _ _ colon => ?_
  refine .bind (frugal.type true) fun _ _ ty => .bind (costs_eatOp (by decide)) fun _ _ eq => ?_
  refine .bind (frugal.expr true) fun _ _ value => .bind (costs_eatOp (by decide)) fun _ _ semi => .pure ?_
  exact (front.append <| .cons word <| .cons mutable <| .cons name <| .cons colon <| .cons ty <| .cons eq <| .cons value <|
    .one semi).node rfl (by decide)

omit frugal in
theorem spends_useItem : Spends (useItem attrs vis) fun n t => nesting t + 30 ≤ 32 * (m + n) := by
  refine .bind (costs_eatWord _) fun _ _ word => .bind (costs_optOp (by decide)) fun _ _ root => ?_
  refine .bind (show Costs 31 _ from fun s => costs_useTree (Trees.size s + 1) s) fun _ _ tree => ?_
  refine .bind (costs_eatOp (by decide)) fun _ _ semi => .pure ?_
  exact (front.append <| .cons word <| .cons root <| .cons tree <| .one semi).node rfl (by decide)

theorem spends_modItem : Spends (modItem g attrs vis) fun n t => nesting t + 30 ≤ 32 * (m + n) := by
  refine .bind (costs_optWord _) fun _ _ guarded => .bind (costs_eatWord _) fun _ _ word => ?_
  refine .bind costs_eatIdent fun _ _ name => .look fun _ => .ite ?_ ?_
  · refine .bind (costs_eatOp (by decide)) fun _ _ semi => .pure ?_
    exact (front.append <| .cons guarded <| .cons word <| .cons name <| .one semi).node rfl (by decide)
  · refine .bind (costs_memberBody frugal frugal.item) fun _ _ body => .pure ?_
    exact (front.append <| .cons guarded <| .cons word <| .cons name <| .one body).node rfl (by decide)

end Visible

section Given
include whole

theorem spends_typeItem : Spends (typeItem g attrs vis given) fun n t => nesting t + 30 ≤ 32 * (m + n) := by
  refine .bind (costs_eatWord _) fun _ _ word => .bind costs_eatIdent fun _ _ name => ?_
  refine .bind (costs_generics frugal) fun _ _ params => .bind (costsAll_optBounds frugal) fun _ _ bounds => ?_
  refine .bind (costs_whereClause frugal) fun _ _ before => ?_
  refine spends_signed (by decide) (frugal.type true) (fun _ _ value => ?_) _
  refine .bind (costs_whereClause frugal) fun _ _ after => .bind (costs_eatOp (by decide)) fun _ _ semi => .pure ?_
  simp only [List.append_assoc]
  exact (whole.append <| .cons word <| .cons name <| .cons params <| (Paid.list bounds).append <| .cons before <|
    value.append <| .cons after <| .one semi).node rfl (by decide)

theorem spends_methodBody : Spends (methodBody g attrs vis given) fun n t => nesting t + 30 ≤ 32 * (m + n) := by
  refine .bind (costs_signature frugal) fun _ _ sig => .look fun _ => ?_
  refine .pick ((costs_eatOp (by decide)).less (by decide)) frugal.block fun _ _ body => .pure ?_
  exact (whole.append <| .cons sig <| .one body).node rfl (by decide)

theorem spends_assocConst : Spends (assocConst g attrs vis given) fun n t => nesting t + 30 ≤ 32 * (m + n) := by
  refine .bind (costs_eatWord _) fun _ _ word => costs_name (fun _ _ name => ?_) _
  refine .bind (costs_generics frugal) fun _ _ params => .bind (costs_eatOp (by decide)) fun _ _ colon => ?_
  refine .bind (frugal.type true) fun _ _ ty => spends_signed (by decide) (frugal.expr true) (fun _ _ value => ?_) _
  refine .bind (costs_eatOp (by decide)) fun _ _ semi => .pure ?_
  simp only [List.append_assoc]
  exact (whole.append <| .cons word <| .cons name <| .cons params <| .cons colon <| .cons ty <| value.append <|
    .one semi).node rfl (by decide)

end Given

end Front

theorem costs_assocItem : Costs 30 (assocItem g) := by
  refine .bind (costs_outerAttributes frugal) fun n₁ _ attrs => .bind costs_visibility fun n₂ _ vis => ?_
  refine .bind (costs_optional costs_eatAnyWord) fun n₃ _ given => ?_
  have whole := Paid.cons attrs <| .cons vis <| .one given
  have front {p : Parser Tree} (h : Spends p fun n t => nesting t + 30 ≤ 32 * (n₁ + (n₂ + n₃) + n)) :
      Spends p fun n t => nesting t + 30 ≤ 32 * (n₁ + (n₂ + (n₃ + n))) := h.mono fun _ _ _ => by omega
  exact .look fun _ => .ite (front (spends_methodBody frugal whole)) <|
    .look fun _ => .ite (front (spends_assocConst frugal whole)) <|
    .look fun _ => .ite (front (spends_typeItem frugal whole)) <| .ite (front (spends_macroItem whole.head)) .failure

theorem costs_foreignMember : Costs 30 (foreignMember g) := by
  refine .bind (costs_outerAttributes frugal) fun n₁ _ attrs => .bind costs_visibility fun n₂ _ vis => ?_
  refine .bind (costs_optional costs_eatAnyWord) fun n₃ _ given => ?_
  have whole := Paid.cons attrs <| .cons vis <| .one given
  have front {p : Parser Tree} (h : Spends p fun n t => nesting t + 30 ≤ 32 * (n₁ + (n₂ + n₃) + n)) :
      Spends p fun n t => nesting t + 30 ≤ 32 * (n₁ + (n₂ + (n₃ + n))) := h.mono fun _ _ _ => by omega
  refine .look fun _ => .ite (front (spends_methodBody frugal whole)) <| .look fun _ => .ite (front ?static) <|
    .look fun _ => .ite (front (spends_typeItem frugal whole)) (front (spends_macroItem whole.head))
  case static =>
    refine .bind costs_eatAnyWord fun _ _ word => .bind (costs_optWord _) fun _ _ mutable => ?_
    refine .bind costs_eatIdent fun _ _ name => .bind (costs_eatOp (by decide)) fun _ _ colon => ?_
    refine .bind (frugal.type true) fun _ _ ty => .bind (costs_eatOp (by decide)) fun _ _ semi => .pure ?_
    exact (whole.append <| .cons word <| .cons mutable <| .cons name <| .cons colon <| .cons ty <| .one semi).node rfl
      (by decide)

omit frugal in
theorem nesting_traitPath? {t p : Tree} (h : traitPath? t = some p) : nesting p ≤ nesting t := by
  unfold traitPath? at h
  split at h
  · cases h
    exact Nat.le_of_lt (nesting_lt_node nofun List.mem_cons_self)
  · cases h

section Front
variable {m : Nat} {attrs vis : Tree} (ofAttrs : nesting attrs + 0 ≤ 32 * m) (front : Paid 0 m [attrs, vis])

section Attributes
include ofAttrs

theorem spends_implItem : Spends (implItem g attrs) fun n t => nesting t + 30 ≤ 32 * (m + n) := by
  refine .bind (costs_optWord _) fun n₁ _ given => .bind (costs_optWord _) fun n₂ _ guarded => ?_
  refine .bind (costs_eatWord _) fun n₃ _ word => .look fun _ => ?_
  refine .pick (costs_generics frugal) (.pure (Nat.le_refl _)) fun n₄ _ params => ?_
  refine .bind (costs_optOp (by decide)) fun n₅ _ negative => .bind (frugal.type true) fun n₆ first read => .look fun _ => ?_
  extract_lets rest
  have goesOn {n : Nat} {target self : Tree} {credit : Nat} (paid : Paid credit n [target, self]) :
      Spends (rest (target, self)) fun k t =>
        nesting t + 30 ≤ 32 * (m + (n₁ + (n₂ + (n₃ + (n₄ + (n + k)))))) := by
    refine .bind (costs_whereClause frugal) fun _ _ preds => ?_
    refine .bind (costs_memberBody frugal (costs_assocItem frugal)) fun _ _ body => .pure ?_
    exact (Paid.cons ofAttrs <| .cons given <| .cons guarded <| .cons word <| .cons params <|
      (paid.less (Nat.zero_le _)).append <| .cons preds <| .one body).node rfl (by decide)
  refine .ite (.bind costs_eatAnyWord fun n₇ word sign => ?_) (.ite .failed (.given ?_))
  · split
    · rename_i p path
      refine .bind (frugal.type true) fun n₈ self typed => .given ?_
      have inner : nesting p + 30 ≤ 32 * n₆ := Nat.le_trans (Nat.add_le_add_right (nesting_traitPath? path) _) read
      have target : nesting (.node .implTarget [_, p, word]) + 93 ≤ 32 * (n₅ + (n₆ + n₇)) :=
        (Paid.cons negative <| .cons inner <| .one sign).node rfl (by decide)
      exact (goesOn (Paid.cons target <| .one typed)).mono fun _ _ _ => by omega
    · exact .failed
  · exact (goesOn (Paid.skip (m := n₅) <| .free (nesting_absent) <| .one read)).mono fun _ _ _ => by omega

theorem spends_foreignMod : Spends (foreignMod g attrs) fun n t => nesting t + 30 ≤ 32 * (m + n) :=
  .bind (costs_optWord _) fun _ _ guarded => .bind costs_abi fun _ _ foreign =>
    .bind (costs_memberBody frugal (costs_foreignMember frugal)) fun _ _ body =>
      .pure ((Paid.cons ofAttrs <| .cons guarded <| .cons foreign <| .one body).node rfl (by decide))

end Attributes

include front

theorem spends_traitItem : Spends (traitItem g attrs vis) fun n t => nesting t + 30 ≤ 32 * (m + n) := by
  refine .bind (costs_optWord _) fun _ _ guarded => .bind (costs_optWord _) fun _ _ auto => ?_
  refine .bind (costs_eatWord _) fun _ _ word => .bind costs_eatIdent fun _ _ name => ?_
  refine .bind (costs_generics frugal) fun _ _ params => .look fun _ => .ite ?_ ?_
  · refine .bind (costs_eatOp (by decide)) fun _ _ eq => .bind (costs_boundList frugal) fun _ _ bounds => ?_
    refine .bind (costs_whereClause frugal) fun _ _ preds => .bind (costs_eatOp (by decide)) fun _ _ semi => .pure ?_
    exact (front.append <| .skip <| .skip <| .cons word <| .cons name <| .cons params <| .cons eq <| .cons bounds <|
      .cons preds <| .one semi).node rfl (by decide)
  · refine .bind (costsAll_optBounds frugal) fun _ _ supers => .bind (costs_whereClause frugal) fun _ _ preds => ?_
    refine .bind (costs_memberBody frugal (costs_assocItem frugal)) fun _ _ body => .pure ?_
    simp only [List.append_assoc]
    exact (front.append <| .cons guarded <| .cons auto <| .cons word <| .cons name <| .cons params <|
      (Paid.list supers).append <| .cons preds <| .one body).node rfl (by decide)

theorem spends_itemRest : Spends (itemRest g attrs vis) fun n t => nesting t + 30 ≤ 32 * (m + n) :=
  .look fun _ => .ite (spends_fnItem frugal front) <| .look fun _ => .ite (spends_foreignMod frugal front.head) <|
    .look fun _ => .ite (spends_externCrate front) <| .look fun _ => .ite (spends_useItem front) <|
    .look fun _ => .ite (spends_staticItem frugal front) <| .look fun _ => .ite (spends_constItem frugal front) <|
    .look fun _ => .ite (spends_modItem frugal front) <|
    .look fun _ => .ite (spends_typeItem frugal (front.append <| .free rfl .nil)) <|
    .look fun _ => .ite (spends_structItem frugal front) <| .look fun _ => .ite (spends_enumItem frugal front) <|
    .look fun _ => .ite (spends_unionItem frugal front) <| .look fun _ => .ite (spends_traitItem frugal front) <|
    .look fun _ => .ite (.ite .failure (spends_implItem frugal front.head)) <| .ite (spends_macroItem front.head) .failure

end Front

theorem costs_item : Costs 30 (item g) := by
  refine .orElse (.bind (costs_outerAttributes frugal) fun n₁ _ attrs => .bind costs_visibility fun n₂ _ vis => ?_)
    (costs_declaredFn frugal)
  exact (spends_itemRest frugal (Paid.cons attrs <| .one vis)).mono fun _ _ _ => by omega

theorem spends_bindStmt {m : Nat} {attrs : Tree} (read : nesting attrs + 0 ≤ 32 * m) :
    Spends (bindStmt g attrs) fun n t => nesting t + 20 ≤ 32 * (m + n) := by
  have init : Costs 0 (Parser.optional (isOp "=") do
      let eq ← eatOp "="
      let value ← g.expr true
      let other ← Parser.optional (isWord "else") do
        let word ← eatAnyWord
        pure (.node .letElse [word, ← branchExpr g])
      pure (.node .init [eq, value, other])) := by
    have other : Costs 0 (Parser.optional (isWord "else") do
        let word ← eatAnyWord
        pure (.node .letElse [word, ← branchExpr g])) := costs_optional (c := 0) <|
      .bind costs_eatAnyWord fun _ _ word => .bind (costs_branchExpr frugal) fun _ _ body =>
        .pure ((Paid.cons word <| .one body).node rfl (by decide))
    refine costs_optional (c := 0) (.bind (costs_eatOp (by decide)) fun _ _ eq => .bind (frugal.expr true) fun _ _ value => ?_)
    exact .bind other fun _ _ otherwise => .pure ((Paid.cons eq <| .cons value <| .one otherwise).node rfl (by decide))
  refine .bind (costs_eatWord _) fun n₁ _ word => .bind frugal.pattern fun n₂ _ pat => .look fun _ => ?_
  extract_lets rest
  have goesOn {n : Nat} {pat : Tree} (paid : nesting pat + 30 ≤ 32 * n) :
      Spends (rest pat) fun k t => nesting t + 20 ≤ 32 * (m + (n₁ + (n + k))) := by
    refine .bind init fun _ _ init => .bind (costs_eatOp (by decide)) fun _ _ semi => .pure ?_
    exact (Paid.cons read <| .cons word <| .cons paid <| .cons init <| .one semi).room nofun (by decide)
  refine .ite (.bind (spends_typedPattern frugal pat) fun _ _ typed => ?_) (.given (goesOn pat))
  exact (goesOn typed).mono fun _ _ _ => by omega

omit frugal in
theorem nesting_addLeftmost_le {attrs : Tree} {n : Nat} (put : ∀ t, nesting (withAttrs attrs t) ≤ nesting t + n) (t : Tree) :
    nesting (exprStmt.addLeftmost attrs t) ≤ nesting t + n := by
  have leftmost (k : Kind) (plain : isPlain k = true) {own l l' : Tree} {ts : Trees} (le : nesting l' ≤ nesting l + n) :
      nesting (.node k (own :: l' :: ts)) ≤ nesting (.node k (own :: l :: ts)) + n := by
    obtain ⟨none, opened⟩ := reserve_of_isPlain plain
    rw [nesting_eq opened, nesting_eq opened, none]
    show 0 + max _ (max (nesting l' + 1) _) ≤ 0 + max _ (max (nesting l + 1) _) + n
    omega
  fun_induction exprStmt.addLeftmost attrs t with
  | case1 _ _ _ ih | case2 _ _ _ ih | case3 _ _ _ ih => exact leftmost _ rfl ih
  | case4 t => exact put t

omit frugal in
theorem nesting_macroStmt? {e semi s : Tree} {n m : Nat} (h : macroStmt? e semi = some s) (read : nesting e + 30 ≤ 32 * n)
    (ofSemi : nesting semi + 0 ≤ 32 * m) : nesting s + 20 ≤ 32 * (n + m) := by
  unfold macroStmt? at h
  split at h
  · obtain ⟨-, same⟩ := Option.ite_none_right_eq_some.mp h
    cases same
    rename_i attrs name bang d body
    have first := nesting_lt_node (k := .expr .macroCall) nofun
      (List.mem_cons_self (a := attrs) (l := [.node .macroBody [name, bang, .group d body]]))
    have second := nesting_lt_node (k := .expr .macroCall) nofun
      (List.mem_cons_of_mem attrs (List.mem_singleton_self (.node .macroBody [name, bang, .group d body])))
    have parts : Paid 31 n [attrs, .node .macroBody [name, bang, .group d body]] :=
      ⟨by omega, fit_cons.mpr ⟨by omega, fit_cons.mpr ⟨by omega, fit_nil _ _⟩⟩⟩
    exact (parts.append <| .one ofSemi).room nofun (by decide)
  · cases h

theorem spends_exprStmt {m : Nat} {attrs : Tree} (put : ∀ t, nesting (withAttrs attrs t) ≤ nesting t + 32 * m) :
    Spends (exprStmt g attrs) fun n t => nesting t + 20 ≤ 32 * (m + n) := by
  refine .bind frugal.statement fun n₁ e read => .bind (costs_optOp (by decide)) fun n₂ semi sign => ?_
  have moved : nesting (exprStmt.addLeftmost attrs e) + 30 ≤ 32 * (m + n₁) := by
    have := nesting_addLeftmost_le put e
    omega
  split
  · refine .pure ?_
    rw [← Nat.add_assoc]
    exact nesting_macroStmt? ‹_› moved sign
  · refine .pure ?_
    rw [← Nat.add_assoc]
    exact (Paid.cons moved <| .one sign).room nofun (by decide)

omit frugal in
theorem look_ite {α : Type} {test : Trees → Bool} {p q : Parser α} {s : Trees} {r : α × Trees}
    (h : (do if ← peek test then p else q) s = some r) : p s = some r ∨ q s = some r := by
  have h : (if test s then p else q) s = some r := h
  split at h
  · exact .inl h
  · exact .inr h

theorem costs_statement : Costs 20 (statement g) := by
  refine .look fun _ => .ite ?_ ?_
  · exact .bind (costs_eatOp (by decide)) fun _ _ semi => .pure ((Paid.free rfl <| .one semi).room nofun (by decide))
  · -- An item is read from the start again, its attributes with it.
    intro s t s' run
    obtain ⟨⟨attrs, s₁⟩, ran, run⟩ := Option.bind_eq_some_iff.mp run
    obtain ⟨front, rfl, read, put⟩ := spends_outerAttributes frugal s attrs s₁ ran
    have goesOn {p : Parser Tree} (h : Spends p fun n t => nesting t + 20 ≤ 32 * (weights front + n))
        (run : p s₁ = some (t, s')) : ∃ all, front ++ s₁ = all ++ s' ∧ nesting t + 20 ≤ 32 * weights all := by
      obtain ⟨more, rfl, paid⟩ := h s₁ t s' run
      exact ⟨front ++ more, (List.append_assoc _ _ _).symm, by rwa [Rewrite.weights_append]⟩
    rcases look_ite run with run | run
    · refine goesOn ?_ run
      refine .bind costs_plainPath fun _ _ _ => .bind (costs_macroRest _) fun _ _ call => ?_
      refine .bind (costs_optOp (by decide)) fun _ _ semi => .pure ?_
      exact (Paid.cons read <| .skip <| .cons call <| .one semi).room nofun (by decide)
    · rcases look_ite run with run | run
      · exact goesOn (spends_bindStmt frugal read) run
      · rcases look_ite run with run | run
        · exact (frugal.item.less (by decide)) (front ++ s₁) t s' run
        · exact goesOn (spends_exprStmt frugal put) run

theorem costsAll_statements : CostsAll 20 (statements g) := by
  refine costsAll_afterInner frugal (by decide) (costsAll_many (.bind (costs_statement frugal) fun _ _ s => ?_))
  exact .look fun _ => .ite .failure (.pure ((Paid.one s).fit (by decide)))

theorem costs_block : Costs 36 (block g) := .bind (costs_within _ (costsAll_statements frugal)) fun _ _ body =>
  .pure ((Paid.one body).room nofun (by decide))

end Rules

theorem frugal_rules (levels : Nat) : Frugal (rules levels) := by
  induction levels with
  | zero => exact ⟨fun _ => .failure, fun _ => .failure, .failure, fun _ => .failure, .failure, .failure, .failure, .failure⟩
  | succ levels ih => exact {
      expr := costs_expr ih
      operand := costs_operand ih
      statement := costs_statementExpr ih
      type := costs_type ih
      bound := costs_bound ih
      pattern := costs_pattern ih
      block := costs_block ih
      item := costs_item ih }

end Retype.Code.Grammar
