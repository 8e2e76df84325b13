import Retype.Proofs.Normalize

/-! The second stage makes methods of helpers where their calls are bound.  What a walk leaves of a call is told from
the call it comes from, so no call of a helper by its bare name is bound when the walk is done. -/

namespace Retype.Rewrite
open Retype.Code

def calledName? (e : Tree) : Option String := e.stripParens.call?.bind fun call => call.callee.exprIdent?

/-- The value of a `let` without `else`, or the right side of an assignment. -/
def siteValue? : Tree → Option Tree
  | .node (.stmt .bind) [_, _, _, .node .init [_, value, other], _] => if other.isPresent then none else some value
  | .node (.expr .assign) [_, _, _, right] => some right
  | _ => none

/-- A `let` without `else` or an assignment of `h(…)` or `h(…)?` for one of the names. -/
def bindsCall (names : String → Bool) (t : Tree) : Bool :=
  (siteValue? t).any fun value => (calledName? (untried value)).any names

theorem regroup_call {walked : Trees} {a callee g : Tree} (h : regroup (.expr .call) walked = [a, callee, g])
    (noField : ∀ parts, callee.stripParens ≠ .node (.expr .field) parts) : walked = [a, callee, g] := by
  unfold regroup at h
  split at h
  case h_5 =>
    cases h
    exact (noField _ rfl).elim
  case h_6 => exact h
  all_goals contradiction

theorem noField_of_exprIdent? {e : Tree} {name : String} (h : e.exprIdent? = some name) :
    ∀ parts, e.stripParens ≠ .node (.expr .field) parts := by
  intro parts field
  rw [Tree.exprIdent?, field] at h
  cases h

theorem forall₂_two {R : Tree → Tree → Prop} {ts : Trees} {a b : Tree} (h : List.Forall₂ R ts [a, b]) :
    ∃ a' b', ts = [a', b'] ∧ R a' a ∧ R b' b := by
  cases h with
  | cons ha h =>
    cases h with
    | cons hb h =>
      cases h
      exact ⟨_, _, rfl, ha, hb⟩

theorem forall₂_three {R : Tree → Tree → Prop} {ts : Trees} {a b c : Tree} (h : List.Forall₂ R ts [a, b, c]) :
    ∃ a' b' c', ts = [a', b', c'] ∧ R a' a ∧ R b' b ∧ R c' c := by
  cases h with
  | cons ha h =>
    cases h with
    | cons hb h =>
      cases h with
      | cons hc h =>
        cases h
        exact ⟨_, _, _, rfl, ha, hb, hc⟩

namespace Walked
variable {stage : Stage} {c : Context}

theorem paren_eq {t a e : Tree} {d : Delim} (h : Walked stage c t (.node (.expr .paren) [a, .group d [e]])) :
    ∃ a' e', t = .node (.expr .paren) [a', .group d [e']] ∧ Walked stage c e' e := by
  obtain ⟨parts, rfl, inner⟩ := h.plain_eq (by decide) (by decide) fun _ => rfl
  cases inner with
  | cons ha inner =>
    cases inner with
    | cons hg inner =>
      cases inner
      obtain ⟨body, rfl, hbody⟩ := hg.group_eq
      cases hbody with
      | cons he hbody =>
        cases hbody
        exact ⟨_, _, rfl, he⟩

theorem call_eq {t a callee : Tree} {d : Delim} {args : Trees}
    (h : Walked stage c t (.node (.expr .call) [a, callee, .group d args]))
    (noField : ∀ parts, callee.stripParens ≠ .node (.expr .field) parts) :
    ∃ a' callee' args', Offered stage c t (.node (.expr .call) [a', callee', .group d args']) ∧
      Walked stage c callee' callee ∧ List.Forall₂ (Walked stage c) args' args := by
  obtain ⟨parts, walked, offered, inner, same⟩ := h.of_node (by decide)
  rw [regroup_call same.symm noField] at inner
  obtain ⟨a', callee', g', rfl, -, hc, hg⟩ := forall₂_three inner
  obtain ⟨args', rfl, hargs⟩ := hg.group_eq
  exact ⟨a', callee', args', offered, hc, hargs⟩

theorem exprIdent?_eq {e e' : Tree} (h : Walked stage c e e') : e'.exprIdent? = e.exprIdent? := by
  rw [← outline_name?, ← outline_name?, h.outline_eq]

theorem calledName?_eq {v v' : Tree} (noRenames : ∀ t parts, Offered stage c t (.node (.expr .call) parts) →
      t = .node (.expr .call) parts) {name : String} (h : Walked stage c v v') (called : calledName? v' = some name) :
    calledName? v = some name := by
  unfold calledName? at called ⊢
  induction v' using Tree.stripParens.induct generalizing v with
  | case1 a d e ih =>
    obtain ⟨a', e', rfl, he⟩ := h.paren_eq
    have inner := ih he called
    exact inner
  | case2 v' plain =>
    rw [stripParens_of_isPlain plain] at called
    obtain ⟨call, isCall, named⟩ := Option.bind_eq_some_iff.mp called
    unfold Tree.call? at isCall
    split at isCall
    · cases isCall
      obtain ⟨a', callee', args', offered, hc, -⟩ := h.call_eq (noField_of_exprIdent? named)
      rw [noRenames _ _ offered]
      exact (exprIdent?_eq hc).symm.trans named
    · cases isCall

end Walked

theorem untried_of_calledName? {v : Tree} {name : String} (h : calledName? v = some name) : untried v = v := by
  unfold untried
  split
  · cases h
  · rfl

theorem Walked.calledName?_untried {stage : Stage} {c : Context} {v v' : Tree}
    (noRenames : ∀ t parts, Offered stage c t (.node (.expr .call) parts) → t = .node (.expr .call) parts)
    {name : String} (h : Walked stage c v v') (called : calledName? (untried v') = some name) :
    calledName? (untried v) = some name := by
  by_cases tried : ∃ a e mark, v' = .node (.expr .tried) [a, e, mark]
  · obtain ⟨a, e, mark, rfl⟩ := tried
    obtain ⟨parts, rfl, inner⟩ := h.plain_eq (by decide) (by decide) fun _ => rfl
    obtain ⟨a', e', mark', rfl, -, he, -⟩ := forall₂_three inner
    exact he.calledName?_eq noRenames called
  · have plain : untried v' = v' := by
      unfold untried
      split
      · exact (tried ⟨_, _, _, rfl⟩).elim
      · rfl
    rw [plain] at called
    have called := h.calledName?_eq noRenames called
    rw [untried_of_calledName? called, called]

theorem siteValue?_regroup (k : Kind) (parts : Trees) :
    siteValue? (.node k (regroup k parts)) = siteValue? (.node k parts) := by
  unfold regroup
  split <;> rfl

theorem siteValue?_walked {stage : Stage} {c : Context} {k : Kind} {parts walked : Trees} {v' : Tree}
    (inner : List.Forall₂ (Walked stage c) parts walked) (h : siteValue? (.node k walked) = some v') :
    ∃ v, siteValue? (.node k parts) = some v ∧ Walked stage c v v' := by
  unfold siteValue? at h
  split at h
  · rename_i same
    cases same
    split at h
    · cases h
    · rename_i noElse
      cases h
      simp only [List.forall₂_cons_right_iff, List.forall₂_nil_right_iff] at inner
      obtain ⟨_, _, -, ⟨_, _, -, ⟨_, _, -, ⟨_, _, hx, ⟨_, _, -, rfl, rfl⟩, rfl⟩, rfl⟩, rfl⟩, rfl⟩ := inner
      obtain ⟨parts, rfl, inner⟩ := hx.plain_eq (by decide) (by decide) fun _ => rfl
      obtain ⟨eq, v, other, rfl, -, hv, ho⟩ := forall₂_three inner
      refine ⟨v, ?_, hv⟩
      rw [siteValue?, Tree.isPresent, ← ho.isAbsent_eq, ← Tree.isPresent, if_neg noElse]
  · rename_i same
    cases same
    cases h
    cases inner with
    | cons _ inner =>
      obtain ⟨left, o, right, rfl, -, -, hv⟩ := forall₂_three inner
      exact ⟨right, rfl, hv⟩
  · cases h

theorem helperCall?_eq_none {c : Context} {v : Tree} : helperCall? c v = none ↔
    ∀ name, calledName? v = some name → Table.get? c.helpers name = none := by
  unfold helperCall? calledName?
  constructor
  · intro h name called
    obtain ⟨call, isCall, named⟩ := Option.bind_eq_some_iff.mp called
    rcases found : Table.get? c.helpers name with _ | signature
    · rfl
    · simp [isCall, named, found] at h
  · intro h
    refine Option.eq_none_iff_forall_ne_some.mpr fun answer found => ?_
    obtain ⟨call, isCall, found⟩ := Option.bind_eq_some_iff.mp found
    obtain ⟨name, named, found⟩ := Option.bind_eq_some_iff.mp found
    obtain ⟨signature, known, -⟩ := Option.bind_eq_some_iff.mp found
    have unknown := h name (by rw [isCall, Option.bind_some, named])
    rw [unknown] at known
    cases known

def isHelper (c : Context) (name : String) : Bool := (Table.get? c.helpers name).isSome

theorem promoteCall_none {c : Context} {value : Tree} {target : Option (List String)} {s s' : State}
    (h : (promoteCall c value target).run s = (none, s')) :
    ((calledName? (untried value)).any (isHelper c)) = false := by
  unfold promoteCall at h
  split at h
  · rename_i noCall
    rw [helperCall?_eq_none] at noCall
    rw [Bool.eq_false_iff]
    intro bound
    obtain ⟨name, called, helper⟩ := (Option.any_eq_true _ _).mp bound
    rw [isHelper, noCall name called] at helper
    cases helper
  · cases h

theorem calledName?_retry (call value : Tree) (noCall : ∀ a e mark, call ≠ .node (.expr .tried) [a, e, mark])
    : calledName? (untried (retry call value)) = calledName? call := by
  unfold retry
  split
  · rfl
  · unfold untried
    split
    · exact (noCall _ _ _ rfl).elim
    · rfl

theorem promoteCall_some {c : Context} {value v : Tree} {target : Option (List String)} {s s' : State}
    (h : (promoteCall c value target).run s = (some v, s')) : calledName? (untried v) = none := by
  unfold promoteCall at h
  split at h
  · cases h
  · cases congrArg Prod.fst h
    rw [calledName?_retry _ _ (by rintro _ _ _ ⟨⟩)]
    rfl

theorem inlineFunction_some {c : Context} {t u : Tree} {s s' : State} (h : (inlineFunction c t).run s = (some u, s')) :
    bindsCall (isHelper c) u = false ∧ ∃ parts, u = .node (.stmt .bind) parts ∨ u = .node (.expr .assign) parts := by
  unfold inlineFunction at h
  split at h
  · rename_i attrs w pat eq value other semi
    split at h
    · cases some_of_pure h
    · rcases run : (promoteCall c value none).run s with ⟨_ | v, s₁⟩
      · rw [StateT.run_bind, run] at h
        cases h
      · rw [StateT.run_bind, run] at h
        cases some_of_pure h
        rename_i noElse
        refine ⟨?_, _, .inl rfl⟩
        simp only [bindsCall, siteValue?, if_neg noElse, Option.any_some, promoteCall_some run, Option.any_none]
  · rename_i attrs left o right
    rcases run : (promoteCall c right (fieldChain c.scope.varModel left)).run s with ⟨_ | v, s₁⟩
    · rw [StateT.run_bind, run] at h
      cases h
    · rw [StateT.run_bind, run] at h
      cases some_of_pure h
      refine ⟨?_, _, .inr rfl⟩
      simp only [bindsCall, siteValue?, Option.any_some, promoteCall_some run, Option.any_none]
  · cases some_of_pure h

theorem inlineFunction_none {c : Context} {t : Tree} {s s' : State} (h : (inlineFunction c t).run s = (none, s')) :
    bindsCall (isHelper c) t = false := by
  unfold inlineFunction at h
  split at h
  · rename_i attrs w pat eq value other semi
    split at h
    · rename_i hasElse
      simp only [bindsCall, siteValue?, if_pos hasElse, Option.any_none]
    · rename_i noElse
      rcases run : (promoteCall c value none).run s with ⟨_ | v, s₁⟩
      · simp only [bindsCall, siteValue?, if_neg noElse, Option.any_some, promoteCall_none run]
      · rw [StateT.run_bind, run] at h
        cases h
  · rename_i attrs left o right
    rcases run : (promoteCall c right (fieldChain c.scope.varModel left)).run s with ⟨_ | v, s₁⟩
    · simp only [bindsCall, siteValue?, Option.any_some, promoteCall_none run]
    · rw [StateT.run_bind, run] at h
      cases h
  · rename_i noLet noAssign
    have noSite : siteValue? t = none := by
      unfold siteValue?
      split
      · exact (noLet _ _ _ _ _ _ _ rfl).elim
      · exact (noAssign _ _ _ _ rfl).elim
      · rfl
    rw [bindsCall, noSite, Option.any_none]

theorem compositeLiteral_some {c : Context} {t u : Tree} {s s' : State}
    (h : (compositeLiteral c t).run s = (some u, s')) : ∃ parts, u = .node (.expr .structLit) parts := by
  unfold compositeLiteral at h
  split at h
  · split at h
    · split at h
      · split at h
        · obtain ⟨m, -, made⟩ := Option.bind_eq_some_iff.mp (some_of_pure h)
          obtain ⟨fields, -, ⟨⟩⟩ := Option.bind_eq_some_iff.mp made
          exact ⟨_, rfl⟩
        · cases some_of_pure h
      · cases some_of_pure h
    · cases some_of_pure h
  · cases some_of_pure h

theorem isOffered_of_siteValue? {t v : Tree} (h : siteValue? t = some v) : isOffered t = true := by
  unfold siteValue? at h
  split at h
  · rfl
  · rfl
  · cases h

theorem offered_promote {c : Context} {t u : Tree} (h : Offered promote c t u) : bindsCall (isHelper c) u = false := by
  obtain ⟨s, s', h⟩ := h
  unfold Stage.offer at h
  split at h
  · rcases first : (inlineFunction c t).run s with ⟨_ | v, s₁⟩
    · rw [promote, rewriteFirst_passed (r := .inlineFunction) first] at h
      rcases second : (compositeLiteral c t).run s₁ with ⟨_ | v, s₂⟩
      · rw [rewriteFirst_passed (r := .compositeLiteral) second] at h
        cases h
        exact inlineFunction_none first
      · rw [rewriteFirst_applied (r := .compositeLiteral) second] at h
        cases h
        obtain ⟨parts, rfl⟩ := compositeLiteral_some second
        rfl
    · rw [promote, rewriteFirst_applied (r := .inlineFunction) first] at h
      cases h
      exact (inlineFunction_some first).1
  · rename_i closed
    cases h
    rw [Bool.eq_false_iff]
    intro binds
    obtain ⟨v, site, -⟩ := (Option.any_eq_true _ _).mp binds
    exact closed (isOffered_of_siteValue? site)

theorem offered_promote_eq {c : Context} {t : Tree} {k : Kind} {parts : Trees}
    (h : Offered promote c t (.node k parts)) (unmade : k ∉ [.stmt .bind, .expr .assign, .expr .structLit]) :
    t = .node k parts := by
  rcases h.applied with same | ⟨r, mem, s, s', applied⟩
  · exact same.symm
  · simp only [promote, List.mem_cons, List.not_mem_nil, or_false] at mem
    rcases mem with rfl | rfl
    · obtain ⟨_, made | made⟩ := (inlineFunction_some applied).2
      · cases made
        exact (unmade (by decide)).elim
      · cases made
        exact (unmade (by decide)).elim
    · obtain ⟨_, ⟨⟩⟩ := compositeLiteral_some applied
      exact (unmade (by decide)).elim

theorem bindsCall_walked {c : Context} {t : Tree} {k : Kind} {parts walked : Trees}
    (offered : Offered promote c t (.node k parts)) (inner : List.Forall₂ (Walked promote c) parts walked) :
    bindsCall (isHelper c) (.node k (regroup k walked)) = false := by
  rw [Bool.eq_false_iff]
  intro binds
  obtain ⟨v', site', binds⟩ := (Option.any_eq_true _ _).mp binds
  obtain ⟨name, called', helper⟩ := (Option.any_eq_true _ _).mp binds
  rw [siteValue?_regroup] at site'
  obtain ⟨v, site, walked⟩ := siteValue?_walked inner site'
  have called := walked.calledName?_untried (fun _ _ offered => offered_promote_eq offered (by decide)) called'
  have none := offered_promote offered
  rw [bindsCall, site, Option.any_some, called, Option.any_some, helper] at none
  cases none

theorem exprIdent?_shield (e : Tree) : (shield e).exprIdent? = e.exprIdent? := by
  rw [← outline_name?, ← outline_name?, outline_shield]

theorem shield_eq_group {t : Tree} {d : Delim} {body : Trees} : shield t = .group d body ↔ t = .group d body := by
  cases t with
  | leaf token => rfl
  | group d' body' => rfl
  | node k parts =>
    rw [shield_node]
    constructor
    · intro h
      split at h <;> cases h
    · rintro ⟨⟩

theorem shield_eq_node {t : Tree} {k : Kind} {us : Trees} (noParen : k ≠ .expr .paren) (h : shield t = .node k us) :
    ∃ parts, t = .node k parts ∧ shieldAll parts = us := by
  cases t with
  | leaf token => cases h
  | group d' body' => cases h
  | node k' parts =>
    rw [shield_node] at h
    split at h
    · cases h
      exact (noParen rfl).elim
    · cases h
      exact ⟨parts, rfl, rfl⟩

theorem shieldAll_eq_cons {ts us : Trees} {u : Tree} :
    shieldAll ts = u :: us ↔ ∃ t rest, ts = t :: rest ∧ shield t = u ∧ shieldAll rest = us := by
  cases ts with
  | nil => simp [shieldAll]
  | cons t rest => simp [shieldAll, and_assoc]

theorem shieldAll_eq_nil {ts : Trees} : shieldAll ts = [] ↔ ts = [] := by
  cases ts <;> simp [shieldAll]

theorem isPlain_shieldAll {k : Kind} {parts : Trees} (plain : IsPlain (.node k parts)) :
    IsPlain (.node k (shieldAll parts)) := by
  intro a d e same
  injection same with kind same
  subst kind
  simp only [shieldAll_eq_cons, shieldAll_eq_nil, shield_eq_group] at same
  obtain ⟨a', _, rfl, -, _, _, rfl, rfl, rfl⟩ := same
  exact plain _ _ _ rfl

theorem calledName?_shield (e : Tree) : calledName? (shield e) = calledName? e := by
  refine eq_shield (fun _ => rfl) (fun k parts => ?_) e
  by_cases plain : IsPlain (.node k parts)
  · unfold calledName?
    rw [stripParens_of_isPlain plain, stripParens_of_isPlain (isPlain_shieldAll plain)]
    unfold Tree.call?
    split
    · rename_i same
      injection same with kind same
      subst kind
      simp only [shieldAll_eq_cons, shieldAll_eq_nil, shield_eq_group] at same
      obtain ⟨a, _, rfl, -, callee, _, rfl, rfl, _, _, rfl, rfl, rfl⟩ := same
      exact exprIdent?_shield callee
    · rename_i noCall
      split
      · rename_i same
        cases same
        exact (noCall _ _ _ _ rfl).elim
      · rfl
  · simp only [IsPlain, not_forall, not_false_eq_true, exists_prop, and_true] at plain
    obtain ⟨a, d, inner, ⟨⟩⟩ := plain
    rfl

theorem untried_shield (v : Tree) : calledName? (untried (shield v)) = calledName? (untried v) := by
  by_cases tried : ∃ a e mark, v = .node (.expr .tried) [a, e, mark]
  · obtain ⟨a, e, mark, rfl⟩ := tried
    exact calledName?_shield e
  · have stays : untried v = v := by
      unfold untried
      split
      · exact (tried ⟨_, _, _, rfl⟩).elim
      · rfl
    have stays' : untried (shield v) = shield v := by
      unfold untried
      split
      · rename_i same
        obtain ⟨parts, rfl, shielded⟩ := shield_eq_node (by decide) same
        simp only [shieldAll_eq_cons, shieldAll_eq_nil] at shielded
        obtain ⟨a, _, rfl, -, e, _, rfl, -, mark, _, rfl, -, rfl⟩ := shielded
        exact (tried ⟨_, _, _, rfl⟩).elim
      · rfl
    rw [stays, stays', calledName?_shield]

theorem siteValue?_shieldAll (k : Kind) (parts : Trees) :
    siteValue? (.node k (shieldAll parts)) = (siteValue? (.node k parts)).map shield := by
  unfold siteValue?
  split
  · rename_i same
    injection same with kind same
    subst kind
    simp only [shieldAll_eq_cons, shieldAll_eq_nil] at same
    obtain ⟨a, _, rfl, -, w, _, rfl, -, pat, _, rfl, -, x, _, rfl, init, semi, _, rfl, -, rfl⟩ := same
    obtain ⟨parts, rfl, shielded⟩ := shield_eq_node (by decide) init
    simp only [shieldAll_eq_cons, shieldAll_eq_nil] at shielded
    obtain ⟨eq, _, rfl, -, value, _, rfl, rfl, other, _, rfl, rfl, rfl⟩ := shielded
    have absent : (shield other).isPresent = other.isPresent := by
      rw [Tree.isPresent, Tree.isPresent, ← outline_isAbsent, ← outline_isAbsent, outline_shield]
    rw [absent]
    split <;> simp_all
  · rename_i same
    injection same with kind same
    subst kind
    simp only [shieldAll_eq_cons, shieldAll_eq_nil] at same
    obtain ⟨a, _, rfl, -, left, _, rfl, -, o, _, rfl, -, right, _, rfl, rfl, rfl⟩ := same
    rfl
  · rename_i noLet noAssign
    split
    · rename_i same
      cases same
      exact (noLet _ _ _ _ _ _ _ rfl).elim
    · rename_i same
      cases same
      exact (noAssign _ _ _ _ rfl).elim
    · rfl

theorem unshielded_bindsCall (names : String → Bool) : Unshielded (bindsCall names) where
  shielded k parts := by
    rw [bindsCall, bindsCall, siteValue?_shieldAll, Option.any_map]
    congr 1
    funext v
    simp only [untried_shield]
  paren e := rfl
  attrs := rfl

theorem WalksAll.bindsCall {c : Context} {ts ts' : Trees} {s s' : State} (h : WalksAll promote c ts s ts' s') :
    (nodesAll ts').countP (bindsCall (isHelper c)) = 0 :=
  h.forall_nodes (fun _ _ _ _ _ offered inner => bindsCall_walked offered inner)
    (unshielded_bindsCall _).countP_regroup

end Retype.Rewrite
