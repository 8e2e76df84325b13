import Retype.Proofs.NormalForm

/-! Parentheses around struct literals hide nothing from rewriters, and bring nothing up. -/

namespace Retype.Rewrite
open Retype.Code

theorem segmentName?_eq_some {t : Tree} {name : String} :
    segmentName? t = some name ↔ ∃ args, t = .node .segment [word name, args] := by
  constructor
  · intro h
    unfold segmentName? at h
    split at h
    · cases h
      exact ⟨_, rfl⟩
    · cases h
  · rintro ⟨args, rfl⟩
    rfl

theorem exprPath?_eq_some {t path : Tree} : t.exprPath? = some path ↔ ∃ attrs, t = .node (.expr .path) [attrs, path] := by
  unfold Tree.exprPath?
  constructor
  · intro h
    split at h
    · cases h
      exact ⟨_, rfl⟩
    · cases h
  · rintro ⟨attrs, rfl⟩
    rfl

theorem callPath?_eq_some {t : Tree} {path : String} {args : Trees} : t.callPath? = some (path, args) ↔
    ∃ a attrs p d body, t.stripParens = .node (.expr .call) [a, .node (.expr .path) [attrs, p], .group d body] ∧
      p.pathString = path ∧ Trees.members body = args := by
  constructor
  · intro h
    obtain ⟨call, isCall, h⟩ := Option.bind_eq_some_iff.mp h
    obtain ⟨p, isPath, same⟩ := Option.bind_eq_some_iff.mp h
    unfold Tree.call? at isCall
    split at isCall
    · rename_i bare
      cases isCall
      obtain ⟨attrs, rfl⟩ := exprPath?_eq_some.mp isPath
      cases same
      exact ⟨_, attrs, p, _, _, bare, rfl, rfl⟩
    · cases isCall
  · rintro ⟨a, attrs, p, d, body, bare, rfl, rfl⟩
    simp only [Tree.callPath?, bare]
    rfl

theorem methodCall?_eq_some {t receiver turbofish : Tree} {m : String} {args : Trees} :
    t.methodCall? = some ⟨receiver, m, turbofish, args⟩ ↔ ∃ a dot d body,
      t = .node (.expr .methodCall) [a, receiver, dot, word m, turbofish, .group d body] ∧ Trees.members body = args := by
  unfold Tree.methodCall?
  constructor
  · intro h
    split at h
    · cases h
      exact ⟨_, _, _, _, rfl, rfl⟩
    · cases h
  · rintro ⟨a, dot, d, body, rfl, rfl⟩
    rfl

theorem typePath?_eq_some {t path : Tree} : t.typePath? = some path ↔ t = .node (.type .path) [path] := by
  unfold Tree.typePath?
  constructor
  · intro h
    split at h
    · cases h
      rfl
    · cases h
  · rintro rfl
    rfl

theorem shield_eq_leaf {t : Tree} {token : Token} : shield t = .leaf token ↔ t = .leaf token := by
  rw [← outline_eq_leaf, outline_shield, outline_eq_leaf]

theorem isAccessor_shield (c : Context) (e : Tree) : c.isAccessor (shield e) = c.isAccessor e := by
  rw [← outline_isAccessor, ← outline_isAccessor, outline_shield]

theorem shield_eq_paren {e a inner : Tree} {d : Delim} (h : shield e = .node (.expr .paren) [a, .group d [inner]]) :
    (∃ parts, inner = .node (.expr .structLit) parts) ∨ ∃ a', e = .node (.expr .paren) [a', .group d [inner]] := by
  cases e with
  | leaf token => cases h
  | group d body => cases h
  | node k parts =>
    rw [shield_node] at h
    split at h
    · rename_i literal
      subst literal
      cases h
      exact .inl ⟨parts, rfl⟩
    · injection h with kind same
      subst kind
      simp only [shieldAll_eq_cons, shieldAll_eq_nil, shield_eq_group] at same
      obtain ⟨a', _, rfl, -, _, _, rfl, rfl, rfl⟩ := same
      exact .inr ⟨a', rfl⟩

theorem stripParens_shield_node {e : Tree} {k : Kind} {us : Trees} (noParen : k ≠ .expr .paren) (noLiteral : k ≠ .expr .structLit)
    (h : (shield e).stripParens = .node k us) : ∃ parts, e.stripParens = .node k parts ∧
      (shieldAll parts = us ∨ parts = us) := by
  cases e with
  | leaf token => cases h
  | group d body => cases h
  | node k' parts =>
    by_cases plain : IsPlain (.node k' parts)
    · rw [stripParens_of_isPlain plain]
      rw [shield_node] at h
      split at h
      · rename_i literal
        subst literal
        cases h
        exact absurd rfl noLiteral
      · rw [stripParens_of_isPlain (isPlain_shieldAll plain)] at h
        cases h
        exact ⟨parts, rfl, .inl rfl⟩
    · simp only [IsPlain, not_forall, not_false_eq_true, exists_prop, and_true] at plain
      obtain ⟨a, d, inner, ⟨⟩⟩ := plain
      exact ⟨us, h, .inr rfl⟩

theorem isSegment_shield (t : Tree) : (shield t).isSegment = t.isSegment := by
  refine eq_shield (f := Tree.isSegment) (fun _ => rfl) (fun k parts => ?_) t
  cases k <;> rfl

theorem segmentName?_shield (t : Tree) : segmentName? (shield t) = segmentName? t := by
  refine Option.ext fun name => ?_
  rw [segmentName?_eq_some, segmentName?_eq_some]
  constructor
  · rintro ⟨args, same⟩
    obtain ⟨parts, rfl, shielded⟩ := shield_eq_node (by decide) same
    simp only [shieldAll_eq_cons, shieldAll_eq_nil, word, shield_eq_leaf] at shielded
    obtain ⟨_, _, rfl, rfl, args, _, rfl, -, rfl⟩ := shielded
    exact ⟨args, rfl⟩
  · rintro ⟨args, rfl⟩
    exact ⟨shield args, rfl⟩

theorem segmentNames_shieldAll (parts : Trees) :
    ((shieldAll parts).filter (·.isSegment)).filterMap segmentName? = (parts.filter (·.isSegment)).filterMap segmentName? := by
  induction parts with
  | nil => rfl
  | cons t ts ih =>
    rw [shieldAll, List.filter_cons, List.filter_cons, isSegment_shield]
    split
    · rw [List.filterMap_cons, List.filterMap_cons, segmentName?_shield, ih]
    · exact ih

theorem segmentNames_shield (t : Tree) : (shield t).segmentNames = t.segmentNames := by
  refine eq_shield (f := Tree.segmentNames) (fun _ => rfl) (fun k parts => ?_) t
  cases k with
  | path => exact segmentNames_shieldAll parts
  | qualified => exact segmentNames_shieldAll parts
  | _ => rfl

theorem callPath?_shield (e : Tree) : (shield e).callPath? = e.callPath? := by
  refine Option.ext fun (path, args) => ?_
  rw [callPath?_eq_some, callPath?_eq_some]
  constructor
  · rintro ⟨a, attrs, p, d, body, bare, rfl, rfl⟩
    obtain ⟨parts, bare', shielded | rfl⟩ := stripParens_shield_node (by decide) (by decide) bare
    · simp only [shieldAll_eq_cons, shieldAll_eq_nil, shield_eq_group] at shielded
      obtain ⟨a', _, rfl, -, callee, _, rfl, hc, _, _, rfl, rfl, rfl⟩ := shielded
      obtain ⟨parts, rfl, shielded⟩ := shield_eq_node (by decide) hc
      simp only [shieldAll_eq_cons, shieldAll_eq_nil] at shielded
      obtain ⟨attrs', _, rfl, -, p', _, rfl, rfl, rfl⟩ := shielded
      exact ⟨a', attrs', p', d, body, bare', by rw [Tree.pathString, Tree.pathString, segmentNames_shield], rfl⟩
    · exact ⟨a, attrs, p, d, body, bare', rfl, rfl⟩
  · rintro ⟨a, attrs, p, d, body, bare, rfl, rfl⟩
    by_cases plain : IsPlain e
    · rw [stripParens_of_isPlain plain] at bare
      subst bare
      exact ⟨shield a, shield attrs, shield p, d, body, rfl,
        by rw [Tree.pathString, Tree.pathString, segmentNames_shield], rfl⟩
    · simp only [IsPlain, not_forall, not_false_eq_true, exists_prop, and_true] at plain
      obtain ⟨b, d', inner, rfl⟩ := plain
      exact ⟨a, attrs, p, d, body, bare, rfl, rfl⟩

theorem isClientDowncast_of_shield {client : String} {e : Tree} (h : isClientDowncast client (shield e) = true) :
    isClientDowncast client e = true := by
  generalize same : shield e = e' at h
  fun_induction isClientDowncast client e' generalizing e with
  | case1 a d inside _ =>
    obtain ⟨parts, rfl⟩ | ⟨a', rfl⟩ := shield_eq_paren same
    · cases h
    · rwa [isClientDowncast]
  | case2 a inside mark ih =>
    obtain ⟨parts, rfl, shielded⟩ := shield_eq_node (by decide) same
    simp only [shieldAll_eq_cons, shieldAll_eq_nil] at shielded
    obtain ⟨_, _, rfl, -, e, _, rfl, inner, _, _, rfl, -, rfl⟩ := shielded
    rw [isClientDowncast]
    exact ih inner h
  | case3 a receiver dot m turbofish args unwraps ih =>
    obtain ⟨parts, rfl, shielded⟩ := shield_eq_node (by decide) same
    simp only [shieldAll_eq_cons, shieldAll_eq_nil, shield_eq_leaf] at shielded
    obtain ⟨_, _, rfl, -, receiver, _, rfl, inner, _, _, rfl, -, _, _, rfl, rfl, _, _, rfl, -, _, _, rfl, -, rfl⟩ := shielded
    rw [isClientDowncast.eq_def]
    simp only [unwraps, if_true]
    exact ih inner h
  | case4 a receiver dot m mark noUnwrap isDowncast b o first rest =>
    obtain ⟨parts, rfl, shielded⟩ := shield_eq_node (by decide) same
    simp only [shieldAll_eq_cons, shieldAll_eq_nil, shield_eq_leaf] at shielded
    obtain ⟨_, _, rfl, -, receiver, _, rfl, -, _, _, rfl, -, _, _, rfl, rfl, turbofish, _, rfl, generics, _, _, rfl, -, rfl⟩ :=
      shielded
    obtain ⟨parts, rfl, shielded⟩ := shield_eq_node (by decide) generics
    simp only [shieldAll_eq_cons] at shielded
    obtain ⟨_, _, rfl, -, _, _, rfl, -, first, _, rfl, rfl, -⟩ := shielded
    obtain ⟨path, isPath, named⟩ := (Option.any_eq_true _ _).mp h
    obtain ⟨parts, rfl, shielded⟩ := shield_eq_node (by decide) (typePath?_eq_some.mp isPath)
    simp only [shieldAll_eq_cons, shieldAll_eq_nil] at shielded
    obtain ⟨path, _, rfl, rfl, rfl⟩ := shielded
    rw [Tree.lastSegment?, segmentNames_shield, ← Tree.lastSegment?] at named
    simpa [isClientDowncast, noUnwrap, isDowncast, Tree.typePath?] using named
  | case5 => cases h
  | case6 => cases h
  | case7 => cases h

theorem SetCall.of_shield {c : Context} {e : Tree} {args : Trees} (h : SetCall c (shield e) args) : SetCall c e args := by
  generalize same : shield e = e' at h
  induction h generalizing e with
  | call accessor =>
    obtain ⟨parts, rfl, shielded⟩ := shield_eq_node (by decide) same
    simp only [shieldAll_eq_cons, shieldAll_eq_nil, shield_eq_group, word, shield_eq_leaf] at shielded
    obtain ⟨_, _, rfl, -, receiver, _, rfl, rfl, _, _, rfl, -, _, _, rfl, rfl, _, _, rfl, -, _, _, rfl, rfl, rfl⟩ := shielded
    exact .call (isAccessor_shield c receiver ▸ accessor)
  | paren inner _ =>
    obtain ⟨parts, rfl⟩ | ⟨a', rfl⟩ := shield_eq_paren same
    · cases inner
    · exact .paren inner
  | tried _ ih =>
    obtain ⟨parts, rfl, shielded⟩ := shield_eq_node (by decide) same
    simp only [shieldAll_eq_cons, shieldAll_eq_nil] at shielded
    obtain ⟨_, _, rfl, -, e, _, rfl, inner, _, _, rfl, -, rfl⟩ := shielded
    exact .tried (ih inner)
  | mapErr _ ih =>
    obtain ⟨parts, rfl, shielded⟩ := shield_eq_node (by decide) same
    simp only [shieldAll_eq_cons, shieldAll_eq_nil, shield_eq_group, word, shield_eq_leaf] at shielded
    obtain ⟨_, _, rfl, -, receiver, _, rfl, inner, _, _, rfl, -, _, _, rfl, rfl, _, _, rfl, -, _, _, rfl, rfl, rfl⟩ := shielded
    exact .mapErr (ih inner)

theorem guardedCall_of_shield {c : Context} {cond : Tree} {args : Trees}
    (h : guardedCall c (shield cond) = some args) : guardedCall c cond = some args := by
  obtain ⟨_, _, _, path, _, _, value, bare, err, inner⟩ := guardedCall_eq_some.mp h
  obtain ⟨parts, bare', shielded | rfl⟩ := stripParens_shield_node (by decide) (by decide) bare
  · simp only [shieldAll_eq_cons, shieldAll_eq_nil] at shielded
    obtain ⟨_, _, rfl, -, _, _, rfl, -, pat, _, rfl, hpat, _, _, rfl, -, value', _, rfl, rfl, rfl⟩ := shielded
    obtain ⟨parts, rfl, shielded⟩ := shield_eq_node (by decide) hpat
    simp only [shieldAll_eq_cons] at shielded
    obtain ⟨_, _, rfl, -, path', _, rfl, rfl, -⟩ := shielded
    rw [← outline_eq_path, outline_shield, outline_eq_path] at err
    exact guardedCall_eq_some.mpr ⟨_, _, _, _, _, _, _, bare', err, inner.of_shield⟩
  · exact guardedCall_eq_some.mpr ⟨_, _, _, _, _, _, _, bare', err, inner⟩

theorem regroup_ifElse {walked : Trees} {attrs w cond body other : Tree}
    (h : regroup (.expr .ifElse) walked = [attrs, w, cond, body, other]) :
    ∃ cond', walked = [attrs, w, cond', body, other] ∧ cond = shield cond' := by
  unfold regroup at h
  split at h
  case h_1 =>
    cases h
    exact ⟨_, rfl, rfl⟩
  case h_6 noCond _ _ _ _ =>
    subst h
    exact (noCond _ _ _ _ _ rfl rfl).elim
  all_goals contradiction

theorem setStatement_of_shieldAll {c : Context} {k : Kind} {parts args : Trees}
    (h : setStatement c (.node k (shieldAll parts)) = some args) : setStatement c (.node k parts) = some args := by
  have write := setStatement_eq_some.mp h
  generalize same : Code.Tree.node k (shieldAll parts) = t at write
  cases write with
  | closed semicolon inner =>
    injection same with kind same
    subst kind
    simp only [shieldAll_eq_cons, shieldAll_eq_nil] at same
    obtain ⟨e, _, rfl, rfl, semi, _, rfl, rfl, rfl⟩ := same
    rw [← outline_isAbsent, outline_shield, outline_isAbsent] at semicolon
    exact setStatement_eq_some.mpr (.closed semicolon inner.of_shield)
  | discarded noElse inner =>
    injection same with kind same
    subst kind
    simp only [shieldAll_eq_cons, shieldAll_eq_nil] at same
    obtain ⟨_, _, rfl, -, _, _, rfl, -, pat, _, rfl, hpat, init, _, rfl, hinit, _, _, rfl, -, rfl⟩ := same
    obtain ⟨wild, rfl, -⟩ := shield_eq_node (by decide) hpat
    obtain ⟨parts, rfl, shielded⟩ := shield_eq_node (by decide) hinit
    simp only [shieldAll_eq_cons, shieldAll_eq_nil] at shielded
    obtain ⟨_, _, rfl, -, value, _, rfl, rfl, other, _, rfl, rfl, rfl⟩ := shielded
    rw [← outline_isAbsent, outline_shield, outline_isAbsent] at noElse
    exact setStatement_eq_some.mpr (.discarded noElse inner.of_shield)
  | guarded noElse bare err inner =>
    injection same with kind same
    subst kind
    simp only [shieldAll_eq_cons, shieldAll_eq_nil] at same
    obtain ⟨e, _, rfl, hif, _, _, rfl, -, rfl⟩ := same
    obtain ⟨parts, rfl, shielded⟩ := shield_eq_node (by decide) hif
    simp only [shieldAll_eq_cons, shieldAll_eq_nil] at shielded
    obtain ⟨_, _, rfl, -, _, _, rfl, -, cond, _, rfl, rfl, _, _, rfl, -, other, _, rfl, rfl, rfl⟩ := shielded
    have guard := guardedCall_of_shield (guardedCall_eq_some.mpr ⟨_, _, _, _, _, _, _, bare, err, inner⟩)
    rw [← outline_isAbsent, outline_shield, outline_isAbsent] at noElse
    rw [setStatement, if_pos noElse, guard]

mutual
theorem shield_shield (t : Tree) : shield (shield t) = shield t := by
  cases t with
  | leaf token => rfl
  | group d body => rfl
  | node k parts =>
    rw [shield_node]
    split
    · rfl
    · rename_i noLiteral
      rw [shield_node, if_neg noLiteral, shieldAll_shieldAll parts]

theorem shieldAll_shieldAll (ts : List Tree) : shieldAll (shieldAll ts) = shieldAll ts := by
  cases ts with
  | nil => rfl
  | cons t ts => rw [shieldAll, shieldAll, shield_shield t, shieldAll_shieldAll ts]
end

theorem regroup_regroup (k : Kind) (parts : Trees) : regroup k (regroup k parts) = regroup k parts := by
  fun_cases regroup k parts with
  | case1 => rw [regroup, shield_shield]
  | case2 => rw [regroup, shield_shield]
  | case3 => rw [regroup, shield_shield]
  | case4 => rw [regroup, shield_shield]
  | case5 => rfl
  | case6 => rw [regroup] <;> assumption

theorem regroup_shieldAll {k : Kind} {parts : Trees} (h : regroup k parts = parts) :
    regroup k (shieldAll parts) = shieldAll parts := by
  fun_cases regroup k parts with
  | case1 => simp only [shieldAll, regroup, shield_shield]
  | case2 => simp only [shieldAll, regroup, shield_shield]
  | case3 => simp only [shieldAll, regroup, shield_shield]
  | case4 => simp only [shieldAll, regroup, shield_shield]
  | case5 => cases h
  | case6 k parts noIf noWhile noMatch noFor noField =>
    rw [regroup]
    · rintro _ _ _ _ _ rfl same
      simp only [shieldAll_eq_cons, shieldAll_eq_nil] at same
      obtain ⟨_, _, rfl, -, _, _, rfl, -, _, _, rfl, -, _, _, rfl, -, _, _, rfl, -, rfl⟩ := same
      exact noIf _ _ _ _ _ rfl rfl
    · rintro _ _ _ _ _ rfl same
      simp only [shieldAll_eq_cons, shieldAll_eq_nil] at same
      obtain ⟨_, _, rfl, -, _, _, rfl, -, _, _, rfl, -, _, _, rfl, -, _, _, rfl, -, rfl⟩ := same
      exact noWhile _ _ _ _ _ rfl rfl
    · rintro _ _ _ _ rfl same
      simp only [shieldAll_eq_cons, shieldAll_eq_nil] at same
      obtain ⟨_, _, rfl, -, _, _, rfl, -, _, _, rfl, -, _, _, rfl, -, rfl⟩ := same
      exact noMatch _ _ _ _ rfl rfl
    · rintro _ _ _ _ _ _ _ rfl same
      simp only [shieldAll_eq_cons, shieldAll_eq_nil] at same
      obtain ⟨_, _, rfl, -, _, _, rfl, -, _, _, rfl, -, _, _, rfl, -, _, _, rfl, -, _, _, rfl, -, _, _, rfl, -, rfl⟩ := same
      exact noFor _ _ _ _ _ _ _ rfl rfl
    · rintro _ _ _ _ _ _ rfl same
      simp only [shieldAll_eq_cons, shieldAll_eq_nil] at same
      obtain ⟨_, _, rfl, -, callee, _, rfl, field, _, _, rfl, -, rfl⟩ := same
      obtain ⟨parts, rfl, shielded⟩ := shield_eq_node (by decide) field
      simp only [shieldAll_eq_cons, shieldAll_eq_nil, shield_eq_leaf] at shielded
      obtain ⟨_, _, rfl, -, _, _, rfl, -, _, _, rfl, -, _, _, rfl, rfl, rfl⟩ := shielded
      exact noField _ _ _ _ _ _ rfl rfl

theorem Normal.shielded {c : Context} {k : Kind} {parts : Trees} (noLiteral : k ≠ .expr .structLit)
    (normal : Normal c (.node k parts)) : Normal c (.node k (shieldAll parts)) := by
  have called : (Code.Tree.node k (shieldAll parts)).callPath? = (Code.Tree.node k parts).callPath? := by
    rw [← callPath?_shield (.node k parts), shield_node, if_neg noLiteral]
  refine ⟨fun attrs base rest same => ?_, fun u reads => ?_, fun key value found => normal.write key value (setStatement_of_shieldAll found),
    fun k' parts' first id same => ?_, fun d stmts same => ?_, fun attrs receiver dot rest same => ?_,
    fun attrs callee rest path args same found => ?_⟩
  · injection same with kind same
    subst kind
    simp only [shieldAll_eq_cons] at same
    obtain ⟨_, _, rfl, -, base, _, rfl, rfl, -⟩ := same
    rw [Bool.eq_false_iff]
    intro downcast
    have downcast := isClientDowncast_of_shield downcast
    rw [normal.downcast _ _ _ rfl] at downcast
    cases downcast
  · generalize same : Code.Tree.node k (shieldAll parts) = t at reads
    cases reads with
    | state accessor listed =>
      injection same with kind same
      subst kind
      simp only [shieldAll_eq_cons, shieldAll_eq_nil, shield_eq_group, word, shield_eq_leaf] at same
      obtain ⟨_, _, rfl, -, receiver, _, rfl, rfl, _, _, rfl, -, _, _, rfl, rfl, _, _, rfl, -, _, _, rfl, rfl, rfl⟩ := same
      rw [isAccessor_shield] at accessor
      exact normal.read _ (.state accessor listed)
    | field accessor one known =>
      injection same with kind same
      subst kind
      simp only [shieldAll_eq_cons, shieldAll_eq_nil, shield_eq_group, word, shield_eq_leaf] at same
      obtain ⟨_, _, rfl, -, receiver, _, rfl, rfl, _, _, rfl, -, _, _, rfl, rfl, _, _, rfl, -, _, _, rfl, rfl, rfl⟩ := same
      rw [isAccessor_shield] at accessor
      exact normal.read _ (.field accessor one known)
  · cases same
    rw [called]
    exact normal.guard _ _ first id rfl
  · injection same with kind same
    subst kind
    simp only [shieldAll_eq_cons, shieldAll_eq_nil, shield_eq_group] at same
    obtain ⟨_, _, rfl, rfl, rfl⟩ := same
    exact normal.list _ _ rfl
  · injection same with kind same
    subst kind
    simp only [shieldAll_eq_cons, word, shield_eq_leaf] at same
    obtain ⟨_, _, rfl, -, receiver, _, rfl, rfl, _, _, rfl, -, _, _, rfl, rfl, -⟩ := same
    rw [isAccessor_shield]
    exact normal.fresh _ _ _ _ rfl
  · injection same with kind same
    subst kind
    simp only [shieldAll_eq_cons] at same
    obtain ⟨_, _, rfl, -, callee, _, rfl, -, -⟩ := same
    rw [called] at found
    exact normal.rename _ _ _ path args rfl found

theorem Promoted.shielded {c : Context} {k : Kind} {parts : Trees} (noLiteral : k ≠ .expr .structLit)
    (promoted : Promoted c (.node k parts)) : Promoted c (.node k (shieldAll parts)) := by
  have called : (Code.Tree.node k (shieldAll parts)).callPath? = (Code.Tree.node k parts).callPath? := by
    rw [← callPath?_shield (.node k parts), shield_node, if_neg noLiteral]
  have value : ∀ v, promoted? c v = none → promoted? c (shield v) = none := by
    intro v unbound
    rw [promoted?_eq_none] at unbound ⊢
    rwa [untried_shield]
  refine ⟨fun attrs w pat eq v other semi same noElse => ?_, fun attrs left o right same => ?_,
    fun k' parts' path arg elems same found constructor array => ?_⟩
  · injection same with kind same
    subst kind
    simp only [shieldAll_eq_cons, shieldAll_eq_nil] at same
    obtain ⟨_, _, rfl, -, _, _, rfl, -, _, _, rfl, -, init, _, rfl, hinit, _, _, rfl, -, rfl⟩ := same
    obtain ⟨parts, rfl, shielded⟩ := shield_eq_node (by decide) hinit
    simp only [shieldAll_eq_cons, shieldAll_eq_nil] at shielded
    obtain ⟨_, _, rfl, -, v, _, rfl, rfl, other, _, rfl, rfl, rfl⟩ := shielded
    rw [Tree.isPresent, ← outline_isAbsent, outline_shield, outline_isAbsent, ← Tree.isPresent] at noElse
    exact value v (promoted.bound _ _ _ _ _ _ _ rfl noElse)
  · injection same with kind same
    subst kind
    simp only [shieldAll_eq_cons, shieldAll_eq_nil] at same
    obtain ⟨_, _, rfl, -, _, _, rfl, -, _, _, rfl, -, right, _, rfl, rfl, rfl⟩ := same
    exact value right (promoted.assigned _ _ _ _ rfl)
  · cases same
    rw [called] at found
    exact promoted.literal _ _ path arg elems rfl found constructor array

theorem passes_parenOf {stage : Stage} {c : Context} {e : Tree} (noCall : e.callPath? = none) :
    Passes stage c (parenOf e) := by
  have called : (parenOf e).callPath? = none := noCall
  have normal : Normal c (parenOf e) := {
    guard := fun _ _ _ _ _ found => by rw [called] at found; cases found }
  have promoted : Promoted c (parenOf e) := {
    literal := fun _ _ _ _ _ _ found => by rw [called] at found; cases found }
  intro r _
  by_cases first : r ∈ normalize
  · exact passes_normalize_iff.mpr normal r first
  · refine passes_promote_iff.mpr promoted r ?_
    revert first
    cases r <;> decide

end Retype.Rewrite
