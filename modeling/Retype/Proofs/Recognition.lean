import Retype.Proofs.Answers
import Retype.Proofs.Shielding

/-! What rewriters find in a tree that a walk has left they would have found before the walk.  A walk changes a tree
only by what rewriters make, and of that they recognise nothing. -/

namespace Retype.Rewrite
open Retype.Code

/-- The methods of the calls that rewriters of the first stage make in the place of an expression. -/
def movedMethods : List String := stateMethods ++ ["is_new_resource", "resource_requires_import"]

/-- What a rewriter makes of a tree, as far as recognisers look at it. -/
inductive Made (c : Context) (t : Tree) : Tree → Prop
  | place {k : Kind} {parts : Trees} (access : k = .expr .field ∨ k = .expr .index ∨ k = .expr .structLit) :
      Made c t (.node k parts)
  | moved {attrs receiver dot : Tree} {m : String} {rest : Trees} (listed : m ∈ movedMethods) :
      Made c t (.node (.expr .methodCall) (attrs :: receiver :: dot :: word m :: rest))
  | assigned (target value : Tree) :
      Made c t (.node (.stmt .expr) [.node (.expr .assign) [noAttrs, target, op "=", value], op ";"])
  | flown (d : Delim) (stmts : Trees) : Made c t (.node .block [.group d stmts])
  | renamed {attrs callee target : Tree} {rest : Trees} (same : t = .node (.expr .call) (attrs :: callee :: rest))
      (listed : target ∈ c.renames.map (·.2)) : Made c t (.node (.expr .call) (attrs :: target :: rest))
  | bound {attrs w pat eq value other semi v : Tree} (answer : promoted? c value = some v) :
      Made c t (.node (.stmt .bind) [attrs, w, pat, .node .init [eq, v, other], semi])
  | stored (parts : Trees) : Made c t (.node (.expr .assign) parts)

theorem Rewriter.made {r : Rewriter} {c : Context} {t u : Tree} (made : r.made? c t = some u) : Made c t u := by
  have field : ∀ {key : Tree} {steps : List PathStep}, keySteps c key = some steps →
      Made c t (modelAccess c.scope.varModel steps) := by
    intro key steps known
    obtain rfl | ⟨init, last, rfl⟩ := List.eq_nil_or_concat' steps
    · exact absurd rfl (keySteps_ne_nil known)
    · rw [modelAccess_concat]
      cases last with
      | field f => exact .place (.inl rfl)
      | index i => exact .place (.inr (.inl rfl))
  cases r with
  | metaAccess =>
    obtain ⟨attrs, base, rest, -, -, rfl⟩ := (metaAccess_run {}).mp made
    exact .place (.inl rfl)
  | accessorGet =>
    cases (accessorGet_run {}).mp made with
    | state _ listed => exact .moved (List.mem_append_left _ (by simpa using listed))
    | field _ _ known => exact field known
  | accessorSet =>
    obtain ⟨key, value, steps, -, -, rfl⟩ := (accessorSet_run {}).mp made
    exact .assigned _ _
  | importGuard =>
    obtain ⟨k, parts, first, id, -, -, rfl⟩ := (importGuard_run {}).mp made
    exact .moved (by decide)
  | controlFlow =>
    obtain ⟨d, stmts, -, stmts', rfl⟩ := controlFlow_run_some made
    exact .flown d stmts'
  | functionRename =>
    obtain ⟨_, _, _, _, -, -, rfl⟩ | ⟨_, _, _, _, _, _, same, -, known, rfl⟩ := (functionRename_run {}).mp made
    · exact .moved (by decide)
    · exact .renamed same (mem_of_get? known)
  | inlineFunction =>
    obtain ⟨_, _, _, _, _, _, _, _, -, -, answer, rfl⟩ | ⟨_, _, _, _, _, -, -, rfl⟩ := (inlineFunction_run {}).mp made
    · exact .bound answer
    · exact .stored _
  | compositeLiteral =>
    obtain ⟨_, _, _, _, _, -, -, -, -, answer⟩ := (compositeLiteral_run {}).mp made
    obtain ⟨m, fields, -, -, rfl⟩ := literal?_eq_some answer
    exact .place (.inr (.inr rfl))

theorem Offered.made {stage : Stage} {c : Context} {t u : Tree} (h : Offered stage c t u) : u = t ∨ Made c t u := by
  rw [h.eq_made]
  obtain ⟨-, same⟩ | ⟨r, -, made⟩ := stage.made_cases c t
  · exact .inl same
  · exact .inr (Rewriter.made made)

theorem passes_of_not_offered {stage : Stage} {c : Context} {t : Tree} (closed : isOffered t = false) :
    Passes stage c t := fun r _ => made?_of_not_offered closed r

theorem offer_eq_made (stage : Stage) (c : Context) (t : Tree) (s : State) :
    ∃ s', (stage.offer c t).run s = (stage.made c t, s') := ⟨_, Prod.ext (stage.offer_run c t s) rfl⟩

theorem WalksAll.any_state {stage : Stage} {c : Context} {ts ts' : Trees} {s s' : State}
    (h : WalksAll stage c ts s ts' s') (s₂ : State) : ∃ s₂', WalksAll stage c ts s₂ ts' s₂' := by
  have again : ∀ {t u : Tree} {s s₁ : State}, (stage.offer c t).run s = (u, s₁) → ∀ s₂,
      ∃ s₂', (stage.offer c t).run s₂ = (u, s₂') := by
    intro t u s s₁ offered s₂
    rw [Offered.eq_made ⟨s, s₁, offered⟩]
    exact offer_eq_made stage c t s₂
  induction h generalizing s₂ with
  | nil s => exact ⟨s₂, .nil s₂⟩
  | leaf offered _ ih =>
    obtain ⟨s₃, offered'⟩ := again offered s₂
    obtain ⟨s₄, rest⟩ := ih s₃
    exact ⟨s₄, .leaf offered' rest⟩
  | group offered _ _ ihInner ih =>
    obtain ⟨s₃, offered'⟩ := again offered s₂
    obtain ⟨s₄, inner⟩ := ihInner s₃
    obtain ⟨s₅, rest⟩ := ih s₄
    exact ⟨s₅, .group offered' inner rest⟩
  | elements offered found _ _ ihInner ih =>
    obtain ⟨s₃, offered'⟩ := again offered s₂
    obtain ⟨s₄, inner⟩ := ihInner s₃
    obtain ⟨s₅, rest⟩ := ih s₄
    exact ⟨s₅, .elements offered' found inner rest⟩
  | closed offered noList _ ih =>
    obtain ⟨s₃, offered'⟩ := again offered s₂
    obtain ⟨s₄, rest⟩ := ih s₃
    exact ⟨s₄, .closed offered' noList rest⟩
  | node offered opened _ _ ihInner ih =>
    obtain ⟨s₃, offered'⟩ := again offered s₂
    obtain ⟨s₄, inner⟩ := ihInner s₃
    obtain ⟨s₅, rest⟩ := ih s₄
    exact ⟨s₅, .node offered' opened inner rest⟩

namespace Walked
variable {stage : Stage} {c : Context}

theorem of_passes {k : Kind} {parts parts' : Trees} {s s' : State} (passes : Passes stage c (.node k parts))
    (opened : k ≠ .macroBody) (inner : WalksAll stage c parts s parts' s') :
    Walked stage c (.node k parts) (.node k (regroup k parts')) := by
  obtain ⟨s₁, offered⟩ := offer_eq_made stage c (.node k parts) s
  rw [Stage.made_of_passes passes] at offered
  obtain ⟨s₂, inner'⟩ := inner.any_state s₁
  exact ⟨s, s₂, .node offered opened inner' (.nil s₂)⟩

theorem of_made {t t' : Tree} {k : Kind} {parts : Trees} (made : stage.made c t = .node k parts) (opened : k ≠ .macroBody)
    (h : Walked stage c t t') : ∃ walked s s', t' = .node k (regroup k walked) ∧ WalksAll stage c parts s walked s' := by
  obtain ⟨s, s', h⟩ := h
  have same : ∀ {u s s₁}, (stage.offer c t).run s = (u, s₁) → u = .node k parts := fun offered =>
    (Offered.eq_made ⟨_, _, offered⟩).trans made
  cases h with
  | leaf offered => cases same offered
  | group offered => cases same offered
  | elements offered => cases same offered; exact absurd rfl opened
  | closed offered => cases same offered; exact absurd rfl opened
  | node offered _ inner => cases same offered; exact ⟨_, _, _, rfl, inner⟩

theorem node_of_passes {k : Kind} {parts : Trees} {t' : Tree} (passes : Passes stage c (.node k parts))
    (opened : k ≠ .macroBody) (h : Walked stage c (.node k parts) t') :
    ∃ walked, t' = .node k (regroup k walked) ∧ List.Forall₂ (Walked stage c) parts walked := by
  obtain ⟨walked, _, _, rfl, inner⟩ := h.of_made (Stage.made_of_passes passes) opened
  exact ⟨walked, rfl, inner.forall₂⟩

theorem passes_of_node {k : Kind} {t : Tree} {parts' : Trees} (passes : Passes stage c t) (opened : k ≠ .macroBody)
    (h : Walked stage c t (.node k parts')) : ∃ parts walked, t = .node k parts ∧
      List.Forall₂ (Walked stage c) parts walked ∧ parts' = regroup k walked := by
  obtain ⟨parts, walked, offered, inner, same⟩ := h.of_node opened
  have kept := offered.eq_made
  rw [Stage.made_of_passes passes] at kept
  exact ⟨parts, walked, kept.symm, inner, same⟩

theorem plain_of_passes {k : Kind} {t : Tree} {parts' : Trees} (passes : Passes stage c t) (opened : k ≠ .macroBody)
    (plain : ∀ parts, regroup k parts = parts) (h : Walked stage c t (.node k parts')) :
    ∃ parts, t = .node k parts ∧ List.Forall₂ (Walked stage c) parts parts' := by
  obtain ⟨parts, walked, rfl, inner, same⟩ := h.passes_of_node passes opened
  rw [plain] at same
  exact ⟨parts, rfl, same ▸ inner⟩

theorem eq_group {t' : Tree} {d : Delim} {body : Trees} (h : Walked stage c (.group d body) t') :
    ∃ body', t' = .group d body' ∧ List.Forall₂ (Walked stage c) body body' := by
  obtain ⟨s, s', h⟩ := h
  have same : ∀ {u s s₁}, (stage.offer c (.group d body)).run s = (u, s₁) → u = .group d body := fun offered => by
    rw [Offered.eq_made ⟨_, _, offered⟩, Stage.made_of_passes (passes_of_not_offered rfl)]
  cases h with
  | leaf offered => cases same offered
  | group offered inner => cases same offered; exact ⟨_, rfl, inner.forall₂⟩
  | elements offered => cases same offered
  | closed offered => cases same offered
  | node offered => cases same offered

theorem leaf_eq {t : Tree} {token : Token} (h : Walked stage c t (.leaf token)) : t = .leaf token := by
  rw [← outline_eq_leaf, ← h.outline_eq]
  rfl

theorem eq_leaf {t' : Tree} {token : Token} (h : Walked stage c (.leaf token) t') : t' = .leaf token := by
  rw [← outline_eq_leaf, h.outline_eq]
  rfl

theorem tried_eq {t a e mark : Tree} (h : Walked stage c t (.node (.expr .tried) [a, e, mark])) :
    ∃ a' e' mark', t = .node (.expr .tried) [a', e', mark'] ∧ Walked stage c e' e := by
  obtain ⟨parts, rfl, inner⟩ := h.plain_eq (by decide) (by decide) fun _ => rfl
  obtain ⟨a', e', mark', rfl, -, he, -⟩ := forall₂_three inner
  exact ⟨a', e', mark', rfl, he⟩

theorem reference_eq {t a b m e : Tree} (h : Walked stage c t (.node (.expr .reference) [a, b, m, e])) :
    ∃ a' b' m' e', t = .node (.expr .reference) [a', b', m', e'] ∧ Walked stage c e' e := by
  obtain ⟨parts, rfl, inner⟩ := h.plain_eq (by decide) (by decide) fun _ => rfl
  obtain ⟨a', _, -, more, rfl⟩ := List.forall₂_cons_right_iff.mp inner
  obtain ⟨b', m', e', rfl, -, -, he⟩ := forall₂_three more
  exact ⟨a', b', m', e', rfl, he⟩

theorem init_eq {t eq value other : Tree} (h : Walked stage c t (.node .init [eq, value, other])) :
    ∃ eq' value' other', t = .node .init [eq', value', other'] ∧ Walked stage c value' value ∧
      Walked stage c other' other := by
  obtain ⟨parts, rfl, inner⟩ := h.plain_eq (by decide) (by decide) fun _ => rfl
  obtain ⟨eq', value', other', rfl, -, hv, ho⟩ := forall₂_three inner
  exact ⟨eq', value', other', rfl, hv, ho⟩

theorem methodCall_eq {t a receiver dot : Tree} {m : String} {rest : Trees} (other : m ∉ movedMethods)
    (h : Walked stage c t (.node (.expr .methodCall) (a :: receiver :: dot :: word m :: rest))) :
    ∃ a' receiver' dot' rest', t = .node (.expr .methodCall) (a' :: receiver' :: dot' :: word m :: rest') ∧
      Walked stage c receiver' receiver ∧ List.Forall₂ (Walked stage c) rest' rest := by
  obtain ⟨parts, walked, offered, inner, same⟩ := h.of_node (by decide)
  have same : walked = a :: receiver :: dot :: word m :: rest := same.symm
  subst same
  simp only [List.forall₂_cons_right_iff] at inner
  obtain ⟨_, _, -, ⟨_, _, hr, ⟨_, _, -, ⟨_, _, hm, inner, rfl⟩, rfl⟩, rfl⟩, rfl⟩ := inner
  obtain rfl := hm.leaf_eq
  rcases offered.made with same | made
  · exact ⟨_, _, _, _, same.symm, hr, inner⟩
  · cases made with
    | place access => rcases access with access | access | access <;> cases access
    | moved listed => exact absurd listed other

theorem stripParens {t t' : Tree} (h : Walked stage c t t') :
    ∃ u, Walked stage c u t'.stripParens ∧ t.stripParens = u.stripParens := by
  fun_induction Tree.stripParens t' generalizing t with
  | case1 a d e' ih =>
    obtain ⟨a', e, rfl, he⟩ := h.paren_eq
    obtain ⟨u, walked, same⟩ := ih he
    exact ⟨u, walked, same⟩
  | case2 t' plain => exact ⟨t, h, rfl⟩

theorem isSegment_eq {t t' : Tree} (h : Walked stage c t t') : t'.isSegment = t.isSegment := by
  rw [Bool.eq_iff_iff]
  constructor
  · intro segment
    unfold Tree.isSegment at segment
    split at segment
    · obtain ⟨parts, walked, rfl, -, -⟩ := h.node_eq (by decide) (by decide)
      rfl
    · cases segment
  · intro segment
    unfold Tree.isSegment at segment
    split at segment
    · obtain ⟨walked, rfl, -⟩ := h.node_of_passes (passes_of_not_offered rfl) (by decide)
      rfl
    · cases segment

theorem segmentName?_eq {t t' : Tree} (h : Walked stage c t t') : segmentName? t' = segmentName? t := by
  refine Option.ext fun name => ?_
  rw [segmentName?_eq_some, segmentName?_eq_some]
  constructor
  · rintro ⟨args, rfl⟩
    obtain ⟨parts, rfl, inner⟩ := h.plain_eq (by decide) (by decide) fun _ => rfl
    obtain ⟨_, _, rfl, hn, -⟩ := forall₂_two inner
    exact ⟨_, by rw [hn.leaf_eq, word]⟩
  · rintro ⟨args, rfl⟩
    obtain ⟨walked, rfl, inner⟩ := h.node_of_passes (passes_of_not_offered rfl) (by decide)
    simp only [List.forall₂_cons_left_iff, List.forall₂_nil_left_iff] at inner
    obtain ⟨_, _, hn, ⟨_, _, -, rfl, rfl⟩, rfl⟩ := inner
    exact ⟨_, by rw [hn.eq_leaf]; rfl⟩

theorem segmentNames_of_parts {parts parts' : Trees} (h : List.Forall₂ (Walked stage c) parts parts') :
    (parts'.filter (·.isSegment)).filterMap segmentName? = (parts.filter (·.isSegment)).filterMap segmentName? := by
  induction h with
  | nil => rfl
  | cons first _ ih =>
    rw [List.filter_cons, List.filter_cons, first.isSegment_eq]
    split
    · rw [List.filterMap_cons, List.filterMap_cons, first.segmentName?_eq, ih]
    · exact ih

theorem segmentNames_eq {t t' : Tree} (h : Walked stage c t t') : t'.segmentNames = t.segmentNames := by
  by_cases path : ∃ k parts, t = .node k parts ∧ (k = .path ∨ k = .qualified)
  · obtain ⟨k, parts, rfl, rfl | rfl⟩ := path
    · obtain ⟨walked, rfl, inner⟩ := h.node_of_passes (passes_of_not_offered rfl) (by decide)
      exact segmentNames_of_parts inner
    · obtain ⟨walked, rfl, inner⟩ := h.node_of_passes (passes_of_not_offered rfl) (by decide)
      exact segmentNames_of_parts inner
  · have empty : ∀ u : Tree, (¬∃ k parts, u = .node k parts ∧ (k = .path ∨ k = .qualified)) → u.segmentNames = [] := by
      intro u noPath
      rw [Tree.segmentNames, Tree.segments.eq_def]
      split
      · exact absurd ⟨_, _, rfl, .inl rfl⟩ noPath
      · exact absurd ⟨_, _, rfl, .inr rfl⟩ noPath
      · rfl
    rw [empty t path, empty t' ?_]
    rintro ⟨k, parts, rfl, rfl | rfl⟩
    · obtain ⟨parts, _, rfl, -, -⟩ := h.node_eq (by decide) (by decide)
      exact path ⟨_, _, rfl, .inl rfl⟩
    · obtain ⟨parts, _, rfl, -, -⟩ := h.node_eq (by decide) (by decide)
      exact path ⟨_, _, rfl, .inr rfl⟩

theorem pathString_eq {t t' : Tree} (h : Walked stage c t t') : t'.pathString = t.pathString := by
  rw [Tree.pathString, Tree.pathString, h.segmentNames_eq]

theorem pathIdent?_eq {t t' : Tree} (h : Walked stage c t t') : t'.pathIdent? = t.pathIdent? := by
  refine Option.ext fun name => ?_
  rw [← outline_eq_path, ← outline_eq_path, h.outline_eq]

theorem members {ts ts' : Trees} (h : List.Forall₂ (Walked stage c) ts ts') :
    List.Forall₂ (Walked stage c) (Trees.members ts) (Trees.members ts') := by
  refine List.rel_filter (fun t t' walked => ?_) h
  have same : t'.isOp "," = t.isOp "," := by rw [← isComma_outline, ← isComma_outline, walked.outline_eq]
  simp only [same]

theorem exprPath_eq {t attrs path : Tree} (h : Walked stage c t (.node (.expr .path) [attrs, path])) :
    ∃ attrs' path', t = .node (.expr .path) [attrs', path'] ∧ path.pathString = path'.pathString := by
  obtain ⟨parts, rfl, inner⟩ := h.plain_eq (by decide) (by decide) fun _ => rfl
  obtain ⟨_, _, rfl, -, hp⟩ := forall₂_two inner
  exact ⟨_, _, rfl, hp.pathString_eq⟩

theorem call_offered {t a attrs path : Tree} {d : Delim} {args : Trees}
    (h : Walked stage c t (.node (.expr .call) [a, .node (.expr .path) [attrs, path], .group d args])) :
    ∃ a' attrs' path' args',
      Offered stage c t (.node (.expr .call) [a', .node (.expr .path) [attrs', path'], .group d args']) ∧
      path.pathString = path'.pathString ∧ List.Forall₂ (Walked stage c) args' args := by
  obtain ⟨a', callee', args', offered, hc, hargs⟩ := h.call_eq (by rintro _ ⟨⟩)
  obtain ⟨attrs', path', rfl, same⟩ := hc.exprPath_eq
  exact ⟨a', attrs', path', args', offered, same, hargs⟩

theorem unknown_of_offered (steady : Steady c) {t a attrs path : Tree} {rest : Trees}
    (offered : Offered stage c t (.node (.expr .call) (a :: .node (.expr .path) [attrs, path] :: rest))) :
    t = .node (.expr .call) (a :: .node (.expr .path) [attrs, path] :: rest) ∨ Unknown c path.pathString := by
  rcases offered.made with same | made
  · exact .inl same.symm
  · cases made with
    | place access => rcases access with access | access | access <;> cases access
    | renamed _ listed =>
      obtain ⟨_, _, ⟨⟩, unknown⟩ := steady.targets _ listed
      exact .inr unknown

theorem callPath?_offered {t t' : Tree} {path : String} {args' : Trees} (h : Walked stage c t t')
    (called : t'.callPath? = some (path, args')) : ∃ u a attrs p d args,
      Offered stage c u (.node (.expr .call) [a, .node (.expr .path) [attrs, p], .group d args]) ∧
      t.stripParens = u.stripParens ∧ p.pathString = path ∧ List.Forall₂ (Walked stage c) (Trees.members args) args' := by
  obtain ⟨a, attrs, p, d, body, bare, rfl, rfl⟩ := callPath?_eq_some.mp called
  obtain ⟨u, walked, same⟩ := h.stripParens
  rw [bare] at walked
  obtain ⟨a', attrs', p', body', offered, named, inner⟩ := walked.call_offered
  exact ⟨u, a', attrs', p', d, body', offered, same, named.symm, members inner⟩

/-- A call of a path after a walk was one before, unless no rewriter knows the path. -/
theorem callPath? (steady : Steady c) {t t' : Tree} {path : String} {args' : Trees} (h : Walked stage c t t')
    (called : t'.callPath? = some (path, args')) :
    Unknown c path ∨ ∃ args, t.callPath? = some (path, args) ∧ List.Forall₂ (Walked stage c) args args' := by
  obtain ⟨u, a, attrs, p, d, args, offered, bare, rfl, inner⟩ := h.callPath?_offered called
  rcases unknown_of_offered steady offered with rfl | unknown
  · exact .inr ⟨_, callPath?_eq_some.mpr ⟨a, attrs, p, d, args, bare, rfl, rfl⟩, inner⟩
  · exact .inl unknown

theorem typePath? {t t' path' : Tree} (h : Walked stage c t t') (found : t'.typePath? = some path') :
    ∃ path, t.typePath? = some path ∧ path'.lastSegment? = path.lastSegment? := by
  obtain rfl := typePath?_eq_some.mp found
  obtain ⟨parts, rfl, inner⟩ := h.plain_eq (by decide) (by decide) fun _ => rfl
  simp only [List.forall₂_cons_right_iff, List.forall₂_nil_right_iff] at inner
  obtain ⟨path, _, hp, rfl, rfl⟩ := inner
  exact ⟨path, rfl, by rw [Tree.lastSegment?, Tree.lastSegment?, hp.segmentNames_eq]⟩

theorem isClientDowncast {client : String} {t t' : Tree} (h : Walked stage c t t')
    (found : isClientDowncast client t' = true) : Rewrite.isClientDowncast client t = true := by
  fun_induction Rewrite.isClientDowncast client t' generalizing t with
  | case1 a d e ih =>
    obtain ⟨_, _, rfl, he⟩ := h.paren_eq
    rw [Rewrite.isClientDowncast]
    exact ih he found
  | case2 a e mark ih =>
    obtain ⟨_, _, _, rfl, he⟩ := h.tried_eq
    rw [Rewrite.isClientDowncast]
    exact ih he found
  | case3 a receiver dot m turbofish args unwraps ih =>
    have other : m ∉ movedMethods := by
      rcases Bool.or_eq_true_iff.mp unwraps with named | named <;> (rw [beq_iff_eq.mp named]; decide)
    obtain ⟨_, r, _, rest, rfl, hr, inner⟩ := h.methodCall_eq other
    obtain ⟨_, _, rfl, -, -⟩ := forall₂_two inner
    rw [word, Rewrite.isClientDowncast.eq_def]
    simp only [unwraps, if_true]
    exact ih hr found
  | case4 a receiver dot m mark noUnwrap isDowncast b o first rest =>
    rw [beq_iff_eq.mp isDowncast] at h
    obtain ⟨_, r, _, rest', rfl, -, inner⟩ := h.methodCall_eq (by decide)
    obtain ⟨_, _, rfl, ht, -⟩ := forall₂_two inner
    obtain ⟨parts, rfl, generics⟩ := ht.plain_eq (by decide) (by decide) fun _ => rfl
    simp only [List.forall₂_cons_right_iff] at generics
    obtain ⟨_, _, -, ⟨_, _, -, ⟨_, _, hf, -, rfl⟩, rfl⟩, rfl⟩ := generics
    obtain ⟨path', isPath', named⟩ := (Option.any_eq_true _ _).mp found
    obtain ⟨path, isPath, same⟩ := hf.typePath? isPath'
    simpa [word, Rewrite.isClientDowncast, isPath, ← same] using named
  | case5 => cases found
  | case6 => cases found
  | case7 => cases found

theorem stringText_methodCall {a receiver dot turbofish : Tree} {m : String} {d : Delim}
    (text : Naming.textMethods.contains m = true) :
    Naming.stringText (.node (.expr .methodCall) [a, receiver, dot, word m, turbofish, .group d []]) =
      Naming.stringText receiver := by
  rw [word, Naming.stringText, if_pos text]

mutual
theorem stringText (steady : Steady c) (t' : Tree) {t : Tree} {s : String} (h : Walked stage c t t')
    (text : Naming.stringText t' = some s) : Naming.stringText t = some s := by
  unfold Naming.stringText at text
  split at text
  · rename_i e'
    obtain ⟨_, e, rfl, he⟩ := h.paren_eq
    rw [Naming.stringText]
    exact stringText steady e' he text
  · rename_i e'
    obtain ⟨_, _, _, e, rfl, he⟩ := h.reference_eq
    rw [Naming.stringText]
    exact stringText steady e' he text
  · rename_i a literal
    obtain ⟨parts, rfl, inner⟩ := h.plain_eq (by decide) (by decide) fun _ => rfl
    obtain ⟨_, _, rfl, -, hl⟩ := forall₂_two inner
    rw [hl.leaf_eq, Naming.stringText]
    exact text
  · rename_i a receiver' dot m turbofish d
    split at text
    · rename_i listed
      have other : m ∉ movedMethods := by
        simp only [Naming.textMethods, List.contains_eq_mem, List.mem_cons, List.not_mem_nil, or_false,
          decide_eq_true_eq] at listed
        rcases listed with rfl | rfl | rfl <;> decide
      obtain ⟨_, receiver, _, rest, rfl, hr, inner⟩ := h.methodCall_eq other
      obtain ⟨_, _, rfl, -, hg⟩ := forall₂_two inner
      obtain ⟨_, rfl, none⟩ := hg.group_eq
      cases none
      rw [stringText_methodCall listed]
      exact stringText steady receiver' hr text
    · cases text
  · rename_i a attrs path d args'
    split at text
    · rename_i one
      rw [Bool.and_eq_true, beq_iff_eq, beq_iff_eq] at one
      obtain ⟨_, _, path', args, offered, named, inner⟩ := h.call_offered
      rcases unknown_of_offered steady offered with rfl | unknown
      · have single : (path'.pathString == "String::from" && (Trees.members args).length == 1) = true := by
          rw [← named, one.1, (members inner).length_eq, one.2]
          rfl
        rw [Naming.stringText, if_pos single]
        exact firstText steady args' inner text
      · exact absurd one.1 (named ▸ unknown.text)
    · cases text
  · cases text

theorem firstText (steady : Steady c) (ts' : List Tree) {ts : Trees} {s : String}
    (h : List.Forall₂ (Walked stage c) ts ts') (text : Naming.firstText ts' = some s) : Naming.firstText ts = some s := by
  cases h with
  | nil => cases text
  | @cons t t' _ _ first _ => exact stringText steady t' first text
end

theorem keySteps (steady : Steady c) {key key' : Tree} {steps : List PathStep} (h : Walked stage c key key')
    (known : Rewrite.keySteps c key' = some steps) : Rewrite.keySteps c key = some steps := by
  obtain ⟨tag, text, resolved⟩ := Option.bind_eq_some_iff.mp known
  rw [Rewrite.keySteps, stringText steady key' h text]
  exact resolved

theorem setCall {e e' : Tree} {args' : Trees} (h : Walked stage c e e') (write : SetCall c e' args') :
    ∃ args, SetCall c e args ∧ List.Forall₂ (Walked stage c) args args' := by
  induction write generalizing e with
  | call accessor =>
    obtain ⟨_, receiver, _, rest, rfl, hr, inner⟩ := h.methodCall_eq (by decide)
    obtain ⟨_, _, rfl, -, hg⟩ := forall₂_two inner
    obtain ⟨args, rfl, hargs⟩ := hg.group_eq
    exact ⟨_, .call (hr.isAccessor_eq ▸ accessor), members hargs⟩
  | paren _ ih =>
    obtain ⟨_, e, rfl, he⟩ := h.paren_eq
    obtain ⟨args, found, walked⟩ := ih he
    exact ⟨args, .paren found, walked⟩
  | tried _ ih =>
    obtain ⟨_, e, _, rfl, he⟩ := h.tried_eq
    obtain ⟨args, found, walked⟩ := ih he
    exact ⟨args, .tried found, walked⟩
  | mapErr _ ih =>
    obtain ⟨_, receiver, _, rest, rfl, hr, inner⟩ := h.methodCall_eq (by decide)
    obtain ⟨_, _, rfl, -, hg⟩ := forall₂_two inner
    obtain ⟨handler, rfl, -⟩ := hg.group_eq
    obtain ⟨args, found, walked⟩ := ih hr
    exact ⟨args, .mapErr found, walked⟩

theorem not_setCall_promoted (steady : Steady c) {value v : Tree} {args : Trees} (answer : promoted? c value = some v) :
    ¬SetCall c v args := by
  obtain ⟨⟨name, signature, given⟩, -, rfl⟩ := Option.map_eq_some_iff.mp answer
  have noCall : ∀ m given, ¬SetCall c (methodCallOf (var "self") m given) args := by
    intro m given write
    cases write with
    | call accessor =>
      rw [steady.receiver] at accessor
      cases accessor
    | mapErr inner => cases inner
  intro write
  dsimp only at write
  unfold retry at write
  split at write
  · cases write with
    | tried inner => exact noCall _ _ inner
  · exact noCall _ _ write

theorem stmt_cases {t e' semi' : Tree} (h : Walked stage c t (.node (.stmt .expr) [e', semi'])) : ∃ e semi,
    Walked stage c e e' ∧ Walked stage c semi semi' ∧ (t = .node (.stmt .expr) [e, semi] ∨
      semi.isAbsent = false ∧ ∃ target value, e = .node (.expr .assign) [noAttrs, target, op "=", value]) := by
  obtain ⟨parts, walked, offered, inner, same⟩ := h.of_node (by decide)
  have same : walked = [e', semi'] := same.symm
  subst same
  obtain ⟨_, _, rfl, he, hs⟩ := forall₂_two inner
  refine ⟨_, _, he, hs, ?_⟩
  rcases offered.made with same | made
  · exact .inl same.symm
  · cases made with
    | place access => rcases access with access | access | access <;> cases access
    | assigned target value => exact .inr ⟨rfl, target, value, rfl⟩

theorem bind_cases {t a' w' pat' init' semi' : Tree}
    (h : Walked stage c t (.node (.stmt .bind) [a', w', pat', init', semi'])) : ∃ a w pat init semi,
      Walked stage c pat pat' ∧ Walked stage c init init' ∧ (t = .node (.stmt .bind) [a, w, pat, init, semi] ∨
        ∃ eq value other v, init = .node .init [eq, v, other] ∧ promoted? c value = some v) := by
  obtain ⟨parts, walked, offered, inner, same⟩ := h.of_node (by decide)
  have same : walked = [a', w', pat', init', semi'] := same.symm
  subst same
  obtain ⟨a, _, -, more, rfl⟩ := List.forall₂_cons_right_iff.mp inner
  obtain ⟨w, _, -, last, rfl⟩ := List.forall₂_cons_right_iff.mp more
  obtain ⟨pat, init, semi, rfl, hp, hi, -⟩ := forall₂_three last
  refine ⟨a, w, pat, init, semi, hp, hi, ?_⟩
  rcases offered.made with same | made
  · exact .inl same.symm
  · cases made with
    | place access => rcases access with access | access | access <;> cases access
    | bound answer => exact .inr ⟨_, _, _, _, rfl, answer⟩

theorem guardedCall {cond cond' : Tree} {args' : Trees} (h : Walked stage c cond cond')
    (write : Rewrite.guardedCall c cond' = some args') :
    ∃ args, Rewrite.guardedCall c cond = some args ∧ List.Forall₂ (Walked stage c) args args' := by
  obtain ⟨a', w', head', path', binders', eq', value', bare', err, inner'⟩ := guardedCall_eq_some.mp write
  obtain ⟨u, hu, bare⟩ := h.stripParens
  rw [bare'] at hu
  obtain ⟨parts, rfl, inner⟩ := hu.plain_eq (by decide) (by decide) fun _ => rfl
  obtain ⟨_, _, -, more, rfl⟩ := List.forall₂_cons_right_iff.mp inner
  obtain ⟨_, _, -, last, rfl⟩ := List.forall₂_cons_right_iff.mp more
  obtain ⟨pat, eq, value, rfl, hp, -, hv⟩ := forall₂_three last
  obtain ⟨parts, rfl, bound⟩ := hp.plain_eq (by decide) (by decide) fun _ => rfl
  simp only [List.forall₂_cons_right_iff] at bound
  obtain ⟨_, _, -, ⟨_, _, hpath, -, rfl⟩, rfl⟩ := bound
  obtain ⟨args, inner, walked⟩ := hv.setCall inner'
  exact ⟨args, guardedCall_eq_some.mpr ⟨_, _, _, _, _, _, _, bare, hpath.pathIdent?_eq ▸ err, inner⟩, walked⟩

theorem setStatement (steady : Steady c) {t t' : Tree} {args' : Trees} (h : Walked stage c t t')
    (write : Rewrite.setStatement c t' = some args') :
    ∃ args, Rewrite.setStatement c t = some args ∧ List.Forall₂ (Walked stage c) args args' := by
  cases setStatement_eq_some.mp write with
  | closed semicolon inner =>
    obtain ⟨e, semi, he, hs, rfl | ⟨-, target, value, rfl⟩⟩ := h.stmt_cases
    · obtain ⟨args, inner, walked⟩ := he.setCall inner
      exact ⟨args, setStatement_eq_some.mpr (.closed (hs.isAbsent_eq ▸ semicolon) inner), walked⟩
    · obtain ⟨_, inner, -⟩ := he.setCall inner
      cases inner
  | discarded noElse inner =>
    obtain ⟨a, w, pat, init, semi, hp, hi, made⟩ := h.bind_cases
    obtain ⟨wild, _, rfl, -, -⟩ := hp.node_eq (by decide) (by decide)
    obtain ⟨eq, value, other, rfl, hv, ho⟩ := hi.init_eq
    obtain ⟨args, inner, walked⟩ := hv.setCall inner
    rcases made with rfl | ⟨_, _, _, _, ⟨⟩, answer⟩
    · exact ⟨args, setStatement_eq_some.mpr (.discarded (ho.isAbsent_eq ▸ noElse) inner), walked⟩
    · exact absurd inner (not_setCall_promoted steady answer)
  | @guarded a w cond body other semi _ _ _ _ _ _ _ _ noElse bare err inner =>
    obtain ⟨e, semi₀, he, hs, made⟩ := h.stmt_cases
    obtain ⟨parts, walked, rfl, parted, same⟩ := he.node_eq (by decide) (by decide)
    obtain ⟨cond', rfl, rfl⟩ := regroup_ifElse same.symm
    have guard := guardedCall_of_shield (guardedCall_eq_some.mpr ⟨_, _, _, _, _, _, _, bare, err, inner⟩)
    obtain ⟨_, _, -, more, rfl⟩ := List.forall₂_cons_right_iff.mp parted
    obtain ⟨_, _, -, last, rfl⟩ := List.forall₂_cons_right_iff.mp more
    obtain ⟨_, _, other₀, rfl, hc, -, ho⟩ := forall₂_three last
    obtain ⟨args, guard, walked⟩ := hc.guardedCall guard
    rcases made with rfl | ⟨-, _, _, ⟨⟩⟩
    have absent : other₀.isAbsent = true := ho.isAbsent_eq ▸ noElse
    exact ⟨args, by rw [Rewrite.setStatement, if_pos absent, guard], walked⟩

theorem isAcquisition_iff {t : Tree} : isAcquisition c t = true ↔ ∃ a w pat eq value other semi path args,
    t = .node (.stmt .bind) [a, w, pat, .node .init [eq, value, other], semi] ∧
      value.callPath? = some (path, args) ∧ path.startsWith (c.config.timeoutModule ++ "::for_") = true := by
  unfold isAcquisition
  constructor
  · intro h
    split at h
    · obtain ⟨⟨path, args⟩, called, timeout⟩ := (Option.any_eq_true _ _).mp h
      exact ⟨_, _, _, _, _, _, _, path, args, rfl, called, timeout⟩
    · cases h
  · rintro ⟨a, w, pat, eq, value, other, semi, path, args, rfl, called, timeout⟩
    simp only [called, Option.any_some, timeout]

theorem callPath?_promoted {value v : Tree} (answer : promoted? c value = some v) : v.callPath? = none := by
  obtain ⟨⟨name, signature, given⟩, -, rfl⟩ := Option.map_eq_some_iff.mp answer
  dsimp only
  unfold retry
  split <;> rfl

theorem isAcquisition (steady : Steady c) {t t' : Tree} (h : Walked stage c t t')
    (found : Rewrite.isAcquisition c t' = true) : Rewrite.isAcquisition c t = true := by
  obtain ⟨_, _, _, _, _, _, _, path, args', rfl, called, timeout⟩ := isAcquisition_iff.mp found
  obtain ⟨a, w, pat, init, semi, -, hi, made⟩ := h.bind_cases
  obtain ⟨eq, value, other, rfl, hv, -⟩ := hi.init_eq
  rcases hv.callPath? steady called with unknown | ⟨args, called, -⟩
  · rw [unknown.timeout] at timeout
    cases timeout
  · rcases made with rfl | ⟨_, _, _, _, ⟨⟩, answer⟩
    · exact isAcquisition_iff.mpr ⟨_, _, _, _, _, _, _, _, _, rfl, called, timeout⟩
    · rw [callPath?_promoted answer] at called
      cases called

theorem isVar_bare_eq {e e' : Tree} (name : String) (h : Walked stage c e e') : e'.bare.isVar name = e.bare.isVar name := by
  rw [Tree.isVar, Tree.isVar, ← outline_var?, ← outline_var?, h.outline_eq]

theorem setIdArgument? {a : String} {t t' arg' : Tree} (h : Walked stage c t t')
    (found : Rewrite.setIdArgument? a t' = some arg') : ∃ arg, Rewrite.setIdArgument? a t = some arg := by
  obtain ⟨e', semi', receiver', turbofish', rfl, semicolon, called, accessor⟩ := setIdArgument?_eq_some.mp found
  obtain ⟨e, semi, he, hs, made⟩ := h.stmt_cases
  obtain ⟨u, walked, bare⟩ := he.stripParens
  obtain ⟨_, _, d, body, bare', one⟩ := methodCall?_eq_some.mp called
  rw [bare'] at walked
  obtain ⟨_, receiver, _, rest, rfl, hr, inner⟩ := walked.methodCall_eq (by decide)
  obtain ⟨turbofish, _, rfl, -, hg⟩ := forall₂_two inner
  obtain ⟨args, rfl, hargs⟩ := hg.group_eq
  have single := members hargs
  rw [one] at single
  obtain ⟨arg, same⟩ := List.length_eq_one_iff.mp single.length_eq
  rcases made with rfl | ⟨-, _, _, rfl⟩
  · refine ⟨arg, setIdArgument?_eq_some.mpr ⟨e, semi, receiver, turbofish, rfl, hs.isAbsent_eq ▸ semicolon, ?_, ?_⟩⟩
    · rw [bare]
      exact methodCall?_eq_some.mpr ⟨_, _, d, args, rfl, same⟩
    · rw [← hr.isVar_bare_eq, accessor]
  · cases bare

theorem isReadCall (steady : Steady c) {e e' : Tree} (h : Walked stage c e e')
    (read : Rewrite.isReadCall c e' = true) : Rewrite.isReadCall c e = true := by
  unfold Rewrite.isReadCall at read
  split at read
  · rename_i path first' rest' called
    rw [Bool.and_eq_true, beq_iff_eq] at read
    rcases h.callPath? steady called with unknown | ⟨args, called, walked⟩
    · exact absurd read.1 unknown.read
    · cases walked with
      | cons hf _ =>
        rw [Rewrite.isReadCall, called]
        simp only [read.1, beq_self_eq_true, ← hf.isAccessor_eq, read.2, Bool.and_self]
  · cases read

theorem isReadCall_returnEarly {parts : Trees} : Rewrite.isReadCall c (.node (.expr .returnEarly) parts) = false := by
  have noCall : (Code.Tree.node (.expr .returnEarly) parts).callPath? = none := rfl
  rw [Rewrite.isReadCall, noCall]

theorem readToSuccess?_ne_none {s : Tree} : readToSuccess? c s ≠ none ↔
    (∃ a w value semi, s = .node (.stmt .expr) [.node (.expr .returnEarly) [a, w, value], semi] ∧
      Rewrite.isReadCall c value = true) ∨
    ∃ e semi, s = .node (.stmt .expr) [e, semi] ∧ semi.isAbsent = true ∧ Rewrite.isReadCall c e = true := by
  unfold readToSuccess?
  constructor
  · intro h
    split at h
    · split at h
      · exact .inl ⟨_, _, _, _, rfl, ‹_›⟩
      · exact absurd rfl h
    · split at h
      · rename_i both
        exact .inr ⟨_, _, rfl, Bool.and_eq_true_iff.mp both⟩
      · exact absurd rfl h
    · exact absurd rfl h
  · rintro (⟨a, w, value, semi, rfl, read⟩ | ⟨e, semi, rfl, absent, read⟩)
    · simp [read]
    · split
      · rename_i same
        cases same
        rw [isReadCall_returnEarly] at read
        cases read
      · rename_i same
        cases same
        simp [absent, read]
      · rename_i other
        exact absurd rfl (other _ _)

theorem readToSuccess? (steady : Steady c) {s s' : Tree} (h : Walked stage c s s')
    (passed : Rewrite.readToSuccess? c s = none) : Rewrite.readToSuccess? c s' = none := by
  by_contra found
  rcases readToSuccess?_ne_none.mp found with ⟨a, w, value', semi', rfl, read⟩ | ⟨e', semi', rfl, absent, read⟩
  · obtain ⟨e, semi, he, hs, made⟩ := h.stmt_cases
    obtain ⟨_, _, value, rfl, hv⟩ := returnEarly_walked he
    rcases made with rfl | ⟨-, _, _, ⟨⟩⟩
    exact readToSuccess?_ne_none.mpr (.inl ⟨_, _, value, semi, rfl, hv.isReadCall steady read⟩) passed
  · obtain ⟨e, semi, he, hs, rfl | ⟨semicolon, -⟩⟩ := h.stmt_cases
    · exact readToSuccess?_ne_none.mpr (.inr ⟨e, semi, rfl, hs.isAbsent_eq ▸ absent, he.isReadCall steady read⟩) passed
    · rw [hs.isAbsent_eq, semicolon] at absent
      cases absent

theorem finished (steady : Steady c) {stmts stmts' : Trees} (h : List.Forall₂ (Walked stage c) stmts stmts')
    (done : Finished c stmts) : Finished c stmts' := by
  obtain ⟨inert, last⟩ := finished_iff.mp done
  refine finished_iff.mpr ⟨fun s' mem => ?_, fun s' found => ?_⟩
  · obtain ⟨s, mem, walked⟩ := exists_of_forall₂_right h mem
    refine ⟨?_, fun a accessor => ?_⟩
    · rw [Bool.eq_false_iff]
      intro acquires
      have acquires := walked.isAcquisition steady acquires
      rw [(inert s mem).acquisition] at acquires
      cases acquires
    · refine Option.eq_none_iff_forall_ne_some.mpr fun arg' found => ?_
      obtain ⟨arg, found⟩ := walked.setIdArgument? found
      rw [(inert s mem).identity a accessor] at found
      cases found
  · obtain ⟨s, found, walked⟩ := getLast?_walked h found
    exact walked.readToSuccess? steady (last s found)

end Walked

end Retype.Rewrite
