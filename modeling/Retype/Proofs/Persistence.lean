import Retype.Proofs.Recognition

/-! A tree at which a stage finds nothing to do stays so while a walk changes its parts. -/

namespace Retype.Rewrite
open Retype.Code

theorem Reads.walked {stage : Stage} {c : Context} (steady : Steady c) {parts parts' : Trees} {u : Tree}
    (inner : List.Forall₂ (Walked stage c) parts parts') (reads : Reads c (.node (.expr .methodCall) parts') u) :
    ∃ u, Reads c (.node (.expr .methodCall) parts) u := by
  generalize same : Code.Tree.node (.expr .methodCall) parts' = t' at reads
  have receiver : ∀ {a r dot m turbofish g : Tree}, parts' = [a, r, dot, m, turbofish, g] → ∃ a₀ r₀ dot₀ m₀ turbofish₀ g₀,
      parts = [a₀, r₀, dot₀, m₀, turbofish₀, g₀] ∧ Walked stage c r₀ r ∧ Walked stage c m₀ m ∧ Walked stage c g₀ g := by
    rintro a r dot m turbofish g rfl
    obtain ⟨a₀, _, -, later, rfl⟩ := List.forall₂_cons_right_iff.mp inner
    obtain ⟨r₀, _, hr, later', rfl⟩ := List.forall₂_cons_right_iff.mp later
    obtain ⟨dot₀, _, -, last, rfl⟩ := List.forall₂_cons_right_iff.mp later'
    obtain ⟨m₀, turbofish₀, g₀, rfl, hm, -, hg⟩ := forall₂_three last
    exact ⟨a₀, r₀, dot₀, m₀, turbofish₀, g₀, rfl, hr, hm, hg⟩
  cases reads with
  | state accessor listed =>
    injection same with _ same
    obtain ⟨_, _, _, _, _, _, rfl, hr, hm, hg⟩ := receiver same
    obtain ⟨args, rfl, -⟩ := hg.group_eq
    obtain rfl := hm.leaf_eq
    exact ⟨_, .state (hr.isAccessor_eq ▸ accessor) listed⟩
  | field accessor one known =>
    injection same with _ same
    obtain ⟨_, _, _, _, _, _, rfl, hr, hm, hg⟩ := receiver same
    obtain ⟨args, rfl, hargs⟩ := hg.group_eq
    obtain rfl := hm.leaf_eq
    have single := Walked.members hargs
    rw [one] at single
    obtain ⟨key, one₀⟩ := List.length_eq_one_iff.mp single.length_eq
    rw [one₀] at single
    cases single with
    | cons hk _ => exact ⟨_, .field (hr.isAccessor_eq ▸ accessor) one₀ (hk.keySteps steady known)⟩

theorem Normal.walked {stage : Stage} {c : Context} (steady : Steady c) {t t' : Tree} (h : Walked stage c t t')
    (passes : Passes stage c t) (normal : Normal c t) : Normal c t' where
  downcast attrs' base' rest' same := by
    subst same
    obtain ⟨parts, rfl, inner⟩ := h.plain_of_passes passes (by decide) fun _ => rfl
    simp only [List.forall₂_cons_right_iff] at inner
    obtain ⟨_, _, -, ⟨_, _, hb, -, rfl⟩, rfl⟩ := inner
    rw [Bool.eq_false_iff]
    intro downcast
    have downcast := hb.isClientDowncast downcast
    rw [normal.downcast _ _ _ rfl] at downcast
    cases downcast
  read u reads := by
    obtain ⟨parts', rfl⟩ : ∃ parts', t' = .node (.expr .methodCall) parts' := by cases reads <;> exact ⟨_, rfl⟩
    obtain ⟨parts, rfl, inner⟩ := h.plain_of_passes passes (by decide) fun _ => rfl
    obtain ⟨u, reads⟩ := reads.walked steady inner
    exact normal.read u reads
  write key' value' found := by
    refine Option.eq_none_iff_forall_ne_some.mpr fun steps known => ?_
    obtain ⟨args, found, walked⟩ := h.setStatement steady found
    obtain ⟨key, value, rfl⟩ := List.length_eq_two.mp walked.length_eq
    cases walked with
    | cons hk _ =>
      have known := hk.keySteps steady known
      rw [normal.write key value found] at known
      cases known
  guard k parts' first' id' same called := by
    subst same
    obtain ⟨parts, walked, rfl, inner, same⟩ := h.passes_of_node passes (by rintro ⟨⟩)
    rcases h.callPath? steady called with unknown | ⟨args, called, walked⟩
    · exact unknown.guard rfl
    · obtain ⟨first, id, rfl⟩ := List.length_eq_two.mp walked.length_eq
      exact normal.guard k parts first id rfl called
  list d stmts' same := by
    subst same
    obtain ⟨parts, rfl, inner⟩ := h.plain_of_passes passes (by decide) fun _ => rfl
    cases inner with
    | cons hg inner =>
      cases inner
      obtain ⟨stmts, rfl, hstmts⟩ := hg.group_eq
      exact Walked.finished steady hstmts (normal.list d stmts rfl)
  fresh attrs' receiver' dot' rest' same := by
    subst same
    obtain ⟨parts, rfl, inner⟩ := h.plain_of_passes passes (by decide) fun _ => rfl
    simp only [List.forall₂_cons_right_iff] at inner
    obtain ⟨_, _, -, ⟨_, _, hr, ⟨_, _, -, ⟨_, _, hm, -, rfl⟩, rfl⟩, rfl⟩, rfl⟩ := inner
    obtain rfl := hm.leaf_eq
    rw [hr.isAccessor_eq]
    exact normal.fresh _ _ _ _ rfl
  rename attrs' callee' rest' path args' same called := by
    subst same
    obtain ⟨parts, walked, rfl, inner, same⟩ := h.passes_of_node passes (by decide)
    rcases h.callPath? steady called with unknown | ⟨args, called, walked⟩
    · exact unknown.rename
    · obtain ⟨a, attrs, p, d, body, bare, rfl, rfl⟩ := callPath?_eq_some.mp called
      cases bare
      exact normal.rename _ _ _ _ _ rfl called

theorem isMapConstructor_stringFrom : isMapConstructor "String::from" = false := by decide

theorem path_of_stringText {t : Tree} {s path : String} {args : Trees} (text : Naming.stringText t = some s)
    (called : t.callPath? = some (path, args)) : path = "String::from" := by
  obtain ⟨a, attrs, p, d, body, bare, rfl, rfl⟩ := callPath?_eq_some.mp called
  fun_induction Tree.stripParens t with
  | case1 a d e ih =>
    rw [Naming.stringText] at text
    exact ih text bare called
  | case2 t plain =>
    subst bare
    rw [Naming.stringText, Option.ite_none_right_eq_some, Bool.and_eq_true, beq_iff_eq] at text
    exact text.1.1

theorem passes_promote_of_stringText {c : Context} {t : Tree} {s : String} (text : Naming.stringText t = some s) :
    Passes promote c t := by
  refine passes_promote_iff.mpr ⟨?_, ?_, ?_⟩
  · rintro _ _ _ _ _ _ _ rfl
    cases text
  · rintro _ _ _ _ rfl
    cases text
  · intro k parts path arg elems same called constructor array
    rw [path_of_stringText text called, isMapConstructor_stringFrom] at constructor
    cases constructor

theorem forall₂_of_two {R : Tree → Tree → Prop} {ts : Trees} {a b : Tree} (h : List.Forall₂ R [a, b] ts) :
    ∃ a' b', ts = [a', b'] ∧ R a a' ∧ R b b' := forall₂_two h.flip

namespace Walked
variable {stage : Stage} {c : Context} {t' : Tree}

theorem parts_of_passes {k : Kind} {parts : Trees} (passes : Passes stage c (.node k parts)) (opened : k ≠ .macroBody)
    (plain : ∀ parts, regroup k parts = parts) (h : Walked stage c (.node k parts) t') :
    ∃ parts', t' = .node k parts' ∧ List.Forall₂ (Walked stage c) parts parts' := by
  obtain ⟨walked, rfl, inner⟩ := h.node_of_passes passes opened
  exact ⟨walked, by rw [plain], inner⟩

theorem eq_paren {a e : Tree} {d : Delim} (h : Walked stage c (.node (.expr .paren) [a, .group d [e]]) t')
    (passes : Passes stage c (.node (.expr .paren) [a, .group d [e]])) :
    ∃ a' e', t' = .node (.expr .paren) [a', .group d [e']] ∧ Walked stage c e e' := by
  obtain ⟨_, rfl, inner⟩ := h.parts_of_passes passes (by decide) fun _ => rfl
  obtain ⟨a', _, rfl, -, hg⟩ := forall₂_of_two inner
  obtain ⟨_, rfl, body⟩ := hg.eq_group
  obtain ⟨e', _, he, none, rfl⟩ := List.forall₂_cons_left_iff.mp body
  cases none
  exact ⟨a', e', rfl, he⟩

theorem eq_reference {a b m e : Tree} (h : Walked stage c (.node (.expr .reference) [a, b, m, e]) t')
    (passes : Passes stage c (.node (.expr .reference) [a, b, m, e])) :
    ∃ a' b' m' e', t' = .node (.expr .reference) [a', b', m', e'] ∧ Walked stage c e e' := by
  obtain ⟨_, rfl, inner⟩ := h.parts_of_passes passes (by decide) fun _ => rfl
  obtain ⟨a', _, -, more, rfl⟩ := List.forall₂_cons_left_iff.mp inner
  obtain ⟨b', _, -, last, rfl⟩ := List.forall₂_cons_left_iff.mp more
  obtain ⟨m', e', rfl, -, he⟩ := forall₂_of_two last
  exact ⟨a', b', m', e', rfl, he⟩

theorem eq_lit {a : Tree} {token : Token} (h : Walked stage c (.node (.expr .lit) [a, .leaf token]) t')
    (passes : Passes stage c (.node (.expr .lit) [a, .leaf token])) :
    ∃ a', t' = .node (.expr .lit) [a', .leaf token] := by
  obtain ⟨_, rfl, inner⟩ := h.parts_of_passes passes (by decide) fun _ => rfl
  obtain ⟨a', _, rfl, -, hl⟩ := forall₂_of_two inner
  rw [hl.eq_leaf]
  exact ⟨a', rfl⟩

theorem eq_methodCall {a r dot turbofish : Tree} {m : Token} {d : Delim} {body : Trees}
    (h : Walked stage c (.node (.expr .methodCall) [a, r, dot, .leaf m, turbofish, .group d body]) t')
    (passes : Passes stage c (.node (.expr .methodCall) [a, r, dot, .leaf m, turbofish, .group d body])) :
    ∃ a' r' dot' turbofish' body',
      t' = .node (.expr .methodCall) [a', r', dot', .leaf m, turbofish', .group d body'] ∧ Walked stage c r r' ∧
        List.Forall₂ (Walked stage c) body body' := by
  obtain ⟨_, rfl, inner⟩ := h.parts_of_passes passes (by decide) fun _ => rfl
  obtain ⟨a', _, -, more, rfl⟩ := List.forall₂_cons_left_iff.mp inner
  obtain ⟨r', _, hr, later, rfl⟩ := List.forall₂_cons_left_iff.mp more
  obtain ⟨dot', _, -, later', rfl⟩ := List.forall₂_cons_left_iff.mp later
  obtain ⟨_, _, hm, last, rfl⟩ := List.forall₂_cons_left_iff.mp later'
  obtain ⟨turbofish', _, rfl, -, hg⟩ := forall₂_of_two last
  obtain ⟨body', rfl, hbody⟩ := hg.eq_group
  rw [hm.eq_leaf]
  exact ⟨a', r', dot', turbofish', body', rfl, hr, hbody⟩

end Walked

theorem Walked.eq_pathCall {c : Context} {a attrs path t' : Tree} {d : Delim} {args : Trees}
    (h : Walked promote c (.node (.expr .call) [a, .node (.expr .path) [attrs, path], .group d args]) t')
    (passes : Passes promote c (.node (.expr .call) [a, .node (.expr .path) [attrs, path], .group d args])) :
    ∃ a' attrs' path' args',
      t' = .node (.expr .call) [a', .node (.expr .path) [attrs', path'], .group d args'] ∧
        path'.pathString = path.pathString ∧ List.Forall₂ (Walked promote c) args args' := by
  obtain ⟨_, rfl, inner⟩ := h.node_of_passes passes (by decide)
  obtain ⟨a', _, -, last, rfl⟩ := List.forall₂_cons_left_iff.mp inner
  obtain ⟨callee', _, rfl, hc, hg⟩ := forall₂_of_two last
  obtain ⟨args', rfl, hargs⟩ := hg.eq_group
  obtain ⟨_, rfl, callee⟩ := hc.parts_of_passes (passes_promote_iff.mpr {}) (by decide) fun _ => rfl
  obtain ⟨attrs', path', rfl, -, hp⟩ := forall₂_of_two callee
  exact ⟨a', attrs', path', args', rfl, hp.pathString_eq, hargs⟩

mutual
theorem stringText_promoted {c : Context} (t : Tree) {t' : Tree} {s : String} (h : Walked promote c t t')
    (text : Naming.stringText t = some s) : Naming.stringText t' = some s := by
  have passes : Passes promote c t := passes_promote_of_stringText text
  unfold Naming.stringText at text
  split at text
  · rename_i e
    obtain ⟨_, _, rfl, he⟩ := h.eq_paren passes
    rw [Naming.stringText]
    exact stringText_promoted e he text
  · rename_i e
    obtain ⟨_, _, _, _, rfl, he⟩ := h.eq_reference passes
    rw [Naming.stringText]
    exact stringText_promoted e he text
  · obtain ⟨_, rfl⟩ := h.eq_lit passes
    exact text
  · rename_i receiver _ _ _ _
    obtain ⟨listed, text⟩ := Option.ite_none_right_eq_some.mp text
    obtain ⟨_, _, _, _, _, rfl, hr, none⟩ := h.eq_methodCall passes
    cases none
    exact (Walked.stringText_methodCall listed).trans (stringText_promoted receiver hr text)
  · rename_i args
    obtain ⟨one, text⟩ := Option.ite_none_right_eq_some.mp text
    obtain ⟨_, _, _, _, rfl, named, hargs⟩ := h.eq_pathCall passes
    rw [← named, (Walked.members hargs).length_eq] at one
    exact (if_pos one).trans (firstText_promoted args hargs text)
  · cases text

theorem firstText_promoted {c : Context} (ts : List Tree) {ts' : Trees} {s : String}
    (h : List.Forall₂ (Walked promote c) ts ts') (text : Naming.firstText ts = some s) :
    Naming.firstText ts' = some s := by
  cases h with
  | nil => cases text
  | @cons t t' _ _ first _ => exact stringText_promoted t first text
end

/-- The text of the first member of a pair. -/
def pairKey? (e : Tree) : Option String :=
  match e.tuple? with
  | some [key, _] => Naming.stringText key
  | _ => none

theorem literalEntries_keys (elems : Trees) : (literalEntries elems).map (·.1) = elems.filterMap pairKey? := by
  rw [literalEntries, List.map_filterMap]
  refine congrArg (elems.filterMap ·) (funext fun e => ?_)
  unfold pairKey?
  match e.tuple? with
  | some [key, value] => simp only [Option.map_map, Function.comp_def, Option.map_id']
  | none | some [] | some [_] | some (_ :: _ :: _ :: _) => rfl

theorem pairKey?_eq_some {e : Tree} {tag : String} : pairKey? e = some tag ↔ ∃ a d body key value,
    e = .node (.expr .tuple) [a, .group d body] ∧ Trees.members body = [key, value] ∧
      Naming.stringText key = some tag := by
  unfold pairKey? Tree.tuple?
  constructor
  · intro h
    split at h
    · rename_i pair
      split at pair
      · exact ⟨_, _, _, _, _, rfl, Option.some.inj pair, h⟩
      · cases pair
    · cases h
  · rintro ⟨a, d, body, key, value, rfl, pair, text⟩
    simp only [pair, text]

theorem pairKey?_promoted {c : Context} (steady : Steady c) {e e' : Tree} (h : Walked promote c e e') :
    pairKey? e' = pairKey? e := by
  refine Option.ext fun tag => ?_
  rw [pairKey?_eq_some, pairKey?_eq_some]
  constructor
  · rintro ⟨a', d, body', key', value', rfl, pair, text⟩
    obtain ⟨parts, rfl, inner⟩ := h.plain_eq (by decide) (by decide) fun _ => rfl
    obtain ⟨a, _, rfl, -, hg⟩ := forall₂_two inner
    obtain ⟨body, rfl, hbody⟩ := hg.group_eq
    obtain ⟨key, value, pair₀, hk, -⟩ := forall₂_two (pair ▸ Walked.members hbody)
    exact ⟨a, d, body, key, value, rfl, pair₀, hk.stringText steady key' text⟩
  · rintro ⟨a, d, body, key, value, rfl, pair, text⟩
    obtain ⟨_, rfl, inner⟩ := h.parts_of_passes (passes_promote_iff.mpr {}) (by decide) fun _ => rfl
    obtain ⟨a', _, rfl, -, hg⟩ := forall₂_of_two inner
    obtain ⟨body', rfl, hbody⟩ := hg.eq_group
    obtain ⟨key', value', pair', hk, -⟩ := forall₂_of_two (pair ▸ Walked.members hbody)
    exact ⟨a', d, body', key', value', rfl, pair', stringText_promoted key hk text⟩

theorem keys_promoted {c : Context} (steady : Steady c) {elems elems' : Trees}
    (h : List.Forall₂ (Walked promote c) elems elems') : elems'.filterMap pairKey? = elems.filterMap pairKey? := by
  induction h with
  | nil => rfl
  | cons first _ ih => rw [List.filterMap_cons, List.filterMap_cons, pairKey?_promoted steady first, ih]

theorem isSome_mapM {α β : Type} (f : α → Option β) (l : List α) : (l.mapM f).isSome = l.all fun a => (f a).isSome := by
  induction l with
  | nil => rfl
  | cons a l ih =>
    rw [List.mapM_cons, List.all_cons, ← ih]
    cases f a <;> cases l.mapM f <;> rfl

theorem modelLiteral_isSome (m : Model) (entries : List (String × Tree)) :
    (modelLiteral m entries).isSome = (entries.map (·.1)).all fun tag => (m.fieldByTag tag).isSome := by
  have wrapped : ∀ {β : Type} (fields : Option β) (wrap : β → Tree),
      (fields.bind fun fs => some (wrap fs)).isSome = fields.isSome := by
    rintro _ (_ | _) wrap <;> rfl
  rw [modelLiteral, Option.bind_eq_bind, wrapped, isSome_mapM, List.all_map]
  simp only [Option.isSome_map, Function.comp_def]

theorem literal?_isSome (c : Context) (elems : Trees) : (literal? c elems).isSome =
    (c.models.findByKeys (elems.filterMap pairKey?)).any fun m =>
      (elems.filterMap pairKey?).all fun tag => (m.fieldByTag tag).isSome := by
  rw [literal?, literalEntries_keys]
  cases c.models.findByKeys (elems.filterMap pairKey?) with
  | none => rfl
  | some m => rw [Option.bind_some, modelLiteral_isSome, literalEntries_keys, Option.any_some]

theorem promoted?_walked {c : Context} {value value' : Tree} (h : Walked promote c value value')
    (none : promoted? c value = none) : promoted? c value' = Option.none := by
  rw [promoted?_eq_none] at none ⊢
  intro name called
  exact none name (h.calledName?_untried (fun _ _ offered => offered_promote_eq offered (by decide)) called)

theorem Walked.array? {stage : Stage} {c : Context} {t t' : Tree} {elems' : Trees} (h : Walked stage c t t')
    (array : t'.array? = some elems') : ∃ elems, t.array? = some elems ∧ List.Forall₂ (Walked stage c) elems elems' := by
  unfold Tree.array? at array
  split at array
  · rename_i a d body'
    cases array
    obtain ⟨parts, rfl, inner⟩ := h.plain_eq (by decide) (by decide) fun _ => rfl
    simp only [List.forall₂_cons_right_iff, List.forall₂_nil_right_iff] at inner
    obtain ⟨_, _, -, ⟨g, _, hg, rfl, rfl⟩, rfl⟩ := inner
    obtain ⟨body, rfl, hbody⟩ := hg.group_eq
    exact ⟨_, rfl, Walked.members hbody⟩
  · cases array

theorem Promoted.walked {c : Context} (steady : Steady c) {t t' : Tree} (h : Walked promote c t t')
    (passes : Passes promote c t) (promoted : Promoted c t) : Promoted c t' where
  bound attrs' w' pat' eq' value' other' semi' same noElse := by
    subst same
    obtain ⟨parts, rfl, inner⟩ := h.plain_of_passes passes (by decide) fun _ => rfl
    simp only [List.forall₂_cons_right_iff, List.forall₂_nil_right_iff] at inner
    obtain ⟨_, _, -, ⟨_, _, -, ⟨_, _, -, ⟨init, _, hi, ⟨_, _, -, rfl, rfl⟩, rfl⟩, rfl⟩, rfl⟩, rfl⟩ := inner
    obtain ⟨eq, value, other, rfl, hv, ho⟩ := hi.init_eq
    rw [Tree.isPresent, ho.isAbsent_eq, ← Tree.isPresent] at noElse
    exact promoted?_walked hv (promoted.bound _ _ _ _ _ _ _ rfl noElse)
  assigned attrs' left' o' right' same := by
    subst same
    obtain ⟨parts, rfl, inner⟩ := h.plain_of_passes passes (by decide) fun _ => rfl
    simp only [List.forall₂_cons_right_iff, List.forall₂_nil_right_iff] at inner
    obtain ⟨_, _, -, ⟨_, _, -, ⟨_, _, -, ⟨right, _, hr, rfl, rfl⟩, rfl⟩, rfl⟩, rfl⟩ := inner
    exact promoted?_walked hr (promoted.assigned _ _ _ _ rfl)
  literal k parts' path arg' elems' same called constructor array := by
    subst same
    obtain ⟨parts, walked, rfl, -, -⟩ := h.passes_of_node passes (by rintro ⟨⟩)
    obtain ⟨u, a, attrs, p, d, args, offered, bare, named, hargs⟩ := h.callPath?_offered called
    rw [offered_promote_eq offered (by decide)] at bare
    simp only [List.forall₂_cons_right_iff, List.forall₂_nil_right_iff] at hargs
    obtain ⟨arg, _, ha, rfl, one⟩ := hargs
    have called := callPath?_eq_some.mpr ⟨a, attrs, p, d, args, bare, named, one⟩
    obtain ⟨elems, array, helems⟩ := ha.array? array
    have unmade := promoted.literal k parts path arg elems rfl called constructor array
    rw [← Option.not_isSome_iff_eq_none, literal?_isSome] at unmade ⊢
    rwa [keys_promoted steady helems]

end Retype.Rewrite
