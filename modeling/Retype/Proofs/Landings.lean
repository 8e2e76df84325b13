import Retype.Proofs.Scopes

/-! Where a walk leaves the places that it visits.  Each has its own place in the result, in the same order, where no more
names are in scope than when the walk came to it: rewriters bind no names, and parentheses hide none. -/

namespace Retype.Rewrite
open Retype.Code

/-- The tree itself, or the tree with parentheses around its struct literals or around the whole of it. -/
def Wraps (t u : Tree) : Prop := u = t ∨ u = shield t ∨ u = parenOf t

theorem regroup_wraps (k : Kind) (parts : Trees) : List.Forall₂ Wraps parts (regroup k parts) := by
  have same : ∀ ts : Trees, List.Forall₂ Wraps ts ts := fun ts => List.forall₂_same.mpr fun t _ => .inl rfl
  have shielded : ∀ {t : Tree}, Wraps t (shield t) := .inr (.inl rfl)
  unfold regroup
  split
  · exact .cons (.inl rfl) (.cons (.inl rfl) (.cons shielded (same _)))
  · exact .cons (.inl rfl) (.cons (.inl rfl) (.cons (.inl rfl) (.cons shielded (same _))))
  · exact .cons (.inl rfl) (.cons (.inl rfl) (.cons shielded (same _)))
  · exact .cons (.inl rfl) (.cons (.inl rfl) (.cons (.inl rfl) (.cons (.inl rfl) (.cons (.inl rfl)
      (.cons shielded (same _))))))
  · exact .cons (.inl rfl) (.cons (.inr (.inr rfl)) (same _))
  · exact same _

/-- What is at a place after parentheses were put around, where no more names are in scope. -/
structure Wrapped (x y : Place) : Prop where
  names : y.names ⊆ x.names
  tree : Wraps x.tree y.tree

/-- The same place with parentheses around its struct literals, where no more names are in scope. -/
structure Shields (x y : Place) : Prop where
  names : y.names ⊆ x.names
  tree : y.tree = x.tree ∨ y.tree = shield x.tree

theorem wrapped_inside_node {names' names : List String} (more : names' ⊆ names) {k : Kind} {parts parts' : Trees}
    (binds : List.Forall₂ BindsWithin parts' parts)
    (wraps : List.Forall₂ Wraps (inside (.node k parts)) (inside (.node k parts'))) :
    List.Forall₂ Wrapped (Place.inside ⟨names, .node k parts⟩) (Place.inside ⟨names', .node k parts'⟩) :=
  forall₂_mapIdx wraps fun i _ _ wrap => ⟨BindsWithin.seenNames more binds k i, wrap⟩

theorem Below.shields {x y : Place} (h : Below x y) : Shields y x := ⟨h.names, .inl h.tree⟩

theorem Below.wrapped_inside {x y : Place} (h : Below x y) : List.Forall₂ Wrapped y.inside x.inside :=
  h.inside.flip.imp fun _ _ below => ⟨below.names, .inl below.tree⟩

theorem Wrapped.inside {x y : Place} (h : Wrapped x y) :
    y.tree = parenOf x.tree ∨ Shields x y ∧ List.Forall₂ Wrapped x.inside y.inside := by
  obtain ⟨names, t⟩ := x
  obtain ⟨names', u⟩ := y
  obtain ⟨more, rfl | rfl | rfl⟩ := h
  · have below : Below ⟨names', u⟩ ⟨names, u⟩ := ⟨rfl, more⟩
    exact .inr ⟨below.shields, below.wrapped_inside⟩
  · cases t with
    | leaf token => exact .inr ⟨⟨more, .inl rfl⟩, .nil⟩
    | group d body =>
      have below : Below ⟨names', .group d body⟩ ⟨names, .group d body⟩ := ⟨rfl, more⟩
      exact .inr ⟨below.shields, below.wrapped_inside⟩
    | node k parts =>
      by_cases literal : k = .expr .structLit
      · subst literal
        exact .inl rfl
      · refine .inr ⟨⟨more, .inr rfl⟩, ?_⟩
        rw [shield_node, if_neg literal]
        have eq_map : ∀ ts, shieldAll ts = ts.map shield := fun ts => by
          induction ts with
          | nil => rfl
          | cons t ts ih => rw [shieldAll, ih, List.map_cons]
        refine wrapped_inside_node more ?_ ?_
        · rw [eq_map, List.forall₂_map_left_iff]
          exact List.forall₂_same.mpr fun t _ => .shield t
        · by_cases opened : k = .macroBody
          · subst opened
            have same :
                Rewrite.inside (.node .macroBody (shieldAll parts)) = Rewrite.inside (.node .macroBody parts) := by
              rw [Rewrite.inside, Rewrite.inside, vecElements?_shieldAll]
            rw [same]
            exact List.forall₂_same.mpr fun t _ => .inl rfl
          · rw [inside_of_ne opened, inside_of_ne opened, eq_map, List.forall₂_map_right_iff]
            exact List.forall₂_same.mpr fun t _ => .inr (.inl rfl)
  · exact .inl rfl

theorem Selects.parenOf {names : List String} {e : Tree} {xs ys : List Place} (h : Selects (⟨names, e⟩ :: xs) ys) :
    Selects (⟨names, parenOf e⟩ :: xs) ys := by
  have within : Place.inside ⟨names, .group .paren [e]⟩ = [⟨names, e⟩] := rfl
  have parts : Place.inside ⟨names, Code.parenOf e⟩ = [⟨names, noAttrs⟩, ⟨names, .group .paren [e]⟩] := by
    simp [Place.inside, Code.parenOf, Rewrite.inside, seenNames, boundNames]
  refine .into _ ?_
  rw [parts]
  refine .skip _ (.into _ ?_)
  rwa [within]

theorem Wrapped.reached {x x' : Place} (h : Wrapped x x') : ∃ y within, Shields x y ∧
    List.Forall₂ Wrapped x.inside within ∧
    ∀ {xs ys : List Place}, Selects (within ++ xs) ys → Selects (x' :: xs) ys ∧ Selects (x' :: xs) (y :: ys) := by
  rcases h.inside with paren | ⟨own, within⟩
  · have below : Below ⟨x'.names, x.tree⟩ x := ⟨rfl, h.names⟩
    refine ⟨⟨x'.names, x.tree⟩, _, below.shields, below.wrapped_inside, fun selects => ?_⟩
    have same : x' = ⟨x'.names, Code.parenOf x.tree⟩ := by rw [← paren]
    rw [same]
    exact ⟨.parenOf (.into _ selects), .parenOf (.take _ selects)⟩
  · exact ⟨x', _, own, within, fun selects => ⟨.into _ selects, .take _ selects⟩⟩

theorem Selects.shields {xs ys xs' : List Place} (h : Selects xs ys) (wrapped : List.Forall₂ Wrapped xs xs') :
    ∃ ys', Selects xs' ys' ∧ List.Forall₂ Shields ys ys' := by
  induction h generalizing xs' with
  | nil =>
    cases wrapped
    exact ⟨[], .nil, .nil⟩
  | skip x _ ih =>
    obtain - | ⟨first, rest⟩ := wrapped
    obtain ⟨ys', selects, same⟩ := ih rest
    exact ⟨ys', .skip _ selects, same⟩
  | into x _ ih =>
    obtain - | ⟨first, rest⟩ := wrapped
    obtain ⟨y, within, -, inner, reach⟩ := first.reached
    obtain ⟨ys', selects, same⟩ := ih (List.rel_append inner rest)
    exact ⟨ys', (reach selects).1, same⟩
  | take x _ ih =>
    obtain - | ⟨first, rest⟩ := wrapped
    obtain ⟨y, within, own, inner, reach⟩ := first.reached
    obtain ⟨ys', selects, same⟩ := ih (List.rel_append inner rest)
    exact ⟨y :: ys', (reach selects).2, .cons own same⟩

theorem forall₂_comp {α β γ : Type} {R : α → β → Prop} {S : β → γ → Prop} {T : α → γ → Prop} {as : List α}
    {bs : List β} {cs : List γ} (h : List.Forall₂ R as bs) (h' : List.Forall₂ S bs cs)
    (step : ∀ a b c, R a b → S b c → T a c) : List.Forall₂ T as cs := by
  induction h generalizing cs with
  | nil =>
    cases h'
    exact .nil
  | cons first _ ih =>
    obtain - | ⟨first', rest'⟩ := h'
    exact .cons (step _ _ _ first first') (ih rest')

/-- What a walk makes of a visited place, parentheses around struct literals aside, where no more names are in scope. -/
structure Lands (stage : Stage) (c : Context) (y z : Place) : Prop where
  names : z.names ⊆ y.names
  image : ∃ t', Walked stage c y.tree t' ∧ (z.tree = t' ∨ z.tree = shield t')

theorem Lands.shields {stage : Stage} {c : Context} {y z z' : Place} (h : Lands stage c y z) (shields : Shields z z') :
    Lands stage c y z' := by
  obtain ⟨t', walked, same⟩ := h.image
  refine ⟨List.Subset.trans shields.names h.names, t', walked, ?_⟩
  rcases shields.tree with kept | shielded
  · rwa [kept]
  · right
    rcases same with same | same <;> rw [shielded, same]
    exact shield_shield t'

/-- All that a walk from the first places visits has its own place in what is left of them. -/
def Paired (stage : Stage) (c : Context) (xs zs : List Place) : Prop :=
  ∃ ys zs', Arrives stage c xs ys [] ∧ Selects zs zs' ∧ List.Forall₂ (Lands stage c) ys zs'

section Pairs
variable {stage : Stage} {c : Context}

theorem Paired.nil (zs : List Place) : Paired stage c [] zs := ⟨[], [], .none [], .none zs, .nil⟩

theorem Paired.cons {x z : Place} {xs zs : List Place} (own : Lands stage c x z)
    (within : Paired stage c (x.made stage c).inside z.inside) (rest : Paired stage c xs zs) :
    Paired stage c (x :: xs) (z :: zs) := by
  obtain ⟨ys, zs₁, arrives, selects, lands⟩ := within
  obtain ⟨ys', zs₁', arrives', selects', lands'⟩ := rest
  exact ⟨x :: (ys ++ ys'), z :: (zs₁ ++ zs₁'), .visit (arrives.append arrives'), .take z (selects.append selects'),
    .cons own (List.rel_append lands lands')⟩

theorem Paired.wrapped {xs zs zs' : List Place} (h : Paired stage c xs zs) (wrapped : List.Forall₂ Wrapped zs zs') :
    Paired stage c xs zs' := by
  obtain ⟨ys, zs₁, arrives, selects, lands⟩ := h
  obtain ⟨zs₂, selects', shields⟩ := selects.shields wrapped
  exact ⟨ys, zs₂, arrives, selects', forall₂_comp lands shields fun _ _ _ => Lands.shields⟩

theorem listed_names {names' names : List String} (more : names' ⊆ names) {ts' ts : Trees}
    (binds : List.Forall₂ BindsWithin ts' ts) :
    List.Forall₂ (fun x z : Place => z.names ⊆ x.names) (listed names ts) (listed names' ts') := by
  induction binds generalizing names' names with
  | nil => exact .nil
  | cons first _ ih =>
    refine .cons more (ih ?_)
    exact List.append_subset.mpr ⟨List.subset_append_of_subset_left _ more,
      List.subset_append_of_subset_right _ first.statements⟩

/-- Places of trees, and of others in the place of each, where no more names are in scope. -/
structure Follows (ts ts' : Trees) (xs zs : List Place) : Prop where
  before : xs.map Place.tree = ts
  after : zs.map Place.tree = ts'
  names : List.Forall₂ (fun x z : Place => z.names ⊆ x.names) xs zs

theorem Follows.uncons {t t' : Tree} {ts ts' : Trees} {xs zs : List Place} (h : Follows (t :: ts) (t' :: ts') xs zs) :
    ∃ names names' xs' zs', xs = ⟨names, t⟩ :: xs' ∧ zs = ⟨names', t'⟩ :: zs' ∧ names' ⊆ names ∧
      Follows ts ts' xs' zs' := by
  obtain ⟨before, after, more⟩ := h
  obtain ⟨⟨names, t⟩, xs', rfl, rfl, beforeRest⟩ := List.map_eq_cons_iff.mp before
  obtain ⟨⟨names', t'⟩, zs', rfl, rfl, afterRest⟩ := List.map_eq_cons_iff.mp after
  obtain - | ⟨first, rest⟩ := more
  exact ⟨names, names', xs', zs', rfl, rfl, first, beforeRest, afterRest, rest⟩

theorem follows_node {names' names : List String} {k : Kind} {parts parts' ts ts' : Trees}
    (before : inside (.node k parts) = ts) (after : inside (.node k parts') = ts')
    (more : ∀ i, seenNames names' parts' k i ⊆ seenNames names parts k i)
    {R : Tree → Tree → Prop} (related : List.Forall₂ R ts ts') :
    Follows ts ts' (Place.inside ⟨names, .node k parts⟩) (Place.inside ⟨names', .node k parts'⟩) := by
  subst before after
  exact ⟨Place.map_tree_inside _, Place.map_tree_inside _, forall₂_mapIdx related fun i _ _ _ => more i⟩

/-- What a relation holds of, from place to place and inside of each, it holds of the places of a walk that ends and of
those that the walk leaves, if parentheses are nothing to it. -/
theorem WalksAll.follow {P : List Place → List Place → Prop} (nil : P [] [])
    (cons : ∀ {x z : Place} {xs zs : List Place}, z.names ⊆ x.names → Walked stage c x.tree z.tree →
      P (x.made stage c).inside z.inside → P xs zs → P (x :: xs) (z :: zs))
    (wrapped : ∀ {xs zs zs' : List Place}, P xs zs → List.Forall₂ Wrapped zs zs' → P xs zs')
    {ts ts' : Trees} {s s' : State} (h : WalksAll stage c ts s ts' s') {xs zs : List Place}
    (follows : Follows ts ts' xs zs) : P xs zs := by
  induction h generalizing xs zs with
  | nil =>
    rw [List.map_eq_nil_iff.mp follows.before, List.map_eq_nil_iff.mp follows.after]
    exact nil
  | leaf offered rest ih =>
    obtain ⟨_, _, _, _, rfl, rfl, more, follows⟩ := follows.uncons
    refine cons more ⟨_, _, .leaf offered (.nil _)⟩ ?_ (ih follows)
    rw [Place.made, ← (Stage.offer_eq offered).1]
    exact nil
  | group offered inner rest ihInner ih =>
    obtain ⟨_, _, _, _, rfl, rfl, more, follows⟩ := follows.uncons
    refine cons more ⟨_, _, .group offered inner (.nil _)⟩ ?_ (ih follows)
    rw [Place.made, ← (Stage.offer_eq offered).1]
    exact ihInner ⟨map_tree_listed _ _, map_tree_listed _ _, listed_names more inner.bindsWithin⟩
  | elements offered found inner rest ihInner ih =>
    obtain ⟨_, _, _, _, rfl, rfl, more, follows⟩ := follows.uncons
    refine cons more ⟨_, _, .elements offered found inner (.nil _)⟩ ?_ (ih follows)
    rw [Place.made, ← (Stage.offer_eq offered).1]
    have found' := vecElements?_walked found inner.forall₂
    refine ihInner (follows_node ?_ ?_ (fun i => ?_) inner.forall₂)
    · rw [inside, found, Option.getD_some]
    · rw [inside, found', Option.getD_some]
    · exact List.append_subset.mpr ⟨List.subset_append_of_subset_left _ more, List.subset_append_right _ _⟩
  | closed offered noList rest ih =>
    obtain ⟨_, _, _, _, rfl, rfl, more, follows⟩ := follows.uncons
    refine cons more ⟨_, _, .closed offered noList (.nil _)⟩ ?_ (ih follows)
    rw [Place.made, ← (Stage.offer_eq offered).1]
    -- a closed call is read as closed again, so nothing is inside of what is left of it
    obtain ⟨parts', same, noList', -⟩ := closed_closeMacro noList
    have nothing : ∀ {names : List String} {parts : Trees}, vecElements? (.node .macroBody parts) = none →
        Place.inside ⟨names, .node .macroBody parts⟩ = [] := by
      intro names parts noList
      rw [← List.map_eq_nil_iff (f := Place.tree), Place.map_tree_inside, inside, noList, Option.getD_none]
    rw [same, nothing noList, nothing noList']
    exact nil
  | @node _ _ parts parts' _ k _ _ _ _ offered opened inner rest ihInner ih =>
    obtain ⟨names, names', _, _, rfl, rfl, more, follows⟩ := follows.uncons
    refine cons more ⟨_, _, .node offered opened inner (.nil _)⟩ ?_ (ih follows)
    rw [Place.made, ← (Stage.offer_eq offered).1]
    -- the parts are followed as the walk leaves them, and then into the parentheses that are put around them
    have walked : P (Place.inside ⟨names, .node k parts⟩) (Place.inside ⟨names', .node k parts'⟩) :=
      ihInner (follows_node (inside_of_ne opened parts) (inside_of_ne opened parts')
        (fun i => BindsWithin.seenNames more inner.bindsWithin k i) inner.forall₂)
    refine wrapped walked (wrapped_inside_node (List.Subset.refl _) (regroup_bindsWithin k parts') ?_)
    rw [inside_of_ne opened, inside_of_ne opened]
    exact regroup_wraps k parts'

theorem WalksAll.paired {ts ts' : Trees} {s s' : State} (h : WalksAll stage c ts s ts' s') {xs zs : List Place}
    (follows : Follows ts ts' xs zs) : Paired stage c xs zs :=
  h.follow (.nil []) (fun more walked within rest => .cons ⟨more, _, walked, .inl rfl⟩ within rest) .wrapped follows

theorem Stage.paired_of_run? {block block' : Tree} {s s' : State} (h : (stage.run? c block).run s = some (block', s')) :
    Paired stage c [⟨[], block⟩] [⟨[], block'⟩] :=
  (walksAll_of_run? h).paired ⟨rfl, rfl, .cons (List.Subset.refl _) .nil⟩

end Pairs

end Retype.Rewrite
