import Retype.Proofs.FixedTrees
import Retype.Proofs.Visits

/-! Scopes of local bindings.  A place is a tree with the names that the bindings around it bring into scope: those of
`let` for what follows in the list, those of closures, match arms and loops for their bodies, those of conditions for
what depends on them.  An item sees none of the names around it. -/

namespace Retype.Rewrite
open Retype.Code

/-- The nodes in which the patterns of a binding stand. -/
def holdsPatterns : Kind → Bool
  | .pat _ | .fieldPat | .inputs | .param | .signature => true
  | _ => false

def ownNames : Kind → Trees → List String
  | .pat .ident, [_, _, _, _, .leaf (.ident name), _, _] => [unraw name]
  | _, _ => []

mutual
/-- The names that the patterns of a tree bind; expressions, types and items in it bind none. -/
def patNames : Tree → List String
  | .leaf _ => []
  | .group _ body => patNamesAll body
  | .node k parts => if holdsPatterns k then ownNames k parts ++ patNamesAll parts else []

def patNamesAll : List Tree → List String
  | [] => []
  | t :: ts => patNames t ++ patNamesAll ts
end

def joinsConditions : Kind → Bool
  | .expr .binary | .expr .paren | .guard => true
  | _ => false

mutual
def condNames : Tree → List String
  | .leaf _ => []
  | .group _ body => condNamesAll body
  | .node k parts =>
    if k = .expr .letCond then patNamesAll parts else if joinsConditions k then condNamesAll parts else []

def condNamesAll : List Tree → List String
  | [] => []
  | t :: ts => condNames t ++ condNamesAll ts
end

/-- The names that a statement binds for those after it. -/
def letNames : Tree → List String
  | .node (.stmt .bind) parts => patNamesAll parts
  | _ => []

def condNamesAt (parts : Trees) (i : Nat) : List String := (parts[i]?.map condNames).getD []

/-- The names that a node binds for its part at a position. -/
def boundNames (parts : Trees) : Kind → (i : Nat) → List String
  | .expr .closure, 10 | .expr .forLoop, 6 | .arm, 2 => patNamesAll parts
  | .arm, 4 => patNamesAll parts ++ condNamesAt parts 2
  | .expr .ifElse, 3 => condNamesAt parts 2
  | .expr .whileLoop, 4 => condNamesAt parts 3
  | .expr .binary, 3 => condNamesAt parts 1
  | _, _ => []

/-- The names that are in scope at a part of a node, if these are in scope at the node. -/
def seenNames (names : List String) (parts : Trees) : Kind → (i : Nat) → List String
  | .item _, _ => patNamesAll parts
  | k, i => names ++ boundNames parts k i

theorem letNames_of_ne {k : Kind} {parts : Trees} (noBind : k ≠ .stmt .bind) : letNames (.node k parts) = [] := by
  unfold letNames
  split
  · rename_i same
    injection same with bind
    exact (noBind bind).elim
  · rfl

theorem patNames_eq_nil {k : Kind} (parts : Trees) (h : holdsPatterns k = false) : patNames (.node k parts) = [] := by
  rw [patNames, h, if_neg (by decide)]

theorem ownNames_of_outlines {k : Kind} {parts parts' : Trees} (same : outlines parts' = outlines parts) :
    ownNames k parts' = ownNames k parts := by
  have shaped : ∀ {ts us : Trees}, outlines us = outlines ts → ∀ {a b c d f g name},
      ts = [a, b, c, d, .leaf (.ident name), f, g] →
        ∃ a' b' c' d' f' g', us = [a', b', c', d', .leaf (.ident name), f', g'] := by
    rintro ts us same a b c d f g name rfl
    simp only [outlines, outline, outlines_eq_cons, outlines_eq_nil, outline_eq_leaf] at same
    obtain ⟨a', _, rfl, -, b', _, rfl, -, c', _, rfl, -, d', _, rfl, -, _, _, rfl, rfl, f', _, rfl, -, g', _, rfl, -,
      rfl⟩ := same
    exact ⟨a', b', c', d', f', g', rfl⟩
  unfold ownNames
  split
  · obtain ⟨_, _, _, _, _, _, rfl⟩ := shaped same.symm rfl
    rfl
  · rename_i other
    split
    · obtain ⟨_, _, _, _, _, _, rfl⟩ := shaped same rfl
      exact (other _ _ _ _ _ _ _ rfl rfl).elim
    · rfl

mutual
theorem patNames_shield (t : Tree) : patNames (shield t) = patNames t := by
  cases t with
  | leaf token => rfl
  | group d body => rfl
  | node k parts =>
    rw [shield_node]
    split
    · rename_i literal
      subst literal
      rfl
    · rw [patNames, patNames, ownNames_of_outlines (outlines_shieldAll parts), patNamesAll_shieldAll parts]

theorem patNamesAll_shieldAll (ts : List Tree) : patNamesAll (shieldAll ts) = patNamesAll ts := by
  cases ts with
  | nil => rfl
  | cons t ts => rw [shieldAll, patNamesAll, patNamesAll, patNames_shield t, patNamesAll_shieldAll ts]
end

mutual
theorem condNames_shield (t : Tree) : condNames (shield t) = condNames t := by
  cases t with
  | leaf token => rfl
  | group d body => rfl
  | node k parts =>
    rw [shield_node]
    split
    · rename_i literal
      subst literal
      rfl
    · rw [condNames, condNames, patNamesAll_shieldAll, condNamesAll_shieldAll parts]

theorem condNamesAll_shieldAll (ts : List Tree) : condNamesAll (shieldAll ts) = condNamesAll ts := by
  cases ts with
  | nil => rfl
  | cons t ts => rw [shieldAll, condNamesAll, condNamesAll, condNames_shield t, condNamesAll_shieldAll ts]
end

/-- A tree that binds no more names than another one in its place. -/
structure BindsWithin (t' t : Tree) : Prop where
  patterns : patNames t' ⊆ patNames t
  conditions : condNames t' ⊆ condNames t
  statements : letNames t' ⊆ letNames t

namespace BindsWithin

theorem refl (t : Tree) : BindsWithin t t := ⟨List.Subset.refl _, List.Subset.refl _, List.Subset.refl _⟩

theorem trans {t t' t'' : Tree} (first : BindsWithin t'' t') (second : BindsWithin t' t) : BindsWithin t'' t :=
  ⟨List.Subset.trans first.patterns second.patterns, List.Subset.trans first.conditions second.conditions,
    List.Subset.trans first.statements second.statements⟩

theorem of_nothing {t' : Tree} (t : Tree) (patterns : patNames t' = []) (conditions : condNames t' = [])
    (statements : letNames t' = []) : BindsWithin t' t :=
  ⟨patterns ▸ List.nil_subset _, conditions ▸ List.nil_subset _, statements ▸ List.nil_subset _⟩

theorem patNamesAll {ts' ts : Trees} (h : List.Forall₂ BindsWithin ts' ts) : patNamesAll ts' ⊆ patNamesAll ts := by
  induction h with
  | nil => exact List.Subset.refl _
  | cons first _ ih =>
    exact List.append_subset.mpr ⟨List.subset_append_of_subset_left _ first.patterns,
      List.subset_append_of_subset_right _ ih⟩

theorem condNamesAll {ts' ts : Trees} (h : List.Forall₂ BindsWithin ts' ts) : condNamesAll ts' ⊆ condNamesAll ts := by
  induction h with
  | nil => exact List.Subset.refl _
  | cons first _ ih =>
    exact List.append_subset.mpr ⟨List.subset_append_of_subset_left _ first.conditions,
      List.subset_append_of_subset_right _ ih⟩

theorem condNamesAt {ts' ts : Trees} (h : List.Forall₂ BindsWithin ts' ts) (i : Nat) :
    condNamesAt ts' i ⊆ condNamesAt ts i := by
  induction h generalizing i with
  | nil => exact List.Subset.refl _
  | cons first _ ih =>
    cases i with
    | zero => exact first.conditions
    | succ i => exact ih i

theorem node (k : Kind) {parts' parts : Trees} (own : outlines parts' = outlines parts)
    (h : List.Forall₂ BindsWithin parts' parts) : BindsWithin (.node k parts') (.node k parts) := by
  refine ⟨?_, ?_, ?_⟩
  · rw [patNames, patNames, ownNames_of_outlines own]
    split
    · exact List.append_subset.mpr ⟨List.subset_append_left _ _, List.subset_append_of_subset_right _ (patNamesAll h)⟩
    · exact List.Subset.refl _
  · rw [condNames, condNames]
    split
    · exact patNamesAll h
    · split
      · exact condNamesAll h
      · exact List.Subset.refl _
  · by_cases bind : k = .stmt .bind
    · subst bind
      exact patNamesAll h
    · rw [letNames_of_ne bind]
      exact List.nil_subset _

theorem shield (t : Tree) : BindsWithin (shield t) t := by
  cases t with
  | leaf token => exact .refl _
  | group d body => exact .refl _
  | node k parts =>
    refine ⟨?_, ?_, ?_⟩
    · rw [patNames_shield]
      exact List.Subset.refl _
    · rw [condNames_shield]
      exact List.Subset.refl _
    · rw [shield_node]
      split
      · exact List.nil_subset _
      · by_cases bind : k = .stmt .bind
        · subst bind
          rw [letNames, letNames, patNamesAll_shieldAll]
          exact List.Subset.refl _
        · rw [letNames_of_ne bind]
          exact List.nil_subset _

theorem seenNames {names' names : List String} (more : names' ⊆ names) {parts' parts : Trees}
    (h : List.Forall₂ BindsWithin parts' parts) (k : Kind) (i : Nat) :
    seenNames names' parts' k i ⊆ seenNames names parts k i := by
  have bound : boundNames parts' k i ⊆ boundNames parts k i := by
    unfold boundNames
    split
    · exact patNamesAll h
    · exact patNamesAll h
    · exact patNamesAll h
    · exact List.append_subset.mpr ⟨List.subset_append_of_subset_left _ (patNamesAll h),
        List.subset_append_of_subset_right _ (condNamesAt h 2)⟩
    · exact condNamesAt h 2
    · exact condNamesAt h 3
    · exact condNamesAt h 1
    · exact List.Subset.refl _
  unfold Rewrite.seenNames
  split
  · exact patNamesAll h
  · exact List.append_subset.mpr ⟨List.subset_append_of_subset_left _ more,
      List.subset_append_of_subset_right _ bound⟩

end BindsWithin

theorem regroup_bindsWithin (k : Kind) (parts : Trees) : List.Forall₂ BindsWithin (regroup k parts) parts := by
  have same : ∀ ts : Trees, List.Forall₂ BindsWithin ts ts := fun ts => List.forall₂_same.mpr fun t _ => .refl t
  unfold regroup
  split
  · exact .cons (.refl _) (.cons (.refl _) (.cons (.shield _) (same _)))
  · exact .cons (.refl _) (.cons (.refl _) (.cons (.refl _) (.cons (.shield _) (same _))))
  · exact .cons (.refl _) (.cons (.refl _) (.cons (.shield _) (same _)))
  · exact .cons (.refl _) (.cons (.refl _) (.cons (.refl _) (.cons (.refl _) (.cons (.refl _) (.cons (.shield _) (same _))))))
  · exact .cons (.refl _) (.cons (.of_nothing _ rfl rfl rfl) (same _))
  · exact same _

theorem modelAccess_isExpr (model : String) (steps : List PathStep) :
    ∃ k parts, modelAccess model steps = .node (.expr k) parts := by
  obtain rfl | ⟨init, last, rfl⟩ := List.eq_nil_or_concat steps
  · exact ⟨_, _, rfl⟩
  · rw [List.concat_eq_append, modelAccess_concat]
    cases last with
    | field f => exact ⟨_, _, rfl⟩
    | index i => exact ⟨_, _, rfl⟩

theorem letNames_made {r : Rewriter} {c : Context} {t : Tree} {parts : Trees}
    (made : r.made? c t = some (.node (.stmt .bind) parts)) : letNames t = patNamesAll parts := by
  cases r with
  | metaAccess => obtain ⟨_, _, _, -, -, ⟨⟩⟩ := (metaAccess_run {}).mp made
  | accessorGet =>
    generalize same : Code.Tree.node (.stmt .bind) parts = u at made
    cases (accessorGet_run {}).mp made with
    | state => cases same
    | field =>
      obtain ⟨_, _, access⟩ := modelAccess_isExpr c.scope.varModel _
      rw [access] at same
      cases same
  | accessorSet => obtain ⟨_, _, _, -, -, ⟨⟩⟩ := (accessorSet_run {}).mp made
  | importGuard => obtain ⟨_, _, _, _, -, -, ⟨⟩⟩ := (importGuard_run {}).mp made
  | controlFlow => obtain ⟨_, _, -, _, ⟨⟩⟩ := controlFlow_run_some made
  | functionRename => obtain ⟨_, _, _, _, -, -, ⟨⟩⟩ | ⟨_, _, _, _, _, _, -, -, -, ⟨⟩⟩ := (functionRename_run {}).mp made
  | inlineFunction =>
    obtain ⟨_, _, _, _, _, _, _, _, rfl, -, -, ⟨⟩⟩ | ⟨_, _, _, _, _, -, -, ⟨⟩⟩ := (inlineFunction_run {}).mp made
    rfl
  | compositeLiteral =>
    obtain ⟨_, _, _, _, _, -, -, -, -, answer⟩ := (compositeLiteral_run {}).mp made
    obtain ⟨_, _, -, -, ⟨⟩⟩ := literal?_eq_some answer

theorem bindsWithin_of_offered {stage : Stage} {c : Context} {t u : Tree} (h : Offered stage c t u) :
    BindsWithin u t := by
  rcases h.cases with rfl | replaces
  · exact .refl _
  · obtain ⟨k, parts, rfl, made⟩ := replaces.made
    have silent : ∀ k ∈ madeKinds, holdsPatterns k = false ∧ k ≠ .expr .letCond ∧ joinsConditions k = false := by decide
    obtain ⟨noPattern, noLet, noJoin⟩ := silent k made
    refine ⟨?_, ?_, ?_⟩
    · rw [patNames_eq_nil parts noPattern]
      exact List.nil_subset _
    · rw [condNames, if_neg noLet, noJoin, if_neg (by decide)]
      exact List.nil_subset _
    · by_cases bind : k = .stmt .bind
      · subst bind
        rcases h.eq_made ▸ stage.made_cases c t with ⟨-, same⟩ | ⟨r, -, made⟩
        · rw [same]
          exact List.Subset.refl _
        · rw [letNames_made made]
          exact List.Subset.refl _
      · rw [letNames_of_ne bind]
        exact List.nil_subset _

theorem WalksAll.bindsWithin {stage : Stage} {c : Context} {ts ts' : Trees} {s s' : State}
    (h : WalksAll stage c ts s ts' s') : List.Forall₂ BindsWithin ts' ts := by
  induction h with
  | nil => exact .nil
  | leaf offered _ ih => exact .cons (bindsWithin_of_offered ⟨_, _, offered⟩) ih
  | group offered _ _ ihInner ih =>
    refine .cons (.trans ?_ (bindsWithin_of_offered ⟨_, _, offered⟩)) ih
    exact ⟨BindsWithin.patNamesAll ihInner, BindsWithin.condNamesAll ihInner, List.Subset.refl _⟩
  | elements _ _ _ _ _ ih => exact .cons (.of_nothing _ rfl rfl rfl) ih
  | closed _ _ _ ih =>
    refine .cons ?_ ih
    unfold closeMacro
    split <;> exact .of_nothing _ rfl rfl rfl
  | @node _ _ _ parts' _ k _ _ _ _ offered _ inner _ ihInner ih =>
    have regrouped : BindsWithin (.node k (regroup k parts')) (.node k parts') :=
      .node k (outlines_regroup k parts') (regroup_bindsWithin k parts')
    have walked := BindsWithin.node k inner.outlines_eq ihInner
    exact .cons (regrouped.trans (walked.trans (bindsWithin_of_offered ⟨_, _, offered⟩))) ih

structure Place where
  names : List String
  tree : Tree

/-- Statements, each with the names of those before it. -/
def listed (names : List String) : Trees → List Place
  | [] => []
  | t :: ts => ⟨names, t⟩ :: listed (names ++ letNames t) ts

def Place.inside (x : Place) : List Place :=
  match x.tree with
  | .leaf _ => []
  | .group _ body => listed x.names body
  | .node k parts => (Rewrite.inside (.node k parts)).mapIdx fun i t => ⟨seenNames x.names parts k i, t⟩

theorem inside_node (names : List String) (k : Kind) (parts : Trees) : Place.inside ⟨names, .node k parts⟩ =
    (Rewrite.inside (.node k parts)).mapIdx fun i t => ⟨seenNames names parts k i, t⟩ := rfl

theorem map_tree_listed (names : List String) (ts : Trees) : (listed names ts).map Place.tree = ts := by
  induction ts generalizing names with
  | nil => rfl
  | cons t ts ih => rw [listed, List.map_cons, ih]

theorem Place.map_tree_inside (x : Place) : x.inside.map Place.tree = Rewrite.inside x.tree := by
  unfold Place.inside
  split
  · rename_i leaf
    rw [leaf]
    rfl
  · rename_i group
    rw [map_tree_listed, group]
    rfl
  · rename_i node
    rw [node]
    refine List.ext_getElem? fun i => ?_
    rw [List.getElem?_map, List.getElem?_mapIdx, Option.map_map]
    exact Option.map_id'

theorem forall₂_mapIdx {α β γ δ : Type} {R : α → β → Prop} {S : γ → δ → Prop} {as : List α} {bs : List β}
    {f : Nat → α → γ} {g : Nat → β → δ} (h : List.Forall₂ R as bs) (step : ∀ i a b, R a b → S (f i a) (g i b)) :
    List.Forall₂ S (as.mapIdx f) (bs.mapIdx g) := by
  induction h generalizing f g with
  | nil => exact .nil
  | cons first _ ih =>
    rw [List.mapIdx_cons, List.mapIdx_cons]
    exact .cons (step 0 _ _ first) (ih fun i => step (i + 1))

theorem seenNames_mono {names names' : List String} (more : names ⊆ names') (parts : Trees) (k : Kind) (i : Nat) :
    seenNames names parts k i ⊆ seenNames names' parts k i := by
  unfold seenNames
  split
  · exact List.Subset.refl _
  · exact List.append_subset.mpr ⟨List.subset_append_of_subset_left _ more, List.subset_append_right _ _⟩

theorem Place.tree_mem_inside {x y : Place} (mem : y ∈ x.inside) : y.tree ∈ Rewrite.inside x.tree := by
  rw [← x.map_tree_inside]
  exact List.mem_map_of_mem mem

/-- The same tree where no more names are in scope. -/
structure Below (x y : Place) : Prop where
  tree : x.tree = y.tree
  names : x.names ⊆ y.names

theorem listed_below {names names' : List String} (more : names ⊆ names') (ts : Trees) :
    List.Forall₂ Below (listed names ts) (listed names' ts) := by
  induction ts generalizing names names' with
  | nil => exact .nil
  | cons t ts ih =>
    refine .cons ⟨rfl, more⟩ (ih ?_)
    exact List.append_subset.mpr ⟨List.subset_append_of_subset_left _ more, List.subset_append_right _ _⟩

theorem Below.inside {x y : Place} (h : Below x y) : List.Forall₂ Below x.inside y.inside := by
  unfold Place.inside
  rw [← h.tree]
  split
  · exact .nil
  · exact listed_below h.names _
  · rename_i k parts _
    exact forall₂_mapIdx (List.forall₂_same.mpr fun t _ => rfl) fun i t u same =>
      ⟨same, seenNames_mono h.names parts k i⟩

/-- Some of the places inside the first ones, from the outside in and in the order of the code, none of them twice. -/
inductive Selects : List Place → List Place → Prop
  | nil : Selects [] []
  | skip (x : Place) {xs ys : List Place} (rest : Selects xs ys) : Selects (x :: xs) ys
  | into (x : Place) {xs ys : List Place} (rest : Selects (x.inside ++ xs) ys) : Selects (x :: xs) ys
  | take (x : Place) {xs ys : List Place} (rest : Selects (x.inside ++ xs) ys) : Selects (x :: xs) (x :: ys)

namespace Selects

theorem none (xs : List Place) : Selects xs [] := by
  induction xs with
  | nil => exact .nil
  | cons x xs ih => exact .skip x ih

theorem append {xs ys xs' ys' : List Place} (h : Selects xs ys) (h' : Selects xs' ys') :
    Selects (xs ++ xs') (ys ++ ys') := by
  induction h with
  | nil => exact h'
  | skip x _ ih => exact .skip x ih
  | into x _ ih => exact .into x (by rwa [List.append_assoc] at ih)
  | take x _ ih => exact .take x (by rwa [List.append_assoc] at ih)

end Selects

def Place.made (stage : Stage) (c : Context) (x : Place) : Place := ⟨x.names, stage.made c x.tree⟩

/-- A walk over the first places visits the second ones, and the third are left. -/
abbrev Arrives (stage : Stage) (c : Context) : List Place → List Place → List Place → Prop :=
  Worklist fun x => (x.made stage c).inside

end Retype.Rewrite
