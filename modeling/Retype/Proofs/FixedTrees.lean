import Retype.Proofs.BoundCalls
import Retype.Proofs.Persistence

/-! Trees that a walk leaves as they are.  A stage whose rewriters find nothing to do at what they have made leaves
such a tree, and the bound on the depth of a walk is never met on it. -/

namespace Retype.Rewrite
open Retype.Code

theorem split_splitPunct (joint : Bool) (cs : List Char) :
    (splitPunct joint cs).flatMap Token.split = splitPunct joint cs := by
  have one : ∀ (c : Char) (joint : Bool), splitPunct joint (String.singleton c).toList = [.punct (String.singleton c) joint] := by
    intro c joint
    rw [String.toList_singleton, splitPunct]
  fun_induction splitPunct joint cs with
  | case1 => rfl
  | case2 c => rw [List.flatMap_singleton, Token.split, one]
  | case3 c d r ih => rw [List.flatMap_cons, Token.split, one, ih, List.singleton_append]

theorem raw_leaves (tokens : List Token) : Trees.raw (tokens.map .leaf) = (tokens.flatMap Token.split).map .leaf := by
  induction tokens with
  | nil => rfl
  | cons token tokens ih => rw [List.map_cons, Trees.raw, Tree.raw, ih, List.flatMap_cons, List.map_append]

mutual
theorem raw_raw (t : Tree) : Trees.raw t.raw = t.raw := by
  cases t with
  | leaf token =>
    rw [Tree.raw, raw_leaves]
    cases token with
    | punct text joint => rw [Token.split, split_splitPunct]
    | _ => rfl
  | group d body => rw [Tree.raw, Trees.raw, Tree.raw, trees_raw_raw body]; rfl
  | node k parts => exact trees_raw_raw parts

theorem trees_raw_raw (ts : List Tree) : Trees.raw (Trees.raw ts) = Trees.raw ts := by
  cases ts with
  | nil => rfl
  | cons t ts => rw [Trees.raw, Trees.raw_append, raw_raw t, trees_raw_raw ts]
end

mutual
theorem isNode_of_mem_raw (t : Tree) {u : Tree} (mem : u ∈ t.raw) : u.isNode = false := by
  cases t with
  | leaf token =>
    obtain ⟨token', -, rfl⟩ := List.mem_map.mp mem
    rfl
  | group d body =>
    rw [Tree.raw, List.mem_singleton] at mem
    rw [mem]
    rfl
  | node k parts => exact isNode_of_mem_trees_raw parts mem

theorem isNode_of_mem_trees_raw (ts : List Tree) {u : Tree} (mem : u ∈ Trees.raw ts) : u.isNode = false := by
  cases ts with
  | nil => cases mem
  | cons t ts =>
    rw [Trees.raw, List.mem_append] at mem
    rcases mem with mem | mem
    · exact isNode_of_mem_raw t mem
    · exact isNode_of_mem_trees_raw ts mem
end

theorem vecElements?_eq_some {path bang : Tree} {d : Delim} {body elems : Trees} :
    vecElements? (.node .macroBody [path, bang, .group d body]) = some elems ↔ path.pathIdent? = some "vec" ∧
      (if body.any (·.isNode) then some body else (parseElements body).filter fun elems => elems.any (·.isNode)) =
        some elems := by
  rw [vecElements?, Option.ite_none_right_eq_some, beq_iff_eq]

theorem any_isNode_of_vecElements? {parts elems : Trees} (h : vecElements? (.node .macroBody parts) = some elems) :
    elems.any (·.isNode) = true := by
  obtain ⟨path, bang, d, body, rfl⟩ := parts_of_vecElements? h
  obtain ⟨-, h⟩ := vecElements?_eq_some.mp h
  split at h
  · rename_i nodes
    cases h
    exact nodes
  · exact (Option.filter_eq_some_iff.mp h).2

theorem vecElements?_of_any {path bang : Tree} {d : Delim} {elems : Trees} (named : path.pathIdent? = some "vec")
    (nodes : elems.any (·.isNode) = true) : vecElements? (.node .macroBody [path, bang, .group d elems]) = some elems :=
  vecElements?_eq_some.mpr ⟨named, if_pos nodes⟩

theorem vecElements?_of_raw {path bang : Tree} {d : Delim} {body : Trees}
    (noList : vecElements? (.node .macroBody [path, bang, .group d body]) = none) :
    vecElements? (.node .macroBody [path, bang, .group d (Trees.raw body)]) = none := by
  refine Option.eq_none_iff_forall_ne_some.mpr fun elems found => ?_
  obtain ⟨named, found⟩ := vecElements?_eq_some.mp found
  have bare : (Trees.raw body).any (·.isNode) = false :=
    List.any_eq_false.mpr fun t mem => by rw [isNode_of_mem_trees_raw body mem]; decide
  rw [bare, if_neg (by decide), parseElements, trees_raw_raw] at found
  have unlisted := Option.eq_none_iff_forall_ne_some.mp noList
  by_cases nodes : body.any (·.isNode) = true
  · exact unlisted body (vecElements?_eq_some.mpr ⟨named, if_pos nodes⟩)
  · exact unlisted elems (vecElements?_eq_some.mpr ⟨named, (if_neg nodes).trans found⟩)

theorem closed_closeMacro {parts : Trees} (noList : vecElements? (.node .macroBody parts) = none) :
    ∃ parts', closeMacro parts = .node .macroBody parts' ∧ vecElements? (.node .macroBody parts') = none ∧
      closeMacro parts' = .node .macroBody parts' := by
  unfold closeMacro
  split
  · rename_i path bang d body
    exact ⟨_, rfl, vecElements?_of_raw noList, by simp only [trees_raw_raw]⟩
  · refine ⟨_, rfl, ?_, ?_⟩
    · refine Option.eq_none_iff_forall_ne_some.mpr fun elems found => ?_
      obtain ⟨path, bang, d, body, same⟩ := parts_of_vecElements? found
      rw [same] at found
      obtain ⟨named, -⟩ := vecElements?_eq_some.mp found
      have bare : path.isNode = false := isNode_of_mem_trees_raw parts (by rw [same]; exact List.mem_cons_self)
      cases path with
      | node k parts => cases bare
      | leaf token => cases named
      | group d body => cases named
    · split
      · rename_i path bang d body same
        have twice := trees_raw_raw parts
        rw [same] at twice ⊢
        have last := congrArg List.getLast? twice
        simp only [Trees.raw, Tree.raw, List.append_nil, List.getLast?_append, List.getLast?_singleton, Option.some_or,
          List.getLast?_cons_cons, Option.some.injEq, Tree.group.injEq, true_and] at last
        rw [last]
      · rw [trees_raw_raw]

/-- A tree at which, and below which, a stage finds nothing to do: no rewriter applies, no parentheses are missing, and
macro calls are closed or lists. -/
inductive Fixed (stage : Stage) (c : Context) : Tree → Prop
  | leaf (token : Token) : Fixed stage c (.leaf token)
  | group (d : Delim) {body : Trees} (inner : ∀ t ∈ body, Fixed stage c t) : Fixed stage c (.group d body)
  | elements {path bang : Tree} {d : Delim} {body : Trees}
      (list : vecElements? (.node .macroBody [path, bang, .group d body]) = some body)
      (inner : ∀ t ∈ body, Fixed stage c t) : Fixed stage c (.node .macroBody [path, bang, .group d body])
  | closed {parts : Trees} (noList : vecElements? (.node .macroBody parts) = none)
      (bare : closeMacro parts = .node .macroBody parts) : Fixed stage c (.node .macroBody parts)
  | node {k : Kind} {parts : Trees} (passes : Passes stage c (.node k parts)) (opened : k ≠ .macroBody)
      (ordered : regroup k parts = parts) (inner : ∀ t ∈ parts, Fixed stage c t) : Fixed stage c (.node k parts)

namespace Fixed
variable {stage : Stage} {c : Context}

theorem parts {k : Kind} {parts : Trees} (opened : k ≠ .macroBody) (h : Fixed stage c (.node k parts)) :
    ∀ t ∈ parts, Fixed stage c t := by
  cases h with
  | elements => exact absurd rfl opened
  | closed => exact absurd rfl opened
  | node _ _ _ inner => exact inner

theorem body {d : Delim} {body : Trees} (h : Fixed stage c (.group d body)) : ∀ t ∈ body, Fixed stage c t := by
  cases h with
  | group _ inner => exact inner

theorem passes {t : Tree} (h : Fixed stage c t) : Passes stage c t := by
  cases h with
  | node passes => exact passes
  | _ => exact passes_of_not_offered rfl

theorem of_not_offered {k : Kind} {parts : Trees} (closed : isOffered (.node k parts) = false) (opened : k ≠ .macroBody)
    (inner : ∀ t ∈ parts, Fixed stage c t) : Fixed stage c (.node k parts) := by
  refine .node (passes_of_not_offered closed) opened ?_ inner
  cases k with
  | expr k => cases closed
  | _ => rfl

theorem noAttrs : Fixed stage c Code.noAttrs := .of_not_offered rfl (by decide) fun _ mem => by cases mem

theorem parenOf {e : Tree} (noCall : e.callPath? = none) (h : Fixed stage c e) : Fixed stage c (parenOf e) := by
  refine .node (passes_parenOf noCall) (by decide) rfl fun t mem => ?_
  simp only [List.mem_cons, List.not_mem_nil, or_false] at mem
  rcases mem with rfl | rfl
  · exact noAttrs
  · exact .group _ fun t mem => List.mem_singleton.mp mem ▸ h

end Fixed

theorem fixed_pathOf {stage : Stage} {c : Context} (name : String) : Fixed stage c (pathOf name) := by
  refine .of_not_offered rfl (by decide) fun t mem => ?_
  rw [List.mem_singleton.mp mem]
  refine .of_not_offered rfl (by decide) fun t mem => ?_
  simp only [List.mem_cons, List.not_mem_nil, or_false] at mem
  rcases mem with rfl | rfl
  · exact .leaf _
  · exact .of_not_offered rfl (by decide) fun _ mem => by cases mem

theorem fixed_var {c : Context} (name : String) : Fixed normalize c (var name) := by
  refine .node (passes_normalize_iff.mpr {}) (by decide) rfl fun t mem => ?_
  simp only [List.mem_cons, List.not_mem_nil, or_false] at mem
  rcases mem with rfl | rfl
  · exact .noAttrs
  · exact fixed_pathOf name

/-- Nothing is left for the stage to do at what it makes, whatever becomes of the parts. -/
structure Settles (stage : Stage) (c : Context) : Prop where
  made : ∀ t, Passes stage c (stage.made c t)
  walked : ∀ {t t' : Tree}, Walked stage c t t' → Passes stage c t → Passes stage c t'
  shielded : ∀ {k : Kind} {parts : Trees}, k ≠ .expr .structLit → Passes stage c (.node k parts) →
    Passes stage c (.node k (shieldAll parts))

theorem settles_normalize {c : Context} (steady : Steady c) : Settles normalize c where
  made := passes_made_normalize steady
  walked h passes := passes_normalize_iff.mpr ((passes_normalize_iff.mp passes).walked steady h passes)
  shielded noLiteral passes := passes_normalize_iff.mpr ((passes_normalize_iff.mp passes).shielded noLiteral)

theorem settles_promote {c : Context} (steady : Steady c) : Settles promote c where
  made := passes_made_promote c
  walked h passes := passes_promote_iff.mpr ((passes_promote_iff.mp passes).walked steady h passes)
  shielded noLiteral passes := passes_promote_iff.mpr ((passes_promote_iff.mp passes).shielded noLiteral)

theorem mem_shieldAll {ts : Trees} {u : Tree} : u ∈ shieldAll ts ↔ ∃ t ∈ ts, shield t = u := by
  induction ts with
  | nil => simp [shieldAll]
  | cons t ts ih => simp [shieldAll, ih, eq_comm]

theorem shieldAll_of_leaves {ts : Trees} (leaves : ∀ t ∈ ts, t.isNode = false) : shieldAll ts = ts := by
  induction ts with
  | nil => rfl
  | cons t ts ih =>
    rw [shieldAll, ih fun u mem => leaves u (List.mem_cons_of_mem _ mem)]
    have leaf := leaves t List.mem_cons_self
    cases t with
    | node k parts => cases leaf
    | _ => rfl

theorem pathIdent?_shield (t : Tree) : (Rewrite.shield t).pathIdent? = t.pathIdent? := by
  refine Option.ext fun name => ?_
  rw [← outline_eq_path, ← outline_eq_path, outline_shield]

theorem vecElements?_shieldAll (parts : Trees) :
    vecElements? (.node .macroBody (shieldAll parts)) = vecElements? (.node .macroBody parts) := by
  refine Option.ext fun elems => ?_
  constructor
  · intro found
    obtain ⟨path, bang, d, body, same⟩ := parts_of_vecElements? found
    rw [same, vecElements?_eq_some] at found
    simp only [shieldAll_eq_cons, shieldAll_eq_nil, shield_eq_group] at same
    obtain ⟨path, _, rfl, rfl, bang, _, rfl, rfl, _, _, rfl, rfl, rfl⟩ := same
    rw [pathIdent?_shield] at found
    exact vecElements?_eq_some.mpr found
  · intro found
    obtain ⟨path, bang, d, body, rfl⟩ := parts_of_vecElements? found
    rw [vecElements?_eq_some, ← pathIdent?_shield] at found
    exact vecElements?_eq_some.mpr found

theorem closeMacro_shieldAll {parts : Trees} (bare : closeMacro parts = .node .macroBody parts) :
    closeMacro (shieldAll parts) = .node .macroBody (shieldAll parts) := by
  unfold closeMacro at bare
  split at bare
  · simp only [Code.Tree.node.injEq, List.cons.injEq, Tree.group.injEq, true_and, and_true] at bare
    simp only [shieldAll, Rewrite.shield, closeMacro, bare]
  · rename_i other
    injection bare with _ bare
    have leaves : ∀ t ∈ parts, t.isNode = false := fun t mem => isNode_of_mem_trees_raw parts (by rwa [bare])
    rw [shieldAll_of_leaves leaves, closeMacro, bare]
    exact other

theorem Fixed.shield {stage : Stage} {c : Context} (settles : Settles stage c) {t : Tree} (h : Fixed stage c t) :
    Fixed stage c (shield t) := by
  induction h with
  | leaf token => exact .leaf token
  | group d inner => exact .group d inner
  | @elements path bang d body list inner =>
    have kept : Rewrite.shield (.node .macroBody [path, bang, .group d body]) =
        .node .macroBody (shieldAll [path, bang, .group d body]) := rfl
    rw [kept]
    exact .elements ((vecElements?_shieldAll [path, bang, .group d body]).trans list) inner
  | @closed parts noList bare =>
    have kept : Rewrite.shield (.node .macroBody parts) = .node .macroBody (shieldAll parts) := rfl
    rw [kept]
    exact .closed ((vecElements?_shieldAll parts).trans noList) (closeMacro_shieldAll bare)
  | @node k parts passes opened ordered inner ih =>
    by_cases literal : k = .expr .structLit
    · subst literal
      exact .parenOf rfl (.node passes opened ordered inner)
    · rw [shield_node, if_neg literal]
      refine .node (settles.shielded literal passes) opened (regroup_shieldAll ordered) fun u mem => ?_
      obtain ⟨t, inside, rfl⟩ := mem_shieldAll.mp mem
      exact ih t inside

theorem fixed_regroup {stage : Stage} {c : Context} (settles : Settles stage c) (k : Kind) {parts : Trees}
    (h : ∀ t ∈ parts, Fixed stage c t) : ∀ t ∈ regroup k parts, Fixed stage c t := by
  fun_cases regroup k parts with
  | case1 =>
    simp only [List.forall_mem_cons] at h ⊢
    exact ⟨h.1, h.2.1, h.2.2.1.shield settles, h.2.2.2⟩
  | case2 =>
    simp only [List.forall_mem_cons] at h ⊢
    exact ⟨h.1, h.2.1, h.2.2.1, h.2.2.2.1.shield settles, h.2.2.2.2⟩
  | case3 =>
    simp only [List.forall_mem_cons] at h ⊢
    exact ⟨h.1, h.2.1, h.2.2.1.shield settles, h.2.2.2⟩
  | case4 =>
    simp only [List.forall_mem_cons] at h ⊢
    exact ⟨h.1, h.2.1, h.2.2.1, h.2.2.2.1, h.2.2.2.2.1, h.2.2.2.2.2.1.shield settles, h.2.2.2.2.2.2⟩
  | case5 =>
    simp only [List.forall_mem_cons] at h ⊢
    exact ⟨h.1, .parenOf rfl h.2.1, h.2.2⟩
  | case6 => exact h

theorem Walked.isNode_eq {stage : Stage} {c : Context} {t t' : Tree} (h : Walked stage c t t') : t'.isNode = t.isNode := by
  cases t with
  | leaf token => rw [h.eq_leaf]
  | group d body =>
    obtain ⟨body', rfl, -⟩ := h.eq_group
    rfl
  | node k parts =>
    cases t' with
    | leaf token => cases h.leaf_eq
    | group d body =>
      obtain ⟨_, ⟨⟩, -⟩ := h.group_eq
    | node k' parts' => rfl

theorem any_isNode_walked {stage : Stage} {c : Context} {ts ts' : Trees} (h : List.Forall₂ (Walked stage c) ts ts') :
    ts'.any (·.isNode) = ts.any (·.isNode) := by
  induction h with
  | nil => rfl
  | cons first _ ih => rw [List.any_cons, List.any_cons, first.isNode_eq, ih]

theorem vecElements?_walked {stage : Stage} {c : Context} {path bang : Tree} {d : Delim} {body elems elems' : Trees}
    (found : vecElements? (.node .macroBody [path, bang, .group d body]) = some elems)
    (inner : List.Forall₂ (Walked stage c) elems elems') :
    vecElements? (.node .macroBody [path, bang, .group d elems']) = some elems' := by
  refine vecElements?_of_any (vecElements?_eq_some.mp found).1 ?_
  rw [any_isNode_walked inner, any_isNode_of_vecElements? found]

theorem WalksAll.fixed {stage : Stage} {c : Context} (settles : Settles stage c) {ts ts' : Trees} {s s' : State}
    (h : WalksAll stage c ts s ts' s') : ∀ t ∈ ts', Fixed stage c t := by
  induction h with
  | nil => simp
  | leaf _ _ ih => exact List.forall_mem_cons.mpr ⟨.leaf _, ih⟩
  | group _ _ _ ihInner ih => exact List.forall_mem_cons.mpr ⟨.group _ ihInner, ih⟩
  | elements _ found inner _ ihInner ih =>
    exact List.forall_mem_cons.mpr ⟨.elements (vecElements?_walked found inner.forall₂) ihInner, ih⟩
  | closed _ noList _ ih =>
    obtain ⟨parts', same, noList', bare⟩ := closed_closeMacro noList
    exact List.forall_mem_cons.mpr ⟨same ▸ .closed noList' bare, ih⟩
  | @node t _ parts parts' _ k _ _ _ _ offered opened inner _ ihInner ih =>
    have passes : Passes stage c (.node k parts) := by
      rw [Offered.eq_made ⟨_, _, offered⟩]
      exact settles.made t
    have walked := Walked.of_passes passes opened inner
    refine List.forall_mem_cons.mpr ⟨.node (settles.walked walked passes) opened (regroup_regroup k parts') ?_, ih⟩
    exact fixed_regroup settles k ihInner

theorem WalksAll.eq_of_fixed {stage : Stage} {c : Context} {ts ts' : Trees} {s s' : State} (h : WalksAll stage c ts s ts' s')
    (fixed : ∀ t ∈ ts, Fixed stage c (stage.made c t)) : ts' = ts.map (stage.made c) := by
  have kept : ∀ {ts : Trees}, (∀ t ∈ ts, Fixed stage c t) →
      (∀ t ∈ ts, Fixed stage c (stage.made c t)) ∧ ts.map (stage.made c) = ts := by
    intro ts each
    have same : ∀ t ∈ ts, stage.made c t = t := fun t mem => Stage.made_of_passes (each t mem).passes
    exact ⟨fun t mem => (same t mem).symm ▸ each t mem, (List.map_congr_left same).trans (List.map_id _)⟩
  induction h with
  | nil => rfl
  | leaf offered _ ih =>
    rw [List.forall_mem_cons, ← Offered.eq_made ⟨_, _, offered⟩] at fixed
    rw [List.map_cons, ← Offered.eq_made ⟨_, _, offered⟩, ih fixed.2]
  | group offered _ _ ihInner ih =>
    rw [List.forall_mem_cons, ← Offered.eq_made ⟨_, _, offered⟩] at fixed
    obtain ⟨each, same⟩ := kept fixed.1.body
    rw [List.map_cons, ← Offered.eq_made ⟨_, _, offered⟩, ih fixed.2, ihInner each, same]
  | elements offered found _ _ ihInner ih =>
    rw [List.forall_mem_cons, ← Offered.eq_made ⟨_, _, offered⟩] at fixed
    cases fixed.1 with
    | elements list inner =>
      rw [list, Option.some.injEq] at found
      subst found
      obtain ⟨each, same⟩ := kept inner
      rw [List.map_cons, ← Offered.eq_made ⟨_, _, offered⟩, ih fixed.2, ihInner each, same]
    | closed noList =>
      rw [noList] at found
      cases found
    | node _ opened => exact absurd rfl opened
  | closed offered noList _ ih =>
    rw [List.forall_mem_cons, ← Offered.eq_made ⟨_, _, offered⟩] at fixed
    cases fixed.1 with
    | elements list =>
      rw [noList] at list
      cases list
    | closed _ bare => rw [List.map_cons, ← Offered.eq_made ⟨_, _, offered⟩, ih fixed.2, bare]
    | node _ opened => exact absurd rfl opened
  | node offered opened _ _ ihInner ih =>
    rw [List.forall_mem_cons, ← Offered.eq_made ⟨_, _, offered⟩] at fixed
    obtain ⟨each, same⟩ := kept (fixed.1.parts opened)
    cases fixed.1 with
    | elements => exact absurd rfl opened
    | closed => exact absurd rfl opened
    | node _ _ ordered => rw [List.map_cons, ← Offered.eq_made ⟨_, _, offered⟩, ih fixed.2, ihInner each, same, ordered]

theorem Walked.eq_of_made_fixed {stage : Stage} {c : Context} {t t' : Tree} (h : Walked stage c t t')
    (fixed : Fixed stage c (stage.made c t)) : t' = stage.made c t := by
  obtain ⟨s, s', h⟩ := h
  have same := h.eq_of_fixed (List.forall_mem_singleton.mpr fixed)
  exact (List.cons.inj same).1

theorem Walked.eq_of_fixed {stage : Stage} {c : Context} {t t' : Tree} (h : Walked stage c t t') (fixed : Fixed stage c t) :
    t' = t := by
  have same := Stage.made_of_passes fixed.passes
  rw [← same] at fixed
  exact (h.eq_of_made_fixed fixed).trans same

theorem mapM_of_fixed {step : Tree → StateT State Option Tree} {ts : Trees}
    (stays : ∀ t ∈ ts, ∀ s, ∃ s', (step t).run s = some (t, s') ∧ s'.helpersOnly = s.helpersOnly) (s : State) :
    ∃ s', (ts.mapM step).run s = some (ts, s') ∧ s'.helpersOnly = s.helpersOnly := by
  induction ts generalizing s with
  | nil => exact ⟨s, rfl, rfl⟩
  | cons t ts ih =>
    obtain ⟨s₁, first, kept⟩ := stays t List.mem_cons_self s
    obtain ⟨s₂, rest, kept'⟩ := ih (fun u mem => stays u (List.mem_cons_of_mem _ mem)) s₁
    refine ⟨s₂, ?_, kept'.trans kept⟩
    simp only [List.mapM_cons, StateT.run_bind, first, Option.bind_eq_bind, Option.bind_some, rest, StateT.run_pure]
    rfl

theorem weight_of_mem {t : Tree} {ts : Trees} (mem : t ∈ ts) : weight t ≤ weights ts := by
  induction ts with
  | nil => cases mem
  | cons u ts ih =>
    rw [weights]
    rcases List.mem_cons.mp mem with rfl | mem
    · omega
    · have := ih mem
      omega

theorem offer_of_passes {stage : Stage} {c : Context} {t : Tree} (staged : stage ∈ standard)
    (passes : Passes stage c t) (s : State) :
    ∃ s', (stage.offer c t).run s = (t, s') ∧ s'.helpersOnly = s.helpersOnly := by
  obtain ⟨s', offered⟩ := offer_eq_made stage c t s
  have kept := helpersOnly_of_passes staged passes s
  rw [offered] at kept
  exact ⟨s', by rw [offered, Stage.made_of_passes passes], kept⟩

theorem Fixed.walk {stage : Stage} {c : Context} {t : Tree} (staged : stage ∈ standard) (h : Fixed stage c t)
    {depth : Nat} (deep : weight t < depth) (s : State) :
    ∃ s', (stage.walk c depth t).run s = some (t, s') ∧ s'.helpersOnly = s.helpersOnly := by
  induction h generalizing depth s with
  | leaf token =>
    obtain ⟨n, rfl⟩ := Nat.exists_eq_succ_of_ne_zero (Nat.ne_zero_of_lt deep)
    obtain ⟨s₁, offered, kept⟩ := offer_of_passes staged (Fixed.leaf token : Fixed stage c _).passes s
    refine ⟨s₁, ?_, kept⟩
    simp only [Stage.walk, StateT.run_bind, Run.run_total, offered, Option.bind_eq_bind, Option.bind_some]
    rfl
  | @group d body inner ih =>
    obtain ⟨n, rfl⟩ := Nat.exists_eq_succ_of_ne_zero (Nat.ne_zero_of_lt deep)
    rw [weight] at deep
    obtain ⟨s₁, offered, kept⟩ := offer_of_passes staged (Fixed.group d inner).passes s
    have stays : ∀ t ∈ body, ∀ s, ∃ s', (stage.walk c n t).run s = some (t, s') ∧
        s'.helpersOnly = s.helpersOnly := fun t mem =>
      ih t mem (by have := weight_of_mem mem; omega)
    obtain ⟨s₂, same, kept'⟩ := mapM_of_fixed stays s₁
    refine ⟨s₂, ?_, kept'.trans kept⟩
    simp only [Stage.walk, StateT.run_bind, Run.run_total, offered, Option.bind_eq_bind, Option.bind_some, same]
    rfl
  | @elements path bang d body list inner ih =>
    obtain ⟨n, rfl⟩ := Nat.exists_eq_succ_of_ne_zero (Nat.ne_zero_of_lt deep)
    rw [weight, weights, weights, weights, weight] at deep
    obtain ⟨s₁, offered, kept⟩ := offer_of_passes staged (Fixed.elements list inner).passes s
    have stays : ∀ t ∈ body, ∀ s, ∃ s', (stage.walk c n t).run s = some (t, s') ∧
        s'.helpersOnly = s.helpersOnly := fun t mem =>
      ih t mem (by have := weight_of_mem mem; omega)
    obtain ⟨s₂, same, kept'⟩ := mapM_of_fixed stays s₁
    refine ⟨s₂, ?_, kept'.trans kept⟩
    simp only [Stage.walk, StateT.run_bind, Run.run_total, offered, Option.bind_eq_bind, Option.bind_some, list, same]
    rfl
  | @closed parts noList bare =>
    obtain ⟨n, rfl⟩ := Nat.exists_eq_succ_of_ne_zero (Nat.ne_zero_of_lt deep)
    obtain ⟨s₁, offered, kept⟩ := offer_of_passes staged (Fixed.closed noList bare : Fixed stage c _).passes s
    refine ⟨s₁, ?_, kept⟩
    simp only [Stage.walk, StateT.run_bind, Run.run_total, offered, Option.bind_eq_bind, Option.bind_some, noList, bare]
    rfl
  | @node k parts passes opened ordered inner ih =>
    obtain ⟨n, rfl⟩ := Nat.exists_eq_succ_of_ne_zero (Nat.ne_zero_of_lt deep)
    rw [weight] at deep
    obtain ⟨s₁, offered, kept⟩ := offer_of_passes staged passes s
    have stays : ∀ t ∈ parts, ∀ s, ∃ s', (stage.walk c n t).run s = some (t, s') ∧
        s'.helpersOnly = s.helpersOnly := fun t mem =>
      ih t mem (by have := weight_of_mem mem; omega)
    obtain ⟨s₂, same, kept'⟩ := mapM_of_fixed stays s₁
    refine ⟨s₂, ?_, kept'.trans kept⟩
    simp only [Stage.walk, StateT.run_bind, Run.run_total, offered, Option.bind_eq_bind, Option.bind_some, same, ordered]
    rfl

theorem mapM_any_state {step : Tree → StateT State Option Tree} {ts ts' : Trees} {s s' : State}
    (again : ∀ {t t' s s'}, (step t).run s = some (t', s') → ∀ s₂, ∃ s₂', (step t).run s₂ = some (t', s₂'))
    (h : (ts.mapM step).run s = some (ts', s')) (s₂ : State) : ∃ s₂', (ts.mapM step).run s₂ = some (ts', s₂') := by
  induction ts generalizing ts' s s₂ with
  | nil =>
    cases h
    exact ⟨s₂, rfl⟩
  | cons t ts ih =>
    simp only [List.mapM_cons, StateT.run_bind, StateT.run_pure, Option.bind_eq_bind, Option.bind_eq_some_iff,
      Option.pure_def, Option.some.injEq, Prod.mk.injEq, Prod.exists] at h
    obtain ⟨t', s₁, first, rest', s₃, rest, rfl, rfl⟩ := h
    obtain ⟨s₄, first'⟩ := again first s₂
    obtain ⟨s₅, rest'⟩ := ih rest s₄
    refine ⟨s₅, ?_⟩
    simp only [List.mapM_cons, StateT.run_bind, first', Option.bind_eq_bind, Option.bind_some, rest', StateT.run_pure]
    rfl

theorem Stage.walk_any_state {stage : Stage} {c : Context} {depth : Nat} {t t' : Tree} {s s' : State}
    (h : (stage.walk c depth t).run s = some (t', s')) (s₂ : State) :
    ∃ s₂', (stage.walk c depth t).run s₂ = some (t', s₂') := by
  induction depth generalizing t t' s s' s₂ with
  | zero => cases h
  | succ depth ih =>
    obtain ⟨s₁, offered⟩ := offer_eq_made stage c t s
    obtain ⟨s₃, offered'⟩ := offer_eq_made stage c t s₂
    rw [Stage.walk, StateT.run_bind] at h ⊢
    simp only [Run.run_total, offered, offered', Option.bind_eq_bind, Option.bind_some] at h ⊢
    generalize stage.made c t = u at h ⊢
    have inside : ∀ {ts ts' : Trees} {s s' : State}, (ts.mapM (stage.walk c depth)).run s = some (ts', s') →
        ∀ s₂, ∃ s₂', (ts.mapM (stage.walk c depth)).run s₂ = some (ts', s₂') := fun run s₂ => mapM_any_state ih run s₂
    have wrapped : ∀ {ts : Trees} {wrap : Trees → Tree},
        ((do return wrap (← ts.mapM (stage.walk c depth)) : StateT State Option Tree).run s₁ = some (t', s')) →
          ∃ s₂', (do return wrap (← ts.mapM (stage.walk c depth)) : StateT State Option Tree).run s₃ = some (t', s₂') := by
      intro ts wrap run
      simp only [StateT.run_bind, StateT.run_pure, Option.bind_eq_bind, Option.bind_eq_some_iff, Option.pure_def,
        Option.some.injEq, Prod.mk.injEq, Prod.exists] at run
      obtain ⟨ts', s₄, run, rfl, rfl⟩ := run
      obtain ⟨s₅, run'⟩ := inside run s₃
      refine ⟨s₅, ?_⟩
      simp only [StateT.run_bind, run', Option.bind_eq_bind, Option.bind_some, StateT.run_pure]
      rfl
    split at h
    · cases h
      exact ⟨s₃, rfl⟩
    · exact wrapped h
    · split at h
      · exact wrapped h
      · cases h
        exact ⟨s₃, rfl⟩
    · exact wrapped h

end Retype.Rewrite
