import Mathlib.Data.List.Forall2
import Retype.Rewrite.Stage

/-! Walks that end, told without a bound on their depth.  A walk offers a tree to the rewriters and goes on in
what they make of it; the state is handed from tree to tree, in source order. -/

namespace Retype.Rewrite
open Retype.Code

/-- A walk over trees, one after another: what it makes of them, and of the state. -/
inductive WalksAll (stage : Stage) (c : Context) : Trees → State → Trees → State → Prop
  | nil (s : State) : WalksAll stage c [] s [] s
  | leaf {t : Tree} {ts ts' : Trees} {token : Token} {s s₁ s₂ : State}
      (offered : (stage.offer c t).run s = (.leaf token, s₁)) (rest : WalksAll stage c ts s₁ ts' s₂) :
      WalksAll stage c (t :: ts) s (.leaf token :: ts') s₂
  | group {t : Tree} {ts body body' ts' : Trees} {d : Delim} {s s₁ s₂ s₃ : State}
      (offered : (stage.offer c t).run s = (.group d body, s₁)) (inner : WalksAll stage c body s₁ body' s₂)
      (rest : WalksAll stage c ts s₂ ts' s₃) : WalksAll stage c (t :: ts) s (.group d body' :: ts') s₃
  | elements {t path bang : Tree} {ts body elems elems' ts' : Trees} {d : Delim} {s s₁ s₂ s₃ : State}
      (offered : (stage.offer c t).run s = (.node .macroBody [path, bang, .group d body], s₁))
      (found : vecElements? (.node .macroBody [path, bang, .group d body]) = some elems)
      (inner : WalksAll stage c elems s₁ elems' s₂) (rest : WalksAll stage c ts s₂ ts' s₃) :
      WalksAll stage c (t :: ts) s (.node .macroBody [path, bang, .group d elems'] :: ts') s₃
  | closed {t : Tree} {ts parts ts' : Trees} {s s₁ s₂ : State}
      (offered : (stage.offer c t).run s = (.node .macroBody parts, s₁))
      (noList : vecElements? (.node .macroBody parts) = none)
      (rest : WalksAll stage c ts s₁ ts' s₂) : WalksAll stage c (t :: ts) s (closeMacro parts :: ts') s₂
  | node {t : Tree} {ts parts parts' ts' : Trees} {k : Kind} {s s₁ s₂ s₃ : State}
      (offered : (stage.offer c t).run s = (.node k parts, s₁)) (opened : k ≠ .macroBody)
      (inner : WalksAll stage c parts s₁ parts' s₂) (rest : WalksAll stage c ts s₂ ts' s₃) :
      WalksAll stage c (t :: ts) s (.node k (regroup k parts') :: ts') s₃

namespace WalksAll
variable {stage : Stage} {c : Context}

theorem append_one {t t' : Tree} {ts ts' : Trees} {s s₁ s₂ : State} (first : WalksAll stage c [t] s [t'] s₁)
    (rest : WalksAll stage c ts s₁ ts' s₂) : WalksAll stage c (t :: ts) s (t' :: ts') s₂ := by
  cases first with
  | leaf offered nothing => cases nothing; exact .leaf offered rest
  | group offered inner nothing => cases nothing; exact .group offered inner rest
  | elements offered found inner nothing => cases nothing; exact .elements offered found inner rest
  | closed offered noList nothing => cases nothing; exact .closed offered noList rest
  | node offered opened inner nothing => cases nothing; exact .node offered opened inner rest

theorem of_mapM {step : Tree → StateT State Option Tree}
    (walks : ∀ {t t' s s'}, (step t).run s = some (t', s') → WalksAll stage c [t] s [t'] s')
    {ts ts' : Trees} {s s' : State} (h : (ts.mapM step).run s = some (ts', s')) :
    WalksAll stage c ts s ts' s' := by
  induction ts generalizing ts' s with
  | nil =>
    simp only [List.mapM_nil, StateT.run_pure, Option.pure_def, Option.some.injEq, Prod.mk.injEq] at h
    obtain ⟨rfl, rfl⟩ := h
    exact .nil s
  | cons t ts ih =>
    simp only [List.mapM_cons, StateT.run_bind, StateT.run_pure, Option.bind_eq_bind, Option.bind_eq_some_iff,
      Option.pure_def, Option.some.injEq, Prod.mk.injEq, Prod.exists] at h
    obtain ⟨t', s₁, first, rest', s₂, rest, rfl, rfl⟩ := h
    exact append_one (walks first) (ih rest)

end WalksAll

theorem parts_of_vecElements? {parts elems : Trees} (h : vecElements? (.node .macroBody parts) = some elems) :
    ∃ path bang d body, parts = [path, bang, .group d body] := by
  unfold vecElements? at h
  split at h
  · rename_i same
    cases same
    exact ⟨_, _, _, _, rfl⟩
  · cases h

theorem Stage.walksAll_of_walk {stage : Stage} {c : Context} {depth : Nat} {t t' : Tree} {s s' : State}
    (h : (stage.walk c depth t).run s = some (t', s')) : WalksAll stage c [t] s [t'] s' := by
  induction depth generalizing t t' s s' with
  | zero => cases h
  | succ depth ih =>
    have first : ∃ u s₁, (stage.offer c t).run s = (u, s₁) := ⟨_, _, rfl⟩
    obtain ⟨u, s₁, offered⟩ := first
    rw [Stage.walk, StateT.run_bind] at h
    simp only [Run.run_total, offered, Option.bind_eq_bind, Option.bind_some] at h
    split at h
    · simp only [StateT.run_pure, Option.pure_def, Option.some.injEq, Prod.mk.injEq] at h
      obtain ⟨rfl, rfl⟩ := h
      exact .leaf offered (.nil _)
    · simp only [StateT.run_bind, StateT.run_pure, Option.bind_eq_bind, Option.bind_eq_some_iff,
        Option.pure_def, Option.some.injEq, Prod.mk.injEq, Prod.exists] at h
      obtain ⟨body', s₂, inner, rfl, rfl⟩ := h
      exact .group offered (.of_mapM ih inner) (.nil _)
    · split at h
      · rename_i found
        simp only [StateT.run_bind, StateT.run_pure, Option.bind_eq_bind, Option.bind_eq_some_iff,
          Option.pure_def, Option.some.injEq, Prod.mk.injEq, Prod.exists] at h
        obtain ⟨elems', s₂, inner, rfl, rfl⟩ := h
        exact .elements offered found (.of_mapM ih inner) (.nil _)
      · rename_i parts _ _ noElements
        have noList : vecElements? (.node .macroBody parts) = none := by
          refine Option.eq_none_iff_forall_ne_some.mpr fun elems found => ?_
          obtain ⟨path, bang, d, body, rfl⟩ := parts_of_vecElements? found
          exact noElements _ _ _ _ _ rfl found
        simp only [StateT.run_pure, Option.pure_def, Option.some.injEq, Prod.mk.injEq] at h
        obtain ⟨rfl, rfl⟩ := h
        exact .closed offered noList (.nil _)
    · rename_i k parts opened
      simp only [StateT.run_bind, StateT.run_pure, Option.bind_eq_bind, Option.bind_eq_some_iff,
        Option.pure_def, Option.some.injEq, Prod.mk.injEq, Prod.exists] at h
      obtain ⟨parts', s₂, inner, rfl, rfl⟩ := h
      exact .node offered opened (.of_mapM ih inner) (.nil _)

theorem Stage.walksAll_of_run? {stage : Stage} {c : Context} {t t' : Tree} {s s' : State}
    (h : (stage.run? c t).run s = some (t', s')) : WalksAll stage c [t] s [t'] s' :=
  walksAll_of_walk h

theorem mapM_run_mono {step more : Tree → StateT State Option Tree}
    (mono : ∀ {t t' s s'}, (step t).run s = some (t', s') → (more t).run s = some (t', s'))
    {ts ts' : Trees} {s s' : State} (h : (ts.mapM step).run s = some (ts', s')) :
    (ts.mapM more).run s = some (ts', s') := by
  induction ts generalizing ts' s s' with
  | nil => exact h
  | cons t ts ih =>
    simp only [List.mapM_cons, StateT.run_bind, StateT.run_pure, Option.bind_eq_bind, Option.bind_eq_some_iff,
      Option.pure_def, Prod.exists] at h ⊢
    obtain ⟨t', s₁, first, rest', s₂, rest, same⟩ := h
    exact ⟨t', s₁, mono first, rest', s₂, ih rest, same⟩

theorem Stage.walk_mono {stage : Stage} {c : Context} {depth deeper : Nat} (le : depth ≤ deeper) {t t' : Tree}
    {s s' : State} (h : (stage.walk c depth t).run s = some (t', s')) :
    (stage.walk c deeper t).run s = some (t', s') := by
  induction depth generalizing deeper t t' s s' with
  | zero => cases h
  | succ depth ih =>
    obtain ⟨deeper, rfl⟩ : ∃ n, deeper = n + 1 := ⟨deeper - 1, by omega⟩
    have inner {ts ts' : Trees} {s s' : State} (h : (ts.mapM (stage.walk c depth)).run s = some (ts', s')) :
        (ts.mapM (stage.walk c deeper)).run s = some (ts', s') :=
      mapM_run_mono (ih (Nat.le_of_succ_le_succ le)) h
    rw [Stage.walk, StateT.run_bind] at h ⊢
    simp only [Run.run_total, Option.bind_eq_bind, Option.bind_some] at h ⊢
    split at h
    · exact h
    · simp only [StateT.run_bind, Option.bind_eq_bind, Option.bind_eq_some_iff, Prod.exists] at h ⊢
      obtain ⟨body', s₂, walked, same⟩ := h
      exact ⟨body', s₂, inner walked, same⟩
    · split at h
      · simp only [StateT.run_bind, Option.bind_eq_bind, Option.bind_eq_some_iff, Prod.exists] at h ⊢
        obtain ⟨elems', s₂, walked, same⟩ := h
        exact ⟨elems', s₂, inner walked, same⟩
      · exact h
    · simp only [StateT.run_bind, Option.bind_eq_bind, Option.bind_eq_some_iff, Prod.exists] at h ⊢
      obtain ⟨parts', s₂, walked, same⟩ := h
      exact ⟨parts', s₂, inner walked, same⟩

theorem Stage.run?_of_walk {stage : Stage} {c : Context} {depth : Nat} {t t' : Tree} {s s' : State}
    (shallow : depth ≤ (weight t + 1) * 32) (h : (stage.walk c depth t).run s = some (t', s')) :
    (stage.run? c t).run s = some (t', s') := by
  have within : (weight t + 1) * 32 ≤ walkDepth c t := by
    rw [walkDepth]
    omega
  exact walk_mono (Nat.le_trans shallow within) h

mutual
/-- The nodes of a tree from the outside in.  Of a macro call only what its body holds counts: a closed call
holds tokens, a list of expressions that was walked holds these. -/
def nodes : Tree → Trees
  | .leaf _ => []
  | .group _ body => nodesAll body
  | .node .macroBody [_, _, .group _ body] => nodesAll body
  | .node .macroBody _ => []
  | .node k parts => .node k parts :: nodesAll parts

def nodesAll : List Tree → Trees
  | [] => []
  | t :: ts => nodes t ++ nodesAll ts
end

theorem nodesAll_append (a b : Trees) : nodesAll (a ++ b) = nodesAll a ++ nodesAll b := by
  induction a with
  | nil => rfl
  | cons t a ih => simp only [List.cons_append, nodesAll, ih, List.append_assoc]

theorem nodes_of_ne {k : Kind} (opened : k ≠ .macroBody) (parts : Trees) :
    nodes (.node k parts) = .node k parts :: nodesAll parts := by
  rw [nodes] <;> (intros; contradiction)

theorem nodesAll_map_leaf (tokens : List Token) : nodesAll (tokens.map .leaf) = [] := by
  induction tokens with
  | nil => rfl
  | cons token tokens ih => simp only [List.map_cons, nodesAll, nodes, ih, List.append_nil]

mutual
theorem nodesAll_raw (t : Tree) : nodesAll t.raw = [] := by
  cases t with
  | leaf token => exact nodesAll_map_leaf token.split
  | group d body => simp only [Tree.raw, nodesAll, nodes, nodesAll_trees_raw body, List.append_nil]
  | node k parts => exact nodesAll_trees_raw parts

theorem nodesAll_trees_raw (ts : List Tree) : nodesAll (Trees.raw ts) = [] := by
  cases ts with
  | nil => rfl
  | cons t ts => rw [Trees.raw, nodesAll_append, nodesAll_raw t, nodesAll_trees_raw ts, List.append_nil]
end

theorem nodes_macroBody {parts : Trees} (h : nodesAll parts = []) : nodes (.node .macroBody parts) = [] := by
  rw [nodes.eq_def]
  split <;> simp_all [nodesAll, nodes]

theorem nodes_closeMacro (parts : Trees) : nodes (closeMacro parts) = [] := by
  unfold closeMacro
  split
  · rw [nodes, nodesAll_trees_raw]
  · exact nodes_macroBody (nodesAll_trees_raw parts)

/-- What a stage may make of a tree it is offered. -/
def Offered (stage : Stage) (c : Context) (t u : Tree) : Prop := ∃ s s', (stage.offer c t).run s = (u, s')

def Walked (stage : Stage) (c : Context) (t t' : Tree) : Prop := ∃ s s', WalksAll stage c [t] s [t'] s'

theorem WalksAll.forall₂ {stage : Stage} {c : Context} {ts ts' : Trees} {s s' : State}
    (h : WalksAll stage c ts s ts' s') : List.Forall₂ (Walked stage c) ts ts' := by
  induction h with
  | nil => exact .nil
  | leaf offered _ ih => exact .cons ⟨_, _, .leaf offered (.nil _)⟩ ih
  | group offered inner _ _ ih => exact .cons ⟨_, _, .group offered inner (.nil _)⟩ ih
  | elements offered found inner _ _ ih => exact .cons ⟨_, _, .elements offered found inner (.nil _)⟩ ih
  | closed offered noList _ ih => exact .cons ⟨_, _, .closed offered noList (.nil _)⟩ ih
  | node offered opened inner _ _ ih => exact .cons ⟨_, _, .node offered opened inner (.nil _)⟩ ih

namespace Walked
variable {stage : Stage} {c : Context}

theorem of_group {t : Tree} {d : Delim} {body' : Trees} (h : Walked stage c t (.group d body')) :
    ∃ body, Offered stage c t (.group d body) ∧ List.Forall₂ (Walked stage c) body body' := by
  obtain ⟨s, s', h⟩ := h
  generalize same : Tree.group d body' = t' at h
  cases h with
  | group offered inner _ => cases same; exact ⟨_, ⟨_, _, offered⟩, inner.forall₂⟩
  | closed =>
    unfold closeMacro at same
    split at same <;> cases same
  | _ => cases same

theorem of_node {t : Tree} {k : Kind} {parts' : Trees} (opened : k ≠ .macroBody)
    (h : Walked stage c t (.node k parts')) : ∃ parts walked, Offered stage c t (.node k parts) ∧
      List.Forall₂ (Walked stage c) parts walked ∧ parts' = regroup k walked := by
  obtain ⟨s, s', h⟩ := h
  generalize same : Code.Tree.node k parts' = t' at h
  cases h with
  | elements => cases same; exact (opened rfl).elim
  | closed =>
    unfold closeMacro at same
    split at same <;> (cases same; exact (opened rfl).elim)
  | node offered _ inner _ => cases same; exact ⟨_, _, ⟨_, _, offered⟩, inner.forall₂, rfl⟩
  | _ => cases same

end Walked

/-- A property that a stage leaves each node with, whatever the walk makes of its parts, holds of all nodes. -/
theorem WalksAll.forall_nodes {stage : Stage} {c : Context} {p : Tree → Bool}
    (step : ∀ t k parts walked, k ≠ .macroBody → Offered stage c t (.node k parts) →
      List.Forall₂ (Walked stage c) parts walked → p (.node k (regroup k walked)) = false)
    (regrouped : ∀ k parts, (nodesAll (regroup k parts)).countP p = (nodesAll parts).countP p)
    {ts ts' : Trees} {s s' : State} (h : WalksAll stage c ts s ts' s') : (nodesAll ts').countP p = 0 := by
  induction h with
  | nil => rfl
  | leaf offered _ ih => simpa only [nodesAll, nodes, List.nil_append] using ih
  | group offered inner _ ihInner ih =>
    simp only [nodesAll, nodes, List.countP_append, ihInner, ih]
  | elements offered found inner _ ihInner ih =>
    simp only [nodesAll, nodes, List.countP_append, ihInner, ih]
  | closed offered _ _ ih =>
    rw [nodesAll, nodes_closeMacro, List.nil_append, ih]
  | @node t _ parts parts' _ k _ _ _ _ offered opened inner _ ihInner ih =>
    have own := step t k parts parts' opened ⟨_, _, offered⟩ inner.forall₂
    rw [nodesAll, nodes_of_ne opened, List.countP_append, List.countP_cons_of_neg (by rw [own]; decide), regrouped,
      ihInner, ih]

end Retype.Rewrite
