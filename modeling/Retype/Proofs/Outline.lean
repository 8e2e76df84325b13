import Retype.Proofs.Walk

/-! What the recognisers of reads and writes see of a tree.  An outline is built from the outlines of the parts,
so two trees of one kind whose parts have the same outlines are recognised alike. -/

namespace Retype.Rewrite
open Retype.Code

inductive Outline
  | leaf (token : Token)
  | group (body : List Outline)
  | absent
  | segment (name : String)
  | path (name : String)
  | var (name : String)
  | reference (inner : Outline)
  | tried (inner : Outline)
  /-- A call of `set` or `map_err`, with the number of its arguments. -/
  | call (method : String) (receiver : Outline) (count : Nat)
  | errPattern
  | wild
  /-- `let Err(…) = value` -/
  | errLet (value : Outline)
  | ifElse (cond other : Outline)
  | init (value other : Outline)
  | unseen

namespace Outline

def isComma : Outline → Bool
  | .leaf (.punct t _) => t == ","
  | _ => false

/-- Parentheses are seen through where an expression is looked for, and nowhere else. -/
def inParens : Outline → Outline
  | .var name => .var name
  | .reference inner => .reference inner
  | .tried inner => .tried inner
  | .call method receiver count => .call method receiver count
  | .errLet value => .errLet value
  | _ => .unseen

def ofNode : Kind → List Outline → Outline
  | .absent, _ => .absent
  | .segment, [.leaf (.ident name), .absent] => .segment name
  | .path, [.segment name] => .path name
  | .expr .path, [_, .path name] => .var name
  | .expr .paren, [_, .group [inner]] => inner.inParens
  | .expr .reference, [_, _, _, inner] => .reference inner
  | .expr .tried, [_, inner, _] => .tried inner
  | .expr .methodCall, [_, receiver, _, .leaf (.ident method), _, .group args] =>
    if method == "map_err" || method == "set" then .call method receiver (args.countP fun a => !a.isComma)
    else .unseen
  | .expr .letCond, [_, _, .errPattern, _, value] => .errLet value
  | .expr .ifElse, [_, _, cond, _, other] => .ifElse cond other
  | .pat .tupleStruct, _ :: .path "Err" :: _ => .errPattern
  | .pat .wild, _ => .wild
  | .init, [_, value, other] => .init value other
  | _, _ => .unseen

/-- The variable that an expression is, parentheses and references aside. -/
def var? : Outline → Option String
  | .var name => some name
  | .reference inner => inner.var?
  | _ => none

/-- The variable that an expression is, parentheses aside. -/
def name? : Outline → Option String
  | .var name => some name
  | _ => none

end Outline

mutual
def outline : Tree → Outline
  | .leaf token => .leaf token
  | .group _ body => .group (outlines body)
  | .node k parts => .ofNode k (outlines parts)

def outlines : List Tree → List Outline
  | [] => []
  | t :: ts => outline t :: outlines ts
end

theorem outlines_eq_map (ts : Trees) : outlines ts = ts.map outline := by
  induction ts with
  | nil => rfl
  | cons t ts ih => rw [outlines, ih, List.map_cons]

namespace Outline

/-- The role and the parts of a node with this outline, unless the node is in parentheses. -/
def Direct : Outline → Kind → List Outline → Prop
  | .leaf _, _, _ => False
  | .group _, _, _ => False
  | .absent, k, _ => k = .absent
  | .segment name, k, os => k = .segment ∧ os = [.leaf (.ident name), .absent]
  | .path name, k, os => k = .path ∧ os = [.segment name]
  | .var name, k, os => k = .expr .path ∧ ∃ attrs, os = [attrs, .path name]
  | .reference inner, k, os => k = .expr .reference ∧ ∃ attrs mark word, os = [attrs, mark, word, inner]
  | .tried inner, k, os => k = .expr .tried ∧ ∃ attrs mark, os = [attrs, inner, mark]
  | .call method receiver _, k, os => k = .expr .methodCall ∧ (method == "map_err" || method == "set") = true ∧
      ∃ attrs dot turbofish args, os = [attrs, receiver, dot, .leaf (.ident method), turbofish, .group args]
  | .errPattern, k, os => k = .pat .tupleStruct ∧ ∃ attrs binders, os = attrs :: .path "Err" :: binders
  | .wild, k, _ => k = .pat .wild
  | .errLet value, k, os => k = .expr .letCond ∧ ∃ attrs word eq, os = [attrs, word, .errPattern, eq, value]
  | .ifElse cond other, k, os => k = .expr .ifElse ∧ ∃ attrs word body, os = [attrs, word, cond, body, other]
  | .init value other, k, os => k = .init ∧ ∃ eq, os = [eq, value, other]
  | .unseen, _, _ => True

/-- No outline of a token or of a group. -/
def IsOfNode : Outline → Prop
  | .leaf _ | .group _ => False
  | _ => True

def IsOpen : Outline → Prop
  | .var _ => True
  | .reference _ => True
  | .tried _ => True
  | .call _ _ _ => True
  | .errLet _ => True
  | _ => False

theorem inParens_open (o : Outline) : o.inParens.IsOpen ∨ o.inParens = .unseen := by
  cases o <;> simp [inParens, IsOpen]

theorem ofNode_direct (k : Kind) (os : List Outline) : (ofNode k os).Direct k os ∨
    (ofNode k os).IsOpen ∧ k = .expr .paren ∧ ∃ attrs inner, os = [attrs, .group [inner]] := by
  unfold ofNode
  split
  case h_5 attrs inner =>
    rcases inner.inParens_open with seen | hidden
    · exact .inr ⟨seen, rfl, attrs, inner, rfl⟩
    · rw [hidden]
      exact .inl trivial
  case h_8 =>
    split
    · rename_i named
      exact .inl ⟨rfl, named, _, _, _, _, rfl⟩
    · exact .inl trivial
  all_goals simp [Direct]

end Outline

theorem outline_node_direct {k : Kind} {parts : Trees} {o : Outline} (h : outline (.node k parts) = o)
    (closed : ¬o.IsOpen) : o.Direct k (outlines parts) := by
  rw [outline] at h
  subst h
  rcases Outline.ofNode_direct k (outlines parts) with direct | ⟨seen, -⟩
  · exact direct
  · exact (closed seen).elim

theorem outline_direct {t : Tree} {o : Outline} (h : outline t = o) (ofNode : o.IsOfNode) (closed : ¬o.IsOpen) :
    ∃ k parts, t = .node k parts ∧ o.Direct k (outlines parts) := by
  subst h
  cases t with
  | leaf token => exact ofNode.elim
  | group d body => exact ofNode.elim
  | node k parts => exact ⟨k, parts, rfl, outline_node_direct rfl closed⟩

theorem outline_eq_leaf {t : Tree} {token : Token} : outline t = .leaf token ↔ t = .leaf token := by
  cases t with
  | leaf token' => simp [outline]
  | group d body => simp [outline]
  | node k parts =>
    constructor
    · intro h
      exact (outline_node_direct h id).elim
    · rintro ⟨⟩

theorem outline_eq_group {t : Tree} {os : List Outline} :
    outline t = .group os ↔ ∃ d body, t = .group d body ∧ outlines body = os := by
  cases t with
  | leaf token' => simp [outline]
  | group d body => simp [outline, and_assoc]
  | node k parts =>
    constructor
    · intro h
      exact (outline_node_direct h id).elim
    · rintro ⟨_, _, ⟨⟩, -⟩

theorem outlines_eq_cons {ts : Trees} {o : Outline} {os : List Outline} :
    outlines ts = o :: os ↔ ∃ t rest, ts = t :: rest ∧ outline t = o ∧ outlines rest = os := by
  cases ts with
  | nil => simp [outlines]
  | cons t rest => simp [outlines, and_assoc]

theorem outlines_eq_nil {ts : Trees} : outlines ts = [] ↔ ts = [] := by
  cases ts <;> simp [outlines]

theorem outline_eq_absent {t : Tree} : outline t = .absent ↔ t.isAbsent = true := by
  cases t with
  | leaf token => simp [outline, Tree.isAbsent]
  | group d body => simp [outline, Tree.isAbsent]
  | node k parts =>
    constructor
    · intro h
      have absent : k = .absent := outline_node_direct h id
      rw [absent]
      rfl
    · intro h
      cases k <;> first | rfl | cases h

theorem outline_eq_segment {t : Tree} {name : String} :
    outline t = .segment name ↔ ∃ args, t = .node .segment [word name, args] ∧ args.isAbsent = true := by
  constructor
  · intro h
    obtain ⟨_, parts, rfl, rfl, os⟩ := outline_direct h trivial id
    simp only [outlines_eq_cons, outlines_eq_nil, outline_eq_leaf, outline_eq_absent] at os
    obtain ⟨_, _, rfl, rfl, args, _, rfl, absent, rfl⟩ := os
    exact ⟨args, rfl, absent⟩
  · rintro ⟨args, rfl, absent⟩
    simp only [outline, outlines, word, outline_eq_absent.mpr absent, Outline.ofNode]

theorem pathIdent?_eq_some {t : Tree} {name : String} : t.pathIdent? = some name ↔
    ∃ args, t = .node .path [.node .segment [word name, args]] ∧ args.isAbsent = true := by
  constructor
  · intro h
    unfold Tree.pathIdent? at h
    split at h
    · split at h
      · cases h
        exact ⟨_, rfl, ‹_›⟩
      · cases h
    · cases h
  · rintro ⟨args, rfl, absent⟩
    simp only [Tree.pathIdent?, word, absent, if_true]

theorem outline_eq_path {t : Tree} {name : String} : outline t = .path name ↔ t.pathIdent? = some name := by
  rw [pathIdent?_eq_some]
  constructor
  · intro h
    obtain ⟨_, parts, rfl, rfl, os⟩ := outline_direct h trivial id
    simp only [outlines_eq_cons, outlines_eq_nil, outline_eq_segment] at os
    obtain ⟨_, _, rfl, ⟨args, rfl, absent⟩, rfl⟩ := os
    exact ⟨args, rfl, absent⟩
  · rintro ⟨args, rfl, absent⟩
    simp only [outline, outlines, word, outline_eq_absent.mpr absent, Outline.ofNode]

theorem outline_eq_errPattern {t : Tree} : outline t = .errPattern ↔
    ∃ head path binders, t = .node (.pat .tupleStruct) (head :: path :: binders) ∧ path.pathIdent? = some "Err" := by
  constructor
  · intro h
    obtain ⟨_, parts, rfl, rfl, _, _, os⟩ := outline_direct h trivial id
    simp only [outlines_eq_cons, outline_eq_path] at os
    obtain ⟨head, _, rfl, -, path, binders, rfl, err, -⟩ := os
    exact ⟨head, path, binders, rfl, err⟩
  · rintro ⟨head, path, binders, rfl, err⟩
    simp only [outline, outlines, outline_eq_path.mpr err, Outline.ofNode]

theorem outline_eq_wild {t : Tree} : outline t = .wild ↔ ∃ parts, t = .node (.pat .wild) parts := by
  constructor
  · intro h
    obtain ⟨_, parts, rfl, rfl⟩ := outline_direct h trivial id
    exact ⟨parts, rfl⟩
  · rintro ⟨parts, rfl⟩
    rfl

theorem outline_eq_init {t : Tree} {o p : Outline} : outline t = .init o p ↔
    ∃ eq value other, t = .node .init [eq, value, other] ∧ outline value = o ∧ outline other = p := by
  constructor
  · intro h
    obtain ⟨_, parts, rfl, rfl, _, os⟩ := outline_direct h trivial id
    simp only [outlines_eq_cons, outlines_eq_nil] at os
    obtain ⟨eq, _, rfl, -, value, _, rfl, seen, other, _, rfl, seen', rfl⟩ := os
    exact ⟨eq, value, other, rfl, seen, seen'⟩
  · rintro ⟨eq, value, other, rfl, rfl, rfl⟩
    rfl

theorem outline_eq_ifElse {t : Tree} {o p : Outline} : outline t = .ifElse o p ↔ ∃ attrs w cond body other,
    t = .node (.expr .ifElse) [attrs, w, cond, body, other] ∧ outline cond = o ∧ outline other = p := by
  constructor
  · intro h
    obtain ⟨_, parts, rfl, rfl, _, _, _, os⟩ := outline_direct h trivial id
    simp only [outlines_eq_cons, outlines_eq_nil] at os
    obtain ⟨attrs, _, rfl, -, w, _, rfl, -, cond, _, rfl, seen, body, _, rfl, -, other, _, rfl, seen', rfl⟩ := os
    exact ⟨attrs, w, cond, body, other, rfl, seen, seen'⟩
  · rintro ⟨attrs, w, cond, body, other, rfl, rfl, rfl⟩
    rfl

/-- A tree that is not in parentheses. -/
def IsPlain (t : Tree) : Prop := ∀ attrs d e, t = .node (.expr .paren) [attrs, .group d [e]] → False

theorem stripParens_of_isPlain {t : Tree} (plain : IsPlain t) : t.stripParens = t := by
  unfold Tree.stripParens
  split
  · exact (plain _ _ _ rfl).elim
  · rfl

theorem outline_direct_of_isPlain {k : Kind} {parts : Trees} (plain : IsPlain (.node k parts)) {o : Outline}
    (h : outline (.node k parts) = o) : o.Direct k (outlines parts) := by
  rw [outline] at h
  subst h
  rcases Outline.ofNode_direct k (outlines parts) with direct | ⟨-, rfl, _, _, os⟩
  · exact direct
  · simp only [outlines_eq_cons, outlines_eq_nil, outline_eq_group] at os
    obtain ⟨a, _, rfl, -, _, _, rfl, ⟨d, _, rfl, e, _, rfl, -, rfl⟩, rfl⟩ := os
    exact (plain _ _ _ rfl).elim

@[simp] theorem Outline.var?_inParens (o : Outline) : o.inParens.var? = o.var? := by
  cases o <;> rfl

@[simp] theorem Outline.name?_inParens (o : Outline) : o.inParens.name? = o.name? := by
  cases o <;> rfl

theorem outline_name?_of_isPlain {t : Tree} (plain : IsPlain t) :
    (outline t).name? = t.plainPath?.bind (·.pathIdent?) := by
  rcases found : t.plainPath?.bind (·.pathIdent?) with _ | name
  · unfold Outline.name?
    split
    · rename_i name seen
      cases t with
      | leaf token => cases seen
      | group d body => cases seen
      | node k parts =>
        obtain ⟨rfl, _, os⟩ := outline_direct_of_isPlain plain seen
        simp only [outlines_eq_cons, outlines_eq_nil, outline_eq_path] at os
        obtain ⟨a, _, rfl, rfl, p, _, rfl, named, rfl⟩ := os
        obtain ⟨args, rfl, absent⟩ := pathIdent?_eq_some.mp named
        simp only [Tree.plainPath?, Option.bind_some, named, reduceCtorEq] at found
    · rfl
  · obtain ⟨p, isPath, named⟩ := Option.bind_eq_some_iff.mp found
    unfold Tree.plainPath? at isPath
    split at isPath
    · cases isPath
      rw [outline, outlines, outlines, outlines, outline_eq_path.mpr named]
      rfl
    · cases isPath

theorem outline_name? (e : Tree) : (outline e).name? = e.exprIdent? := by
  rw [Tree.exprIdent?]
  fun_induction Tree.stripParens e with
  | case1 a d e ih => simp only [outline, outlines, Outline.ofNode, Outline.name?_inParens, ih]
  | case2 t plain => exact outline_name?_of_isPlain plain

theorem outline_var? (e : Tree) : (outline e).var? = e.bare.exprIdent? := by
  fun_induction Tree.bare e with
  | case1 a d e ih => simp only [outline, outlines, Outline.ofNode, Outline.var?_inParens, ih]
  | case2 a b d e ih => simp only [outline, outlines, Outline.ofNode, Outline.var?, ih]
  | case3 t plain noReference =>
    rw [Tree.exprIdent?, stripParens_of_isPlain plain, ← outline_name?_of_isPlain plain]
    unfold Outline.var?
    split
    · rename_i seen
      rw [seen]
      rfl
    · rename_i inner seen
      cases t with
      | leaf token => cases seen
      | group d body => cases seen
      | node k parts =>
        obtain ⟨rfl, _, _, _, os⟩ := outline_direct_of_isPlain plain seen
        simp only [outlines_eq_cons, outlines_eq_nil] at os
        obtain ⟨a, _, rfl, -, b, _, rfl, -, d, _, rfl, -, e, _, rfl, -, rfl⟩ := os
        exact (noReference _ _ _ _ rfl).elim
    · rename_i noVar _
      unfold Outline.name?
      split
      · exact (noVar _ ‹_›).elim
      · rfl

theorem shield_node (k : Kind) (parts : Trees) : shield (.node k parts) =
    if k = .expr .structLit then parenOf (.node k parts) else .node k (shieldAll parts) := by
  by_cases literal : k = .expr .structLit
  · subst literal
    rw [if_pos rfl, shield]
  · rw [if_neg literal, shield]
    exact literal

theorem eq_shield {α : Type} {f : Tree → α} (literal : ∀ parts, f (parenOf (.node (.expr .structLit) parts)) =
    f (.node (.expr .structLit) parts)) (inner : ∀ k parts, f (.node k (shieldAll parts)) = f (.node k parts)) (t : Tree) :
    f (shield t) = f t := by
  cases t with
  | leaf token => rfl
  | group d body => rfl
  | node k parts =>
    rw [shield_node]
    split
    · rename_i kind
      subst kind
      exact literal parts
    · exact inner k parts

mutual
theorem outline_shield (t : Tree) : outline (shield t) = outline t := by
  cases t with
  | leaf token => rfl
  | group d body => rfl
  | node k parts =>
    rw [shield_node]
    split
    · rename_i literal
      subst literal
      rfl
    · rw [outline, outline, outlines_shieldAll]

theorem outlines_shieldAll (ts : List Tree) : outlines (shieldAll ts) = outlines ts := by
  cases ts with
  | nil => rfl
  | cons t ts => rw [shieldAll, outlines, outlines, outline_shield, outlines_shieldAll]
end

theorem outlines_regroup (k : Kind) (parts : Trees) : outlines (regroup k parts) = outlines parts := by
  unfold regroup
  split <;> simp only [outlines, outline_shield]
  rfl

/-- A property of nodes that parentheses around struct literals do not change.  Parentheses do not have it. -/
structure Unshielded (p : Tree → Bool) : Prop where
  shielded : ∀ (k : Kind) (parts : Trees), p (.node k (shieldAll parts)) = p (.node k parts)
  paren : ∀ e : Tree, p (parenOf e) = false
  attrs : p noAttrs = false

/-- A property of nodes that reads of the parts no more than their outlines. -/
structure Outlined (p : Tree → Bool) : Prop where
  congr : ∀ {k : Kind} {parts parts' : Trees}, outlines parts = outlines parts' →
    p (.node k parts) = p (.node k parts')
  paren : ∀ e : Tree, p (parenOf e) = false
  attrs : p noAttrs = false

theorem Outlined.unshielded {p : Tree → Bool} (h : Outlined p) : Unshielded p :=
  ⟨fun _ parts => h.congr (outlines_shieldAll parts), h.paren, h.attrs⟩

theorem outline_closeMacro (parts : Trees) : outline (closeMacro parts) = outline (.node .macroBody parts) := by
  unfold closeMacro
  split <;> rfl

theorem nodes_parenOf (e : Tree) : nodes (parenOf e) = parenOf e :: noAttrs :: nodes e := by
  simp [parenOf, noAttrs, nodes, nodesAll]

theorem nodes_macroBody_shieldAll (parts : Trees) :
    nodes (.node .macroBody (shieldAll parts)) = nodes (.node .macroBody parts) := by
  match parts with
  | [] => rfl
  | [_] => rfl
  | [_, _] => rfl
  | [_, _, .leaf _] => rfl
  | [_, _, .group _ _] => rfl
  | [_, _, .node k inner] =>
    simp only [shieldAll, shield_node]
    split <;> rfl
  | _ :: _ :: _ :: _ :: _ =>
    rw [nodes, nodes] <;> simp [shieldAll]

namespace Unshielded
variable {p : Tree → Bool}

theorem countP_parenOf (h : Unshielded p) (e : Tree) : (nodes (parenOf e)).countP p = (nodes e).countP p := by
  rw [nodes_parenOf, List.countP_cons_of_neg (by simp [h.paren]), List.countP_cons_of_neg (by simp [h.attrs])]

mutual
theorem countP_shield (h : Unshielded p) (t : Tree) : (nodes (shield t)).countP p = (nodes t).countP p := by
  cases t with
  | leaf token => rfl
  | group d body => rfl
  | node k parts =>
    rw [shield_node]
    split
    · exact h.countP_parenOf _
    · by_cases closed : k = .macroBody
      · rw [closed, nodes_macroBody_shieldAll]
      · rw [nodes_of_ne closed, nodes_of_ne closed, List.countP_cons, List.countP_cons, h.shielded,
          h.countP_shieldAll]

theorem countP_shieldAll (h : Unshielded p) (ts : List Tree) :
    (nodesAll (shieldAll ts)).countP p = (nodesAll ts).countP p := by
  cases ts with
  | nil => rfl
  | cons t ts =>
    rw [shieldAll, nodesAll, nodesAll, List.countP_append, List.countP_append, h.countP_shield, h.countP_shieldAll]
end

theorem countP_regroup (h : Unshielded p) (k : Kind) (parts : Trees) :
    (nodesAll (regroup k parts)).countP p = (nodesAll parts).countP p := by
  unfold regroup
  split <;> simp only [nodesAll, List.countP_append, h.countP_shield, h.countP_parenOf]

end Unshielded
end Retype.Rewrite
