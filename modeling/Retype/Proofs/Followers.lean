import Mathlib.Logic.Relation
import Retype.Proofs.Offers

/-! What may still run in a function after a piece of its code, followed through a walk of the rewriter of statement
lists.  The end of a list is the end of a function only if nothing follows the list, and inside of a closure or a loop
something always does. -/

namespace Retype.Rewrite
open Retype.Code

/-- What may run in a function after a piece of its code: once that code ends, and once a `return` in it leaves. -/
structure After where
  falls : Trees
  returns : Trees

/-- Declarations and empty statements do not run. -/
def isIdle : Tree → Bool
  | .node (.item _) _ => true
  | .node (.stmt .expr) [.node (.expr .verbatim) [], _] => true
  | _ => false

/-- `return …;` or `return …` at the end. -/
def isReturn : Tree → Bool
  | .node (.stmt .expr) (.node (.expr .returnEarly) _ :: _) => true
  | _ => false

/-- A piece of code and what follows it. -/
structure Spot where
  after : After
  tree : Tree

namespace After

/-- Nothing follows the body of a function. -/
def body : After := ⟨[], []⟩

/-- What may run from a place in a list on at which these statements of the list are still to come. -/
def through (a : After) : Trees → Trees
  | [] => a.falls
  | s :: rest =>
    if isIdle s then a.through rest else if isReturn s then s :: a.returns else s :: a.through rest

/-- After a statement of a list. -/
def before (a : After) (rest : Trees) : After := { a with falls := a.through rest }

/-- After a part of a tree that has more to do, or that runs its parts again. -/
def within (a : After) (t : Tree) : After := { a with falls := t :: a.falls }

/-- After a part of code that runs when it is called: a `return` leaves that code and not the function. -/
def deferred (a : After) (t : Tree) : After := ⟨t :: a.falls, t :: a.falls⟩

def each (a : After) (ts : Trees) : List Spot := ts.map (⟨a, ·⟩)

@[simp] theorem map_tree_each (a : After) (ts : Trees) : (a.each ts).map (·.tree) = ts := by
  simp [each, Function.comp_def]

/-- The parts of a node.  What a node does last is followed by what follows the node, and the operand of a `return` by
what follows the `return`; a function in the function has a body of its own. -/
def parts (a : After) (k : Kind) (ts : Trees) : List Spot :=
  let inner := a.within (.node k ts)
  match k, ts with
  | .expr .ifElse, [attrs, w, cond, block, other] =>
    [⟨inner, attrs⟩, ⟨inner, w⟩, ⟨inner, cond⟩, ⟨a, block⟩, ⟨a, other⟩]
  | .expr .matchOn, [attrs, w, scrutinee, arms] => [⟨inner, attrs⟩, ⟨inner, w⟩, ⟨inner, scrutinee⟩, ⟨a, arms⟩]
  | .arm, [attrs, pat, guard, arrow, value, comma] =>
    [⟨inner, attrs⟩, ⟨inner, pat⟩, ⟨inner, guard⟩, ⟨inner, arrow⟩, ⟨a, value⟩, ⟨inner, comma⟩]
  | .item .fn, [attrs, vis, signature, block] => [⟨inner, attrs⟩, ⟨inner, vis⟩, ⟨inner, signature⟩, ⟨body, block⟩]
  | .item .method, [attrs, vis, given, signature, block] =>
    [⟨inner, attrs⟩, ⟨inner, vis⟩, ⟨inner, given⟩, ⟨inner, signature⟩, ⟨body, block⟩]
  | .expr .returnEarly, ts => each ⟨a.returns, a.returns⟩ ts
  | .expr .closure, ts => (a.deferred (.node (.expr .closure) ts)).each ts
  | .expr .asyncBlock, ts => (a.deferred (.node (.expr .asyncBlock) ts)).each ts
  | .stmt .expr, ts | .expr .paren, ts | .expr .block, ts | .expr .unsafeBlock, ts | .elseBranch, ts => a.each ts
  | _, ts => inner.each ts

@[simp] theorem map_tree_parts (a : After) (k : Kind) (ts : Trees) : (a.parts k ts).map (·.tree) = ts := by
  unfold parts
  dsimp only
  split <;> simp

end After

/-- The statements of a list that are not about timeouts, each with the statements after it. -/
def untimed (c : Context) : Trees → List (Tree × Trees)
  | [] => []
  | [s] => if isAcquisition c s then [] else [(s, [])]
  | s :: r :: rest =>
    if isAcquisition c s then
      if isRelease c r then untimed c rest else untimed c (r :: rest)
    else (s, r :: rest) :: untimed c (r :: rest)

/-- The identifier that a statement sets on the accessor. -/
def identity? (c : Context) (s : Tree) : Option Tree := c.scope.accessor.bind fun a => setIdArgument? a s

/-- `d.set_id("");` -/
def clears (c : Context) (s : Tree) : Bool := (identity? c s).any fun id => Naming.stringText id == some ""

/-- Identifiers are set on the metadata, and a clear ends the list where it may. -/
def identified (c : Context) (ends : Trees → Bool) : List (Tree × Trees) → List (Tree × Trees)
  | [] => []
  | (s, rest) :: more =>
    match identity? c s with
    | none => (s, rest) :: identified c ends more
    | some id =>
      if ends rest && Naming.stringText id == some "" then [(markAsGone c, rest)]
      else (setIdentity c id, rest) :: identified c ends more

/-- The read at the end becomes success. -/
def answered (c : Context) : List (Tree × Trees) → List (Tree × Trees)
  | [] => []
  | [(s, rest)] => [((readToSuccess? c s).getD s, rest)]
  | p :: q :: more => p :: answered c (q :: more)

/-- Where a `return` may take the place of a clear: what follows the list, and the statements after the clear. -/
abbrev Ends := After → Trees → Bool

/-- What statements become that are not about timeouts. -/
def remade (c : Context) (ends : Trees → Bool) (ps : List (Tree × Trees)) : List (Tree × Trees) :=
  answered c (identified c ends ps)

def After.place (a : After) (p : Tree × Trees) : Spot := ⟨a.before p.2, p.1⟩

/-- What a list of statements becomes, each statement with what followed the statement it stands for. -/
def flowed (c : Context) (ends : Ends) (a : After) (stmts : Trees) : List Spot :=
  (remade c (ends a) (untimed c stmts)).map a.place

/-- The list alone decides: nothing comes after the clear in it but perhaps a bare success. -/
def listEnds (c : Context) : Ends := fun _ rest => isTerminal (elideTimeouts c rest)

theorem map_fst_untimed (c : Context) (stmts : Trees) : (untimed c stmts).map (·.1) = elideTimeouts c stmts := by
  fun_induction untimed c stmts <;> simp_all [elideTimeouts]

theorem map_fst_answered (c : Context) (ps : List (Tree × Trees)) :
    (answered c ps).map (·.1) = (replaceTrailingRead c (ps.map (·.1))).getD (ps.map (·.1)) := by
  fun_induction answered c ps with
  | case1 => rfl
  | case2 s rest =>
    simp only [List.map_cons, List.map_nil, replaceTrailingRead]
    cases readToSuccess? c s <;> rfl
  | case3 p q more ih =>
    simp only [List.map_cons, replaceTrailingRead] at ih ⊢
    rw [ih]
    cases replaceTrailingRead c (q.1 :: more.map (·.1)) <;> rfl

theorem identified_of_none {c : Context} (noAccessor : c.scope.accessor = none) (ends : Trees → Bool)
    (ps : List (Tree × Trees)) : identified c ends ps = ps := by
  induction ps with
  | nil => rfl
  | cons p more ih =>
    have kept : identity? c p.1 = none := by rw [identity?, noAccessor]; rfl
    rw [identified, kept]
    simp only [ih]

theorem map_fst_identified (c : Context) (a : After) (stmts : Trees) :
    (identified c (listEnds c a) (untimed c stmts)).map (·.1) = moveIdentities c (elideTimeouts c stmts) := by
  unfold moveIdentities
  split
  · rename_i d accessor
    have named : ∀ s, identity? c s = setIdArgument? d s := fun s => by rw [identity?, accessor]; rfl
    -- a clear sees the same statements after it as in the list without its timeouts
    have step : ∀ s rest more,
        (identified c (listEnds c a) more).map (·.1) = moveIdentity c d (elideTimeouts c rest) →
        (identified c (listEnds c a) ((s, rest) :: more)).map (·.1) = moveIdentity c d (s :: elideTimeouts c rest) := by
      intro s rest more ih
      rw [identified, moveIdentity, named, show listEnds c a rest = isTerminal (elideTimeouts c rest) from rfl]
      cases setIdArgument? d s with
      | none => simp only [List.map_cons, ih]
      | some id =>
        dsimp only
        split
        · rfl
        · simp only [List.map_cons, ih]
    fun_induction untimed c stmts with
    | case1 => rfl
    | case2 s timed => simp [elideTimeouts, timed, identified, moveIdentity]
    | case3 s kept =>
      rw [elideTimeouts, if_neg kept]
      exact step s [] [] rfl
    | case4 s r rest timed release ih => rwa [elideTimeouts, if_pos timed, if_pos release]
    | case5 s r rest timed release ih => rwa [elideTimeouts, if_pos timed, if_neg release]
    | case6 s r rest kept ih =>
      rw [elideTimeouts, if_neg kept]
      exact step s (r :: rest) _ ih
  · rename_i noAccessor
    rw [identified_of_none noAccessor, map_fst_untimed]

/-- What the rewriter makes of a list, if it changes it, and the list as it is otherwise. -/
theorem map_tree_flowed (c : Context) (a : After) (stmts : Trees) : (flowed c (listEnds c) a stmts).map (·.tree) =
    (replaceTrailingRead c (moveIdentities c (elideTimeouts c stmts))).getD
      (moveIdentities c (elideTimeouts c stmts)) := by
  rw [flowed, List.map_map, ← map_fst_identified c a, ← map_fst_answered]
  rfl

section Statements
variable {c : Context} {ends : Trees → Bool}

theorem identified_ne_nil {p : Tree × Trees} {ps : List (Tree × Trees)} : identified c ends (p :: ps) ≠ [] := by
  obtain ⟨s, rest⟩ := p
  rw [identified]
  cases identity? c s with
  | none => simp
  | some id =>
    dsimp only
    split <;> simp

theorem answered_cons {s : Tree} (noRead : readToSuccess? c s = none) (rest : Trees) (ps : List (Tree × Trees)) :
    answered c ((s, rest) :: ps) = (s, rest) :: answered c ps := by
  cases ps with
  | nil => simp only [answered, noRead, Option.getD_none]
  | cons q ps => rfl

theorem remade_of_set {s id : Tree} (set : identity? c s = some id) (rest : Trees) (ps : List (Tree × Trees)) :
    remade c ends ((s, rest) :: ps) =
      if ends rest && Naming.stringText id == some "" then [(markAsGone c, rest)]
      else (setIdentity c id, rest) :: remade c ends ps := by
  have gone : readToSuccess? c (markAsGone c) = none := rfl
  have renamed : readToSuccess? c (setIdentity c id) = none := rfl
  simp only [remade, identified, set]
  split
  · rw [answered_cons gone]
    rfl
  · rw [answered_cons renamed]

theorem remade_of_kept {s : Tree} (kept : identity? c s = none) (rest : Trees) (q : Tree × Trees)
    (ps : List (Tree × Trees)) : remade c ends ((s, rest) :: q :: ps) = (s, rest) :: remade c ends (q :: ps) := by
  have step : identified c ends ((s, rest) :: q :: ps) = (s, rest) :: identified c ends (q :: ps) := by
    rw [identified, kept]
  have notNil : identified c ends (q :: ps) ≠ [] := identified_ne_nil
  obtain ⟨p, more, same⟩ := List.exists_cons_of_ne_nil notNil
  rw [remade, remade, step, same]
  rfl

end Statements

def Spot.next (c : Context) (ends : Ends) : Spot → List Spot
  | ⟨_, .leaf _⟩ => []
  | ⟨a, .group _ body⟩ => a.each body
  | ⟨a, .node .block [.group _ stmts]⟩ => flowed c ends a stmts
  | ⟨a, .node .macroBody parts⟩ =>
    (a.within (.node .macroBody parts)).each ((vecElements? (.node .macroBody parts)).getD [])
  | ⟨a, .node k parts⟩ => a.parts k parts

/-- A tree with what the trees inside of it became. -/
def rebuilt : Tree → Trees → Tree
  | .leaf token, _ => .leaf token
  | .group d _, inside => .group d inside
  | .node .block [.group d _], inside => .node .block [.group d inside]
  | .node .macroBody parts, inside =>
    match parts, vecElements? (.node .macroBody parts) with
    | [path, bang, .group d _], some _ => .node .macroBody [path, bang, .group d inside]
    | _, _ => closeMacro parts
  | .node k _, inside => .node k (regroup k inside)

/-- What spots become, if clears become returns where they may. -/
inductive Flows (c : Context) (ends : Ends) : List Spot → Trees → Prop
  | nil : Flows c ends [] []
  | cons {x : Spot} {xs : List Spot} {inside ts : Trees} (inner : Flows c ends (x.next c ends) inside)
      (rest : Flows c ends xs ts) : Flows c ends (x :: xs) (rebuilt x.tree inside :: ts)

/-- What the code that a walk comes to becomes: each tree with what the trees inside of it became. -/
inductive Rebuilds {α : Type} (next : α → List α) (tree : α → Tree) : List α → Trees → Prop
  | nil : Rebuilds next tree [] []
  | cons {x : α} {xs : List α} {inside ts : Trees} (inner : Rebuilds next tree (next x) inside)
      (rest : Rebuilds next tree xs ts) : Rebuilds next tree (x :: xs) (rebuilt (tree x) inside :: ts)

theorem flows_iff_rebuilds {c : Context} {ends : Ends} {xs : List Spot} {ts : Trees} :
    Flows c ends xs ts ↔ Rebuilds (Spot.next c ends) Spot.tree xs ts := by
  constructor
  · intro h
    induction h with
    | nil => exact .nil
    | cons inner rest ihInner ih => exact .cons ihInner ih
  · intro h
    induction h with
    | nil => exact .nil
    | cons inner rest ihInner ih => exact .cons ihInner ih

section Rebuilds
variable {α β : Type} {next next₁ next₂ : α → List α} {tree : α → Tree}

theorem rebuilds_nil_iff {ts : Trees} : Rebuilds next tree [] ts ↔ ts = [] := by
  constructor
  · intro h
    cases h
    rfl
  · rintro rfl
    exact .nil

theorem rebuilds_cons_iff {x : α} {xs : List α} {ts : Trees} : Rebuilds next tree (x :: xs) ts ↔
    ∃ inside, Rebuilds next tree (next x) inside ∧ ∃ rest, Rebuilds next tree xs rest ∧
      rebuilt (tree x) inside :: rest = ts := by
  constructor
  · rintro (_ | ⟨inner, rest⟩)
    exact ⟨_, inner, _, rest, rfl⟩
  · rintro ⟨inside, inner, ts, rest, rfl⟩
    exact .cons inner rest

theorem Rebuilds.congr {xs : List α} {ts : Trees} (h : Rebuilds next₁ tree xs ts)
    (agree : ∀ x ∈ xs, ∀ y, Relation.ReflTransGen (fun x y => y ∈ next₁ x) x y → next₁ y = next₂ y) :
    Rebuilds next₂ tree xs ts := by
  induction h with
  | nil => exact .nil
  | @cons x xs inside ts inner rest ihInner ih =>
    have own : next₁ x = next₂ x := agree x List.mem_cons_self x .refl
    refine .cons ?_ (ih fun y mem => agree y (List.mem_cons_of_mem _ mem))
    rw [← own]
    exact ihInner fun y mem z reached => agree x List.mem_cons_self z (.head mem reached)

theorem Rebuilds.map {next' : β → List β} {tree' : β → Tree} {xs : List α} {ts : Trees} (h : Rebuilds next tree xs ts)
    (alike : ∀ x y, tree' y = tree x → (next' y).map tree' = (next x).map tree) {ys : List β}
    (same : ys.map tree' = xs.map tree) : Rebuilds next' tree' ys ts := by
  induction h generalizing ys with
  | nil =>
    rw [List.map_eq_nil_iff.mp same]
    exact .nil
  | @cons x xs inside ts inner rest ihInner ih =>
    obtain ⟨y, ys, rfl, own, same⟩ := List.map_eq_cons_iff.mp same
    rw [← own]
    exact .cons (ihInner (alike x y own)) (ih same)

end Rebuilds

/-- The spots that a walk comes to. -/
def Reached (c : Context) (ends : Ends) : Spot → Spot → Prop :=
  Relation.ReflTransGen fun x y => y ∈ x.next c ends

/-- The stage of the rewriter of statement lists alone. -/
def flowStage : Stage := [.controlFlow]

theorem made_flowStage (c : Context) (t : Tree) : flowStage.made c t = (Rewriter.controlFlow.made? c t).getD t := by
  rw [flowStage, Stage.made, List.findSome?_cons]
  cases Rewriter.controlFlow.made? c t <;> rfl

theorem made_block (c : Context) (a : After) (d : Delim) (stmts : Trees) :
    flowStage.made c (.node .block [.group d stmts]) =
      .node .block [.group d ((flowed c (listEnds c) a stmts).map (·.tree))] := by
  rw [made_flowStage, map_tree_flowed]
  cases passed : Rewriter.controlFlow.made? c (.node .block [.group d stmts]) with
  | none =>
    have finished : Finished c stmts := (controlFlow_run_block d stmts {}).mp passed
    rw [elideTimeouts_of_none finished.acquisitions, moveIdentities_of_none finished.identities, finished.reads]
    rfl
  | some u =>
    simp only [Rewriter.made?, Rewriter.apply, controlFlow] at passed
    cases read : replaceTrailingRead c (moveIdentities c (elideTimeouts c stmts)) with
    | none =>
      simp only [read] at passed
      split at passed
      · cases passed
        rfl
      · cases passed
    | some last =>
      simp only [read] at passed
      cases passed
      rfl

theorem made_of_not_list (c : Context) (t : Tree) (noList : ∀ d stmts, t ≠ .node .block [.group d stmts]) :
    flowStage.made c t = t := by
  rw [made_flowStage]
  cases made : Rewriter.controlFlow.made? c t with
  | none => rfl
  | some u =>
    obtain ⟨d, stmts, same, -⟩ := controlFlow_run_some made
    exact (noList d stmts same).elim

section Nodes
variable {c : Context} {ends : Ends} {a : After}

theorem next_of_elements {parts elems : Trees} (found : vecElements? (.node .macroBody parts) = some elems) :
    Spot.next c ends ⟨a, .node .macroBody parts⟩ = (a.within (.node .macroBody parts)).each elems := by
  rw [Spot.next, found]
  rfl

theorem next_of_closed {parts : Trees} (noList : vecElements? (.node .macroBody parts) = none) :
    Spot.next c ends ⟨a, .node .macroBody parts⟩ = [] := by
  rw [Spot.next, noList]
  rfl

theorem next_of_node {k : Kind} {parts : Trees} (opened : k ≠ .macroBody)
    (noList : ∀ d stmts, Code.Tree.node k parts ≠ .node .block [.group d stmts]) :
    Spot.next c ends ⟨a, .node k parts⟩ = a.parts k parts := by
  rw [Spot.next.eq_def]
  split
  · rename_i same
    cases same
  · rename_i same
    cases same
  · rename_i same
    cases same
    exact absurd rfl (noList _ _)
  · rename_i same
    cases same
    exact absurd rfl opened
  · rename_i same
    cases same
    rfl

theorem rebuilt_of_elements {path bang : Tree} {d : Delim} {body elems inside : Trees}
    (found : vecElements? (.node .macroBody [path, bang, .group d body]) = some elems) :
    rebuilt (.node .macroBody [path, bang, .group d body]) inside = .node .macroBody [path, bang, .group d inside] := by
  simp only [rebuilt, found]

theorem rebuilt_of_closed {parts inside : Trees} (noList : vecElements? (.node .macroBody parts) = none) :
    rebuilt (.node .macroBody parts) inside = closeMacro parts := by
  simp only [rebuilt, noList]

theorem rebuilt_of_node {k : Kind} {parts inside : Trees} (opened : k ≠ .macroBody)
    (noList : ∀ d stmts, Code.Tree.node k parts ≠ .node .block [.group d stmts]) :
    rebuilt (.node k parts) inside = .node k (regroup k inside) := by
  rw [rebuilt.eq_def]
  split
  · contradiction
  · contradiction
  · rename_i same
    cases same
    exact absurd rfl (noList _ _)
  · rename_i same
    cases same
    exact absurd rfl opened
  · rename_i same
    cases same
    rfl

end Nodes

theorem flowStage_offered {c : Context} {t u : Tree} {s s' : State} (offered : (flowStage.offer c t).run s = (u, s')) :
    (u = t ∧ ∀ d stmts, t ≠ .node .block [.group d stmts]) ∨ ∃ d stmts, t = .node .block [.group d stmts] ∧
      ∀ a, u = .node .block [.group d ((flowed c (listEnds c) a stmts).map (·.tree))] := by
  have made : u = flowStage.made c t := Offered.eq_made ⟨s, s', offered⟩
  by_cases list : ∃ d stmts, t = .node .block [.group d stmts]
  · obtain ⟨d, stmts, rfl⟩ := list
    exact .inr ⟨d, stmts, rfl, fun a => made.trans (made_block c a d stmts)⟩
  · have noList : ∀ d stmts, t ≠ .node .block [.group d stmts] := fun d stmts same => list ⟨d, stmts, same⟩
    exact .inl ⟨made.trans (made_of_not_list c t noList), noList⟩

/-- A walk makes of trees what they become spot by spot, whatever follows them; of the list of a block, whatever follows
each of its statements. -/
theorem WalksAll.flows_and {c : Context} {ts ts' : Trees} {s s' : State} (h : WalksAll flowStage c ts s ts' s') :
    (∀ xs : List Spot, xs.map (·.tree) = ts → Flows c (listEnds c) xs ts') ∧
      ∀ d stmts, ts = [.group d stmts] → ∃ stmts', ts' = [.group d stmts'] ∧
        ∀ xs : List Spot, xs.map (·.tree) = stmts → Flows c (listEnds c) xs stmts' := by
  induction h with
  | nil =>
    refine ⟨fun xs same => ?_, fun d stmts same => nomatch same⟩
    rw [List.map_eq_nil_iff.mp same]
    exact .nil
  | leaf offered _ ih =>
    obtain ⟨rfl, -⟩ | ⟨_, _, -, made⟩ := flowStage_offered offered
    · refine ⟨fun xs same => ?_, fun d stmts same => nomatch same⟩
      obtain ⟨⟨a, _⟩, ys, rfl, rfl, rfl⟩ := List.map_eq_cons_iff.mp same
      exact .cons .nil (ih.1 ys rfl)
    · cases made .body
  | @group t ts body body' ts' d s s₁ s₂ s₃ offered inner rest ihInner ih =>
    obtain ⟨rfl, -⟩ | ⟨_, _, -, made⟩ := flowStage_offered offered
    · refine ⟨fun xs same => ?_, fun d stmts same => ?_⟩
      · obtain ⟨⟨a, _⟩, ys, rfl, rfl, rfl⟩ := List.map_eq_cons_iff.mp same
        exact .cons (ihInner.1 _ (After.map_tree_each a body)) (ih.1 ys rfl)
      · cases same
        cases rest
        exact ⟨body', rfl, ihInner.1⟩
    · cases made .body
  | @elements t path bang ts body elems elems' ts' d s s₁ s₂ s₃ offered found inner rest ihInner ih =>
    obtain ⟨rfl, -⟩ | ⟨_, _, -, made⟩ := flowStage_offered offered
    · refine ⟨fun xs same => ?_, fun d stmts same => nomatch same⟩
      obtain ⟨⟨a, _⟩, ys, rfl, rfl, rfl⟩ := List.map_eq_cons_iff.mp same
      have walked := ihInner.1 _ (After.map_tree_each (a.within (.node .macroBody [path, bang, .group d body])) elems)
      rw [← next_of_elements found] at walked
      have flows := Flows.cons walked (ih.1 ys rfl)
      rwa [rebuilt_of_elements found] at flows
    · cases made .body
  | @closed t ts parts ts' s s₁ s₂ offered noList rest ih =>
    obtain ⟨rfl, -⟩ | ⟨_, _, -, made⟩ := flowStage_offered offered
    · refine ⟨fun xs same => ?_, fun d stmts same => nomatch same⟩
      obtain ⟨⟨a, _⟩, ys, rfl, rfl, rfl⟩ := List.map_eq_cons_iff.mp same
      have walked : Flows c (listEnds c) (Spot.next c (listEnds c) ⟨a, .node .macroBody parts⟩) [] := by
        rw [next_of_closed noList]
        exact .nil
      have flows := Flows.cons walked (ih.1 ys rfl)
      rwa [rebuilt_of_closed noList] at flows
    · cases made .body
  | @node t ts parts parts' ts' k s s₁ s₂ s₃ offered opened inner rest ihInner ih =>
    refine ⟨fun xs same => ?_, fun d stmts same => ?_⟩
    · obtain ⟨⟨a, _⟩, ys, rfl, rfl, rfl⟩ := List.map_eq_cons_iff.mp same
      obtain ⟨rfl, noList⟩ | ⟨d, stmts, rfl, made⟩ := flowStage_offered offered
      · have walked := ihInner.1 _ (After.map_tree_parts a k parts)
        rw [← next_of_node opened noList] at walked
        have flows := Flows.cons walked (ih.1 ys rfl)
        rwa [rebuilt_of_node opened noList] at flows
      · cases made a
        obtain ⟨stmts', rfl, walked⟩ := ihInner.2 d _ rfl
        exact .cons (x := ⟨a, .node .block [.group d stmts]⟩) (walked _ rfl) (ih.1 ys rfl)
    · cases same
      obtain ⟨same, -⟩ | ⟨_, _, same, -⟩ := flowStage_offered offered <;> cases same

theorem flows_of_walk {c : Context} {depth : Nat} {body body' : Tree} {s s' : State}
    (run : (flowStage.walk c depth body).run s = some (body', s')) : Flows c (listEnds c) [⟨.body, body⟩] [body'] :=
  (Stage.walksAll_of_walk run).flows_and.1 _ rfl

end Retype.Rewrite
