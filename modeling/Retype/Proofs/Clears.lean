import Retype.Proofs.Followers
import Retype.Proofs.NormalForm

/-! Clears of the identifier.  A clear that ends its list becomes a `return`, and a `return` leaves the function: code is
skipped exactly if some clear ends its list and not its function. -/

namespace Retype.Rewrite
open Retype.Code

/-- The role of a node, if a walk puts no node of that role around others. -/
def roleOf (k : Kind) : List Kind := if k = .expr .paren ∨ k = .attrs then [] else [k]

mutual
/-- The roles of the nodes of a tree, from the outside in. -/
def roles : Tree → List Kind
  | .leaf _ => []
  | .group _ body => rolesAll body
  | .node k parts => roleOf k ++ rolesAll parts

def rolesAll : List Tree → List Kind
  | [] => []
  | t :: ts => roles t ++ rolesAll ts
end

theorem roles_parenOf (e : Tree) : roles (parenOf e) = roles e := by
  simp [parenOf, roles, rolesAll, roleOf, noAttrs]

mutual
theorem roles_shield (t : Tree) : roles (shield t) = roles t := by
  rw [shield.eq_def]
  split
  · exact roles_parenOf _
  · rw [roles, roles, rolesAll_shieldAll]
  · rfl

theorem rolesAll_shieldAll (ts : List Tree) : rolesAll (shieldAll ts) = rolesAll ts := by
  cases ts with
  | nil => rfl
  | cons t ts => rw [shieldAll, rolesAll, rolesAll, roles_shield t, rolesAll_shieldAll ts]
end

theorem rolesAll_regroup (k : Kind) (parts : Trees) : rolesAll (regroup k parts) = rolesAll parts := by
  unfold regroup
  split <;> simp only [rolesAll, roles_shield, roles_parenOf]

/-- A walk comes to nothing inside of the tree. -/
def isClosed : Tree → Bool
  | .leaf _ => true
  | .node .macroBody parts => (vecElements? (.node .macroBody parts)).isNone
  | _ => false

theorem roles_rebuilt_append {t : Tree} {inside : Trees} (closed : isClosed t = true → inside = []) :
    roles (rebuilt t inside) = roles (rebuilt t []) ++ rolesAll inside := by
  cases t with
  | leaf token =>
    rw [closed rfl]
    rfl
  | group d body => rfl
  | node k parts =>
    by_cases list : ∃ d stmts, Code.Tree.node k parts = .node .block [.group d stmts]
    · obtain ⟨d, stmts, same⟩ := list
      cases same
      simp only [rebuilt, roles, rolesAll, List.append_nil]
    · have noList : ∀ d stmts, Code.Tree.node k parts ≠ .node .block [.group d stmts] := fun d stmts same =>
        list ⟨d, stmts, same⟩
      by_cases opened : k = .macroBody
      · subst opened
        cases found : vecElements? (.node .macroBody parts) with
        | none =>
          have nothing : inside = [] := closed (by rw [isClosed, found]; rfl)
          rw [nothing, rolesAll, List.append_nil]
        | some elems =>
          obtain ⟨path, bang, d, body, rfl⟩ := parts_of_vecElements? found
          simp only [rebuilt_of_elements found, roles, rolesAll, List.append_nil, List.append_assoc]
      · simp only [rebuilt_of_node opened noList, roles, rolesAll_regroup, rolesAll, List.append_nil]

section Walks
variable {c : Context} {ends ends₁ ends₂ : Ends}

theorem flows_nil_iff {ts : Trees} : Flows c ends [] ts ↔ ts = [] := by rw [flows_iff_rebuilds, rebuilds_nil_iff]

theorem roles_rebuilt {x : Spot} {inside : Trees} (h : Flows c ends (x.next c ends) inside) :
    roles (rebuilt x.tree inside) = roles (rebuilt x.tree []) ++ rolesAll inside := by
  obtain ⟨a, t⟩ := x
  refine roles_rebuilt_append fun closed => ?_
  dsimp only at closed
  unfold isClosed at closed
  split at closed
  · exact flows_nil_iff.mp h
  · rwa [next_of_closed (Option.isNone_iff_eq_none.mp closed), flows_nil_iff] at h
  · cases closed

/-- Two lists of spots that are the same up to a clear that ends the one and is renamed in the other. -/
inductive Aligned (c : Context) : List Spot → List Spot → Prop
  | nil : Aligned c [] []
  | cons (x : Spot) {xs ys : List Spot} (rest : Aligned c xs ys) : Aligned c (x :: xs) (x :: ys)
  | gone (a b : After) (id : Tree) (xs ys : List Spot) :
      Aligned c (⟨a, markAsGone c⟩ :: xs) (⟨b, setIdentity c id⟩ :: ys)
  | renamed (a b : After) (id : Tree) (xs ys : List Spot) :
      Aligned c (⟨a, setIdentity c id⟩ :: xs) (⟨b, markAsGone c⟩ :: ys)

theorem Aligned.refl (xs : List Spot) : Aligned c xs xs := by
  induction xs with
  | nil => exact .nil
  | cons x xs ih => exact .cons x ih

theorem aligned_flowed (ends₁ ends₂ : Ends) (a : After) (stmts : Trees) :
    Aligned c (flowed c ends₁ a stmts) (flowed c ends₂ a stmts) := by
  unfold flowed
  induction untimed c stmts with
  | nil => exact .nil
  | cons p ps ih =>
    obtain ⟨s, rest⟩ := p
    cases set : identity? c s with
    | none =>
      cases ps with
      | nil =>
        simp only [remade, identified, set]
        exact .refl _
      | cons q ps =>
        rw [remade_of_kept set, remade_of_kept set]
        exact .cons _ ih
    | some id =>
      rw [remade_of_set set, remade_of_set set]
      split <;> split
      · exact .refl _
      · exact .gone _ _ id _ _
      · exact .renamed _ _ id _ _
      · exact .cons _ ih

theorem aligned_next (ends₁ ends₂ : Ends) (x : Spot) : Aligned c (x.next c ends₁) (x.next c ends₂) := by
  rw [Spot.next.eq_def, Spot.next.eq_def]
  split
  · exact .nil
  · exact .refl _
  · exact aligned_flowed ends₁ ends₂ _ _
  · exact .refl _
  · exact .refl _

theorem roles_gone_ne_renamed {a b : After} {id : Tree} {xs ys : List Spot} {ts us : Trees} {k₁ k₂ : List Kind}
    (gone : Flows c ends₁ (⟨a, markAsGone c⟩ :: xs) ts) (renamed : Flows c ends₂ (⟨b, setIdentity c id⟩ :: ys) us) :
    rolesAll ts ++ k₁ ≠ rolesAll us ++ k₂ := by
  cases gone with
  | cons inner rest =>
    cases inner with
    | cons inner more =>
      cases renamed with
      | cons inner' rest' =>
        cases inner' with
        | cons inner' more' =>
          intro same
          cases same

theorem Flows.agree {xs : List Spot} {ts : Trees} (h : Flows c ends₁ xs ts) {ys : List Spot} {us : Trees}
    {k₁ k₂ : List Kind} (aligned : Aligned c xs ys) (flows : Flows c ends₂ ys us)
    (same : rolesAll ts ++ k₁ = rolesAll us ++ k₂) :
    xs = ys ∧ k₁ = k₂ ∧ ∀ x ∈ xs, ∀ y, Reached c ends₁ x y → y.next c ends₁ = y.next c ends₂ := by
  induction h generalizing ys us k₁ k₂ with
  | nil =>
    cases aligned
    cases flows
    exact ⟨rfl, same, fun x mem => nomatch mem⟩
  | @cons x xs inside ts inner rest ihInner ih =>
    cases aligned with
    | cons _ aligned =>
      cases flows with
      | cons inner' rest' =>
        rw [rolesAll, rolesAll, roles_rebuilt inner, roles_rebuilt inner'] at same
        simp only [List.append_assoc, List.append_cancel_left_eq] at same
        obtain ⟨nexts, same, inside⟩ := ihInner (aligned_next ends₁ ends₂ x) inner' same
        obtain ⟨rfl, same, later⟩ := ih aligned rest' same
        refine ⟨rfl, same, fun z mem y reached => ?_⟩
        rcases List.mem_cons.mp mem with rfl | mem
        · obtain rfl | ⟨next, first, reached⟩ := Relation.ReflTransGen.cases_head reached
          · exact nexts
          · exact inside next first y reached
        · exact later z mem y reached
    | gone a b id => exact absurd same (roles_gone_ne_renamed (.cons inner rest) flows)
    | renamed a b id => exact absurd same.symm (roles_gone_ne_renamed flows (.cons inner rest))

theorem Flows.congr {xs : List Spot} {ts : Trees} (h : Flows c ends₁ xs ts)
    (agree : ∀ x ∈ xs, ∀ y, Reached c ends₁ x y → y.next c ends₁ = y.next c ends₂) : Flows c ends₂ xs ts := by
  rw [flows_iff_rebuilds] at h ⊢
  exact h.congr agree

end Walks

theorem isBareSuccess_of_identity? {c : Context} {s id : Tree} (set : identity? c s = some id) :
    isBareSuccess s = false := by
  obtain ⟨accessor, -, set⟩ := Option.bind_eq_some_iff.mp set
  obtain ⟨e, semi, receiver, turbofish, rfl, semicolon, called, -⟩ := setIdArgument?_eq_some.mp set
  unfold isBareSuccess
  split
  · rename_i same
    cases same
    cases called
  · rename_i same
    cases same
    rw [semicolon, Bool.false_and]
  · rfl

theorem listEnds_eq_false {c : Context} {a : After} {rest : Trees} {s : Tree} (mem : s ∈ elideTimeouts c rest)
    (clear : clears c s = true) : listEnds c a rest = false := by
  obtain ⟨id, set, -⟩ := (Option.any_eq_true _ _).mp clear
  unfold listEnds
  match elided : elideTimeouts c rest with
  | [] => rw [elided] at mem; cases mem
  | [t] =>
    rw [elided, List.mem_singleton] at mem
    subst mem
    exact isBareSuccess_of_identity? set
  | _ :: _ :: _ => rfl

theorem ends_of_flowed_eq {c : Context} {ends : Ends} {a : After} {stmts : Trees}
    (same : flowed c (listEnds c) a stmts = flowed c ends a stmts) {s : Tree} {rest : Trees}
    (mem : (s, rest) ∈ untimed c stmts) (clear : clears c s = true) (ended : listEnds c a rest = true) :
    ends a rest = true := by
  unfold flowed at same
  have step : ∀ (s₀ : Tree) (rest₀ : Trees) (more : List (Tree × Trees)), more.map (·.1) = elideTimeouts c rest₀ →
      ((remade c (listEnds c a) more).map a.place = (remade c (ends a) more).map a.place →
        (s, rest) ∈ more → ends a rest = true) →
      (remade c (listEnds c a) ((s₀, rest₀) :: more)).map a.place =
        (remade c (ends a) ((s₀, rest₀) :: more)).map a.place →
      (s, rest) ∈ (s₀, rest₀) :: more → ends a rest = true := by
    intro s₀ rest₀ more tail ih same mem
    rcases List.mem_cons.mp mem with here | later
    · -- the clear itself ends the one list, so it ends the other
      obtain ⟨rfl, rfl⟩ := Prod.mk.inj here
      obtain ⟨id, set, empty⟩ := (Option.any_eq_true _ _).mp clear
      rw [remade_of_set set, remade_of_set set, ended, empty] at same
      cases decided : ends a rest with
      | true => rfl
      | false =>
        rw [decided] at same
        cases same
    · have goesOn : listEnds c a rest₀ = false :=
        listEnds_eq_false (by rw [← tail]; exact List.mem_map_of_mem later) clear
      cases set : identity? c s₀ with
      | none =>
        cases more with
        | nil => cases later
        | cons q more =>
          rw [remade_of_kept set, remade_of_kept set] at same
          exact ih (List.cons.inj same).2 later
      | some id =>
        rw [remade_of_set set, remade_of_set set, goesOn, Bool.false_and, if_neg Bool.false_ne_true] at same
        split at same
        · cases same
        · exact ih (List.cons.inj same).2 later
  fun_induction untimed c stmts with
  | case1 => cases mem
  | case2 => cases mem
  | case3 s₀ _ => exact step s₀ [] [] rfl (fun _ mem => (List.not_mem_nil mem).elim) same mem
  | case4 _ _ _ _ _ ih => exact ih same mem
  | case5 _ _ _ _ _ ih => exact ih same mem
  | case6 s₀ r rest₀ _ ih =>
    exact step s₀ (r :: rest₀) _ (map_fst_untimed c _) ih same mem

theorem flowed_congr {c : Context} {ends₁ ends₂ : Ends} {a : After} {stmts : Trees}
    (same : ∀ s rest, (s, rest) ∈ untimed c stmts → clears c s = true → ends₁ a rest = ends₂ a rest) :
    flowed c ends₁ a stmts = flowed c ends₂ a stmts := by
  have pairs : identified c (ends₁ a) (untimed c stmts) = identified c (ends₂ a) (untimed c stmts) := by
    generalize untimed c stmts = ps at same
    induction ps with
    | nil => rfl
    | cons p ps ih =>
      obtain ⟨s, rest⟩ := p
      have later := ih fun s rest mem => same s rest (List.mem_cons_of_mem _ mem)
      rw [identified, identified, later]
      cases set : identity? c s with
      | none => rfl
      | some id =>
        by_cases empty : Naming.stringText id = some ""
        · have clear : clears c s = true := by simp [clears, set, empty]
          rw [same s rest List.mem_cons_self clear]
        · simp [empty]
  rw [flowed, flowed, remade, remade, pairs]

/-- A body becomes what it should: a clear becomes a `return` only where nothing but a bare success may run after it, and
is renamed elsewhere, with everything after it in its place. -/
def SkipsNothing (c : Context) (body body' : Tree) : Prop :=
  ∃ ends : Ends, (∀ a rest, ends a rest = true → isTerminal (a.through rest) = true) ∧
    Flows c ends [⟨.body, body⟩] [body']

/-- A block whose list ends with a clear although more than a bare success may run after it. -/
def cutsShort (c : Context) : Spot → Bool
  | ⟨a, .node .block [.group _ stmts]⟩ => (untimed c stmts).any fun (s, rest) =>
    clears c s && listEnds c a rest && !isTerminal (a.through rest)
  | _ => false

theorem next_of_not_cutsShort {c : Context} {x : Spot} (whole : cutsShort c x = false) :
    x.next c (listEnds c) = x.next c fun a rest => listEnds c a rest && isTerminal (a.through rest) := by
  rw [Spot.next.eq_def, Spot.next.eq_def]
  split
  · rfl
  · rfl
  · refine flowed_congr fun s rest mem clear => ?_
    have own := List.any_eq_false.mp whole (s, rest) mem
    simp only [clear, Bool.true_and] at own
    revert own
    cases listEnds c _ rest <;> simp
  · rfl
  · rfl

/-- The rewriter looks at each list alone, and skips no code exactly if every clear that ends its list, at whatever depth
of blocks, branches, loops and closures a walk comes to it, ends the function. -/
theorem clears_skip_nothing_iff {c : Context} {depth : Nat} {body body' : Tree} {s s' : State}
    (run : (flowStage.walk c depth body).run s = some (body', s')) :
    Flows c (listEnds c) [⟨.body, body⟩] [body'] ∧
      (SkipsNothing c body body' ↔ ∀ x, Reached c (listEnds c) ⟨.body, body⟩ x → cutsShort c x = false) := by
  have flows := flows_of_walk run
  refine ⟨flows, fun ⟨ends, sound, given⟩ x reached => ?_, fun whole => ?_⟩
  · -- what was made of the body fixes the decision at every list
    have same : rolesAll [body'] ++ [] = rolesAll [body'] ++ [] := rfl
    have agree := (flows.agree (.refl _) given same).2.2 _ List.mem_cons_self x reached
    unfold cutsShort
    split
    · refine List.any_eq_false.mpr fun ⟨s, rest⟩ mem cut => ?_
      simp only [Bool.and_eq_true, Bool.not_eq_true'] at cut
      obtain ⟨⟨clear, ended⟩, more⟩ := cut
      rw [sound _ rest (ends_of_flowed_eq agree mem clear ended)] at more
      cases more
    · rfl
  · refine ⟨fun a rest => listEnds c a rest && isTerminal (a.through rest),
      fun a rest ended => (Bool.and_eq_true_iff.mp ended).2, flows.congr fun x mem y reached => ?_⟩
    rw [List.mem_singleton.mp mem] at reached
    exact next_of_not_cutsShort (whole y reached)

/-- No list cuts its function short, computed for a walk of bounded depth. -/
def staysWhole (c : Context) : (depth : Nat) → Spot → Bool
  | 0, _ => false
  | depth + 1, x => !cutsShort c x && (x.next c (listEnds c)).all (staysWhole c depth)

theorem cutsShort_of_staysWhole {c : Context} {depth : Nat} {x y : Spot} (whole : staysWhole c depth x = true)
    (reached : Reached c (listEnds c) x y) : cutsShort c y = false := by
  induction depth generalizing x with
  | zero => cases whole
  | succ depth ih =>
    rw [staysWhole, Bool.and_eq_true, Bool.not_eq_true'] at whole
    obtain rfl | ⟨next, first, reached⟩ := Relation.ReflTransGen.cases_head reached
    · exact whole.1
    · exact ih (List.all_eq_true.mp whole.2 next first) reached

/-- A clear in a branch.  With a `return Ok(());` after it no code is skipped; alone in the branch it leaves the function
in front of the code after the branch. -/
theorem clear_in_branch :
    let c := Context.make {} ⟨"WidgetModel", []⟩ [] "widget_read" ⟨"widget_read", .read, "model", some "d"⟩
    let clear := closedStmt (methodCallOf (var "d") "set_id" [stringExpr ""])
    let branch (stmts : Trees) : Tree :=
      .node (.stmt .expr) [.node (.expr .ifElse) [noAttrs, word "if", var "gone", blockOf stmts, .absent], .absent]
    let body (stmts : Trees) : Tree :=
      blockOf [branch stmts, closedStmt (callOf (var "log") [var "x"]), .node (.stmt .expr) [okUnit, .absent]]
    (∃ body' s', (flowStage.run? c (body [clear, closedStmt (returnOf okUnit)])).run {} = some (body', s') ∧
      SkipsNothing c (body [clear, closedStmt (returnOf okUnit)]) body') ∧
    ∃ body' s', (flowStage.run? c (body [clear])).run {} = some (body', s') ∧
      body'.text = "\x7b if gone \x7b return meta . mark_as_gone (id) ; \x7d log (x) ; Ok (()) \x7d" ∧
      ¬ SkipsNothing c (body [clear]) body' := by
  intro c clear branch body
  constructor
  · have ends : ((flowStage.walk c 20 (body [clear, closedStmt (returnOf okUnit)])).run {}).isSome = true := by
      decide +kernel
    obtain ⟨⟨body', s'⟩, walked⟩ := Option.isSome_iff_exists.mp ends
    have run := Stage.run?_of_walk (by decide) walked
    have whole : staysWhole c 12 ⟨.body, body [clear, closedStmt (returnOf okUnit)]⟩ = true := by decide +kernel
    exact ⟨body', s', run, (clears_skip_nothing_iff run).2.mpr fun x => cutsShort_of_staysWhole whole⟩
  · have ends : ((flowStage.walk c 20 (body [clear])).run {}).any
        (·.1.text == "\x7b if gone \x7b return meta . mark_as_gone (id) ; \x7d log (x) ; Ok (()) \x7d") = true := by
      decide +kernel
    obtain ⟨⟨body', s'⟩, walked, text⟩ := (Option.any_eq_true _ _).mp ends
    have run := Stage.run?_of_walk (by decide) walked
    refine ⟨body', s', run, beq_iff_eq.mp text, fun whole => ?_⟩
    have inBranch : Reached c (listEnds c) ⟨.body, body [clear]⟩
        ⟨⟨[closedStmt (callOf (var "log") [var "x"]), .node (.stmt .expr) [okUnit, .absent]], []⟩, blockOf [clear]⟩ :=
      .head (b := ⟨_, branch [clear]⟩) (.head _) (.head (.head _) (.single (.tail _ (.tail _ (.tail _ (.head _))))))
    have kept := (clears_skip_nothing_iff run).2.mp whole _ inBranch
    revert kept
    decide +kernel

end Retype.Rewrite
