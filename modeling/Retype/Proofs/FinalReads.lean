import Retype.Proofs.Clears
import Retype.Proofs.Outlets
import Retype.Proofs.Shielding

/-! Reads at the ends of lists.  A read that ends its list becomes success, and the list can be that of a block whose
value is used inside of the function: only final reads are dropped exactly if no such list ends in a read. -/

namespace Retype.Rewrite
open Retype.Code

/-- Which reads become success: those at the ends of lists with this outlet, given the statement. -/
abbrev Drops := Outlet → Tree → Bool

/-- Every read at the end of a list. -/
def everyRead : Drops := fun _ _ => true

/-- A statement that answers what the read answers returns it from the function. -/
def isFinal (u : Outlet) (s : Tree) : Bool := if isReturn s then u.returns else u.value

/-- The statement with success in the place of the read that it answers. -/
def success (c : Context) (s : Tree) : Tree := (readToSuccess? c s).getD s

/-- A list of statements without timeouts, identifiers on the metadata. -/
def prepared (c : Context) (stmts : Trees) : Trees := moveIdentities c (elideTimeouts c stmts)

/-- What becomes of a list of statements, each with its outlet. -/
def settled (c : Context) (drops : Drops) (u : Outlet) (stmts : Trees) : List (Outlet × Tree) :=
  (prepared c stmts).dropLast.map (u.used, ·) ++
    (prepared c stmts).getLast?.toList.map fun s => (u, if drops u s then success c s else s)

theorem map_snd_settled (c : Context) (u : Outlet) (stmts : Trees) :
    (settled c everyRead u stmts).map (·.2) =
      (replaceTrailingRead c (prepared c stmts)).getD (prepared c stmts) := by
  unfold settled
  generalize prepared c stmts = ready
  rcases ready.eq_nil_or_concat with rfl | ⟨init, last, rfl⟩
  · rfl
  · rw [List.concat_eq_append, replaceTrailingRead_concat, List.dropLast_concat, List.getLast?_concat]
    have front : (init.map (u.used, ·)).map (·.2) = init := by simp [Function.comp_def]
    rw [List.map_append, front]
    cases read : readToSuccess? c last <;> simp [everyRead, success, read]

/-- The statement `s` is `made` with a read in the place of success. -/
inductive HoldsRead (c : Context) : (made s : Tree) → Prop
  | call {e : Tree} (read : isReadCall c e = true) : HoldsRead c okUnit e
  | operand (attrs w : Tree) {made e : Tree} (inner : HoldsRead c made e) :
      HoldsRead c (.node (.expr .returnEarly) [attrs, w, made]) (.node (.expr .returnEarly) [attrs, w, e])
  | statement (semi : Tree) {made e : Tree} (inner : HoldsRead c made e) :
      HoldsRead c (.node (.stmt .expr) [made, semi]) (.node (.stmt .expr) [e, semi])

theorem holdsRead_of_readToSuccess? {c : Context} {s made : Tree} (h : readToSuccess? c s = some made) : HoldsRead c made s := by
  unfold readToSuccess? at h
  split at h
  · split at h
    · rename_i read
      cases h
      exact .statement _ (.operand _ _ (.call read))
    · cases h
  · split at h
    · rename_i read
      cases h
      exact .statement _ (.call (Bool.and_eq_true_iff.mp read).2)
    · cases h
  · cases h

theorem HoldsRead.ne {c : Context} {made s : Tree} (h : HoldsRead c made s) : made ≠ s := by
  induction h with
  | call read =>
    rintro rfl
    rw [isReadCall_okUnit] at read
    cases read
  | operand attrs w inner ih =>
    intro same
    cases same
    exact ih rfl
  | statement semi inner ih =>
    intro same
    cases same
    exact ih rfl

def comesNext (c : Context) (drops : Drops) : Outlet × Tree → List (Outlet × Tree)
  | (_, .leaf _) => []
  | (u, .group _ body) => body.map (u, ·)
  | (u, .node .block [.group _ stmts]) => settled c drops u stmts
  | (u, .node .macroBody parts) => ((vecElements? (.node .macroBody parts)).getD []).map (u.used, ·)
  | (u, .node k parts) => (u.parts k parts).zip parts

/-- What a function becomes if these reads become success. -/
abbrev Dropped (c : Context) (drops : Drops) : List (Outlet × Tree) → Trees → Prop :=
  Rebuilds (comesNext c drops) Prod.snd

/-- The code that a walk comes to. -/
def Comes (c : Context) (drops : Drops) : Outlet × Tree → Outlet × Tree → Prop :=
  Relation.ReflTransGen fun x y => y ∈ comesNext c drops x

theorem ne_list_of_apart {k : Kind} {parts : Trees} (apart : ∀ d stmts, k = .block → parts = [.group d stmts] → False)
    (d : Delim) (stmts : Trees) : Code.Tree.node k parts ≠ .node .block [.group d stmts] := by
  intro same
  cases same
  exact apart d stmts rfl rfl

theorem map_snd_comesNext (c : Context) (x : Spot) (y : Outlet × Tree) (same : y.2 = x.tree) :
    (comesNext c everyRead y).map (·.2) = (x.next c (listEnds c)).map (·.tree) := by
  obtain ⟨u, t⟩ := y
  obtain ⟨a, t'⟩ := x
  cases same
  rw [comesNext.eq_def]
  split
  · rename_i same
    cases same
    rfl
  · rename_i body same
    cases same
    rw [List.map_map]
    exact (List.map_id body).trans (After.map_tree_each a body).symm
  · rename_i stmts same
    cases same
    exact (map_snd_settled c u stmts).trans (map_tree_flowed c a stmts).symm
  · rename_i parts same
    cases same
    rw [List.map_map]
    exact (List.map_id _).trans (After.map_tree_each (a.within (.node .macroBody parts)) _).symm
  · rename_i k parts apart opened same
    cases same
    have noList := ne_list_of_apart apart
    rw [List.map_snd_zip (Nat.le_of_eq (Outlet.length_parts u k parts).symm), next_of_node opened noList,
      After.map_tree_parts]

theorem dropped_of_walk {c : Context} {depth : Nat} {body body' : Tree} {s s' : State}
    (run : (flowStage.walk c depth body).run s = some (body', s')) : Dropped c everyRead [(.body, body)] [body'] :=
  (flows_iff_rebuilds.mp (flows_of_walk run)).map (map_snd_comesNext c) rfl

mutual
/-- How many path expressions a tree has outside of blocks and macros. -/
def paths : Tree → Nat
  | .leaf _ => 0
  | .group _ ts => pathsAll ts
  | .node k ts => if k = .block ∨ k = .macroBody then 0 else (roleOf k).count (.expr .path) + pathsAll ts

def pathsAll : List Tree → Nat
  | [] => 0
  | t :: ts => paths t + pathsAll ts
end

theorem paths_le_of_mem {t : Tree} {ts : Trees} (mem : t ∈ ts) : paths t ≤ pathsAll ts := by
  induction ts with
  | nil => cases mem
  | cons u ts ih =>
    rw [pathsAll]
    rcases List.mem_cons.mp mem with rfl | mem
    · exact Nat.le_add_right _ _
    · exact Nat.le_trans (ih mem) (Nat.le_add_left _ _)

theorem paths_stripParens (e : Tree) : paths e.stripParens ≤ paths e := by
  fun_induction Tree.stripParens e with
  | case1 attrs d e ih =>
    refine Nat.le_trans ih ?_
    simp only [paths, pathsAll, reduceCtorEq, or_self, if_false]
    omega
  | case2 => exact Nat.le_refl _

theorem paths_bare (e : Tree) : paths e.bare ≤ paths e := by
  fun_induction Tree.bare e with
  | case1 attrs d e ih =>
    refine Nat.le_trans ih ?_
    simp only [paths, pathsAll, reduceCtorEq, or_self, if_false]
    omega
  | case2 attrs amp m e ih =>
    refine Nat.le_trans ih ?_
    simp only [paths, pathsAll, reduceCtorEq, or_self, if_false]
    omega
  | case3 => exact Nat.le_refl _

theorem one_le_paths_path (parts : Trees) : 1 ≤ paths (.node (.expr .path) parts) := by
  have own : (roleOf (.expr .path)).count (.expr .path) = 1 := by decide
  rw [paths, if_neg (by decide), own]
  exact Nat.le_add_right _ _

theorem one_le_paths_of_isVar {e : Tree} {name : String} (h : e.isVar name = true) : 1 ≤ paths e := by
  have ident : e.exprIdent? = some name := beq_iff_eq.mp h
  obtain ⟨path, plain, -⟩ := Option.bind_eq_some_iff.mp ident
  unfold Tree.plainPath? at plain
  split at plain
  · rename_i stripped
    exact Nat.le_trans (stripped ▸ one_le_paths_path _) (paths_stripParens e)
  · cases plain

theorem one_le_paths_of_isAccessor {c : Context} {e : Tree} (h : c.isAccessor e = true) : 1 ≤ paths e := by
  unfold Context.isAccessor at h
  split at h
  · exact Nat.le_trans (one_le_paths_of_isVar h) (paths_bare e)
  · cases h

/-- The function that reads the resource is a path, and so is the accessor that it is given. -/
theorem two_le_paths_of_isReadCall {c : Context} {e : Tree} (h : isReadCall c e = true) : 2 ≤ paths e := by
  unfold isReadCall at h
  split at h
  · rename_i path first rest called
    obtain ⟨a, attrs, p, d, body, stripped, -, members⟩ := callPath?_eq_some.mp called
    have given : 1 ≤ paths first := one_le_paths_of_isAccessor (Bool.and_eq_true_iff.mp h).2
    have listed : first ∈ Trees.members body := members ▸ List.mem_cons_self
    have inside : first ∈ body := (List.mem_filter.mp listed).1
    have args : 1 ≤ pathsAll body := Nat.le_trans given (paths_le_of_mem inside)
    have callee := one_le_paths_path [attrs, p]
    have call : 2 ≤ paths e.stripParens := by
      rw [stripped]
      simp only [paths, pathsAll, reduceCtorEq, or_self, if_false] at callee ⊢
      omega
    exact Nat.le_trans call (paths_stripParens e)
  · cases h

/-- How many path expressions trees have. -/
def pathCount (ts : Trees) : Nat := (rolesAll ts).count (.expr .path)

section Counts
variable {c : Context} {drops : Drops}

theorem pathCount_rebuilt {x : Outlet × Tree} {inside : Trees} (h : Dropped c drops (comesNext c drops x) inside)
    (ts : Trees) : pathCount (rebuilt x.2 inside :: ts) =
      (roles (rebuilt x.2 [])).count (.expr .path) + pathCount inside + pathCount ts := by
  have own : roles (rebuilt x.2 inside) = roles (rebuilt x.2 []) ++ rolesAll inside := by
    obtain ⟨u, t⟩ := x
    refine roles_rebuilt_append fun closed => ?_
    dsimp only at closed
    unfold isClosed at closed
    split at closed
    · exact rebuilds_nil_iff.mp h
    · rw [comesNext, Option.isNone_iff_eq_none.mp closed, Option.getD_none, List.map_nil] at h
      exact rebuilds_nil_iff.mp h
    · cases closed
  rw [pathCount, rolesAll, own, List.count_append, List.count_append]
  rfl

theorem paths_le_next (c : Context) (drops : Drops) (x : Outlet × Tree) : paths x.2 ≤
    (roles (rebuilt x.2 [])).count (.expr .path) + pathsAll ((comesNext c drops x).map (·.2)) := by
  obtain ⟨u, t⟩ := x
  rw [comesNext.eq_def]
  split
  · rename_i same
    cases same
    exact Nat.zero_le _
  · rename_i body same
    cases same
    simp only [paths, List.map_map, Function.comp_def, List.map_id']
    exact Nat.le_add_left _ _
  · rename_i same
    cases same
    simp [paths]
  · rename_i same
    cases same
    simp [paths]
  · rename_i k parts apart opened same
    cases same
    have noList := ne_list_of_apart apart
    rw [List.map_snd_zip (Nat.le_of_eq (Outlet.length_parts u k parts).symm), rebuilt_of_node opened noList, roles,
      rolesAll_regroup, rolesAll, List.append_nil, paths]
    split
    · exact Nat.zero_le _
    · exact Nat.le_refl _

theorem pathsAll_le_pathCount {xs : List (Outlet × Tree)} {ts : Trees} (h : Dropped c drops xs ts) :
    pathsAll (xs.map (·.2)) ≤ pathCount ts := by
  induction h with
  | nil => exact Nat.le_refl _
  | @cons x xs inside ts inner rest ihInner ih =>
    have own := paths_le_next c drops x
    rw [List.map_cons, pathsAll, pathCount_rebuilt inner]
    omega

theorem pathCount_okUnit {u : Outlet} {ts : Trees} (h : Dropped c drops [(u, okUnit)] ts) : pathCount ts = 1 := by
  simp only [okUnit, callOf, noAttrs, var, exprOf, pathOf, word, Tree.absent, parenGroup, commaList, unitTuple,
    rebuilds_cons_iff, comesNext, Outlet.parts, List.map_cons, List.map_nil, List.zip_cons_cons, List.zip_nil_right,
    rebuilds_nil_iff, exists_eq_left, exists_eq_left'] at h
  subst h
  rfl

theorem two_le_pathCount {u : Outlet} {e : Tree} {ts : Trees} (read : isReadCall c e = true)
    (h : Dropped c drops [(u, e)] ts) : 2 ≤ pathCount ts := by
  have kept : paths e + 0 ≤ pathCount ts := pathsAll_le_pathCount h
  exact Nat.le_trans (two_le_paths_of_isReadCall read) kept

/-- Two lists of code that are the same up to reads that one of them keeps. -/
inductive AlikeBut (c : Context) : List (Outlet × Tree) → List (Outlet × Tree) → Prop
  | nil : AlikeBut c [] []
  | cons (x : Outlet × Tree) {xs ys : List (Outlet × Tree)} (rest : AlikeBut c xs ys) : AlikeBut c (x :: xs) (x :: ys)
  | kept (u : Outlet) {made s : Tree} (keeps : HoldsRead c made s) {xs ys : List (Outlet × Tree)} (rest : AlikeBut c xs ys) :
      AlikeBut c ((u, made) :: xs) ((u, s) :: ys)

theorem AlikeBut.refl (xs : List (Outlet × Tree)) : AlikeBut c xs xs := by
  induction xs with
  | nil => exact .nil
  | cons x xs ih => exact .cons x ih

theorem AlikeBut.prepend (front : List (Outlet × Tree)) {xs ys : List (Outlet × Tree)} (h : AlikeBut c xs ys) :
    AlikeBut c (front ++ xs) (front ++ ys) := by
  induction front with
  | nil => exact h
  | cons x front ih => exact .cons x ih

theorem alikeBut_settled (drops : Drops) (u : Outlet) (stmts : Trees) :
    AlikeBut c (settled c everyRead u stmts) (settled c drops u stmts) := by
  unfold settled everyRead
  refine .prepend _ ?_
  cases (prepared c stmts).getLast? with
  | none => exact .nil
  | some s =>
    rw [Option.toList_some, List.map_singleton, List.map_singleton, if_pos rfl]
    by_cases drop : drops u s = true
    · rw [if_pos drop]
      exact .refl _
    · rw [if_neg drop, success]
      cases read : readToSuccess? c s with
      | none => exact .refl _
      | some made => exact .kept u (holdsRead_of_readToSuccess? read) .nil

theorem alikeBut_next (drops : Drops) (x : Outlet × Tree) :
    AlikeBut c (comesNext c everyRead x) (comesNext c drops x) := by
  rw [comesNext.eq_def, comesNext.eq_def]
  split
  · exact .nil
  · exact .refl _
  · exact alikeBut_settled drops _ _
  · exact .refl _
  · exact .refl _

theorem alikeBut_inside (drops : Drops) (u : Outlet) {made s : Tree} (keeps : HoldsRead c made s) :
    (made = okUnit ∧ isReadCall c s = true) ∨
      AlikeBut c (comesNext c everyRead (u, made)) (comesNext c drops (u, s)) ∧
        comesNext c everyRead (u, made) ≠ comesNext c drops (u, s) ∧ rebuilt made [] = rebuilt s [] := by
  cases keeps with
  | call read => exact .inl ⟨rfl, read⟩
  | operand attrs w inner =>
    refine .inr ⟨.cons _ (.cons _ (.kept _ inner .nil)), fun same => inner.ne ?_, rfl⟩
    cases same
    rfl
  | statement semi inner =>
    refine .inr ⟨.kept _ inner (.cons _ .nil), fun same => inner.ne ?_, rfl⟩
    cases same
    rfl

/-- A walk that keeps reads makes no fewer paths than one that keeps none, and more unless both decide alike wherever
they come to. -/
theorem Dropped.pathCount_le {xs : List (Outlet × Tree)} {ts : Trees} (h : Dropped c everyRead xs ts)
    {ys : List (Outlet × Tree)} {us : Trees} (alike : AlikeBut c xs ys) (kept : Dropped c drops ys us) :
    pathCount ts ≤ pathCount us ∧ (pathCount ts = pathCount us → xs = ys ∧
      ∀ x ∈ xs, ∀ y, Comes c everyRead x y → comesNext c everyRead y = comesNext c drops y) := by
  induction h generalizing ys us with
  | nil =>
    cases alike
    cases kept
    exact ⟨Nat.le_refl _, fun _ => ⟨rfl, fun x mem => nomatch mem⟩⟩
  | @cons x xs inside ts inner rest ihInner ih =>
    cases alike with
    | cons _ alike =>
      cases kept with
      | cons inner' rest' =>
        obtain ⟨less, nexts⟩ := ihInner (alikeBut_next drops x) inner'
        obtain ⟨less', others⟩ := ih alike rest'
        rw [pathCount_rebuilt inner, pathCount_rebuilt inner']
        refine ⟨by omega, fun same => ?_⟩
        obtain ⟨nexts, inside⟩ := nexts (by omega)
        obtain ⟨rfl, later⟩ := others (by omega)
        refine ⟨rfl, fun z mem y reached => ?_⟩
        rcases List.mem_cons.mp mem with rfl | mem
        · obtain rfl | ⟨next, first, reached⟩ := Relation.ReflTransGen.cases_head reached
          · exact nexts
          · exact inside next first y reached
        · exact later z mem y reached
    | @kept u made s keeps _ _ alike =>
      cases kept with
      | @cons _ _ inside' ts' inner' rest' =>
        obtain ⟨less', -⟩ := ih alike rest'
        have fewer : pathCount (rebuilt made inside :: ts) < pathCount (rebuilt s inside' :: ts') := by
          rcases alikeBut_inside drops u keeps with ⟨rfl, read⟩ | ⟨alike', differ, same⟩
          · have one := pathCount_okUnit (.cons inner .nil)
            have two := two_le_pathCount read (.cons inner' .nil)
            have nothing : pathCount [] = 0 := rfl
            rw [pathCount_rebuilt inner] at one
            rw [pathCount_rebuilt inner'] at two
            rw [pathCount_rebuilt inner, pathCount_rebuilt inner']
            omega
          · obtain ⟨less, nexts⟩ := ihInner alike' inner'
            have strict : pathCount inside ≠ pathCount inside' := fun equal => differ (nexts equal).1
            rw [pathCount_rebuilt inner, pathCount_rebuilt inner']
            dsimp only
            rw [same]
            omega
        exact ⟨Nat.le_of_lt fewer, fun same => absurd same (Nat.ne_of_lt fewer)⟩

end Counts

/-- A list that ends in a read whose value is not what the function returns. -/
def dropsInner (c : Context) : Outlet × Tree → Bool
  | (u, .node .block [.group _ stmts]) =>
    (prepared c stmts).getLast?.any fun s => (readToSuccess? c s).isSome && !isFinal u s
  | _ => false

/-- A body becomes what it should: reads become success only where their values are what the function returns. -/
def DropsFinalReads (c : Context) (body body' : Tree) : Prop :=
  ∃ drops : Drops, (∀ u s, drops u s = true → isFinal u s = true) ∧ Dropped c drops [(.body, body)] [body']

theorem settled_congr {c : Context} {u : Outlet} {d : Delim} {stmts : Trees}
    (whole : dropsInner c (u, .node .block [.group d stmts]) = false) :
    settled c everyRead u stmts = settled c isFinal u stmts := by
  unfold settled everyRead
  rw [dropsInner] at whole
  cases last : (prepared c stmts).getLast? with
  | none => rfl
  | some s =>
    rw [last, Option.any_some] at whole
    rw [Option.toList_some, List.map_singleton, List.map_singleton, if_pos rfl]
    by_cases final : isFinal u s = true
    · rw [if_pos final]
    · rw [Bool.not_eq_true] at final
      rw [final, Bool.not_false, Bool.and_true, Option.isSome_eq_false_iff, Option.isNone_iff_eq_none] at whole
      rw [final, if_neg Bool.false_ne_true, success, whole]
      rfl

theorem next_of_not_dropsInner {c : Context} {x : Outlet × Tree} (whole : dropsInner c x = false) :
    comesNext c everyRead x = comesNext c isFinal x := by
  rw [comesNext.eq_def, comesNext.eq_def]
  split
  · rfl
  · rfl
  · exact settled_congr whole
  · rfl
  · rfl

theorem drops_of_settled_eq {c : Context} {drops : Drops} {u : Outlet} {stmts : Trees}
    (same : settled c everyRead u stmts = settled c drops u stmts) {s : Tree}
    (last : (prepared c stmts).getLast? = some s) (read : (readToSuccess? c s).isSome = true) : drops u s = true := by
  obtain ⟨made, read⟩ := Option.isSome_iff_exists.mp read
  unfold settled everyRead at same
  have same := List.append_cancel_left same
  rw [last, Option.toList_some, List.map_singleton, List.map_singleton, if_pos rfl, success, read] at same
  by_contra kept
  rw [if_neg kept] at same
  have equal : made = s := by simpa using same
  exact (holdsRead_of_readToSuccess? read).ne equal

/-- The rewriter looks at each list alone, and drops only final reads exactly if no list ends in a read, at whatever depth
of blocks, branches, loops and closures a walk comes to it, whose value is used inside of the function. -/
theorem final_reads_dropped_iff {c : Context} {depth : Nat} {body body' : Tree} {s s' : State}
    (run : (flowStage.walk c depth body).run s = some (body', s')) :
    Dropped c everyRead [(.body, body)] [body'] ∧
      (DropsFinalReads c body body' ↔ ∀ x, Comes c everyRead (.body, body) x → dropsInner c x = false) := by
  have dropped : Dropped c everyRead [(.body, body)] [body'] := dropped_of_walk run
  refine ⟨dropped, fun ⟨drops, sound, given⟩ x reached => ?_, fun whole => ?_⟩
  · -- what was made of the body fixes the decision at every list
    have agree := ((dropped.pathCount_le (.refl _) given).2 rfl).2 _ List.mem_cons_self x reached
    unfold dropsInner
    split
    · rename_i u d stmts
      rw [← Bool.not_eq_true, Option.any_eq_true]
      rintro ⟨s, last, inner⟩
      rw [Bool.and_eq_true, Bool.not_eq_true'] at inner
      have final := sound u s (drops_of_settled_eq agree last inner.1)
      rw [inner.2] at final
      cases final
    · rfl
  · refine ⟨isFinal, fun _ _ final => final, dropped.congr fun x mem y reached => ?_⟩
    rw [List.mem_singleton.mp mem] at reached
    exact next_of_not_dropsInner (whole y reached)

/-- No list ends in a read that is used, computed for a walk of bounded depth. -/
def staysFinal (c : Context) : (depth : Nat) → Outlet × Tree → Bool
  | 0, _ => false
  | depth + 1, x => !dropsInner c x && (comesNext c everyRead x).all (staysFinal c depth)

theorem dropsInner_of_staysFinal {c : Context} {depth : Nat} {x y : Outlet × Tree} (whole : staysFinal c depth x = true)
    (reached : Comes c everyRead x y) : dropsInner c y = false := by
  induction depth generalizing x with
  | zero => cases whole
  | succ depth ih =>
    rw [staysFinal, Bool.and_eq_true, Bool.not_eq_true'] at whole
    obtain rfl | ⟨next, first, reached⟩ := Relation.ReflTransGen.cases_head reached
    · exact whole.1
    · exact ih (List.all_eq_true.mp whole.2 next first) reached

/-- A read in a branch and one at the end are final.  One at the end of a closure is not, and the closure then answers
without it. -/
theorem read_in_closure :
    let c := Context.make {} ⟨"WidgetModel", []⟩ [] "widget_read" ⟨"widget_read", .update, "model", some "d"⟩
    let read := callOf (var "widget_read") [var "d", var "meta"]
    let tail : Tree := .node (.stmt .expr) [read, .absent]
    let branch : Tree := .node (.stmt .expr) [.node (.expr .ifElse) [noAttrs, word "if", var "known",
      blockOf [closedStmt (returnOf read)], .absent], .absent]
    let refresh := letMut "refresh" (moveClosure [] [tail])
    (∃ body' s', (flowStage.run? c (blockOf [branch, tail])).run {} = some (body', s') ∧
      body'.text = "\x7b if known \x7b return Ok (()) ; \x7d Ok (()) \x7d" ∧
      DropsFinalReads c (blockOf [branch, tail]) body') ∧
    ∃ body' s', (flowStage.run? c (blockOf [refresh, tail])).run {} = some (body', s') ∧
      body'.text = "\x7b let mut refresh = move | | \x7b Ok (()) \x7d ; Ok (()) \x7d" ∧
      ¬DropsFinalReads c (blockOf [refresh, tail]) body' := by
  intro c read tail branch refresh
  constructor
  · have ends : ((flowStage.walk c 20 (blockOf [branch, tail])).run {}).any
        (·.1.text == "\x7b if known \x7b return Ok (()) ; \x7d Ok (()) \x7d") = true := by
      decide +kernel
    obtain ⟨⟨body', s'⟩, walked, text⟩ := (Option.any_eq_true _ _).mp ends
    have run := Stage.run?_of_walk (by decide) walked
    have whole : staysFinal c 12 (.body, blockOf [branch, tail]) = true := by decide +kernel
    exact ⟨body', s', run, beq_iff_eq.mp text,
      (final_reads_dropped_iff run).2.mpr fun x => dropsInner_of_staysFinal whole⟩
  · have ends : ((flowStage.walk c 20 (blockOf [refresh, tail])).run {}).any
        (·.1.text == "\x7b let mut refresh = move | | \x7b Ok (()) \x7d ; Ok (()) \x7d") = true := by
      decide +kernel
    obtain ⟨⟨body', s'⟩, walked, text⟩ := (Option.any_eq_true _ _).mp ends
    have run := Stage.run?_of_walk (by decide) walked
    refine ⟨body', s', run, beq_iff_eq.mp text, fun whole => ?_⟩
    have inClosure : Comes c everyRead (.body, blockOf [refresh, tail]) (.apart, blockOf [tail]) :=
      .head (b := (Outlet.body.used, refresh)) (.head _) (.head (.tail _ (.tail _ (.tail _ (.head _))))
        (.head (.tail _ (.head _)) (.head (.tail _ (.tail _ (.tail _ (.tail _ (.tail _ (.tail _ (.tail _ (.tail _
          (.tail _ (.tail _ (.head _))))))))))) (.single (.tail _ (.tail _ (.head _)))))))
    have kept := (final_reads_dropped_iff run).2.mp whole _ inClosure
    revert kept
    decide +kernel

end Retype.Rewrite
