import Mathlib.Algebra.BigOperators.Group.List.Basic
import Retype.Proofs.AlikeTokens
import Retype.Proofs.Descending
import Retype.Proofs.Idempotence

/-! When a run ends.  A walk goes down in the code as long as it comes to no path of the configuration, so a run that does not
end comes from such a path to the same path again; a run whose paths hold no code always ends. -/

namespace Retype.Rewrite
open Retype.Code

/-- A walk goes on from a tree to what is inside of what the stage makes of it. -/
def Stage.Onward (stage : Stage) (c : Context) (t v : Tree) : Prop := v ∈ inside (stage.made c t)

/-- A walk comes to a path of the configuration from which it comes to the same path again. -/
def Stage.Circles (stage : Stage) (c : Context) (t : Tree) : Prop :=
  ∃ p ∈ c.paths, Relation.ReflTransGen (stage.Onward c) t p ∧ Relation.TransGen (stage.Onward c) p p

/-- A walk of a tree ends within a depth, whatever the state. -/
def Stage.Ends (stage : Stage) (c : Context) (depth : Nat) (t : Tree) : Prop :=
  ∀ s, ((stage.walk c depth t).run s).isSome = true

section Walks
variable {stage : Stage} {c : Context}

theorem Stage.ends_of_isSome {depth : Nat} {t : Tree} {s : State} (h : ((stage.walk c depth t).run s).isSome = true) :
    stage.Ends c depth t := by
  intro s₂
  obtain ⟨⟨t', s'⟩, run⟩ := Option.isSome_iff_exists.mp h
  obtain ⟨s₂', again⟩ := Stage.walk_any_state run s₂
  rw [again]
  rfl

theorem isSome_mapM_run {step : Tree → StateT State Option Tree}
    (steady : ∀ {t s}, ((step t).run s).isSome = true → ∀ s₂, ((step t).run s₂).isSome = true) {ts : Trees} {s : State} :
    ((ts.mapM step).run s).isSome = true ↔ ∀ t ∈ ts, ∀ s, ((step t).run s).isSome = true := by
  induction ts generalizing s with
  | nil => simp
  | cons t ts ih =>
    rw [List.forall_mem_cons]
    cases first : (step t).run s with
    | none =>
      simp only [List.mapM_cons, StateT.run_bind, first, Option.bind_eq_bind, Option.bind_none]
      refine iff_of_false (by decide) fun ends => ?_
      have some := ends.1 s
      rw [first] at some
      cases some
    | some answer =>
      obtain ⟨t', s₁⟩ := answer
      have always := steady (t := t) (s := s) (by rw [first]; rfl)
      have rest := ih (s := s₁)
      simp only [List.mapM_cons, StateT.run_bind, first, Option.bind_eq_bind, Option.bind_some]
      rw [← rest]
      cases (ts.mapM step).run s₁ with
      | none => simp
      | some answer => exact iff_of_true rfl ⟨always, rfl⟩

theorem Stage.ends_succ {depth : Nat} {t : Tree} :
    stage.Ends c (depth + 1) t ↔ ∀ v, stage.Onward c t v → stage.Ends c depth v := by
  have inner {ts : Trees} {s : State} :
      ((ts.mapM (stage.walk c depth)).run s).isSome = true ↔ ∀ v ∈ ts, stage.Ends c depth v :=
    isSome_mapM_run fun ends => Stage.ends_of_isSome ends
  have one (s : State) : ((stage.walk c (depth + 1) t).run s).isSome = true ↔
      ∀ v, stage.Onward c t v → stage.Ends c depth v := by
    obtain ⟨s₁, offered⟩ := offer_eq_made stage c t s
    rw [Stage.walk, StateT.run_bind]
    simp only [Run.run_total, offered, Option.bind_eq_bind, Option.bind_some, Stage.Onward]
    generalize stage.made c t = u
    have wrapped {ts : Trees} {wrap : Trees → Tree} :
        ((do return wrap (← ts.mapM (stage.walk c depth)) : StateT State Option Tree).run s₁).isSome = true ↔
          ∀ v ∈ ts, stage.Ends c depth v := by
      rw [← inner (s := s₁)]
      simp only [StateT.run_bind, Option.bind_eq_bind]
      cases (ts.mapM (stage.walk c depth)).run s₁ <;> simp
    split
    · exact iff_of_true rfl fun v mem => (List.not_mem_nil mem).elim
    · exact wrapped
    · split
      · rename_i found
        rw [inside, found]
        exact wrapped
      · rename_i parts _ _ noElements
        have noList : vecElements? (.node .macroBody parts) = none := by
          refine Option.eq_none_iff_forall_ne_some.mpr fun elems found => ?_
          obtain ⟨path, bang, d, body, rfl⟩ := parts_of_vecElements? found
          exact noElements _ _ _ _ _ rfl found
        rw [inside, noList]
        exact iff_of_true rfl fun v mem => (List.not_mem_nil mem).elim
    · rename_i opened
      rw [inside_of_ne opened]
      exact wrapped
  exact ⟨fun ends => (one {}).mp (ends {}), fun ends s => (one s).mpr ends⟩

theorem Stage.Ends.onward {depth : Nat} {t v : Tree} (h : stage.Ends c depth t)
    (onward : Relation.TransGen (stage.Onward c) t v) : ∃ less < depth, stage.Ends c less v := by
  induction onward with
  | single step =>
    cases depth with
    | zero => cases h {}
    | succ depth => exact ⟨depth, Nat.lt_succ_self _, Stage.ends_succ.mp h _ step⟩
  | tail _ step ih =>
    obtain ⟨less, le, ends⟩ := ih
    cases less with
    | zero => cases ends {}
    | succ less => exact ⟨less, Nat.lt_trans (Nat.lt_succ_self _) le, Stage.ends_succ.mp ends _ step⟩

theorem Stage.not_ends_of_returns {p : Tree} (returns : Relation.TransGen (stage.Onward c) p p) (depth : Nat) :
    ¬ stage.Ends c depth p := by
  induction depth using Nat.strongRecOn with
  | ind depth ih =>
    intro ends
    obtain ⟨less, le, ends⟩ := ends.onward returns
    exact ih less le ends

theorem Stage.Circles.not_ends {t : Tree} (h : stage.Circles c t) (depth : Nat) : ¬ stage.Ends c depth t := by
  obtain ⟨p, -, reached, returns⟩ := h
  intro ends
  rcases Relation.reflTransGen_iff_eq_or_transGen.mp reached with rfl | onward
  · exact stage.not_ends_of_returns returns depth ends
  · obtain ⟨less, -, ends⟩ := ends.onward onward
    exact stage.not_ends_of_returns returns less ends

theorem made?_exprPath (r : Rewriter) (attrs path : Tree) : r.made? c (.node (.expr .path) [attrs, path]) = none := by
  refine Option.eq_none_iff_forall_ne_some.mpr fun u made => ?_
  cases r with
  | metaAccess =>
    obtain ⟨_, _, _, ⟨⟩, -⟩ := (metaAccess_run {}).mp made
  | accessorGet => cases (accessorGet_run {}).mp made
  | accessorSet =>
    obtain ⟨_, _, _, found, -⟩ := (accessorSet_run {}).mp made
    obtain ⟨_, _, ⟨⟩⟩ := stmt_of_setStatement found
  | importGuard =>
    obtain ⟨_, _, _, _, -, called, -⟩ := (importGuard_run {}).mp made
    obtain ⟨_, _, _, _, _, ⟨⟩, -⟩ := callPath?_eq_some.mp called
  | controlFlow =>
    obtain ⟨_, _, ⟨⟩, -⟩ := controlFlow_run_some made
  | functionRename =>
    obtain ⟨_, _, _, _, ⟨⟩, -⟩ | ⟨_, _, _, _, _, _, ⟨⟩, -⟩ := (functionRename_run {}).mp made
  | inlineFunction =>
    obtain ⟨_, _, _, _, _, _, _, _, ⟨⟩, -⟩ | ⟨_, _, _, _, _, ⟨⟩, -⟩ := (inlineFunction_run {}).mp made
  | compositeLiteral =>
    obtain ⟨_, _, _, _, _, -, called, -⟩ := (compositeLiteral_run {}).mp made
    obtain ⟨_, _, _, _, _, ⟨⟩, -⟩ := callPath?_eq_some.mp called

/-- Whether a tree is a path of the configuration. -/
def Context.isPath (c : Context) (t : Tree) : Bool := decide (t ∈ c.paths)

/-- The levels below some paths, for a walk that goes into each of them once. -/
def Context.levels (c : Context) (paths : Trees) : Nat := (paths.map fun p => descents c.isPath (inside p)).sum

section Paths
variable (shape : OnlyPaths c.isPath)
include shape

theorem Stage.made_of_isPath {p : Tree} (mem : c.isPath p = true) : stage.made c p = p := by
  obtain ⟨attrs, path, rfl⟩ := shape p mem
  exact Stage.made_of_passes fun r _ => made?_exprPath r attrs path

theorem Stage.ends_of_descent {paths : Trees} {depth : Nat} {t : Tree}
    (once : ∀ p ∈ c.paths, Relation.ReflTransGen (stage.Onward c) t p → p ∈ paths ∧ ¬ Relation.TransGen (stage.Onward c) p p)
    (deep : descent c.isPath t + c.levels paths < depth) : stage.Ends c depth t := by
  have frees : FreesPaths c c.isPath := fun p mem => decide_eq_true mem
  induction depth generalizing paths t with
  | zero => exact (Nat.not_lt_zero _ deep).elim
  | succ depth ih =>
    refine Stage.ends_succ.mpr fun v onward => ?_
    cases isPath : c.isPath t with
    | true =>
      have listed : t ∈ c.paths := of_decide_eq_true isPath
      have below : descent c.isPath v < descents c.isPath (inside t) := by
        rw [Stage.Onward, Stage.made_of_isPath shape isPath] at onward
        exact descent_lt_descents onward
      have less : descents c.isPath (inside t) + c.levels (paths.erase t) = c.levels paths :=
        List.sum_map_erase (fun p => descents c.isPath (inside p)) (once t listed .refl).1
      have onceMore (p : Tree) (mem : p ∈ c.paths) (reached : Relation.ReflTransGen (stage.Onward c) v p) :
          p ∈ paths.erase t ∧ ¬ Relation.TransGen (stage.Onward c) p p := by
        obtain ⟨further, noReturn⟩ := once p mem (.head onward reached)
        refine ⟨(List.mem_erase_of_ne ?_).mpr further, noReturn⟩
        rintro rfl
        exact noReturn (.head' onward reached)
      exact ih onceMore (by omega)
    | false =>
      have below : descent c.isPath v < descent c.isPath t :=
        Nat.lt_of_lt_of_le (descent_lt_descents onward) (descents_onward shape frees stage isPath)
      exact ih (fun p mem reached => once p mem (.head onward reached)) (by omega)

theorem levels_le (paths : Trees) (listed : ∀ p ∈ paths, c.isPath p = true) : c.levels paths ≤ 32 * weights paths := by
  induction paths with
  | nil => exact Nat.zero_le _
  | cons p paths ih =>
    have rest := ih fun q mem => listed q (List.mem_cons_of_mem p mem)
    obtain ⟨attrs, path, rfl⟩ := shape p (listed p List.mem_cons_self)
    have own := @descents_le_weights c.isPath [attrs, path]
    rw [Context.levels, List.map_cons, List.sum_cons, inside_of_ne (by decide), weights, weight, ← Context.levels]
    omega

theorem descent_add_levels_lt (t : Tree) : descent c.isPath t + c.levels c.paths < walkDepth c t := by
  have own := @descent_le_weight c.isPath t
  have paths := levels_le shape c.paths fun p mem => decide_eq_true mem
  have pointer : weights c.pointer.toList = (c.pointer.map weight).getD 0 := by
    cases c.pointer with
    | none => rfl
    | some p => exact Nat.add_zero _
  rw [Context.paths, weights_append, pointer] at paths
  rw [walkDepth, Context.paths]
  omega

theorem Stage.isSome_run?_iff {t : Tree} {s : State} :
    ((stage.run? c t).run s).isSome = true ↔ ¬ stage.Circles c t := by
  constructor
  · exact fun ends circles => circles.not_ends _ (Stage.ends_of_isSome ends)
  · intro straight
    refine Stage.ends_of_descent shape (fun p mem reached => ⟨mem, fun returns => ?_⟩) (descent_add_levels_lt shape t) s
    exact straight ⟨p, mem, reached, returns⟩

end Paths

/-- Nothing in a path of the configuration is offered to rewriters. -/
def Context.PlainPaths (c : Context) : Prop :=
  ∀ p ∈ c.paths, ∀ v, Relation.TransGen (fun t u => u ∈ inside t) p v → isOffered v = false

theorem Context.PlainPaths.not_circles (shape : OnlyPaths c.isPath) (plain : c.PlainPaths) (t : Tree) :
    ¬ stage.Circles c t := by
  rintro ⟨p, mem, -, returns⟩
  have isPath : c.isPath p = true := decide_eq_true mem
  have stays {v : Tree} (onward : Relation.TransGen (stage.Onward c) p v) :
      Relation.TransGen (fun t u => u ∈ inside t) p v := by
    induction onward with
    | single step =>
      rw [Stage.Onward, Stage.made_of_isPath shape isPath] at step
      exact .single step
    | tail _ step ih =>
      rw [Stage.Onward, Stage.made_of_passes fun r _ => made?_of_not_offered (plain p mem _ ih) r] at step
      exact .tail ih step
  have closed := plain p mem p (stays returns)
  obtain ⟨_, _, rfl⟩ := shape p isPath
  cases closed

def Stage.tries (stage : Stage) (c : Context) (t : Tree) : Stage :=
  if isOffered t then stage.take (stage.findIdx (fun r => (r.made? c t).isSome) + 1) else []

theorem Stage.record_eq_foldl (stage : Stage) (c : Context) (s : State) (t : Tree) :
    stage.record c s t = (stage.tries c t).foldl (fun s r => ((r.apply c t).run s).2) s := by
  unfold Stage.record Stage.offer Stage.tries
  split
  · induction stage generalizing s with
    | nil => rfl
    | cons r rs ih =>
      have made := r.made?_run c t s
      rw [List.findIdx_cons, List.take_succ_cons, List.foldl_cons]
      rcases run : (r.apply c t).run s with ⟨_ | u, s₁⟩
      · rw [run] at made
        rw [rewriteFirst_passed run, ih, ← made]
        rfl
      · rw [run] at made
        rw [rewriteFirst_applied run, ← made]
        rfl
  · rfl

end Walks

theorem onlyPaths_make (config : Config) (models : ModelSet) (helpers : Table HelperSignature) (readFn : String)
    (scope : Scope) : OnlyPaths (Context.make config models helpers readFn scope).isPath := by
  intro p isPath
  rcases List.mem_append.mp (of_decide_eq_true isPath) with mem | mem
  · obtain ⟨⟨source, e⟩, renamed, rfl⟩ := List.mem_map.mp mem
    obtain ⟨entry, -, made⟩ := List.mem_filterMap.mp renamed
    obtain ⟨e, parsed, ⟨⟩⟩ := Option.map_eq_some_iff.mp made
    exact exprPath_of_parsePathExpr parsed
  · exact exprPath_of_parsePathExpr (Option.mem_toList.mp mem)

/-- A run of any stage ends unless it circles through a path of the configuration, and then no depth is enough; it always ends
if these paths hold no code.  What it records is what the rewriters record that are tried at each place it comes to: those
of the stage in their order, each entry once at most, up to the first that applies. -/
theorem Stage.run_ends_iff_not_circles (config : Config) (models : ModelSet) (helpers : Table HelperSignature) (readFn : String)
    (scope : Scope) (stage : Stage) (block : Tree) (s : State) :
    let c := Context.make config models helpers readFn scope
    (((stage.run? c block).run s).isSome = true ↔ ¬ stage.Circles c block) ∧
    (stage.Circles c block → ∀ depth, (stage.walk c depth block).run s = none) ∧
    (c.PlainPaths → ¬ stage.Circles c block) ∧
    (∀ t r, stage.tries c t <+: stage ∧ (stage.tries c t).count r ≤ stage.count r) ∧
    ∀ block' s', (stage.run? c block).run s = some (block', s') → ∃ visited, Visits stage c [block] visited [] ∧
      s' = visited.foldl (fun s t => (stage.tries c t).foldl (fun s r => ((r.apply c t).run s).2) s) s := by
  intro c
  have shape : OnlyPaths c.isPath := onlyPaths_make config models helpers readFn scope
  refine ⟨Stage.isSome_run?_iff shape, fun circles depth => ?_, fun plain => plain.not_circles shape block, fun t r => ?_,
    fun block' s' run => ?_⟩
  · refine Option.not_isSome_iff_eq_none.mp fun ends => circles.not_ends depth (Stage.ends_of_isSome ends)
  · have first : stage.tries c t <+: stage := by
      unfold Stage.tries
      split
      · exact List.take_prefix _ _
      · exact List.nil_prefix
    exact ⟨first, first.sublist.count_le r⟩
  · obtain ⟨visited, visits, recorded, -⟩ := Stage.visits_of_run? run
    refine ⟨visited, visits, recorded.trans ?_⟩
    congr 1
    funext s t
    exact stage.record_eq_foldl c s t

/-- The tree that a walk comes to when it takes the given ones, by their places, of what it goes on to. -/
def Stage.follow (stage : Stage) (c : Context) : List Nat → Tree → Option Tree
  | [], t => some t
  | i :: is, t => (inside (stage.made c t))[i]?.bind (stage.follow c is)

theorem Stage.reached_of_follow {stage : Stage} {c : Context} {is : List Nat} {t v : Tree} (h : stage.follow c is t = some v) :
    Relation.ReflTransGen (stage.Onward c) t v := by
  induction is generalizing t with
  | nil =>
    cases h
    exact .refl
  | cons i is ih =>
    obtain ⟨u, at_i, further⟩ := Option.bind_eq_some_iff.mp h
    exact .head (List.mem_of_getElem? at_i) (ih further)

theorem Stage.returns_of_follow {stage : Stage} {c : Context} {i : Nat} {is : List Nat} {t v : Tree}
    (h : stage.follow c (i :: is) t = some v) : Relation.TransGen (stage.Onward c) t v := by
  obtain ⟨u, at_i, further⟩ := Option.bind_eq_some_iff.mp h
  exact .head' (List.mem_of_getElem? at_i) (reached_of_follow further)

/-- A call is renamed to a path with a block in its arguments that makes the same call, and no walk of it ends; a rewriter that
a stage lists twice records a key that names no field twice, at one place. -/
theorem Stage.run_without_end :
    let models : ModelSet := ⟨"WidgetModel", [⟨"WidgetModel", [⟨"name", "String", "name"⟩], true⟩]⟩
    let scope : Scope := ⟨"widget_create", .create, "model", some "d"⟩
    let c := Context.make { functionRenames := [("f", "g::<\x7b f(1) \x7d>")] } models [] "widget_read" scope
    let called := blockOf [closedStmt (callOf (var "f") [var "x"])]
    let read := methodCallOf (var "d") "get" [stringExpr "size"]
    let twice : Stage := [.accessorGet, .accessorGet]
    c.config.fault? = none ∧ (∀ depth s, (Stage.walk [.functionRename] c depth called).run s = none) ∧
      (∀ s, (Stage.run? [.functionRename] c called).run s = none) ∧
      (twice.tries c read).count .accessorGet = 2 ∧
      ((twice.run? c (blockOf [closedStmt read])).run {}).map (·.2.unresolved) =
        some ["widget_create: tag \x60size\x60 not found on WidgetModel",
          "widget_create: tag \x60size\x60 not found on WidgetModel"] := by
  intro models scope c called read twice
  have renamed : c.paths[0]?.isSome = true := by decide +kernel
  obtain ⟨p, first⟩ := Option.isSome_iff_exists.mp renamed
  have reached : Stage.follow [.functionRename] c [0, 0, 0, 1] called = c.paths[0]? := by decide +kernel
  have returns : c.paths[0]?.bind (Stage.follow [.functionRename] c [1, 0, 1, 2, 2, 0, 0, 0, 1]) = c.paths[0]? := by
    decide +kernel
  rw [first] at reached returns
  have circles : Stage.Circles [.functionRename] c called :=
    ⟨p, List.mem_of_getElem? first, reached_of_follow reached, returns_of_follow returns⟩
  have never (depth : Nat) (s : State) : (Stage.walk [.functionRename] c depth called).run s = none :=
    Option.not_isSome_iff_eq_none.mp fun ends => circles.not_ends depth (ends_of_isSome ends)
  exact ⟨by decide +kernel, never, never _, by decide +kernel, by decide +kernel⟩

end Retype.Rewrite
