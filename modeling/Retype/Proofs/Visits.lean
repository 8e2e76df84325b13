import Mathlib.Data.List.Nodup
import Retype.Proofs.Offers
import Retype.Proofs.Run

/-! The trees that a run visits, in the order it comes to them.  A walk keeps the trees that are left: it offers the
first of them to the rewriters, and what it walks of their answer takes its place.  Where a walk goes does not depend
on the state, so the state after any number of visits is what these have recorded, one after another, and it can be
told of a run that does not end as well. -/

namespace Retype.Rewrite
open Retype.Code

/-- What a walk goes on to in a tree. -/
def inside : Tree → Trees
  | .leaf _ => []
  | .group _ body => body
  | .node .macroBody parts => (vecElements? (.node .macroBody parts)).getD []
  | .node _ parts => parts

theorem inside_of_ne {k : Kind} (opened : k ≠ .macroBody) (parts : Trees) : inside (.node k parts) = parts := by
  unfold inside
  split <;> simp_all

def Stage.record (stage : Stage) (c : Context) (s : State) (t : Tree) : State := ((stage.offer c t).run s).2

/-- The first things of a list are taken one by one, and what each leads to comes before the rest.  The second ones are
those that were taken, the third are left. -/
inductive Worklist {α : Type} (next : α → List α) : List α → List α → List α → Prop
  | none (xs : List α) : Worklist next xs [] xs
  | visit {x : α} {xs visited left : List α} (onward : Worklist next (next x ++ xs) visited left) :
      Worklist next (x :: xs) (x :: visited) left

namespace Worklist
variable {α : Type} {next : α → List α}

theorem append {xs visited xs' visited' left : List α} (first : Worklist next xs visited [])
    (second : Worklist next xs' visited' left) : Worklist next (xs ++ xs') (visited ++ visited') left := by
  generalize ended : ([] : List α) = rest at first
  induction first with
  | none =>
    subst ended
    exact second
  | visit _ ih =>
    have onward := ih ended
    rw [List.append_assoc] at onward
    exact .visit onward

theorem unique {xs visited visited' : List α} (h : Worklist next xs visited [])
    (h' : Worklist next xs visited' []) : visited = visited' := by
  generalize ended : ([] : List α) = left at h
  induction h generalizing visited' with
  | none =>
    subst ended
    cases h'
    rfl
  | visit _ ih =>
    cases h' with
    | visit onward => rw [ih onward ended]

theorem closed {xs visited : List α} (h : Worklist next xs visited []) :
    xs ⊆ visited ∧ ∀ x ∈ visited, next x ⊆ visited := by
  generalize ended : ([] : List α) = left at h
  induction h with
  | none =>
    subst ended
    exact ⟨List.Subset.refl _, fun x mem => (List.not_mem_nil mem).elim⟩
  | @visit x xs visited left _ ih =>
    obtain ⟨given, further⟩ := ih ended
    rw [List.append_subset] at given
    refine ⟨List.cons_subset_cons x given.2, fun y mem => ?_⟩
    refine List.subset_cons_of_subset x ?_
    rcases List.mem_cons.mp mem with rfl | mem
    · exact given.1
    · exact further y mem

end Worklist

/-- A walk over the first trees visits the second ones, and the third are left. -/
abbrev Visits (stage : Stage) (c : Context) : Trees → Trees → Trees → Prop :=
  Worklist fun t => inside (stage.made c t)

section Walks
variable {stage : Stage} {c : Context}

theorem Stage.offer_eq {t u : Tree} {s s' : State} (offered : (stage.offer c t).run s = (u, s')) :
    u = stage.made c t ∧ s' = stage.record c s t := by
  refine ⟨?_, ?_⟩
  · rw [← stage.offer_run c t s, offered]
  · rw [Stage.record, offered]

/-- A walk over trees that has visited all there is, and what it has recorded. -/
def Covers (stage : Stage) (c : Context) (ts : Trees) (s : State) (visited : Trees) (s' : State) : Prop :=
  Visits stage c ts visited [] ∧ s' = visited.foldl (stage.record c) s

theorem Covers.nil (s : State) : Covers stage c [] s [] s := ⟨.none _, rfl⟩

theorem Covers.cons {t u : Tree} {us ts inner after : Trees} {s s₁ s₂ s₃ : State}
    (offered : (stage.offer c t).run s = (u, s₁)) (parts : inside u = us) (within : Covers stage c us s₁ inner s₂)
    (rest : Covers stage c ts s₂ after s₃) : Covers stage c (t :: ts) s (t :: (inner ++ after)) s₃ := by
  obtain ⟨rfl, rfl⟩ := Stage.offer_eq offered
  subst parts
  refine ⟨.visit (within.1.append rest.1), ?_⟩
  rw [List.foldl_cons, List.foldl_append, ← within.2, rest.2]

/-- What a walk makes of each tree that it visits is among what it leaves, parentheses around struct literals aside. -/
def Keeps (stage : Stage) (c : Context) (visited ts' : Trees) : Prop :=
  ∀ t ∈ visited, ∃ t', Walked stage c t t' ∧
    ∀ p, Unshielded p → (nodes t').countP p ≤ (nodesAll ts').countP p

theorem Keeps.nil (ts' : Trees) : Keeps stage c [] ts' := fun _ mem => (List.not_mem_nil mem).elim

theorem Keeps.cons {t t' : Tree} {inner after us' ts' : Trees} (own : Walked stage c t t')
    (within : Keeps stage c inner us') (held : ∀ p, Unshielded p → (nodesAll us').countP p ≤ (nodes t').countP p)
    (rest : Keeps stage c after ts') : Keeps stage c (t :: (inner ++ after)) (t' :: ts') := by
  have first : ∀ p, (nodes t').countP p ≤ (nodesAll (t' :: ts')).countP p := fun p => by
    rw [nodesAll, List.countP_append]
    exact Nat.le_add_right _ _
  intro u mem
  rcases List.mem_cons.mp mem with rfl | mem
  · exact ⟨t', own, fun p _ => first p⟩
  · rcases List.mem_append.mp mem with mem | mem
    · obtain ⟨u', walked, kept⟩ := within u mem
      exact ⟨u', walked, fun p unshielded =>
        Nat.le_trans (kept p unshielded) (Nat.le_trans (held p unshielded) (first p))⟩
    · obtain ⟨u', walked, kept⟩ := rest u mem
      refine ⟨u', walked, fun p unshielded => Nat.le_trans (kept p unshielded) ?_⟩
      rw [nodesAll, List.countP_append]
      exact Nat.le_add_left _ _

theorem WalksAll.covers {ts ts' : Trees} {s s' : State} (h : WalksAll stage c ts s ts' s') :
    ∃ visited, Covers stage c ts s visited s' ∧ Keeps stage c visited ts' := by
  induction h with
  | nil s => exact ⟨[], .nil s, .nil _⟩
  | leaf offered _ ih =>
    obtain ⟨after, rest, kept⟩ := ih
    exact ⟨_, .cons offered rfl (.nil _) rest,
      .cons ⟨_, _, .leaf offered (.nil _)⟩ (.nil []) (fun _ _ => Nat.zero_le _) kept⟩
  | group offered walked _ ihInner ih =>
    obtain ⟨inner, within, keptInner⟩ := ihInner
    obtain ⟨after, rest, kept⟩ := ih
    exact ⟨_, .cons offered rfl within rest,
      .cons ⟨_, _, .group offered walked (.nil _)⟩ keptInner (fun _ _ => Nat.le_refl _) kept⟩
  | elements offered found walked _ ihInner ih =>
    obtain ⟨inner, within, keptInner⟩ := ihInner
    obtain ⟨after, rest, kept⟩ := ih
    exact ⟨_, .cons offered (by rw [inside, found, Option.getD_some]) within rest,
      .cons ⟨_, _, .elements offered found walked (.nil _)⟩ keptInner (fun _ _ => Nat.le_refl _) kept⟩
  | closed offered noList _ ih =>
    obtain ⟨after, rest, kept⟩ := ih
    exact ⟨_, .cons offered (by rw [inside, noList, Option.getD_none]) (.nil _) rest,
      .cons ⟨_, _, .closed offered noList (.nil _)⟩ (.nil []) (fun _ _ => Nat.zero_le _) kept⟩
  | node offered opened walked _ ihInner ih =>
    obtain ⟨inner, within, keptInner⟩ := ihInner
    obtain ⟨after, rest, kept⟩ := ih
    refine ⟨_, .cons offered (inside_of_ne opened _) within rest,
      .cons ⟨_, _, .node offered opened walked (.nil _)⟩ keptInner (fun p unshielded => ?_) kept⟩
    rw [nodes_of_ne opened, ← unshielded.countP_regroup]
    exact (List.sublist_cons_self _ _).countP_le

theorem Stage.visits_of_run? {t t' : Tree} {s s' : State} (h : (stage.run? c t).run s = some (t', s')) :
    ∃ visited, Visits stage c [t] visited [] ∧ s' = visited.foldl (stage.record c) s ∧ Keeps stage c visited [t'] := by
  obtain ⟨visited, ⟨visits, recorded⟩, kept⟩ := (walksAll_of_run? h).covers
  exact ⟨visited, visits, recorded, kept⟩

end Walks

/-- A tree that a stage is offered. -/
structure Visit where
  stage : Stage
  context : Context
  tree : Tree

def Visit.record (s : State) (v : Visit) : State := v.stage.record v.context s v.tree

theorem foldl_record (stage : Stage) (c : Context) (visited : Trees) (s : State) :
    (visited.map (Visit.mk stage c)).foldl Visit.record s = visited.foldl (stage.record c) s := by
  rw [List.foldl_map]
  rfl

/-- From a block and a state, the first stages are done, by way of visits; stages, the block and the state are left. -/
inductive Ran (c : Context) : List Stage → Tree → State → List Visit → List Stage → Tree → State → Prop
  | none (stages : List Stage) (t : Tree) (s : State) : Ran c stages t s [] stages t s
  | stage {stage : Stage} {stages left : List Stage} {t t₁ t' : Tree} {visited : Trees} {s s' : State}
      {visits : List Visit} (visited_all : Visits stage c [t] visited [])
      (survived : (stage.survive? c t).run s = some (t₁, visited.foldl (stage.record c) s))
      (rest : Ran c stages t₁ (visited.foldl (stage.record c) s) visits left t' s') :
      Ran c (stage :: stages) t s (visited.map (Visit.mk stage c) ++ visits) left t' s'

theorem ran_of_runStages? {c : Context} {stages : List Stage} {t t' : Tree} {s s' : State}
    (h : (runStages? c stages t).run s = some (t', s')) : ∃ visits, Ran c stages t s visits [] t' s' := by
  induction stages generalizing t s with
  | nil =>
    cases h
    exact ⟨[], .none _ _ _⟩
  | cons stage stages ih =>
    obtain ⟨⟨t₁, s₁⟩, survived, h⟩ := Option.bind_eq_some_iff.mp h
    obtain ⟨visited, visited_all, rfl, -⟩ := Stage.visits_of_run? (Stage.survive?_eq_some.mp survived).1
    obtain ⟨visits, rest⟩ := ih h
    exact ⟨_, .stage visited_all survived rest⟩

theorem Ran.record_eq {c : Context} {stages left : List Stage} {t t' : Tree} {s s' : State} {visits : List Visit}
    (h : Ran c stages t s visits left t' s') : s' = visits.foldl Visit.record s := by
  induction h with
  | none => rfl
  | stage _ _ _ ih => rw [List.foldl_append, foldl_record, ih]

theorem Ran.of_mem {c : Context} {stages left : List Stage} {t t' : Tree} {s s' : State} {visits : List Visit}
    (h : Ran c stages t s visits left t' s') {v : Visit} (mem : v ∈ visits) : v.stage ∈ stages ∧ v.context = c := by
  induction h with
  | none => cases mem
  | stage _ _ _ ih =>
    rcases List.mem_append.mp mem with mem | mem
    · obtain ⟨t, -, rfl⟩ := List.mem_map.mp mem
      exact ⟨List.mem_cons_self, rfl⟩
    · exact ⟨List.mem_cons_of_mem _ (ih mem).1, (ih mem).2⟩

theorem Ran.left_subset {c : Context} {stages left : List Stage} {t t' : Tree} {s s' : State} {visits : List Visit}
    (h : Ran c stages t s visits left t' s') : left ⊆ stages := by
  induction h with
  | none => exact List.Subset.refl _
  | stage _ _ _ ih => exact List.subset_cons_of_subset _ ih

/-- What the rewriters may consult while a function is rewritten. -/
def contextFor (config : Config) (r : Resource) (functions : List ResourceFn) (f : ResourceFn) : Context :=
  Context.make config r.models (helperTable functions) r.read (scopeOf f)

def withBody (f : ResourceFn) (body : Tree) : ResourceFn := { f with code := { f.code with body := body } }

theorem frame_rewritten {fs : List ResourceFn} {i : Nat} {f : ResourceFn} (found : fs[i]? = some f) (body : Tree)
    (s : State) : (applyPending s (fs.set i (withBody f body))).1.map frame = fs.map frame :=
  (frame_applyPending s _).trans (map_set_of_eq found rfl)

/-- The functions at the first positions are rewritten, by way of visits; positions are left, of the functions as they
are then, with the state. -/
inductive Runs (config : Config) (r : Resource) :
    List Nat → List ResourceFn → State → List Visit → List Nat → List ResourceFn → State → Prop
  | none (is : List Nat) (fs : List ResourceFn) (s : State) : Runs config r is fs s [] is fs s
  | function {i : Nat} {is left : List Nat} {fs fs' : List ResourceFn} {f : ResourceFn} {body : Tree} {s s₁ s' : State}
      {visits visits' : List Visit} (found : fs[i]? = some f)
      (ran : Ran (contextFor config r fs f) standard f.code.body s visits [] body s₁)
      (rest : Runs config r is (applyPending s₁ (fs.set i (withBody f body))).1
        { s₁ with pending := [] } visits' left fs' s') :
      Runs config r (i :: is) fs s (visits ++ visits') left fs' s'

theorem length_applyPending (s : State) (fs : List ResourceFn) : (applyPending s fs).1.length = fs.length := by
  simpa only [List.length_map] using congrArg List.length (frame_applyPending s fs)

section Functions
variable {config : Config} {r : Resource} {is left : List Nat} {fs fs' : List ResourceFn} {s s' : State}
  {visits : List Visit}

theorem Runs.frames (h : Runs config r is fs s visits left fs' s') : fs'.map frame = fs.map frame := by
  induction h with
  | none => rfl
  | function found _ _ ih => exact ih.trans (frame_rewritten found _ _)

theorem Runs.kept {p : ResourceFn → Prop} (kept : KeptByEdits p)
    (h : Runs config r is fs s visits left fs' s') {i : Nat}
    (other : i ∉ is) (done : ∀ f, fs[i]? = some f → p f) : ∀ f, fs'[i]? = some f → p f := by
  induction h with
  | none => exact done
  | function found _ _ ih =>
    obtain ⟨here, later⟩ := not_or.mp (List.mem_cons.not.mp other)
    refine ih later (kept.applyPending fun f at_i => done f ?_)
    rwa [List.getElem?_set_ne (Ne.symm here)] at at_i

theorem Runs.of_mem (distinct : is.Nodup) (h : Runs config r is fs s visits left fs' s') {v : Visit}
    (mem : v ∈ visits) :
    ∃ fs₁ f own s₁ s₂, fs₁.map frame = fs.map frame ∧ v ∈ own ∧ f ∈ fs₁ ∧ ∃ f' ∈ fs', frame f' = frame f ∧
      Ran (contextFor config r fs₁ f) standard f.code.body s₁ own [] f'.code.body s₂ := by
  induction h with
  | none => cases mem
  | @function i is left fs fs' f body s s₁ s' visits visits' found ran rest ih =>
    obtain ⟨here, distinct⟩ := List.nodup_cons.mp distinct
    rcases List.mem_append.mp mem with mem | mem
    · have inside : i < fs.length := (List.getElem?_eq_some_iff.mp found).1
      have kept : KeptByEdits fun f' => f'.code.body = body ∧ frame f' = frame f := fun _ _ has => has
      have after := Runs.kept kept rest here (kept.applyPending fun f' at_i => by
        rw [List.getElem?_set_self inside] at at_i
        cases at_i
        exact ⟨rfl, rfl⟩)
      have length : fs'.length = fs.length := by
        have framed := rest.frames.trans (frame_rewritten found body s₁)
        simpa only [List.length_map] using congrArg List.length framed
      obtain ⟨f', found'⟩ : ∃ f', fs'[i]? = some f' := ⟨_, List.getElem?_eq_getElem (length ▸ inside)⟩
      obtain ⟨rfl, same⟩ := after f' found'
      exact ⟨fs, f, visits, s, s₁, rfl, mem, List.mem_of_getElem? found, f', List.mem_of_getElem? found', same, ran⟩
    · obtain ⟨fs₁, f, own, s₁, s₂, framed, more⟩ := ih distinct mem
      exact ⟨fs₁, f, own, s₁, s₂, framed.trans (frame_rewritten found body _), more⟩

end Functions

theorem runs_of_rewriteAll? {config : Config} {r : Resource} {is : List Nat} {fs fs' : List ResourceFn} {s s' : State}
    (inRange : ∀ i ∈ is, i < fs.length) (h : rewriteAll? config r is fs s = some (fs', s')) :
    ∃ visits, Runs config r is fs s visits [] fs' s' := by
  induction is generalizing fs s with
  | nil =>
    cases h
    exact ⟨[], .none _ _ _⟩
  | cons i is ih =>
    obtain ⟨⟨fs₁, s₁⟩, first, h⟩ := Option.bind_eq_some_iff.mp h
    obtain ⟨f, found⟩ : ∃ f, fs[i]? = some f := ⟨_, List.getElem?_eq_getElem (inRange i List.mem_cons_self)⟩
    rw [rewriteAt?, found] at first
    obtain ⟨⟨f', s₂⟩, rewritten, edited⟩ := Option.map_eq_some_iff.mp first
    obtain ⟨body, run, rfl⟩ := rewriteFn?_eq_some rewritten
    obtain ⟨visits, ran⟩ := ran_of_runStages? run
    cases edited
    have stillInRange : ∀ j ∈ is,
        j < (applyPending s₂ (fs.set i (withBody f body))).1.length := by
      intro j mem
      rw [length_applyPending, List.length_set]
      exact inRange j (List.mem_cons_of_mem _ mem)
    obtain ⟨visits', rest⟩ := ih stillInRange h
    exact ⟨visits ++ visits', .function found ran rest⟩

theorem lt_of_mem_order {fs : List ResourceFn} {i : Nat} (mem : i ∈ order fs) : i < fs.length := by
  obtain ⟨role, -, mem⟩ := List.mem_flatMap.mp mem
  obtain ⟨⟨f, j⟩, kept, rfl⟩ := List.mem_map.mp mem
  exact List.snd_lt_of_mem_zipIdx (List.mem_filter.mp kept).1

theorem nodup_order (fs : List ResourceFn) : (order fs).Nodup := by
  rw [order, List.nodup_flatMap]
  refine ⟨fun role _ => ?_, ?_⟩
  · refine (List.filter_sublist.map _).nodup ?_
    show (fs.zipIdx.map Prod.snd).Nodup
    rw [List.zipIdx_map_snd]
    exact List.nodup_range'
  · have distinct : Role.all.Nodup := by decide
    refine distinct.imp fun {role role'} other i mem mem' => other ?_
    obtain ⟨⟨f, j⟩, kept, rfl⟩ := List.mem_map.mp mem
    obtain ⟨⟨f', j'⟩, kept', same⟩ := List.mem_map.mp mem'
    obtain ⟨listed, own⟩ := List.mem_filter.mp kept
    obtain ⟨listed', own'⟩ := List.mem_filter.mp kept'
    obtain rfl : j' = j := same
    rw [List.mk_mem_zipIdx_iff_getElem?] at listed listed'
    rw [listed, Option.some.injEq] at listed'
    rw [← of_decide_eq_true own, ← of_decide_eq_true own', listed']

/-- The run over a resource from its start, until positions are left. -/
def RunsUntil (config : Config) (r : Resource) (visits : List Visit) (left : List Nat) (fs : List ResourceFn)
    (s : State) : Prop :=
  Runs config r (order r.functions) r.functions {} visits left fs s

theorem runsUntil_of_rewriteResource? {config : Config} {r r' : Resource} {s : State}
    (h : rewriteResource? config r = some (r', s)) : ∃ visits, RunsUntil config r visits [] r'.functions s := by
  obtain ⟨⟨fs, s'⟩, run, same⟩ := Option.map_eq_some_iff.mp h
  cases same
  exact runs_of_rewriteAll? (fun i mem => lt_of_mem_order mem) run

/-- The points of the run over a resource, with the visits before them: between two functions, and on the way through
the block of one.  A run that does not end has such points as well. -/
inductive Reaches (config : Config) (r : Resource) : List Visit → State → Prop
  | between {visits : List Visit} {left : List Nat} {fs : List ResourceFn} {s : State}
      (runs : RunsUntil config r visits left fs s) : Reaches config r visits s
  | within {visits done : List Visit} {i : Nat} {left : List Nat} {fs : List ResourceFn} {f : ResourceFn}
      {stage : Stage} {stages : List Stage} {block : Tree} {visited ahead : Trees} {s s₁ : State}
      (runs : RunsUntil config r visits (i :: left) fs s) (found : fs[i]? = some f)
      (ran : Ran (contextFor config r fs f) standard f.code.body s done (stage :: stages) block s₁)
      (visiting : Visits stage (contextFor config r fs f) [block] visited ahead) :
      Reaches config r (visits ++ done ++ visited.map (Visit.mk stage (contextFor config r fs f)))
        (visited.foldl (stage.record (contextFor config r fs f)) s₁)

end Retype.Rewrite
