import Retype.Proofs.BareCalls
import Retype.Proofs.Recognition
import Retype.Proofs.Signatures

/-! Calls of methods of the receiver.  The promotion of a call and the report of an existing resource put `self` into
the function they stand in, whether that function is to have a receiver or not; it has one if it is named by the
definition, or if a call of it is promoted. -/

namespace Retype.Rewrite
open Retype.Code

/-- A call of a method of `self`. -/
def callsSelf : Tree → Bool
  | .node (.expr .methodCall) parts => (parts[1]?).any (·.isVar "self")
  | _ => false

theorem outlined_callsSelf : Outlined callsSelf where
  congr {k parts parts'} same := by
    have seen : ∀ ts : Trees, (ts[1]?).any (·.isVar "self") = ((outlines ts)[1]?).any (·.name? == some "self") := by
      intro ts
      rw [outlines_eq_map, List.getElem?_map, Option.any_map]
      simp only [Tree.isVar, ← outline_name?]
    unfold callsSelf
    split
    · rename_i own
      cases own
      exact (seen _).trans (Eq.trans (by rw [same]) (seen _).symm)
    · rename_i other
      split
      · rename_i own
        cases own
        exact (other _ rfl).elim
      · rfl
  paren _ := rfl
  attrs := rfl

theorem Keeps.callsSelf {stage : Stage} {c : Context} {visited ts' : Trees} (kept : Keeps stage c visited ts')
    {t : Tree} (mem : t ∈ visited) (calls : callsSelf (stage.made c t) = true) :
    0 < (nodesAll ts').countP callsSelf := by
  obtain ⟨t', walked, more⟩ := kept t mem
  refine Nat.lt_of_lt_of_le ?_ (more _ outlined_callsSelf.unshielded)
  obtain ⟨parts, made⟩ : ∃ parts, stage.made c t = .node (.expr .methodCall) parts := by
    unfold Rewrite.callsSelf at calls
    split at calls
    · rename_i own
      exact ⟨_, own⟩
    · cases calls
  obtain ⟨walkedParts, _, _, rfl, inner⟩ := walked.of_made made (by decide)
  have own : Rewrite.callsSelf (.node (.expr .methodCall) (regroup (.expr .methodCall) walkedParts)) = true := by
    rw [← calls, made]
    exact outlined_callsSelf.congr ((outlines_regroup _ _).trans inner.outlines_eq)
  rw [nodes_of_ne (by decide), List.countP_cons_of_pos own]
  exact Nat.succ_pos _

theorem visited_of_passes {stage : Stage} {c : Context} {ts visited : Trees} (visits : Visits stage c ts visited [])
    {k : Kind} {parts : Trees} (passes : Passes stage c (.node k parts)) (opened : k ≠ .macroBody)
    (mem : .node k parts ∈ visited) : parts ⊆ visited := by
  have within := visits.closed.2 _ mem
  rwa [Stage.made_of_passes passes, inside_of_ne opened] at within

theorem made_of_inlineFunction {c : Context} {t u : Tree} (made : Rewriter.inlineFunction.made? c t = some u) :
    promote.made c t = u := by
  rw [Stage.made, promote, List.findSome?_cons, made]
  rfl

theorem value_visited {c : Context} {ts visited : Trees} (visits : Visits promote c ts visited []) {t value v : Tree}
    (mem : t ∈ visited) (site : siteValue? t = some value) (answer : promoted? c value = some v) : v ∈ visited := by
  unfold siteValue? at site
  split at site
  · rename_i attrs w pat eq value other semi
    split at site
    · cases site
    · rename_i noElse
      cases site
      have made := (inlineFunction_run {}).mpr
        (.inl ⟨attrs, w, pat, eq, value, other, semi, v, rfl, by simpa using noElse, answer, rfl⟩)
      have within := visits.closed.2 _ mem
      rw [made_of_inlineFunction made, inside_of_ne (by decide)] at within
      have init : .node .init [eq, v, other] ∈ visited := within (by simp)
      exact visited_of_passes visits (passes_of_not_offered rfl) (by decide) init (by simp)
  · rename_i attrs left o right
    cases site
    have made := (inlineFunction_run {}).mpr (.inr ⟨attrs, left, o, value, v, rfl, answer, rfl⟩)
    have within := visits.closed.2 _ mem
    rw [made_of_inlineFunction made, inside_of_ne (by decide)] at within
    exact within (by simp)
  · cases site

theorem callsSelf_of_call {c : Context} {ts visited ts' : Trees} (visits : Visits promote c ts visited [])
    (kept : Keeps promote c visited ts') {t : Tree} (mem : t ∈ visited) (bound : (boundCall? c t).isSome = true) :
    0 < (nodesAll ts').countP callsSelf := by
  obtain ⟨call, bound⟩ := Option.isSome_iff_exists.mp bound
  obtain ⟨value, name, signature, args, site, called, -⟩ := boundCall?_eq_some.mp bound
  have answer : promoted? c value = some
      (retry (methodCallOf (var "self") (Naming.identifier name) (args.map (methodArgument c))) value) := by
    rw [promoted?, called]
    rfl
  have own := value_visited visits mem site answer
  have passes : Passes promote c (methodCallOf (var "self") (Naming.identifier name) (args.map (methodArgument c))) :=
    passes_promote_iff.mpr {}
  have visited : methodCallOf (var "self") (Naming.identifier name) (args.map (methodArgument c)) ∈ visited := by
    unfold retry at own
    split at own
    · exact visited_of_passes visits (passes_promote_iff.mpr {}) (by decide) own (by simp)
    · exact own
  refine kept.callsSelf visited ?_
  rw [Stage.made_of_passes passes]
  rfl

theorem callsSelf_of_ran {c : Context} {t t' : Tree} {s s' : State} {own : List Visit}
    (ran : Ran c standard t s own [] t' s') {v : Visit} (mem : v ∈ own) (promotes : v.call?.isSome = true) :
    0 < (nodes t').countP callsSelf := by
  change Ran c [normalize, promote] t s own [] t' s' at ran
  obtain ⟨call, promotes⟩ := Option.isSome_iff_exists.mp promotes
  obtain ⟨staged, bound⟩ := Visit.call?_eq_some.mp promotes
  cases ran with
  | stage _ _ rest =>
    cases rest with
    | stage visits survived rest =>
      cases rest
      rw [List.append_nil] at mem
      rcases List.mem_append.mp mem with first | second
      · obtain ⟨u, -, rfl⟩ := List.mem_map.mp first
        have none : .inlineFunction ∉ normalize := by decide
        exact absurd staged none
      · obtain ⟨u, visited, rfl⟩ := List.mem_map.mp second
        obtain ⟨all, visits', -, kept⟩ := Stage.visits_of_run? (Stage.survive?_eq_some.mp survived).1
        rw [visits.unique visits'] at visited
        have found := callsSelf_of_call visits' kept visited (Option.isSome_iff_exists.mpr ⟨call, bound⟩)
        rwa [nodesAll, nodesAll, List.append_nil] at found

/-- The rewriter that a visited tree is rewritten by. -/
def Visit.applied? (v : Visit) : Option Rewriter := v.stage.find? fun r => (r.made? v.context v.tree).isSome

/-- The visit puts `self` into the block. -/
def Visit.InsertsSelf (v : Visit) : Prop := v.applied? = some .inlineFunction ∨ v.applied? = some .importGuard

theorem inlineFunction_made?_eq_none {c : Context} {t : Tree} (unbound : boundCall? c t = none) :
    Rewriter.inlineFunction.made? c t = none := by
  refine Option.eq_none_iff_forall_ne_some.mpr fun u made => ?_
  have given : ∃ value v, siteValue? t = some value ∧ promoted? c value = some v := by
    obtain ⟨attrs, w, pat, eq, value, other, semi, v, rfl, noElse, answer, -⟩ |
        ⟨attrs, left, o, right, v, rfl, answer, -⟩ :=
      (inlineFunction_run {}).mp made
    · exact ⟨value, v, by rw [siteValue?, noElse]; rfl, answer⟩
    · exact ⟨right, v, rfl, answer⟩
  obtain ⟨value, v, site, answer⟩ := given
  obtain ⟨⟨name, signature, args⟩, called, -⟩ := Option.map_eq_some_iff.mp answer
  rw [boundCall?, site, Option.bind_some, called] at unbound
  cases unbound

theorem inlineFunction_made?_isSome {c : Context} {t : Tree} {call : BoundCall} (bound : boundCall? c t = some call) :
    (Rewriter.inlineFunction.made? c t).isSome = true := by
  obtain ⟨value, name, signature, args, site, called, -⟩ := boundCall?_eq_some.mp bound
  have answer : ∃ v, promoted? c value = some v := by
    rw [promoted?, called]
    exact ⟨_, rfl⟩
  obtain ⟨v, answer⟩ := answer
  refine Option.isSome_iff_exists.mpr ?_
  unfold siteValue? at site
  split at site
  · split at site
    · cases site
    · rename_i noElse
      cases site
      exact ⟨_, (inlineFunction_run {}).mpr (.inl ⟨_, _, _, _, _, _, _, v, rfl, by simpa using noElse, answer, rfl⟩)⟩
  · cases site
    exact ⟨_, (inlineFunction_run {}).mpr (.inr ⟨_, _, _, _, v, rfl, answer, rfl⟩)⟩
  · cases site

theorem Visit.applied?_eq_inlineFunction {v : Visit} (staged : v.stage ∈ standard) :
    v.applied? = some .inlineFunction ↔ v.call?.isSome = true := by
  constructor
  · intro applied
    have own : .inlineFunction ∈ v.stage := List.mem_of_find?_eq_some applied
    have applies := List.find?_some applied
    rw [Visit.call?, if_pos own]
    rcases unbound : boundCall? v.context v.tree with _ | call
    · rw [inlineFunction_made?_eq_none unbound] at applies
      cases applies
    · rfl
  · intro promotes
    obtain ⟨call, promotes⟩ := Option.isSome_iff_exists.mp promotes
    obtain ⟨own, bound⟩ := Visit.call?_eq_some.mp promotes
    have stages : v.stage = normalize ∨ v.stage = promote := by
      simpa only [standard, standardStages, List.map_cons, List.map_nil, List.mem_cons, List.not_mem_nil, or_false]
        using staged
    rcases stages with same | same
    · have none : .inlineFunction ∉ normalize := by decide
      exact absurd (same ▸ own) none
    · rw [Visit.applied?, same, promote, List.find?_cons, inlineFunction_made?_isSome bound]

end Retype.Rewrite

namespace Retype
open Retype.Code
open Retype.Rewrite (RunsUntil Runs calls callsSelf nodes frame any_of_frames nodup_order runsUntil_of_rewriteResource?)

section Source
variable {config : Config} {entry : RegistryEntry} {lit : StructLit} {crud : Resource.Crud} {r : Resource}
  {fs : List ResourceFn}

theorem Analysed.name_role (analysed : Analysed config entry lit crud r)
    (framed : fs.map frame = r.functions.map frame) :
    ∀ f ∈ fs, f.code.name = f.name ∧ f.role = crud.role f.name := by
  have source : (r.functions.any fun f => f.code.name != f.name || f.role != crud.role f.name) = false := by
    rw [analysed.functions, List.any_map, List.any_eq_false]
    intro f _
    show ¬ (f.name != f.name || crud.role f.name != crud.role f.name) = true
    rw [bne_self_eq_false, bne_self_eq_false]
    exact Bool.false_ne_true
  rw [← any_of_frames (fun _ => rfl) framed, List.any_eq_false] at source
  intro f mem
  simpa only [Bool.or_eq_true, not_or, bne_iff_ne, ne_eq, not_not] using source f mem

end Source

theorem fnNames_items {config : Config} {entry : RegistryEntry} {file : Typed}
    (built : typed? config entry = some file) :
    fnNames file.items = (freeOf file.state.promoted file.resource.functions).map (·.name) := by
  obtain ⟨r, analysed, rewritten, built⟩ := typed?_eq_some built
  obtain ⟨lit, crud, analysed⟩ := analysed_of_ofEntry analysed
  obtain ⟨same, framed⟩ := Rewrite.rewriteResource?_frame rewritten
  obtain ⟨sdk, structs, main, further, methods, assembled⟩ := assembled_of_items built
  have carried : file.resource.imports = r.imports ∧ file.resource.passthrough = r.passthrough := by
    rw [same]
    exact ⟨rfl, rfl⟩
  have imports : ∀ t ∈ file.resource.imports, t.fn? = none := by
    rw [carried.1, analysed.imports]
    intro t mem
    exact fn?_of_isUse (List.mem_filter.mp mem).2
  have passthrough : ∀ t ∈ file.resource.passthrough, t.fn? = none := by
    rw [carried.2, analysed.passthrough]
    intro t mem
    have kept := (List.mem_filter.mp mem).2
    rw [Bool.and_eq_true, Option.isNone_iff_eq_none] at kept
    exact kept.2
  rw [fnNames, assembled.fns imports passthrough (analysed.headers framed), List.map_map]
  refine List.map_congr_left fun f mem => (analysed.name_role framed f ?_).1
  exact List.mem_of_mem_filter (List.mem_of_mem_filter mem)

theorem mem_fnNames_items {config : Config} {entry : RegistryEntry} {file : Typed}
    (built : typed? config entry = some file) (name : String) : name ∈ fnNames file.items ↔
      ∃ f ∈ file.resource.functions, f.role = .helper ∧ name ∉ file.state.promoted ∧ f.name = name := by
  rw [fnNames_items built, freeOf, List.mem_map]
  simp only [List.mem_filter, decide_eq_true_eq, Bool.not_eq_true', ← Bool.not_eq_true, List.contains_iff_mem]
  constructor
  · rintro ⟨f, ⟨⟨mem, helper⟩, unpromoted⟩, rfl⟩
    exact ⟨f, mem, helper, unpromoted, rfl⟩
  · rintro ⟨f, mem, helper, unpromoted, rfl⟩
    exact ⟨f, ⟨⟨mem, helper⟩, unpromoted⟩, rfl⟩

theorem function_of_visit {config : Config} {r : Resource} {visits : List Rewrite.Visit} {fs : List ResourceFn}
    {s : Rewrite.State} (runs : RunsUntil config r visits [] fs s) {v : Rewrite.Visit} (mem : v ∈ visits) :
    ∃ f ∈ fs, f.name = v.context.scope.name ∧ f.role = v.context.scope.role ∧
      (v.applied? = some .inlineFunction → 0 < (nodes f.code.body).countP callsSelf) := by
  obtain ⟨fs, f, own, s, s', -, mem, -, f', mem', same, ran⟩ := Runs.of_mem (nodup_order _) runs mem
  have scope : v.context.scope = Rewrite.scopeOf f := by rw [(ran.of_mem mem).2]; rfl
  have name : f'.name = f.name := congrArg (·.name) same
  have role : f'.role = f.role := congrArg (·.role) same
  rw [scope]
  refine ⟨f', mem', name, role, fun applied => Rewrite.callsSelf_of_ran ran mem ?_⟩
  exact (Rewrite.Visit.applied?_eq_inlineFunction (ran.of_mem mem).1).mp applied

/-- What puts `self` into a function gives it a receiver exactly if the function, unless the definition names it, is
called by a promoted call. -/
theorem inserted_self_has_receiver_iff {config : Config} {entry : RegistryEntry} {file : Typed}
    (built : typed? config entry = some file) : ∃ r visits, Resource.ofEntry config entry = .ok r ∧
      RunsUntil config r visits [] file.resource.functions file.state ∧
      ((∀ v ∈ visits, v.InsertsSelf → v.context.scope.name ∉ fnNames file.items) ↔
        ∀ v ∈ visits, v.InsertsSelf → v.context.scope.role = .helper →
          ∃ call ∈ calls visits, call.name = v.context.scope.name) ∧
      (∃ sdk structs main further methods,
        Assembled ⟨config, file.resource, sdk⟩ file.state.promoted file.items structs main further methods) ∧
      ∀ v ∈ visits, v.applied? = some .inlineFunction →
        ∃ f ∈ file.resource.functions, f.name = v.context.scope.name ∧ 0 < (nodes f.code.body).countP callsSelf := by
  have isFree := mem_fnNames_items built
  obtain ⟨r, analysed, rewritten, built⟩ := typed?_eq_some built
  obtain ⟨visits, runs⟩ := runsUntil_of_rewriteResource? rewritten
  obtain ⟨lit, crud, source⟩ := analysed_of_ofEntry analysed
  obtain ⟨-, framed⟩ := Rewrite.rewriteResource?_frame rewritten
  have named := source.name_role framed
  have promoted : ∀ name, name ∈ file.state.promoted ↔ ∃ call ∈ calls visits, call.name = name := by
    intro name
    rw [runs.progress.2.2.promoted]
    exact or_iff_right List.not_mem_nil
  refine ⟨r, visits, analysed, runs, ⟨fun bound v mem inserts helper => ?_, fun called v mem inserts unbound => ?_⟩,
    assembled_of_items built, fun v mem applied => ?_⟩
  · obtain ⟨f, member, name, role, -⟩ := function_of_visit runs mem
    rw [← promoted]
    by_contra unpromoted
    exact bound v mem inserts ((isFree _).mpr ⟨f, member, role.trans helper, unpromoted, name⟩)
  · obtain ⟨f, member, name, role, -⟩ := function_of_visit runs mem
    obtain ⟨g, member', helper, unpromoted, name'⟩ := (isFree _).mp unbound
    -- functions of one name have one role, that of the name in the definition
    have helper : v.context.scope.role = .helper := by
      rw [← role, (named f member).2, name, ← name', ← (named g member').2, helper]
    exact unpromoted ((promoted _).mpr (called v mem inserts helper))
  · obtain ⟨f, mem, name, -, calls⟩ := function_of_visit runs mem
    exact ⟨f, mem, name, calls applied⟩

/-- `add` answers what `outer` answers, and `outer` binds a call of `inner`. -/
def outerEntry : RegistryEntry :=
  ⟨"tag", "tag", "tag.rs",
    [definitionFn "tag" [("create", var "add"), ("read", var "show"), ("delete", var "drop"), ("schema", arrayOf [])],
      plainFn "add" Tree.absent [tailStmt (callOf (var "outer") [])],
      plainFn "show" Tree.absent [], plainFn "drop" Tree.absent [],
      plainFn "outer" Tree.absent [letMut "x" (callOf (var "inner") [])], plainFn "inner" Tree.absent []]⟩

theorem inserted_self_has_receiver_iff_outer : ∃ file, typed? {} outerEntry = some file ∧
    fnNames file.items = ["outer"] ∧ ∃ r visits, RunsUntil {} r visits [] file.resource.functions file.state ∧
      (¬ ∀ v ∈ visits, v.InsertsSelf → v.context.scope.name ∉ fnNames file.items) ∧
      ¬ ∀ v ∈ visits, v.InsertsSelf → v.context.scope.role = .helper →
        ∃ call ∈ calls visits, call.name = v.context.scope.name := by
  have known : ((typed? {} outerEntry).any fun file => fnNames file.items == ["outer"] &&
      (file.state.promoted == ["inner"] &&
      file.resource.functions.all fun f => f.name == "outer" || (nodes f.code.body).countP callsSelf == 0)) = true := by
    decide +kernel
  obtain ⟨file, built, known⟩ := (Option.any_eq_true _ _).mp known
  simp only [Bool.and_eq_true, beq_iff_eq, List.all_eq_true, Bool.or_eq_true] at known
  obtain ⟨free, promoted, others⟩ := known
  obtain ⟨r, visits, -, runs, iff, -, calling⟩ := inserted_self_has_receiver_iff built
  have called := (runs.progress.2.2.promoted "inner").mp (by rw [promoted]; exact List.mem_cons_self)
  obtain ⟨call, mem, -⟩ := called.resolve_left List.not_mem_nil
  obtain ⟨v, mem, promotes⟩ := Rewrite.mem_calls.mp mem
  have applied : v.applied? = some .inlineFunction := by
    obtain ⟨fs, f, own, s, s', -, mem, -, f', -, -, ran⟩ := Runs.of_mem (nodup_order _) runs mem
    exact (Rewrite.Visit.applied?_eq_inlineFunction (ran.of_mem mem).1).mpr
      (Option.isSome_iff_exists.mpr ⟨call, promotes⟩)
  obtain ⟨f, mem', name, calls⟩ := calling v mem applied
  have outer : v.context.scope.name = "outer" := by
    rw [← name]
    exact (others f mem').resolve_right (Nat.ne_of_gt calls)
  have unbound : ¬ ∀ v ∈ visits, v.InsertsSelf → v.context.scope.name ∉ fnNames file.items := by
    intro bound
    refine bound v mem (.inl applied) ?_
    rw [free, outer]
    exact List.mem_cons_self
  exact ⟨file, built, free, r, visits, runs, unbound, fun back => unbound (iff.mpr back)⟩

end Retype
