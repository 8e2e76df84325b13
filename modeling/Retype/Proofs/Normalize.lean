import Retype.Code.Declaration
import Retype.Proofs.Access

/-! The first stage accounts for the state.  Whatever it meets, a node keeps its outline, so what is told of a node
when it is offered to the rewriters still holds when the walk is done with its parts. -/

namespace Retype.Rewrite
open Retype.Code

/-- The run has recorded `count` keys, none of which names a field. -/
def Recorded (c : Context) (s s' : State) (count : Nat) : Prop :=
  ∃ keys : Trees, keys.length = count ∧ s'.unresolved = s.unresolved ++ keys.map (keyMessage c) ∧
    ∀ key ∈ keys, keySteps c key = none

theorem Recorded.refl (c : Context) (s : State) : Recorded c s s 0 :=
  ⟨[], rfl, (List.append_nil _).symm, fun _ h => by cases h⟩

theorem Recorded.trans {c : Context} {s s₁ s₂ : State} {m n : Nat} (first : Recorded c s s₁ m)
    (second : Recorded c s₁ s₂ n) : Recorded c s s₂ (m + n) := by
  obtain ⟨keys, rfl, added, bad⟩ := first
  obtain ⟨keys', rfl, added', bad'⟩ := second
  refine ⟨keys ++ keys', List.length_append, ?_, ?_⟩
  · rw [added', added, List.map_append, List.append_assoc]
  · intro key h
    exact (List.mem_append.mp h).elim (bad key) (bad' key)

theorem Recorded.of_key {c : Context} {key : Tree} (h : keySteps c key = none) (s : State) :
    Recorded c s (s.addUnresolved (keyMessage c key)) 1 :=
  ⟨[key], rfl, rfl, fun key' mem => by rwa [List.mem_singleton.mp mem]⟩

/-- A node that nothing reads, writes or reaches the state by. -/
structure Settled (c : Context) (t : Tree) : Prop where
  noStateCall : isStateCall c t = false
  noRead : isRead c t = false
  noWrite : isWrite c t = false

theorem Settled.of_accessorCall? {c : Context} {t : Tree} (noCall : accessorCall? c t = none)
    (noStmt : setStatement c t = none) : Settled c t where
  noStateCall := by rw [isStateCall, noCall]; rfl
  noRead := by rw [isRead, noCall]; rfl
  noWrite := by rw [isWrite, noStmt]; rfl

/-- A rewriter that leaves a node alone and records nothing. -/
def Skips (c : Context) (t : Tree) (r : Rewriter) : Prop := ∀ s, (r.apply c t).run s = (none, s)

/-- A rewriter that settles a node, if it applies to it, and records nothing. -/
def Quiet (c : Context) (t : Tree) (r : Rewriter) : Prop :=
  ∃ t?, (∀ s, (r.apply c t).run s = (t?, s)) ∧ ∀ t', t? = some t' → Settled c t'

theorem Skips.quiet {c : Context} {t : Tree} {r : Rewriter} (h : Skips c t r) : Quiet c t r :=
  ⟨none, h, fun _ h => by cases h⟩

theorem rewriteFirst_applied {c : Context} {r : Rewriter} {rs : Stage} {t t' : Tree} {s s' : State}
    (h : (r.apply c t).run s = (some t', s')) : (Stage.rewriteFirst c (r :: rs) t).run s = (t', s') := by
  rw [Stage.rewriteFirst, StateT.run_bind, h]
  rfl

theorem rewriteFirst_passed {c : Context} {r : Rewriter} {rs : Stage} {t : Tree} {s s' : State}
    (h : (r.apply c t).run s = (none, s')) :
    (Stage.rewriteFirst c (r :: rs) t).run s = (Stage.rewriteFirst c rs t).run s' := by
  rw [Stage.rewriteFirst, StateT.run_bind, h]
  rfl

theorem rewriteFirst_skips {c : Context} {t : Tree} {stage : Stage} (h : ∀ r ∈ stage, Skips c t r) (s : State) :
    (stage.rewriteFirst c t).run s = (t, s) := by
  induction stage with
  | nil => rfl
  | cons r rs ih =>
    rw [rewriteFirst_passed (h r List.mem_cons_self s)]
    exact ih fun r mem => h r (List.mem_cons_of_mem _ mem)

theorem rewriteFirst_quiet {c : Context} {t : Tree} {stage : Stage} (h : ∀ r ∈ stage, Quiet c t r) :
    (∀ s, (stage.rewriteFirst c t).run s = (t, s)) ∧ (∀ r ∈ stage, Skips c t r) ∨
      ∃ t', (∀ s, (stage.rewriteFirst c t).run s = (t', s)) ∧ Settled c t' := by
  induction stage with
  | nil => exact .inl ⟨fun _ => rfl, fun _ h => by cases h⟩
  | cons r rs ih =>
    obtain ⟨t?, run, settles⟩ := h r List.mem_cons_self
    cases t? with
    | some t' => exact .inr ⟨t', fun s => rewriteFirst_applied (run s), settles t' rfl⟩
    | none =>
      rcases ih fun r mem => h r (List.mem_cons_of_mem _ mem) with ⟨stays, skips⟩ | ⟨t', gives, settles⟩
      · refine .inl ⟨fun s => (rewriteFirst_passed (run s)).trans (stays s), ?_⟩
        intro r' mem
        rcases List.mem_cons.mp mem with rfl | mem
        · exact run
        · exact skips r' mem
      · exact .inr ⟨t', fun s => (rewriteFirst_passed (run s)).trans (gives s), settles⟩

theorem quiet_metaAccess (c : Context) (t : Tree) : Quiet c t .metaAccess := by
  simp only [Quiet, Rewriter.apply]
  unfold metaAccess
  split
  · refine ⟨_, fun s => rfl, ?_⟩
    split
    · rintro t' ⟨⟩
      exact .of_accessorCall? rfl rfl
    · rintro t' ⟨⟩
  · exact ⟨none, fun s => rfl, fun _ h => by cases h⟩

theorem quiet_controlFlow (c : Context) (t : Tree) : Quiet c t .controlFlow := by
  simp only [Quiet, Rewriter.apply]
  unfold controlFlow
  split
  · dsimp only
    split
    · refine ⟨_, fun s => rfl, ?_⟩
      rintro t' ⟨⟩
      exact .of_accessorCall? rfl rfl
    · refine ⟨_, fun s => rfl, ?_⟩
      split
      · rintro t' ⟨⟩
        exact .of_accessorCall? rfl rfl
      · rintro t' ⟨⟩
  · exact ⟨none, fun s => rfl, fun _ h => by cases h⟩

theorem accessorCall?_of_not {c : Context} {attrs receiver : Tree} {rest : Trees}
    (h : c.isAccessor receiver = false) : accessorCall? c (.node (.expr .methodCall) (attrs :: receiver :: rest)) = none := by
  unfold accessorCall? Tree.methodCall?
  split
  · rename_i same
    cases same
    simp only [Option.bind_eq_bind, Option.bind_some, h, Bool.false_eq_true, if_false]
  · rfl

theorem isAccessor_resourceData (c : Context) : c.isAccessor (resourceData c) = false := by
  unfold Context.isAccessor
  split <;> rfl

theorem Settled.resourceData {c : Context} {attrs dot : Tree} {rest : Trees} :
    Settled c (.node (.expr .methodCall) (attrs :: Rewrite.resourceData c :: dot :: rest)) :=
  .of_accessorCall? (accessorCall?_of_not (isAccessor_resourceData c)) rfl

theorem quiet_importGuard (c : Context) (t : Tree) : Quiet c t .importGuard := by
  simp only [Quiet, Rewriter.apply]
  unfold importGuard
  split
  · split
    · rename_i call
      refine ⟨_, fun s => rfl, ?_⟩
      split
      · rintro t' ⟨⟩
        have noCall : ∀ p : String × Trees → Bool, (∀ args, p ("resource_requires_import", args) = false) →
            (accessorCall? c (methodCallOf (varExpr c.config.metaVar) "resource_requires_import"
              [methodCallOf (var "self") "resource_type" [], stripIdCall ‹_›])).any p = false := by
          intro p h
          simp only [accessorCall?, methodCallOf, word, parenGroup, Tree.methodCall?, Option.bind_eq_bind,
            Option.bind_some]
          split
          · exact h _
          · rfl
        exact ⟨noCall _ fun _ => rfl, noCall _ fun _ => rfl, rfl⟩
      · rintro t' ⟨⟩
    · exact ⟨none, fun s => rfl, fun _ h => by cases h⟩
  · exact ⟨none, fun s => rfl, fun _ h => by cases h⟩

theorem quiet_functionRename (c : Context) (t : Tree) : Quiet c t .functionRename := by
  simp only [Quiet, Rewriter.apply]
  unfold functionRename
  split
  · refine ⟨_, fun s => rfl, ?_⟩
    split
    · rintro t' ⟨⟩
      exact .resourceData
    · rintro t' ⟨⟩
  · split
    · refine ⟨_, fun s => rfl, ?_⟩
      intro t' h
      obtain ⟨target, -, rfl⟩ := Option.map_eq_some_iff.mp h
      exact .of_accessorCall? rfl rfl
    · exact ⟨none, fun s => rfl, fun _ h => by cases h⟩
  · exact ⟨none, fun s => rfl, fun _ h => by cases h⟩

theorem quiet_accessorGet {c : Context} {t : Tree} (noRead : isRead c t = false) : Quiet c t .accessorGet := by
  simp only [Quiet, Rewriter.apply]
  unfold accessorGet
  split
  · split
    · exact ⟨none, fun s => rfl, fun _ h => by cases h⟩
    · rename_i m _ d args accessor
      split
      · refine ⟨_, fun s => rfl, ?_⟩
        rintro t' ⟨⟩
        exact .resourceData
      · split
        · rename_i isGet
          split
          · rename_i one
            simp only [Bool.not_eq_true', Bool.not_eq_false] at accessor
            simp [isRead, accessorCall?, Tree.methodCall?, one, beq_iff_eq.mp isGet, accessor] at noRead
          · exact ⟨none, fun s => rfl, fun _ h => by cases h⟩
        · exact ⟨none, fun s => rfl, fun _ h => by cases h⟩
  · exact ⟨none, fun s => rfl, fun _ h => by cases h⟩

theorem skips_accessorSet {c : Context} {t : Tree} (noWrite : isWrite c t = false) : Skips c t .accessorSet := by
  intro s
  simp only [Rewriter.apply]
  unfold accessorSet
  split
  · rename_i two
    rw [isWrite, two] at noWrite
    cases noWrite
  · rfl

theorem noStateCall_of_skips {c : Context} {t : Tree} (noGet : Skips c t .accessorGet)
    (noRename : Skips c t .functionRename) : isStateCall c t = false := by
  refine Bool.eq_false_iff.mpr fun stateCall => ?_
  obtain ⟨⟨m, args⟩, found, belongs⟩ := (Option.any_eq_true _ _).mp stateCall
  obtain ⟨attrs, receiver, dot, turbofish, d, body, rfl, accessor, -⟩ := accessorCall?_eq_some.mp found
  have passed := noGet {}
  have passed' := noRename {}
  simp only [Rewriter.apply, accessorGet, functionRename, word, accessor] at passed passed'
  rcases Bool.or_eq_true_iff.mp belongs with listed | isNew
  · simp only [listed, Bool.not_true, Bool.false_eq_true, if_false, if_true] at passed
    cases passed
  · simp only [isNew, Bool.and_true, if_true] at passed'
    cases passed'

theorem rewriteFirst_normalize_quiet {c : Context} {t : Tree} (noRead : isRead c t = false)
    (noWrite : isWrite c t = false) : (∀ s, (normalize.rewriteFirst c t).run s = (t, s)) ∧ isStateCall c t = false ∨
      ∃ t', (∀ s, (normalize.rewriteFirst c t).run s = (t', s)) ∧ Settled c t' := by
  have quiet : ∀ r ∈ normalize, Quiet c t r := by
    intro r mem
    simp only [normalize, List.mem_cons, List.not_mem_nil, or_false] at mem
    rcases mem with rfl | rfl | rfl | rfl | rfl | rfl
    · exact quiet_metaAccess c t
    · exact quiet_accessorGet noRead
    · exact (skips_accessorSet noWrite).quiet
    · exact quiet_importGuard c t
    · exact quiet_controlFlow c t
    · exact quiet_functionRename c t
  rcases rewriteFirst_quiet quiet with ⟨stays, skips⟩ | settled
  · refine .inl ⟨stays, ?_⟩
    exact noStateCall_of_skips (skips .accessorGet (by decide)) (skips .functionRename (by decide))
  · exact .inr settled

theorem Settled.modelAccess {c : Context} {key : Tree} {steps : List PathStep} (named : keySteps c key = some steps) :
    Settled c (modelAccess c.scope.varModel steps) := by
  obtain rfl | ⟨init, last, rfl⟩ := List.eq_nil_or_concat steps
  · exact (keySteps_ne_nil named rfl).elim
  · rw [List.concat_eq_append, modelAccess_concat]
    cases last with
    | field f => exact .of_accessorCall? rfl rfl
    | index i => exact .of_accessorCall? rfl rfl

theorem rewriteFirst_normalize_read {c : Context} {t : Tree} (h : isRead c t = true) (s : State) :
    (∃ t', (normalize.rewriteFirst c t).run s = (t', s) ∧ Settled c t') ∨
      ∃ key, keySteps c key = none ∧ (normalize.rewriteFirst c t).run s = (t, s.addUnresolved (keyMessage c key)) := by
  obtain ⟨⟨m, args⟩, found, isGet⟩ := (Option.any_eq_true _ _).mp h
  simp only [Bool.and_eq_true, beq_iff_eq] at isGet
  obtain ⟨rfl, one⟩ := isGet
  obtain ⟨key, rfl⟩ := List.length_eq_one_iff.mp one
  obtain ⟨attrs, receiver, dot, turbofish, d, body, rfl, accessor, members⟩ := accessorCall?_eq_some.mp found
  have noMeta : Skips c (.node (.expr .methodCall) [attrs, receiver, dot, word "get", turbofish, .group d body])
      .metaAccess := fun s => rfl
  have get : ((Rewriter.apply .accessorGet c (.node (.expr .methodCall)
      [attrs, receiver, dot, word "get", turbofish, .group d body])).run s) =
        (keySteps c key).elim (none, s.addUnresolved (keyMessage c key))
          fun steps => (some (modelAccess c.scope.varModel steps), s) := by
    simp only [Rewriter.apply, accessorGet, word, accessor, members, Bool.not_true, Bool.false_eq_true, if_false,
      show stateMethods.contains "get" = false from rfl, beq_self_eq_true, if_true, StateT.run_bind, resolveKey_run]
    cases keySteps c key <;> rfl
  rw [normalize, rewriteFirst_passed (noMeta s)]
  rcases named : keySteps c key with _ | steps
  · rw [named, Option.elim_none] at get
    refine .inr ⟨key, named, ?_⟩
    rw [rewriteFirst_passed get]
    refine rewriteFirst_skips ?_ _
    intro r mem
    simp only [List.mem_cons, List.not_mem_nil, or_false] at mem
    rcases mem with rfl | rfl | rfl | rfl <;> exact fun s => rfl
  · rw [named, Option.elim_some] at get
    exact .inl ⟨_, rewriteFirst_applied get, .modelAccess named⟩

theorem rewriteFirst_normalize_write {c : Context} {t : Tree} (h : isWrite c t = true) (s : State) :
    (∃ t', (normalize.rewriteFirst c t).run s = (t', s) ∧ Settled c t') ∨
      ∃ key, keySteps c key = none ∧ (normalize.rewriteFirst c t).run s = (t, s.addUnresolved (keyMessage c key)) := by
  obtain ⟨key, value, stmt⟩ := isWrite_iff.mp h
  have found := setStatement_eq_some.mpr stmt
  obtain ⟨kind, parts, rfl⟩ : ∃ kind parts, t = .node (.stmt kind) parts := by
    cases stmt with
    | closed => exact ⟨_, _, rfl⟩
    | discarded => exact ⟨_, _, rfl⟩
    | guarded => exact ⟨_, _, rfl⟩
  have noMeta : Skips c (.node (.stmt kind) parts) .metaAccess := fun s => rfl
  have noGet : Skips c (.node (.stmt kind) parts) .accessorGet := fun s => rfl
  have set : (Rewriter.apply .accessorSet c (.node (.stmt kind) parts)).run s =
      (keySteps c key).elim (none, s.addUnresolved (keyMessage c key))
        fun steps => (some (assignStmt (modelAccess c.scope.varModel steps) (ownedValue c value)), s) := by
    simp only [Rewriter.apply, accessorSet, found, StateT.run_bind, resolveKey_run]
    cases keySteps c key <;> rfl
  rw [normalize, rewriteFirst_passed (noMeta s), rewriteFirst_passed (noGet s)]
  rcases named : keySteps c key with _ | steps
  · rw [named, Option.elim_none] at set
    refine .inr ⟨key, named, ?_⟩
    rw [rewriteFirst_passed set]
    refine rewriteFirst_skips ?_ _
    intro r mem
    simp only [List.mem_cons, List.not_mem_nil, or_false] at mem
    rcases mem with rfl | rfl | rfl <;> exact fun s => rfl
  · rw [named, Option.elim_some] at set
    exact .inl ⟨_, rewriteFirst_applied set, .of_accessorCall? rfl rfl⟩

/-- The number of keys that a node holds without a name in the model. -/
def openCount (c : Context) (t : Tree) : Nat := (isRead c t).toNat + (isWrite c t).toNat

theorem openCount_of_settled {c : Context} {t : Tree} (h : Settled c t) : openCount c t = 0 := by
  rw [openCount, h.noRead, h.noWrite]
  rfl

theorem only_read {c : Context} {t : Tree} (h : isRead c t = true) : isWrite c t = false ∧ isStateCall c t = false := by
  obtain ⟨⟨m, args⟩, found, isGet⟩ := (Option.any_eq_true _ _).mp h
  simp only [Bool.and_eq_true, beq_iff_eq] at isGet
  obtain ⟨rfl, -⟩ := isGet
  constructor
  · obtain ⟨attrs, receiver, dot, turbofish, d, body, rfl, -⟩ := accessorCall?_eq_some.mp found
    rfl
  · rw [isStateCall, found]
    rfl

theorem noStateCall_of_isWrite {c : Context} {t : Tree} (h : isWrite c t = true) : isStateCall c t = false := by
  obtain ⟨key, value, stmt⟩ := isWrite_iff.mp h
  cases stmt <;> rfl

/-- Of what is offered no call stays that belongs on the metadata, and a key is recorded exactly if its read or write
stays. -/
theorem rewriteFirst_normalize (c : Context) (t : Tree) (s : State) :
    ∃ t' s', (normalize.rewriteFirst c t).run s = (t', s') ∧ isStateCall c t' = false ∧
      Recorded c s s' (openCount c t') := by
  have settled : ∀ t', (normalize.rewriteFirst c t).run s = (t', s) → Settled c t' →
      ∃ t' s', (normalize.rewriteFirst c t).run s = (t', s') ∧ isStateCall c t' = false ∧
        Recorded c s s' (openCount c t') := by
    intro t' run settles
    refine ⟨t', s, run, settles.noStateCall, ?_⟩
    rw [openCount_of_settled settles]
    exact .refl c s
  by_cases read : isRead c t = true
  · obtain ⟨noWrite, noState⟩ := only_read read
    rcases rewriteFirst_normalize_read read s with ⟨t', run, settles⟩ | ⟨key, unnamed, run⟩
    · exact settled t' run settles
    · refine ⟨t, _, run, noState, ?_⟩
      rw [openCount, read, noWrite]
      exact .of_key unnamed s
  · by_cases write : isWrite c t = true
    · have noState := noStateCall_of_isWrite write
      rcases rewriteFirst_normalize_write write s with ⟨t', run, settles⟩ | ⟨key, unnamed, run⟩
      · exact settled t' run settles
      · refine ⟨t, _, run, noState, ?_⟩
        rw [openCount, Bool.eq_false_iff.mpr read, write]
        exact .of_key unnamed s
    · rw [Bool.not_eq_true] at read write
      rcases rewriteFirst_normalize_quiet read write with ⟨stays, noState⟩ | ⟨t', run, settles⟩
      · refine ⟨t, s, stays s, noState, ?_⟩
        rw [openCount, read, write]
        exact .refl c s
      · exact settled t' (run s) settles

theorem offer_normalize (c : Context) (t : Tree) (s : State) :
    ∃ t' s', (normalize.offer c t).run s = (t', s') ∧ isStateCall c t' = false ∧
      Recorded c s s' (openCount c t') := by
  unfold Stage.offer
  split
  · exact rewriteFirst_normalize c t s
  · rename_i closed
    have noCall : accessorCall? c t = none := by
      rcases found : accessorCall? c t with _ | ⟨m, args⟩
      · rfl
      · obtain ⟨_, _, _, _, _, _, rfl, -⟩ := accessorCall?_eq_some.mp found
        exact (closed rfl).elim
    have noStmt : setStatement c t = none := by
      refine Option.eq_none_iff_forall_ne_some.mpr fun args found => ?_
      cases setStatement_eq_some.mp found <;> exact closed rfl
    have settled : Settled c t := .of_accessorCall? noCall noStmt
    refine ⟨t, s, rfl, settled.noStateCall, ?_⟩
    rw [openCount_of_settled settled]
    exact .refl c s

/-- The keys that the nodes of trees hold without a name in the model. -/
def openCounts (c : Context) (ts : Trees) : Nat :=
  (nodesAll ts).countP (isRead c) + (nodesAll ts).countP (isWrite c)

/-- The account of a walk: no call stays that belongs on the metadata, and as many keys are recorded as stay. -/
structure Accounts (c : Context) (s : State) (ts' : Trees) (s' : State) : Prop where
  noStateCall : (nodesAll ts').countP (isStateCall c) = 0
  recorded : Recorded c s s' (openCounts c ts')

theorem openCounts_append (c : Context) (ts ts' : Trees) :
    openCounts c (ts ++ ts') = openCounts c ts + openCounts c ts' := by
  simp only [openCounts, nodesAll_append, List.countP_append]
  omega

theorem Accounts.cons {c : Context} {t : Tree} {ts : Trees} {s s₁ s₂ : State} (first : Accounts c s [t] s₁)
    (rest : Accounts c s₁ ts s₂) : Accounts c s (t :: ts) s₂ where
  noStateCall := by
    rw [← List.singleton_append, nodesAll_append, List.countP_append, first.noStateCall, rest.noStateCall]
  recorded := by
    rw [← List.singleton_append, openCounts_append]
    exact first.recorded.trans rest.recorded

theorem Accounts.of_inner {c : Context} {t u t' : Tree} {inner : Trees} {s s₁ s₂ : State}
    (offered : (normalize.offer c t).run s = (u, s₁)) (noCount : openCount c u = 0) (visited : nodes t' = nodesAll inner)
    (accounts : Accounts c s₁ inner s₂) : Accounts c s [t'] s₂ := by
  obtain ⟨_, _, run, -, own⟩ := offer_normalize c t s
  cases offered.symm.trans run
  rw [noCount] at own
  have visited' : nodesAll [t'] = nodesAll inner := by rw [nodesAll, visited, nodesAll, List.append_nil]
  refine ⟨?_, ?_⟩
  · rw [visited', accounts.noStateCall]
  · rw [openCounts, visited', ← Nat.zero_add (_ + _)]
    exact own.trans accounts.recorded

/-- A node keeps its outline, so it counts after the walk as it did when it was offered. -/
theorem Accounts.of_node {c : Context} {t : Tree} {k : Kind} {parts parts' : Trees} {s s₁ s₂ : State}
    (offered : (normalize.offer c t).run s = (.node k parts, s₁)) (opened : k ≠ .macroBody)
    (kept : outlines parts' = outlines parts) (inner : Accounts c s₁ parts' s₂) :
    Accounts c s [.node k (regroup k parts')] s₂ := by
  obtain ⟨_, _, run, noState, own⟩ := offer_normalize c t s
  cases offered.symm.trans run
  have same : outlines (regroup k parts') = outlines parts := (outlines_regroup k parts').trans kept
  have visited : nodesAll [.node k (regroup k parts')] = .node k (regroup k parts') :: nodesAll (regroup k parts') := by
    rw [nodesAll, nodesAll, List.append_nil, nodes_of_ne opened]
  have counts : openCounts c [.node k (regroup k parts')] = openCount c (.node k parts) + openCounts c parts' := by
    rw [openCounts, visited, List.countP_cons, List.countP_cons, (outlined_isRead c).unshielded.countP_regroup,
      (outlined_isWrite c).unshielded.countP_regroup, (outlined_isRead c).congr same,
      (outlined_isWrite c).congr same, openCounts, openCount]
    cases isRead c (.node k parts) <;> cases isWrite c (.node k parts) <;>
      simp only [Bool.toNat_true, Bool.toNat_false, Bool.false_eq_true, if_true, if_false] <;> omega
  refine ⟨?_, ?_⟩
  · rw [visited, List.countP_cons_of_neg (by rw [(outlined_isStateCall c).congr same, noState]; decide),
      (outlined_isStateCall c).unshielded.countP_regroup, inner.noStateCall]
  · rw [counts]
    exact own.trans inner.recorded

theorem Accounts.nil (c : Context) (s : State) : Accounts c s [] s := ⟨rfl, .refl c s⟩

theorem WalksAll.accounts {c : Context} {ts ts' : Trees} {s s' : State} (h : WalksAll normalize c ts s ts' s') :
    Accounts c s ts' s' := by
  induction h with
  | nil s => exact .nil c s
  | @leaf _ _ _ token _ _ _ offered rest ih =>
    have visited : nodes (.leaf token) = nodesAll [] := rfl
    exact .cons (.of_inner offered rfl visited (.nil c _)) ih
  | group offered inner rest ihInner ih => exact .cons (.of_inner offered rfl (by rw [nodes]) ihInner) ih
  | elements offered found inner rest ihInner ih => exact .cons (.of_inner offered rfl (by rw [nodes]) ihInner) ih
  | @closed _ _ parts _ _ _ _ offered _ rest ih =>
    have visited : nodes (closeMacro parts) = nodesAll [] := nodes_closeMacro parts
    exact .cons (.of_inner offered rfl visited (.nil c _)) ih
  | node offered opened inner rest ihInner ih =>
    exact .cons (.of_node offered opened inner.outlines_eq ihInner) ih

/-- A run of the first stage accounts for the state.  Among the nodes it has come to there is no call on the accessor
that belongs on the metadata, and the keys it records, none of which names a field, are as many as the reads and the
writes that stay. -/
theorem normalize_accounts_for_state {c : Context} {depth : Nat} {block block' : Tree} {s s' : State}
    (ends : (normalize.walk c depth block).run s = some (block', s')) :
    (∀ t ∈ nodes block', isStateCall c t = false) ∧
      ∃ keys : Trees, s'.unresolved = s.unresolved ++ keys.map (keyMessage c) ∧
        keys.length = (nodes block').countP (isRead c) + (nodes block').countP (WritesState c ·) ∧
        ∀ key ∈ keys, keySteps c key = none := by
  have accounts := (Stage.walksAll_of_walk ends).accounts
  have visited : nodesAll [block'] = nodes block' := by rw [nodesAll, nodesAll, List.append_nil]
  refine ⟨?_, ?_⟩
  · have none := accounts.noStateCall
    rw [visited, List.countP_eq_zero] at none
    intro t mem
    exact Bool.eq_false_iff.mpr (none t mem)
  · obtain ⟨keys, count, added, unnamed⟩ := accounts.recorded
    refine ⟨keys, added, ?_, unnamed⟩
    rw [count, openCounts, visited]
    congr 2
    funext t
    rw [decide_writesState]

/-- One read and one write name no field of the model, one read does. -/
theorem normalize_accounts_for_widget :
    let c : Context := ⟨{}, ⟨"WidgetModel", [⟨"WidgetModel", [⟨"name", "String", "name"⟩], true⟩]⟩, [], "widget_read",
      ⟨"widget_create", .create, "model", some "d"⟩, [], none⟩
    let block := blockOf [letMut "a" (methodCallOf (var "d") "get" [stringExpr "name"]),
      letMut "b" (methodCallOf (var "d") "get" [stringExpr "size"]),
      closedStmt (triedOf (methodCallOf (var "d") "set" [stringExpr "size", methodCallOf (var "d") "id" []]))]
    ∃ block' s', (normalize.walk c 20 block).run {} = some (block', s') ∧ s'.unresolved.length = 2 ∧
      (∀ t ∈ nodes block', isStateCall c t = false) ∧
      ∃ keys : Trees, s'.unresolved = [] ++ keys.map (keyMessage c) ∧
        keys.length = (nodes block').countP (isRead c) + (nodes block').countP (WritesState c ·) ∧
        ∀ key ∈ keys, keySteps c key = none := by
  intro c block
  have ends : (((normalize.walk c 20 block).run {}).any (·.2.unresolved.length == 2)) = true := by
    decide +kernel
  obtain ⟨⟨block', s'⟩, run, two⟩ := (Option.any_eq_true _ _).mp ends
  exact ⟨block', s', run, beq_iff_eq.mp two, normalize_accounts_for_state run⟩

end Retype.Rewrite
