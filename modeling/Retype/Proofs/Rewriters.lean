import Retype.Proofs.Outline

/-! What rewriters put in the place of a node, whatever stage they stand in: a node of the same outline, of one of a
few kinds. -/

namespace Retype.Rewrite
open Retype.Code

/-- The steps of the tag that a key names. -/
def keySteps (c : Context) (key : Tree) : Option (List PathStep) :=
  (Naming.stringText key).bind fun tag => c.models.resolveTag "" tag

/-- What is recorded of a key that names no field. -/
def keyMessage (c : Context) (key : Tree) : String :=
  c.scope.name ++ ": " ++ (match Naming.stringText key with
    | none => Unresolved.key key.text
    | some tag => Unresolved.tag tag c.models.top).message

theorem resolveKey_run (c : Context) (key : Tree) (s : State) : (resolveKey c key).run s =
    match keySteps c key with
    | some steps => (some steps, s)
    | none => (none, s.addUnresolved (keyMessage c key)) := by
  unfold resolveKey keySteps keyMessage
  split
  · rename_i noText
    rw [noText]
    rfl
  · rename_i tag text
    rw [text]
    simp only [Option.bind_some]
    split
    · rename_i unknown
      rw [unknown]
      rfl
    · rename_i steps known
      rw [known]
      rfl

theorem steps_ne_nil (ms : ModelSet) (model : Option Model) (segments : List String) :
    ms.steps model segments ≠ some [] := by
  intro h
  match segments with
  | [] => cases h
  | [head] =>
    simp only [ModelSet.steps, Option.bind_eq_bind, Option.bind_eq_some_iff] at h
    obtain ⟨m, -, f, -, ⟨⟩⟩ := h
  | head :: second :: rest =>
    simp only [ModelSet.steps, Option.bind_eq_bind, Option.bind_eq_some_iff] at h
    obtain ⟨m, -, f, -, h⟩ := h
    split at h
    · cases h
    · split at h
      · split at h
        · split at h
          · cases h
          · obtain ⟨next, -, h⟩ := Option.bind_eq_some_iff.mp h
            obtain ⟨below, -, ⟨⟩⟩ := Option.bind_eq_some_iff.mp h
        · cases h
      · obtain ⟨next, -, h⟩ := Option.bind_eq_some_iff.mp h
        obtain ⟨below, -, ⟨⟩⟩ := Option.bind_eq_some_iff.mp h

theorem keySteps_ne_nil {c : Context} {key : Tree} {steps : List PathStep} (h : keySteps c key = some steps) :
    steps ≠ [] := by
  rintro rfl
  obtain ⟨tag, -, resolved⟩ := Option.bind_eq_some_iff.mp h
  exact steps_ne_nil _ _ _ resolved

theorem outline_of_call? {t : Tree} {call : Call} (h : t.stripParens.call? = some call) : outline t = .unseen := by
  fun_induction Tree.stripParens t with
  | case1 attrs d e ih => simp only [outline, outlines, Outline.ofNode, ih h, Outline.inParens]
  | case2 t plain =>
    unfold Tree.call? at h
    split at h
    · rfl
    · cases h

theorem outline_of_callPath? {t : Tree} {path : String} {args : Trees} (h : t.callPath? = some (path, args)) :
    outline t = .unseen := by
  obtain ⟨call, isCall, -⟩ := Option.bind_eq_some_iff.mp h
  exact outline_of_call? isCall

theorem outline_methodCall {attrs receiver dot : Tree} {m : String} {rest : Trees}
    (h : (m == "map_err" || m == "set") = false) :
    outline (.node (.expr .methodCall) (attrs :: receiver :: dot :: word m :: rest)) = .unseen := by
  have plain : IsPlain (.node (.expr .methodCall) (attrs :: receiver :: dot :: word m :: rest)) := by
    rintro _ _ _ ⟨⟩
  generalize seen : outline _ = o
  have direct := outline_direct_of_isPlain plain seen
  cases o with
  | unseen => rfl
  | call method =>
    obtain ⟨-, named, _, _, _, _, os⟩ := direct
    simp only [outlines_eq_cons, outlines_eq_nil, outline_eq_leaf] at os
    obtain ⟨_, _, ⟨⟩, -, _, _, ⟨⟩, -, _, _, ⟨⟩, -, _, _, ⟨⟩, ⟨⟩, -⟩ := os
    rw [h] at named
    cases named
  | leaf => cases direct
  | group => cases direct
  | absent => cases direct
  | wild => cases direct
  | _ => cases direct.1

theorem notSet_of_stateMethods {m : String} (h : stateMethods.contains m = true) :
    (m == "map_err" || m == "set") = false := by
  simp only [stateMethods, List.contains_eq_mem, List.mem_cons, List.not_mem_nil, or_false, decide_eq_true_eq] at h
  rcases h with rfl | rfl | rfl | rfl | rfl | rfl <;> rfl

theorem modelAccess_concat (model : String) (steps : List PathStep) (last : PathStep) :
    modelAccess model (steps ++ [last]) = stepAccess (modelAccess model steps) last := by
  rw [modelAccess, List.foldl_append]
  rfl

theorem stmt_of_setStatement {c : Context} {t : Tree} {args : Trees} (h : setStatement c t = some args) :
    ∃ kind parts, t = .node (.stmt kind) parts := by
  unfold setStatement at h
  split at h
  · exact ⟨_, _, rfl⟩
  · exact ⟨_, _, rfl⟩
  · exact ⟨_, _, rfl⟩
  · cases h

def madeKinds : List Kind :=
  [.block, .stmt .bind, .stmt .expr, .expr .assign, .expr .call, .expr .field, .expr .index, .expr .methodCall,
    .expr .structLit]

/-- What a rewriter may put in the place of a node. -/
structure Replaces (c : Context) (t u : Tree) : Prop where
  outlined : outline u = outline t
  made : ∃ k parts, u = .node k parts ∧ k ∈ madeKinds
  /-- A call is only made by a rename. -/
  renamed : ∀ parts, u = .node (.expr .call) parts → ∃ attrs old target rest, parts = attrs :: target :: rest ∧
    t = .node (.expr .call) (attrs :: old :: rest) ∧ target ∈ c.renames.map (·.2)
  /-- A statement is only made of a write. -/
  assigned : ∀ parts, u = .node (.stmt .expr) parts → ∃ target value, u = assignStmt target value
  flown : ∀ parts, u = .node .block parts → ∃ s s', (controlFlow c t).run s = (some u, s')

/-- A node of a kind that only one rewriter makes, and not by a rename, a write or a list of statements. -/
theorem Replaces.of_kind {c : Context} {t : Tree} {k : Kind} {parts : Trees}
    (outlined : outline (.node k parts) = outline t) (made : k ∈ madeKinds)
    (other : k ≠ .expr .call ∧ k ≠ .stmt .expr ∧ k ≠ .block) : Replaces c t (.node k parts) where
  outlined := outlined
  made := ⟨k, parts, rfl, made⟩
  renamed _ h := by cases h; exact (other.1 rfl).elim
  assigned _ h := by cases h; exact (other.2.1 rfl).elim
  flown _ h := by cases h; exact (other.2.2 rfl).elim

theorem some_of_pure {x : Option Tree} {u : Tree} {s s' : State} (h : (pure x : Run (Option Tree)).run s = (some u, s')) :
    x = some u := congrArg Prod.fst h

theorem replaces_metaAccess {c : Context} {t u : Tree} {s s' : State} (h : (metaAccess c t).run s = (some u, s')) :
    Replaces c t u := by
  unfold metaAccess at h
  split at h
  · have h := some_of_pure h
    split at h
    · cases h
      exact .of_kind rfl (by decide) (by decide)
    · cases h
  · cases some_of_pure h

theorem replaces_modelAccess {c : Context} {t key : Tree} {steps : List PathStep} (unseen : outline t = .unseen)
    (named : keySteps c key = some steps) : Replaces c t (modelAccess c.scope.varModel steps) := by
  obtain rfl | ⟨init, last, rfl⟩ := List.eq_nil_or_concat steps
  · exact (keySteps_ne_nil named rfl).elim
  · rw [List.concat_eq_append, modelAccess_concat]
    cases last with
    | field f => exact .of_kind unseen.symm (by decide) (by decide)
    | index i => exact .of_kind unseen.symm (by decide) (by decide)

theorem replaces_accessorGet {c : Context} {t u : Tree} {s s' : State} (h : (accessorGet c t).run s = (some u, s')) :
    Replaces c t u := by
  unfold accessorGet at h
  split at h
  · split at h
    · cases some_of_pure h
    · split at h
      · rename_i listed
        cases some_of_pure h
        have set := notSet_of_stateMethods listed
        exact .of_kind ((outline_methodCall set).trans (outline_methodCall set).symm) (by decide) (by decide)
      · split at h
        · rename_i isGet
          rw [beq_iff_eq.mp isGet]
          split at h
          · rename_i key _
            rw [StateT.run_bind, resolveKey_run] at h
            rcases named : keySteps c key with _ | steps
            · rw [named] at h
              cases h
            · rw [named] at h
              cases some_of_pure h
              exact replaces_modelAccess (outline_methodCall rfl) named
          · cases some_of_pure h
        · cases some_of_pure h
  · cases some_of_pure h

theorem replaces_accessorSet {c : Context} {t u : Tree} {s s' : State} (h : (accessorSet c t).run s = (some u, s')) :
    Replaces c t u := by
  unfold accessorSet at h
  split at h
  · rename_i key value found
    rw [StateT.run_bind, resolveKey_run] at h
    rcases named : keySteps c key with _ | steps
    · rw [named] at h
      cases h
    · rw [named] at h
      cases some_of_pure h
      exact {
        outlined := by
          obtain ⟨kind, parts, rfl⟩ := stmt_of_setStatement found
          cases kind <;> rfl
        made := ⟨_, _, rfl, by decide⟩
        renamed := fun _ h => by cases h
        assigned := fun _ _ => ⟨_, _, rfl⟩
        flown := fun _ h => by cases h }
  · cases some_of_pure h

theorem replaces_importGuard {c : Context} {t u : Tree} {s s' : State} (h : (importGuard c t).run s = (some u, s')) :
    Replaces c t u := by
  unfold importGuard at h
  split at h
  · split at h
    · rename_i call
      have h := some_of_pure h
      split at h
      · cases h
        exact .of_kind ((outline_of_callPath? call).symm ▸ outline_methodCall rfl) (by decide) (by decide)
      · cases h
    · cases some_of_pure h
  · cases some_of_pure h

theorem replaces_controlFlow {c : Context} {t u : Tree} {s s' : State} (h : (controlFlow c t).run s = (some u, s')) :
    Replaces c t u := by
  have made : ∃ parts parts', t = .node .block parts ∧ u = .node .block parts' := by
    have run := h
    unfold controlFlow at run
    split at run
    · dsimp only at run
      split at run
      · cases some_of_pure run
        exact ⟨_, _, rfl, rfl⟩
      · have run := some_of_pure run
        split at run
        · cases run
          exact ⟨_, _, rfl, rfl⟩
        · cases run
    · cases some_of_pure run
  obtain ⟨parts, parts', rfl, rfl⟩ := made
  exact {
    outlined := rfl
    made := ⟨_, _, rfl, by decide⟩
    renamed := fun _ h => by cases h
    assigned := fun _ h => by cases h
    flown := fun _ _ => ⟨s, s', h⟩ }

theorem replaces_functionRename {c : Context} {t u : Tree} {s s' : State}
    (h : (functionRename c t).run s = (some u, s')) : Replaces c t u := by
  unfold functionRename at h
  split at h
  · have h := some_of_pure h
    split at h
    · rename_i isNew
      simp only [Bool.and_eq_true, beq_iff_eq] at isNew
      cases h
      rw [isNew.1]
      exact .of_kind ((outline_methodCall rfl).trans (outline_methodCall rfl).symm) (by decide) (by decide)
    · cases h
  · split at h
    · have h := some_of_pure h
      obtain ⟨target, found, rfl⟩ := Option.map_eq_some_iff.mp h
      exact {
        outlined := rfl
        made := ⟨_, _, rfl, by decide⟩
        renamed := fun _ h => by
          cases h
          refine ⟨_, _, _, _, rfl, rfl, ?_⟩
          obtain ⟨entry, mem, rfl⟩ := Option.map_eq_some_iff.mp found
          exact List.mem_map_of_mem (List.mem_of_find?_eq_some mem)
        assigned := fun _ h => by cases h
        flown := fun _ h => by cases h }
    · cases some_of_pure h
  · cases some_of_pure h

theorem replaces_inlineFunction {c : Context} {t u : Tree} {s s' : State}
    (h : (inlineFunction c t).run s = (some u, s')) : Replaces c t u := by
  unfold inlineFunction at h
  split at h
  · split at h
    · cases some_of_pure h
    · rename_i value _ _ _
      rcases run : (promoteCall c value none).run s with ⟨_ | v, s₁⟩
      · rw [StateT.run_bind, run] at h
        cases h
      · rw [StateT.run_bind, run] at h
        cases some_of_pure h
        exact .of_kind rfl (by decide) (by decide)
  · rename_i left _ right
    rcases run : (promoteCall c right (fieldChain c.scope.varModel left)).run s with ⟨_ | v, s₁⟩
    · rw [StateT.run_bind, run] at h
      cases h
    · rw [StateT.run_bind, run] at h
      cases some_of_pure h
      exact .of_kind rfl (by decide) (by decide)
  · cases some_of_pure h

theorem replaces_compositeLiteral {c : Context} {t u : Tree} {s s' : State}
    (h : (compositeLiteral c t).run s = (some u, s')) : Replaces c t u := by
  unfold compositeLiteral at h
  split at h
  · split at h
    · rename_i call
      split at h
      · split at h
        · obtain ⟨m, -, made⟩ := Option.bind_eq_some_iff.mp (some_of_pure h)
          obtain ⟨fields, -, ⟨⟩⟩ := Option.bind_eq_some_iff.mp made
          exact .of_kind (outline_of_callPath? call).symm (by decide) (by decide)
        · cases some_of_pure h
      · cases some_of_pure h
    · cases some_of_pure h
  · cases some_of_pure h

theorem Rewriter.replaces {r : Rewriter} {c : Context} {t u : Tree} {s s' : State}
    (h : (r.apply c t).run s = (some u, s')) : Replaces c t u := by
  cases r with
  | metaAccess => exact replaces_metaAccess h
  | accessorGet => exact replaces_accessorGet h
  | accessorSet => exact replaces_accessorSet h
  | importGuard => exact replaces_importGuard h
  | controlFlow => exact replaces_controlFlow h
  | functionRename => exact replaces_functionRename h
  | inlineFunction => exact replaces_inlineFunction h
  | compositeLiteral => exact replaces_compositeLiteral h

theorem rewriteFirst_cases {stage : Stage} {c : Context} {t u : Tree} {s s' : State}
    (h : (stage.rewriteFirst c t).run s = (u, s')) :
    u = t ∨ ∃ r ∈ stage, ∃ s s', (r.apply c t).run s = (some u, s') := by
  induction stage generalizing s with
  | nil =>
    cases h
    exact .inl rfl
  | cons r rs ih =>
    rw [Stage.rewriteFirst, StateT.run_bind] at h
    rcases run : (r.apply c t).run s with ⟨_ | v, s₁⟩
    · rw [run] at h
      rcases ih h with same | ⟨r', mem, applied⟩
      · exact .inl same
      · exact .inr ⟨r', List.mem_cons_of_mem _ mem, applied⟩
    · rw [run] at h
      cases h
      exact .inr ⟨r, List.mem_cons_self, _, _, run⟩

theorem Offered.applied {stage : Stage} {c : Context} {t u : Tree} (h : Offered stage c t u) :
    u = t ∨ ∃ r ∈ stage, ∃ s s', (r.apply c t).run s = (some u, s') := by
  obtain ⟨s, s', h⟩ := h
  unfold Stage.offer at h
  split at h
  · exact rewriteFirst_cases h
  · cases h
    exact .inl rfl

theorem Offered.cases {stage : Stage} {c : Context} {t u : Tree} (h : Offered stage c t u) : u = t ∨ Replaces c t u := by
  rcases h.applied with same | ⟨r, -, s, s', applied⟩
  · exact .inl same
  · exact .inr (Rewriter.replaces applied)

theorem Offered.outline_eq {stage : Stage} {c : Context} {t u : Tree} (h : Offered stage c t u) :
    outline u = outline t := by
  rcases h.cases with rfl | replaces
  · rfl
  · exact replaces.outlined

theorem Offered.eq_of_kind {stage : Stage} {c : Context} {t : Tree} {k : Kind} {parts : Trees}
    (h : Offered stage c t (.node k parts)) (unmade : k ∉ madeKinds) : t = .node k parts := by
  rcases h.cases with same | replaces
  · exact same.symm
  · obtain ⟨_, _, ⟨⟩, made⟩ := replaces.made
    exact (unmade made).elim

theorem WalksAll.outlines_eq {stage : Stage} {c : Context} {ts ts' : Trees} {s s' : State}
    (h : WalksAll stage c ts s ts' s') : outlines ts' = outlines ts := by
  induction h with
  | nil => rfl
  | leaf offered _ ih =>
    have kept := Offered.outline_eq ⟨_, _, offered⟩
    rw [outlines, outlines, kept, ih]
  | group offered _ _ ihInner ih =>
    have kept := Offered.outline_eq ⟨_, _, offered⟩
    rw [outlines, outlines, ← kept, outline, outline, ihInner, ih]
  | elements offered _ _ _ _ ih =>
    have kept := Offered.outline_eq ⟨_, _, offered⟩
    rw [outlines, outlines, ← kept, ih]
    rfl
  | closed offered _ _ ih =>
    have kept := Offered.outline_eq ⟨_, _, offered⟩
    rw [outlines, outlines, ← kept, outline_closeMacro, ih]
  | node offered _ _ _ ihInner ih =>
    have kept := Offered.outline_eq ⟨_, _, offered⟩
    rw [outlines, outlines, ← kept, outline, outline, outlines_regroup, ihInner, ih]

namespace Walked
variable {stage : Stage} {c : Context}

theorem outline_eq {t t' : Tree} (h : Walked stage c t t') : outline t' = outline t := by
  obtain ⟨s, s', h⟩ := h
  have eq := h.outlines_eq
  simpa only [outlines, List.cons.injEq, and_true] using eq

theorem isAbsent_eq {t t' : Tree} (h : Walked stage c t t') : t'.isAbsent = t.isAbsent := by
  rw [Bool.eq_iff_iff, ← outline_eq_absent, ← outline_eq_absent, h.outline_eq]

theorem group_eq {t : Tree} {d : Delim} {body' : Trees} (h : Walked stage c t (.group d body')) :
    ∃ body, t = .group d body ∧ List.Forall₂ (Walked stage c) body body' := by
  obtain ⟨body, offered, walked⟩ := h.of_group
  rcases offered.cases with same | replaces
  · exact ⟨body, same.symm, walked⟩
  · obtain ⟨_, _, ⟨⟩, -⟩ := replaces.made

theorem node_eq {t : Tree} {k : Kind} {parts' : Trees} (opened : k ≠ .macroBody) (unmade : k ∉ madeKinds)
    (h : Walked stage c t (.node k parts')) : ∃ parts walked, t = .node k parts ∧
      List.Forall₂ (Walked stage c) parts walked ∧ parts' = regroup k walked := by
  obtain ⟨parts, walked, offered, inner, same⟩ := h.of_node opened
  exact ⟨parts, walked, offered.eq_of_kind unmade, inner, same⟩

theorem plain_eq {t : Tree} {k : Kind} {parts' : Trees} (opened : k ≠ .macroBody) (unmade : k ∉ madeKinds)
    (plain : ∀ parts, regroup k parts = parts) (h : Walked stage c t (.node k parts')) :
    ∃ parts, t = .node k parts ∧ List.Forall₂ (Walked stage c) parts parts' := by
  obtain ⟨parts, walked, rfl, inner, same⟩ := h.node_eq opened unmade
  rw [plain] at same
  exact ⟨parts, rfl, same ▸ inner⟩

end Walked

end Retype.Rewrite
