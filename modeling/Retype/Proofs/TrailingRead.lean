import Retype.Proofs.Promotion

/-! The read of the resource at the end of a body.  The first stage puts success in its place, and neither stage brings
it back but by a rename. -/

namespace Retype.Rewrite
open Retype.Code

def isBareRead (c : Context) (e : Tree) : Bool := e.stripParens.call?.any fun call =>
  call.callee.exprPath?.bind (·.pathIdent?) == some c.readFn && call.args.head?.any c.isAccessor

def answersRead (c : Context) : Tree → Bool
  | .node (.stmt .expr) [.node (.expr .returnEarly) [_, _, value], _] => isBareRead c value
  | .node (.stmt .expr) [e, semi] => semi.isAbsent && isBareRead c e
  | _ => false

def endsInRead (c : Context) : Tree → Bool
  | .node .block [.group _ stmts] => stmts.getLast?.any (answersRead c)
  | _ => false

theorem isReadCall_of_isBareRead {c : Context} {e : Tree} (h : isBareRead c e = true) : isReadCall c e = true := by
  obtain ⟨⟨callee, args⟩, isCall, named⟩ := (Option.any_eq_true _ _).mp h
  simp only [Bool.and_eq_true, beq_iff_eq] at named
  obtain ⟨named, hasFirst⟩ := named
  obtain ⟨path, isPath, named⟩ := Option.bind_eq_some_iff.mp named
  obtain ⟨generics, rfl, -⟩ := pathIdent?_eq_some.mp named
  obtain ⟨first, head, accessor⟩ := (Option.any_eq_true _ _).mp hasFirst
  cases args with
  | nil => cases head
  | cons first' rest =>
    cases head
    have callPath : e.callPath? = some (c.readFn, first :: rest) := by
      simp only [Tree.callPath?, isCall, Option.bind_eq_bind, Option.bind_some, isPath]
      rfl
    rw [isReadCall, callPath]
    simp only [beq_self_eq_true, accessor, Bool.and_self]

theorem isBareRead_okUnit (c : Context) : isBareRead c okUnit = false := by
  have noAccessor : c.isAccessor unitTuple = false := by
    unfold Context.isAccessor
    split <;> rfl
  have isCall : okUnit.stripParens.call? = some ⟨var "Ok", [unitTuple]⟩ := rfl
  simp only [isBareRead, isCall, Option.any_some, List.head?_cons, noAccessor, Bool.and_false]

theorem readToSuccess?_of_answersRead {c : Context} {s : Tree} (h : answersRead c s = true) :
    (readToSuccess? c s).isSome = true := by
  unfold answersRead at h
  split at h
  · rw [readToSuccess?, isReadCall_of_isBareRead h]
    rfl
  · rename_i noReturn
    rw [Bool.and_eq_true] at h
    rw [readToSuccess?]
    · rw [h.1, isReadCall_of_isBareRead h.2]
      rfl
    · exact noReturn
  · cases h

theorem answersRead_of_readToSuccess? {c : Context} {s s' : Tree} (h : readToSuccess? c s = some s') :
    answersRead c s' = false := by
  unfold readToSuccess? at h
  split at h
  · split at h
    · cases h
      exact isBareRead_okUnit c
    · cases h
  · split at h
    · cases h
      exact Bool.and_eq_false_imp.mpr fun _ => isBareRead_okUnit c
    · cases h
  · cases h

theorem getLast?_of_replaceTrailingRead_none {c : Context} {stmts : Trees} (h : replaceTrailingRead c stmts = none) :
    stmts.getLast?.any (answersRead c) = false := by
  fun_induction replaceTrailingRead c stmts with
  | case1 => rfl
  | case2 s =>
    rw [Bool.eq_false_iff]
    intro answers
    have answers : (readToSuccess? c s).isSome = true := readToSuccess?_of_answersRead answers
    rw [Option.map_eq_none_iff.mp h] at answers
    cases answers
  | case3 s t rest ih => exact ih (Option.map_eq_none_iff.mp h)

theorem concat_of_replaceTrailingRead_some {c : Context} {stmts replaced : Trees}
    (h : replaceTrailingRead c stmts = some replaced) :
    ∃ init last, replaced = init ++ [last] ∧ answersRead c last = false := by
  fun_induction replaceTrailingRead c stmts generalizing replaced with
  | case1 => cases h
  | case2 s =>
    obtain ⟨last, made, rfl⟩ := Option.map_eq_some_iff.mp h
    exact ⟨[], last, rfl, answersRead_of_readToSuccess? made⟩
  | case3 s t rest ih =>
    obtain ⟨rest', made, rfl⟩ := Option.map_eq_some_iff.mp h
    obtain ⟨init, last, rfl, answers⟩ := ih made
    exact ⟨s :: init, last, rfl, answers⟩

theorem elideTimeouts_of_none {c : Context} {stmts : Trees} (h : stmts.any (isAcquisition c) = false) :
    elideTimeouts c stmts = stmts := by
  fun_induction elideTimeouts c stmts <;> simp_all

theorem moveIdentity_of_none {c : Context} {a : String} {stmts : Trees}
    (h : (stmts.any fun s => (setIdArgument? a s).isSome) = false) : moveIdentity c a stmts = stmts := by
  fun_induction moveIdentity c a stmts <;> simp_all

theorem moveIdentities_of_none {c : Context} {stmts : Trees} (h : setsIdentity c.scope.accessor stmts = false) :
    moveIdentities c stmts = stmts := by
  unfold setsIdentity at h
  unfold moveIdentities
  split
  · rename_i a found
    rw [found] at h
    exact moveIdentity_of_none h
  · rfl

theorem controlFlow_run {c : Context} {t : Tree} {s s' : State} {t? : Option Tree}
    (h : (controlFlow c t).run s = (t?, s')) : endsInRead c (t?.getD t) = false := by
  unfold controlFlow at h
  split at h
  · dsimp only at h
    split at h
    · rename_i replaced
      cases h
      obtain ⟨init, last, rfl, answers⟩ := concat_of_replaceTrailingRead_some replaced
      simp only [Option.getD_some, endsInRead, List.getLast?_concat, Option.any_some, answers]
    · rename_i d stmts _ _ noRead
      split at h
      · cases h
        exact getLast?_of_replaceTrailingRead_none noRead
      · rename_i unchanged
        cases h
        rw [Bool.or_eq_true, not_or, Bool.not_eq_true, Bool.not_eq_true] at unchanged
        have kept := elideTimeouts_of_none unchanged.1
        rw [kept] at unchanged noRead
        rw [moveIdentities_of_none unchanged.2] at noRead
        exact getLast?_of_replaceTrailingRead_none noRead
  · rename_i noBlock
    cases h
    rw [Option.getD_none]
    unfold endsInRead
    split
    · exact (noBlock _ _ rfl).elim
    · rfl

theorem offered_normalize_block {c : Context} {t : Tree} {parts : Trees}
    (h : Offered normalize c t (.node .block parts)) : endsInRead c (.node .block parts) = false := by
  have block : ∃ parts', t = .node .block parts' := by
    rcases h.cases with same | replaces
    · exact ⟨parts, same.symm⟩
    · obtain ⟨s, s', run⟩ := replaces.flown parts rfl
      unfold controlFlow at run
      split at run
      · exact ⟨_, rfl⟩
      · cases run
  obtain ⟨parts', rfl⟩ := block
  obtain ⟨s, s', h⟩ := h
  have offer : (normalize.offer c (.node .block parts')).run s =
      (Stage.rewriteFirst c [.controlFlow, .functionRename] (.node .block parts')).run s := rfl
  rw [offer] at h
  rcases run : (controlFlow c (.node .block parts')).run s with ⟨t?, s₁⟩
  have settled := controlFlow_run run
  cases t? with
  | some u =>
    rw [rewriteFirst_applied (r := .controlFlow) run] at h
    cases h
    exact settled
  | none =>
    rw [rewriteFirst_passed (r := .controlFlow) run] at h
    cases h
    exact settled

def RenamesTo (c : Context) (name : String) : Prop :=
  ∃ target ∈ c.renames.map (·.2), target.exprPath?.bind (·.pathIdent?) = some name

theorem exprPath?_bare_eq {stage : Stage} {c : Context} {e e' : Tree} {name : String} (h : Walked stage c e e')
    (named : e'.exprPath?.bind (·.pathIdent?) = some name) : e.exprPath?.bind (·.pathIdent?) = some name := by
  obtain ⟨path', isPath, named⟩ := Option.bind_eq_some_iff.mp named
  unfold Tree.exprPath? at isPath
  split at isPath
  · cases isPath
    obtain ⟨parts, rfl, inner⟩ := h.plain_eq (by decide) (by decide) fun _ => rfl
    obtain ⟨_, _, rfl, -, hp⟩ := forall₂_two inner
    refine outline_eq_path.mp ?_
    rw [← hp.outline_eq]
    exact outline_eq_path.mpr named
  · cases isPath

theorem Walked.isAccessor_eq {stage : Stage} {c : Context} {e e' : Tree} (h : Walked stage c e e') :
    c.isAccessor e' = c.isAccessor e := by
  rw [← outline_isAccessor, ← outline_isAccessor, h.outline_eq]

theorem head?_members {stage : Stage} {c : Context} {args args' : Trees} {first' : Tree}
    (h : List.Forall₂ (Walked stage c) args args') (head : (Trees.members args').head? = some first') :
    ∃ first, (Trees.members args).head? = some first ∧ Walked stage c first first' := by
  unfold Trees.members at head ⊢
  induction h with
  | nil => cases head
  | @cons t t' args args' ht _ ih =>
    have same : t'.isOp "," = t.isOp "," := by rw [← isComma_outline, ← isComma_outline, ht.outline_eq]
    by_cases comma : t.isOp "," = true
    · rw [List.filter_cons_of_neg (by rw [same, comma]; decide)] at head
      rw [List.filter_cons_of_neg (by rw [comma]; decide)]
      exact ih head
    · rw [Bool.not_eq_true] at comma
      rw [List.filter_cons_of_pos (by rw [same, comma]; rfl)] at head
      rw [List.filter_cons_of_pos (by rw [comma]; rfl)]
      cases head
      exact ⟨t, rfl, ht⟩

theorem isBareRead_walked {stage : Stage} {c : Context} {e e' : Tree} (h : Walked stage c e e')
    (read : isBareRead c e' = true) : isBareRead c e = true ∨ RenamesTo c c.readFn := by
  unfold isBareRead at read ⊢
  induction e' using Tree.stripParens.induct generalizing e with
  | case1 a d e' ih =>
    obtain ⟨a', e'', rfl, he⟩ := h.paren_eq
    have inner := ih he read
    exact inner
  | case2 e' plain =>
    rw [stripParens_of_isPlain plain] at read
    obtain ⟨call, isCall, named⟩ := (Option.any_eq_true _ _).mp read
    unfold Tree.call? at isCall
    split at isCall
    · rename_i a callee d args
      cases isCall
      simp only [Bool.and_eq_true, beq_iff_eq] at named
      obtain ⟨name, hasFirst⟩ := named
      obtain ⟨first', head', accessor'⟩ := (Option.any_eq_true _ _).mp hasFirst
      have noField : ∀ parts, callee.stripParens ≠ .node (.expr .field) parts := by
        unfold Tree.exprPath? at name
        split at name
        · rintro _ ⟨⟩
        · cases name
      obtain ⟨a', callee', args', offered, hc, hargs⟩ := h.call_eq noField
      have name' := exprPath?_bare_eq hc name
      obtain ⟨first, head, hfirst⟩ := head?_members hargs head'
      rcases offered.cases with rfl | replaces
      · left
        have isCall : (Code.Tree.node (.expr .call) [a', callee', .group d args']).stripParens.call? =
            some ⟨callee', Trees.members args'⟩ := rfl
        rw [isCall, Option.any_some, name', head, Option.any_some, ← hfirst.isAccessor_eq, accessor']
        simp only [beq_self_eq_true, Bool.and_self]
      · obtain ⟨_, _, target, _, ⟨⟩, -, renamed⟩ := replaces.renamed _ rfl
        exact .inr ⟨_, renamed, name'⟩
    · cases isCall

theorem returnEarly_walked {stage : Stage} {c : Context} {e a w value : Tree}
    (h : Walked stage c e (.node (.expr .returnEarly) [a, w, value])) :
    ∃ a' w' value', e = .node (.expr .returnEarly) [a', w', value'] ∧ Walked stage c value' value := by
  obtain ⟨parts, rfl, inner⟩ := h.plain_eq (by decide) (by decide) fun _ => rfl
  obtain ⟨a', w', value', rfl, -, -, hv⟩ := forall₂_three inner
  exact ⟨a', w', value', rfl, hv⟩

theorem answersRead_parts {stage : Stage} {c : Context} {e semi e' semi' : Tree} (he : Walked stage c e e')
    (hs : Walked stage c semi semi') (read : answersRead c (.node (.stmt .expr) [e', semi']) = true) :
    (answersRead c (.node (.stmt .expr) [e, semi]) = true ∧
      (semi.isAbsent = true ∨ ∃ parts, e = .node (.expr .returnEarly) parts)) ∨ RenamesTo c c.readFn := by
  unfold answersRead at read
  split at read
  · rename_i same
    cases same
    obtain ⟨a, w, value, rfl, hv⟩ := returnEarly_walked he
    rcases isBareRead_walked hv read with answers | renames
    · exact .inl ⟨answers, .inr ⟨_, rfl⟩⟩
    · exact .inr renames
  · rename_i same
    cases same
    rw [Bool.and_eq_true, hs.isAbsent_eq] at read
    rcases isBareRead_walked he read.2 with answers | renames
    · refine .inl ⟨?_, .inl read.1⟩
      unfold answersRead
      split
      · rename_i same
        cases same
        cases answers
      · rename_i same
        cases same
        rw [read.1, answers]
        rfl
      · rename_i noStmt
        exact (noStmt _ _ rfl).elim
    · exact .inr renames
  · cases read

theorem answersRead_walked {stage : Stage} {c : Context} {t t' : Tree} (h : Walked stage c t t')
    (read : answersRead c t' = true) : answersRead c t = true ∨ RenamesTo c c.readFn := by
  have stmt : ∃ e' semi', t' = .node (.stmt .expr) [e', semi'] := by
    unfold answersRead at read
    split at read
    · exact ⟨_, _, rfl⟩
    · exact ⟨_, _, rfl⟩
    · cases read
  obtain ⟨e', semi', rfl⟩ := stmt
  obtain ⟨parts, walked, offered, inner, same⟩ := h.of_node (by decide)
  have same : walked = [e', semi'] := same.symm
  subst same
  cases inner with
  | cons he inner =>
    cases inner with
    | cons hs inner =>
      cases inner
      rcases answersRead_parts he hs read with ⟨answers, ends⟩ | renames
      · rcases offered.cases with rfl | replaces
        · exact .inl answers
        · obtain ⟨target, value, ⟨⟩⟩ := replaces.assigned _ rfl
          rcases ends with absent | ⟨_, ⟨⟩⟩
          cases absent
      · exact .inr renames

theorem getLast?_walked {stage : Stage} {c : Context} {ts ts' : Trees} {last' : Tree}
    (h : List.Forall₂ (Walked stage c) ts ts') (found : ts'.getLast? = some last') :
    ∃ last, ts.getLast? = some last ∧ Walked stage c last last' := by
  rw [List.getLast?_eq_head?_reverse] at found ⊢
  have reversed := List.rel_reverse h
  generalize ts.reverse = us at reversed ⊢
  generalize ts'.reverse = us' at reversed found
  cases reversed with
  | nil => cases found
  | cons hl _ =>
    cases found
    exact ⟨_, rfl, hl⟩

theorem endsInRead_walked {stage : Stage} {c : Context} {t t' : Tree} (h : Walked stage c t t')
    (ends : endsInRead c t' = true) :
    (∃ parts, Offered stage c t (.node .block parts) ∧ endsInRead c (.node .block parts) = true) ∨
      RenamesTo c c.readFn := by
  unfold endsInRead at ends
  split at ends
  · rename_i d stmts'
    obtain ⟨parts, walked, offered, inner, same⟩ := h.of_node (by decide)
    have same : walked = [.group d stmts'] := same.symm
    subst same
    cases inner with
    | cons hg inner =>
      cases inner
      obtain ⟨stmts, rfl, hstmts⟩ := hg.group_eq
      obtain ⟨last', found', answers'⟩ := (Option.any_eq_true _ _).mp ends
      obtain ⟨last, found, hlast⟩ := getLast?_walked hstmts found'
      rcases answersRead_walked hlast answers' with answers | renames
      · refine .inl ⟨_, offered, ?_⟩
        rw [endsInRead, found, Option.any_some, answers]
      · exact .inr renames
  · cases ends

/-- What a run of both stages leaves: no `let` and no assignment binds a call of a helper, and a body does not end by
answering what the read answers, but for a rename. -/
theorem runStages?_standard {c : Context} {body body' : Tree} {s s' : State}
    (h : (runStages? c standard body).run s = some (body', s')) :
    (∀ t ∈ nodes body', bindsCall (isHelper c) t = false) ∧ (endsInRead c body' = false ∨ RenamesTo c c.readFn) := by
  obtain ⟨⟨normal, s₁⟩, first, h⟩ := Option.bind_eq_some_iff.mp h
  obtain ⟨⟨promoted, s₂⟩, second, h⟩ := Option.bind_eq_some_iff.mp h
  cases h
  have walked := Stage.walksAll_of_run? (Stage.survive?_eq_some.mp first).1
  have walked' := Stage.walksAll_of_run? (Stage.survive?_eq_some.mp second).1
  constructor
  · have none := walked'.bindsCall
    rw [nodesAll, nodesAll, List.append_nil, List.countP_eq_zero] at none
    intro t mem
    exact Bool.eq_false_iff.mpr (none t mem)
  · by_cases ends : endsInRead c body' = true
    · rcases endsInRead_walked ⟨_, _, walked'⟩ ends with ⟨parts, offered, ends⟩ | renames
      · have same := offered_promote_eq offered (by decide)
        rw [← same] at ends
        rcases endsInRead_walked ⟨_, _, walked⟩ ends with ⟨parts, offered, ends⟩ | renames
        · rw [offered_normalize_block offered] at ends
          cases ends
        · exact .inr renames
      · exact .inr renames
    · exact .inl (Bool.eq_false_iff.mpr ends)

end Retype.Rewrite
