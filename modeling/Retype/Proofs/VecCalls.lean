import Retype.Proofs.Diagnostics
import Retype.Proofs.ExprNodes
import Retype.Proofs.FixedTrees
import Retype.Proofs.Normalize

/-! Calls of `vec!`.  A body that is a list of expressions is walked as the array of these expressions is, and no read
stays in it without a message.  A body that repeats an expression is no list, so the call stays closed, whatever a walk
would make of the array. -/

namespace Retype.Rewrite
open Retype.Code

/-- A macro call as an expression. -/
def macroExpr (attrs path bang : Tree) (d : Delim) (body : Trees) : Tree :=
  .node (.expr .macroCall) [attrs, .node .macroBody [path, bang, .group d body]]

/-- An expression in brackets: an array, or an element and how often it is repeated. -/
def bracketed (k : ExprKind) (attrs : Tree) (items : Trees) : Tree := .node (.expr k) [attrs, .group .bracket items]

/-- The body holds the elements of a list: it is not parsed yet, or it was walked before. -/
inductive ListBody : Trees → Trees → Prop
  | parsed {body elems : Trees} (bare : body.any (·.isNode) = false) (list : parseElements body = some elems) :
      ListBody body elems
  | walked {elems : Trees} (nodes : elems.any (·.isNode) = true) : ListBody elems elems

/-- `x; n` -/
def repetition (g : Rules) : Parser Trees := do
  let first ← Grammar.expr g true
  let semi ← Parser.eatOp ";"
  pure [first, semi, ← Grammar.expr g true]

/-- The body is not parsed yet and repeats an expression. -/
structure RepeatBody (body items : Trees) : Prop where
  bare : body.any (·.isNode) = false
  parsed : parseAll repetition (Trees.raw body) = some items

theorem not_isOp_comma {s : Trees} (semi : Parser.isOp ";" s = true) : Parser.isOp "," s = false := by
  cases s with
  | nil => rfl
  | cons t s =>
    obtain ⟨joint, rfl⟩ := Parser.eq_of_isOp (by decide) semi
    rfl

theorem isOp_of_eatOp {text : String} {s rest : Trees} {o : Tree} (eaten : (Parser.eatOp text).run s = some (o, rest)) :
    Parser.isOp text s = true := by
  change (if Parser.isOp text s = true then some (op text, s.drop text.length) else none) = _ at eaten
  exact (Option.ite_none_right_eq_some.mp eaten).1

theorem first_of_commaSeparated {member : Parser Tree} {s rest : Trees} {ms : Trees} (nonempty : s ≠ [])
    (run : (Parser.commaSeparated member).run s = some (ms, rest)) : ∃ first later,
      member.run s = some (first, later) ∧ ms.head? = some first ∧ (later = [] ∨ Parser.isOp "," later = true) := by
  obtain ⟨t, ts, rfl⟩ := List.exists_cons_of_ne_nil nonempty
  obtain ⟨⟨front, s₁⟩, step, run⟩ := Option.bind_eq_some_iff.mp run
  obtain ⟨⟨more, s₂⟩, -, same⟩ := Option.bind_eq_some_iff.mp run
  obtain ⟨⟨first, later⟩, read, step⟩ := Option.bind_eq_some_iff.mp step
  refine ⟨first, later, read, ?_⟩
  cases later with
  | nil =>
    cases step
    cases same
    exact ⟨rfl, .inl rfl⟩
  | cons u later =>
    obtain ⟨⟨comma, s₃⟩, eaten, step⟩ := Option.bind_eq_some_iff.mp step
    cases step
    cases same
    exact ⟨rfl, .inr (isOp_of_eatOp eaten)⟩

theorem run_of_parseAll {α : Type} {rule : Rules → Parser α} {s : Trees} {a : α} (parsed : parseAll rule s = some a) :
    (rule (rules (levelsFor s))).run s = some (a, []) := by
  unfold parseAll Parser.all at parsed
  split at parsed
  · rename_i run
    cases parsed
    exact run
  · cases parsed

theorem RepeatBody.no_list {body items : Trees} (h : RepeatBody body items) : parseElements body = none := by
  refine Option.eq_none_iff_forall_ne_some.mpr fun elems list => ?_
  obtain ⟨⟨first, later⟩, read, rest⟩ := Option.bind_eq_some_iff.mp (run_of_parseAll h.parsed)
  obtain ⟨⟨semi, s₁⟩, eaten, -⟩ := Option.bind_eq_some_iff.mp rest
  have semicolon : Parser.isOp ";" later = true := isOp_of_eatOp eaten
  have nonempty : Trees.raw body ≠ [] := by
    intro empty
    have parsed := h.parsed
    have nothing : (parseAll repetition []).isNone = true := by decide +kernel
    rw [empty] at parsed
    rw [parsed] at nothing
    cases nothing
  obtain ⟨first', later', read', -, ends⟩ := first_of_commaSeparated nonempty (run_of_parseAll list)
  cases Option.some.inj (read.symm.trans read')
  rcases ends with rfl | comma
  · cases semicolon
  · rw [not_isOp_comma semicolon] at comma
    cases comma

theorem eq_nil_of_parseElements {body elems : Trees} (list : parseElements body = some elems)
    (noNodes : elems.any (·.isNode) = false) : Trees.raw body = [] ∧ elems = [] := by
  have run := run_of_parseAll list
  by_cases empty : Trees.raw body = []
  · rw [empty] at run
    cases run
    exact ⟨empty, rfl⟩
  · obtain ⟨first, later, read, head, -⟩ := first_of_commaSeparated empty run
    have node : first.isNode = true := Grammar.buildsNode_expr _ true _ first later read
    have any := List.any_eq_false.mp noNodes first (List.mem_of_mem_head? head)
    exact absurd node any

section Walks
variable {stage : Stage} {c : Context} {path bang : Tree} {d : Delim} {body elems : Trees}

theorem skips_bracketed {k : ExprKind} (plain : k = .macroCall ∨ k = .array ∨ k = .repeated) (parts : Trees)
    (r : Rewriter) : Skips c (.node (.expr k) parts) r := by
  rcases plain with rfl | rfl | rfl <;> cases r <;> exact fun s => rfl

theorem walk_bracketed {k : ExprKind} (plain : k = .macroCall ∨ k = .array ∨ k = .repeated) (depth : Nat)
    (parts : Trees) (s : State) : (stage.walk c (depth + 1) (.node (.expr k) parts)).run s =
      ((parts.mapM (stage.walk c depth)).run s).map fun (parts, s) => (.node (.expr k) parts, s) := by
  have offered : (stage.offer c (.node (.expr k) parts)).run s = (.node (.expr k) parts, s) :=
    rewriteFirst_skips (fun r _ => skips_bracketed plain parts r) s
  have regrouped (parts : Trees) : regroup (.expr k) parts = parts := by
    rcases plain with rfl | rfl | rfl <;> rfl
  rw [Stage.walk, StateT.run_bind, Run.run_total, offered]
  simp only [Option.bind_eq_bind, Option.bind_some]
  rw [StateT.run_bind, Option.map_eq_bind]
  simp only [regrouped]
  rfl

theorem walk_group (stage : Stage) (c : Context) (d : Delim) (body : Trees) (depth : Nat) (s : State) :
    (stage.walk c (depth + 1) (.group d body)).run s =
      ((body.mapM (stage.walk c depth)).run s).map fun (body, s) => (.group d body, s) := by
  rw [Stage.walk, Option.map_eq_bind]
  rfl

theorem offer_macroBody (parts : Trees) (s : State) :
    (stage.offer c (.node .macroBody parts)).run s = (.node .macroBody parts, s) := rfl

theorem walk_vec_closed (closed : vecElements? (.node .macroBody [path, bang, .group d body]) = none) (depth : Nat)
    (s : State) : (stage.walk c (depth + 1) (.node .macroBody [path, bang, .group d body])).run s =
      some (.node .macroBody [path, bang, .group d (Trees.raw body)], s) := by
  rw [Stage.walk, StateT.run_bind, Run.run_total, offer_macroBody]
  simp only [Option.bind_eq_bind, Option.bind_some, closed]
  rfl

theorem walk_vec_elements (found : vecElements? (.node .macroBody [path, bang, .group d body]) = some elems)
    (depth : Nat) (s : State) : (stage.walk c (depth + 1) (.node .macroBody [path, bang, .group d body])).run s =
      ((elems.mapM (stage.walk c depth)).run s).map fun (elems, s) =>
        (.node .macroBody [path, bang, .group d elems], s) := by
  rw [Stage.walk, StateT.run_bind, Run.run_total, offer_macroBody]
  simp only [Option.bind_eq_bind, Option.bind_some, found]
  rw [Option.map_eq_bind]
  rfl

theorem walk_vec_list (named : path.pathIdent? = some "vec") (list : ListBody body elems) (depth : Nat) (s : State) :
    (stage.walk c (depth + 1) (.node .macroBody [path, bang, .group d body])).run s =
      ((elems.mapM (stage.walk c depth)).run s).map fun (elems, s) =>
        (.node .macroBody [path, bang, .group d elems], s) := by
  cases list with
  | walked nodes => exact walk_vec_elements (vecElements?_of_any named nodes) depth s
  | parsed bare list =>
    by_cases nodes : elems.any (·.isNode) = true
    · refine walk_vec_elements (vecElements?_eq_some.mpr ⟨named, ?_⟩) depth s
      rw [bare, if_neg Bool.false_ne_true, list, Option.filter_some, if_pos nodes]
    · rw [Bool.not_eq_true] at nodes
      obtain ⟨empty, rfl⟩ := eq_nil_of_parseElements list nodes
      have closed : vecElements? (.node .macroBody [path, bang, .group d body]) = none := by
        rw [vecElements?, if_pos (beq_iff_eq.mpr named), bare, if_neg Bool.false_ne_true, list]
        rfl
      rw [walk_vec_closed closed, empty]
      rfl

end Walks

section Reads
variable {stage : Stage} {c : Context} {t u : Tree} {s s' : State}

theorem exists_of_isRead (read : isRead c t = true) : ∃ attrs receiver dot turbofish d body key,
    t = .node (.expr .methodCall) [attrs, receiver, dot, word "get", turbofish, .group d body] ∧
      c.isAccessor receiver = true ∧ Trees.members body = [key] := by
  obtain ⟨⟨m, args⟩, found, isGet⟩ := (Option.any_eq_true _ _).mp read
  simp only [Bool.and_eq_true, beq_iff_eq] at isGet
  obtain ⟨rfl, one⟩ := isGet
  obtain ⟨key, rfl⟩ := List.length_eq_one_iff.mp one
  obtain ⟨attrs, receiver, dot, turbofish, d, body, same, accessor, members⟩ := accessorCall?_eq_some.mp found
  exact ⟨attrs, receiver, dot, turbofish, d, body, key, same, accessor, members⟩

theorem isRead_of_made (made : Made c t u) : isRead c u = false := by
  rw [Bool.eq_false_iff]
  intro read
  obtain ⟨attrs, receiver, dot, turbofish, d, body, key, rfl, -, -⟩ := exists_of_isRead read
  cases made with
  | place access => rcases access with (same | same | same) <;> cases same
  | moved listed => exact absurd listed (by decide)

theorem recorded_of_accessorGet (read : isRead c t = true) (left : (Rewriter.accessorGet.apply c t).run s = (none, s')) :
    s'.unresolved.length = s.unresolved.length + 1 := by
  obtain ⟨attrs, receiver, dot, turbofish, d, body, key, rfl, accessor, members⟩ := exists_of_isRead read
  simp only [Rewriter.apply, accessorGet, word, accessor, members, Bool.not_true, Bool.false_eq_true, if_false,
    show stateMethods.contains "get" = false from rfl, beq_self_eq_true, if_true, StateT.run_bind, resolveKey_run] at left
  cases known : keySteps c key with
  | some steps =>
    rw [known] at left
    cases left
  | none =>
    rw [known] at left
    cases left
    exact List.length_append

theorem length_unresolved_apply (r : Rewriter) (c : Context) (t : Tree) (s : State) :
    s.unresolved.length ≤ ((r.apply c t).run s).2.unresolved.length := by
  obtain ⟨answer, messages, after, run, recording⟩ := r.recording c t s
  rw [run]
  cases recording with
  | still => exact Nat.le_refl _
  | missed => exact Nat.le_of_lt (by simp [State.addUnresolved])
  | noted => exact Nat.le_of_eq (congrArg List.length (unresolved_note s _).symm)
  | untyped => exact Nat.le_of_lt (by simp [unresolved_note, State.addUnresolved])

theorem rewriteFirst_reads (run : (stage.rewriteFirst c t).run s = (u, s')) :
    s.unresolved.length ≤ s'.unresolved.length ∧ (isRead c u = true → u = t ∧
      (.accessorGet ∈ stage → s.unresolved.length + 1 ≤ s'.unresolved.length)) := by
  induction stage generalizing s with
  | nil =>
    cases run
    exact ⟨Nat.le_refl _, fun _ => ⟨rfl, fun mem => by cases mem⟩⟩
  | cons r rs ih =>
    have grown := length_unresolved_apply r c t s
    rcases applied : (r.apply c t).run s with ⟨_ | v, s₁⟩
    · rw [applied] at grown
      rw [rewriteFirst_passed applied] at run
      obtain ⟨more, kept⟩ := ih run
      refine ⟨Nat.le_trans grown more, fun read => ?_⟩
      obtain ⟨rfl, recorded⟩ := kept read
      refine ⟨rfl, fun mem => ?_⟩
      rcases List.mem_cons.mp mem with rfl | mem
      · rw [← recorded_of_accessorGet read applied]
        exact more
      · exact Nat.le_trans (Nat.add_le_add_right grown 1) (recorded mem)
    · rw [applied] at grown
      rw [rewriteFirst_applied applied] at run
      cases run
      refine ⟨grown, fun read => ?_⟩
      have made : r.made? c t = some u := by rw [← Rewriter.made?_run r c t s, applied]
      rw [isRead_of_made (Rewriter.made made)] at read
      cases read

theorem offer_reads (get : .accessorGet ∈ stage) (offered : (stage.offer c t).run s = (u, s')) :
    s.unresolved.length + (isRead c u).toNat ≤ s'.unresolved.length := by
  unfold Stage.offer at offered
  split at offered
  · obtain ⟨grown, kept⟩ := rewriteFirst_reads offered
    cases read : isRead c u with
    | false => exact grown
    | true => exact (kept read).2 get
  · rename_i closed
    cases offered
    have noRead : isRead c t = false := by
      rw [Bool.eq_false_iff]
      intro read
      obtain ⟨_, _, _, _, _, _, _, rfl, -⟩ := exists_of_isRead read
      exact closed rfl
    rw [noRead]
    exact Nat.le_refl _

theorem WalksAll.reads {ts ts' : Trees} (get : .accessorGet ∈ stage) (h : WalksAll stage c ts s ts' s') :
    s.unresolved.length + (nodesAll ts').countP (isRead c) ≤ s'.unresolved.length := by
  induction h with
  | nil => exact Nat.le_refl _
  | leaf offered _ ih =>
    have own := offer_reads get offered
    rw [nodesAll, nodes, List.nil_append]
    omega
  | group offered _ _ ihInner ih =>
    have own := offer_reads get offered
    rw [nodesAll, nodes, List.countP_append]
    omega
  | elements offered _ _ _ ihInner ih =>
    have own := offer_reads get offered
    rw [nodesAll, nodes, List.countP_append]
    omega
  | closed offered _ _ ih =>
    have own := offer_reads get offered
    rw [nodesAll, nodes_closeMacro, List.nil_append]
    omega
  | @node _ _ parts parts' _ k _ _ _ _ offered opened inner _ ihInner ih =>
    have own := offer_reads get offered
    -- the parts keep their outline, so the node is a read after the walk exactly if it was one before
    have same : isRead c (.node k (regroup k parts')) = isRead c (.node k parts) :=
      (outlined_isRead c).congr ((outlines_regroup k parts').trans inner.outlines_eq)
    rw [nodesAll, nodes_of_ne opened, List.countP_append, List.countP_cons, same,
      (outlined_isRead c).unshielded.countP_regroup]
    cases read : isRead c (.node k parts) with
    | false =>
      rw [if_neg Bool.false_ne_true]
      omega
    | true =>
      rw [read, Bool.toNat_true] at own
      rw [if_pos rfl]
      omega

end Reads

def walkList (stage : Stage) (c : Context) (attrs : Tree) (elems : Trees) :
    (depth : Nat) → StateT State Option (Tree × Trees)
  | depth + 2 => do pure (← stage.walk c (depth + 1) attrs, ← elems.mapM (stage.walk c depth))
  | _ => failure

theorem walk_of_list {stage : Stage} {c : Context} {k : ExprKind} {x : Tree} {elems : Trees} (wrap : Trees → Tree)
    (plain : k = .macroCall ∨ k = .array ∨ k = .repeated)
    (inner : ∀ depth s, (stage.walk c (depth + 1) x).run s =
      ((elems.mapM (stage.walk c depth)).run s).map fun (elems, s) => (wrap elems, s))
    (attrs : Tree) (depth : Nat) (s : State) : (stage.walk c depth (.node (.expr k) [attrs, x])).run s =
      ((walkList stage c attrs elems depth).run s).map fun ((attrs, elems), s) =>
        (.node (.expr k) [attrs, wrap elems], s) := by
  match depth with
  | 0 => rfl
  | 1 =>
    rw [walk_bracketed plain]
    rfl
  | depth + 2 =>
    rw [walk_bracketed plain]
    simp only [walkList, List.mapM_cons, List.mapM_nil, StateT.run_bind, StateT.run_pure, Option.bind_eq_bind,
      Option.pure_def]
    cases (stage.walk c (depth + 1) attrs).run s with
    | none => rfl
    | some walked =>
      obtain ⟨attrs', s₁⟩ := walked
      simp only [Option.bind_some, inner]
      cases (elems.mapM (stage.walk c depth)).run s₁ <;> rfl

theorem bracketed_of_walk {stage : Stage} {c : Context} {k : ExprKind} {attrs t : Tree} {items : Trees} {depth : Nat}
    {s s' : State} (plain : k = .macroCall ∨ k = .array ∨ k = .repeated)
    (run : (stage.walk c depth (bracketed k attrs items)).run s = some (t, s')) : ∃ n attrs' s₁ items',
      depth = n + 2 ∧ (stage.walk c (n + 1) attrs).run s = some (attrs', s₁) ∧ t = bracketed k attrs' items' := by
  have walked := walk_of_list (.group .bracket) plain (walk_group stage c .bracket items) attrs depth s
  obtain ⟨⟨⟨attrs', items'⟩, s₂⟩, inner, same⟩ := Option.map_eq_some_iff.mp (walked.symm.trans run)
  match depth with
  | 0 | 1 => cases inner
  | n + 2 =>
    obtain ⟨⟨attrs', s₁⟩, first, inner⟩ := Option.bind_eq_some_iff.mp inner
    obtain ⟨⟨items', s₂⟩, -, inner⟩ := Option.bind_eq_some_iff.mp inner
    cases inner
    cases same
    exact ⟨n, attrs', s₁, items', rfl, first, rfl⟩

theorem walk_closed {stage : Stage} {c : Context} {attrs attrs' path bang : Tree} {d : Delim} {body : Trees} {n : Nat}
    {s s₁ : State} (closed : vecElements? (.node .macroBody [path, bang, .group d body]) = none)
    (first : (stage.walk c (n + 1) attrs).run s = some (attrs', s₁)) :
    (stage.walk c (n + 2) (macroExpr attrs path bang d body)).run s =
      some (macroExpr attrs' path bang d (Trees.raw body), s₁) := by
  rw [macroExpr, walk_bracketed (.inl rfl)]
  simp only [List.mapM_cons, List.mapM_nil, StateT.run_bind, StateT.run_pure, Option.bind_eq_bind, first,
    Option.bind_some, walk_vec_closed closed]
  rfl

/-- A `vec!` of a list is walked as the array of the list is: both come to the same elements in the same state, and if
reads are looked for, no more of them stay than there are new messages.  A `vec!` of a repetition stays as it is,
which is what the walk of the repetition makes of it exactly if that changes and records nothing. -/
theorem vec_calls_walked_iff {path : Tree} (named : path.pathIdent? = some "vec") (stage : Stage) (c : Context)
    (depth : Nat) (attrs bang : Tree) (d : Delim) (body : Trees) (s : State) :
    (∀ elems, ListBody body elems → ∃ inner : Option ((Tree × Trees) × State),
      (stage.walk c depth (bracketed .array attrs elems)).run s =
        inner.map (fun ((attrs, elems), s) => (bracketed .array attrs elems, s)) ∧
      (stage.walk c depth (macroExpr attrs path bang d body)).run s =
        inner.map (fun ((attrs, elems), s) => (macroExpr attrs path bang d elems, s)) ∧
      (.accessorGet ∈ stage → ∀ attrs' elems' s', inner = some ((attrs', elems'), s') →
        s.unresolved.length + (nodesAll elems').countP (isRead c) ≤ s'.unresolved.length)) ∧
    ∀ items, RepeatBody body items → ∀ t s',
      (stage.walk c depth (bracketed .repeated attrs items)).run s = some (t, s') →
      ∃ attrs' s₁ items', (stage.walk c (depth - 1) attrs).run s = some (attrs', s₁) ∧
        t = bracketed .repeated attrs' items' ∧
        (stage.walk c depth (macroExpr attrs path bang d body)).run s =
          some (macroExpr attrs' path bang d (Trees.raw body), s₁) ∧
        ((∃ left, (stage.walk c depth (macroExpr attrs path bang d body)).run s =
            some (macroExpr attrs' path bang d left, s') ∧ Trees.raw left = Trees.raw items') ↔
          s' = s₁ ∧ Trees.raw items' = Trees.raw body) := by
  refine ⟨fun elems list => ⟨(walkList stage c attrs elems depth).run s, ?array, ?call, ?reads⟩, ?repeated⟩
  case array => exact walk_of_list (.group .bracket) (.inr (.inl rfl)) (walk_group stage c .bracket elems) attrs depth s
  case call =>
    exact walk_of_list (fun elems => .node .macroBody [path, bang, .group d elems]) (.inl rfl)
      (walk_vec_list named list) attrs depth s
  case reads =>
    intro get attrs' elems' s' inner
    have array := walk_of_list (.group .bracket) (.inr (.inl rfl)) (walk_group stage c .bracket elems) attrs depth s
    rw [inner] at array
    have reads := (Stage.walksAll_of_walk array).reads get
    have inside : nodesAll [bracketed .array attrs' elems'] =
        bracketed .array attrs' elems' :: (nodes attrs' ++ nodesAll elems') := by
      simp only [bracketed, nodesAll, nodes, List.append_nil]
    have visited := congrArg (List.countP (isRead c)) inside
    rw [List.countP_cons, List.countP_append] at visited
    change s.unresolved.length + (nodesAll [bracketed .array attrs' elems']).countP (isRead c) ≤ _ at reads
    omega
  case repeated =>
    intro items repeats t s' run
    obtain ⟨n, attrs', s₁, items', rfl, first, rfl⟩ := bracketed_of_walk (.inr (.inr rfl)) run
    have closed : vecElements? (.node .macroBody [path, bang, .group d body]) = none := by
      rw [vecElements?, if_pos (beq_iff_eq.mpr named), repeats.bare, if_neg Bool.false_ne_true, repeats.no_list]
      rfl
    have call := walk_closed closed first
    refine ⟨attrs', s₁, items', first, rfl, call, ?_⟩
    rw [call]
    constructor
    · rintro ⟨left, same, tokens⟩
      cases same
      exact ⟨rfl, by rw [← tokens, trees_raw_raw]⟩
    · rintro ⟨rfl, tokens⟩
      exact ⟨_, rfl, by rw [trees_raw_raw, tokens]⟩

/-- `vec![d.get("name"), b]` becomes `vec![model.name, b]`, and `vec![d.get("name"); 2]` stays, with no message, although
`[d.get("name"); 2]` becomes `[model.name; 2]`. -/
theorem vec_calls_walked_iff_names :
    let c := Context.make {} ⟨"WidgetModel", [⟨"WidgetModel", [⟨"name", "String", "name"⟩], true⟩]⟩ [] "widget_read"
      ⟨"widget_create", .create, "model", some "d"⟩
    let call (body : Trees) : Tree := macroExpr noAttrs (pathOf "vec") (op "!") .bracket body
    let read : Trees := [word "d", op ".", word "get", .group .paren [lit "\"name\""]]
    let list : Trees := read ++ [op ",", word "b"]
    let twice : Trees := read ++ [op ";", lit "2"]
    (pathOf "vec").pathIdent? = some "vec" ∧
      (∃ elems, ListBody list elems ∧ ∃ t s', (normalize.walk c 12 (call list)).run {} = some (t, s') ∧
        t.text = "vec ! [model . name , b]") ∧
      ∃ items, RepeatBody twice items ∧ ∃ items' s',
        (normalize.walk c 12 (bracketed .repeated noAttrs items)).run {} =
          some (bracketed .repeated noAttrs items', s') ∧
        Trees.text [.group .bracket (Trees.raw items')] = "[model . name ; 2]" ∧
        (normalize.walk c 12 (call twice)).run {} = some (call (Trees.raw twice), {}) ∧
        ¬∃ left, (normalize.walk c 12 (call twice)).run {} = some (call left, s') ∧ Trees.raw left = Trees.raw items' := by
  intro c call read list twice
  have listed : (parseElements list).isSome = true := by decide +kernel
  obtain ⟨elems, isList⟩ := Option.isSome_iff_exists.mp listed
  have walked : ((normalize.walk c 12 (call list)).run {}).any (·.1.text == "vec ! [model . name , b]") = true := by
    decide +kernel
  obtain ⟨⟨t, s⟩, run, text⟩ := (Option.any_eq_true _ _).mp walked
  have repeats : ((parseAll repetition (Trees.raw twice)).any fun items =>
      ((normalize.walk c 12 (bracketed .repeated noAttrs items)).run {}).any
        (Trees.text ·.1.raw == "[model . name ; 2]")) = true := by decide +kernel
  obtain ⟨items, parsed, walkedTwice⟩ := (Option.any_eq_true _ _).mp repeats
  obtain ⟨⟨u, s'⟩, runTwice, textTwice⟩ := (Option.any_eq_true _ _).mp walkedTwice
  have isRepeat : RepeatBody twice items := ⟨by decide +kernel, parsed⟩
  have named : (pathOf "vec").pathIdent? = some "vec" := rfl
  obtain ⟨attrs', s₁, items', first, rfl, closed, agrees⟩ :=
    (vec_calls_walked_iff named normalize c 12 noAttrs (op "!") .bracket twice {}).2 items isRepeat u s' runTwice
  cases first
  have left : Trees.text [.group .bracket (Trees.raw items')] = "[model . name ; 2]" := beq_iff_eq.mp textTwice
  refine ⟨rfl, ⟨elems, .parsed (by decide +kernel) isList, t, s, run, beq_iff_eq.mp text⟩, items, isRepeat, items', s',
    runTwice, left, closed, fun agree => ?_⟩
  have other : Trees.text [.group .bracket (Trees.raw twice)] ≠ "[model . name ; 2]" := by decide +kernel
  rw [(agrees.mp agree).2] at left
  exact other left

end Retype.Rewrite
