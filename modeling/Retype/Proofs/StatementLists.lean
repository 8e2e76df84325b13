import Retype.Proofs.NormalForm

/-! What becomes of one list of statements.  Timeouts go, identifiers are set on the metadata, each statement in its
place, and the end of the list is a clear that returns, a success in place of a read, or what it was.  Nothing else
is lost. -/

namespace Retype.Rewrite
open Retype.Code

def withBefore (before : Option Tree) (stmts : Trees) : List (Option Tree × Tree) :=
  (before :: stmts.map some).zip stmts

/-- An acquisition, or a release right after one. -/
def isTimed (c : Context) (p : Option Tree × Tree) : Bool :=
  isAcquisition c p.2 || isRelease c p.2 && p.1.any (isAcquisition c)

/-- The statements of a list that are not about timeouts. -/
def keptStmts (c : Context) (before : Option Tree) (stmts : Trees) : Trees :=
  ((withBefore before stmts).filter fun p => !isTimed c p).map (·.2)

theorem keptStmts_cons (c : Context) (before : Option Tree) (s : Tree) (rest : Trees) : keptStmts c before (s :: rest) =
    if isTimed c (before, s) then keptStmts c (some s) rest else s :: keptStmts c (some s) rest := by
  have front : withBefore before (s :: rest) = (before, s) :: withBefore (some s) rest := rfl
  rw [keptStmts, front, List.filter_cons]
  cases isTimed c (before, s) <;> rfl

theorem isAcquisition_of_isRelease {c : Context} {s : Tree} (release : isRelease c s = true) :
    isAcquisition c s = false := by
  unfold isRelease at release
  split at release
  · rfl
  · rfl
  · cases release

theorem keptStmts_before {c : Context} {s : Tree} {rest : Trees} (noRelease : isRelease c s = false)
    (b b' : Option Tree) : keptStmts c b (s :: rest) = keptStmts c b' (s :: rest) := by
  rw [keptStmts_cons, keptStmts_cons, isTimed, isTimed, noRelease, Bool.false_and, Bool.false_and]

theorem elideTimeouts_eq (c : Context) (stmts : Trees) (before : Option Tree)
    (plain : before.any (isAcquisition c) = false) : elideTimeouts c stmts = keptStmts c before stmts := by
  fun_induction elideTimeouts c stmts generalizing before with
  | case1 => rfl
  | case2 s timed =>
    rw [keptStmts_cons, isTimed, timed]
    rfl
  | case3 s kept =>
    rw [keptStmts_cons, isTimed, plain, Bool.eq_false_iff.mpr kept, Bool.and_false]
    rfl
  | case4 s r rest timed release ih =>
    have noAcquisition : isAcquisition c r = false := isAcquisition_of_isRelease release
    rw [keptStmts_cons, isTimed, timed, keptStmts_cons, isTimed, release, Option.any_some, timed, Bool.true_and,
      Bool.or_true]
    exact ih (some r) noAcquisition
  | case5 s r rest timed noRelease ih =>
    rw [keptStmts_cons, isTimed, timed, keptStmts_before (Bool.eq_false_iff.mpr noRelease) (some s) none]
    exact ih none rfl
  | case6 s r rest kept ih =>
    have noAcquisition : isAcquisition c s = false := Bool.eq_false_iff.mpr kept
    rw [keptStmts_cons, isTimed, plain, noAcquisition, Bool.and_false, ih (some s) noAcquisition]
    rfl

/-- `d.set_id(x);`, parentheses and references around `d` and parentheses around the call aside. -/
inductive SetsId (a : String) (x : Tree) : Tree → Prop
  | call {e semi receiver turbofish : Tree} (semicolon : semi.isAbsent = false)
      (called : e.stripParens.methodCall? = some ⟨receiver, "set_id", turbofish, [x]⟩)
      (accessor : receiver.bare.isVar a = true) : SetsId a x (.node (.stmt .expr) [e, semi])

/-- A value without the `.id()` that ends it. -/
inductive DropsId : Tree → Tree → Prop
  | called (attrs receiver dot turbofish : Tree) (d : Delim) :
      DropsId (.node (.expr .methodCall) [attrs, receiver, dot, word "id", turbofish, .group d []]) receiver
  | plain {e : Tree} (noCall : ∀ attrs receiver dot turbofish d,
      e ≠ .node (.expr .methodCall) [attrs, receiver, dot, word "id", turbofish, .group d []]) : DropsId e e

/-- What becomes of a statement in its place. -/
inductive Renames (c : Context) (a : String) : Tree → Tree → Prop
  | set {s x x' : Tree} (sets : SetsId a x s) (drops : DropsId x.bare x') :
      Renames c a s (closedStmt (methodCallOf (varExpr c.config.metaVar) "set_id" [x']))
  | other {s : Tree} (noSet : ∀ x, ¬SetsId a x s) : Renames c a s s

/-- `d.set_id("");` -/
def ClearsId (a : String) (s : Tree) : Prop := ∃ x, SetsId a x s ∧ Naming.stringText x = some ""

def EndsList (tail : Trees) : Prop := tail = [] ∨ ∃ t, tail = [t] ∧ isBareSuccess t = true

/-- What becomes of the statements that are not about timeouts: each is renamed in its place, up to a clear with nothing
but a bare success after it. -/
inductive Moves (c : Context) (a : String) : Trees → Trees → Prop
  | gone {front front' tail : Trees} {s : Tree} (renamed : List.Forall₂ (Renames c a) front front')
      (clear : ClearsId a s) (ends : EndsList tail) : Moves c a (front ++ s :: tail) (front' ++ [markAsGone c])
  | whole {stmts stmts' : Trees} (renamed : List.Forall₂ (Renames c a) stmts stmts')
      (goesOn : ∀ front s tail, stmts = front ++ s :: tail → ClearsId a s → ¬EndsList tail) : Moves c a stmts stmts'

section Identifiers
variable {c : Context} {a : String}

theorem setIdArgument?_iff {s x : Tree} : setIdArgument? a s = some x ↔ SetsId a x s := by
  rw [setIdArgument?_eq_some]
  constructor
  · rintro ⟨e, semi, receiver, turbofish, rfl, semicolon, called, accessor⟩
    exact .call semicolon called accessor
  · rintro ⟨semicolon, called, accessor⟩
    exact ⟨_, _, _, _, rfl, semicolon, called, accessor⟩

theorem SetsId.unique {s x y : Tree} (h : SetsId a x s) (h' : SetsId a y s) : x = y :=
  Option.some.inj ((setIdArgument?_iff.mpr h).symm.trans (setIdArgument?_iff.mpr h'))

theorem isTerminal_iff {tail : Trees} : isTerminal tail = true ↔ EndsList tail := by
  match tail with
  | [] => simp [isTerminal, EndsList]
  | [t] => simp [isTerminal, EndsList]
  | _ :: _ :: _ => simp [isTerminal, EndsList]

theorem dropsId_stripIdCall (e : Tree) : DropsId e.bare (stripIdCall e) := by
  induction e using stripIdCall.induct with
  | case1 attrs d e ih =>
    rw [stripIdCall]
    exact ih
  | case2 attrs o m e ih =>
    rw [stripIdCall]
    exact ih
  | case3 attrs receiver dot m turbofish d args called =>
    rw [stripIdCall, if_pos called]
    obtain ⟨rfl, rfl⟩ : m = "id" ∧ args = [] := by
      rwa [Bool.and_eq_true, beq_iff_eq, List.isEmpty_iff] at called
    exact .called attrs receiver dot turbofish d
  | case4 attrs receiver dot m turbofish d args other =>
    rw [stripIdCall, if_neg other]
    refine .plain fun _ _ _ _ _ same => other ?_
    cases same
    rfl
  | case5 e noParen noReference noCall =>
    have bare : e.bare = e := by
      rw [Tree.bare]
      · exact noParen
      · exact noReference
    have same : stripIdCall e = e := by
      rw [stripIdCall]
      · exact noParen
      · exact noReference
      · exact noCall
    rw [bare, same]
    exact .plain fun _ _ _ _ _ => noCall _ _ _ _ _ _ _

theorem Moves.cons {s s' : Tree} {rest rest' : Trees} (renames : Renames c a s s')
    (goesOn : ClearsId a s → ¬EndsList rest) (h : Moves c a rest rest') : Moves c a (s :: rest) (s' :: rest') := by
  cases h with
  | gone renamed clear ends => exact .gone (.cons renames renamed) clear ends
  | whole renamed later =>
    refine .whole (.cons renames renamed) fun front t tail same clear => ?_
    cases front with
    | nil =>
      cases same
      exact goesOn clear
    | cons _ front =>
      cases same
      exact later front t tail rfl clear

theorem moves_moveIdentity (c : Context) (a : String) (stmts : Trees) : Moves c a stmts (moveIdentity c a stmts) := by
  fun_induction moveIdentity c a stmts with
  | case1 =>
    refine .whole .nil fun front s tail same => ?_
    cases front <;> cases same
  | case2 s rest noSet ih =>
    have noSet : ∀ x, ¬SetsId a x s := fun x sets => by
      rw [setIdArgument?_iff.mpr sets] at noSet
      cases noSet
    have noClear : ¬ClearsId a s := by
      rintro ⟨x, sets, -⟩
      exact noSet x sets
    exact .cons (.other noSet) (fun clear => (noClear clear).elim) ih
  | case3 s rest x set ends =>
    rw [Bool.and_eq_true, isTerminal_iff, beq_iff_eq] at ends
    exact .gone .nil ⟨x, setIdArgument?_iff.mp set, ends.2⟩ ends.1
  | case4 s rest x set goesOn ih =>
    have sets : SetsId a x s := setIdArgument?_iff.mp set
    refine .cons (.set sets (dropsId_stripIdCall x)) (fun clear ends => goesOn ?_) ih
    obtain ⟨y, sets', empty⟩ := clear
    rw [sets'.unique sets] at empty
    rw [Bool.and_eq_true, isTerminal_iff, beq_iff_eq]
    exact ⟨ends, empty⟩

theorem eq_of_setsId_setIdentity {id x : Tree} (sets : SetsId a x (setIdentity c id)) :
    a = Naming.identifier c.config.metaVar := by
  obtain ⟨_, _, receiver, _, ⟨⟩, -, called, isVar⟩ := setIdArgument?_eq_some.mp (setIdArgument?_iff.mpr sets)
  have same : varExpr c.config.metaVar = receiver := congrArg MethodCall.receiver (Option.some.inj called)
  rw [← same] at isVar
  have named : (some (Naming.identifier c.config.metaVar) == some a) = true := isVar
  exact (Option.some.inj (beq_iff_eq.mp named)).symm

theorem not_setsId_of_mem_moveIdentity (other : a ≠ Naming.identifier c.config.metaVar) {stmts : Trees} {t : Tree}
    (mem : t ∈ moveIdentity c a stmts) (x : Tree) : ¬SetsId a x t := by
  intro sets
  rcases mem_moveIdentity mem with ⟨-, noSet⟩ | rfl | ⟨id, rfl⟩
  · rw [setIdArgument?_iff.mpr sets] at noSet
    cases noSet
  · obtain ⟨-, called, -⟩ := sets
    cases called
  · exact other (eq_of_setsId_setIdentity sets)

end Identifiers

/-- `read(d, …)` -/
def ReadsBack (c : Context) (a : String) (e : Tree) : Prop :=
  ∃ first rest, e.callPath? = some (c.readFn, first :: rest) ∧ first.bare.isVar a = true

/-- A read at the end with success in its place. -/
inductive ToSuccess (c : Context) (a : String) : Tree → Tree → Prop
  | returned {attrs w value semi : Tree} (read : ReadsBack c a value) :
      ToSuccess c a (.node (.stmt .expr) [.node (.expr .returnEarly) [attrs, w, value], semi])
        (.node (.stmt .expr) [.node (.expr .returnEarly) [attrs, w, okUnit], semi])
  | tail {e semi : Tree} (noSemicolon : semi.isAbsent = true) (read : ReadsBack c a e) :
      ToSuccess c a (.node (.stmt .expr) [e, semi]) (.node (.stmt .expr) [okUnit, semi])

/-- What becomes of a list by its last statement. -/
inductive Answers (c : Context) (a : String) : Trees → Trees → Prop
  | read {last last' : Tree} (init : Trees) (success : ToSuccess c a last last') :
      Answers c a (init ++ [last]) (init ++ [last'])
  | other {stmts : Trees} (noRead : ∀ init last, stmts = init ++ [last] → ∀ t, ¬ToSuccess c a last t) :
      Answers c a stmts stmts

section Ends
variable {c : Context} {a : String}

theorem isReadCall_iff (accessor : c.scope.accessor = some a) {e : Tree} : isReadCall c e = true ↔ ReadsBack c a e := by
  have named (first : Tree) : c.isAccessor first = first.bare.isVar a := by rw [Context.isAccessor, accessor]
  unfold isReadCall
  constructor
  · intro read
    split at read
    · rename_i path first rest called
      rw [Bool.and_eq_true, beq_iff_eq, named] at read
      obtain ⟨rfl, isVar⟩ := read
      exact ⟨first, rest, called, isVar⟩
    · cases read
  · rintro ⟨first, rest, called, isVar⟩
    rw [called]
    simp only [beq_self_eq_true, named, isVar, Bool.and_self]

theorem readToSuccess?_iff (accessor : c.scope.accessor = some a) {s t : Tree} :
    readToSuccess? c s = some t ↔ ToSuccess c a s t := by
  constructor
  · intro made
    unfold readToSuccess? at made
    split at made
    · obtain ⟨read, ⟨⟩⟩ := Option.ite_none_right_eq_some.mp made
      exact .returned ((isReadCall_iff accessor).mp read)
    · obtain ⟨tail, ⟨⟩⟩ := Option.ite_none_right_eq_some.mp made
      obtain ⟨noSemicolon, read⟩ := Bool.and_eq_true_iff.mp tail
      exact .tail noSemicolon ((isReadCall_iff accessor).mp read)
    · cases made
  · rintro (read | ⟨noSemicolon, read⟩)
    · rw [readToSuccess?, if_pos ((isReadCall_iff accessor).mpr read)]
    · have isRead := (isReadCall_iff accessor).mpr read
      rw [readToSuccess?, noSemicolon, isRead]
      · rfl
      · rintro attrs w value rfl
        cases isRead

theorem answers_replaceTrailingRead (accessor : c.scope.accessor = some a) (stmts : Trees) :
    Answers c a stmts ((replaceTrailingRead c stmts).getD stmts) := by
  obtain rfl | ⟨init, last, rfl⟩ := List.eq_nil_or_concat' stmts
  · refine .other fun init last same => ?_
    cases init <;> cases same
  · rw [replaceTrailingRead_concat]
    cases made : readToSuccess? c last with
    | some last' => exact .read init ((readToSuccess?_iff accessor).mp made)
    | none =>
      refine .other fun init' last' same t success => ?_
      obtain ⟨-, same⟩ := List.append_inj' same rfl
      cases same
      rw [(readToSuccess?_iff accessor).mpr success] at made
      cases made

theorem ToSuccess.not_setsId {s t : Tree} (h : ToSuccess c a s t) (x : Tree) : ¬SetsId a x t := by
  rintro ⟨semicolon, called, -⟩
  cases h with
  | returned => cases called
  | tail noSemicolon =>
    rw [noSemicolon] at semicolon
    cases semicolon

theorem Answers.not_setsId {stmts made : Trees} (h : Answers c a stmts made)
    (noSet : ∀ t ∈ stmts, ∀ x, ¬SetsId a x t) : ∀ t ∈ made, ∀ x, ¬SetsId a x t := by
  cases h with
  | read init success =>
    intro t mem
    rcases List.mem_append.mp mem with mem | mem
    · exact noSet t (List.mem_append_left _ mem)
    · rw [List.mem_singleton.mp mem]
      exact success.not_setsId
  | other => exact noSet

theorem controlFlow_run_list (c : Context) (d : Delim) (stmts : Trees) (s : State) :
    let moved := moveIdentities c (elideTimeouts c stmts)
    ∃ t?, (controlFlow c (.node .block [.group d stmts])).run s = (t?, s) ∧
      t?.getD (.node .block [.group d stmts]) = .node .block [.group d ((replaceTrailingRead c moved).getD moved)] := by
  dsimp only
  rw [controlFlow]
  cases replaceTrailingRead c (moveIdentities c (elideTimeouts c stmts)) with
  | some last => exact ⟨_, rfl, rfl⟩
  | none =>
    refine ⟨_, rfl, ?_⟩
    split
    · rfl
    · rename_i unchanged
      rw [Bool.or_eq_true, not_or, Bool.not_eq_true, Bool.not_eq_true] at unchanged
      have elided := elideTimeouts_of_none unchanged.1
      rw [elided] at unchanged ⊢
      rw [moveIdentities_of_none unchanged.2]
      rfl

end Ends

/-- What becomes of a list of statements: those that are not about timeouts, in order, each as it was or with the
identifier set on the metadata, up to a clear that ends the list, and at the end success for a read.  No statement
sets the identifier on the accessor any more, unless the metadata goes by the name of the accessor. -/
theorem statement_lists_refined {c : Context} {a : String} (accessor : c.scope.accessor = some a) (d : Delim)
    (stmts : Trees) (s : State) : ∃ t? moved made,
      (controlFlow c (.node .block [.group d stmts])).run s = (t?, s) ∧
      t?.getD (.node .block [.group d stmts]) = .node .block [.group d made] ∧
      Moves c a (keptStmts c none stmts) moved ∧ Answers c a moved made ∧
      (a ≠ Naming.identifier c.config.metaVar → ∀ t ∈ made, ∀ x, ¬SetsId a x t) := by
  obtain ⟨t?, run, made⟩ := controlFlow_run_list c d stmts s
  have moved : moveIdentities c (elideTimeouts c stmts) = moveIdentity c a (keptStmts c none stmts) := by
    rw [moveIdentities, accessor, elideTimeouts_eq c stmts none rfl]
  rw [moved] at made
  have answers := answers_replaceTrailingRead accessor (moveIdentity c a (keptStmts c none stmts))
  exact ⟨t?, _, _, run, made, moves_moveIdentity c a _, answers, fun other =>
    answers.not_setsId fun t mem => not_setsId_of_mem_moveIdentity other mem⟩

/-- `let mut done = timeouts::for_create(d); defer!(); d.set_id(&known.id()); return widget_read(d, meta)` -/
def createStmts : Trees :=
  [letMut "done" (callOf (exprOf (pathOfNames ["timeouts", "for_create"])) [var "d"]),
    .node (.stmt .macroCall) [noAttrs, .node .macroBody [pathOf "defer", op "!", .group .paren []], op ";"],
    closedStmt (methodCallOf (var "d") "set_id" [referenceOf false (methodCallOf (var "known") "id" [])]),
    tailStmt (returnOf (callOf (var "widget_read") [var "d", var "meta"]))]

theorem statement_lists_refined_create :
    let c := Context.make {} ⟨"WidgetModel", []⟩ [] "widget_read" ⟨"widget_create", .create, "model", some "d"⟩
    c.scope.accessor = some "d" ∧
      (keptStmts c none createStmts).length = 2 ∧
      ∃ t? moved made, (controlFlow c (blockOf createStmts)).run {} = (t?, {}) ∧
        t?.getD (blockOf createStmts) = blockOf made ∧ Moves c "d" (keptStmts c none createStmts) moved ∧
        Answers c "d" moved made ∧ (∀ t ∈ made, ∀ x, ¬SetsId "d" x t) ∧
        (blockOf made).text = "\x7b meta . set_id (known) ; return Ok (()) \x7d" := by
  intro c
  obtain ⟨t?, moved, made, run, same, moves, answers, noSet⟩ :=
    statement_lists_refined (c := c) (a := "d") rfl .brace createStmts {}
  refine ⟨rfl, by decide +kernel, t?, moved, made, run, same, moves, answers, noSet (by decide +kernel), ?_⟩
  have text : (((controlFlow c (blockOf createStmts)).run {}).1.getD (blockOf createStmts)).text =
      "\x7b meta . set_id (known) ; return Ok (()) \x7d" := by decide +kernel
  have answer : ((controlFlow c (blockOf createStmts)).run {}).1 = t? := congrArg Prod.fst run
  rw [answer] at text
  exact (congrArg Tree.text same).symm.trans text

/-- Parentheses around an identifier go as references do, a text is empty in other words than `""` too, and metadata
by a raw name may share the name of the accessor. -/
theorem identifiers_not_by_letter :
    let made (config : Config) (accessor : String) (id : Tree) : Tree :=
      let c := Context.make config ⟨"WidgetModel", []⟩ [] "widget_read" ⟨"widget_create", .create, "model", some accessor⟩
      let block := blockOf [closedStmt (methodCallOf (var accessor) "set_id" [id])]
      ((controlFlow c block).run {}).1.getD block
    let renamed (metadata : String) (id : Tree) : Tree :=
      blockOf [closedStmt (methodCallOf (var metadata) "set_id" [id])]
    let owned := callOf (exprOf (pathOfNames ["String", "from"])) [stringExpr ""]
    ((made {} "d" (parenOf (var "a"))).text = "\x7b meta . set_id (a) ; \x7d" ∧
      (renamed "meta" (parenOf (var "a"))).text = "\x7b meta . set_id ((a)) ; \x7d") ∧
    ((made {} "d" owned).text = "\x7b return meta . mark_as_gone (id) ; \x7d" ∧
      (renamed "meta" owned).text = "\x7b meta . set_id (String :: from (\"\")) ; \x7d") ∧
    ((made { metaVar := "r#data" } "data" (var "a")).text = "\x7b data . set_id (a) ; \x7d" ∧ "data" ≠ "r#data") := by
  decide +kernel

end Retype.Rewrite
