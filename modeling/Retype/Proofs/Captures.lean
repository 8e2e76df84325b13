import Mathlib.Data.List.Forall2
import Retype.Proofs.Drawing

/-! Scopes of the accesses that the first stage inserts.  What its rewriters put in the place of a tree is drawn from
what stands in it, so an access of the model is in the scope of a binding only where the read or write that it replaces
is.  Where that is so, the access denotes the binding. -/

namespace Retype.Rewrite
open Retype.Code

section Drawing
variable {c : Context}

theorem drawn_second {names names' : List String} (more : names' ⊆ names) {attrs old new : Tree} (rest : Trees)
    (silent : Silent c new) :
    Drawn c ((attrs :: new :: rest).map (Place.mk names')) ((attrs :: old :: rest).map (Place.mk names)) := by
  refine .keep ⟨rfl, more⟩ (.silent silent (.skip _ (.of_below ?_)))
  rw [List.forall₂_map_left_iff, List.forall₂_map_right_iff]
  exact List.forall₂_same.mpr fun t _ => ⟨rfl, more⟩

theorem drawn_metaAccess {names names' : List String} (more : names' ⊆ names) {t u : Tree}
    (made : Rewriter.metaAccess.made? c t = some u) :
    Drawn c (Place.inside ⟨names', u⟩) (Place.inside ⟨names, t⟩) := by
  obtain ⟨attrs, base, rest, rfl, -, rfl⟩ := (metaAccess_run {}).mp made
  rw [inside_new (by decide), inside_new (by decide)]
  exact drawn_second more rest (silent_of_fixed (fixed_fieldAccess _ rfl (fixed_var _)))

theorem drawn_accessorGet {names names' : List String} (more : names' ⊆ names) {t u : Tree}
    (made : Rewriter.accessorGet.made? c t = some u) :
    Drawn c (Place.inside ⟨names', u⟩) (Place.inside ⟨names, t⟩) := by
  cases (accessorGet_run {}).mp made with
  | state =>
    rw [inside_new (by decide), inside_new (by decide)]
    exact drawn_second more _ (silent_of_fixed fixed_resourceData)
  | @field _ _ _ _ _ _ _ steps =>
    have fixed := fixed_modelAccess (c := c) c.scope.varModel steps
    exact .of_silent (fun x mem => silent_of_fixed (fixed.inside x.tree (Place.tree_mem_inside mem))) _

theorem drawn_ownedValue {names names' : List String} (more : names' ⊆ names) {t value : Tree} (inner : Inner t value) :
    Drawn c [⟨names', ownedValue c value⟩] (Place.inside ⟨names, t⟩) := by
  unfold ownedValue
  dsimp only
  split
  · exact drawn_of_inner inner more
  · split
    · exact drawn_of_inner inner more
    · split
      · rename_i pointer given
        have path : pointer ∈ c.paths := List.mem_append_right _ (by rw [given]; exact List.mem_singleton.mpr rfl)
        exact drawn_callOf (silent_of_path path) (drawn_of_inner (inner.trans_left (under_stripDeref value)) more)
      · exact drawn_of_inner inner more

theorem drawn_accessorSet {names names' : List String} (more : names' ⊆ names) {t u : Tree}
    (made : Rewriter.accessorSet.made? c t = some u) :
    Drawn c (Place.inside ⟨names', u⟩) (Place.inside ⟨names, t⟩) := by
  obtain ⟨key, value, steps, found, -, rfl⟩ := (accessorSet_run {}).mp made
  have inner : Inner t value := (setStatement_eq_some.mp found).inner (by simp)
  have assigned : Drawn c [⟨names', .node (.expr .assign)
      [noAttrs, modelAccess c.scope.varModel steps, op "=", ownedValue c value]⟩] (Place.inside ⟨names, t⟩) := by
    refine .new {} ?_
    rw [inside_new (by decide)]
    exact .fixed .noAttrs (.fixed (fixed_modelAccess _ _) (.fixed (.leaf _) (drawn_ownedValue more inner)))
  rw [assignStmt, inside_new (by decide)]
  exact assigned.then_silent fun y mem => List.mem_singleton.mp mem ▸ silent_of_fixed (.leaf _)

theorem drawn_importGuard {names names' : List String} (more : names' ⊆ names) {t u : Tree}
    (made : Rewriter.importGuard.made? c t = some u) :
    Drawn c (Place.inside ⟨names', u⟩) (Place.inside ⟨names, t⟩) := by
  obtain ⟨_, _, first, id, -, called, rfl⟩ := (importGuard_run {}).mp made
  have inner : Inner t (stripIdCall id) :=
    (inner_of_callPath? called (by simp)).trans_left (under_stripIdCall id)
  have unsought : Unsought "resource_type" := by constructor <;> decide
  have nothing : Fixed normalize c (parenGroup []) := .group _ fun t mem => (List.not_mem_nil mem).elim
  have type : Fixed normalize c (methodCallOf (var "self") "resource_type" []) :=
    fixed_ownCall unsought (fixed_var _) nothing
  refine drawn_methodCallOf (.fixed type (.fixed (.leaf _) (drawn_of_inner inner ?_)))
  exact List.append_subset.mpr ⟨List.append_subset.mpr ⟨more, List.nil_subset _⟩, List.nil_subset _⟩

theorem drawn_functionRename {names names' : List String} (more : names' ⊆ names) {t u : Tree}
    (made : Rewriter.functionRename.made? c t = some u) :
    Drawn c (Place.inside ⟨names', u⟩) (Place.inside ⟨names, t⟩) := by
  obtain ⟨_, _, _, rest, rfl, -, rfl⟩ | ⟨_, _, rest, _, _, target, rfl, -, known, rfl⟩ :=
    (functionRename_run {}).mp made
  · rw [inside_new (by decide), inside_new (by decide)]
    exact drawn_second more _ (silent_of_fixed fixed_resourceData)
  · rw [inside_new (by decide), inside_new (by decide)]
    exact drawn_second more rest (silent_of_path (List.mem_append_left _ (mem_of_get? known)))

/-- A statement that is drawn from another and binds no other names. -/
structure Adapts (c : Context) (s' s : Tree) : Prop where
  names : letNames s' ⊆ letNames s
  drawn : ∀ {names names' : List String}, names' ⊆ names → Drawn c [⟨names', s'⟩] [⟨names, s⟩]

theorem Adapts.refl (s : Tree) : Adapts c s s := ⟨List.Subset.refl _, fun more => .keep ⟨rfl, more⟩ .nil⟩

theorem drawn_listed {ss' ss : Trees} (h : List.SublistForall₂ (Adapts c) ss' ss) {names names' : List String}
    (more : names' ⊆ names) : Drawn c (listed names' ss') (listed names ss) := by
  induction h generalizing names' names with
  | nil => exact .none _
  | cons first _ ih =>
    refine (first.drawn more).append (ih ?_)
    exact List.append_subset.mpr ⟨List.subset_append_of_subset_left _ more,
      List.subset_append_of_subset_right _ first.names⟩
  | cons_right _ ih => exact .skip _ (ih (List.subset_append_of_subset_left _ more))

theorem fixed_markAsGone : Fixed normalize c (markAsGone c) := by
  have unsought : Unsought "mark_as_gone" := by constructor <;> decide
  have call : Fixed normalize c
      (methodCallOf (varExpr c.config.metaVar) "mark_as_gone" [varExpr c.config.primaryIdentity]) :=
    fixed_ownCall unsought (fixed_var _) (.group _ fun t mem => List.mem_singleton.mp mem ▸ fixed_var _)
  refine .node (passes_normalize_iff.mpr (normal_returnStmt _ _ _ _)) (by decide) rfl fun t mem => ?_
  simp only [List.mem_cons, List.not_mem_nil, or_false] at mem
  rcases mem with rfl | rfl
  · refine .node (passes_normalize_iff.mpr {}) (by decide) rfl fun t mem => ?_
    simp only [List.mem_cons, List.not_mem_nil, or_false] at mem
    rcases mem with rfl | rfl | rfl
    · exact .noAttrs
    · exact .leaf _
    · exact call
  · exact .leaf _

theorem adapts_markAsGone (s : Tree) : Adapts c (markAsGone c) s :=
  ⟨List.nil_subset _, fun _ => .fixed fixed_markAsGone (.none _)⟩

theorem adapts_setIdentity {a : String} {s arg : Tree} (found : setIdArgument? a s = some arg) :
    Adapts c (setIdentity c arg) s := by
  refine ⟨List.nil_subset _, fun {names names'} more => ?_⟩
  have unsought : Unsought "set_id" := by constructor <;> decide
  have inner : Inner s (stripIdCall arg) := (inner_of_setIdArgument? found).trans_left (under_stripIdCall arg)
  have call : Drawn c [⟨names', methodCallOf (varExpr c.config.metaVar) "set_id" [stripIdCall arg]⟩]
      (Place.inside ⟨names, s⟩) := by
    refine .new (unsought.normal _ _) ?_
    rw [List.append_nil]
    exact drawn_methodCallOf (drawn_of_inner inner more)
  refine .new (unsought.normal_stmt _ _) (.into _ ?_)
  rw [setIdentity, closedStmt, inside_new (by decide), List.append_nil, List.append_nil]
  exact call.then_silent fun y mem => List.mem_singleton.mp mem ▸ silent_of_fixed (.leaf _)

theorem adapts_readToSuccess {s s' : Tree} (h : readToSuccess? c s = some s') : Adapts c s' s := by
  unfold readToSuccess? at h
  split at h
  · rename_i attrs w value semi
    rw [Option.ite_none_right_eq_some] at h
    obtain ⟨-, ⟨⟩⟩ := h
    refine ⟨List.Subset.refl _, fun {names names'} more => ?_⟩
    have answer : Drawn c [⟨names', .node (.expr .returnEarly) [attrs, w, okUnit]⟩]
        [⟨names, .node (.expr .returnEarly) [attrs, w, value]⟩] := by
      refine .new {} (.into _ ?_)
      rw [inside_new (by decide), inside_new (by decide)]
      exact .keep ⟨rfl, more⟩ (.keep ⟨rfl, more⟩ (.silent silent_okUnit (.skip _ .nil)))
    refine .new (normal_returnStmt _ _ _ _) (.into _ ?_)
    rw [inside_new (by decide), inside_new (by decide)]
    exact answer.append (.keep ⟨rfl, more⟩ .nil)
  · rename_i e semi _
    rw [Option.ite_none_right_eq_some] at h
    obtain ⟨-, ⟨⟩⟩ := h
    refine ⟨List.Subset.refl _, fun {names names'} more => ?_⟩
    have normal : Normal c (.node (.stmt .expr) [okUnit, semi]) := by
      refine normal_stmt fun _ write => ?_
      cases write with
      | closed _ call => cases call
    refine .new normal (.into _ ?_)
    rw [inside_new (by decide), inside_new (by decide)]
    exact .silent silent_okUnit (.skip _ (.keep ⟨rfl, more⟩ .nil))
  · cases h

theorem elideTimeouts_sublist (c : Context) (stmts : Trees) : (elideTimeouts c stmts).Sublist stmts := by
  fun_induction elideTimeouts c stmts with
  | case1 => exact .slnil
  | case2 s _ => exact .cons s .slnil
  | case3 s _ => exact .refl _
  | case4 s r rest _ _ ih => exact .cons s (.cons r ih)
  | case5 s r rest _ _ ih => exact .cons s ih
  | case6 s r rest _ ih => exact .cons_cons s ih

/-- What becomes of a statement of a block: it stays, the identifier is cleared or set on the metadata in its place, or
it answers success and not what the read answers. -/
inductive Restates (c : Context) : Tree → Tree → Prop
  | same (s : Tree) : Restates c s s
  | gone (s : Tree) : Restates c (markAsGone c) s
  | identity {a : String} {s arg : Tree} (found : setIdArgument? a s = some arg) : Restates c (setIdentity c arg) s
  | success {s s' : Tree} (answer : readToSuccess? c s = some s') : Restates c s' s

theorem Restates.adapts {s' s : Tree} (h : Restates c s' s) : Adapts c s' s := by
  cases h with
  | same => exact .refl _
  | gone => exact adapts_markAsGone s
  | identity found => exact adapts_setIdentity found
  | success answer => exact adapts_readToSuccess answer

/-- A statement of a list after identifiers were moved: kept, or new and no answer of the read. -/
def Moved (c : Context) (s' s : Tree) : Prop := s' = s ∨ Restates c s' s ∧ readToSuccess? c s' = none

theorem Moved.restates {s' s : Tree} (h : Moved c s' s) : Restates c s' s := by
  rcases h with rfl | ⟨restates, -⟩
  · exact .same _
  · exact restates

theorem moved_moveIdentity (a : String) (stmts : Trees) :
    List.SublistForall₂ (Moved c) (moveIdentity c a stmts) stmts := by
  fun_induction moveIdentity c a stmts with
  | case1 => exact .nil
  | case2 s rest _ ih => exact .cons (.inl rfl) ih
  | case3 s rest arg found _ => exact .cons (.inr ⟨.gone s, rfl⟩) .nil
  | case4 s rest arg found _ ih => exact .cons (.inr ⟨.identity found, rfl⟩) ih

theorem restates_replaceTrailingRead {moved stmts replaced : Trees} (h : List.SublistForall₂ (Moved c) moved stmts)
    (answer : replaceTrailingRead c moved = some replaced) : List.SublistForall₂ (Restates c) replaced stmts := by
  induction h generalizing replaced with
  | nil => cases answer
  | @cons s' s moved stmts own rest ih =>
    cases moved with
    | nil =>
      obtain ⟨last, read, rfl⟩ := Option.map_eq_some_iff.mp answer
      refine .cons ?_ .nil
      rcases own with rfl | ⟨-, unread⟩
      · exact .success read
      · rw [unread] at read
        cases read
    | cons t moved =>
      obtain ⟨replaced, later, rfl⟩ := Option.map_eq_some_iff.mp answer
      exact .cons own.restates (ih later)
  | cons_right _ ih => exact .cons_right (ih answer)

theorem moved_moveIdentities (stmts : Trees) :
    List.SublistForall₂ (Moved c) (moveIdentities c (elideTimeouts c stmts)) stmts := by
  have elided := elideTimeouts_sublist c stmts
  have moved : List.SublistForall₂ (Moved c) (moveIdentities c (elideTimeouts c stmts)) (elideTimeouts c stmts) := by
    unfold moveIdentities
    split
    · exact moved_moveIdentity _ _
    · exact List.sublistForall₂_iff.mpr ⟨_, List.forall₂_same.mpr fun s _ => .inl rfl, .refl _⟩
  obtain ⟨kept, same, sublist⟩ := List.sublistForall₂_iff.mp moved
  exact List.sublistForall₂_iff.mpr ⟨kept, same, sublist.trans elided⟩

theorem restates_controlFlow {t u : Tree} (made : Rewriter.controlFlow.made? c t = some u) : ∃ d stmts stmts',
    t = .node .block [.group d stmts] ∧ u = .node .block [.group d stmts'] ∧
      List.SublistForall₂ (Restates c) stmts' stmts := by
  have run : ((controlFlow c t).run {}).1 = some u := made
  unfold controlFlow at run
  split at run
  · rename_i d stmts
    have moved := moved_moveIdentities (c := c) stmts
    dsimp only at run
    split at run
    · rename_i answer
      cases run
      exact ⟨d, stmts, _, rfl, rfl, restates_replaceTrailingRead moved answer⟩
    · split at run
      · cases run
        obtain ⟨kept, same, sublist⟩ := List.sublistForall₂_iff.mp moved
        exact ⟨d, stmts, _, rfl, rfl, List.sublistForall₂_iff.mpr ⟨kept, same.imp fun _ _ => Moved.restates, sublist⟩⟩
      · cases run
  · cases run

theorem drawn_controlFlow {names names' : List String} (more : names' ⊆ names) {t u : Tree}
    (made : Rewriter.controlFlow.made? c t = some u) :
    Drawn c (Place.inside ⟨names', u⟩) (Place.inside ⟨names, t⟩) := by
  obtain ⟨d, stmts, stmts', rfl, rfl, restates⟩ := restates_controlFlow made
  obtain ⟨kept, same, sublist⟩ := List.sublistForall₂_iff.mp restates
  have adapts := List.sublistForall₂_iff.mpr ⟨kept, same.imp fun _ _ => Restates.adapts, sublist⟩
  rw [inside_new (by decide), inside_new (by decide)]
  refine .new {} (.into _ ?_)
  exact (drawn_listed adapts more).append .nil

/-- The reads and writes that are visited, each beside the place in the code that it comes from. -/
inductive Traced (c : Context) : List Place → List Place → Prop
  | nil : Traced c [] []
  | other {y : Place} {ys ws : List Place} (none : Inserts c y.tree → FromPath c y.tree) (rest : Traced c ys ws) :
      Traced c (y :: ys) ws
  | access {y w : Place} {ys ws : List Place} (inserts : Inserts c y.tree) (below : Below y w) (rest : Traced c ys ws) :
      Traced c (y :: ys) (w :: ws)

theorem drawn_made {x l : Place} (below : Below x l) : Drawn c (x.made normalize c).inside l.inside := by
  obtain ⟨names', t⟩ := x
  obtain ⟨names, t'⟩ := l
  obtain ⟨same, more⟩ := below
  obtain rfl : t = t' := same
  rw [Place.made]
  rcases normalize.made_cases c t with ⟨-, same⟩ | ⟨r, mem, made⟩
  · rw [same]
    exact .of_below (Below.inside ⟨rfl, more⟩)
  · simp only [normalize, List.mem_cons, List.not_mem_nil, or_false] at mem
    rcases mem with rfl | rfl | rfl | rfl | rfl | rfl
    · exact drawn_metaAccess more made
    · exact drawn_accessorGet more made
    · exact drawn_accessorSet more made
    · exact drawn_importGuard more made
    · exact drawn_controlFlow more made
    · exact drawn_functionRename more made

theorem traced_of_drawn {xs ys left : List Place} (arrives : Arrives normalize c xs ys left) {ls : List Place}
    (drawn : Drawn c xs ls) : ∃ ws, Selects ls ws ∧ Traced c ys ws := by
  induction arrives generalizing ls with
  | none => exact ⟨[], .none ls, .nil⟩
  | @visit x xs ys left _ ih =>
    generalize given : x :: xs = worklist at drawn
    induction drawn with
    | nil => cases given
    | @keep x l _ ls below rest =>
      cases given
      have onward := (drawn_made below).append rest
      by_cases inserts : Inserts c x.tree
      · obtain ⟨ws, selects, traced⟩ := ih onward
        exact ⟨l :: ws, .take l selects, .access inserts below traced⟩
      · obtain ⟨ws, selects, traced⟩ := ih onward
        exact ⟨ws, .into l selects, .other (fun h => (inserts h).elim) traced⟩
    | skip l _ ihDrawn =>
      obtain ⟨ws, selects, traced⟩ := ihDrawn given
      exact ⟨ws, .skip l selects, traced⟩
    | into l _ ihDrawn =>
      obtain ⟨ws, selects, traced⟩ := ihDrawn given
      exact ⟨ws, .into l selects, traced⟩
    | fresh own rest =>
      cases given
      obtain ⟨ws, selects, traced⟩ := ih rest
      exact ⟨ws, selects, .other (fun h => (own h).elim) traced⟩
    | silent silent rest =>
      cases given
      have within : ∀ y ∈ (x.made normalize c).inside, Silent c y.tree :=
        fun y mem => silent.part (Place.tree_mem_inside mem)
      obtain ⟨ws, selects, traced⟩ := ih ((Drawn.of_silent within []).append rest)
      exact ⟨ws, selects, .other (silent _ .refl) traced⟩

theorem Inserts.access {t : Tree} (h : Inserts c t) : Access c.scope.varModel (normalize.made c t) := by
  obtain ⟨u, access, made | made⟩ := h
  · have noField : Rewriter.metaAccess.made? c t = none := by
      refine Option.eq_none_iff_forall_ne_some.mpr fun v other => ?_
      obtain ⟨_, _, _, rfl, -⟩ := (metaAccess_run {}).mp other
      cases (accessorGet_run {}).mp made
    rw [Stage.made, normalize, List.findSome?_cons, noField, List.findSome?_cons, made]
    exact access
  · have isWrite : ∃ key value, WriteStmt c t [key, value] := by
      obtain ⟨key, value, _, found, -⟩ := (accessorSet_run {}).mp made
      exact ⟨key, value, setStatement_eq_some.mp found⟩
    obtain ⟨key, value, write⟩ := isWrite
    have noField : Rewriter.metaAccess.made? c t = none := by
      refine Option.eq_none_iff_forall_ne_some.mpr fun v other => ?_
      obtain ⟨_, _, _, rfl, -⟩ := (metaAccess_run {}).mp other
      cases write
    have noRead : Rewriter.accessorGet.made? c t = none := by
      refine Option.eq_none_iff_forall_ne_some.mpr fun v other => ?_
      cases (accessorGet_run {}).mp other <;> cases write
    rw [Stage.made, normalize, List.findSome?_cons, noField, List.findSome?_cons, noRead, List.findSome?_cons, made]
    exact access

theorem shield_modelAccess (model : String) (steps : List PathStep) :
    shield (modelAccess model steps) = modelAccess model steps := by
  have onwards : ∀ (steps : List PathStep) (base : Tree), shield base = base →
      shield (steps.foldl stepAccess base) = steps.foldl stepAccess base := by
    intro steps
    induction steps with
    | nil => exact fun _ same => same
    | cons step steps ih =>
      intro base same
      refine ih _ ?_
      cases step with
      | field f => exact congrArg (fieldAccess · (Naming.identifier f.name)) same
      | index i => exact congrArg (indexAccess · i) same
  exact onwards steps _ rfl

theorem Lands.access {y z : Place} (h : Lands normalize c y z) (inserts : Inserts c y.tree) :
    Access c.scope.varModel z.tree := by
  obtain ⟨t', walked, image⟩ := h.image
  have access := inserts.access
  generalize made : normalize.made c y.tree = u at access
  cases access with
  | read steps =>
    have fixed := fixed_modelAccess (c := c) c.scope.varModel steps
    rw [← made] at fixed
    obtain rfl := walked.eq_of_made_fixed fixed
    rw [made, shield_modelAccess, or_self] at image
    rw [image]
    exact .read steps
  | write steps value =>
    obtain ⟨_, _, _, rfl, inner⟩ := walked.of_made made (by decide)
    obtain - | ⟨assigned, - | ⟨semi, ⟨⟩⟩⟩ := inner.forall₂
    obtain ⟨_, rfl, parts⟩ := assigned.node_of_passes (passes_normalize_iff.mpr {}) (by decide)
    obtain - | ⟨attrs, - | ⟨target, - | ⟨mark, - | ⟨stored, ⟨⟩⟩⟩⟩⟩ := parts
    obtain rfl := semi.eq_leaf
    obtain rfl := attrs.eq_of_fixed .noAttrs
    obtain rfl := target.eq_of_fixed (fixed_modelAccess c.scope.varModel steps)
    obtain rfl := mark.eq_leaf
    rcases image with kept | shielded
    · rw [kept]
      exact .write steps _
    · have moved : ∀ target value, shield (assignStmt target value) = assignStmt (shield target) (shield value) :=
        fun _ _ => rfl
      rw [shielded]
      refine (moved _ _).symm ▸ ?_
      rw [shield_modelAccess]
      exact .write steps _

/-- The visits of a run beside the places that they have in its result, and beside places of the code for those at which
an access of the model is inserted.  No more names are in scope in the result than in the code. -/
inductive Accounted (c : Context) : List Place → List Place → List Place → Prop
  | nil : Accounted c [] [] []
  | other {y z : Place} {ys zs ws : List Place} (lands : Lands normalize c y z)
      (none : Inserts c y.tree → FromPath c y.tree) (rest : Accounted c ys zs ws) : Accounted c (y :: ys) (z :: zs) ws
  | access {y z w : Place} {ys zs ws : List Place} (lands : Lands normalize c y z) (inserts : Inserts c y.tree)
      (access : Access c.scope.varModel z.tree) (below : Below y w) (rest : Accounted c ys zs ws) :
      Accounted c (y :: ys) (z :: zs) (w :: ws)

theorem accounted_of_traced {ys zs ws : List Place} (traced : Traced c ys ws)
    (lands : List.Forall₂ (Lands normalize c) ys zs) : Accounted c ys zs ws := by
  induction traced generalizing zs with
  | nil =>
    cases lands
    exact .nil
  | other none _ ih =>
    obtain - | ⟨own, lands⟩ := lands
    exact .other own none (ih lands)
  | access inserts below _ ih =>
    obtain - | ⟨own, lands⟩ := lands
    exact .access own inserts (own.access inserts) below (ih lands)

/-- Each access of the model that a run inserts, but for those in paths of the configuration, takes the place of a read
or write of the code, no two of the same one, and no name is in scope at it that is not at the read or write. -/
theorem inserted_accesses_keep_scope {block block' : Tree} {s s' : State}
    (h : (normalize.run? c block).run s = some (block', s')) :
    ∃ ys zs ws, Arrives normalize c [⟨[], block⟩] ys [] ∧ Selects [⟨[], block'⟩] zs ∧ Selects [⟨[], block⟩] ws ∧
      Accounted c ys zs ws := by
  obtain ⟨ys, zs, arrives, selects, lands⟩ := Stage.paired_of_run? h
  obtain ⟨ws, source, traced⟩ := traced_of_drawn arrives (.keep ⟨rfl, List.Subset.refl _⟩ .nil)
  exact ⟨ys, zs, ws, arrives, selects, source, accounted_of_traced traced lands⟩

/-- A read of a widget's name becomes an access of the model. -/
theorem inserted_accesses_keep_scope_widget :
    let c : Context := ⟨{}, ⟨"WidgetModel", [⟨"WidgetModel", [⟨"name", "String", "name"⟩], true⟩]⟩, [], "widget_read",
      ⟨"widget_create", .create, "model", some "d"⟩, [], none⟩
    let block := blockOf [letMut "name" (methodCallOf (var "d") "get" [stringExpr "name"])]
    ∃ block' s', (normalize.run? c block).run {} = some (block', s') ∧
      ∃ ys zs ws, Arrives normalize c [⟨[], block⟩] ys [] ∧ Selects [⟨[], block'⟩] zs ∧ Selects [⟨[], block⟩] ws ∧
        Accounted c ys zs ws := by
  intro c block
  have ends : ((normalize.run? c block).run {}).isSome = true := by decide +kernel
  obtain ⟨⟨block', s'⟩, run⟩ := Option.isSome_iff_exists.mp ends
  exact ⟨block', s', run, inserted_accesses_keep_scope run⟩

/-- A local variable of the code that is called like the model is in scope where an access of the model is inserted. -/
theorem inserted_access_under_let :
    let c : Context := ⟨{}, ⟨"WidgetModel", [⟨"WidgetModel", [⟨"name", "String", "name"⟩], true⟩]⟩, [], "widget_read",
      ⟨"widget_create", .create, "model", some "d"⟩, [], none⟩
    let block := blockOf
      [letMut "model" (var "other"), letMut "name" (methodCallOf (var "d") "get" [stringExpr "name"])]
    ¬ ∀ ys, Arrives normalize c [⟨[], block⟩] ys [] →
      ∀ y ∈ ys, Inserts c y.tree → unraw (Naming.identifier c.scope.varModel) ∉ y.names := by
  intro c block always
  have ends : ((normalize.run? c block).run {}).isSome = true := by decide +kernel
  obtain ⟨⟨block', s'⟩, run⟩ := Option.isSome_iff_exists.mp ends
  obtain ⟨ys, _, arrives, -, -⟩ := Stage.paired_of_run? run
  obtain ⟨given, further⟩ := arrives.closed
  have onward : ∀ {names : List String} {t : Tree} {y : Place} (i : Nat), Normal c t → ⟨names, t⟩ ∈ ys →
      (Place.inside ⟨names, t⟩)[i]? = some y → y ∈ ys := by
    intro names t y i normal mem at_i
    have same := Stage.made_of_passes (passes_normalize_iff.mpr normal)
    have within := further _ mem
    rw [Place.made, same] at within
    exact within (List.mem_of_getElem? at_i)
  have finished : Normal c block := normal_block
    ⟨by decide +kernel, by decide +kernel, Option.isNone_iff_eq_none.mp (by decide +kernel)⟩
  have noWrite : Normal c (letMut "name" (methodCallOf (var "d") "get" [stringExpr "name"])) :=
    { guard := fun _ _ _ _ same => by cases same }
  have list := onward 0 finished (given (List.mem_singleton.mpr rfl)) rfl
  have bound := onward 1 {} list rfl
  have init := onward 3 noWrite bound rfl
  have read := onward 1 {} init rfl
  obtain ⟨steps, known⟩ : ∃ steps, keySteps c (stringExpr "name") = some steps :=
    Option.isSome_iff_exists.mp (by decide +kernel)
  have inserts : Inserts c (methodCallOf (var "d") "get" [stringExpr "name"]) :=
    ⟨_, .read steps, .inl ((accessorGet_run {}).mpr (.field (by decide +kernel) rfl known))⟩
  exact always ys arrives _ read inserts (by decide +kernel)

end Drawing

end Retype.Rewrite
