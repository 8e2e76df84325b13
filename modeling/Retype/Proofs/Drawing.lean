import Mathlib.Logic.Relation
import Retype.Proofs.Landings

/-! What is drawn from code.  The reads and writes that a walk comes to in new code are those that stood in the code it
was made of: parts of it, each at most once and in their order, in new shapes that bind no names. -/

namespace Retype.Rewrite
open Retype.Code

/-- An access of the model, as a value or assigned to. -/
inductive Access (model : String) : Tree → Prop
  | read (steps : List PathStep) : Access model (modelAccess model steps)
  | write (steps : List PathStep) (value : Tree) : Access model (assignStmt (modelAccess model steps) value)

/-- A tree that gives way to an access of the model. -/
def Inserts (c : Context) (t : Tree) : Prop :=
  ∃ u, Access c.scope.varModel u ∧ (Rewriter.accessorGet.made? c t = some u ∨ Rewriter.accessorSet.made? c t = some u)

/-- What the first stage comes to from a tree. -/
abbrev Within (c : Context) : Tree → Tree → Prop := Relation.ReflTransGen fun t u => u ∈ inside (normalize.made c t)

/-- The paths of the configuration, that calls are renamed to or that make values owned ones. -/
def Context.paths (c : Context) : Trees := c.renames.map (·.2) ++ c.pointer.toList

/-- A tree that the stage comes to in a path of the configuration, not in code of the function. -/
def FromPath (c : Context) (t : Tree) : Prop := ∃ path ∈ c.paths, Within c path t

/-- A tree in which no read and no write of the function stands. -/
def Silent (c : Context) (t : Tree) : Prop := ∀ u, Within c t u → Inserts c u → FromPath c u

theorem Inserts.not_passes {c : Context} {t : Tree} (h : Inserts c t) : ¬ Passes normalize c t := by
  obtain ⟨u, -, made | made⟩ := h <;> intro passes
  · rw [passes .accessorGet (by decide)] at made
    cases made
  · rw [passes .accessorSet (by decide)] at made
    cases made

theorem Silent.part {c : Context} {t u : Tree} (h : Silent c t) (mem : u ∈ inside (normalize.made c t)) : Silent c u :=
  fun v within inserts => h v (.head mem within) inserts

theorem Silent.of_made {c : Context} {t : Tree} (own : ¬ Inserts c t)
    (within : ∀ u ∈ inside (normalize.made c t), Silent c u) : Silent c t := by
  intro u reached inserts
  rcases reached.cases_head with rfl | ⟨v, mem, onward⟩
  · exact (own inserts).elim
  · exact within v mem u onward inserts

theorem silent_of_path {c : Context} {path : Tree} (mem : path ∈ c.paths) : Silent c path :=
  fun _ within _ => ⟨path, mem, within⟩

theorem Fixed.inside {stage : Stage} {c : Context} {t : Tree} (h : Fixed stage c t) :
    ∀ u ∈ inside t, Fixed stage c u := by
  intro u mem
  cases h with
  | leaf => cases mem
  | group _ inner => exact inner u mem
  | elements list inner =>
    rw [Rewrite.inside, list, Option.getD_some] at mem
    exact inner u mem
  | closed noList =>
    rw [Rewrite.inside, noList, Option.getD_none] at mem
    cases mem
  | node _ opened _ inner =>
    rw [inside_of_ne opened] at mem
    exact inner u mem

theorem silent_of_fixed {c : Context} {t : Tree} (h : Fixed normalize c t) : Silent c t := by
  intro u within inserts
  have fixed : Fixed normalize c u := by
    clear inserts
    induction within with
    | refl => exact h
    | tail _ mem fixed =>
      rw [Stage.made_of_passes fixed.passes] at mem
      exact fixed.inside _ mem
  exact (inserts.not_passes fixed.passes).elim

/-- A tree directly inside another that is no item. -/
def StepsIn (t u : Tree) : Prop := u ∈ inside t ∧ ∀ k parts, t ≠ .node (.item k) parts

/-- A tree that stands in another, with no item around it. -/
abbrev Under : Tree → Tree → Prop := Relation.ReflTransGen StepsIn

/-- A tree that stands in another and is not all of it. -/
abbrev Inner : Tree → Tree → Prop := Relation.TransGen StepsIn

/-- A node with its parts directly inside, that see what is in scope around it. -/
def isOpen : Kind → Bool
  | .macroBody | .item _ => false
  | _ => true

theorem steps_part {k : Kind} {parts : Trees} {t : Tree} (opened : isOpen k = true) (mem : t ∈ parts) :
    StepsIn (.node k parts) t := by
  constructor
  · rw [inside_of_ne]
    · exact mem
    · rintro rfl
      cases opened
  · rintro i parts ⟨⟩
    cases opened

theorem steps_member {d : Delim} {body : Trees} {t : Tree} (mem : t ∈ body) : StepsIn (.group d body) t :=
  ⟨mem, by rintro i parts ⟨⟩⟩

theorem inner_part {k : Kind} {parts : Trees} {t : Tree} (opened : isOpen k = true) (i : Nat)
    (at_i : parts[i]? = some t) : Inner (.node k parts) t :=
  .single (steps_part opened (List.mem_of_getElem? at_i))

theorem inner_member {k : Kind} {parts body : Trees} {d : Delim} {t : Tree} (opened : isOpen k = true) (i : Nat)
    (at_i : parts[i]? = some (.group d body)) (mem : t ∈ body) : Inner (.node k parts) t :=
  .tail (inner_part opened i at_i) (steps_member mem)

theorem inner_paren {attrs e : Tree} {d : Delim} : Inner (.node (.expr .paren) [attrs, .group d [e]]) e :=
  inner_member rfl 1 rfl (List.mem_singleton.mpr rfl)

theorem under_stripParens (e : Tree) : Under e e.stripParens := by
  fun_induction Tree.stripParens e with
  | case1 attrs d e ih => exact inner_paren.to_reflTransGen.trans ih
  | case2 => exact .refl

theorem mem_of_mem_members {args : Trees} {arg : Tree} (mem : arg ∈ Trees.members args) : arg ∈ args :=
  List.mem_of_mem_filter mem

theorem inner_of_callPath? {t arg : Tree} {path : String} {args : Trees} (called : t.callPath? = some (path, args))
    (mem : arg ∈ args) : Inner t arg := by
  obtain ⟨_, _, _, _, _, same, -, rfl⟩ := callPath?_eq_some.mp called
  have call := under_stripParens t
  rw [same] at call
  exact .trans_right call (inner_member rfl 2 rfl (mem_of_mem_members mem))

theorem SetCall.inner {c : Context} {e arg : Tree} {args : Trees} (h : SetCall c e args) (mem : arg ∈ args) :
    Inner e arg := by
  induction h with
  | call accessor => exact inner_member rfl 5 rfl (mem_of_mem_members mem)
  | paren _ ih => exact inner_paren.trans (ih mem)
  | tried _ ih => exact (inner_part rfl 1 rfl).trans (ih mem)
  | mapErr _ ih => exact (inner_part rfl 1 rfl).trans (ih mem)

theorem WriteStmt.inner {c : Context} {t arg : Tree} {args : Trees} (h : WriteStmt c t args) (mem : arg ∈ args) :
    Inner t arg := by
  cases h with
  | closed _ call => exact (inner_part rfl 0 rfl).trans (call.inner mem)
  | discarded _ call => exact (inner_part rfl 3 rfl).trans ((inner_part rfl 1 rfl).trans (call.inner mem))
  | @guarded _ _ cond _ _ _ _ _ _ _ _ _ _ _ _ bare _ call =>
    have tested := under_stripParens cond
    rw [bare] at tested
    have value := Relation.TransGen.trans_right tested (inner_part rfl 4 rfl)
    exact (inner_part rfl 0 rfl).trans ((inner_part rfl 2 rfl).trans (value.trans (call.inner mem)))

theorem under_methodCall {e : Tree} {call : MethodCall} (found : e.methodCall? = some call) :
    Under e call.receiver := by
  obtain ⟨_, _, _, _, rfl, -⟩ := methodCall?_eq_some.mp found
  exact (inner_part rfl 1 rfl).to_reflTransGen

theorem under_stripDeref (e : Tree) : Under e (stripDeref e) := by
  have bare := under_stripParens e
  unfold stripDeref
  split
  · rename_i same
    rw [same] at bare
    split
    · exact bare.trans ((inner_part rfl 2 rfl).to_reflTransGen.trans (under_stripParens _))
    · exact bare
  · split
    · rename_i found
      split
      · exact bare.trans ((under_methodCall found).trans (under_stripParens _))
      · exact bare
    · exact bare

theorem under_stripIdCall (e : Tree) : Under e (stripIdCall e) := by
  fun_induction stripIdCall e with
  | case1 _ _ _ ih => exact inner_paren.to_reflTransGen.trans ih
  | case2 _ _ _ _ ih => exact (inner_part rfl 3 rfl).to_reflTransGen.trans ih
  | case3 => exact (inner_part rfl 1 rfl).to_reflTransGen
  | case4 => exact .refl
  | case5 => exact .refl

theorem inner_of_setIdArgument? {a : String} {t arg : Tree} (found : setIdArgument? a t = some arg) : Inner t arg := by
  obtain ⟨e, _, _, _, rfl, -, called, -⟩ := setIdArgument?_eq_some.mp found
  obtain ⟨_, _, _, body, same, args⟩ := methodCall?_eq_some.mp called
  have mem : arg ∈ body := mem_of_mem_members (args ▸ List.mem_singleton.mpr rfl)
  have bare := under_stripParens e
  rw [same] at bare
  exact (inner_part rfl 0 rfl).trans (.trans_right bare (inner_member rfl 5 rfl mem))

/-- The reads and writes that a walk comes to from the first places all stand in the second ones, each in its own place
and in the same order, where no fewer names are in scope. -/
inductive Drawn (c : Context) : List Place → List Place → Prop
  | nil : Drawn c [] []
  | keep {x l : Place} {xs ls : List Place} (below : Below x l) (rest : Drawn c xs ls) : Drawn c (x :: xs) (l :: ls)
  | skip {xs ls : List Place} (l : Place) (rest : Drawn c xs ls) : Drawn c xs (l :: ls)
  | into {xs ls : List Place} (l : Place) (rest : Drawn c xs (l.inside ++ ls)) : Drawn c xs (l :: ls)
  | fresh {x : Place} {xs ls : List Place} (own : ¬ Inserts c x.tree)
      (rest : Drawn c ((x.made normalize c).inside ++ xs) ls) : Drawn c (x :: xs) ls
  | silent {x : Place} {xs ls : List Place} (silent : Silent c x.tree) (rest : Drawn c xs ls) : Drawn c (x :: xs) ls

section Drawing
variable {c : Context}

namespace Drawn

theorem none (ls : List Place) : Drawn c [] ls := by
  induction ls with
  | nil => exact .nil
  | cons l ls ih => exact .skip l ih

theorem append {xs ls xs' ls' : List Place} (h : Drawn c xs ls) (h' : Drawn c xs' ls') :
    Drawn c (xs ++ xs') (ls ++ ls') := by
  induction h with
  | nil => exact h'
  | keep below _ ih => exact .keep below ih
  | skip l _ ih => exact .skip l ih
  | into l _ ih => exact .into l (by rwa [List.append_assoc] at ih)
  | fresh own _ ih => exact .fresh own (by rwa [List.append_assoc] at ih)
  | silent silent _ ih => exact .silent silent ih

theorem before {xs ls : List Place} (h : Drawn c xs ls) (more : List Place) : Drawn c xs (ls ++ more) := by
  simpa only [List.append_nil] using h.append (.none more)

theorem of_mem {xs ls : List Place} {l : Place} (h : Drawn c xs [l]) (mem : l ∈ ls) : Drawn c xs ls := by
  induction ls with
  | nil => cases mem
  | cons l' ls ih =>
    rcases List.mem_cons.mp mem with rfl | mem
    · exact h.before ls
    · exact .skip l' (ih mem)

theorem of_below {xs ls : List Place} (h : List.Forall₂ Below xs ls) : Drawn c xs ls := by
  induction h with
  | nil => exact .nil
  | cons below _ ih => exact .keep below ih

theorem of_silent {xs : List Place} (silent : ∀ x ∈ xs, Silent c x.tree) (ls : List Place) : Drawn c xs ls := by
  induction xs with
  | nil => exact .none ls
  | cons x xs ih =>
    rw [List.forall_mem_cons] at silent
    exact .silent silent.1 (ih silent.2)

theorem then_silent {x : Place} {xs ls : List Place} (first : Drawn c [x] ls) (silent : ∀ y ∈ xs, Silent c y.tree) :
    Drawn c (x :: xs) ls := by
  have both := first.append (of_silent silent [])
  rwa [List.append_nil] at both

theorem made {names : List String} {t u : Tree} {xs ls : List Place} (own : ¬ Inserts c t)
    (made : normalize.made c t = u) (rest : Drawn c (Place.inside ⟨names, u⟩ ++ xs) ls) :
    Drawn c (⟨names, t⟩ :: xs) ls := by
  subst made
  exact .fresh own rest

theorem new {names : List String} {t : Tree} {xs ls : List Place} (normal : Normal c t)
    (rest : Drawn c (Place.inside ⟨names, t⟩ ++ xs) ls) : Drawn c (⟨names, t⟩ :: xs) ls :=
  have passes := passes_normalize_iff.mpr normal
  made (fun inserts => inserts.not_passes passes) (Stage.made_of_passes passes) rest

theorem fixed {names : List String} {t : Tree} {xs ls : List Place} (fixed : Fixed normalize c t)
    (rest : Drawn c xs ls) : Drawn c (⟨names, t⟩ :: xs) ls :=
  .silent (silent_of_fixed fixed) rest

end Drawn

theorem exists_mem_listed (names : List String) {ts : Trees} {t : Tree} (mem : t ∈ ts) :
    ∃ l ∈ listed names ts, l.tree = t ∧ names ⊆ l.names := by
  induction ts generalizing names with
  | nil => cases mem
  | cons u ts ih =>
    rcases List.mem_cons.mp mem with rfl | mem
    · exact ⟨_, List.mem_cons_self, rfl, List.Subset.refl _⟩
    · obtain ⟨l, mem, tree, more⟩ := ih (names ++ letNames u) mem
      exact ⟨l, List.mem_cons_of_mem _ mem, tree, List.Subset.trans (List.subset_append_left _ _) more⟩

theorem exists_mem_inside (names : List String) {t u : Tree} (steps : StepsIn t u) :
    ∃ l ∈ Place.inside ⟨names, t⟩, l.tree = u ∧ names ⊆ l.names := by
  obtain ⟨mem, noItem⟩ := steps
  cases t with
  | leaf token => cases mem
  | group d body => exact exists_mem_listed names mem
  | node k parts =>
    obtain ⟨i, at_i⟩ := List.mem_iff_getElem?.mp mem
    have place : (Place.inside ⟨names, .node k parts⟩)[i]? = some ⟨seenNames names parts k i, u⟩ := by
      rw [inside_node, List.getElem?_mapIdx, at_i, Option.map_some]
    refine ⟨_, List.mem_of_getElem? place, rfl, ?_⟩
    unfold seenNames
    split
    · exact (noItem _ _ rfl).elim
    · exact List.subset_append_left _ _

theorem drawn_of_inner {names names' : List String} {t u : Tree} (inner : Inner t u) (more : names' ⊆ names) :
    Drawn c [⟨names', u⟩] (Place.inside ⟨names, t⟩) := by
  induction inner using Relation.TransGen.head_induction_on generalizing names with
  | single step =>
    obtain ⟨l, mem, same, wider⟩ := exists_mem_inside names step
    have below : Below ⟨names', u⟩ l := ⟨same.symm, List.Subset.trans more wider⟩
    exact .of_mem (.keep below .nil) mem
  | head step _ ih =>
    obtain ⟨l, mem, same, wider⟩ := exists_mem_inside names step
    refine .of_mem (.into l ?_) mem
    rw [List.append_nil]
    have within := ih (List.Subset.trans more wider)
    rwa [← same] at within

/-- Kinds of new nodes.  They bind no names. -/
def newKinds : List Kind :=
  [.block, .stmt .expr, .expr .assign, .expr .call, .expr .field, .expr .methodCall, .expr .returnEarly]

theorem inside_new {names : List String} {k : Kind} {parts : Trees} (mem : k ∈ newKinds) :
    Place.inside ⟨names, .node k parts⟩ = parts.map (Place.mk names) := by
  have plain : k ≠ .macroBody ∧ ∀ i, seenNames names parts k i = names := by
    simp only [newKinds, List.mem_cons, List.not_mem_nil, or_false] at mem
    rcases mem with rfl | rfl | rfl | rfl | rfl | rfl | rfl <;> exact ⟨by decide, fun i => List.append_nil names⟩
  rw [inside_node, inside_of_ne plain.1]
  refine List.ext_getElem? fun i => ?_
  rw [List.getElem?_mapIdx, List.getElem?_map, plain.2]

theorem fixed_absent : Fixed normalize c Tree.absent := .of_not_offered rfl (by decide) fun _ mem => by cases mem

theorem fixed_fieldAccess {base : Tree} (name : String) (noDowncast : isClientDowncast c.config.clientType base = false)
    (fixed : Fixed normalize c base) : Fixed normalize c (fieldAccess base name) := by
  refine .node (passes_normalize_iff.mpr (normal_field noDowncast)) (by decide) rfl fun t mem => ?_
  simp only [List.mem_cons, List.not_mem_nil, or_false] at mem
  rcases mem with rfl | rfl | rfl | rfl
  · exact .noAttrs
  · exact fixed
  · exact .leaf _
  · exact .leaf _

theorem fixed_indexAccess {base : Tree} (i : Nat) (fixed : Fixed normalize c base) :
    Fixed normalize c (indexAccess base i) := by
  refine .node (passes_normalize_iff.mpr (normal_index _)) (by decide) rfl fun t mem => ?_
  simp only [List.mem_cons, List.not_mem_nil, or_false] at mem
  rcases mem with rfl | rfl | rfl
  · exact .noAttrs
  · exact fixed
  · refine .group _ fun t mem => ?_
    rw [List.mem_singleton.mp mem]
    refine .node (passes_normalize_iff.mpr {}) (by decide) rfl fun t mem => ?_
    simp only [List.mem_cons, List.not_mem_nil, or_false] at mem
    rcases mem with rfl | rfl
    · exact .noAttrs
    · exact .leaf _

theorem fixed_resourceData : Fixed normalize c (resourceData c) := fixed_fieldAccess _ rfl (fixed_var _)

theorem fixed_modelAccess (model : String) (steps : List PathStep) : Fixed normalize c (modelAccess model steps) := by
  have onwards : ∀ (steps : List PathStep) (base : Tree), isClientDowncast c.config.clientType base = false →
      Fixed normalize c base → Fixed normalize c (steps.foldl stepAccess base) := by
    intro steps
    induction steps with
    | nil => exact fun _ _ fixed => fixed
    | cons step steps ih =>
      intro base noDowncast fixed
      cases step with
      | field f => exact ih _ rfl (fixed_fieldAccess _ noDowncast fixed)
      | index i => exact ih _ rfl (fixed_indexAccess i fixed)
  exact onwards steps _ rfl (fixed_var _)

/-- A method that no rewriter of the first stage looks for. -/
structure Unsought (m : String) : Prop where
  state : stateMethods.contains m = false
  get : m ≠ "get"
  isNew : m ≠ "is_new_resource"
  set : m ≠ "set"
  mapErr : m ≠ "map_err"

theorem Unsought.normal {m : String} (unsought : Unsought m) (receiver : Tree) (args : Trees) :
    Normal c (methodCallOf receiver m args) where
  read _ reads := by
    cases reads with
    | state _ listed =>
      rw [unsought.state] at listed
      cases listed
    | field => exact unsought.get rfl
  fresh _ _ _ _ same := by
    cases same
    exact (unsought.isNew rfl).elim

theorem normal_stmt {parts : Trees} (noWrite : ∀ args, ¬ WriteStmt c (.node (.stmt .expr) parts) args) :
    Normal c (.node (.stmt .expr) parts) where
  write _ _ found := (noWrite _ (setStatement_eq_some.mp found)).elim
  guard _ _ _ _ same := by cases same

theorem Unsought.not_writeStmt {m : String} (unsought : Unsought m) (receiver : Tree) (args written : Trees) :
    ¬ WriteStmt c (closedStmt (methodCallOf receiver m args)) written := by
  intro write
  cases write with
  | closed _ call =>
    cases call with
    | call => exact unsought.set rfl
    | mapErr => exact unsought.mapErr rfl

theorem Unsought.normal_stmt {m : String} (unsought : Unsought m) (receiver : Tree) (args : Trees) :
    Normal c (closedStmt (methodCallOf receiver m args)) :=
  Rewrite.normal_stmt (unsought.not_writeStmt receiver args)

theorem normal_returnStmt (attrs w value semi : Tree) :
    Normal c (.node (.stmt .expr) [.node (.expr .returnEarly) [attrs, w, value], semi]) := by
  refine normal_stmt fun _ write => ?_
  cases write with
  | closed _ call => cases call

theorem not_inserts_call (parts : Trees) : ¬ Inserts c (.node (.expr .call) parts) := by
  rintro ⟨u, -, made | made⟩
  · cases (accessorGet_run {}).mp made
  · obtain ⟨_, _, _, found, -⟩ := (accessorSet_run {}).mp made
    cases setStatement_eq_some.mp found

theorem made_callOf (callee arg : Tree) : ∃ callee', normalize.made c (callOf callee [arg]) = callOf callee' [arg] ∧
    (callee' = callee ∨ callee' ∈ c.paths) := by
  rcases normalize.made_cases c (callOf callee [arg]) with ⟨-, same⟩ | ⟨r, mem, made⟩
  · exact ⟨callee, same, .inl rfl⟩
  · generalize normalize.made c (callOf callee [arg]) = u at made
    simp only [normalize, List.mem_cons, List.not_mem_nil, or_false] at mem
    rcases mem with rfl | rfl | rfl | rfl | rfl | rfl
    · obtain ⟨_, _, _, ⟨⟩, -⟩ := (metaAccess_run {}).mp made
    · cases (accessorGet_run {}).mp made
    · obtain ⟨_, _, _, found, -⟩ := (accessorSet_run {}).mp made
      cases setStatement_eq_some.mp found
    · obtain ⟨_, _, first, id, -, called, -⟩ := (importGuard_run {}).mp made
      obtain ⟨_, _, _, _, _, ⟨⟩, -, members⟩ := callPath?_eq_some.mp called
      have one : (Trees.members [arg]).length ≤ 1 := List.length_filter_le _ _
      have two : (Trees.members [arg]).length = 2 := congrArg List.length members
      omega
    · obtain ⟨_, _, ⟨⟩, -⟩ := controlFlow_run_some made
    · obtain ⟨_, _, _, _, ⟨⟩, -⟩ | ⟨_, _, _, _, _, target, ⟨⟩, -, known, rfl⟩ := (functionRename_run {}).mp made
      exact ⟨target, rfl, .inr (List.mem_append_left _ (mem_of_get? known))⟩

theorem drawn_callOf {names : List String} {callee arg : Tree} {ls : List Place} (silent : Silent c callee)
    (drawn : Drawn c [⟨names, arg⟩] ls) : Drawn c [⟨names, callOf callee [arg]⟩] ls := by
  obtain ⟨callee', made, known⟩ := made_callOf (c := c) callee arg
  have silent' : Silent c callee' := by
    rcases known with rfl | path
    · exact silent
    · exact silent_of_path path
  refine .made (not_inserts_call _) made ?_
  rw [callOf, inside_new (by decide)]
  exact .fixed .noAttrs (.silent silent' (.new {} drawn))

theorem silent_okUnit : Silent c okUnit := by
  obtain ⟨callee', made, known⟩ := made_callOf (c := c) (var "Ok") unitTuple
  have silent : Silent c callee' := by
    rcases known with rfl | path
    · exact silent_of_fixed (fixed_var "Ok")
    · exact silent_of_path path
  have unit : Fixed normalize c unitTuple := by
    refine .node (passes_normalize_iff.mpr {}) (by decide) rfl fun t mem => ?_
    simp only [List.mem_cons, List.not_mem_nil, or_false] at mem
    rcases mem with rfl | rfl
    · exact .noAttrs
    · exact .group _ fun t mem => (List.not_mem_nil mem).elim
  refine .of_made (not_inserts_call _) fun t mem => ?_
  rw [okUnit, made] at mem
  simp only [callOf, inside, List.mem_cons, List.not_mem_nil, or_false] at mem
  rcases mem with rfl | rfl | rfl
  · exact silent_of_fixed .noAttrs
  · exact silent
  · exact silent_of_fixed (.group _ fun t mem => List.mem_singleton.mp mem ▸ unit)

theorem fixed_ownCall {m : String} (unsought : Unsought m) {receiver : Tree} {args : Trees}
    (fixed : Fixed normalize c receiver) (list : Fixed normalize c (parenGroup args)) :
    Fixed normalize c (methodCallOf receiver m args) := by
  refine .node (passes_normalize_iff.mpr (unsought.normal receiver args)) (by decide) rfl fun t mem => ?_
  simp only [List.mem_cons, List.not_mem_nil, or_false] at mem
  rcases mem with rfl | rfl | rfl | rfl | rfl | rfl
  · exact .noAttrs
  · exact fixed
  · exact .leaf _
  · exact .leaf _
  · exact fixed_absent
  · exact list

theorem drawn_methodCallOf {names : List String} {v m : String} {args : Trees} {ls : List Place}
    (drawn : Drawn c (listed names (commaList args)) ls) :
    Drawn c (Place.inside ⟨names, methodCallOf (varExpr v) m args⟩) ls := by
  rw [methodCallOf, inside_new (by decide)]
  refine .fixed .noAttrs (.fixed (fixed_var _) (.fixed (.leaf _) (.fixed (.leaf _) (.fixed fixed_absent (.new {} ?_)))))
  rw [List.map_nil, List.append_nil]
  exact drawn

end Drawing

end Retype.Rewrite
