import Retype.Proofs.Accessor

/-! Where what is taken for the accessor comes from.  What a walk comes to stands in the code, where no fewer names are
in scope, or in a path of the configuration, or was made by a rewriter; what a rewriter made is no place where something
is taken for the accessor.  So a variable of that name that a pattern binds is taken for it only where the code has it
under that pattern. -/

namespace Retype.Rewrite
open Retype.Code

/-- A place inside another one. -/
abbrev Holds : Place → Place → Prop := Relation.ReflTransGen fun x y => y ∈ x.inside

/-- A name that is in scope somewhere in a tree. -/
def Scopes (t : Tree) (a : String) : Prop := ∃ w, Holds ⟨[], t⟩ w ∧ a ∈ w.names

/-- Names that are in scope somewhere in the code or in a path of the configuration. -/
def Known (c : Context) (code : Tree) (names : List String) : Prop :=
  ∀ a ∈ names, Scopes code a ∨ ∃ path ∈ c.paths, Scopes path a

/-- What is walked: the code, and paths of the configuration among it. -/
inductive Source (c : Context) (code : Tree) : Place → Prop
  | code : Source c code ⟨[], code⟩
  | path {names : List String} {path : Tree} (given : path ∈ c.paths) (known : Known c code names) :
      Source c code ⟨names, path⟩

/-- A node whose parts are all inside, each where the names around the node are in scope and no others. -/
def bindsNothing : Kind → Bool
  | .macroBody | .item _ | .arm => false
  | .expr .closure | .expr .forLoop | .expr .ifElse | .expr .whileLoop | .expr .binary => false
  | _ => true

/-- The rewriters that may take something in a node of a kind for the accessor. -/
def askers : Kind → List Rewriter
  | .block => [.controlFlow]
  | .stmt .expr => [.accessorSet]
  | .stmt .bind => [.accessorSet, .inlineFunction]
  | .expr .assign => [.inlineFunction]
  | .expr .methodCall => [.accessorGet, .functionRename]
  | _ => []

theorem Takes.exists_node {c : Context} {r : Rewriter} {t : Tree} (h : Takes c r t) :
    ∃ k parts, t = .node k parts ∧ r ∈ askers k := by
  cases h with
  | write writes => cases writes <;> exact ⟨_, _, rfl, by decide⟩
  | _ => exact ⟨_, _, rfl, by decide⟩

theorem inside_of_bindsNothing {names : List String} {k : Kind} {parts : Trees} (plain : bindsNothing k = true) :
    Place.inside ⟨names, .node k parts⟩ = parts.map (Place.mk names) := by
  have opened : k ≠ .macroBody := by
    rintro rfl
    cases plain
  have none : ∀ i, seenNames names parts k i = names := by
    intro i
    have bound : boundNames parts k i = [] := by
      unfold boundNames
      split <;> first | rfl | cases plain
    unfold seenNames
    split
    · cases plain
    · rw [bound, List.append_nil]
  rw [inside_node, inside_of_ne opened]
  refine List.ext_getElem? fun i => ?_
  rw [List.getElem?_mapIdx, List.getElem?_map, none]

/-- The same tree, where besides these names no more are in scope. -/
structure Over (base : List String) (x y : Place) : Prop where
  tree : x.tree = y.tree
  names : x.names ⊆ base ++ y.names

theorem Over.more {base names names' : List String} (h : names ⊆ base ++ names') (further : List String) :
    names ++ further ⊆ base ++ (names' ++ further) := by
  rw [← List.append_assoc]
  exact List.append_subset.mpr ⟨List.subset_append_of_subset_left _ h, List.subset_append_right _ _⟩

theorem listed_over {base names names' : List String} (h : names ⊆ base ++ names') (ts : Trees) :
    List.Forall₂ (Over base) (listed names ts) (listed names' ts) := by
  induction ts generalizing names names' with
  | nil => exact .nil
  | cons t ts ih => exact .cons ⟨rfl, h⟩ (ih (Over.more h _))

theorem Over.inside {base : List String} {x y : Place} (h : Over base x y) :
    List.Forall₂ (Over base) x.inside y.inside := by
  unfold Place.inside
  rw [← h.tree]
  split
  · exact .nil
  · exact listed_over h.names _
  · refine forall₂_mapIdx (List.forall₂_same.mpr fun t _ => rfl) fun i t u same => ⟨same, ?_⟩
    unfold seenNames
    split
    · exact List.subset_append_right _ _
    · exact Over.more h.names _

theorem exists_of_mem {R : Place → Place → Prop} {xs ls : List Place} (h : List.Forall₂ R xs ls) {x : Place}
    (mem : x ∈ xs) : ∃ l ∈ ls, R x l := by
  induction h with
  | nil => cases mem
  | cons first _ ih =>
    rcases List.mem_cons.mp mem with rfl | mem
    · exact ⟨_, List.mem_cons_self, first⟩
    · obtain ⟨l, within, related⟩ := ih mem
      exact ⟨l, List.mem_cons_of_mem _ within, related⟩

theorem Over.holds {base : List String} {x y w : Place} (h : Over base x y) (holds : Holds x w) :
    ∃ v, Holds y v ∧ Over base w v := by
  induction holds with
  | refl => exact ⟨y, .refl, h⟩
  | tail _ mem ih =>
    obtain ⟨v, within, beyond⟩ := ih
    obtain ⟨u, next, beyond⟩ := exists_of_mem beyond.inside mem
    exact ⟨u, within.tail next, beyond⟩

theorem Source.known {c : Context} {code : Tree} {root w : Place} (source : Source c code root)
    (holds : Holds root w) : Known c code w.names := by
  intro a mem
  cases source with
  | code => exact .inl ⟨w, holds, mem⟩
  | @path names path given known =>
    have around : Over names ⟨names, path⟩ ⟨[], path⟩ := ⟨rfl, List.subset_append_left _ _⟩
    obtain ⟨v, within, beyond⟩ := around.holds holds
    rcases List.mem_append.mp (beyond.names mem) with base | bound
    · exact known a base
    · exact .inr ⟨_, given, v, within, bound⟩

theorem Known.mono {c : Context} {code : Tree} {names names' : List String} (h : Known c code names)
    (fewer : names' ⊆ names) : Known c code names' := fun a mem => h a (fewer mem)

/-- A tree of the code or of a path of the configuration, where no fewer names are in scope, or one made of such trees
in which nothing is taken for the accessor. -/
inductive Built (stage : Stage) (c : Context) (code : Tree) : List String → Tree → Prop
  | kept {names : List String} {root w : Place} (source : Source c code root) (holds : Holds root w)
      (more : names ⊆ w.names) : Built stage c code names w.tree
  | leaf {names : List String} (known : Known c code names) (token : Token) : Built stage c code names (.leaf token)
  | group {names : List String} {d : Delim} {body : Trees} (known : Known c code names)
      (inner : ∀ x ∈ listed names body, Built stage c code x.names x.tree) : Built stage c code names (.group d body)
  | node {names : List String} {k : Kind} {parts : Trees} (known : Known c code names) (plain : bindsNothing k = true)
      (none : ∀ r ∈ stage, ¬ Takes c r (.node k parts)) (inner : ∀ t ∈ parts, Built stage c code names t) :
      Built stage c code names (.node k parts)

section Origins
variable {stage : Stage} {c : Context} {code : Tree} {names : List String}

namespace Built

theorem known {t : Tree} (h : Built stage c code names t) : Known c code names := by
  cases h with
  | kept source holds more => exact (source.known holds).mono more
  | leaf known => exact known
  | group known => exact known
  | node known => exact known

theorem mono {names' : List String} {t : Tree} (h : Built stage c code names t) (fewer : names' ⊆ names) :
    Built stage c code names' t := by
  induction h generalizing names' with
  | kept source holds more => exact .kept source holds (List.Subset.trans fewer more)
  | leaf known token => exact .leaf (known.mono fewer) token
  | @group names d body known _ ih =>
    refine .group (known.mono fewer) fun x mem => ?_
    obtain ⟨y, within, same, less⟩ := exists_of_mem (listed_below fewer body) mem
    rw [same]
    exact ih y within less
  | node known plain none _ ih => exact .node (known.mono fewer) plain none fun t mem => ih t mem fewer

theorem inside {t : Tree} (h : Built stage c code names t) :
    ∀ y ∈ Place.inside ⟨names, t⟩, Built stage c code y.names y.tree := by
  intro y mem
  cases h with
  | @kept _ _ w source holds more =>
    have below : Below ⟨names, w.tree⟩ w := ⟨rfl, more⟩
    obtain ⟨z, within, same, less⟩ := exists_of_mem below.inside mem
    rw [same]
    exact .kept source (holds.tail within) less
  | leaf known token => cases mem
  | group known inner => exact inner y mem
  | node known plain none inner =>
    rw [inside_of_bindsNothing plain] at mem
    obtain ⟨t, part, rfl⟩ := List.mem_map.mp mem
    exact inner t part

theorem under {t u : Tree} (h : Built stage c code names t) (within : Under t u) : Built stage c code names u := by
  induction within with
  | refl => exact h
  | tail _ step ih =>
    obtain ⟨l, mem, same, wider⟩ := exists_mem_inside names step
    have found := ih.inside l mem
    rw [same] at found
    exact found.mono wider

theorem part {k : Kind} {parts : Trees} (h : Built stage c code names (.node k parts)) (opened : isOpen k = true)
    {t : Tree} (mem : t ∈ parts) : Built stage c code names t :=
  h.under (.single (steps_part opened mem))

theorem of_takes {t : Tree} {r : Rewriter} (h : Built stage c code names t) (mem : r ∈ stage) (takes : Takes c r t) :
    ∃ root w, Source c code root ∧ Holds root w ∧ Below ⟨names, t⟩ w := by
  obtain ⟨_, _, same, -⟩ := takes.exists_node
  cases h with
  | @kept _ root w source holds more => exact ⟨root, w, source, holds, rfl, more⟩
  | leaf => cases same
  | group => cases same
  | node _ _ none => exact (none r mem takes).elim

theorem plain {k : Kind} {parts : Trees} (known : Known c code names) (bare : bindsNothing k = true)
    (silent : ∀ r ∈ stage, r ∉ askers k) (h : parts.Forall (Built stage c code names)) :
    Built stage c code names (.node k parts) := by
  refine .node known bare (fun r mem takes => ?_) (List.forall_iff_forall_mem.mp h)
  obtain ⟨_, _, ⟨⟩, asks⟩ := takes.exists_node
  exact silent r mem asks

end Built

theorem built_listed {body : Trees} (h : ∀ t ∈ body, letNames t = [] ∧ Built stage c code names t) :
    ∀ x ∈ listed names body, Built stage c code x.names x.tree := by
  induction body with
  | nil => exact fun x mem => (List.not_mem_nil mem).elim
  | cons t body ih =>
    obtain ⟨⟨bare, first⟩, rest⟩ := List.forall_mem_cons.mp h
    rw [listed, bare, List.append_nil]
    exact List.forall_mem_cons.mpr ⟨first, ih rest⟩

theorem mem_listed_commaList {ts : Trees} {x : Place} (mem : x ∈ listed names (commaList ts)) :
    ∃ y ∈ listed names ts, x = y ∨ x = ⟨y.names, op ","⟩ := by
  induction ts generalizing names with
  | nil => cases mem
  | cons t ts ih =>
    cases ts with
    | nil => exact ⟨x, mem, .inl rfl⟩
    | cons u ts =>
      have bare : letNames (op ",") = [] := rfl
      rw [commaList, listed, listed, bare, List.append_nil] at mem
      rcases List.mem_cons.mp mem with rfl | mem
      · exact ⟨_, List.mem_cons_self, .inl rfl⟩
      · rcases List.mem_cons.mp mem with rfl | mem
        · exact ⟨_, List.mem_cons_of_mem _ List.mem_cons_self, .inr rfl⟩
        · obtain ⟨y, within, same⟩ := ih mem
          exact ⟨y, List.mem_cons_of_mem _ within, same⟩

theorem built_commaList {d : Delim} {ts : Trees} (known : Known c code names)
    (h : ∀ x ∈ listed names ts, Built stage c code x.names x.tree) :
    Built stage c code names (.group d (commaList ts)) := by
  refine .group known fun x mem => ?_
  obtain ⟨y, within, rfl | rfl⟩ := mem_listed_commaList mem
  · exact h _ within
  · exact .leaf (h y within).known _

theorem built_oneArgument {arg : Tree} (built : Built stage c code names arg) :
    Built stage c code names (parenGroup [arg]) :=
  built_commaList built.known fun _ mem => List.mem_singleton.mp mem ▸ built

theorem built_noArguments (known : Known c code names) : Built stage c code names (parenGroup []) :=
  .group known fun _ mem => (List.not_mem_nil mem).elim

/-- A tree that is made of the one in whose place it stands and binds no other names. -/
structure Remakes (stage : Stage) (c : Context) (code : Tree) (t' t : Tree) : Prop where
  names : letNames t' ⊆ letNames t
  built : ∀ {names : List String}, Built stage c code names t → Built stage c code names t'

theorem built_of_sublist {ts' ts : Trees} (h : List.SublistForall₂ (Remakes stage c code) ts' ts)
    {names' : List String} (fewer : names' ⊆ names)
    (source : ∀ x ∈ listed names ts, Built stage c code x.names x.tree) :
    ∀ x ∈ listed names' ts', Built stage c code x.names x.tree := by
  -- a member that is left out only takes names away from those after it, so the names may become fewer
  induction h generalizing names names' with
  | nil => exact fun x mem => (List.not_mem_nil mem).elim
  | cons own _ ih =>
    obtain ⟨first, rest⟩ := List.forall_mem_cons.mp source
    refine List.forall_mem_cons.mpr ⟨(own.built first).mono fewer, ih ?_ rest⟩
    exact List.append_subset.mpr ⟨List.subset_append_of_subset_left _ fewer,
      List.subset_append_of_subset_right _ own.names⟩
  | cons_right _ ih =>
    exact ih (List.subset_append_of_subset_left _ fewer) (List.forall_mem_cons.mp source).2

section Added
variable (known : Known c code names)
include known

theorem built_absent : Built stage c code names Tree.absent := .plain known rfl (fun _ _ => List.not_mem_nil) trivial

theorem built_noAttrs : Built stage c code names noAttrs := .plain known rfl (fun _ _ => List.not_mem_nil) trivial

theorem built_pathOf (name : String) : Built stage c code names (pathOf name) := by
  have segment : Built stage c code names (.node .segment [word name, Tree.absent]) :=
    .plain known rfl (fun _ _ => List.not_mem_nil) ⟨.leaf known _, built_absent known⟩
  exact .plain known rfl (fun _ _ => List.not_mem_nil) segment

theorem built_var (name : String) : Built stage c code names (var name) :=
  .plain known rfl (fun _ _ => List.not_mem_nil) ⟨built_noAttrs known, built_pathOf known name⟩

theorem built_okUnit : Built stage c code names okUnit := by
  have unit : Built stage c code names unitTuple :=
    .plain known rfl (fun _ _ => List.not_mem_nil) ⟨built_noAttrs known, built_noArguments known⟩
  exact .plain known rfl (fun _ _ => List.not_mem_nil)
    ⟨built_noAttrs known, built_var known "Ok", built_oneArgument unit⟩

end Added

theorem built_fieldAccess {base : Tree} (built : Built stage c code names base) (name : String) :
    Built stage c code names (fieldAccess base name) :=
  .plain built.known rfl (fun _ _ => List.not_mem_nil)
    ⟨built_noAttrs built.known, built, .leaf built.known _, .leaf built.known _⟩

theorem built_indexAccess {base : Tree} (built : Built stage c code names base) (i : Nat) :
    Built stage c code names (indexAccess base i) := by
  have known := built.known
  have number : Built stage c code names (.node (.expr .lit) [noAttrs, lit (toString i)]) :=
    .plain known rfl (fun _ _ => List.not_mem_nil) ⟨built_noAttrs known, .leaf known _⟩
  have list : Built stage c code names (.group .bracket [.node (.expr .lit) [noAttrs, lit (toString i)]]) :=
    .group known (built_listed fun t mem => List.mem_singleton.mp mem ▸ ⟨rfl, number⟩)
  exact .plain known rfl (fun _ _ => List.not_mem_nil) ⟨built_noAttrs known, built, list⟩

theorem built_modelAccess (known : Known c code names) (model : String) (steps : List PathStep) :
    Built stage c code names (modelAccess model steps) := by
  have onwards : ∀ (steps : List PathStep) (base : Tree), Built stage c code names base →
      Built stage c code names (steps.foldl stepAccess base) := by
    intro steps
    induction steps with
    | nil => exact fun _ built => built
    | cons step steps ih =>
      intro base built
      cases step with
      | field f => exact ih _ (built_fieldAccess built _)
      | index i => exact ih _ (built_indexAccess built i)
  exact onwards steps _ (built_var known _)

theorem built_metaField (known : Known c code names) (name : String) :
    Built stage c code names (metaField c name) := built_fieldAccess (built_var known _) name

theorem built_second {k : Kind} {attrs old new : Tree} {rest : Trees} (opened : isOpen k = true)
    (plain : bindsNothing k = true) (h : Built stage c code names (.node k (attrs :: old :: rest)))
    (built : Built stage c code names new) :
    ∀ y ∈ Place.inside ⟨names, .node k (attrs :: new :: rest)⟩, Built stage c code y.names y.tree := by
  have parts := fun t mem => h.part (t := t) opened mem
  simp only [List.forall_mem_cons] at parts
  rw [inside_of_bindsNothing plain, List.forall_mem_map]
  simp only [List.forall_mem_cons]
  exact ⟨parts.1, built, parts.2.2⟩

theorem Unsought.built {m : String} (unsought : Unsought m) {receiver : Tree} {args : Trees}
    (own : Built normalize c code names receiver) (list : Built normalize c code names (parenGroup args)) :
    Built normalize c code names (methodCallOf receiver m args) := by
  have known := own.known
  refine .node known rfl (fun r _ takes => ?_) (List.forall_iff_forall_mem.mp
    ⟨built_noAttrs known, own, .leaf known _, .leaf known _, built_absent known, list⟩)
  cases takes with
  | read _ sought =>
    rcases sought with listed | get
    · rw [unsought.state] at listed
      cases listed
    · exact unsought.get get
  | write writes => cases writes
  | fresh => exact unsought.isNew rfl

theorem built_stmt {e semi : Tree} (noWrite : ∀ args, ¬ WriteStmt c (.node (.stmt .expr) [e, semi]) args)
    (own : Built normalize c code names e) (mark : Built normalize c code names semi) :
    Built normalize c code names (.node (.stmt .expr) [e, semi]) := by
  refine .node own.known rfl (fun r _ takes => ?_) (List.forall_iff_forall_mem.mp ⟨own, mark⟩)
  cases takes with
  | write writes => exact noWrite _ writes

theorem built_returnStmt {parts : Trees} {semi : Tree}
    (own : Built normalize c code names (.node (.expr .returnEarly) parts)) (mark : Built normalize c code names semi) :
    Built normalize c code names (.node (.stmt .expr) [.node (.expr .returnEarly) parts, semi]) := by
  refine built_stmt (fun _ write => ?_) own mark
  cases write with
  | closed _ call => cases call

theorem built_ownedValue {value : Tree} (built : Built normalize c code names value) :
    Built normalize c code names (ownedValue c value) := by
  unfold ownedValue
  dsimp only
  split
  · exact built
  · split
    · exact built
    · split
      · rename_i pointer given
        have known := built.known
        have mem : pointer ∈ c.paths := List.mem_append_right _ (by rw [given]; exact List.mem_singleton.mpr rfl)
        have path : Built normalize c code names pointer := .kept (.path mem known) .refl (.refl _)
        exact .plain known rfl (by decide)
          ⟨built_noAttrs known, path, built_oneArgument (built.under (under_stripDeref value))⟩
      · exact built

theorem built_accessorSet {t u : Tree} (made : Rewriter.accessorSet.made? c t = some u)
    (h : Built normalize c code names t) :
    ∀ y ∈ Place.inside ⟨names, u⟩, Built normalize c code y.names y.tree := by
  obtain ⟨key, value, steps, found, -, rfl⟩ := (accessorSet_run {}).mp made
  have known := h.known
  have inner : Inner t value := (setStatement_eq_some.mp found).inner (by simp)
  have own := built_ownedValue (h.under inner.to_reflTransGen)
  have assigned : Built normalize c code names (.node (.expr .assign)
      [noAttrs, modelAccess c.scope.varModel steps, op "=", ownedValue c value]) :=
    .plain known rfl (by decide) ⟨built_noAttrs known, built_modelAccess known _ _, .leaf known _, own⟩
  rw [assignStmt, inside_of_bindsNothing rfl, List.forall_mem_map]
  exact List.forall_iff_forall_mem.mp ⟨assigned, .leaf known _⟩

theorem built_markAsGone (known : Known c code names) : Built normalize c code names (markAsGone c) := by
  have unsought : Unsought "mark_as_gone" := by constructor <;> decide
  have call := unsought.built (built_var known (Naming.identifier c.config.metaVar))
    (built_oneArgument (built_var known (Naming.identifier c.config.primaryIdentity)))
  exact built_returnStmt (.plain known rfl (by decide) ⟨built_noAttrs known, .leaf known _, call⟩) (.leaf known _)

theorem built_setIdentity {a : String} {s arg : Tree} (found : setIdArgument? a s = some arg)
    (h : Built normalize c code names s) : Built normalize c code names (setIdentity c arg) := by
  have unsought : Unsought "set_id" := by constructor <;> decide
  have id := h.under ((inner_of_setIdArgument? found).to_reflTransGen.trans (under_stripIdCall arg))
  have call := unsought.built (built_var h.known (Naming.identifier c.config.metaVar)) (built_oneArgument id)
  exact built_stmt (unsought.not_writeStmt _ _) call (.leaf h.known _)

theorem built_readToSuccess {s s' : Tree} (answer : readToSuccess? c s = some s')
    (h : Built normalize c code names s) : Built normalize c code names s' := by
  unfold readToSuccess? at answer
  split at answer
  · rw [Option.ite_none_right_eq_some] at answer
    obtain ⟨-, ⟨⟩⟩ := answer
    have parts := fun t mem => h.part (t := t) rfl mem
    simp only [List.forall_mem_cons] at parts
    have own := fun t mem => parts.1.part (t := t) rfl mem
    simp only [List.forall_mem_cons] at own
    exact built_returnStmt (.plain h.known rfl (by decide) ⟨own.1, own.2.1, built_okUnit h.known⟩) parts.2.1
  · rw [Option.ite_none_right_eq_some] at answer
    obtain ⟨-, ⟨⟩⟩ := answer
    refine built_stmt (fun _ write => ?_) (built_okUnit h.known) (h.part rfl (by simp))
    cases write with
    | closed _ call => cases call
  · cases answer

theorem Restates.remakes {s' s : Tree} (h : Restates c s' s) : Remakes normalize c code s' s where
  names := h.adapts.names
  built source := by
    cases h with
    | same => exact source
    | gone => exact built_markAsGone source.known
    | identity found => exact built_setIdentity found source
    | success answer => exact built_readToSuccess answer source

theorem built_importGuard {t u : Tree} (made : Rewriter.importGuard.made? c t = some u)
    (h : Built normalize c code names t) :
    ∀ y ∈ Place.inside ⟨names, u⟩, Built normalize c code y.names y.tree := by
  obtain ⟨_, _, first, id, -, called, rfl⟩ := (importGuard_run {}).mp made
  have known := h.known
  have unsought : Unsought "resource_type" := by constructor <;> decide
  have type := unsought.built (built_var known "self") (built_noArguments known)
  have inner : Inner t id := inner_of_callPath? called (by simp)
  have own := h.under (inner.to_reflTransGen.trans (under_stripIdCall id))
  have list : Built normalize c code names
      (parenGroup [methodCallOf (var "self") "resource_type" [], stripIdCall id]) := by
    refine built_commaList known (List.forall_mem_cons.mpr ⟨type, List.forall_mem_singleton.mpr (own.mono ?_)⟩)
    exact List.append_subset.mpr ⟨List.Subset.refl _, List.nil_subset _⟩
  rw [methodCallOf, inside_of_bindsNothing rfl, List.forall_mem_map]
  exact List.forall_iff_forall_mem.mp
    ⟨built_noAttrs known, built_var known _, .leaf known _, .leaf known _, built_absent known, list⟩

theorem built_controlFlow {t u : Tree} (made : Rewriter.controlFlow.made? c t = some u)
    (h : Built normalize c code names t) :
    ∀ y ∈ Place.inside ⟨names, u⟩, Built normalize c code y.names y.tree := by
  obtain ⟨d, stmts, stmts', rfl, rfl, restates⟩ := restates_controlFlow made
  obtain ⟨kept, same, sublist⟩ := List.sublistForall₂_iff.mp restates
  have source := (h.part rfl (List.mem_singleton.mpr rfl)).inside
  have remakes : List.SublistForall₂ (Remakes normalize c code) stmts' stmts :=
    List.sublistForall₂_iff.mpr ⟨kept, same.imp fun _ _ => Restates.remakes, sublist⟩
  rw [inside_of_bindsNothing rfl, List.forall_mem_map, List.forall_mem_singleton]
  exact .group h.known (built_of_sublist remakes (.refl _) source)

theorem built_normalize {r : Rewriter} (mem : r ∈ normalize) {t u : Tree} (made : r.made? c t = some u)
    (h : Built normalize c code names t) :
    ∀ y ∈ Place.inside ⟨names, u⟩, Built normalize c code y.names y.tree := by
  have known := h.known
  simp only [normalize, List.mem_cons, List.not_mem_nil, or_false] at mem
  rcases mem with rfl | rfl | rfl | rfl | rfl | rfl
  · obtain ⟨attrs, base, rest, rfl, -, rfl⟩ := (metaAccess_run {}).mp made
    exact built_second rfl rfl h (built_metaField known _)
  · cases (accessorGet_run {}).mp made with
    | state => exact built_second rfl rfl h (built_metaField known _)
    | field => exact (built_modelAccess known _ _).inside
  · exact built_accessorSet made h
  · exact built_importGuard made h
  · exact built_controlFlow made h
  · obtain ⟨_, _, _, rest, rfl, -, rfl⟩ | ⟨_, _, rest, _, _, target, rfl, -, found, rfl⟩ :=
      (functionRename_run {}).mp made
    · exact built_second rfl rfl h (built_metaField known _)
    · have mem : target ∈ c.paths := List.mem_append_left _ (mem_of_get? found)
      exact built_second rfl rfl h (.kept (.path mem known) .refl (.refl _))

theorem under_untried (value : Tree) : Under value (untried value) := by
  unfold untried
  split
  · exact (inner_part rfl 1 rfl).to_reflTransGen
  · exact .refl

theorem remakes_methodArgument (arg : Tree) : Remakes promote c code (methodArgument c arg) arg := by
  unfold methodArgument
  split
  · exact ⟨List.nil_subset _, fun h => .plain h.known rfl (by decide)
      ⟨built_noAttrs h.known, .leaf h.known _, .leaf h.known _, built_var h.known _⟩⟩
  · exact ⟨.refl _, id⟩

theorem built_promoted {value v : Tree} (answer : promoted? c value = some v)
    (h : Built promote c code names value) : Built promote c code names v := by
  have known := h.known
  obtain ⟨⟨name, signature, args⟩, called, rfl⟩ := Option.map_eq_some_iff.mp answer
  obtain ⟨call, isCall, -, -, rfl⟩ := helperCall?_eq_some.mp called
  have bare := h.under ((under_untried value).trans (under_stripParens _))
  have list : Built promote c code names (parenGroup (call.args.map (methodArgument c))) := by
    unfold Tree.call? at isCall
    split at isCall
    · rename_i d body same
      cases isCall
      rw [same] at bare
      have given : Built promote c code names (.group d body) := bare.part rfl (by simp)
      have remakes : List.SublistForall₂ (Remakes promote c code) ((Trees.members body).map (methodArgument c)) body :=
        List.sublistForall₂_iff.mpr ⟨_, List.forall₂_map_left_iff.mpr
          (List.forall₂_same.mpr fun arg _ => remakes_methodArgument arg), List.filter_sublist⟩
      exact built_commaList known (built_of_sublist remakes (.refl _) given.inside)
    · cases isCall
  have made : Built promote c code names
      (methodCallOf (var "self") (Naming.identifier name) (call.args.map (methodArgument c))) :=
    .plain known rfl (by decide)
      ⟨built_noAttrs known, built_var known _, .leaf known _, .leaf known _, built_absent known, list⟩
  dsimp only
  unfold retry
  split
  · exact .plain known rfl (by decide) ⟨h.part rfl (by simp), made, h.part rfl (by simp)⟩
  · exact made

theorem under_entry {t arg value : Tree} {path tag : String} {elems : Trees}
    (called : t.callPath? = some (path, [arg])) (array : arg.array? = some elems)
    (mem : (tag, value) ∈ literalEntries elems) : Under t value := by
  have given : Under t arg := (inner_of_callPath? called (List.mem_singleton.mpr rfl)).to_reflTransGen
  obtain ⟨e, within, made⟩ := List.mem_filterMap.mp mem
  have entry : Under arg e := by
    unfold Tree.array? at array
    split at array
    · cases array
      exact (inner_member rfl 1 rfl (mem_of_mem_members within)).to_reflTransGen
    · cases array
  split at made
  · rename_i key value' pair
    obtain ⟨_, -, ⟨⟩⟩ := Option.map_eq_some_iff.mp made
    unfold Tree.tuple? at pair
    split at pair
    · rename_i d body
      have members : value ∈ Trees.members body := by
        rw [Option.some.inj pair]
        simp
      exact given.trans (entry.trans (inner_member rfl 1 rfl (mem_of_mem_members members)).to_reflTransGen)
    · cases pair
  · cases made

theorem built_literal {t arg u : Tree} {path : String} {elems : Trees} (called : t.callPath? = some (path, [arg]))
    (array : arg.array? = some elems) (made : literal? c elems = some u) (h : Built promote c code names t) :
    Built promote c code names u := by
  have known := h.known
  obtain ⟨m, fields, -, filled, rfl⟩ := literal?_eq_some made
  have list : Built promote c code names (.group .brace (commaList fields)) := by
    refine built_commaList known (built_listed fun field mem => ?_)
    obtain ⟨⟨tag, value⟩, within, made⟩ := (mem_of_mapM filled).mp mem
    obtain ⟨f, -, rfl⟩ := Option.map_eq_some_iff.mp made
    exact ⟨rfl, .plain known rfl (by decide)
      ⟨built_noAttrs known, .leaf known _, .leaf known _, h.under (under_entry called array within)⟩⟩
  exact .plain known rfl (by decide) ⟨built_noAttrs known, built_pathOf known _, list⟩

theorem built_inlineFunction {t u : Tree} (made : Rewriter.inlineFunction.made? c t = some u)
    (h : Built promote c code names t) :
    ∀ y ∈ Place.inside ⟨names, u⟩, Built promote c code y.names y.tree := by
  obtain ⟨attrs, w, pat, eq, value, other, semi, v, rfl, -, answer, rfl⟩ |
    ⟨attrs, left, o, right, v, rfl, answer, rfl⟩ := (inlineFunction_run {}).mp made
  · have parts := fun t mem => h.part (t := t) rfl mem
    simp only [List.forall_mem_cons] at parts
    obtain ⟨ownAttrs, word, pattern, init, mark, -⟩ := parts
    have inner := fun t mem => init.part (t := t) rfl mem
    simp only [List.forall_mem_cons] at inner
    have new : Built promote c code names (.node .init [eq, v, other]) :=
      .plain h.known rfl (by decide) ⟨inner.1, built_promoted answer inner.2.1, inner.2.2.1⟩
    rw [inside_of_bindsNothing rfl, List.forall_mem_map]
    exact List.forall_iff_forall_mem.mp ⟨ownAttrs, word, pattern, new, mark⟩
  · have parts := fun t mem => h.part (t := t) rfl mem
    simp only [List.forall_mem_cons] at parts
    obtain ⟨ownAttrs, target, mark, stored, -⟩ := parts
    rw [inside_of_bindsNothing rfl, List.forall_mem_map]
    exact List.forall_iff_forall_mem.mp ⟨ownAttrs, target, mark, built_promoted answer stored⟩

theorem built_promote {r : Rewriter} (mem : r ∈ promote) {t u : Tree} (made : r.made? c t = some u)
    (h : Built promote c code names t) :
    ∀ y ∈ Place.inside ⟨names, u⟩, Built promote c code y.names y.tree := by
  simp only [promote, List.mem_cons, List.not_mem_nil, or_false] at mem
  rcases mem with rfl | rfl
  · exact built_inlineFunction made h
  · obtain ⟨_, _, _, _, elems, -, called, -, array, answer⟩ := (compositeLiteral_run {}).mp made
    exact (built_literal called array answer h).inside

theorem built_made (staged : stage ∈ standard) {t : Tree} (h : Built stage c code names t) :
    ∀ y ∈ (Place.made stage c ⟨names, t⟩).inside, Built stage c code y.names y.tree := by
  have stages : stage = normalize ∨ stage = promote := by
    simpa only [standard, standardStages, List.map_cons, List.map_nil, List.mem_cons, List.not_mem_nil, or_false]
      using staged
  rw [Place.made]
  rcases stage.made_cases c t with ⟨-, same⟩ | ⟨r, mem, made⟩
  · rw [same]
    exact h.inside
  · rcases stages with rfl | rfl
    · exact built_normalize mem made h
    · exact built_promote mem made h

theorem built_of_arrives (staged : stage ∈ standard) {xs ys left : List Place} (arrives : Arrives stage c xs ys left)
    (given : ∀ x ∈ xs, Built stage c code x.names x.tree) : ∀ y ∈ ys, Built stage c code y.names y.tree := by
  induction arrives with
  | none => exact fun y mem => (List.not_mem_nil mem).elim
  | visit _ ih =>
    obtain ⟨first, rest⟩ := List.forall_mem_cons.mp given
    refine List.forall_mem_cons.mpr ⟨first, ih fun y mem => ?_⟩
    rcases List.mem_append.mp mem with mem | mem
    · exact built_made staged first y mem
    · exact rest y mem

theorem built_of_mem (staged : stage ∈ standard) {ys left : List Place} (arrives : Arrives stage c [⟨[], code⟩] ys left)
    {y : Place} (mem : y ∈ ys) : Built stage c code y.names y.tree :=
  built_of_arrives staged arrives (List.forall_mem_singleton.mpr (.kept .code .refl (.refl _))) y mem

end Origins

end Retype.Rewrite
