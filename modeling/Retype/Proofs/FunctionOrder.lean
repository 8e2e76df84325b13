import Mathlib.Data.List.Forall2
import Mathlib.Data.List.Nodup
import Retype.Proofs.BareCalls
import Retype.Proofs.Lookups
import Retype.Proofs.RoleMethods
import Retype.Proofs.Visits

/-! Where the functions of a resource stand.  They are rewritten by role and told apart by name, so two runs that find
the functions of each role in the same order do the same to each of them.  With one function to a role only the
helpers can be told apart by where they stand. -/

namespace Retype.Rewrite
open Retype.Code

/-- A change that leaves names and roles as they are. -/
structure KeepsRoles (change : ResourceFn → ResourceFn) : Prop where
  name (f : ResourceFn) : (change f).name = f.name
  role (f : ResourceFn) : (change f).role = f.role

theorem KeepsRoles.comp {change change' : ResourceFn → ResourceFn} (after : KeepsRoles change) (first : KeepsRoles change') :
    KeepsRoles (change ∘ change') :=
  ⟨fun f => (after.name _).trans (first.name f), fun f => (after.role _).trans (first.role f)⟩

theorem KeepsRoles.names {change : ResourceFn → ResourceFn} (keeps : KeepsRoles change) (fs : List ResourceFn) :
    (fs.map change).map (·.name) = fs.map (·.name) := by
  rw [List.map_map]
  exact List.map_congr_left fun f _ => keeps.name f

/-- Changes the code of the function of a name. -/
def onName (name : String) (edit : Fn → Fn) (f : ResourceFn) : ResourceFn :=
  if f.name = name then { f with code := edit f.code } else f

theorem keepsRoles_onName (name : String) (edit : Fn → Fn) : KeepsRoles (onName name edit) := by
  constructor <;> intro f <;> unfold onName <;> split <;> rfl

/-- All pending edits, each for the function that it names. -/
def edits (s : State) (f : ResourceFn) : ResourceFn :=
  s.pending.foldl (fun f (name, e) => onName name e.apply f) f

theorem keepsRoles_edits (s : State) : KeepsRoles (edits s) := by
  unfold edits
  generalize s.pending = pending
  induction pending with
  | nil => exact ⟨fun _ => rfl, fun _ => rfl⟩
  | cons entry pending ih => exact ih.comp (keepsRoles_onName entry.1 entry.2.apply)

section Distinct
variable {fs : List ResourceFn}

theorem map_onName_of_fresh {name : String} (fresh : name ∉ fs.map (·.name)) (edit : Fn → Fn) :
    fs.map (onName name edit) = fs := by
  refine (List.map_congr_left fun f mem => ?_).trans (List.map_id' fs)
  exact if_neg fun named => fresh (List.mem_map.mpr ⟨f, mem, named⟩)

theorem editFirst_eq_map (distinct : (fs.map (·.name)).Nodup) (name : String) (edit : Fn → Fn) :
    editFirst name edit fs = fs.map (onName name edit) := by
  induction fs with
  | nil => rfl
  | cons f fs ih =>
    obtain ⟨fresh, distinct⟩ := List.nodup_cons.mp distinct
    rw [List.map_cons, onName]
    unfold editFirst
    split
    · rename_i named
      rw [map_onName_of_fresh (named ▸ fresh)]
    · rw [ih distinct]

theorem set_eq_map (distinct : (fs.map (·.name)).Nodup) {i : Nat} {f : ResourceFn} (found : fs[i]? = some f)
    (edit : Fn → Fn) : fs.set i { f with code := edit f.code } = fs.map (onName f.name edit) := by
  induction fs generalizing i with
  | nil => cases found
  | cons g fs ih =>
    obtain ⟨fresh, distinct⟩ := List.nodup_cons.mp distinct
    rw [List.map_cons]
    cases i with
    | zero =>
      cases found
      rw [map_onName_of_fresh fresh, onName, if_pos rfl]
      rfl
    | succ i =>
      have other : g.name ≠ f.name := fun same =>
        fresh (List.mem_map.mpr ⟨f, List.mem_of_getElem? found, same.symm⟩)
      rw [← ih distinct found, onName, if_neg other]
      rfl

theorem applyPending_eq_map (distinct : (fs.map (·.name)).Nodup) (s : State) :
    (applyPending s fs).1 = fs.map (edits s) := by
  show s.pending.foldl (fun fs (name, e) => editFirst name e.apply fs) fs = fs.map fun f =>
    s.pending.foldl (fun f (name, e) => onName name e.apply f) f
  generalize s.pending = pending
  induction pending generalizing fs with
  | nil => exact (List.map_id' fs).symm
  | cons entry pending ih =>
    have keeps := keepsRoles_onName entry.1 entry.2.apply
    have rest := @ih (fs.map (onName entry.1 entry.2.apply)) (keeps.names fs ▸ distinct)
    rw [← editFirst_eq_map distinct] at rest
    rw [List.foldl_cons]
    refine rest.trans ?_
    rw [editFirst_eq_map distinct, List.map_map]
    rfl

end Distinct

/-- The same functions under distinct names, those of each role in the same order. -/
structure Alike (fs gs : List ResourceFn) : Prop where
  distinct : (fs.map (·.name)).Nodup
  perm : fs.Perm gs
  roles (role : Role) : fs.filter (·.role = role) = gs.filter (·.role = role)

section Alike
variable {fs gs : List ResourceFn} {config : Config} {r : Resource}

theorem Alike.distinct' (alike : Alike fs gs) : (gs.map (·.name)).Nodup :=
  (alike.perm.map (·.name)).nodup_iff.mp alike.distinct

theorem Alike.map (alike : Alike fs gs) {change : ResourceFn → ResourceFn} (keeps : KeepsRoles change) :
    Alike (fs.map change) (gs.map change) := by
  refine ⟨keeps.names fs ▸ alike.distinct, alike.perm.map change, fun role => ?_⟩
  have through (hs : List ResourceFn) :
      (hs.map change).filter (·.role = role) = (hs.filter (·.role = role)).map change := by
    rw [List.filter_map]
    refine congrArg (List.map change) (List.filter_congr fun f _ => ?_)
    rw [Function.comp_apply, keeps.role]
  rw [through, through, alike.roles]

theorem helperTable_eq (fs : List ResourceFn) : helperTable fs =
    Table.ofList ((fs.filter (·.role = .helper)).map fun f => (f.name, HelperSignature.ofFn f.code)) := by
  unfold helperTable
  have helpers : fs.filter (fun f => !f.role.isCrud) = fs.filter (·.role = .helper) := by
    refine List.filter_congr fun f _ => ?_
    cases f.role <;> rfl
  rw [helpers]

/-- A place in one list and a place in the other that hold the same function, or none. -/
def SamePlace (fs gs : List ResourceFn) (i j : Nat) : Prop := fs[i]? = gs[j]?

theorem SamePlace.map {i j : Nat} (same : SamePlace fs gs i j) (change : ResourceFn → ResourceFn) :
    SamePlace (fs.map change) (gs.map change) i j := by
  unfold SamePlace
  rw [List.getElem?_map, List.getElem?_map, same]

theorem rewriteFn?_run (f : ResourceFn) (s : State) : (rewriteFn? config r fs f).run s =
    ((runStages? (contextFor config r fs f) standard f.code.body).run s).map fun (body, s) => (withBody f body, s) :=
  Option.map_eq_bind.symm

theorem rewriteAt?_eq_map (distinct : (fs.map (·.name)).Nodup) {f : ResourceFn} {i : Nat} (found : fs[i]? = some f)
    (s : State) : rewriteAt? config r fs s i =
      ((runStages? (contextFor config r fs f) standard f.code.body).run s).map fun (body, s) =>
        (fs.map (edits s ∘ onName f.name fun code => { code with body := body }), { s with pending := [] }) := by
  unfold rewriteAt?
  rw [found]
  dsimp only
  rw [rewriteFn?_run, Option.map_map]
  refine congrArg (Option.map · _) (funext fun (body, s') => ?_)
  have own : fs.set i (withBody f body) = _ := set_eq_map distinct found fun code => { code with body := body }
  have keeps := keepsRoles_onName f.name fun code => { code with body := body }
  have pending := applyPending_eq_map (keeps.names fs ▸ distinct) s'
  rw [← List.map_map, ← pending, ← own]
  rfl

theorem Alike.rewriteAt? (config : Config) (r : Resource) (alike : Alike fs gs) {i j : Nat}
    (same : SamePlace fs gs i j) (s : State) :
    Option.Rel (fun a b => a.2 = b.2 ∧ ∃ change, KeepsRoles change ∧ a.1 = fs.map change ∧ b.1 = gs.map change)
      (rewriteAt? config r fs s i) (rewriteAt? config r gs s j) := by
  cases found : fs[i]? with
  | none =>
    have found' : gs[j]? = none := same ▸ found
    unfold Rewrite.rewriteAt?
    rw [found, found']
    exact .some ⟨rfl, id, ⟨fun _ => rfl, fun _ => rfl⟩, (List.map_id fs).symm, (List.map_id gs).symm⟩
  | some f =>
    have found' : gs[j]? = some f := same ▸ found
    have context : contextFor config r gs f = contextFor config r fs f := by
      rw [contextFor, contextFor, helperTable_eq, helperTable_eq, alike.roles]
    rw [rewriteAt?_eq_map alike.distinct found, rewriteAt?_eq_map alike.distinct' found', context]
    cases (runStages? (contextFor config r fs f) standard f.code.body).run s with
    | none => exact .none
    | some answer => exact .some ⟨rfl, _, (keepsRoles_edits _).comp (keepsRoles_onName _ _), rfl, rfl⟩

theorem Alike.rewriteAll? (config : Config) (r : Resource) (alike : Alike fs gs) {is js : List Nat}
    (places : List.Forall₂ (SamePlace fs gs) is js) (s : State) :
    Option.Rel (fun a b => a.2 = b.2 ∧ Alike a.1 b.1)
      (rewriteAll? config r is fs s) (rewriteAll? config r js gs s) := by
  induction is generalizing fs gs js s with
  | nil =>
    cases places
    exact .some ⟨rfl, alike⟩
  | cons i is ih =>
    cases places with
    | @cons _ j _ js same places =>
      unfold Rewrite.rewriteAll?
      have step := alike.rewriteAt? config r same s
      generalize Rewrite.rewriteAt? config r fs s i = left at step ⊢
      generalize Rewrite.rewriteAt? config r gs s j = right at step ⊢
      cases step with
      | none => exact .none
      | @some left right both =>
        obtain ⟨same, change, keeps, first, second⟩ := both
        obtain ⟨fs', s'⟩ := left
        obtain ⟨gs', s''⟩ := right
        cases same
        cases first
        cases second
        -- what the places left hold is changed alike, so it is the same in both lists still
        exact ih (alike.map keeps) (places.imp fun _ _ same => same.map change) s'

theorem getElem?_order (fs : List ResourceFn) :
    (order fs).map (fs[·]?) = (Role.all.flatMap fun role => fs.filter (·.role = role)).map some := by
  have ofRole (role : Role) : ((fs.zipIdx.filter (·.1.role = role)).map (·.2)).map (fs[·]?) =
      (fs.filter (·.role = role)).map some := by
    rw [List.map_map]
    have here : ∀ x ∈ fs.zipIdx.filter (·.1.role = role), ((fs[·]?) ∘ (·.2)) x = (some ∘ (·.1)) x :=
      fun x mem => List.mem_zipIdx_iff_getElem?.mp (List.mem_of_mem_filter mem)
    rw [List.map_congr_left here, ← List.map_map]
    have own := List.filter_map (f := Prod.fst) (p := fun f : ResourceFn => f.role = role) (l := fs.zipIdx)
    rw [List.zipIdx_map_fst] at own
    exact congrArg (List.map some) own.symm
  rw [order, List.map_flatMap, List.map_flatMap]
  exact List.flatMap_congr fun role _ => ofRole role

theorem Alike.places (alike : Alike fs gs) : List.Forall₂ (SamePlace fs gs) (order fs) (order gs) := by
  have same : (order fs).map (fs[·]?) = (order gs).map (gs[·]?) := by
    rw [getElem?_order, getElem?_order]
    exact congrArg (List.map some) (List.flatMap_congr fun role _ => alike.roles role)
  rw [← List.forall₂_eq_eq_eq, List.forall₂_map_left_iff, List.forall₂_map_right_iff] at same
  exact same

end Alike

/-- No role but that of helpers has two functions. -/
def OneEach (fs : List ResourceFn) : Prop :=
  ∀ f ∈ fs, ∀ g ∈ fs, f.role.isCrud = true → f.role = g.role → f.name = g.name

theorem oneEach_of_ofEntry {config : Config} {entry : RegistryEntry} {r : Resource}
    (analysed : Resource.ofEntry config entry = .ok r) : OneEach r.functions := by
  obtain ⟨lit, crud, analysed⟩ := analysed_of_ofEntry analysed
  have named : ∀ f ∈ r.functions, f.role.isCrud = true → crud.name? f.role = some f.name := by
    intro f mem isCrud
    rw [analysed.functions] at mem
    obtain ⟨source, -, rfl⟩ := List.mem_map.mp mem
    exact Resource.Crud.eq_of_role rfl isCrud
  intro f mem g mem' isCrud same
  have own := named f mem isCrud
  rw [same, named g mem' (same ▸ isCrud)] at own
  exact (Option.some.inj own).symm

theorem OneEach.alike {fs gs : List ResourceFn} (single : OneEach fs) (distinct : (fs.map (·.name)).Nodup)
    (perm : fs.Perm gs) (helpers : fs.filter (·.role = .helper) = gs.filter (·.role = .helper)) : Alike fs gs := by
  refine ⟨distinct, perm, fun role => ?_⟩
  by_cases isCrud : role.isCrud = true
  · have once : ((fs.filter (·.role = role)).map (·.name)).Nodup := distinct.sublist (List.filter_sublist.map _)
    refine eq_of_perm_of_key once (fun f mem g mem' => ?_) (perm.filter _)
    obtain ⟨mem, ofRole⟩ := List.mem_filter.mp mem
    obtain ⟨mem', ofRole'⟩ := List.mem_filter.mp mem'
    have ofRole : f.role = role := of_decide_eq_true ofRole
    have ofRole' : g.role = role := of_decide_eq_true ofRole'
    exact single f mem g mem' (ofRole ▸ isCrud) (ofRole.trans ofRole'.symm)
  · have helper : role = .helper := by
      cases role <;> first | rfl | exact (isCrud rfl).elim
    rw [helper, helpers]

/-- What a run gives: each function by its name, and what was recorded. -/
def byName (answer : Resource × State) : (String → Option ResourceFn) × State := (answer.1.function?, answer.2)

theorem byName_of_alike {fs gs : List ResourceFn} (alike : Alike fs gs) (r : Resource) (s : State) :
    byName ({ r with functions := gs }, s) = byName ({ r with functions := fs }, s) :=
  congrArg (·, s) (funext fun name => find?_key_of_perm alike.distinct alike.perm name)

theorem rewriteAll?_functions (config : Config) (r : Resource) (others : List ResourceFn) (is : List Nat)
    (fs : List ResourceFn) (s : State) :
    rewriteAll? config { r with functions := others } is fs s = rewriteAll? config r is fs s := by
  induction is generalizing fs s with
  | nil => rfl
  | cons i is ih => exact congrArg (Option.bind (rewriteAt? config r fs s i)) (funext fun (fs, s) => ih fs s)

theorem Alike.rewriteResource? {config : Config} {r : Resource} {fs : List ResourceFn} (alike : Alike r.functions fs) :
    (rewriteResource? config { r with functions := fs }).map byName = (rewriteResource? config r).map byName := by
  unfold Rewrite.rewriteResource?
  rw [rewriteAll?_functions]
  have run := alike.rewriteAll? config r alike.places {}
  generalize Rewrite.rewriteAll? config r (order r.functions) r.functions {} = left at run ⊢
  generalize Rewrite.rewriteAll? config r (order fs) fs {} = right at run ⊢
  cases run with
  | none => rfl
  | @some left right both =>
    obtain ⟨same, alike⟩ := both
    obtain ⟨fs', s'⟩ := left
    obtain ⟨gs', s''⟩ := right
    cases same
    exact congrArg some (byName_of_alike alike r s')

/-- Where the functions of create, read, update and delete stand makes no difference to a run. -/
theorem crud_functions_in_any_order (config : Config) :
    (∀ entry r, Resource.ofEntry config entry = .ok r → OneEach r.functions) ∧
    ∀ (r : Resource) (fs : List ResourceFn), (r.functions.map (·.name)).Nodup → OneEach r.functions →
      r.functions.Perm fs → r.functions.filter (·.role = .helper) = fs.filter (·.role = .helper) →
      (rewriteResource? config { r with functions := fs }).map byName = (rewriteResource? config r).map byName :=
  ⟨fun _ _ analysed => oneEach_of_ofEntry analysed, fun _ _ distinct single perm helpers =>
    (single.alike distinct perm helpers).rewriteResource?⟩

theorem crud_functions_in_any_order_label : ∃ r, Resource.ofEntry {} labelEntry = .ok r ∧
    (r.functions.map (·.name)).Nodup ∧ OneEach r.functions ∧
    r.functions.filter (·.role = .helper) = r.functions.reverse.filter (·.role = .helper) ∧
    ((rewriteResource? {} r).any fun (_, s) => s.promoted == ["label"]) = true ∧
    (rewriteResource? {} { r with functions := r.functions.reverse }).map byName =
      (rewriteResource? {} r).map byName := by
  have known : ((Resource.ofEntry {} labelEntry).toOption.any fun r =>
      r.functions.map (·.name) == ["add", "show", "drop", "label"] &&
      ((r.functions.filter (·.role = .helper)).length == 1 &&
      (rewriteResource? {} r).any fun (_, s) => s.promoted == ["label"])) = true := by
    decide +kernel
  cases analysed : Resource.ofEntry {} labelEntry with
  | error e =>
    rw [analysed] at known
    cases known
  | ok r =>
    rw [analysed] at known
    have known : (r.functions.map (·.name) == ["add", "show", "drop", "label"] &&
        ((r.functions.filter (·.role = .helper)).length == 1 &&
        (rewriteResource? {} r).any fun (_, s) => s.promoted == ["label"])) = true := known
    rw [Bool.and_eq_true, Bool.and_eq_true, beq_iff_eq, beq_iff_eq] at known
    obtain ⟨names, one, promoted⟩ := known
    have distinct : (r.functions.map (·.name)).Nodup := by
      rw [names]
      decide
    have single := (crud_functions_in_any_order {}).1 labelEntry r analysed
    have helpers : r.functions.filter (·.role = .helper) = r.functions.reverse.filter (·.role = .helper) := by
      obtain ⟨f, only⟩ := List.length_eq_one_iff.mp one
      rw [List.filter_reverse, only, List.reverse_singleton]
    have same := (crud_functions_in_any_order {}).2 r r.functions.reverse distinct single
      (List.reverse_perm r.functions).symm helpers
    exact ⟨r, rfl, distinct, single, helpers, promoted, same⟩

end Retype.Rewrite
