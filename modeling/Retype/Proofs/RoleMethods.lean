import Retype.Proofs.BareCalls

/-! Methods of the typed interface.  A function has one role, so a definition that names one function in two of its
fields gets that function's method twice and no method for the other field. -/

namespace Retype
open Retype.Code
open Retype.Rewrite (Role frame)
open TypedFile

theorem Rewrite.Role.label_inj {a b : Role} (h : a.label = b.label) : a = b := by
  cases a <;> cases b <;> first | rfl | exact absurd h (by decide)

namespace Resource.Crud

/-- The function that a definition names for a role. -/
def name? (c : Crud) : Role → Option String
  | .create => some c.create
  | .read => some c.read
  | .update => c.update
  | .delete => some c.delete
  | .helper => none

theorem role_update {c : Crud} {name : String} (h : c.update = some name) : c.role name = .update := by
  rw [role, h, if_pos (beq_self_eq_true _)]

theorem role_eq_iff_nodup (c : Crud) :
    (c.role c.create = .create ∧ c.role c.read = .read ∧ c.role c.delete = .delete) ↔ c.names.Nodup := by
  obtain ⟨create, read, delete, update⟩ := c
  cases update with
  | none =>
    simp only [names, role]
    grind
  | some u =>
    simp only [names, role]
    grind

theorem eq_of_role {c : Crud} {name : String} {role : Role} (h : c.role name = role) (isCrud : role.isCrud = true) : c.name? role = some name := by
  unfold Crud.role at h
  grind [name?, Role.isCrud]

end Resource.Crud

/-- The timeout that a definition gives for a role, in milliseconds; zero if it gives none. -/
def timeoutFor (lit : StructLit) (role : Role) : Nat :=
  (Table.get? (((Definition.field? lit "timeouts").map Definition.timeouts).getD []) role.label).getD 0

/-- The method for a role that wraps the body of a function. -/
def methodFor (s : Setting) (role : Role) (timeout : Nat) (f : ResourceFn) : Tree :=
  let func := moveClosure ["ctx", s.metaVar] (closureBody s { f with role := role })
  methodOf role.label (s.sdkType "ResourceFunc")
    [tailStmt (structLitOf (s.sdk.extendPath "ResourceFunc")
      [("timeout", timeoutExpr s { f with timeout := timeout }),
        ("func", callOf (exprOf (pathOfNames ["Box", "new"])) [func])])]

@[simp] theorem methodName?_methodFor (s : Setting) (role : Role) (timeout : Nat) (f : ResourceFn) :
    methodName? (methodFor s role timeout f) = some role.label := rfl

def methodField? (name : String) : Tree → Option Tree
  | .node (.item .method) [_, _, _, _, .node .block [.group _ [.node (.stmt .expr) [value, _]]]] =>
    value.structLit?.bind fun lit => Definition.field? lit name
  | _ => none

/-- The block of the closure in a method. -/
def handler? (m : Tree) : Option Tree :=
  match methodField? "func" m with
  | some (.node (.expr .call) [_, _, .group _ [.node (.expr .closure) parts]]) =>
    match parts.getLast? with
    | some (.node (.expr .block) [_, _, block]) => some block
    | _ => none
  | _ => none

/-- The model that a read hands over. -/
def encodeModel (s : Setting) (f : ResourceFn) : Tree :=
  methodCallOf (var s.metaVar) "encode" [referenceOf false (var (Naming.identifier f.varModel))]

/-- The method for a role reads as one that takes `&self` and answers the timeout and a closure.  The closure makes the
model, fills it unless the role is to read, and goes on with the body of the function, of which a read hands the model
over where it ends in success. -/
structure Wraps (s : Setting) (role : Role) (timeout : Nat) (f : ResourceFn) (m : Tree) : Prop where
  name : methodName? m = some role.label
  receiver : m.method?.map (fun g => g.inputs.map Tree.text) = some ["& self"]
  timeout : methodField? "timeout" m = some (timeoutExpr s { f with timeout := timeout })
  body : ∃ opening, (handler? m).map blockStmts =
      some (opening ++ if role = .read then encodeOnSuccess (encodeModel s f) f.code.stmts else f.code.stmts) ∧
    opening.length = if role = .read then 1 else 2

theorem exists_opening (s : Setting) (role : Role) (f : ResourceFn) : ∃ opening,
    closureBody s { f with role := role } = opening ++
      (if role = .read then encodeOnSuccess (encodeModel s f) f.code.stmts else f.code.stmts) ∧
    opening.length = if role = .read then 1 else 2 := by
  unfold closureBody
  dsimp only
  split
  · exact ⟨[_], rfl, rfl⟩
  · exact ⟨[_, _], rfl, rfl⟩

theorem wraps_methodFor (s : Setting) (role : Role) (timeout : Nat) (f : ResourceFn) :
    Wraps s role timeout f (methodFor s role timeout f) where
  name := rfl
  receiver := congrArg some (by decide : [refSelf.text] = ["& self"])
  timeout := rfl
  body := by
    obtain ⟨opening, stmts, length⟩ := exists_opening s role f
    exact ⟨opening, congrArg some stmts, length⟩

theorem crudMethodNamed_eq_ok {s : Setting} {name : String} {m : Tree} (h : crudMethodNamed s name = .ok m) :
    ∃ f, s.resource.function? name = some f ∧ m = methodFor s f.role f.timeout f := by
  unfold crudMethodNamed at h
  split at h
  · rename_i f found
    unfold crudMethod at h
    split at h
    · cases h
    · cases h
      exact ⟨f, found, rfl⟩
  · cases h

def methodsNamed (name : String) (members : Trees) : Trees := members.filter (methodName? · == some name)

/-- There is one method for a role among the members: it wraps the body of the named function, with the timeout that
the definition gives for the role. -/
def HasMethod (s : Setting) (lit : StructLit) (members : Trees) (role : Role) (name : String) : Prop :=
  ∃ f m, s.resource.function? name = some f ∧ methodsNamed role.label members = [m] ∧
    Wraps s role (timeoutFor lit role) f m

section Roles
variable {config : Config} {entry : RegistryEntry} {lit : StructLit} {crud : Resource.Crud} {r : Resource}
  {fs : List ResourceFn}

theorem Analysed.role_timeout (analysed : Analysed config entry lit crud r)
    (framed : fs.map frame = r.functions.map frame) {f : ResourceFn} (mem : f ∈ fs) :
    f.role = crud.role f.name ∧ f.timeout = if f.role.isCrud then timeoutFor lit f.role else 0 := by
  have source : ∀ g ∈ r.functions,
      g.role = crud.role g.name ∧ g.timeout = if g.role.isCrud then timeoutFor lit g.role else 0 := by
    intro g mem
    rw [analysed.functions] at mem
    obtain ⟨f, -, rfl⟩ := List.mem_map.mp mem
    exact ⟨rfl, rfl⟩
  have mem : frame f ∈ r.functions.map frame := framed ▸ List.mem_map_of_mem mem
  obtain ⟨g, mem, same⟩ := List.mem_map.mp mem
  have kept : f.role = g.role ∧ f.name = g.name ∧ f.timeout = g.timeout :=
    ⟨(congrArg ResourceFn.role same).symm, (congrArg ResourceFn.name same).symm, (congrArg ResourceFn.timeout same).symm⟩
  rw [kept.1, kept.2.1, kept.2.2]
  exact source g mem

theorem function?_eq_some {r : Resource} {name : String} {f : ResourceFn} (h : r.function? name = some f) :
    f ∈ r.functions ∧ f.name = name := by
  have named := List.find?_some h
  exact ⟨List.mem_of_find?_eq_some h, beq_iff_eq.mp named⟩

theorem Analysed.crudMethodNamed (analysed : Analysed config entry lit crud r) {s : Setting}
    (framed : s.resource.functions.map frame = r.functions.map frame) {name : String} {m : Tree}
    (isCrud : (crud.role name).isCrud = true) (h : TypedFile.crudMethodNamed s name = .ok m) :
    ∃ f, s.resource.function? name = some f ∧ m = methodFor s (crud.role name) (timeoutFor lit (crud.role name)) f := by
  obtain ⟨f, found, rfl⟩ := crudMethodNamed_eq_ok h
  obtain ⟨mem, rfl⟩ := function?_eq_some found
  obtain ⟨role, timeout⟩ := analysed.role_timeout framed mem
  rw [role, if_pos isCrud] at timeout
  rw [role, timeout]
  exact ⟨f, found, rfl⟩

end Roles

theorem methodsNamed_map (s : Setting) (lit : StructLit) (roleOf : String → Role) (role : Role)
    (named : List (String × ResourceFn)) :
    methodsNamed role.label (named.map fun p => methodFor s (roleOf p.1) (timeoutFor lit (roleOf p.1)) p.2) =
      (named.filter fun p => roleOf p.1 = role).map fun p => methodFor s role (timeoutFor lit role) p.2 := by
  have labels : ((methodName? · == some role.label) ∘ fun p : String × ResourceFn =>
      methodFor s (roleOf p.1) (timeoutFor lit (roleOf p.1)) p.2) = fun p => decide (roleOf p.1 = role) := by
    funext p
    rw [Function.comp_apply, methodName?_methodFor, Bool.eq_iff_iff, beq_iff_eq, decide_eq_true_iff, Option.some_inj]
    exact ⟨Rewrite.Role.label_inj, congrArg Role.label⟩
  rw [methodsNamed, List.filter_map, labels]
  refine List.map_congr_left fun p mem => ?_
  rw [of_decide_eq_true (List.mem_filter.mp mem).2]

theorem methodName?_generalMembers {s : Setting} {t : Tree} (mem : t ∈ generalMembers s) (role : Role) :
    (methodName? t == some role.label) = false := by
  simp only [generalMembers, idValidation, List.mem_append, List.mem_cons, List.not_mem_nil, or_false, List.mem_map] at mem
  rcases mem with ((rfl | rfl | rfl) | ⟨e, -, rfl⟩) | rfl | rfl <;> cases role <;> rfl

theorem methodsNamed_append (name : String) (ts us : Trees) :
    methodsNamed name (ts ++ us) = methodsNamed name ts ++ methodsNamed name us := List.filter_append ..

theorem methodsNamed_generalMembers (s : Setting) (role : Role) : methodsNamed role.label (generalMembers s) = [] := by
  rw [methodsNamed, List.filter_eq_nil_iff]
  intro t mem
  rw [methodName?_generalMembers mem]
  exact Bool.false_ne_true

section Interface
variable {config : Config} {entry : RegistryEntry} {lit : StructLit} {crud : Resource.Crud} {r : Resource} {s : Setting}

theorem resourceImpl_members (analysed : Analysed config entry lit crud r)
    (framed : s.resource.functions.map frame = r.functions.map frame) 
    (fields : s.resource.create = crud.create ∧ s.resource.read = crud.read ∧ s.resource.delete = crud.delete)
    {main : Tree} (h : resourceImpl s = .ok main) : ∃ members fc fr fd,
      main = implTraitOf (s.sdk.extendPath "Resource") s.receiver members ∧
      s.resource.function? crud.create = some fc ∧ s.resource.function? crud.read = some fr ∧
      s.resource.function? crud.delete = some fd ∧
      ∀ role : Role, methodsNamed role.label members =
        ([(crud.create, fc), (crud.read, fr), (crud.delete, fd)].filter fun p => crud.role p.1 = role).map
          fun p => methodFor s role (timeoutFor lit role) p.2 := by
  obtain ⟨methods, found, rfl⟩ := resourceImpl_eq_ok h
  rw [fields.1, fields.2.1, fields.2.2] at found
  have isCrud (name : String) (mem : name ∈ crud.names) : (crud.role name).isCrud = true := by
    rw [Resource.Crud.isCrud_role]
    exact List.contains_iff_mem.mpr mem
  cases forall₂_of_mapM found with
  | cons hc rest =>
    cases rest with
    | cons hr rest =>
      cases rest with
      | cons hd rest =>
        cases rest
        obtain ⟨fc, foundc, rfl⟩ := analysed.crudMethodNamed framed (isCrud _ (by simp [Resource.Crud.names])) hc
        obtain ⟨fr, foundr, rfl⟩ := analysed.crudMethodNamed framed (isCrud _ (by simp [Resource.Crud.names])) hr
        obtain ⟨fd, foundd, rfl⟩ := analysed.crudMethodNamed framed (isCrud _ (by simp [Resource.Crud.names])) hd
        refine ⟨_, fc, fr, fd, rfl, foundc, foundr, foundd, fun role => ?_⟩
        rw [methodsNamed_append, methodsNamed_generalMembers, List.nil_append]
        exact methodsNamed_map s lit crud.role role [(crud.create, fc), (crud.read, fr), (crud.delete, fd)]

theorem hasMethod_iff {members : Trees} {fc fr fd : ResourceFn}
    (foundc : s.resource.function? crud.create = some fc) (foundr : s.resource.function? crud.read = some fr)
    (foundd : s.resource.function? crud.delete = some fd)
    (named : ∀ role : Role, methodsNamed role.label members =
      ([(crud.create, fc), (crud.read, fr), (crud.delete, fd)].filter fun p => crud.role p.1 = role).map
        fun p => methodFor s role (timeoutFor lit role) p.2) :
    (HasMethod s lit members .create crud.create ∧ HasMethod s lit members .read crud.read ∧
      HasMethod s lit members .delete crud.delete) ↔ crud.names.Nodup := by
  rw [← Resource.Crud.role_eq_iff_nodup]
  have own {role : Role} {name : String} (has : HasMethod s lit members role name) (isCrud : role.isCrud = true) :
      ∃ f, crud.name? role = some f ∧ crud.role f = role := by
    obtain ⟨f, m, -, one, -⟩ := has
    rw [named] at one
    have mem : m ∈ [m] := List.mem_singleton_self m
    rw [← one] at mem
    obtain ⟨⟨name, _⟩, mem, -⟩ := List.mem_map.mp mem
    have same := of_decide_eq_true (List.mem_filter.mp mem).2
    exact ⟨name, Resource.Crud.eq_of_role same isCrud, same⟩
  constructor
  · rintro ⟨hasc, hasr, hasd⟩
    obtain ⟨_, ⟨⟩, rolec⟩ := own hasc rfl
    obtain ⟨_, ⟨⟩, roler⟩ := own hasr rfl
    obtain ⟨_, ⟨⟩, roled⟩ := own hasd rfl
    exact ⟨rolec, roler, roled⟩
  · rintro ⟨rolec, roler, roled⟩
    refine ⟨⟨fc, _, foundc, ?_, wraps_methodFor ..⟩, ⟨fr, _, foundr, ?_, wraps_methodFor ..⟩,
      ⟨fd, _, foundd, ?_, wraps_methodFor ..⟩⟩
    · rw [named]
      simp [rolec, roler, roled]
    · rw [named]
      simp [rolec, roler, roled]
    · rw [named]
      simp [rolec, roler, roled]

end Interface

/-- The definition names the functions of a resource in the fields that are called after their roles. -/
def NamedBy (lit : StructLit) (r : Resource) : Prop :=
  ((Definition.field? lit "create").bind Definition.function? = some r.create) ∧
  ((Definition.field? lit "read").bind Definition.function? = some r.read) ∧
  ((Definition.field? lit "delete").bind Definition.function? = some r.delete) ∧
  ((Definition.field? lit "update").bind Definition.function? = r.update)

theorem crud_of_rewritten {config : Config} {entry : RegistryEntry} {lit : StructLit} {crud : Resource.Crud}
    {r r' : Resource} {state : Rewrite.State} (analysed : Analysed config entry lit crud r)
    (rewritten : Rewrite.rewriteResource? config r = some (r', state)) : NamedBy lit r' ∧
      r'.create = crud.create ∧ r'.read = crud.read ∧ r'.update = crud.update ∧ r'.delete = crud.delete := by
  have fields : r'.create = crud.create ∧ r'.read = crud.read ∧ r'.update = crud.update ∧ r'.delete = crud.delete := by
    rw [(Rewrite.rewriteResource?_frame rewritten).1]
    exact analysed.fields
  obtain ⟨create, read, update, delete⟩ := fields
  refine ⟨?_, create, read, update, delete⟩
  rw [NamedBy, create, read, update, delete]
  exact crud_eq_ok analysed.named

/-- The typed interface has a method for the creation, the read and the deletion, each with the body of the function
that the definition names for it and with its timeout, exactly if the definition names no function twice.  The method
for the update is always there if the definition names a function for it. -/
theorem methods_iff_distinct_functions {config : Config} {entry : RegistryEntry} {file : Typed}
    (built : typed? config entry = some file) : ∃ lit sdk structs main members updates upgrades methods,
    Resource.definitionOf config entry = some lit ∧ NamedBy lit file.resource ∧
    let s : Setting := ⟨config, file.resource, sdk⟩
    Assembled s file.state.promoted file.items structs main (updates ++ upgrades) methods ∧
    main.impl? = some ⟨some (sdk.extendPath "Resource"), s.receiver, members⟩ ∧
    ((HasMethod s lit members .create file.resource.create ∧ HasMethod s lit members .read file.resource.read ∧
      HasMethod s lit members .delete file.resource.delete) ↔ file.resource.crudNames.Nodup) ∧
    List.Forall₂ (fun name t => ∃ f m, file.resource.function? name = some f ∧
      t.impl? = some ⟨some (sdk.extendPath "ResourceWithUpdate"), s.receiver, [m]⟩ ∧
      Wraps s .update (timeoutFor lit .update) f m) file.resource.update.toList updates ∧
    ∀ t ∈ upgrades, ∃ members, t.impl? =
      some ⟨some (sdk.extendPath "ResourceWithStateMigration"), s.receiver, members⟩ := by
  obtain ⟨r, analysed, rewritten, items⟩ := typed?_eq_some built
  obtain ⟨lit, crud, analysed⟩ := analysed_of_ofEntry analysed
  obtain ⟨-, framed⟩ := Rewrite.rewriteResource?_frame rewritten
  obtain ⟨sdk, structs, main, further, methods, assembled⟩ := assembled_of_items items
  obtain ⟨namedBy, create, read, update, delete⟩ := crud_of_rewritten analysed rewritten
  obtain ⟨members, fc, fr, fd, rfl, foundc, foundr, foundd, named⟩ :=
    resourceImpl_members analysed framed ⟨create, read, delete⟩ assembled.ofMain
  obtain ⟨updates, upgrades, rfl, updated, upgraded⟩ := furtherImpls_eq_ok assembled.ofFurther
  refine ⟨lit, sdk, structs, _, members, updates, upgrades, methods, analysed.defined, namedBy, assembled, rfl, ?_, ?_,
    fun t mem => ?_⟩
  · have names : file.resource.crudNames = crud.names := by
      rw [Resource.crudNames, create, read, update, delete]
      rfl
    rw [names, create, read, delete]
    exact hasMethod_iff foundc foundr foundd named
  · revert updated
    rw [update]
    rcases named : crud.update with _ | name
    · intro updated
      cases updated
      exact .nil
    · intro updated
      have role := Resource.Crud.role_update named
      cases updated with
      | cons first rest =>
        cases rest
        obtain ⟨method, made, rfl⟩ := first
        obtain ⟨f, found, rfl⟩ := analysed.crudMethodNamed framed (by rw [role]; rfl) made
        rw [role]
        exact .cons ⟨f, _, found, rfl, wraps_methodFor ..⟩ .nil
  · obtain ⟨members, rfl⟩ := upgraded t mem
    exact ⟨members, rfl⟩

theorem methods_iff_distinct_functions_label : ∃ file lit sdk members, typed? {} labelEntry = some file ∧
    HasMethod ⟨{}, file.resource, sdk⟩ lit members .create "add" ∧
    HasMethod ⟨{}, file.resource, sdk⟩ lit members .read "show" ∧
    HasMethod ⟨{}, file.resource, sdk⟩ lit members .delete "drop" := by
  obtain ⟨file, built, -, fields, names, -⟩ := typed?_labelEntry
  obtain ⟨create, fields⟩ := List.cons.inj fields
  obtain ⟨read, fields⟩ := List.cons.inj fields
  have delete := (List.cons.inj fields).1
  obtain ⟨lit, sdk, -, -, members, -, -, -, -, -, -, -, distinct, -⟩ := methods_iff_distinct_functions built
  rw [create, read, delete, names] at distinct
  exact ⟨file, lit, sdk, members, built, distinct.mpr (by decide)⟩

end Retype
