import Retype.Proofs.Assembly

/-! Calls of functions by their bare names in a typed file.  A helper that becomes a method of the receiver is no free
function of the file any more; the second stage rewrites its calls where a `let` or an assignment binds them, in every
function of the resource. -/

namespace Retype
open Retype.Code
open Retype.Rewrite (Role Context nodes nodesAll bindsCall calledName? endsInRead RenamesTo isHelper isHelper_make frame
  any_of_frames)

/-- The names of the free functions among items. -/
def fnNames (items : Trees) : List String := (items.filterMap (·.fn?)).map (·.name)

/-- The functions of the source that are neither the definition nor one that it names. -/
def isSourceHelper (entry : RegistryEntry) (r : Resource) (name : String) : Bool :=
  (fnNames entry.items).contains name && name != entry.function && !r.crudNames.contains name

theorem header_of_fn? {t : Tree} {f : Fn} (h : t.fn? = some f) : f.head.length = 7 := by
  unfold Tree.fn? at h
  split at h
  · cases h
    rfl
  · cases h

theorem names_of_frames {p : ResourceFn → Bool} (same : ∀ f, p (frame f) = p f) {fs gs : List ResourceFn}
    (framed : fs.map frame = gs.map frame) :
    (fs.filter p).map (·.code.name) = (gs.filter p).map (·.code.name) := by
  have through : ∀ hs : List ResourceFn, (hs.filter p).map (·.code.name) = ((hs.map frame).filter p).map (·.code.name) := by
    intro hs
    have comp : p ∘ frame = p := funext same
    rw [List.filter_map, comp, List.map_map]
    rfl
  rw [through, framed, ← through]

section Source
variable {config : Config} {entry : RegistryEntry} {lit : StructLit} {crud : Resource.Crud} {r r' : Resource}
  {fs : List ResourceFn}

theorem Analysed.any_helper (analysed : Analysed config entry lit crud r) (framed : fs.map frame = r.functions.map frame)
    (name : String) : (fs.any fun f => !f.role.isCrud && f.name == name) = isSourceHelper entry r name := by
  rw [any_of_frames (fun _ => rfl) framed, analysed.functions, List.any_map, List.any_filter, isSourceHelper, fnNames,
    analysed.crudNames_eq, Bool.eq_iff_iff]
  simp only [List.any_eq_true, Bool.and_eq_true, List.contains_iff_mem, List.mem_map, Function.comp_apply]
  constructor
  · rintro ⟨f, mem, other, helper, same⟩
    obtain rfl : f.name = name := beq_iff_eq.mp same
    refine ⟨⟨⟨f, mem, rfl⟩, other⟩, ?_⟩
    rw [← Resource.Crud.isCrud_role]
    exact helper
  · rintro ⟨⟨⟨f, mem, rfl⟩, other⟩, helper⟩
    rw [← Resource.Crud.isCrud_role] at helper
    exact ⟨f, mem, other, helper, beq_self_eq_true _⟩

theorem Analysed.freeOf_names (analysed : Analysed config entry lit crud r)
    (framed : fs.map frame = r.functions.map frame) (promoted : List String) :
    (freeOf promoted fs).map (·.code.name) =
      (fnNames entry.items).filter fun name => isSourceHelper entry r name && !promoted.contains name := by
  rw [freeOf, List.filter_filter, names_of_frames (fun _ => rfl) framed, analysed.functions, fnNames, List.filter_map,
    List.filter_map, List.map_map, List.filter_filter]
  refine congrArg (List.map _) (List.filter_congr fun f mem => ?_)
  have member : (fnNames entry.items).contains f.name = true := by
    rw [List.contains_iff_mem]
    exact List.mem_map_of_mem mem
  have role : decide ((ResourceFn.ofFn config crud.role
      (Table.get? (((Definition.field? lit "timeouts").map Definition.timeouts).getD [])) f).role = .helper) =
      !(crud.role f.name).isCrud := by
    change decide (crud.role f.name = .helper) = _
    cases crud.role f.name <;> rfl
  have named : (ResourceFn.ofFn config crud.role
      (Table.get? (((Definition.field? lit "timeouts").map Definition.timeouts).getD [])) f).name = f.name := rfl
  rw [Function.comp_apply, Function.comp_apply, role, named, isSourceHelper, member, analysed.crudNames_eq,
    ← Resource.Crud.isCrud_role]
  cases (crud.role f.name).isCrud <;> cases promoted.contains f.name <;> cases f.name != entry.function <;> rfl

theorem Analysed.headers (analysed : Analysed config entry lit crud r)
    (framed : fs.map frame = r.functions.map frame) : ∀ f ∈ fs, f.code.head.length = 7 := by
  have source : (r.functions.any fun f => f.code.head.length != 7) = false := by
    rw [analysed.functions, List.any_map, List.any_eq_false]
    intro f mem
    obtain ⟨t, -, found⟩ := List.mem_filterMap.mp (List.mem_of_mem_filter mem)
    have header := header_of_fn? found
    exact fun other => bne_iff_ne.mp other header
  rw [← any_of_frames (fun _ => rfl) framed, List.any_eq_false] at source
  intro f mem
  by_contra other
  exact source f mem (bne_iff_ne.mpr other)

end Source

theorem fn?_toTree {f : Fn} (header : f.head.length = 7) : f.toTree.fn? = some f := by
  obtain ⟨attrs, vis, head, inputs, output, preds, body⟩ := f
  obtain ⟨c, a, u, e, w, name, generics, rfl⟩ : ∃ c a u e w name generics, head = [c, a, u, e, w, name, generics] := by
    match head, header with
    | [c, a, u, e, w, name, generics], _ => exact ⟨c, a, u, e, w, name, generics, rfl⟩
  rfl

theorem fn?_of_isUse {t : Tree} (h : isUse t = true) : t.fn? = none := by
  unfold isUse at h
  split at h
  · rfl
  · cases h

theorem Assembled.fns {s : TypedFile.Setting} {promoted : List String} {ts structs : Trees} {main : Tree}
    {further methods : Trees} (h : Assembled s promoted ts structs main further methods)
    (imports : ∀ t ∈ s.resource.imports, t.fn? = none) (passthrough : ∀ t ∈ s.resource.passthrough, t.fn? = none)
    (headers : ∀ f ∈ s.resource.functions, f.code.head.length = 7) :
    ts.filterMap (·.fn?) = (freeOf promoted s.resource.functions).map (·.code) := by
  have structs' : ∀ t ∈ structs, t.fn? = none := by
    intro t mem
    obtain ⟨m, -, made⟩ := exists_of_forall₂_right h.ofStructs mem
    obtain ⟨fields, -, rfl⟩ := structOf_eq_ok made
    rfl
  have main' : main.fn? = none := by
    obtain ⟨crud, -, rfl⟩ := resourceImpl_eq_ok h.ofMain
    rfl
  have further' : ∀ t ∈ further, t.fn? = none := by
    intro t mem
    obtain ⟨updates, upgrades, rfl, made, upgrade⟩ := furtherImpls_eq_ok h.ofFurther
    rcases List.mem_append.mp mem with mem | mem
    · obtain ⟨name, -, method, -, rfl⟩ := exists_of_forall₂_right made mem
      rfl
    · obtain ⟨methods, rfl⟩ := upgrade t mem
      rfl
  have methods' : ∀ t ∈ methods, t.fn? = none := by
    intro t mem
    rw [h.ofMethods] at mem
    split at mem
    · cases mem
    · cases List.mem_singleton.mp mem
      rfl
  have receiver : (TypedFile.receiverStruct s).fn? = none := rfl
  rw [h.items]
  simp only [List.filterMap_append, List.filterMap_cons, List.append_assoc,
    List.filterMap_eq_nil_iff.mpr imports, List.filterMap_eq_nil_iff.mpr structs',
    List.filterMap_eq_nil_iff.mpr passthrough, List.filterMap_eq_nil_iff.mpr further',
    List.filterMap_eq_nil_iff.mpr methods', main', receiver, List.nil_append, List.filterMap_map]
  rw [← List.filterMap_eq_map]
  refine List.filterMap_congr fun f mem => ?_
  exact fn?_toTree (headers f (List.mem_of_mem_filter (List.mem_of_mem_filter mem)))

/-- The statements of a function as the typed file has them. -/
def builtStmts (s : TypedFile.Setting) (f : ResourceFn) : Trees :=
  if f.role.isCrud then TypedFile.closureBody s f else f.code.stmts

/-- No node among the trees binds a call of one of the names. -/
def BindsNone (names : String → Bool) (ts : Trees) : Prop := ∀ t ∈ nodesAll ts, bindsCall names t = false

namespace BindsNone
variable {names : String → Bool}

theorem append {ts us : Trees} (ht : BindsNone names ts) (hu : BindsNone names us) : BindsNone names (ts ++ us) := by
  intro t mem
  rw [Rewrite.nodesAll_append] at mem
  rcases List.mem_append.mp mem with mem | mem
  · exact ht t mem
  · exact hu t mem

theorem cons {t : Tree} {ts : Trees} (ht : BindsNone names [t]) (hts : BindsNone names ts) :
    BindsNone names (t :: ts) := append ht hts

theorem of_cons {t : Tree} {ts : Trees} (h : BindsNone names (t :: ts)) :
    BindsNone names [t] ∧ BindsNone names ts := by
  rw [show t :: ts = [t] ++ ts from rfl] at h
  constructor
  · intro u mem
    refine h u ?_
    rw [Rewrite.nodesAll_append]
    exact List.mem_append_left _ mem
  · intro u mem
    refine h u ?_
    rw [Rewrite.nodesAll_append]
    exact List.mem_append_right _ mem

theorem node {k : Kind} {parts : Trees} (root : bindsCall names (.node k parts) = false) (inner : BindsNone names parts)
    (opened : k ≠ .macroBody) : BindsNone names [.node k parts] := by
  intro t mem
  rw [nodesAll, nodesAll, List.append_nil, Rewrite.nodes_of_ne opened] at mem
  rcases List.mem_cons.mp mem with rfl | mem
  · exact root
  · exact inner t mem

theorem of_node {k : Kind} {parts : Trees} (opened : k ≠ .macroBody) (h : BindsNone names [.node k parts]) :
    BindsNone names parts := by
  intro t mem
  refine h t ?_
  rw [nodesAll, nodesAll, List.append_nil, Rewrite.nodes_of_ne opened]
  exact List.mem_cons_of_mem _ mem

theorem filter {ts : Trees} (p : Tree → Bool) (h : BindsNone names ts) : BindsNone names (ts.filter p) := by
  induction ts with
  | nil => exact h
  | cons t ts ih =>
    obtain ⟨first, rest⟩ := of_cons h
    rw [List.filter_cons]
    split
    · exact cons first (ih rest)
    · exact ih rest

theorem stmts {f : Fn} (h : BindsNone names [f.body]) : BindsNone names f.stmts := by
  refine filter _ ?_
  unfold blockStmts
  split
  · rename_i d stmts body
    rw [body] at h
    have inner : BindsNone names [.group d stmts] := of_node (by decide) h
    intro t mem
    refine inner t ?_
    rw [nodesAll, nodesAll, List.append_nil]
    exact mem
  · intro t mem
    cases mem

theorem encodeLast {encode s : Tree} (made : BindsNone names [encode]) (h : BindsNone names [s]) :
    BindsNone names [TypedFile.encodeLast encode s] := by
  unfold TypedFile.encodeLast
  split
  · rename_i attrs w value semi
    obtain ⟨returns, semi⟩ := of_cons (of_node (by decide) h)
    obtain ⟨attrs, rest⟩ := of_cons (of_node (by decide) returns)
    obtain ⟨w, value⟩ := of_cons rest
    refine node rfl (cons (node rfl (cons attrs (cons w ?_)) (by decide)) semi) (by decide)
    split
    · exact made
    · exact value
  · rename_i e semi _
    obtain ⟨e, semi⟩ := of_cons (of_node (by decide) h)
    refine node rfl (cons ?_ semi) (by decide)
    split
    · exact made
    · exact e
  · exact h

theorem encodeOnSuccess {encode : Tree} {ts : Trees} (made : BindsNone names [encode]) (h : BindsNone names ts) :
    BindsNone names (TypedFile.encodeOnSuccess encode ts) := by
  fun_induction TypedFile.encodeOnSuccess encode ts with
  | case1 => exact h
  | case2 s => exact encodeLast made h
  | case3 s t ts ih =>
    obtain ⟨first, rest⟩ := of_cons h
    exact cons first (ih rest)

theorem of_all {ts : Trees} (h : ((nodesAll ts).all fun t => !bindsCall names t) = true) : BindsNone names ts := by
  intro t mem
  have binds := List.all_eq_true.mp h t mem
  rwa [Bool.not_eq_true'] at binds

theorem makesModel (name model : String) : BindsNone names [letMut name (TypedFile.defaultOf model)] := of_all rfl

theorem callsMethod (receiver method arg : String) (mutable : Bool) :
    BindsNone names [methodCallOf (var receiver) method [referenceOf mutable (var arg)]] := by
  cases mutable <;> exact of_all rfl

theorem closureBody {s : TypedFile.Setting} {f : ResourceFn} (h : BindsNone names [f.code.body]) :
    BindsNone names (TypedFile.closureBody s f) := by
  unfold TypedFile.closureBody
  dsimp only
  split
  · exact cons (makesModel _ _) (encodeOnSuccess (callsMethod _ _ _ _) (stmts h))
  · refine cons (makesModel _ _) (cons ?_ (stmts h))
    have attrs : BindsNone names [noAttrs] := of_all rfl
    have leaf (token : Token) : BindsNone names [.leaf token] := of_all rfl
    refine node rfl (cons (node rfl (cons attrs (cons (callsMethod _ _ _ _) (leaf _))) (by decide)) (leaf _)) (by decide)

theorem builtStmts {s : TypedFile.Setting} {f : ResourceFn} (h : BindsNone names [f.code.body]) :
    BindsNone names (builtStmts s f) := by
  unfold Retype.builtStmts
  split
  · exact closureBody h
  · exact stmts h

end BindsNone

/-- The context that a function of a resource is rewritten in. -/
def contextOf (config : Config) (r : Resource) (f : ResourceFn) : Context :=
  Context.make config r.models (Rewrite.helperTable r.functions) r.read (Rewrite.scopeOf f)

/-- What the two stages leave of calls by bare names in a body. -/
structure CallsSettled (config : Config) (entry : RegistryEntry) (r : Resource) (f : ResourceFn) : Prop where
  bindsNone : BindsNone (isSourceHelper entry r) [f.code.body]
  trailing : endsInRead (contextOf config r f) f.code.body = false ∨ RenamesTo (contextOf config r f) r.read

theorem callsSettled_of_rewriteResource? {config : Config} {entry : RegistryEntry} {r r' : Resource}
    {s : Rewrite.State} (analysed : Resource.ofEntry config entry = .ok r)
    (rewritten : Rewrite.rewriteResource? config r = some (r', s)) :
    ∀ f ∈ r'.functions, CallsSettled config entry r' f := by
  obtain ⟨lit, crud, analysed⟩ := analysed_of_ofEntry analysed
  have kept : Rewrite.KeptByEdits (CallsSettled config entry r) := fun f e settled => ⟨settled.1, settled.2⟩
  have run : ∀ fs f f' s s', fs.map frame = r.functions.map frame → f ∈ fs →
      (Rewrite.rewriteFn? config r fs f).run s = some (f', s') → CallsSettled config entry r f' := by
    intro fs f f' s s' framed mem rewrites
    obtain ⟨body, stages, rfl⟩ := Rewrite.rewriteFn?_eq_some rewrites
    obtain ⟨binds, trailing⟩ := Rewrite.runStages?_standard stages
    have names : isHelper (Context.make config r.models (Rewrite.helperTable fs) r.read (Rewrite.scopeOf f)) =
        isSourceHelper entry r := by
      funext name
      rw [isHelper_make, analysed.any_helper framed]
    rw [names] at binds
    refine ⟨fun t mem => ?_, trailing⟩
    rw [nodesAll, nodesAll, List.append_nil] at mem
    exact binds t mem
  obtain ⟨same, -, settled⟩ := Rewrite.rewriteResource?_spec kept run rewritten
  intro f mem
  have settled := settled f mem
  rw [same]
  exact ⟨settled.1, settled.2⟩

/-- A resource from its definition to the items of its typed file. -/
structure Typed where
  resource : Resource
  state : Rewrite.State
  items : Trees

def typed? (config : Config) (entry : RegistryEntry) : Option Typed :=
  match Resource.ofEntry config entry with
  | .error _ => none
  | .ok r =>
    match Rewrite.rewriteResource? config r with
    | none => none
    | some (r', s) =>
      match TypedFile.items config s.promoted r' with
      | .error _ => none
      | .ok items => some ⟨r', s, items⟩

theorem typed?_eq_some {config : Config} {entry : RegistryEntry} {file : Typed} (h : typed? config entry = some file) :
    ∃ r, Resource.ofEntry config entry = .ok r ∧
      Rewrite.rewriteResource? config r = some (file.resource, file.state) ∧
      TypedFile.items config file.state.promoted file.resource = .ok file.items := by
  unfold typed? at h
  split at h
  · cases h
  · rename_i r analysed
    split at h
    · cases h
    · rename_i r' s rewritten
      split at h
      · cases h
      · rename_i items built
        cases h
        exact ⟨r, analysed, rewritten, built⟩

/-- In a typed file the helpers of the source are free functions but for those that a call made methods.  No `let`
without `else` and no assignment is left that binds a call of a helper by its bare name, and no body ends by answering
what the read answers, unless a rename leads to the read. -/
theorem helpers_called_as_methods {config : Config} {entry : RegistryEntry} {file : Typed}
    (built : typed? config entry = some file) :
    fnNames file.items = ((fnNames entry.items).filter fun name =>
      isSourceHelper entry file.resource name && !file.state.promoted.contains name) ∧
    ∃ sdk structs main further methods,
      Assembled ⟨config, file.resource, sdk⟩ file.state.promoted file.items structs main further methods ∧
      ∀ f ∈ file.resource.functions, CallsSettled config entry file.resource f ∧
        BindsNone (isSourceHelper entry file.resource) (builtStmts ⟨config, file.resource, sdk⟩ f) := by
  obtain ⟨r, analysed, rewritten, built⟩ := typed?_eq_some built
  have settled := callsSettled_of_rewriteResource? analysed rewritten
  obtain ⟨lit, crud, analysed⟩ := analysed_of_ofEntry analysed
  obtain ⟨same, framed⟩ := Rewrite.rewriteResource?_frame rewritten
  have fields : file.resource.imports = r.imports ∧ file.resource.passthrough = r.passthrough ∧
      file.resource.crudNames = r.crudNames := by
    rw [same]
    exact ⟨rfl, rfl, rfl⟩
  obtain ⟨sdk, structs, main, further, methods, assembled⟩ := assembled_of_items built
  constructor
  · have imports : ∀ t ∈ file.resource.imports, t.fn? = none := by
      rw [fields.1, analysed.imports]
      intro t mem
      exact fn?_of_isUse (List.mem_filter.mp mem).2
    have passthrough : ∀ t ∈ file.resource.passthrough, t.fn? = none := by
      rw [fields.2.1, analysed.passthrough]
      intro t mem
      have kept := (List.mem_filter.mp mem).2
      rw [Bool.and_eq_true, Option.isNone_iff_eq_none] at kept
      exact kept.2
    rw [fnNames, assembled.fns imports passthrough (analysed.headers framed), List.map_map]
    have helper : isSourceHelper entry file.resource = isSourceHelper entry r := by
      funext name
      rw [isSourceHelper, isSourceHelper, fields.2.2]
    rw [helper]
    exact analysed.freeOf_names framed file.state.promoted
  · exact ⟨sdk, structs, main, further, methods, assembled, fun f mem => ⟨settled f mem, (settled f mem).1.builtStmts⟩⟩

/-- No function of the source that is no free function of the typed file is called by its bare name. -/
def CallsFreeFnsOnly (config : Config) (entry : RegistryEntry) : Prop :=
  ∀ file, typed? config entry = some file → ∀ sdk, ∀ f ∈ file.resource.functions,
    ∀ t ∈ nodesAll (builtStmts ⟨config, file.resource, sdk⟩ f), ∀ name, calledName? t = some name →
      name ∈ fnNames entry.items → name ∈ fnNames file.items

/-- `fn name() output { … }` -/
def plainFn (name : String) (output : Tree) (stmts : Trees) : Tree :=
  Fn.toTree ⟨noAttrs, Tree.absent, [Tree.absent, Tree.absent, Tree.absent, Tree.absent, word "fn", word name, Tree.absent],
    [], output, Tree.absent, blockOf stmts⟩

def definitionFn (name : String) (fields : List (String × Tree)) : Tree :=
  plainFn name (.node .output [op "->", typeOf "Resource"]) [tailStmt (structLitOf (pathOf "Resource") fields)]

/-- `add` binds the label and then answers with it. -/
def labelEntry : RegistryEntry :=
  ⟨"tag", "tag", "tag.rs",
    [definitionFn "tag" [("create", var "add"), ("read", var "show"), ("delete", var "drop"), ("schema", arrayOf [])],
      plainFn "add" Tree.absent [letMut "first" (callOf (var "label") []), tailStmt (callOf (var "label") [])],
      plainFn "show" Tree.absent [], plainFn "drop" Tree.absent [], plainFn "label" Tree.absent []]⟩

theorem typed?_labelEntry : ∃ file, typed? {} labelEntry = some file ∧ file.state.promoted = ["label"] ∧
    [file.resource.create, file.resource.read, file.resource.delete] = ["add", "show", "drop"] ∧
    file.resource.crudNames = ["add", "show", "drop"] ∧
    (fnNames labelEntry.items).filter (fun name =>
      isSourceHelper labelEntry file.resource name && !file.state.promoted.contains name) = [] ∧
    ∃ f ∈ file.resource.functions, ∃ t ∈ nodesAll (builtStmts ⟨{}, file.resource, Tree.absent⟩ f),
      calledName? t = some "label" ∧ "label" ∈ fnNames labelEntry.items ∧ "label" ∉ fnNames file.items := by
  have known : ((typed? {} labelEntry).any fun file => file.state.promoted == ["label"] &&
      ([file.resource.create, file.resource.read, file.resource.delete] == ["add", "show", "drop"] &&
      (file.resource.crudNames == ["add", "show", "drop"] &&
      (((fnNames labelEntry.items).filter fun name =>
        isSourceHelper labelEntry file.resource name && !file.state.promoted.contains name) == [] &&
      file.resource.functions.any fun f => (nodesAll (builtStmts ⟨{}, file.resource, Tree.absent⟩ f)).any fun t =>
        calledName? t == some "label" &&
          ((fnNames labelEntry.items).contains "label" && !(fnNames file.items).contains "label"))))) = true := by
    decide +kernel
  obtain ⟨file, built, known⟩ := (Option.any_eq_true _ _).mp known
  refine ⟨file, built, ?_⟩
  simpa only [Bool.and_eq_true, beq_iff_eq, List.any_eq_true, List.contains_iff_mem, Bool.not_eq_true',
    ← Bool.not_eq_true] using known

theorem helpers_called_as_methods_label : ∃ file, typed? {} labelEntry = some file ∧
    file.state.promoted = ["label"] ∧ fnNames file.items = [] ∧
    ∀ f ∈ file.resource.functions, BindsNone (isSourceHelper labelEntry file.resource) [f.code.body] := by
  obtain ⟨file, built, promoted, -, -, none, -⟩ := typed?_labelEntry
  obtain ⟨free, sdk, structs, main, further, methods, assembled, settled⟩ := helpers_called_as_methods built
  exact ⟨file, built, promoted, free.trans none, fun f mem => (settled f mem).1.bindsNone⟩

theorem label_called_by_bare_name : ¬ CallsFreeFnsOnly {} labelEntry := by
  intro calls
  obtain ⟨file, built, -, -, -, -, f, member, t, node, called, known, free⟩ := typed?_labelEntry
  exact free (calls file built Tree.absent f member t node "label" called known)

end Retype
