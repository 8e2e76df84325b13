import Retype.Proofs.RoleMethods

/-! The functions that a definition names.  One reader serves all four fields: where it finds no name, the creation, the
read and the deletion are missing, while the update is taken for one that was never given. -/

namespace Retype
open Retype.Code
open Retype.Rewrite (Role)

/-- The name of a function other than `None`, alone or in calls of `Some`, each with a comma at its end or without. -/
inductive NamesFunction (name : String) : Tree → Prop
  | alone {attrs path : Tree} (ident : path.pathIdent? = some name) (given : name ≠ "None") :
    NamesFunction name (.node (.expr .path) [attrs, path])
  | within {attrs calleeAttrs callee arg : Tree} {d : Delim} {trailing : Trees}
    (isSome : callee.pathIdent? = some "Some") (last : trailing.length ≤ 1) (inner : NamesFunction name arg) :
    NamesFunction name (.node (.expr .call) [attrs, .node (.expr .path) [calleeAttrs, callee], .group d (arg :: trailing)])

namespace Definition

theorem function?_eq_some_iff {name : String} {e : Tree} : function? e = some name ↔ NamesFunction name e := by
  constructor
  · intro h
    fun_induction function? e with
    | case1 attrs path =>
      obtain ⟨ident, given⟩ := Option.filter_eq_some_iff.mp h
      exact .alone ident (bne_iff_ne.mp given)
    | case2 attrs calleeAttrs callee d arg isSome ih =>
      exact .within (beq_iff_eq.mp isSome) (Nat.zero_le 1) (ih h)
    | case4 attrs calleeAttrs callee d arg comma isSome ih =>
      exact .within (beq_iff_eq.mp isSome) (Nat.le_refl 1) (ih h)
    | case3 | case5 | case6 => cases h
  · intro names
    induction names with
    | alone ident given =>
      rw [function?, ident]
      exact Option.filter_eq_some_iff.mpr ⟨rfl, bne_iff_ne.mpr given⟩
    | @within attrs calleeAttrs callee arg d trailing isSome last inner ih =>
      have isSome : (callee.pathIdent? == some "Some") = true := beq_iff_eq.mpr isSome
      match trailing, last with
      | [], _ => rw [function?, if_pos isSome, ih]
      | [_], _ => rw [function?, if_pos isSome, ih]

theorem function?_eq_none_iff {e : Tree} : function? e = none ↔ ∀ name, ¬NamesFunction name e := by
  simp only [← function?_eq_some_iff, Option.eq_none_iff_forall_ne_some, ne_eq]

end Definition

/-- The items of an entry beside its definition. -/
def besideDefinition (entry : RegistryEntry) : Trees := entry.items.filter fun t => t.fn?.all (·.name != entry.function)

/-- Entries of one resource, in one place, with the same items beside their definitions. -/
structure SameBeside (a b : RegistryEntry) : Prop where
  name : b.name = a.name
  path : b.path = a.path
  function : b.function = a.function
  beside : besideDefinition b = besideDefinition a

/-- Definitions with the same fields but for the update. -/
def SameButUpdate (a b : StructLit) : Prop := ∀ field ≠ "update", Definition.field? b field = Definition.field? a field

section Items
variable {entry : RegistryEntry}

theorem functions_besideDefinition :
    (besideDefinition entry).filterMap (·.fn?) = (entry.items.filterMap (·.fn?)).filter (·.name != entry.function) := by
  rw [besideDefinition, List.filterMap_filter, List.filter_filterMap]
  refine List.filterMap_congr fun t _ => ?_
  cases t.fn? with
  | none => rfl
  | some f => rfl

theorem filter_besideDefinition {p : Tree → Bool} (noFn : ∀ t, p t = true → t.fn? = none) :
    (besideDefinition entry).filter p = entry.items.filter p := by
  rw [besideDefinition, List.filter_filter]
  refine List.filter_congr fun t _ => ?_
  cases kept : p t with
  | false => rfl
  | true => rw [noFn t kept]; rfl

theorem fn?_of_declaredModel? {t : Tree} {m : Model} (h : Definition.declaredModel? t = some m) : t.fn? = none := by
  unfold Definition.declaredModel? at h
  split at h
  · rfl
  · cases h

theorem declaredModels_besideDefinition :
    (besideDefinition entry).filterMap Definition.declaredModel? = entry.items.filterMap Definition.declaredModel? := by
  rw [besideDefinition, List.filterMap_filter]
  refine List.filterMap_congr fun t _ => ?_
  cases declared : Definition.declaredModel? t with
  | none => rw [ite_self]
  | some m => rw [fn?_of_declaredModel? declared]; rfl

end Items

namespace Resource

theorem ofEntry_congr {config : Config} {a b : RegistryEntry} {lit lit' : StructLit} (same : SameBeside a b)
    (defined : definitionOf config a = some lit) (defined' : definitionOf config b = some lit')
    (but : SameButUpdate lit lit')
    (update : (Definition.field? lit' "update").bind Definition.function? =
      (Definition.field? lit "update").bind Definition.function?) : ofEntry config b = ofEntry config a := by
  have uses : b.items.filter isUse = a.items.filter isUse := by
    rw [← filter_besideDefinition fun t => fn?_of_isUse, same.beside, filter_besideDefinition fun t => fn?_of_isUse]
  have others : (b.items.filter fun t => !isUse t && t.fn?.isNone) = a.items.filter fun t => !isUse t && t.fn?.isNone := by
    have noFn : ∀ t : Tree, (!isUse t && t.fn?.isNone) = true → t.fn? = none := fun t kept =>
      Option.isNone_iff_eq_none.mp (Bool.and_eq_true_iff.mp kept).2
    rw [← filter_besideDefinition noFn, same.beside, filter_besideDefinition noFn]
  have crud' : crud b.name lit' = crud b.name lit := by
    simp only [crud, Role.label, but "create" (by decide), but "read" (by decide), but "delete" (by decide), update]
  unfold ofEntry
  rw [defined, defined']
  dsimp only
  rw [crud', schemaOf, schemaOf, but "schema" (by decide), but "timeouts" (by decide), but "importer" (by decide),
    but "state_upgraders" (by decide), Definition.schemaVersion, Definition.schemaVersion,
    but "schema_version" (by decide), uses, others, ← functions_besideDefinition, ← declaredModels_besideDefinition,
    same.beside, same.name, same.path, functions_besideDefinition, declaredModels_besideDefinition]

end Resource

section Read
variable {config : Config} {entry : RegistryEntry} {lit : StructLit} {crud : Resource.Crud} {r : Resource}

theorem Analysed.namedBy (analysed : Analysed config entry lit crud r) : NamedBy lit r := by
  obtain ⟨create, read, update, delete⟩ := analysed.fields
  rw [NamedBy, create, read, update, delete]
  exact crud_eq_ok analysed.named

theorem NamedBy.needed (named : NamedBy lit r) {role : Role} (needed : role ∈ [Role.create, .read, .delete]) :
    ∃ e name, Definition.field? lit role.label = some e ∧ NamesFunction name e := by
  have found : ∃ name, (Definition.field? lit role.label).bind Definition.function? = some name := by
    obtain ⟨create, read, delete, -⟩ := named
    simp only [List.mem_cons, List.not_mem_nil, or_false] at needed
    rcases needed with rfl | rfl | rfl
    · exact ⟨_, create⟩
    · exact ⟨_, read⟩
    · exact ⟨_, delete⟩
  obtain ⟨name, found⟩ := found
  obtain ⟨e, given, reads⟩ := Option.bind_eq_some_iff.mp found
  exact ⟨e, name, given, Definition.function?_eq_some_iff.mp reads⟩

theorem NamedBy.update_eq_some_iff (named : NamedBy lit r) {e : Tree} (given : Definition.field? lit "update" = some e)
    {name : String} : r.update = some name ↔ NamesFunction name e := by
  obtain ⟨-, -, -, update⟩ := named
  rw [← update, given, Option.bind_some, Definition.function?_eq_some_iff]

theorem Analysed.update_found (analysed : Analysed config entry lit crud r) {name : String} (update : r.update = some name) :
    (∃ f ∈ r.functions, f.name = name ∧ f.role = .update) ∧
      ∃ f ∈ (besideDefinition entry).filterMap (·.fn?), f.name = name := by
  have named : crud.update = some name := analysed.fields.2.2.1.symm.trans update
  have listed : (Role.update, name) ∈ crud.named := by
    rw [Resource.Crud.named, named]
    exact List.mem_append_right _ (List.mem_singleton_self _)
  obtain ⟨f, mem, rfl⟩ := analysed.found _ _ listed
  obtain ⟨source, inside, made⟩ : ∃ source ∈ (besideDefinition entry).filterMap (·.fn?),
      ResourceFn.ofFn config crud.role (Table.get? (((Definition.field? lit "timeouts").map Definition.timeouts).getD []))
        source = f := by
    rw [analysed.functions, ← functions_besideDefinition] at mem
    exact List.mem_map.mp mem
  subst made
  exact ⟨⟨_, mem, rfl, Resource.Crud.role_update named⟩, source, inside, rfl⟩

end Read

theorem exists_error {ε α : Type} {x : Except ε α} (h : ∀ a, x ≠ .ok a) : ∃ err, x = .error err := by
  cases x with
  | error err => exact ⟨err, rfl⟩
  | ok a => exact absurd rfl (h a)

/-- The reading of a definition whose update is given by an expression.  An update is kept exactly if the expression
names a function; it is then that function, there is one of the name, and its role is the update.  An update that names
a function the source does not have is an error, as is a creation, a read or a deletion that names none.  But an update
that names none is no error: the entry is read as if the field was not there. -/
theorem update_kept_iff_named {config : Config} {entry : RegistryEntry} {lit : StructLit} {e : Tree}
    (defined : Resource.definitionOf config entry = some lit) (given : Definition.field? lit "update" = some e) :
    (∀ r, Resource.ofEntry config entry = .ok r →
      (r.update.isSome = true ↔ ∃ name, NamesFunction name e) ∧
      ∀ name, r.update = some name → NamesFunction name e ∧ ∃ f ∈ r.functions, f.name = name ∧ f.role = .update) ∧
    (∀ name, NamesFunction name e → (∀ f ∈ (besideDefinition entry).filterMap (·.fn?), f.name ≠ name) →
      ∃ err, Resource.ofEntry config entry = .error err) ∧
    (∀ role ∈ [Role.create, .read, .delete],
      (∀ e', Definition.field? lit role.label = some e' → ∀ name, ¬NamesFunction name e') →
        ∃ err, Resource.ofEntry config entry = .error err) ∧
    ((∀ name, ¬NamesFunction name e) → ∀ entry' lit', SameBeside entry entry' →
      Resource.definitionOf config entry' = some lit' → SameButUpdate lit lit' →
      Definition.field? lit' "update" = none → Resource.ofEntry config entry = Resource.ofEntry config entry') := by
  refine ⟨fun r read => ?_, fun name names lacks => exists_error fun r read => ?_,
    fun role needed unnamed => exists_error fun r read => ?_, fun unnamed entry' lit' same defined' but absent => ?_⟩
  · obtain ⟨lit', crud, analysed⟩ := analysed_of_ofEntry read
    obtain rfl := Option.some.inj (defined.symm.trans analysed.defined)
    have reads {name : String} : r.update = some name ↔ NamesFunction name e := analysed.namedBy.update_eq_some_iff given
    refine ⟨?_, fun name update => ⟨reads.mp update, (analysed.update_found update).1⟩⟩
    rw [Option.isSome_iff_exists]
    exact exists_congr fun name => reads
  · obtain ⟨lit', crud, analysed⟩ := analysed_of_ofEntry read
    obtain rfl := Option.some.inj (defined.symm.trans analysed.defined)
    obtain ⟨-, f, mem, same⟩ := analysed.update_found ((analysed.namedBy.update_eq_some_iff given).mpr names)
    exact lacks f mem same
  · obtain ⟨lit', crud, analysed⟩ := analysed_of_ofEntry read
    obtain rfl := Option.some.inj (defined.symm.trans analysed.defined)
    obtain ⟨e', name, given', names⟩ := analysed.namedBy.needed needed
    exact unnamed e' given' name names
  · refine (Resource.ofEntry_congr same defined defined' but ?_).symm
    rw [absent, given, Option.bind_none, Option.bind_some, Definition.function?_eq_none_iff.mpr unnamed]

/-- A tag whose update is `Some(crud::put)`, in a file that has a function `put`. -/
def qualifiedEntry : RegistryEntry :=
  ⟨"tag", "tag", "tag.rs",
    [definitionFn "tag" [("create", var "add"), ("read", var "show"),
        ("update", callOf (var "Some") [exprOf (pathOfNames ["crud", "put"])]), ("delete", var "drop"),
        ("schema", arrayOf [])],
      plainFn "add" Tree.absent [], plainFn "show" Tree.absent [], plainFn "put" Tree.absent [],
      plainFn "drop" Tree.absent []]⟩

/-- The tag is read, and it has no update. -/
theorem update_kept_iff_named_qualified : ∃ lit e r, Resource.definitionOf {} qualifiedEntry = some lit ∧
    Definition.field? lit "update" = some e ∧ e.exprIdent? ≠ some "None" ∧
    Resource.ofEntry {} qualifiedEntry = .ok r ∧ r.update = none := by
  have known : ((Resource.definitionOf {} qualifiedEntry).any fun lit => (Definition.field? lit "update").any fun e =>
      e.exprIdent? != some "None" && (Definition.function? e).isNone) = true := by decide +kernel
  obtain ⟨lit, defined, known⟩ := (Option.any_eq_true _ _).mp known
  obtain ⟨e, given, known⟩ := (Option.any_eq_true _ _).mp known
  obtain ⟨notNone, unread⟩ := Bool.and_eq_true_iff.mp known
  have unnamed := Definition.function?_eq_none_iff.mp (Option.isNone_iff_eq_none.mp unread)
  have read : (Resource.ofEntry {} qualifiedEntry).toOption.isSome = true := by decide +kernel
  obtain ⟨r, read⟩ := Option.isSome_iff_exists.mp read
  have read := toOption_eq_some.mp read
  refine ⟨lit, e, r, defined, given, bne_iff_ne.mp notNone, read, Option.eq_none_iff_forall_ne_some.mpr fun name update => ?_⟩
  exact unnamed name (((update_kept_iff_named defined given).1 r read).2 name update).1

end Retype
