import Mathlib.Data.List.Sort
import Retype.Registry
import Retype.Proofs.Lookups

/-! The order of sources.  A registry has the same names in whatever order its sources are read.  Where a name leads
depends on the order exactly if the sources that define it disagree; then the source that is read last decides. -/

namespace Retype.Registry
open Retype.Code

/-- Where a name leads: the function that defines the resource, and the path of its file. -/
def site? (r : Registry) (name : String) : Option (String × String) :=
  (Table.get? r name).map fun e => (e.function, e.path)

def defines (config : Config) (registrations : List Registration) (name : String) (f : Fn) : Bool :=
  (Definition.literal? config.resourceTypeName f).isSome && (namesOf config registrations f.name).contains name

/-- Where a file by itself leads for a name: to its last definition of that name. -/
def siteIn? (config : Config) (registrations : List Registration) (name : String) (file : ParsedFile) :
    Option (String × String) :=
  ((file.ownItems.filterMap (·.fn?)).reverse.find? (defines config registrations name)).map fun f => (f.name, file.path)

/-- Where a source by itself leads for a name; one that does not parse leads nowhere. -/
def siteOf? (config : Config) (registrations : List Registration) (name : String) (source : String × String) :
    Option (String × String) :=
  (ParsedFile.ofSource? source.1 source.2).bind (siteIn? config registrations name)

/-- The registrations that sources hold. -/
def registrationsOf (sources : List (String × String)) : List Registration :=
  (sources.filterMap fun (path, source) => ParsedFile.ofSource? path source).flatMap fun f =>
    Registration.collectAll f.items

section Sites
variable {config : Config} {registrations : List Registration} {name : String}

theorem find?_beq (names : List String) (name : String) :
    names.find? (· == name) = if names.contains name then some name else none := by
  cases found : names.find? (· == name) with
  | none =>
    rw [if_neg]
    intro mem
    exact absurd (beq_self_eq_true name) (List.find?_eq_none.mp found name (List.contains_iff_mem.mp mem))
  | some n =>
    obtain rfl : n = name := beq_iff_eq.mp (List.find?_some (p := (· == name)) found)
    rw [if_pos (List.contains_iff_mem.mpr (List.mem_of_find?_eq_some found))]

theorem site?_entries (file : ParsedFile) (f : Fn) :
    ((if (Definition.literal? config.resourceTypeName f).isNone then []
      else (namesOf config registrations f.name).map fun name =>
        (⟨name, f.name, file.path, file.ownItems⟩ : RegistryEntry)).reverse.find? (·.name == name)).map
        (fun e => (e.function, e.path)) =
      (Option.guard (defines config registrations name) f).map fun f => (f.name, file.path) := by
  rw [Option.guard, defines, ← Option.not_isNone]
  by_cases missing : (Definition.literal? config.resourceTypeName f).isNone = true
  · rw [if_pos missing, missing]
    rfl
  · rw [if_neg missing, Bool.eq_false_iff.mpr missing, Bool.not_false, Bool.true_and, ← List.map_reverse,
      List.find?_map, Option.map_map, ← List.contains_reverse]
    show ((namesOf config registrations f.name).reverse.find? (· == name)).map _ = _
    rw [find?_beq]
    split <;> rfl

theorem site?_entriesOf (file : ParsedFile) :
    ((entriesOf config registrations file).reverse.find? (·.name == name)).map (fun e => (e.function, e.path)) =
      siteIn? config registrations name file := by
  rw [entriesOf, List.reverse_flatMap, List.find?_flatMap, List.map_findSome?, siteIn?, ← List.findSome?_guard,
    List.map_findSome?]
  refine congrArg (List.findSome? · _) (funext fun f => ?_)
  exact site?_entries file f

theorem site?_ofFiles (files : List ParsedFile) : site? (ofFiles config files) name =
    files.reverse.findSome? (siteIn? config (files.flatMap fun f => Registration.collectAll f.items) name) := by
  rw [site?, ofFiles, Table.get?_ofList, ← List.map_reverse, List.find?_map, Option.map_map, Option.map_map,
    List.reverse_flatMap]
  show (((files.reverse.flatMap (List.reverse ∘ entriesOf config _)).find? (·.name == name)).map fun e =>
    (e.function, e.path)) = _
  rw [List.find?_flatMap, List.map_findSome?]
  exact congrArg (List.findSome? · _) (funext fun file => site?_entriesOf file)

theorem site?_ofSources (sources : List (String × String)) : site? (ofSources config sources) name =
    sources.reverse.findSome? (siteOf? config (registrationsOf sources) name) := by
  rw [ofSources, site?_ofFiles, ← List.filterMap_reverse, ← List.head?_filterMap, List.filterMap_filterMap,
    List.head?_filterMap]
  rfl

theorem contains_namesOf_of_perm {others : List Registration} (perm : registrations.Perm others) (function : String) :
    (namesOf config others function).contains name = (namesOf config registrations function).contains name := by
  have listed := (perm.filter (·.function == function)).map (·.name)
  unfold namesOf
  generalize (registrations.filter (·.function == function)).map (·.name) = names at listed
  generalize (others.filter (·.function == function)).map (·.name) = names' at listed
  cases names with
  | nil =>
    rw [List.nil_perm.mp listed]
  | cons n names =>
    cases names' with
    | nil => cases List.perm_nil.mp listed
    | cons n' names' =>
      rw [Bool.eq_iff_iff, List.contains_iff_mem, List.contains_iff_mem]
      exact listed.mem_iff.symm

theorem siteOf?_of_perm {others : List Registration} (perm : registrations.Perm others) :
    siteOf? config others name = siteOf? config registrations name := by
  have same : defines config others name = defines config registrations name := by
    funext f
    rw [defines, contains_namesOf_of_perm perm, defines]
  funext source
  rw [siteOf?, siteOf?]
  refine congrArg _ (funext fun file => ?_)
  rw [siteIn?, siteIn?, same]

theorem siteOf?_registrationsOf {sources others : List (String × String)} (perm : sources.Perm others) :
    siteOf? config (registrationsOf others) name = siteOf? config (registrationsOf sources) name :=
  siteOf?_of_perm ((perm.filterMap _).flatMap_right _)

end Sites

theorem mem_names {r : Registry} {name : String} : name ∈ names r ↔ (site? r name).isSome = true := by
  rw [site?, Option.isSome_map, Table.isSome_get?, List.contains_iff_mem]
  rfl

theorem isSome_site?_ofSources {config : Config} {sources : List (String × String)} {name : String} :
    (site? (ofSources config sources) name).isSome = true ↔
      ∃ source ∈ sources, (siteOf? config (registrationsOf sources) name source).isSome = true := by
  rw [site?_ofSources, List.findSome?_isSome_iff]
  simp only [List.mem_reverse]

/-- The names of a registry do not depend on the order of the sources; where one leads does not, exactly if all sources
that define it lead to one place. -/
theorem sites_depend_on_order_iff (config : Config) (sources : List (String × String)) :
    (∀ others, sources.Perm others → names (ofSources config others) = names (ofSources config sources)) ∧
    ∀ name, (∀ others, sources.Perm others →
        site? (ofSources config others) name = site? (ofSources config sources) name) ↔
      ∀ a ∈ sources, ∀ b ∈ sources, ∀ p q, siteOf? config (registrationsOf sources) name a = some p →
        siteOf? config (registrationsOf sources) name b = some q → p = q := by
  refine ⟨fun others perm => ?_, fun name => ?_⟩
  · refine (Table.sorted_ofList _).eq_of_mem_iff (Table.sorted_ofList _) fun name => ?_
    show name ∈ names (ofSources config others) ↔ name ∈ names (ofSources config sources)
    rw [mem_names, mem_names, isSome_site?_ofSources, isSome_site?_ofSources, siteOf?_registrationsOf perm]
    simp only [perm.mem_iff]
  · rw [← findSome?_reverse_perm_iff]
    refine forall_congr' fun others => forall_congr' fun perm => ?_
    rw [site?_ofSources, site?_ofSources, siteOf?_registrationsOf perm]

/-- A definition, of which two files have a copy. -/
def slotSource : String := "fn slot() -> Resource \x7b Resource \x7b read: show, schema: [] \x7d \x7d"

/-- The last copy decides. -/
theorem site_of_last_copy : ¬∀ config sources others, sources.Perm others → ∀ name,
    site? (ofSources config others) name = site? (ofSources config sources) name := by
  intro same
  have swapped : [("a.rs", slotSource), ("b.rs", slotSource)].Perm [("b.rs", slotSource), ("a.rs", slotSource)] :=
    .swap _ _ _
  exact absurd (same {} _ _ swapped "azurerm_slot") (by decide +kernel)

end Retype.Registry
