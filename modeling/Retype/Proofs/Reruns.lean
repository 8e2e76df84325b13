import Retype.Proofs.Isolation
import Retype.Proofs.Listing
import Retype.Proofs.Lookups

/-! Running again.  The outputs of a scanned tree have plain names with the suffix at the end of their stems, so no scan
takes one for a source and none replaces a source: a scan after a run enters what it did before, and a second run writes
the same texts to the same files. -/

namespace Retype
open Retype.Path Retype.Code

namespace Registry
variable {config : Config} {fs fs' : Files} {root : String} {registry : Registry}

theorem path_of_mem_ofSources {sources : List (String × String)} {name : String} {entry : RegistryEntry}
    (mem : (name, entry) ∈ ofSources config sources) : ∃ source, (entry.path, source) ∈ sources := by
  obtain ⟨_, listed, named⟩ := List.mem_map.mp (Table.mem_of_mem_ofList mem)
  obtain ⟨-, rfl⟩ := Prod.mk.inj named
  obtain ⟨file, parsed, given⟩ := List.mem_flatMap.mp listed
  obtain ⟨⟨path, source⟩, read, ofSource⟩ := List.mem_filterMap.mp parsed
  obtain ⟨f, -, given⟩ := List.mem_flatMap.mp given
  have filePath : file.path = path := by
    obtain ⟨items, -, rfl⟩ := Option.map_eq_some_iff.mp ofSource
    rfl
  split at given
  · cases given
  · obtain ⟨_, -, rfl⟩ := List.mem_map.mp given
    exact ⟨source, filePath ▸ read⟩

theorem scan_eq_ok : scan config fs root = .ok registry ↔
    fs.checkDirectory root = .ok () ∧ registry = ofSources config (sourcesBelow config fs root) := by
  rw [scan]
  cases fs.checkDirectory root <;> simp [Except.map, eq_comm]

theorem path_of_mem_scan (scanned : scan config fs root = .ok registry) {name : String} {entry : RegistryEntry}
    (mem : (name, entry) ∈ registry) : ∃ source, (entry.path, source) ∈ sourcesBelow config fs root := by
  rw [(scan_eq_ok.mp scanned).2] at mem
  exact path_of_mem_ofSources mem

/-- A path to a file of code in a directory whose stem ends in the suffix. -/
inductive Suffixed (config : Config) (fs : Files) : String → Prop
  | intro {dir stem : String} {names : List String} (directory : fs.DirectoryAt dir names)
      (plain : IsPlain (codeName (stem ++ config.outputSuffix))) :
      Suffixed config fs (join dir (codeName (stem ++ config.outputSuffix)))

namespace Suffixed

theorem leads {path : String} (suffixed : Suffixed config fs path) :
    ∃ above reached name, fs.Leads path above reached name := by
  obtain ⟨directory, plain⟩ := suffixed
  exact ⟨_, _, _, directory.leads plain⟩

theorem isSource {path : String} (suffixed : Suffixed config fs path) : isSource config path = false := by
  obtain ⟨directory, plain⟩ := suffixed
  exact isSource_suffixed config _ plain

theorem congr (same : Files.SameDirectories fs fs') {path : String} (suffixed : Suffixed config fs path) :
    Suffixed config fs' path := by
  obtain ⟨directory, plain⟩ := suffixed
  exact .intro (directory.congr same) plain

theorem write (tree : fs.IsTree) {path text : String} (suffixed : Suffixed config fs path)
    (written : fs.write path text = .ok fs') :
    fs'.IsTree ∧ sourcesBelow config fs' root = sourcesBelow config fs root := by
  obtain ⟨directory, plain⟩ := suffixed
  obtain ⟨names, found, rfl⟩ := Files.write_eq_ok.mp written
  obtain ⟨_, _, _, leads, rfl, file⟩ := Files.target?_eq_some.mp found
  obtain ⟨rfl, rfl⟩ := leads.names_unique (directory.leads plain)
  exact ⟨tree.put plain directory.directory file text,
    sourcesBelow_put tree plain (fun path => isSource_suffixed config path plain) directory.directory file text⟩

end Suffixed

theorem source_cases (tree : fs.IsTree) {path source : String} (mem : (path, source) ∈ sourcesBelow config fs root) :
    ∃ dir names stem, fs.DirectoryAt dir names ∧ IsPlain (codeName stem) ∧ stem ≠ "" ∧
      ¬ config.outputSuffix.toList <:+ stem.toList ∧ path = join dir (codeName stem) ∧
      fs.get? (names ++ [codeName stem]) = some (.file (.text source)) := by
  obtain ⟨⟨path, e⟩, below, shown⟩ := List.mem_filterMap.mp mem
  obtain ⟨dir, names, name, directory, plain, rfl, found⟩ := tree.directoryAt_of_mem_below below
  dsimp only at shown
  split at shown
  · split at shown
    · rename_i kept
      obtain ⟨stem, rfl, some, own⟩ := (isSource_join_iff config dir plain).mp kept
      cases shown
      exact ⟨dir, names, stem, directory, plain, some, own, rfl, found⟩
    · cases shown
  · cases shown

theorem suffixed_output (tree : fs.IsTree) (flat : '/' ∉ config.outputSuffix.toList) {path source : String}
    (mem : (path, source) ∈ sourcesBelow config fs root) :
    Suffixed config fs (Path.output path config.outputSuffix) := by
  obtain ⟨dir, names, stem, directory, plain, some, -, rfl, -⟩ := source_cases tree mem
  rw [output_join plain some]
  refine .intro (directory.parentOf plain) (isPlain_codeName ?_)
  rw [String.toList_append, List.mem_append, not_or]
  exact ⟨flat_of_codeName plain, flat⟩

theorem target?_source (tree : fs.IsTree) {path source : String} (mem : (path, source) ∈ sourcesBelow config fs root) :
    ∃ file, fs.target? path = some file ∧ fs.get? file = some (.file (.text source)) ∧
      ∀ output, Suffixed config fs output → fs.target? output ≠ some file := by
  obtain ⟨dir, names, stem, directory, plain, some, own, rfl, found⟩ := source_cases tree mem
  refine ⟨names ++ [codeName stem], Files.target?_eq_some.mpr ⟨_, _, _, directory.leads plain, rfl, by simp [found]⟩,
    found, fun output suffixed same => ?_⟩
  obtain ⟨directory', plain'⟩ := suffixed
  obtain ⟨_, _, _, leads, last, -⟩ := Files.target?_eq_some.mp same
  obtain ⟨rfl, rfl⟩ := leads.names_unique (directory'.leads plain')
  have stems := codeName_injective (List.append_singleton_inj.mp last).2
  rw [stems, String.toList_append] at own
  exact own (List.suffix_append _ _)

theorem sourcesBelow_writes {may : String → Prop} (suffixed : ∀ path, may path → Suffixed config fs path)
    (tree : fs.IsTree) (writes : fs.Writes may fs') :
    fs'.IsTree ∧ sourcesBelow config fs' root = sourcesBelow config fs root := by
  induction writes with
  | none => exact ⟨tree, rfl⟩
  | write before allowed written ih =>
    obtain ⟨tree', same⟩ := ih
    obtain ⟨tree'', step⟩ := ((suffixed _ allowed).congr before.sameDirectories).write tree' written
    exact ⟨tree'', step.trans same⟩

end Registry

section Run
variable {config : Config} {fs fs' : Files} {root : String} {registry : Registry}

theorem suffixed_of_isOutput (tree : fs.IsTree) (flat : '/' ∉ config.outputSuffix.toList)
    (scanned : Registry.scan config fs root = .ok registry) {names : List String} {path : String}
    (output : IsOutput config registry names path) : Registry.Suffixed config fs path := by
  obtain ⟨_, _, entry, _, known, _, named⟩ := output
  obtain ⟨_, listed⟩ := Registry.mem_of_resolve known
  obtain ⟨source, read⟩ := Registry.path_of_mem_scan scanned listed
  rw [named]
  exact Registry.suffixed_output tree flat read

theorem isOutput_of_mem_migrated {names : List String} {summary : Summary}
    (returns : (migrate config registry fs names).2 = some summary) {m : Migrated} (mem : m ∈ summary.migrated) :
    IsOutput config registry names m.output := by
  rw [migrated_migrate config registry fs returns] at mem
  obtain ⟨l, landed, rfl⟩ := List.mem_map.mp mem
  obtain ⟨name, asked, lands⟩ := (mem_landings config registry fs).mp landed
  have fate := (landingOf?_eq_some config registry fs).mp lands
  have marks : (fateOf config registry fs name).mark? = some (l.file, l.rendition.text) := by rw [fate, Fate.mark?]
  obtain ⟨entry, items, _, known, admitted, same, -⟩ := fateOf_marks config registry marks
  exact ⟨name, asked, entry, items, known, admitted, (Fate.ofItems_eq_migrated (same.symm.trans fate)).1⟩

theorem runs_agree (same : Files.SameDirectories fs fs') (names : List String) (file : List String) :
    ((migrate config registry fs names).1.get? file = fs.get? file ∧
        (migrate config registry fs' names).1.get? file = fs'.get? file) ∨
      (migrate config registry fs names).1.get? file = (migrate config registry fs' names).1.get? file := by
  induction names using List.reverseRecOn with
  | nil => exact .inl ⟨rfl, rfl⟩
  | append_singleton names name ih =>
    have survives : (migrate config registry fs names).2.isSome = (migrate config registry fs' names).2.isSome := by
      rw [Bool.eq_iff_iff, isSome_migrate_iff, isSome_migrate_iff]
      simp only [fateOf_congr config registry same]
    cases alive : (migrate config registry fs names).2 with
    | none =>
      rw [alive, Option.isSome_none, eq_comm, Option.isSome_eq_false_iff, Option.isNone_iff_eq_none] at survives
      rwa [migrate_concat_of_dead config registry alive, migrate_concat_of_dead config registry survives]
    | some s =>
      rw [alive, Option.isSome_some, eq_comm] at survives
      obtain ⟨s', alive'⟩ := Option.isSome_iff_exists.mp survives
      have marked := (migrate_concat_cases config registry alive name).1
      have marked' := (migrate_concat_cases config registry alive' name).1
      rw [← fateOf_congr config registry same] at marked'
      cases marks : (fateOf config registry fs name).mark? with
      | none =>
        rw [marks] at marked marked'
        rwa [show (migrate config registry fs (names ++ [name])).1 = _ from marked,
          show (migrate config registry fs' (names ++ [name])).1 = _ from marked']
      | some mark =>
        rw [marks] at marked marked'
        obtain ⟨-, here, elsewhere⟩ := marked
        obtain ⟨-, here', elsewhere'⟩ := marked'
        by_cases touched : file = mark.1
        · rw [touched]
          exact .inr (here.trans here'.symm)
        · rwa [elsewhere file touched, elsewhere' file touched]

theorem get?_rerun (names : List String) (file : List String) :
    (migrate config registry (migrate config registry fs names).1 names).1.get? file =
      (migrate config registry fs names).1.get? file := by
  rcases runs_agree (sameDirectories_migrate config registry fs names) names file with ⟨-, unchanged⟩ | agree
  · exact unchanged
  · exact agree.symm

theorem rerun_summary {names : List String} (independent : fs.Independent (IsOutput config registry names)) :
    (migrate config registry (migrate config registry fs names).1 names).2 = (migrate config registry fs names).2 := by
  have writes := writes_migrate config registry fs names
  have each {name : String} (asked : name ∈ names) :
      (migrate config registry (migrate config registry fs names).1 [name]).2 = (migrate config registry fs [name]).2 :=
    migrate_singleton_congr writes.sameDirectories fun path output =>
      independent _ writes path (output.mono fun _ mem => List.mem_singleton.mp mem ▸ asked)
  rw [migrate_summary_eq_join independent, migrate_summary_eq_join (independent.after writes)]
  exact congrArg (Option.map Summary.join) (mapM_congr fun name asked => each asked)

/-- A run over a scanned tree, under a suffix that is part of a name, can be repeated: a scan enters the same again,
and the same names give the same summary, or none again, and leave every file as it is.  No output is scanned as a
source, and no source is replaced. -/
theorem reruns_are_stable (tree : fs.IsTree) (flat : '/' ∉ config.outputSuffix.toList)
    (scanned : Registry.scan config fs root = .ok registry) (names : List String) :
    let after := migrate config registry fs names
    Registry.scan config after.1 root = .ok registry ∧
    (migrate config registry after.1 names).2 = after.2 ∧
    (∀ file, (migrate config registry after.1 names).1.get? file = after.1.get? file) ∧
    (∀ summary, after.2 = some summary → ∀ m ∈ summary.migrated, Registry.isSource config m.output = false ∧
      ∀ source ∈ Registry.sourcesBelow config fs root, after.1.target? m.output ≠ after.1.target? source.1) ∧
    Registry.sourcesBelow config after.1 root = Registry.sourcesBelow config fs root ∧
    ∀ source ∈ Registry.sourcesBelow config fs root, after.1.read source.1 = .ok source.2 := by
  intro after
  have suffixed : ∀ path, IsOutput config registry names path → Registry.Suffixed config fs path :=
    fun path => suffixed_of_isOutput tree flat scanned
  have writes := writes_migrate config registry fs names
  have directories := writes.sameDirectories
  obtain ⟨listable, entered⟩ := Registry.scan_eq_ok.mp scanned
  have sources : Registry.sourcesBelow config after.1 root = Registry.sourcesBelow config fs root :=
    (Registry.sourcesBelow_writes suffixed tree writes).2
  have independent : fs.Independent (IsOutput config registry names) :=
    Files.independent_of_leads fun path output => (suffixed path output).leads
  refine ⟨?_, rerun_summary independent, get?_rerun names, fun summary returns m migrated => ⟨?_, ?_⟩, sources, ?_⟩
  · rw [Files.checkDirectory_eq_ok] at listable
    obtain ⟨base, found⟩ := listable
    have found' := (Files.find_directory_congr directories root base).mp found
    exact Registry.scan_eq_ok.mpr ⟨Files.checkDirectory_eq_ok.mpr ⟨base, found'⟩, by rw [sources, entered]⟩
  · exact (suffixed _ (isOutput_of_mem_migrated returns migrated)).isSource
  · rintro ⟨path, source⟩ read same
    obtain ⟨file, found, -, apart⟩ := Registry.target?_source tree read
    rw [← Files.target?_congr directories, ← Files.target?_congr directories, found] at same
    exact apart _ (suffixed _ (isOutput_of_mem_migrated returns migrated)) same
  · rintro ⟨path, source⟩ read
    obtain ⟨file, found, here, apart⟩ := Registry.target?_source tree read
    rcases writes.get?_eq file with same | ⟨output, allowed, target⟩
    · rw [Files.target?_congr directories] at found
      exact Files.read_of_target found (same.trans here)
    · exact absurd target (apart output (suffixed output allowed))

end Run

theorem scan_tagFiles : Registry.scan tagConfig tagFiles "src" = .ok tagRegistry := by
  have tree : tagFiles.IsTree := by decide +kernel
  have found : tagFiles.find "src" = .ok (["src"], .directory) := by decide +kernel
  have only : ((tagFiles.inside ["src"]).filter fun i => (Registry.sourceOf? tagConfig "src" i).isSome) =
      [(["tag.rs"], .file (.text tagSource))] := by
    decide +kernel
  have read : [(["tag.rs"], Entry.file (.text tagSource))].filterMap (Registry.sourceOf? tagConfig "src") =
      [("src/tag.rs", tagSource)] := by
    decide +kernel
  refine Registry.scan_eq_ok.mpr ⟨Files.checkDirectory_eq_ok.mpr ⟨_, found⟩, ?_⟩
  rw [tagRegistry, Registry.sourcesBelow_eq_sorted tree found, only, List.mergeSort_singleton, read]

/-- The resource is migrated over its old output, and the next run does the same. -/
theorem tag_rerun : tagFiles.IsTree ∧ Registry.scan tagConfig tagFiles "src" = .ok tagRegistry ∧
    let after := migrate tagConfig tagRegistry tagFiles ["tag"]
    after.2.isSome = true ∧ Registry.scan tagConfig after.1 "src" = .ok tagRegistry ∧
    (migrate tagConfig tagRegistry after.1 ["tag"]).2 = after.2 ∧
    (∀ file, (migrate tagConfig tagRegistry after.1 ["tag"]).1.get? file = after.1.get? file) ∧
    Registry.sourcesBelow tagConfig after.1 "src" = Registry.sourcesBelow tagConfig tagFiles "src" := by
  have tree : tagFiles.IsTree := by decide +kernel
  have survives : (migrate tagConfig tagRegistry tagFiles ["tag"]).2.isSome = true :=
    (isSome_migrate_iff tagConfig tagRegistry tagFiles _).mpr (List.forall_mem_singleton.mpr tag_survives)
  obtain ⟨scanned, summary, files, -, sources, -⟩ := reruns_are_stable tree (by decide) scan_tagFiles ["tag"]
  exact ⟨tree, scan_tagFiles, survives, scanned, summary, files, sources⟩

end Retype
