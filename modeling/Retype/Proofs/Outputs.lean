import Retype.Proofs.AlikeTokens
import Retype.Proofs.BareCalls
import Retype.Proofs.Renditions

/-! What is on disk after a run.  As long as the process lives the modes differ in nothing but the resources that they
let through; and of the renditions that go to one file the last stays. -/

namespace Retype
open Retype.Code

/-- A run over names is taken one name further, and the resource of that name is migrated. -/
def Migrates (run : List String → Files × Option Summary) (before : List String) (name : String) (m : Migrated) : Prop :=
  ∃ s, (run before).2 = some s ∧ (run (before ++ [name])).2 = some (s.addMigrated m)

/-- A run over names is taken one name further: no file changes, and the name is recorded as skipped. -/
def Skips (run : List String → Files × Option Summary) (before : List String) (name : String) : Prop :=
  (run (before ++ [name])).1 = (run before).1 ∧
    ∃ s reason, (run before).2 = some s ∧ (run (before ++ [name])).2 = some (s.addSkipped ⟨name, reason⟩)

theorem Summary.addMigrated_inj {s : Summary} {m m' : Migrated} :
    s.addMigrated m = s.addMigrated m' ↔ m = m' := by
  simp [Summary.addMigrated]

theorem Summary.addSkipped_ne_addMigrated (s : Summary) (k : Skipped) (m : Migrated) :
    s.addSkipped k ≠ s.addMigrated m := by
  simp [Summary.addSkipped, Summary.addMigrated]

section Run
variable (config : Config) (registry : Registry) (fs : Files)

/-- Where the rendition of the resource of a name goes. -/
def landingOf? (name : String) : Option Landing := (fateOf config registry fs name).landing?

theorem landingOf?_eq_some {name : String} {l : Landing} :
    landingOf? config registry fs name = some l ↔ fateOf config registry fs name = .migrated l := by
  unfold landingOf?
  cases fateOf config registry fs name <;> simp [Fate.landing?]

theorem target?_of_landing {name : String} {l : Landing} (lands : landingOf? config registry fs name = some l) :
    fs.target? l.rendition.output = some l.file := by
  have fate := (landingOf?_eq_some config registry fs).mp lands
  have marks : (fateOf config registry fs name).mark? = some (l.file, l.rendition.text) := by rw [fate, Fate.mark?]
  obtain ⟨_, _, _, -, -, same, -⟩ := fateOf_marks config registry marks
  exact (Fate.ofItems_eq_migrated (same.symm.trans fate)).2.1

theorem migrates_iff (before : List String) (name : String) (m : Migrated) :
    Migrates (migrate config registry fs) before name m ↔ (migrate config registry fs before).2.isSome = true ∧
      ∃ l, landingOf? config registry fs name = some l ∧ m = l.migrated := by
  rw [Migrates]
  cases alive : (migrate config registry fs before).2 with
  | none => simp
  | some s =>
    have step := (migrate_concat_cases config registry alive name).2
    simp only [Option.some.injEq, exists_eq_left', Option.isSome_some, true_and, landingOf?_eq_some]
    cases fate : fateOf config registry fs name with
    | skipped =>
      rw [fate] at step
      obtain ⟨reason, step⟩ := step
      simp [step, Summary.addSkipped_ne_addMigrated]
    | migrated l =>
      rw [fate] at step
      simp [step, Summary.addMigrated_inj, eq_comm]
    | died mark? =>
      rw [fate] at step
      simp [step]

theorem wrote_of_landing {before : List String} {name : String} {l : Landing}
    (alive : (migrate config registry fs before).2.isSome = true) (lands : landingOf? config registry fs name = some l) :
    Files.Wrote l.file l.rendition.text (migrate config registry fs before).1
      (migrate config registry fs (before ++ [name])).1 := by
  obtain ⟨s, alive⟩ := Option.isSome_iff_exists.mp alive
  have marked := (migrate_concat_cases config registry alive name).1
  rwa [(landingOf?_eq_some config registry fs).mp lands] at marked

theorem skips_of_skipped {before : List String} {name : String}
    (alive : (migrate config registry fs before).2.isSome = true) (fate : fateOf config registry fs name = .skipped) :
    Skips (migrate config registry fs) before name := by
  obtain ⟨s, alive⟩ := Option.isSome_iff_exists.mp alive
  obtain ⟨marked, step⟩ := migrate_concat_cases config registry alive name
  rw [fate] at marked step
  obtain ⟨reason, step⟩ := step
  exact ⟨marked, s, reason, alive, step⟩

theorem read_output {name : String} {l : Landing} (lands : landingOf? config registry fs name = some l)
    {names : List String} {text : String}
    (here : (migrate config registry fs names).1.get? l.file = some (.file (.text text))) :
    (migrate config registry fs names).1.read l.rendition.output = .ok text := by
  refine Files.read_of_target ?_ here
  rw [← Files.target?_congr (sameDirectories_migrate config registry fs names)]
  exact target?_of_landing config registry fs lands

theorem landingOf?_strict (name : String) (l : Landing) :
    landingOf? (config.inMode true) registry fs name = some l ↔
      landingOf? (config.inMode false) registry fs name = some l ∧ l.rendition.unresolved = [] := by
  rw [landingOf?_eq_some, landingOf?_eq_some]
  rcases fateOf_strict config registry fs name with ⟨same, resolved⟩ | ⟨skipped, left⟩
  · rw [same]
    exact ⟨fun lands => ⟨lands, resolved l lands⟩, And.left⟩
  · rw [skipped]
    exact ⟨fun lands => (by cases lands), fun ⟨lands, resolved⟩ => absurd resolved (left l lands)⟩

theorem survives_strict {name : String} (survives : (fateOf (config.inMode false) registry fs name).survives = true) :
    (fateOf (config.inMode true) registry fs name).survives = true := by
  rcases fateOf_strict config registry fs name with ⟨same, -⟩ | ⟨skipped, -⟩
  · rwa [same]
  · rw [skipped]
    rfl

/-- Of two runs taken one name further, the strict one migrates its resource exactly if the lenient one does and leaves
no look-up; then both write the same text to the same file, where it is read at the same path; and otherwise the strict
run changes no file and records the name as skipped. -/
structure IsGate (strict lenient : List String → Files × Option Summary) (before : List String) (name : String) :
    Prop where
  migrates (m : Migrated) : Migrates strict before name m ↔ Migrates lenient before name m ∧ m.unresolved = []
  writes (m : Migrated) : Migrates strict before name m → ∃ file text,
    Files.Wrote file text (strict before).1 (strict (before ++ [name])).1 ∧
    Files.Wrote file text (lenient before).1 (lenient (before ++ [name])).1 ∧
    (strict (before ++ [name])).1.read m.output = .ok text ∧ (lenient (before ++ [name])).1.read m.output = .ok text
  skips : (∀ m, ¬ Migrates strict before name m) → Skips strict before name

theorem isSome_of_isGate {strict lenient : List String → Files × Option Summary} {before : List String} {name : String}
    (gate : IsGate strict lenient before name) : (strict (before ++ [name])).2.isSome = true ∧
      ∀ m, Migrates strict before name m → (lenient before).2.isSome = true := by
  refine ⟨?_, fun m migrates => ?_⟩
  · by_cases migrates : ∃ m, Migrates strict before name m
    · obtain ⟨m, s, -, after⟩ := migrates
      exact Option.isSome_of_eq_some after
    · obtain ⟨-, s, reason, -, after⟩ := gate.skips (not_exists.mp migrates)
      exact Option.isSome_of_eq_some after
  · obtain ⟨s, alive, -⟩ := ((gate.migrates m).mp migrates).1
    exact Option.isSome_of_eq_some alive

theorem skipped_of_not_migrates {before : List String} {name : String}
    (survived : (migrate config registry fs (before ++ [name])).2.isSome = true)
    (none : ∀ m, ¬ Migrates (migrate config registry fs) before name m) :
    fateOf config registry fs name = .skipped := by
  obtain ⟨alive, survives⟩ := (isSome_migrate_concat_iff config registry fs).mp survived
  cases fate : fateOf config registry fs name with
  | skipped => rfl
  | migrated l =>
    have lands := (landingOf?_eq_some config registry fs).mpr fate
    exact absurd ((migrates_iff config registry fs before name _).mpr ⟨alive, l, lands, rfl⟩) (none _)
  | died mark? =>
    rw [fate] at survives
    cases survives

/-- What the strict run lets through and what it writes is told from the landing, which the modes share if nothing is
left to look up. -/
theorem isGate_of_isSome {before : List String} {name : String}
    (survived : (migrate (config.inMode true) registry fs (before ++ [name])).2.isSome = true)
    (lenientAlive : ∀ m, Migrates (migrate (config.inMode true) registry fs) before name m →
      (migrate (config.inMode false) registry fs before).2.isSome = true) :
    IsGate (migrate (config.inMode true) registry fs) (migrate (config.inMode false) registry fs) before name := by
  have strictAlive := ((isSome_migrate_concat_iff _ registry fs).mp survived).1
  refine ⟨fun m => ⟨fun migrates => ?_, fun ⟨migrates, resolved⟩ => ?_⟩, fun m migrates => ?_, fun none => ?_⟩
  · obtain ⟨-, l, lands, rfl⟩ := (migrates_iff _ registry fs before name m).mp migrates
    obtain ⟨lenientLands, resolved⟩ := (landingOf?_strict config registry fs name l).mp lands
    exact ⟨(migrates_iff _ registry fs before name _).mpr ⟨lenientAlive _ migrates, l, lenientLands, rfl⟩, resolved⟩
  · obtain ⟨-, l, lands, rfl⟩ := (migrates_iff _ registry fs before name m).mp migrates
    have strictLands := (landingOf?_strict config registry fs name l).mpr ⟨lands, resolved⟩
    exact (migrates_iff _ registry fs before name _).mpr ⟨strictAlive, l, strictLands, rfl⟩
  · obtain ⟨-, l, lands, rfl⟩ := (migrates_iff _ registry fs before name m).mp migrates
    have lenientLands := ((landingOf?_strict config registry fs name l).mp lands).1
    have strictWrote := wrote_of_landing _ registry fs strictAlive lands
    have lenientWrote := wrote_of_landing _ registry fs (lenientAlive _ migrates) lenientLands
    exact ⟨l.file, l.rendition.text, strictWrote, lenientWrote, read_output _ registry fs lands strictWrote.here,
      read_output _ registry fs lenientLands lenientWrote.here⟩
  · exact skips_of_skipped _ registry fs strictAlive (skipped_of_not_migrates _ registry fs survived none)

/-- Strict mode is a gate at a name exactly if the process of the strict run dies neither of it nor before it, and that
of the lenient run does not die before a resource that the strict run migrates.  A strict run comes through every name
that a lenient run comes through, and strict mode is a gate at each of them. -/
theorem strict_mode_is_gate_iff (before : List String) (name : String) :
    let strict := migrate (config.inMode true) registry fs
    let lenient := migrate (config.inMode false) registry fs
    (IsGate strict lenient before name ↔ (strict (before ++ [name])).2.isSome = true ∧
      ∀ m, Migrates strict before name m → (lenient before).2.isSome = true) ∧
    ((lenient (before ++ [name])).2.isSome = true →
      (strict (before ++ [name])).2.isSome = true ∧ IsGate strict lenient before name) := by
  intro strict lenient
  refine ⟨⟨isSome_of_isGate, fun ⟨survived, alive⟩ => isGate_of_isSome config registry fs survived alive⟩,
    fun survived => ?_⟩
  have strictSurvived : (strict (before ++ [name])).2.isSome = true :=
    (isSome_migrate_iff _ registry fs _).mpr fun other mem =>
      survives_strict config registry fs ((isSome_migrate_iff _ registry fs _).mp survived other mem)
  have lenientAlive := ((isSome_migrate_concat_iff _ registry fs).mp survived).1
  exact ⟨strictSurvived, isGate_of_isSome config registry fs strictSurvived fun _ _ => lenientAlive⟩

/-- Where the renditions of names go, one after another. -/
def landings (names : List String) : List Landing := names.filterMap (landingOf? config registry fs)

theorem landings_concat (names : List String) (name : String) :
    landings config registry fs (names ++ [name]) =
      landings config registry fs names ++ (landingOf? config registry fs name).toList := by
  cases lands : landingOf? config registry fs name <;> simp [landings, lands]

theorem mem_landings {names : List String} {l : Landing} :
    l ∈ landings config registry fs names ↔ ∃ name ∈ names, landingOf? config registry fs name = some l := by
  simp [landings]

theorem migrated_migrate {names : List String} {summary : Summary}
    (returns : (migrate config registry fs names).2 = some summary) :
    summary.migrated = (landings config registry fs names).map Landing.migrated := by
  induction names using List.reverseRecOn generalizing summary with
  | nil =>
    cases returns
    rfl
  | append_singleton names name ih =>
    obtain ⟨before, after⟩ := (isSome_migrate_concat_iff config registry fs).mp (Option.isSome_of_eq_some returns)
    obtain ⟨s, alive⟩ := Option.isSome_iff_exists.mp before
    have step := (migrate_concat_cases config registry alive name).2
    rw [returns] at step
    rw [landings_concat, List.map_append, ← ih alive, landingOf?]
    cases fate : fateOf config registry fs name with
    | skipped =>
      rw [fate] at step
      obtain ⟨reason, step⟩ := step
      cases step
      simp [Summary.addSkipped, Fate.landing?]
    | migrated l =>
      rw [fate] at step
      cases step
      simp [Summary.addMigrated, Fate.landing?]
    | died mark? =>
      rw [fate] at step
      cases step

/-- The last landing in a file. -/
def lastIn (ls : List Landing) (file : List String) : Option Landing := ls.reverse.find? (·.file == file)

theorem lastIn_concat (ls : List Landing) (l : Landing) (file : List String) :
    lastIn (ls ++ [l]) file = if l.file = file then some l else lastIn ls file := by
  by_cases here : l.file = file <;> simp [lastIn, here]

theorem lastIn_of_mem {ls : List Landing} {l : Landing} (mem : l ∈ ls) :
    ∃ k ∈ ls, k.file = l.file ∧ lastIn ls l.file = some k := by
  have found : (lastIn ls l.file).isSome := List.find?_isSome.mpr ⟨l, List.mem_reverse.mpr mem, beq_self_eq_true _⟩
  obtain ⟨k, last⟩ := Option.isSome_iff_exists.mp found
  have same := List.find?_some last
  exact ⟨k, List.mem_reverse.mp (List.mem_of_find?_eq_some last), by simpa using same, last⟩

theorem get?_migrate {names : List String} (returns : (migrate config registry fs names).2.isSome = true)
    (file : List String) : (migrate config registry fs names).1.get? file =
      match lastIn (landings config registry fs names) file with
      | some l => some (.file (.text l.rendition.text))
      | none => fs.get? file := by
  induction names using List.reverseRecOn with
  | nil => rfl
  | append_singleton names name ih =>
    obtain ⟨before, after⟩ := (isSome_migrate_concat_iff config registry fs).mp returns
    obtain ⟨s, alive⟩ := Option.isSome_iff_exists.mp before
    have marked := (migrate_concat_cases config registry alive name).1
    rw [landings_concat, landingOf?]
    cases fate : fateOf config registry fs name with
    | skipped =>
      rw [fate] at marked
      have same : (migrate config registry fs (names ++ [name])).1 = (migrate config registry fs names).1 := marked
      have nothing : Fate.skipped.landing? = none := rfl
      rw [same, ih before, nothing, Option.toList_none, List.append_nil]
    | migrated l =>
      rw [fate] at marked
      have wrote : Files.Wrote l.file l.rendition.text (migrate config registry fs names).1
          (migrate config registry fs (names ++ [name])).1 := marked
      rw [Fate.landing?, Option.toList_some, lastIn_concat]
      by_cases here : l.file = file
      · rw [if_pos here, ← here, wrote.here]
      · rw [if_neg here, wrote.elsewhere file (Ne.symm here), ih before]
    | died mark? =>
      rw [fate] at after
      cases after

section Returns
variable {names : List String} {summary : Summary} (returns : (migrate config registry fs names).2 = some summary)
include returns

theorem read_output_eq_last {l : Landing} (mem : l ∈ landings config registry fs names) :
    ∃ k ∈ landings config registry fs names, k.file = l.file ∧
      lastIn (landings config registry fs names) l.file = some k ∧
      (migrate config registry fs names).1.read l.rendition.output = .ok k.rendition.text := by
  obtain ⟨name, -, lands⟩ := (mem_landings config registry fs).mp mem
  obtain ⟨k, landed, same, last⟩ := lastIn_of_mem mem
  refine ⟨k, landed, same, last, read_output config registry fs lands ?_⟩
  rw [get?_migrate config registry fs (Option.isSome_of_eq_some returns), last]

/-- When a run returns, every path that its summary lists reads as the rendition that landed last in its file, so each
holds the rendition of its own resource exactly if no two that differ go to one file. -/
theorem outputs_hold_renditions_iff :
    summary.migrated = (landings config registry fs names).map Landing.migrated ∧
    (∀ l ∈ landings config registry fs names, ∃ k ∈ landings config registry fs names,
      lastIn (landings config registry fs names) l.file = some k ∧
        (migrate config registry fs names).1.read l.rendition.output = .ok k.rendition.text) ∧
    ((∀ l ∈ landings config registry fs names,
        (migrate config registry fs names).1.read l.rendition.output = .ok l.rendition.text) ↔
      ∀ k ∈ landings config registry fs names, ∀ l ∈ landings config registry fs names,
        k.file = l.file → k.rendition.text = l.rendition.text) := by
  refine ⟨migrated_migrate config registry fs returns, fun l mem => ?_, fun held k hk l hl same => ?_,
    fun alike l mem => ?_⟩
  · obtain ⟨k, landed, -, last, read⟩ := read_output_eq_last config registry fs returns mem
    exact ⟨k, landed, last, read⟩
  · obtain ⟨a, -, -, lastK, readK⟩ := read_output_eq_last config registry fs returns hk
    obtain ⟨b, -, -, lastL, readL⟩ := read_output_eq_last config registry fs returns hl
    rw [same, lastL] at lastK
    obtain rfl := Option.some.inj lastK
    rw [held k hk] at readK
    rw [held l hl] at readL
    exact (Except.ok.inj readK).trans (Except.ok.inj readL).symm
  · obtain ⟨k, landed, same, -, read⟩ := read_output_eq_last config registry fs returns mem
    rw [read, alike k landed l mem same]

end Returns
end Run

def tagSource : String :=
  "fn tag() -> Resource \x7b Resource \x7b create: add, read: show, delete: drop, schema: [] \x7d \x7d
fn add() \x7b\x7d
fn show() \x7b\x7d
fn drop() \x7b\x7d
"

/-- The source, with an old output beside it. -/
def tagFiles : Files where
  entries :=
    [(["src"], .directory), (["src", "tag_typed.rs"], .file (.text "")), (["src", "tag.rs"], .file (.text tagSource))]

/-- A configuration that knows no imports. -/
def tagConfig : Config where
  knownImports := []

def tagRegistry : Registry := Registry.ofSources tagConfig [("src/tag.rs", tagSource)]

def tagItems : Trees :=
  let fields := [("create", var "add"), ("read", var "show"), ("delete", var "drop"), ("schema", arrayOf [])]
  [plainFn "tag" (.node .output [op "->", typeOf "Resource"])
      [tailStmt (Rewrite.literalOf "Resource" (fields.map fun (name, value) => Rewrite.fieldValueOf name value))],
    plainFn "add" Tree.absent [], plainFn "show" Tree.absent [], plainFn "drop" Tree.absent []]

def tagEntry : RegistryEntry := ⟨"azurerm_tag", "tag", "src/tag.rs", tagItems⟩

theorem Registry.ofSources_of_parseFile {config : Config} {path source : String} {items : Trees}
    (read : parseFile source = some items) : ofSources config [(path, source)] = ofFiles config [⟨path, items⟩] := by
  simp only [ofSources, List.filterMap_cons, List.filterMap_nil, ParsedFile.ofSource?, read, Option.map_some]

theorem tagRegistry_eq : tagRegistry = [("azurerm_tag", tagEntry)] := by
  have read : parseFile tagSource = some tagItems := by decide +kernel
  rw [tagRegistry, Registry.ofSources_of_parseFile read]
  rfl

-- With no names known to import the text of the typed file need not be evaluated.
theorem tag_lands : ∃ l, landingOf? tagConfig tagRegistry tagFiles "tag" = some l ∧
    l.rendition.output = "src/tag_typed.rs" := by
  have printed : ((Resource.ofEntry tagConfig tagEntry).toOption.any fun resource =>
      (Rewrite.rewriteResource? tagConfig resource).any fun rewritten =>
        (TypedFile.items tagConfig rewritten.2.promoted rewritten.1).toOption.any fun items =>
          (Format.code? items).isSome) = true := by
    decide +kernel
  obtain ⟨resource, analysed, printed⟩ := (Option.any_eq_true _ _).mp printed
  obtain ⟨⟨rewritten, state⟩, rewrites, printed⟩ := (Option.any_eq_true _ _).mp printed
  obtain ⟨items, assembled, printed⟩ := (Option.any_eq_true _ _).mp printed
  obtain ⟨text, printed⟩ := Option.isSome_iff_exists.mp printed
  have output : Path.output tagEntry.path tagConfig.outputSuffix = "src/tag_typed.rs" := by decide +kernel
  have found : tagFiles.target? "src/tag_typed.rs" = some ["src", "tag_typed.rs"] := by decide +kernel
  have sound : tagConfig.fault? = none := by decide +kernel
  have known : Imports.Known.ofTable tagConfig.knownImports = [] := rfl
  have lenient : tagConfig.strict = false := rfl
  have fate : Fate.ofEntry tagConfig tagFiles tagEntry = .migrated
      ⟨"azurerm_tag", ⟨"src/tag_typed.rs", text, state.unresolved⟩, ["src", "tag_typed.rs"]⟩ := by
    simp only [Fate.ofEntry, sound, toOption_eq_some.mp analysed, rewrites, lenient, Bool.false_and,
      Bool.false_eq_true, if_false, toOption_eq_some.mp assembled, Fate.ofItems, printed, output, found, known,
      Imports.fixedText?_nil]
    rfl
  have named : fateOf tagConfig tagRegistry tagFiles "tag" = Fate.ofEntry tagConfig tagFiles tagEntry := by
    rw [fateOf, tagRegistry_eq]
    rfl
  exact ⟨_, (landingOf?_eq_some tagConfig tagRegistry tagFiles).mpr (named.trans fate), rfl⟩

theorem tag_survives : (fateOf tagConfig tagRegistry tagFiles "tag").survives = true := by
  obtain ⟨l, lands, -⟩ := tag_lands
  rw [(landingOf?_eq_some tagConfig tagRegistry tagFiles).mp lands]
  rfl

/-- The output of the one resource reads as its rendition. -/
theorem outputs_hold_renditions_tag : ∃ summary, (migrate tagConfig tagRegistry tagFiles ["tag"]).2 = some summary ∧
    summary.migrated.map (·.output) = ["src/tag_typed.rs"] ∧
    ∀ l ∈ landings tagConfig tagRegistry tagFiles ["tag"],
      (migrate tagConfig tagRegistry tagFiles ["tag"]).1.read l.rendition.output = .ok l.rendition.text := by
  have survives : (migrate tagConfig tagRegistry tagFiles ["tag"]).2.isSome = true :=
    (isSome_migrate_iff tagConfig tagRegistry tagFiles _).mpr (List.forall_mem_singleton.mpr tag_survives)
  obtain ⟨summary, returns⟩ := Option.isSome_iff_exists.mp survives
  obtain ⟨l, lands, output⟩ := tag_lands
  have one : landings tagConfig tagRegistry tagFiles ["tag"] = [l] := by
    rw [landings, List.filterMap_cons, lands]
    rfl
  obtain ⟨migrated, -, held⟩ := outputs_hold_renditions_iff tagConfig tagRegistry tagFiles returns
  refine ⟨summary, returns, ?_, held.mpr ?_⟩
  · rw [migrated, one]
    exact congrArg (fun path => [path]) output
  · rw [one]
    simp only [List.mem_singleton, forall_eq, imp_self]

end Retype
