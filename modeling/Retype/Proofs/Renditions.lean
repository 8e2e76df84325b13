import Mathlib.Data.List.Induction
import Retype.Migration
import Retype.Proofs.Analysis
import Retype.Proofs.FileWrites
import Retype.Proofs.Mode

/-! What a migration writes.  The text of a typed file, its place and the look-ups left in it follow from the
configuration and the registry entry; of the files only the directories matter, and these no run changes.  So what
becomes of a name, and whether the process dies of it, does not depend on the names before it. -/

namespace Retype
open Retype.Code

namespace Imports

/-- A text with its imports fixed, unless the process dies of that; one that does not parse stays as it is. -/
def fixedText? (known : Known) (source : String) : Option String :=
  match parseFile source with
  | none => some source
  | some items =>
    let attrs := items.filter ParsedFile.isAttr
    match fix? known attrs (items.filter fun t => !ParsedFile.isAttr t) with
    | none => none
    | some fixed =>
      if fixed.changes = 0 then some source
      else Format.unparse? (splitInterpreter source).1 (attrs ++ fixed.items)

theorem fixedText?_nil (source : String) : fixedText? [] source = some source := by
  unfold fixedText?
  split
  · rfl
  · rename_i items parsed
    have all (ts : Trees) (referenced : List String) : ts.filter (fun t => !isUnused [] referenced t) = ts := by
      refine List.filter_eq_self.mpr fun t _ => ?_
      have unknown : isUnused [] referenced t = false := by
        rw [isUnused]
        cases (useTree? t).bind plainLeaf? <;> rfl
      rw [unknown]
      rfl
    simp only [fix?, List.filter_nil, List.mapM_nil, all, List.length_nil, Nat.sub_self]
    rfl

/-- What fixing the imports of a written file does to it, or where it ends. -/
theorem resolve_cases (known : Known) {fs : Files} {path source : String} {names : List String}
    (found : fs.target? path = some names) (here : fs.get? names = some (.file (.text source))) :
    match fixedText? known source with
    | none => resolve known fs path = .error (.died fs)
    | some text => ∃ fs', Files.Wrote names text fs fs' ∧
        ((∃ changes, resolve known fs path = .ok (fs', changes)) ∨
          resolve known fs path = .error (.failed ()) ∧ fs' = fs) := by
  have asIs : Files.Wrote names source fs fs := ⟨rfl, here, fun _ _ => rfl⟩
  rw [fixedText?, resolve, Files.read_of_target found here]
  simp only [Except.toOption, Option.bind_some, ParsedFile.ofSource?]
  cases parsed : parseFile source with
  | none => exact ⟨fs, asIs, .inr ⟨rfl, rfl⟩⟩
  | some items =>
    simp only [Option.map_some, ParsedFile.ownItems]
    cases fix : fix? known (items.filter ParsedFile.isAttr) (items.filter fun t => !ParsedFile.isAttr t) with
    | none => rfl
    | some fixed =>
      dsimp only
      by_cases unchanged : fixed.changes = 0
      · simp only [if_pos unchanged]
        exact ⟨fs, asIs, .inl ⟨0, rfl⟩⟩
      · simp only [if_neg unchanged]
        cases printed : Format.unparse? (splitInterpreter source).1 (items.filter ParsedFile.isAttr ++ fixed.items) with
        | none => rfl
        | some text =>
          refine ⟨_, Files.wrote_put (Files.target?_file found) text, .inl ⟨fixed.changes, ?_⟩⟩
          simp only [Files.write_of_target found]
          rfl

end Imports

/-- What a text is left in, and the text. -/
abbrev Mark := List String × String

/-- A text is left in one file, or all is as it was. -/
def Files.Marked (mark? : Option Mark) (fs fs' : Files) : Prop :=
  match mark? with
  | none => fs' = fs
  | some (file, text) => Wrote file text fs fs'

/-- The typed form of a resource: where it goes, its text, and the look-ups left in it. -/
structure Rendition where
  output : String
  text : String
  unresolved : List String
  deriving DecidableEq

/-- A rendition and the file that it goes to. -/
structure Landing where
  /-- The resource type. -/
  name : String
  rendition : Rendition
  file : List String

def Landing.migrated (l : Landing) : Migrated := ⟨l.name, l.rendition.output, l.rendition.unresolved⟩

/-- What becomes of an entry. -/
inductive Fate
  /-- Something is wrong with it, and no file is changed. -/
  | skipped
  | migrated (l : Landing)
  /-- The process dies of it, and may leave a text behind. -/
  | died (mark? : Option Mark)

namespace Fate

def landing? : Fate → Option Landing
  | migrated l => some l
  | _ => none

def survives : Fate → Bool
  | died _ => false
  | _ => true

/-- The text that is left of an entry. -/
def mark? : Fate → Option Mark
  | skipped => none
  | migrated l => some (l.file, l.rendition.text)
  | died mark? => mark?

/-- What becomes of typed items that are written to the output of an entry. -/
def ofItems (config : Config) (fs : Files) (entry : RegistryEntry) (unresolved : List String) (items : Trees) : Fate :=
  let output := Path.output entry.path config.outputSuffix
  match Format.code? items with
  | none => died none
  | some text =>
    match fs.target? output with
    | none => skipped
    | some file =>
      match Imports.fixedText? (Imports.Known.ofTable config.knownImports) text with
      | none => died (some (file, text))
      | some typed => migrated ⟨entry.name, ⟨output, typed, unresolved⟩, file⟩

/-- What becomes of an entry, step by step. -/
def ofEntry (config : Config) (fs : Files) (entry : RegistryEntry) : Fate :=
  match config.fault?, Resource.ofEntry config entry with
  | none, .ok resource =>
    match Rewrite.rewriteResource? config resource with
    | none => died none
    | some (rewritten, state) =>
      if config.strict && !state.unresolved.isEmpty then skipped
      else
        match TypedFile.items config state.promoted rewritten with
        | .ok items => ofItems config fs entry state.unresolved items
        | .error _ => skipped
  | _, _ => skipped

theorem ofEntry_congr {fs fs' : Files} (same : Files.SameDirectories fs fs') (config : Config) (entry : RegistryEntry) :
    ofEntry config fs entry = ofEntry config fs' entry := by
  unfold ofEntry ofItems
  simp only [Files.target?_congr same]

theorem ofItems_eq_migrated {config : Config} {fs : Files} {entry : RegistryEntry} {unresolved : List String}
    {items : Trees} {l : Landing} (lands : ofItems config fs entry unresolved items = migrated l) :
    l.rendition.output = Path.output entry.path config.outputSuffix ∧ fs.target? l.rendition.output = some l.file ∧
      l.rendition.unresolved = unresolved := by
  unfold ofItems at lands
  generalize Path.output entry.path config.outputSuffix = output at lands ⊢
  cases printed : Format.code? items with
  | none => simp only [printed, reduceCtorEq] at lands
  | some text =>
    cases found : fs.target? output with
    | none => simp only [printed, found, reduceCtorEq] at lands
    | some file =>
      cases typed : Imports.fixedText? (Imports.Known.ofTable config.knownImports) text with
      | none => simp only [printed, found, typed, reduceCtorEq] at lands
      | some typed' =>
        simp only [printed, found, typed, migrated.injEq] at lands
        subst lands
        exact ⟨rfl, found, rfl⟩

theorem ofItems_marks {config : Config} {fs : Files} {entry : RegistryEntry} {unresolved : List String} {items : Trees}
    {mark : Mark} (marks : (ofItems config fs entry unresolved items).mark? = some mark) :
    fs.target? (Path.output entry.path config.outputSuffix) = some mark.1 := by
  unfold ofItems at marks
  generalize Path.output entry.path config.outputSuffix = output at marks ⊢
  cases printed : Format.code? items with
  | none => simp only [printed, mark?, reduceCtorEq] at marks
  | some text =>
    cases found : fs.target? output with
    | none => simp only [printed, found, mark?, reduceCtorEq] at marks
    | some file =>
      cases typed : Imports.fixedText? (Imports.Known.ofTable config.knownImports) text with
      | none =>
        simp only [printed, found, typed, mark?, Option.some.injEq] at marks
        rw [← marks]
      | some typed' =>
        simp only [printed, found, typed, mark?, Option.some.injEq] at marks
        rw [← marks]

theorem ofItems_inMode (config : Config) (strict : Bool) (fs : Files) (entry : RegistryEntry) (unresolved : List String)
    (items : Trees) : ofItems (config.inMode strict) fs entry unresolved items = ofItems config fs entry unresolved items := by
  have suffix : (config.inMode strict).outputSuffix = config.outputSuffix := rfl
  have known : (config.inMode strict).knownImports = config.knownImports := rfl
  rw [ofItems, ofItems, suffix, known]

theorem ofEntry_strict (config : Config) (fs : Files) (entry : RegistryEntry) :
    let strict := ofEntry (config.inMode true) fs entry
    let lenient := ofEntry (config.inMode false) fs entry
    strict = lenient ∧ (∀ l, lenient = migrated l → l.rendition.unresolved = []) ∨
      strict = skipped ∧ ∀ l, lenient = migrated l → l.rendition.unresolved ≠ [] := by
  simp only [ofEntry, Config.fault?_inMode, Resource.ofEntry_inMode, Rewrite.rewriteResource?_inMode,
    TypedFile.items_inMode, ofItems_inMode]
  split
  · split
    · exact .inl ⟨rfl, fun l lands => by cases lands⟩
    · rename_i rewritten state _
      have lenient : (config.inMode false).strict = false := rfl
      have strict : (config.inMode true).strict = true := rfl
      rw [lenient, strict, Bool.false_and, if_neg Bool.false_ne_true, Bool.true_and]
      by_cases resolved : state.unresolved = []
      · rw [if_neg (by simp [resolved])]
        refine .inl ⟨rfl, fun l lands => ?_⟩
        split at lands
        · rw [(ofItems_eq_migrated lands).2.2, resolved]
        · cases lands
      · rw [if_pos (by simp [resolved])]
        refine .inr ⟨rfl, fun l lands => ?_⟩
        split at lands
        · rwa [(ofItems_eq_migrated lands).2.2]
        · cases lands
  · exact .inl ⟨rfl, fun l lands => by cases lands⟩

end Fate

theorem emit_cases (config : Config) (fs : Files) (entry : RegistryEntry) (unresolved : List String) (items : Trees) :
    ∃ fs', Files.Marked (Fate.ofItems config fs entry unresolved items).mark? fs fs' ∧
      match Fate.ofItems config fs entry unresolved items with
      | .skipped => ∃ e, emit config fs entry.path items = .error (.failed e)
      | .migrated l => emit config fs entry.path items = .ok (fs', l.rendition.output) ∧
          l.migrated = ⟨entry.name, l.rendition.output, unresolved⟩
      | .died _ => emit config fs entry.path items = .error (.died fs') := by
  unfold Fate.ofItems emit writeCode
  generalize Path.output entry.path config.outputSuffix = output
  cases printed : Format.code? items with
  | none => exact ⟨fs, rfl, rfl⟩
  | some text =>
    dsimp only
    cases found : fs.target? output with
    | none =>
      cases written : fs.write output text with
      | error e => exact ⟨fs, rfl, ⟨output, e⟩, rfl⟩
      | ok fs' =>
        obtain ⟨names, some, -⟩ := Files.write_eq_ok.mp written
        rw [found] at some
        cases some
    | some names =>
      have first := Files.wrote_put (Files.target?_file found) text
      have again : (fs.put names (.file (.text text))).target? output = some names :=
        (Files.target?_congr (first.sameDirectories (Files.target?_file found)) output).symm.trans found
      rw [Files.write_of_target found]
      dsimp only
      have ended := Imports.resolve_cases (Imports.Known.ofTable config.knownImports) again first.here
      cases typed : Imports.fixedText? (Imports.Known.ofTable config.knownImports) text with
      | none =>
        rw [typed] at ended
        refine ⟨_, first, ?_⟩
        simp only [Except.mapError, bind, Except.bind, ended]
        rfl
      | some typed' =>
        rw [typed] at ended
        obtain ⟨fs', wrote, ⟨changes, resolved⟩ | ⟨failed, rfl⟩⟩ := ended
        · refine ⟨fs', first.again wrote, ?_, rfl⟩
          simp only [Except.mapError, bind, Except.bind, resolved]
          rfl
        · refine ⟨_, first.again wrote, ?_, rfl⟩
          simp only [Except.mapError, bind, Except.bind, failed]
          rfl

/-- The typed items of an entry that comes through every check before the file is written. -/
inductive Admitted (config : Config) (entry : RegistryEntry) : Trees → Prop
  | intro {resource rewritten : Resource} {state : Rewrite.State} {items : Trees} (sound : config.fault? = none)
      (analysed : Resource.ofEntry config entry = .ok resource)
      (rewrites : Rewrite.rewriteResource? config resource = some (rewritten, state))
      (resolved : config.strict = true → state.unresolved = [])
      (assembled : TypedFile.items config state.promoted rewritten = .ok items) : Admitted config entry items

/-- A migration fails before it comes to the files, or the process dies of rewriting, or the entry comes through every
check and its typed file is written. -/
theorem migrateEntry_stages (config : Config) (entry : RegistryEntry) :
    (∃ e, ∀ fs, migrateEntry config fs entry = .error (.failed e) ∧ Fate.ofEntry config fs entry = .skipped) ∨
    (∀ fs, migrateEntry config fs entry = .error (.died fs) ∧ Fate.ofEntry config fs entry = .died none) ∨
    ∃ items unresolved, Admitted config entry items ∧ ∀ fs,
      Fate.ofEntry config fs entry = Fate.ofItems config fs entry unresolved items ∧
      migrateEntry config fs entry = match emit config fs entry.path items with
        | .ok (fs', output) => .ok (fs', ⟨entry.name, output, unresolved⟩)
        | .error halt => .error (halt.map .write) := by
  cases sound : config.fault? with
  | some e =>
    refine .inl ⟨.config e, fun fs => ?_⟩
    rw [migrateEntry, Fate.ofEntry, sound]
    exact ⟨rfl, rfl⟩
  | none =>
    cases analysed : Resource.ofEntry config entry with
    | error e =>
      refine .inl ⟨.analysis e, fun fs => ?_⟩
      rw [migrateEntry, Fate.ofEntry, sound, analysed]
      exact ⟨rfl, rfl⟩
    | ok resource =>
      cases rewrites : Rewrite.rewriteResource? config resource with
      | none =>
        refine .inr (.inl fun fs => ?_)
        simp only [migrateEntry, Fate.ofEntry, sound, analysed, rewrites, bind, Except.bind, Except.mapError]
        exact ⟨rfl, trivial⟩
      | some rewritten =>
        obtain ⟨rewritten, state⟩ := rewritten
        cases passed : config.strict && !state.unresolved.isEmpty with
        | true =>
          refine .inl ⟨.unresolved entry.name state.unresolved.length, fun fs => ?_⟩
          simp only [migrateEntry, Fate.ofEntry, sound, analysed, rewrites, passed, bind, Except.bind, Except.mapError,
            if_true]
          exact ⟨rfl, trivial⟩
        | false =>
          cases assembled : TypedFile.items config state.promoted rewritten with
          | error e =>
            refine .inl ⟨.assembly e, fun fs => ?_⟩
            simp only [migrateEntry, Fate.ofEntry, sound, analysed, rewrites, passed, assembled, bind, Except.bind,
              Except.mapError, Bool.false_eq_true, if_false]
            exact ⟨trivial, trivial⟩
          | ok items =>
            refine .inr (.inr ⟨items, state.unresolved,
              ⟨sound, analysed, rewrites, fun strict => by simpa [strict] using passed, assembled⟩, fun fs => ?_⟩)
            simp only [migrateEntry, Fate.ofEntry, sound, analysed, rewrites, passed, assembled, bind, Except.bind,
              Except.mapError, Bool.false_eq_true, if_false]
            refine ⟨trivial, ?_⟩
            cases emit config fs entry.path items <;> rfl

theorem migrateEntry_cases (config : Config) (fs : Files) (entry : RegistryEntry) :
    ∃ fs', Files.Marked (Fate.ofEntry config fs entry).mark? fs fs' ∧
      match Fate.ofEntry config fs entry with
      | .skipped => ∃ e, migrateEntry config fs entry = .error (.failed e)
      | .migrated l => migrateEntry config fs entry = .ok (fs', l.migrated)
      | .died _ => migrateEntry config fs entry = .error (.died fs') := by
  rcases migrateEntry_stages config entry with ⟨e, failed⟩ | died | ⟨items, unresolved, -, written⟩
  · rw [(failed fs).2]
    exact ⟨fs, rfl, e, (failed fs).1⟩
  · rw [(died fs).2]
    exact ⟨fs, rfl, (died fs).1⟩
  · obtain ⟨fate, step⟩ := written fs
    obtain ⟨fs', marked, emitted⟩ := emit_cases config fs entry unresolved items
    rw [fate, step]
    refine ⟨fs', marked, ?_⟩
    cases ends : Fate.ofItems config fs entry unresolved items with
    | skipped =>
      rw [ends] at emitted
      obtain ⟨e, emitted⟩ := emitted
      exact ⟨.write e, by rw [emitted]; rfl⟩
    | migrated l =>
      rw [ends] at emitted
      obtain ⟨emitted, named⟩ := emitted
      dsimp only
      rw [emitted, named]
    | died mark? =>
      rw [ends] at emitted
      dsimp only at emitted ⊢
      rw [emitted]
      rfl

section Run
variable (config : Config) (registry : Registry)

/-- What becomes of a name. -/
def fateOf (fs : Files) (name : String) : Fate :=
  match registry.resolve name config.namePrefix with
  | none => .skipped
  | some entry => Fate.ofEntry config fs entry

theorem fateOf_congr {fs fs' : Files} (same : Files.SameDirectories fs fs') (name : String) :
    fateOf config registry fs name = fateOf config registry fs' name := by
  unfold fateOf
  simp only [Fate.ofEntry_congr same]

theorem fateOf_strict (fs : Files) (name : String) :
    let strict := fateOf (config.inMode true) registry fs name
    let lenient := fateOf (config.inMode false) registry fs name
    strict = lenient ∧ (∀ l, lenient = .migrated l → l.rendition.unresolved = []) ∨
      strict = .skipped ∧ ∀ l, lenient = .migrated l → l.rendition.unresolved ≠ [] := by
  have same : registry.resolve name (config.inMode true).namePrefix =
      registry.resolve name (config.inMode false).namePrefix := rfl
  unfold fateOf
  rw [same]
  cases registry.resolve name (config.inMode false).namePrefix with
  | none => exact .inl ⟨rfl, fun l lands => by cases lands⟩
  | some entry => exact Fate.ofEntry_strict config fs entry

theorem migrateName_cases (fs : Files) (s : Summary) (name : String) :
    ∃ fs', Files.Marked (fateOf config registry fs name).mark? fs fs' ∧
      match fateOf config registry fs name with
      | .skipped => ∃ reason, migrateName config registry fs s name = (fs', some (s.addSkipped ⟨name, reason⟩))
      | .migrated l => migrateName config registry fs s name = (fs', some (s.addMigrated l.migrated))
      | .died _ => migrateName config registry fs s name = (fs', none) := by
  unfold fateOf migrateName
  cases registry.resolve name config.namePrefix with
  | none => exact ⟨fs, rfl, _, rfl⟩
  | some entry =>
    obtain ⟨fs', marked, migrated⟩ := migrateEntry_cases config fs entry
    refine ⟨fs', marked, ?_⟩
    dsimp only
    cases fate : Fate.ofEntry config fs entry with
    | skipped =>
      rw [fate] at migrated marked
      obtain ⟨e, failed⟩ := migrated
      obtain rfl : fs' = fs := marked
      exact ⟨e.message, by rw [failed]⟩
    | migrated l =>
      rw [fate] at migrated
      dsimp only at migrated ⊢
      rw [migrated]
    | died mark? =>
      rw [fate] at migrated
      dsimp only at migrated ⊢
      rw [migrated]

theorem migrate_concat (fs : Files) (names : List String) (name : String) :
    migrate config registry fs (names ++ [name]) =
      (migrate config registry fs names).2.elim ((migrate config registry fs names).1, none) fun s =>
        migrateName config registry (migrate config registry fs names).1 s name := by
  simp only [migrate, List.foldl_append, List.foldl_cons, List.foldl_nil]

theorem migrate_concat_of_dead {fs : Files} {names : List String} (dead : (migrate config registry fs names).2 = none)
    (name : String) : migrate config registry fs (names ++ [name]) = migrate config registry fs names := by
  rw [migrate_concat, dead, Option.elim_none, ← dead]

theorem migrate_concat_of_alive {fs : Files} {names : List String} {s : Summary}
    (alive : (migrate config registry fs names).2 = some s) (name : String) :
    migrate config registry fs (names ++ [name]) =
      migrateName config registry (migrate config registry fs names).1 s name := by
  rw [migrate_concat, alive, Option.elim_some]

theorem fateOf_marks {fs : Files} {name : String} {mark : Mark} (marks : (fateOf config registry fs name).mark? = some mark) :
    ∃ entry items unresolved, registry.resolve name config.namePrefix = some entry ∧ Admitted config entry items ∧
      fateOf config registry fs name = Fate.ofItems config fs entry unresolved items ∧
      fs.target? (Path.output entry.path config.outputSuffix) = some mark.1 := by
  unfold fateOf at marks ⊢
  cases known : registry.resolve name config.namePrefix with
  | none =>
    rw [known] at marks
    cases marks
  | some entry =>
    rw [known] at marks
    dsimp only at marks ⊢
    rcases migrateEntry_stages config entry with ⟨_, failed⟩ | died | ⟨items, unresolved, admitted, written⟩
    · rw [(failed fs).2] at marks
      cases marks
    · rw [(died fs).2] at marks
      cases marks
    · rw [(written fs).1] at marks
      exact ⟨entry, items, unresolved, rfl, admitted, (written fs).1, Fate.ofItems_marks marks⟩

theorem sameDirectories_migrate (fs : Files) (names : List String) :
    Files.SameDirectories fs (migrate config registry fs names).1 := by
  induction names using List.reverseRecOn with
  | nil => exact .refl fs
  | append_singleton names name ih =>
    cases alive : (migrate config registry fs names).2 with
    | none => rwa [migrate_concat_of_dead config registry alive]
    | some s =>
      obtain ⟨fs', marked, step⟩ := migrateName_cases config registry (migrate config registry fs names).1 s name
      have left : (migrateName config registry (migrate config registry fs names).1 s name).1 = fs' := by
        split at step
        · obtain ⟨reason, step⟩ := step
          rw [step]
        · rw [step]
        · rw [step]
      rw [migrate_concat_of_alive config registry alive, left]
      refine ih.trans ?_
      cases marks : (fateOf config registry (migrate config registry fs names).1 name).mark? with
      | none =>
        rw [marks] at marked
        exact marked ▸ .refl _
      | some mark =>
        rw [marks] at marked
        obtain ⟨_, _, _, -, -, -, found⟩ := fateOf_marks config registry marks
        exact marked.sameDirectories (Files.target?_file found)

theorem fateOf_migrate (fs : Files) (names : List String) (name : String) :
    fateOf config registry (migrate config registry fs names).1 name = fateOf config registry fs name :=
  fateOf_congr config registry (sameDirectories_migrate config registry fs names).symm name

theorem migrate_concat_cases {fs : Files} {names : List String} {s : Summary}
    (alive : (migrate config registry fs names).2 = some s) (name : String) :
    Files.Marked (fateOf config registry fs name).mark? (migrate config registry fs names).1
        (migrate config registry fs (names ++ [name])).1 ∧
      match fateOf config registry fs name with
      | .skipped => ∃ reason, (migrate config registry fs (names ++ [name])).2 = some (s.addSkipped ⟨name, reason⟩)
      | .migrated l => (migrate config registry fs (names ++ [name])).2 = some (s.addMigrated l.migrated)
      | .died _ => (migrate config registry fs (names ++ [name])).2 = none := by
  rw [migrate_concat_of_alive config registry alive, ← fateOf_migrate config registry fs names]
  obtain ⟨fs', marked, step⟩ := migrateName_cases config registry (migrate config registry fs names).1 s name
  split at step
  · rename_i fate
    obtain ⟨reason, step⟩ := step
    rw [step, fate]
    exact ⟨fate ▸ marked, reason, rfl⟩
  · rename_i fate
    rw [step, fate]
    exact ⟨fate ▸ marked, rfl⟩
  · rename_i fate
    rw [step, fate]
    exact ⟨fate ▸ marked, rfl⟩

theorem isSome_migrate_iff (fs : Files) (names : List String) : (migrate config registry fs names).2.isSome = true ↔
    ∀ name ∈ names, (fateOf config registry fs name).survives = true := by
  induction names using List.reverseRecOn with
  | nil => simp [migrate]
  | append_singleton names name ih =>
    rw [List.forall_mem_append, List.forall_mem_singleton, ← ih]
    cases alive : (migrate config registry fs names).2 with
    | none => simp [migrate_concat_of_dead config registry alive, alive]
    | some s =>
      have step := (migrate_concat_cases config registry alive name).2
      split at step
      · rename_i fate
        obtain ⟨reason, step⟩ := step
        simp [step, fate, Fate.survives]
      · rename_i fate
        simp [step, fate, Fate.survives]
      · rename_i fate
        simp [step, fate, Fate.survives]

theorem isSome_migrate_concat_iff (fs : Files) {names : List String} {name : String} :
    (migrate config registry fs (names ++ [name])).2.isSome = true ↔
      (migrate config registry fs names).2.isSome = true ∧ (fateOf config registry fs name).survives = true := by
  rw [isSome_migrate_iff, isSome_migrate_iff, List.forall_mem_append, List.forall_mem_singleton]

end Run

end Retype
